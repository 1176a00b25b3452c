import Tonbankcard.PercentEncoding
import Tonbankcard.SdkAmount

/-! Payment links from their makers to the scanner of the mobile app: the transfer link of the
wallet page, the payment link of the merchant's widget, and what is read from them. Whether a text
is an address and whether a URL may be returned to are told by functions. -/
namespace Tonbankcard.PaymentLinks

open EcmaScript PercentEncoding

section Makers

variable (parses : JsString → Bool)

/-- `ton://transfer/` -/
def scheme : JsString := js "ton://transfer/"

/-- Decimal digits, at least one. -/
def isDigits (value : JsString) : Bool := !value.isEmpty && value.all isDigit

structure TonTransferParams where
  address : JsString
  amount : Option JsString
  text : Option JsString
  bin : Option JsString
  init : Option JsString

def filled (value : Option JsString) : Option JsString := value.filter fun text => !text.isEmpty

/-- The parameters that are given, in the order in which they are set. -/
def TonTransferParams.pairs (params : TonTransferParams) : List (JsString × JsString) :=
  (params.amount.map (js "amount",·)).toList ++ ((filled params.text).map (js "text",·)).toList ++
    ((filled params.bin).map (js "bin",·)).toList ++ ((filled params.init).map (js "init",·)).toList

/-- `none` where the builder throws. -/
def buildTonTransferLink (params : TonTransferParams) : Option JsString := do
  guard (params.address ≠ [] ∧ parses params.address = true)
  guard (params.amount.all isDigits = true)
  let address ← encodeURIComponent params.address
  let qs := serialize params.pairs
  pure (if qs.isEmpty then scheme ++ address else scheme ++ (address ++ 63 :: qs))

structure PaymentWidgetConfig where
  merchantNft : JsString
  amountTbc : JsString
  orderId : Option JsString
  description : Option JsString
  returnUrl : Option JsString

def isHexDigit (unit : UInt16) : Bool := (hexValue unit).isSome

/-- `/^(?:-?\d+:[0-9a-fA-F]{64}|[A-Za-z0-9_-]{48})$/` -/
def isTonAddressFormat (text : JsString) : Bool :=
  let unsigned := if text.head? = some 45 then text.drop 1 else text
  let workchain := unsigned.takeWhile isDigit
  let behind := unsigned.dropWhile isDigit
  (!workchain.isEmpty && behind.head? = some 58 && behind.length = 65 &&
      (behind.drop 1).all isHexDigit) ||
    (text.length = 48 && text.all fun unit =>
      isDigit unit || (65 ≤ unit && unit ≤ 90) || (97 ≤ unit && unit ≤ 122) || unit = 95 ||
        unit = 45)

/-- The comment of a payment, of the parts that are given. -/
def memo (config : PaymentWidgetConfig) : JsString :=
  (js " | ").intercalate ([js "TONBANKCARD Payment"] ++
    ((filled config.orderId).map (js "Order: " ++ ·)).toList ++ (filled config.description).toList)

def generatePaymentLink (config : PaymentWidgetConfig) : Option JsString := do
  guard (isTonAddressFormat config.merchantNft = true)
  guard (isDigits config.amountTbc = true)
  let text ← encodeURIComponent (memo config)
  let merchantNft ← encodeURIComponent config.merchantNft
  let amount ← encodeURIComponent config.amountTbc
  let link := scheme ++ merchantNft ++ js "?amount=" ++ amount ++ js "&text=" ++ text
  match filled config.returnUrl with
  | none => pure link
  | some returnUrl =>
    let returnUrl ← encodeURIComponent returnUrl
    pure (link ++ js "&return=" ++ returnUrl)

end Makers

section Scanner

variable (parses allowed : JsString → Bool)

def isLineTerminator (unit : UInt16) : Bool :=
  unit = 10 || unit = 13 || unit = 0x2028 || unit = 0x2029

/-- `/^ton:\/\/transfer\/([^?]+)\?(.+)$/` -/
def matchTonLink (link : JsString) : Option (JsString × JsString) :=
  if scheme <+: link then
    let rest := link.drop scheme.length
    let recipient := rest.takeWhile (· ≠ 63)
    let query := (rest.dropWhile (· ≠ 63)).drop 1
    if recipient ≠ [] ∧ query ≠ [] ∧ query.any isLineTerminator = false then some (recipient,query)
    else none
  else none

structure ParsedTonLink where
  recipient : JsString
  amount : Option JsString
  text : Option JsString
  returnUrl : Option JsString
  deriving DecidableEq

/-- The parameters of a link to a recipient. -/
def parseParams (recipient : JsString) (params : List (JsString × JsString)) :
    Option ParsedTonLink :=
  let returnUrl := getParam params (js "return")
  if (filled returnUrl).any (fun url => !allowed url) then none
  else some
    { recipient
      amount := getParam params (js "amount")
      text := filled (getParam params (js "text"))
      returnUrl }

def parseTonLink (link : JsString) : Option ParsedTonLink := do
  let (encodedRecipient,query) ← matchTonLink link
  let recipient ← decodeURIComponent encodedRecipient
  if parses recipient then parseParams allowed recipient (searchParams query) else none

structure ScannedPayment where
  recipient : JsString
  amountNanocoins : Option JsString
  memo : Option JsString
  returnUrl : Option JsString
  deriving DecidableEq

def tryParseTonLink (raw : JsString) : Option ScannedPayment := do
  let parsed ← parseTonLink parses allowed (trim raw)
  if parses parsed.recipient then
    if (filled parsed.amount).all isDigits then
      some ⟨parsed.recipient,parsed.amount,parsed.text,parsed.returnUrl⟩
    else none
  else none

/-- A text that is no link may be an address. -/
def scannedAddress (raw : JsString) : Option ScannedPayment :=
  if parses (trim raw) then some ⟨trim raw,none,none,none⟩ else none

def parseScannedPayment (raw : JsString) : Option ScannedPayment :=
  tryParseTonLink parses allowed raw <|> scannedAddress parses raw

end Scanner

section Reading

variable {parses allowed : JsString → Bool} {pairs : List (JsString × JsString)}
  {contents : List (List UInt8 × List UInt8)}

theorem isBlank_ascii {unit : UInt16} (low : 33 ≤ unit.toNat) (high : unit.toNat ≤ 126) :
    isBlank unit = false ∧ isLineTerminator unit = false := by
  refine ⟨SdkAmount.isBlank_visible low high,?_⟩
  simp only [isLineTerminator,Bool.or_eq_false_iff,decide_eq_false_iff_not,← UInt16.toNat_inj,
    UInt16.reduceToNat]
  omega

/-- Everything in a query is visible. -/
theorem query_visible (written : List.Forall₂ Written pairs contents) :
    ∀ unit ∈ query pairs, 33 ≤ unit.toNat ∧ unit.toNat ≤ 126 := by
  intro unit member
  rcases query_units written unit member with rfl | rfl | solid
  · decide
  · decide
  · have range := solid_range solid
    omega

theorem component_visible (component : Component units bytes) :
    ∀ unit ∈ units, 33 ≤ unit.toNat ∧ unit.toNat ≤ 126 ∧ unit ≠ 63 := by
  intro unit member
  have range := solid_range (component.solid unit member)
  simp only [ne_eq,← UInt16.toNat_inj,UInt16.reduceToNat]
  omega

theorem scheme_visible : ∀ unit ∈ scheme, 33 ≤ unit.toNat ∧ unit.toNat ≤ 126 := by
  have visible : scheme.all (fun unit => 33 ≤ unit && unit ≤ 126) = true := by decide
  simpa [List.all_eq_true,UInt16.le_iff_toNat_le] using visible

theorem query_filled (nonempty : pairs ≠ []) : query pairs ≠ [] := by
  obtain ⟨pair,rest,rfl⟩ := List.exists_cons_of_ne_nil nonempty
  cases rest with
  | nil => simp [query]
  | cons next rest => simp [query,List.intercalate_cons_cons]

/-- A query does not begin with a question mark. -/
theorem searchParams_query (written : List.Forall₂ Written pairs contents) :
    searchParams (query pairs) = parseQuery (query pairs) := by
  cases units : query pairs with
  | nil => rfl
  | cons unit rest =>
    have apart : unit ≠ 63 := by
      rcases query_units written unit (units ▸ List.mem_cons_self) with rfl | rfl | solid
      · decide
      · decide
      · rintro rfl
        exact absurd solid (by decide)
    rw [searchParams,if_neg apart]

variable {address encoded : JsString}

theorem matchTonLink_link (recipient : Component encoded bytes) (filled : encoded ≠ [])
    (written : List.Forall₂ Written pairs contents) (nonempty : pairs ≠ []) :
    matchTonLink (scheme ++ (encoded ++ 63 :: query pairs)) = some (encoded,query pairs) := by
  have passes : ∀ unit ∈ encoded, decide (unit ≠ 63) = true := fun unit member =>
    decide_eq_true (component_visible recipient unit member).2.2
  have noTerminator : (query pairs).any isLineTerminator = false := by
    refine List.any_eq_false.mpr fun unit member => ?_
    have visible := query_visible written unit member
    rw [(isBlank_ascii visible.1 visible.2).2]
    exact Bool.false_ne_true
  rw [matchTonLink,if_pos (List.prefix_append _ _)]
  simp only [List.drop_left,List.takeWhile_append_of_pos passes,
    List.dropWhile_append_of_pos passes]
  simp [filled,query_filled nonempty,noTerminator]

/-- A link made of encoded components is read as what was encoded. -/
theorem parseTonLink_link (recipient : encodeURIComponent address = some encoded)
    (filled : encoded ≠ []) (written : List.Forall₂ Written pairs contents)
    (nonempty : pairs ≠ []) :
    parseTonLink parses allowed (scheme ++ (encoded ++ 63 :: query pairs)) =
      if parses address then parseParams allowed address
        (contents.map fun bytes => (Unicode.decodeUtf8 bytes.1,Unicode.decodeUtf8 bytes.2))
      else none := by
  have component := encodeURIComponent_component recipient
  rw [parseTonLink,matchTonLink_link component filled written nonempty]
  simp only [Option.bind_eq_bind,Option.bind_some,decodeURIComponent_encode recipient,
    searchParams_query written,parseQuery_query written]

theorem trim_visible {text : JsString}
    (visible : ∀ unit ∈ text, 33 ≤ unit.toNat ∧ unit.toNat ≤ 126) : trim text = text :=
  trim_solid fun unit member =>
    (isBlank_ascii (visible unit member).1 (visible unit member).2).1

theorem bare_visible (recipient : Component encoded bytes) :
    ∀ unit ∈ scheme ++ encoded, 33 ≤ unit.toNat ∧ unit.toNat ≤ 126 := by
  intro unit member
  rcases List.mem_append.mp member with inScheme | inAddress
  · exact scheme_visible unit inScheme
  · exact ⟨(component_visible recipient unit inAddress).1,
      (component_visible recipient unit inAddress).2.1⟩

theorem trim_link (recipient : Component encoded bytes)
    (written : List.Forall₂ Written pairs contents) :
    trim (scheme ++ (encoded ++ 63 :: query pairs)) =
      scheme ++ (encoded ++ 63 :: query pairs) := by
  refine trim_visible fun unit member => ?_
  rw [← List.append_assoc,List.mem_append,List.mem_cons] at member
  rcases member with bare | rfl | inQuery
  · exact bare_visible recipient unit bare
  · decide
  · exact query_visible written unit inQuery

end Reading

section Roundtrips

variable {parses allowed : JsString → Bool} {link : JsString}

/-- What a text is read back as: lone surrogates are replaced. -/
def toWellFormed (text : JsString) : JsString :=
  Unicode.utf16 ((Unicode.codePoints text).map Unicode.scalar)

theorem decodeUtf8_encoded (text : JsString) :
    Unicode.decodeUtf8 (Unicode.encodeUtf8 text) = toWellFormed text :=
  Unicode.decodeUtf8_utf8 _

theorem toWellFormed_wellFormed {text : JsString} (wellFormed : isWellFormed text = true) :
    toWellFormed text = text := Unicode.utf16_codePoints wellFormed

theorem toWellFormed_isEmpty (text : JsString) : (toWellFormed text).isEmpty = text.isEmpty := by
  cases text with
  | nil => rfl
  | cons unit rest =>
    obtain ⟨point,points,read⟩ : ∃ point points,
        Unicode.codePoints (unit :: rest) = point :: points := by
      cases rest with
      | nil => exact ⟨_,_,rfl⟩
      | cons next rest =>
        rw [Unicode.codePoints]
        split <;> exact ⟨_,_,rfl⟩
    have filled : Unicode.utf16Char (Unicode.scalar point) ≠ [] := by
      rw [Unicode.utf16Char]
      split <;> exact List.cons_ne_nil _ _
    rw [toWellFormed,read,List.map_cons,Unicode.utf16,List.flatMap_cons]
    simp [filled]

theorem isDigits_ascii {value : JsString} (digits : isDigits value = true) :
    toWellFormed value = value := by
  refine toWellFormed_wellFormed (isWellFormed_ascii fun unit member => ?_)
  rw [isDigits,Bool.and_eq_true,List.all_eq_true] at digits
  have range := SdkAmount.isDigit_range (digits.2 unit member)
  simp only [UInt16.lt_iff_toNat_lt,UInt16.reduceToNat]
  omega

theorem getParam_given (value : Option JsString) (key name : JsString)
    (rest : List (JsString × JsString)) :
    getParam ((value.map (key,·)).toList ++ rest) name =
      if key = name then value.or (getParam rest name) else getParam rest name := by
  cases value with
  | none => simp
  | some text =>
    by_cases same : key = name <;> simp [getParam,same]

/-- Names and values that a serialised query is read as. -/
theorem serialize_written (pairs : List (JsString × JsString)) :
    List.Forall₂ Written
      (pairs.map fun pair => (formComponent pair.1,formComponent pair.2))
      (pairs.map fun pair => (Unicode.encodeUtf8 pair.1,Unicode.encodeUtf8 pair.2)) := by
  induction pairs with
  | nil => exact .nil
  | cons pair rest ih =>
    exact .cons ⟨formComponent_component pair.1,formComponent_component pair.2⟩ ih

/-- A link of parameters is scanned as what they say, when the recipient, the amount and the URL are
all admitted. -/
theorem tryParseTonLink_link {address encoded : JsString} {pairs : List (JsString × JsString)}
    {contents : List (List UInt8 × List UInt8)} {params : List (JsString × JsString)}
    (recipient : encodeURIComponent address = some encoded) (filled : encoded ≠ [])
    (written : List.Forall₂ Written pairs contents) (nonempty : pairs ≠ [])
    (reads : (contents.map fun bytes =>
      (Unicode.decodeUtf8 bytes.1,Unicode.decodeUtf8 bytes.2)) = params) :
    tryParseTonLink parses allowed (scheme ++ (encoded ++ 63 :: query pairs)) =
      if parses address ∧ (PaymentLinks.filled (getParam params (js "return"))).all allowed ∧
          (PaymentLinks.filled (getParam params (js "amount"))).all isDigits then
        some
          { recipient := address
            amountNanocoins := getParam params (js "amount")
            memo := PaymentLinks.filled (getParam params (js "text"))
            returnUrl := getParam params (js "return") }
      else none := by
  have component := encodeURIComponent_component recipient
  rw [tryParseTonLink,trim_link component written,
    parseTonLink_link recipient filled written nonempty,reads]
  by_cases parsed : parses address = true
  · rw [if_pos parsed,parseParams]
    cases returnUrl : PaymentLinks.filled (getParam params (js "return")) with
    | none => simp [parsed]
    | some url => cases admitted : allowed url <;> simp [parsed,admitted]
  · simp [parsed]

theorem getParam_wellFormed {pairs : List (JsString × JsString)}
    (names : ∀ pair ∈ pairs, toWellFormed pair.1 = pair.1) (name : JsString) :
    getParam (pairs.map fun pair => (toWellFormed pair.1,toWellFormed pair.2)) name =
      (getParam pairs name).map toWellFormed := by
  induction pairs with
  | nil => rfl
  | cons pair rest ih =>
    obtain ⟨first,others⟩ := List.forall_mem_cons.mp names
    have ih := ih others
    simp only [getParam,List.map_cons,List.find?_cons,first] at ih ⊢
    by_cases same : pair.1 = name
    · simp [same]
    · simpa [same] using ih

theorem filled_wellFormed (value : Option JsString) :
    filled (value.map toWellFormed) = (filled value).map toWellFormed := by
  cases value with
  | none => rfl
  | some text =>
    rw [filled,filled,Option.map_some,Option.filter_some,Option.filter_some,toWellFormed_isEmpty]
    split <;> rfl

theorem amount_wellFormed {amount : Option JsString} (digits : amount.all isDigits = true) :
    amount.map toWellFormed = amount := by
  cases amount with
  | none => rfl
  | some value => exact congrArg some (isDigits_ascii digits)

theorem filled_filled (value : Option JsString) : filled (filled value) = filled value := by
  simp [filled]

theorem filled_all {admits : JsString → Bool} {value : Option JsString}
    (admitted : value.all admits = true) : (filled value).all admits = true := by
  cases value with
  | none => rfl
  | some text =>
    rw [filled,Option.filter_some]
    split
    next => exact admitted
    next => rfl

/-- The names of the parameters of a transfer. -/
theorem pairs_names (params : TonTransferParams) :
    ∀ pair ∈ params.pairs, toWellFormed pair.1 = pair.1 := by
  have names : ∀ name ∈ [js "amount",js "text",js "bin",js "init"], toWellFormed name = name := by
    intro name member
    refine toWellFormed_wellFormed ?_
    revert name
    decide
  intro pair member
  refine names _ ?_
  simp only [TonTransferParams.pairs,List.mem_append,Option.mem_toList,Option.map_eq_some_iff]
    at member
  rcases member with ((⟨value,_,rfl⟩ | ⟨value,_,rfl⟩) | ⟨value,_,rfl⟩) | ⟨value,_,rfl⟩ <;> simp

theorem getParam_pairs (params : TonTransferParams) :
    getParam params.pairs (js "amount") = params.amount ∧
      getParam params.pairs (js "text") = filled params.text ∧
      getParam params.pairs (js "return") = none := by
  have names : js "amount" ≠ js "text" ∧ js "amount" ≠ js "bin" ∧ js "amount" ≠ js "init" ∧
      js "text" ≠ js "bin" ∧ js "text" ≠ js "init" := by decide
  have others : js "return" ≠ js "text" ∧ js "return" ≠ js "bin" ∧ js "return" ≠ js "init" ∧
      js "return" ≠ js "amount" := by decide
  have ends : ∀ (value : Option JsString) (key name : JsString),
      getParam (value.map (key,·)).toList name = if key = name then value else none := by
    intro value key name
    cases value <;> simp [getParam]
  simp only [TonTransferParams.pairs,List.append_assoc,getParam_given,ends]
  simp [names,others,Ne.symm]

end Roundtrips

section Scanning

variable {parses allowed : JsString → Bool} {link : JsString}

theorem guard_bind {α : Type} {condition : Prop} [Decidable condition] {rest : Option α}
    {value : α} :
    (guard condition >>= fun _ => rest) = some value ↔ condition ∧ rest = some value := by
  by_cases holds : condition <;> simp [holds]

theorem serialize_filled {pairs : List (JsString × JsString)} :
    (serialize pairs).isEmpty = true ↔ pairs = [] := by
  constructor
  · intro empty
    by_contra nonempty
    exact query_filled (by simpa using nonempty) (List.isEmpty_iff.mp empty)
  · rintro rfl
    rfl

theorem matchTonLink_bare (recipient : Component encoded bytes) :
    matchTonLink (scheme ++ encoded) = none := by
  have passes : ∀ unit ∈ encoded, decide (unit ≠ 63) = true := fun unit member =>
    decide_eq_true (component_visible recipient unit member).2.2
  rw [matchTonLink,if_pos (List.prefix_append _ _)]
  simp only [List.drop_left,List.dropWhile_eq_nil_iff.mpr passes]
  simp

theorem encodeURIComponent_filled {text encoded : JsString} (nonempty : text ≠ [])
    (written : encodeURIComponent text = some encoded) : encoded ≠ [] := by
  rintro rfl
  have read := decodeURIComponent_encode written
  exact nonempty (Option.some.inj (read.symm.trans (by rfl)))

/-- A transfer link is scanned as the transfer it was made of; what was typed for one parameter says
nothing of another. -/
theorem scan_buildTonTransferLink {params : TonTransferParams}
    (built : buildTonTransferLink parses params = some link) :
    parseScannedPayment parses allowed link =
      if params.pairs = [] then scannedAddress parses link
      else some
        { recipient := params.address
          amountNanocoins := params.amount
          memo := (filled params.text).map toWellFormed
          returnUrl := none } := by
  obtain ⟨⟨given,parsed⟩,rest⟩ := guard_bind.mp built
  obtain ⟨digits,rest⟩ := guard_bind.mp rest
  obtain ⟨encoded,recipient,rest⟩ := Option.bind_eq_some_iff.mp rest
  have component := encodeURIComponent_component recipient
  have same := Option.some.inj rest
  simp only [serialize_filled] at same
  split
  next empty =>
    rw [if_pos empty] at same
    have nothing : tryParseTonLink parses allowed link = none := by
      rw [tryParseTonLink,← same,trim_visible (bare_visible component),parseTonLink,
        matchTonLink_bare component]
      rfl
    simp [parseScannedPayment,nothing]
  next nonempty =>
    rw [if_neg nonempty] at same
    obtain ⟨amount,text,returnUrl⟩ := getParam_pairs params
    have reads : ((params.pairs.map fun pair =>
        (Unicode.encodeUtf8 pair.1,Unicode.encodeUtf8 pair.2)).map fun bytes =>
          (Unicode.decodeUtf8 bytes.1,Unicode.decodeUtf8 bytes.2)) =
        params.pairs.map fun pair => (toWellFormed pair.1,toWellFormed pair.2) := by
      simp [decodeUtf8_encoded]
    have names := getParam_wellFormed (pairs_names params)
    have scanned : tryParseTonLink parses allowed link = some
        { recipient := params.address
          amountNanocoins := params.amount
          memo := (filled params.text).map toWellFormed
          returnUrl := none } := by
      have encodedFilled := encodeURIComponent_filled given recipient
      rw [← same,serialize,tryParseTonLink_link recipient encodedFilled
        (serialize_written params.pairs) (by simpa using nonempty) reads,names,names,names,amount,
        text,returnUrl,amount_wellFormed digits,filled_wellFormed (filled _),filled_filled]
      refine if_pos ⟨parsed,rfl,filled_all digits⟩
    rw [parseScannedPayment,scanned]
    rfl

/-- The account of zeros, and a comment that has the shape of parameters. -/
theorem scan_buildTonTransferLink_comment :
    let address := js "EQAAAAAAAAAAAAAAAAAAAAAAAAAAAAAAAAAAAAAAAAAAAM9c"
    ∃ link,
      buildTonTransferLink (· = address)
        ⟨address,some (js "250"),some (js "tea & amount=9"),none,none⟩ = some link ∧
      parseScannedPayment (· = address) (fun _ => false) link =
        some ⟨address,some (js "250"),some (toWellFormed (js "tea & amount=9")),none⟩ := by
  intro address
  have built : (buildTonTransferLink (· = address)
      ⟨address,some (js "250"),some (js "tea & amount=9"),none,none⟩).isSome = true := by
    decide +kernel
  obtain ⟨link,built⟩ := Option.isSome_iff_exists.mp built
  refine ⟨link,built,(scan_buildTonTransferLink built).trans (if_neg ?_)⟩
  simp [TonTransferParams.pairs]

/-- A text and what it is written as. -/
def Encoded (given units : JsString × JsString) : Prop :=
  encodeURIComponent given.1 = some units.1 ∧ encodeURIComponent given.2 = some units.2

theorem encoded_written {given pairs : List (JsString × JsString)}
    (encoded : List.Forall₂ Encoded given pairs) :
    ∃ contents, List.Forall₂ Written pairs contents ∧
      contents.map (fun bytes => (Unicode.decodeUtf8 bytes.1,Unicode.decodeUtf8 bytes.2)) =
        given := by
  induction encoded with
  | nil => exact ⟨[],.nil,rfl⟩
  | @cons given units _ _ first _ ih =>
    obtain ⟨contents,written,reads⟩ := ih
    refine ⟨(Unicode.encodeUtf8 given.1,Unicode.encodeUtf8 given.2) :: contents,
      .cons ⟨encodeURIComponent_component first.1,encodeURIComponent_component first.2⟩ written,?_⟩
    have name := (Option.ite_none_right_eq_some.mp first.1).1
    have value := (Option.ite_none_right_eq_some.mp first.2).1
    rw [List.map_cons,reads,decodeUtf8_encoded,decodeUtf8_encoded,toWellFormed_wellFormed name,
      toWellFormed_wellFormed value]

theorem memo_filled (config : PaymentWidgetConfig) :
    filled (some (memo config)) = some (memo config) := by
  have nonempty : memo config ≠ [] := by
    obtain ⟨rest,same⟩ : ∃ rest, memo config = js "TONBANKCARD Payment" ++ rest := by
      rw [memo,List.append_assoc,List.singleton_append]
      generalize ((filled config.orderId).map (js "Order: " ++ ·)).toList ++
        (filled config.description).toList = more
      cases more with
      | nil => exact ⟨[],by simp⟩
      | cons next more => exact ⟨_,by rw [List.intercalate_cons_cons,List.append_assoc]⟩
    rw [same]
    exact List.append_ne_nil_of_left_ne_nil (by decide) _
  rw [filled,Option.filter_some,List.isEmpty_eq_false_iff.mpr nonempty]
  rfl

/-- What a widget's link consists of. -/
theorem generatePaymentLink_some {config : PaymentWidgetConfig}
    (generated : generatePaymentLink config = some link) :
    isTonAddressFormat config.merchantNft = true ∧ isDigits config.amountTbc = true ∧
      ∃ merchantNft pairs, encodeURIComponent config.merchantNft = some merchantNft ∧
        link = scheme ++ (merchantNft ++ 63 :: query pairs) ∧
        List.Forall₂ Encoded ((js "amount",config.amountTbc) :: (js "text",memo config) ::
          ((filled config.returnUrl).map (js "return",·)).toList) pairs := by
  obtain ⟨format,rest⟩ := guard_bind.mp generated
  obtain ⟨digits,rest⟩ := guard_bind.mp rest
  obtain ⟨text,memo,rest⟩ := Option.bind_eq_some_iff.mp rest
  obtain ⟨merchantNft,recipient,rest⟩ := Option.bind_eq_some_iff.mp rest
  obtain ⟨amount,written,rest⟩ := Option.bind_eq_some_iff.mp rest
  have names : encodeURIComponent (js "amount") = some (js "amount") ∧
      encodeURIComponent (js "text") = some (js "text") ∧
      encodeURIComponent (js "return") = some (js "return") := by decide
  have joins : js "?amount=" = 63 :: (js "amount" ++ [61]) ∧
      js "&text=" = 38 :: (js "text" ++ [61]) ∧
      js "&return=" = 38 :: (js "return" ++ [61]) := by decide
  refine ⟨format,digits,merchantNft,?_⟩
  cases given : filled config.returnUrl with
  | none =>
    simp only [given] at rest
    refine ⟨[(js "amount",amount),(js "text",text)],recipient,?_,
      .cons ⟨names.1,written⟩ (.cons ⟨names.2.1,memo⟩ .nil)⟩
    rw [← Option.some.inj rest,joins.1,joins.2.1]
    simp [query]
  | some returnUrl =>
    simp only [given] at rest
    obtain ⟨back,returned,rest⟩ := Option.bind_eq_some_iff.mp rest
    refine ⟨[(js "amount",amount),(js "text",text),(js "return",back)],recipient,?_,
      .cons ⟨names.1,written⟩ (.cons ⟨names.2.1,memo⟩ (.cons ⟨names.2.2,returned⟩ .nil))⟩
    rw [← Option.some.inj rest,joins.1,joins.2.1,joins.2.2]
    simp [query]

/-- A widget's link is scanned as its payment, and no text of an order adds to it. -/
theorem scan_generatePaymentLink {config : PaymentWidgetConfig}
    (generated : generatePaymentLink config = some link) :
    parseScannedPayment parses allowed link =
      if parses config.merchantNft ∧ (filled config.returnUrl).all allowed then
        some
          { recipient := config.merchantNft
            amountNanocoins := some config.amountTbc
            memo := some (memo config)
            returnUrl := filled config.returnUrl }
      else scannedAddress parses link := by
  obtain ⟨format,digits,merchantNft,pairs,recipient,same,encoded⟩ :=
    generatePaymentLink_some generated
  obtain ⟨contents,written,reads⟩ := encoded_written encoded
  have nonempty : pairs ≠ [] := by
    rintro rfl
    cases encoded
  have given : config.merchantNft ≠ [] := by
    intro empty
    rw [empty] at format
    exact absurd format (by decide)
  have names : js "amount" ≠ js "text" ∧ js "amount" ≠ js "return" ∧ js "text" ≠ js "return" := by
    decide
  have scanned := @tryParseTonLink_link parses allowed _ _ _ _ _ recipient
    (encodeURIComponent_filled given recipient) written nonempty reads
  have params : ∀ name, getParam ((js "amount",config.amountTbc) :: (js "text",memo config) ::
      ((filled config.returnUrl).map (js "return",·)).toList) name =
      if js "amount" = name then some config.amountTbc
      else if js "text" = name then some (memo config)
      else if js "return" = name then filled config.returnUrl else none := by
    intro name
    cases filled config.returnUrl <;> simp only [getParam,Option.map_none,Option.map_some,
      Option.toList_none,Option.toList_some,List.find?_cons,List.find?_nil]
    all_goals split_ifs <;> simp_all
  have admitted : (filled (some config.amountTbc)).all isDigits = true := filled_all digits
  simp only [params,names,if_true,if_false,memo_filled,filled_filled,admitted,and_true] at scanned
  rw [parseScannedPayment,same,scanned]
  split
  next => rfl
  next => rfl

/-- An order whose number has the shape of parameters. -/
theorem scan_generatePaymentLink_order :
    let address := js "EQAAAAAAAAAAAAAAAAAAAAAAAAAAAAAAAAAAAAAAAAAAAM9c"
    let config : PaymentWidgetConfig :=
      ⟨address,js "250",some (js "7&return=x"),none,some (js "https://shop.example/")⟩
    ∃ link, generatePaymentLink config = some link ∧
      parseScannedPayment (· = address) (· = js "https://shop.example/") link =
        some ⟨address,some (js "250"),some (memo config),some (js "https://shop.example/")⟩ := by
  intro address config
  have generated : (generatePaymentLink config).isSome = true := by decide +kernel
  obtain ⟨link,generated⟩ := Option.isSome_iff_exists.mp generated
  exact ⟨link,generated,(scan_generatePaymentLink generated).trans (if_pos (by decide))⟩

end Scanning
end Tonbankcard.PaymentLinks
