import Tonbankcard.Base64Url
import Tonbankcard.InvoicePayment
import Tonbankcard.PaymentLinks

/-! The wallet link of the SDK, which the mobile core makes of a payment request: a transfer to the
hub whose body is the merchant's payment request. What the wallet sends for it and what the scanner
shows of it. -/
namespace Tonbankcard.WalletLinks

open Ton EcmaScript PercentEncoding PaymentLinks InvoicePayment

section ReturnUrls

structure ParsedUrl where
  protocol : JsString
  hostname : JsString

/-- What `new URL` reads of a text, `none` where it throws, and the platform's `toLowerCase`. -/
structure UrlHost where
  parse : JsString → Option ParsedUrl
  toLowerCase : JsString → JsString

/-- Where no hosts are configured any will do. -/
def isAllowedReturnUrl (host : UrlHost) (allowedHosts : List JsString) (returnUrl : JsString) :
    Bool :=
  if returnUrl.isEmpty then false
  else if returnUrl ≠ trim returnUrl then false
  else match host.parse returnUrl with
    | none => false
    | some parsed =>
      if parsed.protocol ≠ js "https:" then false
      else if allowedHosts ≠ [] then
        allowedHosts.any fun allowed =>
          host.toLowerCase allowed = host.toLowerCase parsed.hostname
      else true

theorem blank_low {unit : UInt16} (surrogate : (isLeading unit || isTrailing unit) = true) :
    isBlank unit = false := by
  unfold isLeading isTrailing at surrogate
  simp only [Bool.or_eq_true,Bool.and_eq_true,decide_eq_true_eq,UInt16.le_iff_toNat_le,
    UInt16.lt_iff_toNat_lt,UInt16.reduceToNat] at surrogate
  unfold isBlank
  simp only [Bool.or_eq_false_iff,Bool.and_eq_false_iff,decide_eq_false_iff_not]
  omega

/-- A code unit of its own stays or is replaced, and nothing blank is. -/
theorem replaced_blank (unit : UInt16) :
    (Unicode.utf16Char (Unicode.scalar unit.toNat)).map isBlank = [isBlank unit] := by
  by_cases surrogate : (isLeading unit || isTrailing unit) = true
  · have replaced : Unicode.scalar unit.toNat = Char.ofNat 65533 := by
      unfold isLeading isTrailing at surrogate
      simp only [Bool.or_eq_true,Bool.and_eq_true,decide_eq_true_eq,UInt16.le_iff_toNat_le,
        UInt16.lt_iff_toNat_lt,UInt16.reduceToNat] at surrogate
      unfold Unicode.scalar
      apply if_pos
      simp only [Bool.and_eq_true,decide_eq_true_eq]
      omega
    rw [replaced,blank_low surrogate]
    decide
  · obtain ⟨leading,trailing⟩ := Bool.or_eq_false_iff.mp (Bool.eq_false_iff.mpr surrogate)
    rw [Unicode.utf16Char_single leading trailing]
    rfl

theorem toWellFormed_blank (text : JsString) :
    (toWellFormed text).map isBlank = text.map isBlank := by
  unfold toWellFormed Unicode.utf16
  induction text using Unicode.codePoints.induct with
  | case1 => rfl
  | case2 unit => simpa [Unicode.codePoints] using replaced_blank unit
  | case3 unit next rest pair ih =>
    rw [Unicode.codePoints,if_pos pair,List.map_cons,List.flatMap_cons,
      Unicode.utf16Char_scalar unit next pair,List.map_append,ih]
    rfl
  | case4 unit next rest apart ih =>
    rw [Unicode.codePoints,if_neg apart,List.map_cons,List.flatMap_cons,List.map_append,ih,
      replaced_blank]
    rfl

/-- How much is trimmed is told by which units are blank. -/
theorem trim_length (text : JsString) :
    (trim text).length = (((text.map isBlank).dropWhile id).rdropWhile id).length := by
  rw [trim,List.rdropWhile,List.rdropWhile,List.dropWhile_map,← List.map_reverse,
    List.dropWhile_map]
  simp only [Function.id_comp,List.length_reverse,List.length_map]

theorem trim_eq_iff (text : JsString) : trim text = text ↔ (trim text).length = text.length := by
  constructor
  · exact congrArg List.length
  · intro same
    have part : (trim text).Sublist text :=
      ((List.rdropWhile_prefix _ _).sublist).trans (List.dropWhile_suffix _).sublist
    exact part.eq_of_length same

theorem trim_wellFormed {text : JsString} (trimmed : trim text = text) :
    trim (toWellFormed text) = toWellFormed text := by
  have blank := toWellFormed_blank text
  have length : (toWellFormed text).length = text.length := by
    simpa using congrArg List.length blank
  rw [trim_eq_iff,trim_length] at trimmed ⊢
  rw [blank,length,trimmed]

/-- What may be returned to from some hosts may be returned to from any, also once it has been
through a query. -/
theorem isAllowedReturnUrl_read {host : UrlHost}
    (replaces : ∀ text, host.parse (toWellFormed text) = host.parse text)
    (allowed : isAllowedReturnUrl host allowedHosts returnUrl = true) :
    isAllowedReturnUrl host [] (toWellFormed returnUrl) = true := by
  unfold isAllowedReturnUrl at allowed ⊢
  rw [toWellFormed_isEmpty,replaces]
  split at allowed
  · contradiction
  · rename_i given
    split at allowed
    · contradiction
    · rename_i trimmed
      have trimmed := trim_wellFormed (not_not.mp trimmed).symm
      rw [if_neg given,if_neg (not_not.mpr trimmed.symm)]
      cases parsed : host.parse returnUrl with
      | none => simp [parsed] at allowed
      | some url =>
        simp only [parsed] at allowed ⊢
        split at allowed
        · contradiction
        · rename_i secure
          simp [secure]

end ReturnUrls

section Makers

variable (storeStringTail : JsString → Builder → Result Builder) (toBoc : Cell → List UInt8)

structure WalletLinkParams where
  invoice : LinkInvoice
  description : Option JsString
  payerNft : Address
  returnUrl : Option JsString
  nativeAmountNanoTon : Option Int

def defaultWalletLinkNativeAmount : Int := 50000000

def encodeCellBase64Url (cell : Cell) : JsString :=
  (Base64Url.sextets (toBoc cell)).map char64

def linkMemo (id : JsString) (description : Option JsString) : JsString :=
  js "TONBANKCARD Payment: " ++ id ++
    ((filled description).map (js " - " ++ ·)).getD []

def linkPairs (native : Int) (bin memo : JsString) (returnUrl : Option JsString) :
    List (JsString × JsString) :=
  [(js "amount",decimal native),(js "bin",bin),(js "text",memo)] ++
    ((filled returnUrl).map (js "return",·)).toList

/-- `none` where the builder throws. -/
def buildWalletLink (paymentHubAddress : Address) (params : WalletLinkParams) :
    Option JsString := do
  let native := params.nativeAmountNanoTon.getD defaultWalletLinkNativeAmount
  let body ← (walletLinkBody storeStringTail params.invoice params.payerNft native).toOption
  let memo := linkMemo params.invoice.id params.description
  pure (scheme ++ (paymentHubAddress.friendly ++ 63 ::
    serialize (linkPairs native (encodeCellBase64Url toBoc body) memo params.returnUrl)))

variable (parseAddress : JsString → Option Address) (host : UrlHost)

structure PaymentRequest where
  payerNft : Option JsString
  merchantNft : JsString
  amountTbc : JsString
  orderId : Option JsString
  description : Option JsString
  returnUrl : Option JsString

/-- The number of an order that is given none. -/
def requestId (request : PaymentRequest) : JsString :=
  (filled request.orderId).getD (js "mobile-payment")

/-- The fields of the mobile configuration that a link is made with. -/
structure MobileConfig where
  paymentHubAddress : JsString
  allowedReturnUrlHosts : List JsString

/-- `none` where the service throws. -/
def generatePaymentLink (config : MobileConfig) (request : PaymentRequest) : Option JsString := do
  guard ((parseAddress request.merchantNft).isSome = true)
  guard (isDigits request.amountTbc = true)
  let payer ← filled request.payerNft
  guard ((filled request.returnUrl).all
    (isAllowedReturnUrl host config.allowedReturnUrlHosts) = true)
  let hub ← parseAddress config.paymentHubAddress
  let payerNft ← parseAddress payer
  let merchantNft ← parseAddress request.merchantNft
  buildWalletLink storeStringTail toBoc hub
    { invoice := ⟨requestId request,merchantNft,fixedValue 10 request.amountTbc⟩
      description := request.description
      payerNft
      returnUrl := filled request.returnUrl
      nativeAmountNanoTon := none }

end Makers

section Reading

theorem char64_unreserved {value : Nat} (small : value < 64) :
    isUnreserved (asciiByte (char64 value)) = true ∧ char64 value < 128 ∧
      (asciiByte (char64 value)).toUInt16 = char64 value := by
  revert value
  decide

theorem encode64_mem {width value : Nat} {unit : UInt16} (member : unit ∈ encode64 width value) :
    ∃ digit < 64, unit = char64 digit := by
  induction width generalizing value with
  | zero => cases member
  | succ width ih =>
    rcases List.mem_append.mp member with front | last
    · exact ih front
    · exact ⟨value % 64,Nat.mod_lt _ (by decide),List.mem_singleton.mp last⟩

/-- Digits are their own encoding. -/
theorem encodeURIComponent_digits {text : JsString}
    (digits : ∀ unit ∈ text, ∃ digit < 64, unit = char64 digit) :
    encodeURIComponent text = some text := by
  have ascii : ∀ unit ∈ text, unit < 128 := by
    intro unit member
    obtain ⟨digit,small,rfl⟩ := digits unit member
    exact (char64_unreserved small).2.1
  rw [encodeURIComponent,if_pos (isWellFormed_ascii ascii),
    encodeUtf8_ascii fun unit member => by simpa [UInt16.lt_iff_toNat_lt] using ascii unit member,
    List.flatMap_map]
  congr 1
  clear ascii
  induction text with
  | nil => rfl
  | cons unit rest ih =>
    obtain ⟨⟨digit,small,rfl⟩,others⟩ := List.forall_mem_cons.mp digits
    obtain ⟨plain,-,same⟩ := char64_unreserved small
    rw [List.flatMap_cons,ih others,uriByte,if_pos plain,same]
    rfl

theorem encodeCell_digits (toBoc : Cell → List UInt8) (cell : Cell) :
    ∀ unit ∈ encodeCellBase64Url toBoc cell, ∃ digit < 64, unit = char64 digit := by
  intro unit member
  obtain ⟨digit,sextet,rfl⟩ := List.mem_map.mp member
  exact ⟨digit,Base64Url.sextets_lt digit sextet,rfl⟩

theorem encodeCell_wellFormed (toBoc : Cell → List UInt8) (cell : Cell) :
    toWellFormed (encodeCellBase64Url toBoc cell) = encodeCellBase64Url toBoc cell := by
  have read := encodeURIComponent_digits (encodeCell_digits toBoc cell)
  exact toWellFormed_wellFormed (Option.ite_none_right_eq_some.mp read).1

end Reading

section Scanning

variable {storeStringTail : JsString → Builder → Result Builder} {toBoc : Cell → List UInt8}
  {parseAddress : JsString → Option Address} {allowed : JsString → Bool} {host : UrlHost}
  {link : JsString}

theorem getParam_linkPairs (native : Int) (bin memo : JsString) (returnUrl : Option JsString) :
    (∀ pair ∈ linkPairs native bin memo returnUrl, toWellFormed pair.1 = pair.1) ∧
      getParam (linkPairs native bin memo returnUrl) (js "amount") = some (decimal native) ∧
      getParam (linkPairs native bin memo returnUrl) (js "bin") = some bin ∧
      getParam (linkPairs native bin memo returnUrl) (js "text") = some memo ∧
      getParam (linkPairs native bin memo returnUrl) (js "return") = filled returnUrl := by
  have names : js "amount" ≠ js "bin" ∧ js "amount" ≠ js "text" ∧ js "amount" ≠ js "return" ∧
      js "bin" ≠ js "text" ∧ js "bin" ≠ js "return" ∧ js "text" ≠ js "return" := by decide
  have plain : ∀ name ∈ [js "amount",js "bin",js "text",js "return"],
      toWellFormed name = name := by
    intro name member
    refine toWellFormed_wellFormed ?_
    revert name
    decide
  refine ⟨?_,?_,?_,?_,?_⟩
  · intro pair member
    refine plain _ ?_
    simp only [linkPairs,List.mem_append,List.mem_cons,List.not_mem_nil,or_false,
      Option.mem_toList,Option.map_eq_some_iff] at member
    rcases member with (rfl | rfl | rfl) | ⟨value,_,rfl⟩ <;> simp
  all_goals cases given : filled returnUrl <;> simp [linkPairs,getParam,given,names]

/-- The parameters of a wallet link, as they are read. -/
theorem linkPairs_read (native : Int) (bin memo : JsString) (returnUrl : Option JsString) :
    ∃ contents, List.Forall₂ Written ((linkPairs native bin memo returnUrl).map fun pair =>
        (formComponent pair.1,formComponent pair.2)) contents ∧
      (contents.map fun bytes => (Unicode.decodeUtf8 bytes.1,Unicode.decodeUtf8 bytes.2)) =
        (linkPairs native bin memo returnUrl).map fun pair =>
          (toWellFormed pair.1,toWellFormed pair.2) := by
  refine ⟨_,serialize_written _,?_⟩
  simp [decodeUtf8_encoded]

theorem decimal_wellFormed (n : Int) : toWellFormed (decimal n) = decimal n :=
  toWellFormed_wellFormed (isWellFormed_ascii fun _ member => (decimal_plain member).2)

theorem decimal_isDigits {n : Int} (natural : 0 ≤ n) : isDigits (decimal n) = true := by
  rw [decimal,if_neg (by omega),isDigits,List.isEmpty_eq_false_iff.mpr (natDigits_filled _),
    Bool.not_false,Bool.true_and,List.all_eq_true]
  exact fun _ => isDigit_natDigits

theorem linkMemo_filled (id : JsString) (description : Option JsString) :
    filled (some (linkMemo id description)) = some (linkMemo id description) := by
  have nonempty : linkMemo id description ≠ [] := by
    rw [linkMemo,List.append_assoc]
    exact List.append_ne_nil_of_left_ne_nil (by decide) _
  rw [filled,Option.filter_some,List.isEmpty_eq_false_iff.mpr nonempty]
  rfl

/-- A wallet link carries its body to the hub, and is scanned as a transfer of the native amount. -/
theorem walletLink_read {native : Int} (natural : 0 ≤ native) (hub : Address) (body : Cell)
    (memo : JsString) (given : filled (some memo) = some memo) (returnUrl : Option JsString)
    (friendly : ∀ address : Address, parseAddress address.friendly = some address)
    (same : link = scheme ++ (hub.friendly ++ 63 ::
      serialize (linkPairs native (encodeCellBase64Url toBoc body) memo returnUrl))) :
    (∃ query, matchTonLink link = some (hub.friendly,query) ∧
      getParam (searchParams query) (js "bin") = some (encodeCellBase64Url toBoc body)) ∧
    parseScannedPayment (fun text => (parseAddress text).isSome) allowed link =
      if ((filled returnUrl).map toWellFormed).all allowed then
        some
          { recipient := hub.friendly
            amountNanocoins := some (decimal native)
            memo := some (toWellFormed memo)
            returnUrl := (filled returnUrl).map toWellFormed }
      else scannedAddress (fun text => (parseAddress text).isSome) link := by
  obtain ⟨contents,written,reads⟩ :=
    linkPairs_read native (encodeCellBase64Url toBoc body) memo returnUrl
  obtain ⟨names,amount,bin,text,returned⟩ :=
    getParam_linkPairs native (encodeCellBase64Url toBoc body) memo returnUrl
  have digits : ∀ unit ∈ hub.friendly, ∃ digit < 64, unit = char64 digit := fun _ => encode64_mem
  have recipient := encodeURIComponent_digits digits
  have hubFilled : hub.friendly ≠ [] :=
    List.ne_nil_of_length_pos (by rw [Address.friendly,encode64_length]; decide)
  have nonempty : ((linkPairs native (encodeCellBase64Url toBoc body) memo returnUrl).map
      fun pair => (formComponent pair.1,formComponent pair.2)) ≠ [] := by simp [linkPairs]
  have values := getParam_wellFormed names
  constructor
  · refine ⟨serialize (linkPairs native (encodeCellBase64Url toBoc body) memo returnUrl),
      ?_,?_⟩
    · rw [same,serialize]
      exact matchTonLink_link (encodeURIComponent_component recipient) hubFilled written nonempty
    · rw [serialize,searchParams_query written,parseQuery_query written,reads,values,bin,
        Option.map_some,encodeCell_wellFormed]
  · have whole : (filled (some (decimal native))).all isDigits = true := by
      refine filled_all ?_
      rw [Option.all_some,decimal_isDigits natural]
    have memoFilled : filled (some (toWellFormed memo)) = some (toWellFormed memo) := by
      rw [← Option.map_some,filled_wellFormed,given]
    rw [parseScannedPayment,same,serialize,
      tryParseTonLink_link recipient hubFilled written nonempty reads,values,values,values,amount,
      text,returned,Option.map_some,Option.map_some,decimal_wellFormed,memoFilled,
      filled_wellFormed,filled_filled]
    simp only [friendly,Option.isSome_some,whole,and_true,true_and]
    split
    next => rfl
    next => rfl

/-- The link of a payment request carries it to the hub: the wallet sends a body that the hub loads
as the request, where it admits the two addresses. The scanner shows the native amount that goes
with it and where it returns to. -/
theorem mobileLink_request
    (friendly : ∀ address : Address, parseAddress address.friendly = some address)
    (replaces : ∀ text, host.parse (toWellFormed text) = host.parse text)
    {config : MobileConfig} {request : PaymentRequest}
    (generated : WalletLinks.generatePaymentLink storeStringTail toBoc parseAddress host config
      request = some link) :
    ∃ hub payer payerNft merchantNft body payload query,
      parseAddress config.paymentHubAddress = some hub ∧ request.payerNft = some payer ∧
      parseAddress payer = some payerNft ∧ parseAddress request.merchantNft = some merchantNft ∧
      matchTonLink link = some (hub.friendly,query) ∧
      getParam (searchParams query) (js "bin") = some (encodeCellBase64Url toBoc body) ∧
      (∀ supported, supported payerNft = true → supported merchantNft = true →
        loadMerchantPaymentRequest supported body.beginParse =
          .ok (.merchantPaymentRequest payerNft merchantNft (fixedValue 10 request.amountTbc)
            (some payload))) ∧
      parseScannedPayment (fun text => (parseAddress text).isSome) (isAllowedReturnUrl host [])
        link = some
          { recipient := hub.friendly
            amountNanocoins := some (decimal defaultWalletLinkNativeAmount)
            memo := some (toWellFormed (linkMemo (requestId request) request.description))
            returnUrl := (filled request.returnUrl).map toWellFormed } := by
  obtain ⟨-,rest⟩ := guard_bind.mp generated
  obtain ⟨-,rest⟩ := guard_bind.mp rest
  obtain ⟨payer,paying,rest⟩ := Option.bind_eq_some_iff.mp rest
  obtain ⟨returns,rest⟩ := guard_bind.mp rest
  obtain ⟨hub,hubRead,rest⟩ := Option.bind_eq_some_iff.mp rest
  obtain ⟨payerNft,payerRead,rest⟩ := Option.bind_eq_some_iff.mp rest
  obtain ⟨merchantNft,merchantRead,rest⟩ := Option.bind_eq_some_iff.mp rest
  obtain ⟨body,linked,rest⟩ := Option.bind_eq_some_iff.mp rest
  obtain ⟨payload,-,loads⟩ := loadMerchantPaymentRequest_link (ok_of_toOption linked)
  have natural : 0 ≤ defaultWalletLinkNativeAmount := by decide
  obtain ⟨⟨query,matched,bin⟩,scanned⟩ := @walletLink_read _ _ (isAllowedReturnUrl host []) _ _
    natural hub body _ (linkMemo_filled _ _) _ friendly (Option.some.inj rest).symm
  have returned : ((filled request.returnUrl).map toWellFormed).all
      (isAllowedReturnUrl host []) = true := by
    cases given : filled request.returnUrl with
    | none => rfl
    | some returnUrl =>
      rw [given] at returns
      exact isAllowedReturnUrl_read replaces returns
  rw [filled_filled,if_pos returned] at scanned
  refine ⟨hub,payer,payerNft,merchantNft,body,payload,query,hubRead,?_,payerRead,merchantRead,
    matched,bin,?_,scanned⟩
  · exact (Option.filter_eq_some_iff.mp paying).1
  · intro supported payerAdmitted merchantAdmitted
    rw [loads,payerAdmitted,merchantAdmitted]
    rfl

/-- The serialised body of the shop's request. -/
def shopBoc (_ : Cell) : List UInt8 :=
  (List.range 98).map fun i => UInt8.ofNat
    (0xb5ee9c7241010201005300019706b90be7800bcee44d1e5021448930ca3589e216b99e3a8299ae6ee8318f6f78b0363f77ad30008c7907b6dd4c22853973b764b3bdd1cfc34cc40037a12b52adc43faa09f78a5d0ee6b280300100040237059972f9
      / 256^(97 - i))

def shopUrl : JsString := js "https://shop.example/thanks?order=7"

def shopPaymentRequest : PaymentRequest where
  payerNft := some shopPayerNft.friendly
  merchantNft := shopMerchantNft.friendly
  amountTbc := js "1000000000"
  orderId := some (js "7")
  description := some (js "Tea & cake")
  returnUrl := some shopUrl

def shopConfig : MobileConfig where
  paymentHubAddress := (newAddress 0 1).friendly
  allowedReturnUrlHosts := [js "shop.example"]

/-- The platform's reading of the shop's URL. -/
def shopUrlHost : UrlHost where
  parse text := if toWellFormed text = shopUrl then some ⟨js "https:",js "shop.example"⟩ else none
  toLowerCase := id

theorem toWellFormed_idem (text : JsString) :
    toWellFormed (toWellFormed text) = toWellFormed text := by
  have read : Unicode.scalar ∘ Char.toNat = id := funext Unicode.scalar_toNat
  unfold toWellFormed
  rw [Unicode.codePoints_utf16,List.map_map,read,List.map_id]

theorem mobileLink_request_shop :
    ∃ link, WalletLinks.generatePaymentLink storeAsciiTail shopBoc Address.parseFriendly shopUrlHost
        shopConfig shopPaymentRequest = some link ∧
      parseScannedPayment (fun text => (Address.parseFriendly text).isSome)
          (isAllowedReturnUrl shopUrlHost []) link =
        some
          { recipient := (newAddress 0 1).friendly
            amountNanocoins := some (js "50000000")
            memo := some (toWellFormed (js "TONBANKCARD Payment: 7 - Tea & cake"))
            returnUrl := some (toWellFormed shopUrl) } := by
  have generated : (WalletLinks.generatePaymentLink storeAsciiTail shopBoc Address.parseFriendly
      shopUrlHost shopConfig shopPaymentRequest).isSome = true := by
    decide +kernel
  obtain ⟨link,generated⟩ := Option.isSome_iff_exists.mp generated
  have replaces (text : JsString) : shopUrlHost.parse (toWellFormed text) =
      shopUrlHost.parse text := by
    simp only [shopUrlHost,toWellFormed_idem]
  obtain ⟨hub,_,_,_,_,_,_,hubRead,-,-,-,-,-,-,scanned⟩ :=
    mobileLink_request Address.parseFriendly_friendly replaces generated
  have hubAddress : Address.parseFriendly shopConfig.paymentHubAddress = some (newAddress 0 1) :=
    Address.parseFriendly_friendly _
  obtain rfl := Option.some.inj (hubRead.symm.trans hubAddress)
  exact ⟨link,generated,scanned⟩

end Scanning
end Tonbankcard.WalletLinks
