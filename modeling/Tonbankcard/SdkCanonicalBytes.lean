import Tonbankcard.SdkCanonicalJson

/-! The canonical encoder of code points. Each SDK makes its text: Python after its replacements,
Go as UTF-8 and TypeScript as UTF-16. -/
namespace Tonbankcard.Sdk

open EcmaScript Unicode CanonicalJson

def canonical : Encoder Char where
  symbol := id
  literal := quoted isSeparator
  precedes a b := !decide (b < a)

section Literals

def hexValue (c : Char) : Nat := if c.toNat < 58 then c.toNat - 48 else c.toNat - 87

theorem hexValue_digitChar : ∀ value < 16, hexValue (Nat.digitChar value) = value := by decide

/-- The character behind a short escape. -/
def unescape (c : Char) : Char :=
  if c = 'b' then Char.ofNat 8
  else if c = 't' then Char.ofNat 9
  else if c = 'n' then Char.ofNat 10
  else if c = 'f' then Char.ofNat 12
  else if c = 'r' then Char.ofNat 13
  else c

/-- Reads one character of a literal. -/
def readChar : List Char → Option (Char × List Char)
  | [] => none
  | '\\' :: 'u' :: a :: b :: c :: d :: rest =>
    some (Char.ofNat (hexValue a * 4096 + hexValue b * 256 + hexValue c * 16 + hexValue d),rest)
  | '\\' :: c :: rest => some (unescape c,rest)
  | c :: rest => some (c,rest)

theorem readChar_short (apart : c ≠ 'u') (rest : List Char) :
    readChar ('\\' :: c :: rest) = some (unescape c,rest) := by
  rw [readChar]
  exact fun _ _ _ _ _ same => absurd same apart

theorem readChar_plain (apart : c ≠ '\\') (rest : List Char) :
    readChar (c :: rest) = some (c,rest) := by
  rw [readChar]
  · exact fun _ _ _ _ _ same => absurd same apart
  · exact fun _ _ same => absurd same apart

theorem readChar_numbered (small : c.toNat < 65536) (rest : List Char) :
    readChar ('\\' :: 'u' :: hexDigits c.toNat ++ rest) = some (c,rest) := by
  have value : hexValue (Nat.digitChar (c.toNat / 4096 % 16)) * 4096 +
      hexValue (Nat.digitChar (c.toNat / 256 % 16)) * 256 +
      hexValue (Nat.digitChar (c.toNat / 16 % 16)) * 16 +
      hexValue (Nat.digitChar (c.toNat % 16)) = c.toNat := by
    rw [hexValue_digitChar _ (Nat.mod_lt _ (by decide)),
      hexValue_digitChar _ (Nat.mod_lt _ (by decide)),
      hexValue_digitChar _ (Nat.mod_lt _ (by decide)),
      hexValue_digitChar _ (Nat.mod_lt _ (by decide))]
    omega
  simp only [hexDigits,List.cons_append,List.nil_append,readChar,value,Char.ofNat_toNat]

theorem char_eq {n : Nat} (same : c.toNat = n) : c = Char.ofNat n := by
  rw [← same,Char.ofNat_toNat]

/-- The characters with a short escape. -/
def shortEscapes : List Nat := [8,9,10,12,13,34,92]

theorem escape_short (numbered : Char → Bool) (short : c.toNat ∈ shortEscapes) :
    ∃ d, escape numbered c = ['\\',d] ∧ d ≠ 'u' ∧ unescape d = c := by
  simp only [shortEscapes,List.mem_cons,List.not_mem_nil,or_false] at short
  rcases short with same | same | same | same | same | same | same <;>
    (rw [char_eq same]; exact ⟨_,rfl,by decide,by decide⟩)

theorem escape_long (numbered : Char → Bool) (long : c.toNat ∉ shortEscapes) :
    escape numbered c =
      if c.toNat < 32 || numbered c then '\\' :: 'u' :: hexDigits c.toNat else [c] := by
  simp only [shortEscapes,List.mem_cons,List.not_mem_nil,or_false,not_or] at long
  obtain ⟨backspace,tab,newline,feed,carriage,mark,slash⟩ := long
  rw [escape,if_neg backspace,if_neg tab,if_neg newline,if_neg feed,if_neg carriage,if_neg mark,
    if_neg slash]

/-- An escaped character is read back, and begins no end of a literal. -/
theorem readChar_escape {numbered : Char → Bool}
    (small : ∀ c, numbered c = true → c.toNat < 65536) (c : Char) (rest : List Char) :
    readChar (escape numbered c ++ rest) = some (c,rest) ∧
      (escape numbered c).head? ≠ some '"' ∧ escape numbered c ≠ [] := by
  by_cases short : c.toNat ∈ shortEscapes
  · obtain ⟨d,text,apart,behind⟩ := escape_short numbered short
    rw [text]
    exact ⟨behind ▸ readChar_short apart rest,by simp,List.cons_ne_nil _ _⟩
  rw [escape_long numbered short]
  split
  · rename_i isNumbered
    have fits : c.toNat < 65536 := by
      rcases Bool.or_eq_true_iff.mp isNumbered with control | other
      · have := of_decide_eq_true control
        omega
      · exact small c other
    exact ⟨readChar_numbered fits rest,by simp,List.cons_ne_nil _ _⟩
  · refine ⟨readChar_plain ?_ rest,?_,List.cons_ne_nil _ _⟩
    · rintro rfl
      exact short (by decide)
    · intro same
      obtain rfl := Option.some.inj same
      exact short (by decide)

theorem quoted_closes {numbered : Char → Bool} (small : ∀ c, numbered c = true → c.toNat < 65536)
    (s t rest left : List Char) (same : quoted numbered s ++ rest = quoted numbered t ++ left) :
    s = t ∧ rest = left := by
  have body : s.flatMap (escape numbered) ++ '"' :: rest =
      t.flatMap (escape numbered) ++ '"' :: left := by
    simpa [quoted] using same
  have clash {c : Char} {more left : List Char}
      (same : '"' :: left = escape numbered c ++ more) : False := by
    obtain ⟨-,head,filled⟩ := readChar_escape small c []
    obtain ⟨first,others,text⟩ := List.exists_cons_of_ne_nil filled
    rw [text] at same head
    exact head (by rw [List.head?_cons,(List.cons.inj same).1])
  clear same
  induction s generalizing t with
  | nil =>
    cases t with
    | nil => exact ⟨rfl,(List.cons.inj body).2⟩
    | cons d t =>
      rw [List.flatMap_cons,List.append_assoc] at body
      exact (clash body).elim
  | cons c s ih =>
    rw [List.flatMap_cons,List.append_assoc] at body
    cases t with
    | nil => exact (clash body.symm).elim
    | cons d t =>
      rw [List.flatMap_cons,List.append_assoc] at body
      have read := (readChar_escape small c (s.flatMap (escape numbered) ++ '"' :: rest)).1
      rw [body,(readChar_escape small d _).1] at read
      obtain ⟨rfl,tails⟩ := Prod.mk.inj (Option.some.inj read)
      obtain ⟨rfl,done⟩ := ih t tails.symm
      exact ⟨rfl,done⟩

theorem isSeparator_small (c : Char) (separator : isSeparator c = true) : c.toNat < 65536 := by
  unfold isSeparator at separator
  rcases Bool.or_eq_true_iff.mp separator with line | paragraph
  · have := of_decide_eq_true line
    omega
  · have := of_decide_eq_true paragraph
    omega

theorem canonical_reads : canonical.Reads where
  symbol _ _ same := same
  opens _ := ⟨_,rfl⟩
  closes := quoted_closes isSeparator_small

theorem canonical_orders : canonical.Orders where
  total a b := by
    change (!decide (b < a)) = true ∨ (!decide (a < b)) = true
    simp only [Bool.not_eq_true',decide_eq_false_iff_not,not_lt]
    exact le_total a b
  trans a b c before after := by
    change (!decide (b < a)) = true at before
    change (!decide (c < b)) = true at after
    change (!decide (c < a)) = true
    simp only [Bool.not_eq_true',decide_eq_false_iff_not,not_lt] at *
    exact before.trans after
  antisymm a b before after := by
    change (!decide (b < a)) = true at before
    change (!decide (a < b)) = true at after
    simp only [Bool.not_eq_true',decide_eq_false_iff_not,not_lt] at *
    exact le_antisymm before after

end Literals

section GoAndPython

/-- What the two replacements of the Python SDK make of a character. -/
def separatorsEscaped (c : Char) : List Char :=
  replaceChar (Char.ofNat 0x2029) ['\\','u','2','0','2','9']
    (replaceChar (Char.ofNat 0x2028) ['\\','u','2','0','2','8'] [c])

theorem separatorsEscaped_other (apart : isSeparator c = false) : separatorsEscaped c = [c] := by
  have line : c ≠ Char.ofNat 0x2028 := by
    rintro rfl
    exact absurd apart (by decide)
  have paragraph : c ≠ Char.ofNat 0x2029 := by
    rintro rfl
    exact absurd apart (by decide)
  simp [separatorsEscaped,replaceChar,line,paragraph]

theorem separatorsEscaped_ascii (ascii : c.toNat < 128) : separatorsEscaped c = [c] := by
  apply separatorsEscaped_other
  simp only [isSeparator,Bool.or_eq_false_iff,decide_eq_false_iff_not]
  omega

theorem flatMap_ascii {text : List Char} (ascii : ∀ c ∈ text, c.toNat < 128) :
    text.flatMap separatorsEscaped = text := by
  induction text with
  | nil => rfl
  | cons c rest ih =>
    obtain ⟨first,others⟩ := List.forall_mem_cons.mp ascii
    rw [List.flatMap_cons,separatorsEscaped_ascii first,ih others]
    rfl

theorem digitChar_ascii : ∀ value < 16, (Nat.digitChar value).toNat < 128 := by decide

theorem hexDigits_ascii (n : Nat) : ∀ c ∈ hexDigits n, c.toNat < 128 := by
  intro c member
  simp only [hexDigits,List.mem_cons,List.not_mem_nil,or_false] at member
  rcases member with rfl | rfl | rfl | rfl <;>
    exact digitChar_ascii _ (Nat.mod_lt _ (by decide))

/-- The separators are numbered after the encoder or by it. -/
theorem escape_separators (c : Char) :
    (escape (fun _ => false) c).flatMap separatorsEscaped = escape isSeparator c := by
  by_cases short : c.toNat ∈ shortEscapes
  · simp only [shortEscapes,List.mem_cons,List.not_mem_nil,or_false] at short
    rcases short with same | same | same | same | same | same | same <;>
      (rw [char_eq same]; decide)
  rw [escape_long _ short,escape_long _ short]
  simp only [Bool.or_false,decide_eq_true_eq]
  split
  · rename_i control
    have hidden : (decide (c.toNat < 32) || isSeparator c) = true := by
      rw [decide_eq_true control,Bool.true_or]
    rw [if_pos hidden]
    refine flatMap_ascii fun other member => ?_
    rcases List.mem_cons.mp member with rfl | member
    · decide
    rcases List.mem_cons.mp member with rfl | member
    · decide
    exact hexDigits_ascii c.toNat other member
  · rename_i plain
    cases separator : isSeparator c with
    | false => simp [plain,separatorsEscaped_other separator]
    | true =>
      rcases Bool.or_eq_true_iff.mp separator with line | paragraph
      · rw [char_eq (of_decide_eq_true line)]
        decide
      · rw [char_eq (of_decide_eq_true paragraph)]
        decide

theorem jsonDumps_mapsTo : Encoder.MapsTo separatorsEscaped jsonDumps canonical where
  symbol c ascii := separatorsEscaped_ascii ascii
  literal s := by
    change (quoted (fun _ => false) s).flatMap separatorsEscaped = quoted isSeparator s
    unfold quoted
    have each := List.flatMap_congr (l := s) fun c _ => escape_separators c
    rw [List.flatMap_cons,List.flatMap_append,List.flatMap_assoc,each]
    rfl
  precedes := rfl

theorem encodingJson_mapsTo : Encoder.MapsTo String.utf8EncodeChar canonical encodingJson where
  symbol c ascii := by
    change String.utf8EncodeChar c = [UInt8.ofNat c.toNat]
    unfold String.utf8EncodeChar
    simp only [Char.toNat_val]
    rw [if_pos (by omega)]
  literal s := by
    change (quoted isSeparator s).flatMap String.utf8EncodeChar = _
    unfold quoted
    rw [List.flatMap_cons,List.flatMap_append,List.flatMap_assoc]
    rfl
  precedes := by
    funext a b
    change (!decide (b < a)) = !decide (utf8 b < utf8 a)
    rw [decide_eq_decide.mpr utf8_lt_iff]

theorem normalize_ofJson (big : Int → Option JsonValue) {value : JsonValue}
    (wellFormed : value.WellFormed maxSafeInteger) :
    normalize big (HostValue.ofJson value) = some value := by
  induction value using JsonValue.tree with
  | null => rfl
  | boolean b => rfl
  | string s => rfl
  | integer n =>
    cases wellFormed with
    | integer small => exact if_pos small
  | array items ih =>
    have each : normalizeItems big (HostValue.ofItems items) = some items := by
      cases wellFormed with
      | array inside =>
        induction items with
        | nil => rfl
        | cons item rest rec =>
          obtain ⟨first,others⟩ := List.forall_mem_cons.mp ih
          obtain ⟨firstInside,othersInside⟩ := List.forall_mem_cons.mp inside
          rw [HostValue.ofItems,normalizeItems,first firstInside,rec others othersInside]
          rfl
    rw [HostValue.ofJson,normalize,each]
    rfl
  | object fields ih =>
    have each : normalizeFields big (HostValue.ofFields fields) = some fields := by
      cases wellFormed with
      | object distinct inside =>
        clear distinct
        induction fields with
        | nil => rfl
        | cons field rest rec =>
          obtain ⟨first,others⟩ := List.forall_mem_cons.mp ih
          obtain ⟨firstInside,othersInside⟩ := List.forall_mem_cons.mp inside
          rw [HostValue.ofFields,normalizeFields,first firstInside,rec others othersInside]
          rfl
    rw [HostValue.ofJson,normalize,each]
    rfl

theorem pyCanonicalJson_ofJson {value : JsonValue} (wellFormed : value.WellFormed maxSafeInteger) :
    pyCanonicalJson (HostValue.ofJson value) = some (canonical.encode value) := by
  have replaced (text : List Char) : replaceChar (Char.ofNat 0x2029) ['\\','u','2','0','2','9']
      (replaceChar (Char.ofNat 0x2028) ['\\','u','2','0','2','8'] text) =
        text.flatMap separatorsEscaped := by
    unfold replaceChar
    rw [List.flatMap_assoc]
    refine List.flatMap_congr fun c _ => ?_
    simp [separatorsEscaped,replaceChar]
  unfold pyCanonicalJson pyNormalizeCanonicalJson
  rw [normalize_ofJson _ wellFormed,Option.map_some,replaced,jsonDumps_mapsTo.encode]

theorem goCanonicalJSON_ofJson {value : JsonValue} (wellFormed : value.WellFormed maxSafeInteger) :
    goCanonicalJSON (HostValue.ofJson value) = some (utf8 (canonical.encode value)) := by
  have trimmed (bytes : List UInt8) : trimNewline (bytes ++ [10]) = bytes := by
    unfold trimNewline
    rw [if_pos (by simp),List.dropLast_concat]
  unfold goCanonicalJSON goNormalizeCanonicalJSON
  rw [normalize_ofJson _ wellFormed,Option.map_some,trimmed,← encodingJson_mapsTo.encode]
  rfl

end GoAndPython

section TypeScript

/-- What the two replacements of the TypeScript SDK make of a quoted string. -/
def separatorsReplaced (s : JsString) : JsString :=
  replaceUnit 0x2029 (js "\\u2029") (replaceUnit 0x2028 (js "\\u2028") s)

theorem separatorsReplaced_append (s t : JsString) :
    separatorsReplaced (s ++ t) = separatorsReplaced s ++ separatorsReplaced t := by
  simp [separatorsReplaced,replaceUnit]

theorem separatorsReplaced_cons (line : unit ≠ 0x2028) (paragraph : unit ≠ 0x2029)
    (s : JsString) : separatorsReplaced (unit :: s) = unit :: separatorsReplaced s := by
  simp [separatorsReplaced,replaceUnit,line,paragraph]

theorem separatorsReplaced_ascii {s : JsString} (ascii : ∀ unit ∈ s, unit < 128) :
    separatorsReplaced s = s := by
  induction s with
  | nil => rfl
  | cons unit rest ih =>
    obtain ⟨first,others⟩ := List.forall_mem_cons.mp ascii
    rw [separatorsReplaced_cons,ih others]
    · rintro rfl
      exact absurd first (by decide)
    · rintro rfl
      exact absurd first (by decide)

theorem utf16Char_single (small : c.toNat < 65536) : utf16Char c = [UInt16.ofNat c.toNat] :=
  if_pos small

theorem unit_toNat {n : Nat} (small : n < 65536) : (UInt16.ofNat n).toNat = n := by
  rw [UInt16.toNat_ofNat']
  omega

theorem utf16_hexDigits (n : Nat) : utf16 (hexDigits n) = fixedDigits 16 4 n := by
  have each : ∀ value < 16, utf16Char (Nat.digitChar value) = [digit value] := by decide
  have third : n / 16 / 16 = n / 256 := by omega
  have fourth : n / 256 / 16 = n / 4096 := by omega
  simp only [utf16,hexDigits,fixedDigits,List.flatMap_cons,List.flatMap_nil,List.nil_append,
    List.cons_append,each _ (Nat.mod_lt _ (by decide)),third,fourth]

/-- A single unit that is no surrogate. -/
theorem quoteUnits_single (leading : isLeading unit = false) (rest : JsString) :
    quoteUnits (unit :: rest) = quoteUnit unit ++ quoteUnits rest := by
  cases rest with
  | nil => rw [quoteUnits,quoteUnits,List.append_nil]
  | cons next rest => rw [quoteUnits,leading,Bool.false_and,if_neg Bool.false_ne_true]

theorem surrogate_free (c : Char) (small : c.toNat < 65536) :
    isLeading (UInt16.ofNat c.toNat) = false ∧ isTrailing (UInt16.ofNat c.toNat) = false := by
  have range := char_range c
  unfold isLeading isTrailing
  simp only [Bool.and_eq_false_iff,decide_eq_false_iff_not,UInt16.le_iff_toNat_le,
    UInt16.lt_iff_toNat_lt,unit_toNat small,UInt16.reduceToNat]
  omega

theorem quoteUnit_escape {c : Char} (small : c.toNat < 65536) :
    separatorsReplaced (quoteUnit (UInt16.ofNat c.toNat)) = utf16 (escape isSeparator c) := by
  have apart (unit : UInt16) (other : ¬c.toNat = unit.toNat) : UInt16.ofNat c.toNat ≠ unit := by
    intro same
    rw [← same,unit_toNat small] at other
    exact other rfl
  by_cases short : c.toNat ∈ shortEscapes
  · simp only [shortEscapes,List.mem_cons,List.not_mem_nil,or_false] at short
    rcases short with same | same | same | same | same | same | same <;>
      (rw [char_eq same]; decide)
  rw [escape_long _ short]
  simp only [shortEscapes,List.mem_cons,List.not_mem_nil,or_false,not_or] at short
  obtain ⟨backspace,tab,newline,feed,carriage,mark,slash⟩ := short
  rw [quoteUnit,if_neg (apart 8 backspace),if_neg (apart 9 tab),if_neg (apart 10 newline),
    if_neg (apart 12 feed),if_neg (apart 13 carriage),if_neg (apart 34 mark),
    if_neg (apart 92 slash),(surrogate_free c small).1,(surrogate_free c small).2,Bool.or_false,
    Bool.or_false]
  by_cases control : c.toNat < 32
  · have below : UInt16.ofNat c.toNat < 32 :=
      UInt16.lt_iff_toNat_lt.mpr (by rw [unit_toNat small]; exact control)
    have hidden : (decide (c.toNat < 32) || isSeparator c) = true := by
      rw [decide_eq_true control,Bool.true_or]
    rw [if_pos (decide_eq_true below),if_pos hidden,unicodeEscape,unit_toNat small,
      separatorsReplaced_ascii,← utf16_hexDigits]
    · rfl
    · intro unit member
      rcases List.mem_cons.mp member with rfl | member
      · decide
      rcases List.mem_cons.mp member with rfl | member
      · decide
      exact fixedDigits_ascii (by decide) (by decide) _ _ unit member
  · have above : ¬UInt16.ofNat c.toNat < 32 := by
      rw [UInt16.lt_iff_toNat_lt,unit_toNat small]
      exact control
    rw [if_neg (by simpa using above)]
    cases separator : isSeparator c with
    | true =>
      rcases Bool.or_eq_true_iff.mp separator with line | paragraph
      · rw [char_eq (of_decide_eq_true line)]
        decide
      · rw [char_eq (of_decide_eq_true paragraph)]
        decide
    | false =>
      obtain ⟨line,paragraph⟩ := Bool.or_eq_false_iff.mp separator
      have shown : ¬(decide (c.toNat < 32) || false) = true := by
        rw [Bool.or_false]
        exact mt of_decide_eq_true control
      rw [if_neg shown,
        separatorsReplaced_cons (apart 0x2028 (of_decide_eq_false line))
          (apart 0x2029 (of_decide_eq_false paragraph))]
      simp [utf16,utf16Char_single small,separatorsReplaced,replaceUnit]

/-- The literals of the TypeScript SDK are those of the canonical encoder in UTF-16. -/
theorem encodeCanonicalString_utf16 (s : List Char) :
    encodeCanonicalString (utf16 s) = utf16 (quoted isSeparator s) := by
  have units : separatorsReplaced (quoteUnits (utf16 s)) =
      utf16 (s.flatMap (escape isSeparator)) := by
    induction s with
    | nil => rfl
    | cons c rest ih =>
      rw [List.flatMap_cons,utf16_append,← ih]
      change separatorsReplaced (quoteUnits (utf16Char c ++ utf16 rest)) = _
      by_cases small : c.toNat < 65536
      · rw [utf16Char_single small,List.singleton_append,
          quoteUnits_single (surrogate_free c small).1,separatorsReplaced_append,
          quoteUnit_escape small]
      · obtain ⟨high,low,units,pair,highValue,lowValue⟩ := utf16Char_pair small
        have apart (unit other : UInt16) (far : other.toNat < 55296) (same : 55296 ≤ unit.toNat) :
            unit ≠ other := by
          rintro rfl
          omega
        have plain : escape isSeparator c = [c] := by
          rw [escape_long _ (by simp [shortEscapes]; omega)]
          exact if_neg (by simp [isSeparator]; omega)
        rw [plain,units,List.cons_append,List.singleton_append,quoteUnits,if_pos pair,
          separatorsReplaced_cons (apart high _ (by decide) (by omega))
            (apart high _ (by decide) (by omega)),
          separatorsReplaced_cons (apart low _ (by decide) (by omega))
            (apart low _ (by decide) (by omega))]
        simp [utf16,units]
  change separatorsReplaced (34 :: (quoteUnits (utf16 s) ++ [34])) = _
  rw [separatorsReplaced_cons (by decide) (by decide),separatorsReplaced_append,units,
    quoted]
  change _ = utf16Char '"' ++ utf16 (s.flatMap (escape isSeparator) ++ ['"'])
  rw [utf16_append]
  rfl

/-- Lists are compared as their code points are. -/
theorem compareCodePoints_le {α : Type} [LT α] {f : α → Nat} (order : ∀ c d, f c < f d ↔ c < d)
    (injective : Function.Injective f) (s t : List α) :
    compareCodePoints (s.map f) (t.map f) ≤ 0 ↔ ¬t < s := by
  induction s generalizing t with
  | nil => cases t <;> simp [compareCodePoints]
  | cons c s ih =>
    cases t with
    | nil => simp [compareCodePoints]
    | cons d t =>
      rw [List.map_cons,List.map_cons,compareCodePoints,List.cons_lt_cons_iff,← order]
      by_cases same : c = d
      · subst same
        rw [if_neg (by simp),ih t]
        simp
      · have apart : f c ≠ f d := fun equal => same (injective equal)
        have swapped : d ≠ c := Ne.symm same
        rw [if_pos apart]
        simp only [swapped,false_and,or_false]
        omega

theorem toNat_injective : Function.Injective Char.toNat := by
  intro c d same
  rw [char_eq same,Char.ofNat_toNat]

/-- The encoder that the TypeScript SDK is on JSON values. -/
def tsEncoder : Encoder UInt16 where
  symbol c := UInt16.ofNat c.toNat
  literal s := encodeCanonicalString (utf16 s)
  precedes a b := decide (compareByCodePoint (utf16 a) (utf16 b) ≤ 0)

theorem tsEncoder_mapsTo : Encoder.MapsTo utf16Char canonical tsEncoder where
  symbol c ascii := utf16Char_single (show c.toNat < 65536 by omega)
  literal s := (encodeCanonicalString_utf16 s).symm
  precedes := by
    funext a b
    change (!decide (b < a)) = decide (compareByCodePoint (utf16 a) (utf16 b) ≤ 0)
    unfold compareByCodePoint
    rw [codePoints_utf16,codePoints_utf16,decide_eq_decide.mpr (compareCodePoints_le
      (fun _ _ => Char.toNat_lt_toNat) toNat_injective a b),decide_not]

theorem digits_value (n : Nat) : fixedValue 10 (natDigits n) = n := by
  have digits (text : List Char) (start : Nat) (each : ∀ c ∈ text, c.isDigit = true) :
      (text.map digitUnit).foldl (fun value unit => value * 10 + digitValue unit) start =
        Nat.ofDigitChars 10 text start := by
    induction text generalizing start with
    | nil => simp
    | cons c rest ih =>
      obtain ⟨first,others⟩ := List.forall_mem_cons.mp each
      obtain ⟨value,low,high⟩ := digitUnit_range first
      have unit : digitValue (digitUnit c) = c.toNat - '0'.toNat := by
        unfold digitValue
        have below : digitUnit c < 58 :=
          UInt16.lt_iff_toNat_lt.mpr (show (digitUnit c).toNat < 58 by omega)
        rw [if_pos below,value]
        rfl
      rw [List.map_cons,List.foldl_cons,ih _ others,Nat.ofDigitChars_cons,unit,Nat.mul_comm]
  rw [natDigits,fixedValue,digits _ _ fun c => toDigits_digit,Nat.ofDigitChars_ten_toDigits]

theorem integerOf_decimal (n : Int) : integerOf (decimal n) = n := by
  unfold decimal
  split
  · have value := digits_value n.natAbs
    change -((fixedValue 10 (natDigits n.natAbs) : Nat) : Int) = n
    rw [value]
    omega
  · have plain : integerOf (natDigits n.toNat) = fixedValue 10 (natDigits n.toNat) := by
      cases digits : natDigits n.toNat with
      | nil => rfl
      | cons unit rest =>
        have digit := natDigits_digit (n := n.toNat) (digits ▸ List.mem_cons_self)
        unfold integerOf
        split
        · rename_i same
          rw [(List.cons.inj same).1] at digit
          exact absurd digit.1 (by decide)
        · rfl
    rw [plain,digits_value]
    omega

theorem isSafeInteger_ofInt (small : n.natAbs ≤ maxSafeInteger) :
    isSafeInteger (JsNumber.ofInt n) = true := by
  unfold isSafeInteger JsNumber.ofInt
  simp only [integerOf_decimal,decide_true,Bool.true_and]
  exact decide_eq_true small

theorem decimal_integerText (n : Int) :
    decimal n = (integerText n).map fun c => UInt16.ofNat c.toNat := by
  unfold decimal integerText
  split <;> rfl

theorem canonicalJson_encoder {value : JsonValue} (wellFormed : value.WellFormed maxSafeInteger) :
    canonicalJson (TsValue.ofJson value) = some (tsEncoder.encode value) := by
  induction value using JsonValue.tree with
  | null => rfl
  | boolean b => cases b <;> rfl
  | string s => rfl
  | integer n =>
    cases wellFormed with
    | integer small =>
      rw [TsValue.ofJson,canonicalJson,if_pos (isSafeInteger_ofInt small)]
      exact congrArg some (decimal_integerText n)
  | array items ih =>
    have each : canonicalItems (TsValue.ofItems items) = some (items.map tsEncoder.encode) := by
      cases wellFormed with
      | array inside =>
        induction items with
        | nil => rfl
        | cons item rest rec =>
          obtain ⟨first,others⟩ := List.forall_mem_cons.mp ih
          obtain ⟨firstInside,othersInside⟩ := List.forall_mem_cons.mp inside
          rw [TsValue.ofItems,canonicalItems,first firstInside,rec others othersInside]
          rfl
    rw [TsValue.ofJson,canonicalJson,each,Encoder.encode,Encoder.encodeItems_map]
    rfl
  | object fields ih =>
    have each : canonicalFields (TsValue.ofFields fields) =
        some ((tsEncoder.encodeFields fields).map fun field => (utf16 field.1,field.2)) := by
      cases wellFormed with
      | object distinct inside =>
        clear distinct
        induction fields with
        | nil => rfl
        | cons field rest rec =>
          obtain ⟨first,others⟩ := List.forall_mem_cons.mp ih
          obtain ⟨firstInside,othersInside⟩ := List.forall_mem_cons.mp inside
          rw [TsValue.ofFields,canonicalFields,first firstInside,rec others othersInside]
          rfl
    have sorted := List.map_insertionSort tsEncoder.MemberLe KeyLe
      (fun field : List Char × JsString => (utf16 field.1,field.2)) (tsEncoder.encodeFields fields)
      fun a _ b _ => decide_eq_true_iff
    rw [TsValue.ofJson,canonicalJson,each,Option.map_some,← sorted,List.map_map,Encoder.encode]
    rfl

theorem canonicalJson_ofJson {value : JsonValue} (wellFormed : value.WellFormed maxSafeInteger) :
    canonicalJson (TsValue.ofJson value) = some (utf16 (canonical.encode value)) := by
  rw [canonicalJson_encoder wellFormed,← tsEncoder_mapsTo.encode]
  rfl

end TypeScript

/-- The three SDKs encode a JSON value to the same bytes. Two values have the same bytes where they
differ by no more than the order of members. -/
theorem canonical_bytes_agree (value other : JsonValue)
    (wellFormed : value.WellFormed maxSafeInteger)
    (wellFormed' : other.WellFormed maxSafeInteger) :
    (∃ bytes, (canonicalJson (TsValue.ofJson value)).map encodeUtf8 = some bytes ∧
      goCanonicalJSON (HostValue.ofJson value) = some bytes ∧
      (pyCanonicalJson (HostValue.ofJson value)).map utf8 = some bytes) ∧
    ((canonicalJson (TsValue.ofJson value)).map encodeUtf8 =
      (canonicalJson (TsValue.ofJson other)).map encodeUtf8 ↔ value.Same other) := by
  constructor
  · refine ⟨utf8 (canonical.encode value),?_,goCanonicalJSON_ofJson wellFormed,?_⟩
    · rw [canonicalJson_ofJson wellFormed,Option.map_some,encodeUtf8_utf16]
    · rw [pyCanonicalJson_ofJson wellFormed,Option.map_some]
  · rw [canonicalJson_ofJson wellFormed,canonicalJson_ofJson wellFormed',Option.map_some,
      Option.map_some,encodeUtf8_utf16,encodeUtf8_utf16,Option.some.injEq]
    constructor
    · intro same
      exact canonical_reads.same_of_encode (utf8_injective same)
    · intro same
      rw [canonical_orders.encode_same same wellFormed]

section Members

/-- An order with its id first, or with its note first. -/
def orderFirst : JsonValue :=
  .object [(['i','d'],.integer 7),(['n','o','t','e'],.string ['a',Char.ofNat 0x2028])]

def noteFirst : JsonValue :=
  .object [(['n','o','t','e'],.string ['a',Char.ofNat 0x2028]),(['i','d'],.integer 7)]

theorem orderFirst_wellFormed : orderFirst.WellFormed maxSafeInteger := by
  refine .object (by decide) fun field member => ?_
  simp only [List.mem_cons,List.not_mem_nil,or_false] at member
  rcases member with rfl | rfl
  · exact .integer (by decide)
  · exact .string _

theorem noteFirst_wellFormed : noteFirst.WellFormed maxSafeInteger := by
  refine .object (by decide) fun field member => ?_
  simp only [List.mem_cons,List.not_mem_nil,or_false] at member
  rcases member with rfl | rfl
  · exact .string _
  · exact .integer (by decide)

theorem canonical_bytes_agree_order :
    (∃ bytes, (canonicalJson (TsValue.ofJson orderFirst)).map encodeUtf8 = some bytes ∧
      goCanonicalJSON (HostValue.ofJson orderFirst) = some bytes ∧
      (pyCanonicalJson (HostValue.ofJson orderFirst)).map utf8 = some bytes) ∧
    (canonicalJson (TsValue.ofJson orderFirst)).map encodeUtf8 =
      (canonicalJson (TsValue.ofJson noteFirst)).map encodeUtf8 := by
  obtain ⟨agree,same⟩ := canonical_bytes_agree orderFirst noteFirst orderFirst_wellFormed
    noteFirst_wellFormed
  exact ⟨agree,same.mpr (JsonValue.same_of_perm (List.Perm.swap _ _ _))⟩

end Members
end Tonbankcard.Sdk
