import Mathlib.Data.List.Sort
import Mathlib.Data.Nat.Digits.Defs

/-! JSON values and the encoders that sort the members of objects. An encoder is given by its
symbols, its string literals and the order of the members; its text determines the value up to
the order of members, and the image of a text under a map of symbols is the text of another
encoder. -/
namespace CanonicalJson

inductive JsonValue where
  | null
  | boolean (b : Bool)
  | integer (n : Int)
  | string (s : List Char)
  | array (items : List JsonValue)
  | object (fields : List (List Char × JsonValue))

section Values

@[elab_as_elim]
theorem JsonValue.tree {motive : JsonValue → Prop} (null : motive .null)
    (boolean : ∀ b, motive (.boolean b)) (integer : ∀ n, motive (.integer n))
    (string : ∀ s, motive (.string s))
    (array : ∀ items, (∀ item ∈ items, motive item) → motive (.array items))
    (object : ∀ fields, (∀ field ∈ fields, motive field.2) → motive (.object fields))
    (value : JsonValue) : motive value := by
  refine @JsonValue.rec motive (fun items => ∀ item ∈ items, motive item)
    (fun fields => ∀ field ∈ fields, motive field.2) (fun field => motive field.2) null boolean
    integer string array object ?_ ?_ ?_ ?_ ?_ value
  · exact List.forall_mem_nil _
  · exact fun item items first rest => List.forall_mem_cons.mpr ⟨first,rest⟩
  · exact List.forall_mem_nil _
  · exact fun field fields first rest => List.forall_mem_cons.mpr ⟨first,rest⟩
  · exact fun _ value holds => holds

/-- Whole numbers within a bound, and objects with one member of a name. -/
inductive JsonValue.WellFormed (bound : Nat) : JsonValue → Prop
  | null : WellFormed bound .null
  | boolean (b : Bool) : WellFormed bound (.boolean b)
  | integer (small : n.natAbs ≤ bound) : WellFormed bound (.integer n)
  | string (s : List Char) : WellFormed bound (.string s)
  | array (each : ∀ item ∈ items, WellFormed bound item) : WellFormed bound (.array items)
  | object (distinct : (fields.map Prod.fst).Nodup)
      (each : ∀ field ∈ fields, WellFormed bound field.2) : WellFormed bound (.object fields)

/-- Equality of values: items in order, and members by their names in any order. -/
inductive JsonValue.Same : JsonValue → JsonValue → Prop
  | null : Same .null .null
  | boolean (b : Bool) : Same (.boolean b) (.boolean b)
  | integer (n : Int) : Same (.integer n) (.integer n)
  | string (s : List Char) : Same (.string s) (.string s)
  | array (pairs : List (JsonValue × JsonValue)) (each : ∀ pair ∈ pairs, Same pair.1 pair.2) :
      Same (.array (pairs.map Prod.fst)) (.array (pairs.map Prod.snd))
  | object (pairs : List (List Char × JsonValue × JsonValue))
      (left : fields.Perm (pairs.map fun pair => (pair.1,pair.2.1)))
      (right : others.Perm (pairs.map fun pair => (pair.1,pair.2.2)))
      (each : ∀ pair ∈ pairs, Same pair.2.1 pair.2.2) : Same (.object fields) (.object others)

theorem JsonValue.Same.refl (value : JsonValue) : value.Same value := by
  induction value using JsonValue.tree with
  | null => exact .null
  | boolean b => exact .boolean b
  | integer n => exact .integer n
  | string s => exact .string s
  | array items ih =>
    have doubled := JsonValue.Same.array (items.map fun item => (item,item)) (by
      intro pair member
      obtain ⟨item,held,rfl⟩ := List.mem_map.mp member
      exact ih item held)
    simpa [Function.comp_def] using doubled
  | object fields ih =>
    refine .object (fields.map fun field => (field.1,field.2,field.2)) ?_ ?_ ?_
    · simp [Function.comp_def]
    · simp [Function.comp_def]
    · intro pair member
      obtain ⟨field,held,rfl⟩ := List.mem_map.mp member
      exact ih field held

/-- The order in which members were inserted does not tell two objects apart. -/
theorem JsonValue.same_of_perm (perm : fields.Perm others) :
    (JsonValue.object fields).Same (.object others) := by
  refine .object (fields.map fun field => (field.1,field.2,field.2)) ?_ ?_ ?_
  · simp [Function.comp_def]
  · simpa [Function.comp_def] using perm.symm
  · intro pair member
    obtain ⟨field,held,rfl⟩ := List.mem_map.mp member
    exact .refl field.2

/-- Members of one name are equal. -/
theorem JsonValue.Same.member {fields others : List (List Char × JsonValue)}
    (same : (JsonValue.object fields).Same (.object others)) (distinct : (others.map Prod.fst).Nodup)
    (left : (key,value) ∈ fields) (right : (key,other) ∈ others) : value.Same other := by
  generalize first : JsonValue.object fields = a at same
  generalize second : JsonValue.object others = b at same
  cases same with
  | object pairs leftPerm rightPerm each =>
    cases JsonValue.object.inj first
    cases JsonValue.object.inj second
    obtain ⟨pair,member,named⟩ := List.mem_map.mp (leftPerm.mem_iff.mp left)
    cases Prod.mk.inj named with
    | intro name shown =>
      have partner : (key,pair.2.2) ∈ others :=
        rightPerm.mem_iff.mpr (List.mem_map.mpr ⟨pair,member,by rw [name]⟩)
      have unique := List.inj_on_of_nodup_map distinct right partner rfl
      rw [← shown,(Prod.mk.inj unique).2]
      exact each pair member
  | null | boolean | integer | string | array => cases first

end Values

section Numbers

/-- The decimal text of a whole number. -/
def integerText (n : Int) : List Char :=
  if n < 0 then '-' :: Nat.toDigits 10 n.natAbs else Nat.toDigits 10 n.toNat

def isNumeral (c : Char) : Bool := c.isDigit || c == '-'

theorem toDigits_digit (member : c ∈ Nat.toDigits 10 n) : c.isDigit = true :=
  Nat.isDigit_of_mem_toDigits (b := 10) (by decide) (by decide) member

theorem integerText_numeral (member : c ∈ integerText n) : isNumeral c = true := by
  unfold integerText at member
  unfold isNumeral
  split at member
  · rcases List.mem_cons.mp member with rfl | member
    · rfl
    · simp [toDigits_digit member]
  · simp [toDigits_digit member]

theorem integerText_filled (n : Int) : integerText n ≠ [] := by
  unfold integerText
  split
  · exact List.cons_ne_nil _ _
  · exact Nat.toDigits_ne_nil

theorem toDigits_injective : Function.Injective (Nat.toDigits 10) := by
  intro n m same
  rw [← Nat.ofDigitChars_ten_toDigits (n := n),same,Nat.ofDigitChars_ten_toDigits]

theorem integerText_injective : Function.Injective integerText := by
  have signed (n m : Nat) : '-' :: Nat.toDigits 10 n ≠ Nat.toDigits 10 m := by
    intro same
    have first : '-' ∈ Nat.toDigits 10 m := same ▸ List.mem_cons_self
    exact absurd (toDigits_digit first) (by decide)
  intro n m same
  unfold integerText at same
  split at same <;> split at same
  · have magnitude := toDigits_injective (List.cons.inj same).2
    omega
  · exact absurd same (signed _ _)
  · exact absurd same.symm (signed _ _)
  · have magnitude := toDigits_injective same
    omega

end Numbers

/-- The symbols of an encoder, its string literals and which name stands first. -/
structure Encoder (β : Type) where
  symbol : Char → β
  literal : List Char → List β
  precedes : List Char → List Char → Bool

namespace Encoder

section Encode
variable {β : Type} (e : Encoder β)

def word (text : List Char) : List β := text.map e.symbol

/-- Members stand by their names. -/
abbrev MemberLe {α : Type} (a b : List Char × α) : Prop := e.precedes a.1 b.1 = true

def member (field : List Char × List β) : List β :=
  e.literal field.1 ++ e.symbol ':' :: field.2

def enclosed (opening closing : Char) (parts : List (List β)) : List β :=
  e.symbol opening :: ([e.symbol ','].intercalate parts ++ [e.symbol closing])

def booleanText (b : Bool) : List Char := if b then "true".toList else "false".toList

mutual

def encode : JsonValue → List β
  | .null => e.word "null".toList
  | .boolean b => e.word (booleanText b)
  | .integer n => e.word (integerText n)
  | .string s => e.literal s
  | .array items => e.enclosed '[' ']' (encodeItems items)
  | .object fields =>
    e.enclosed '\x7b' '\x7d' (((encodeFields fields).insertionSort e.MemberLe).map e.member)

def encodeItems : List JsonValue → List (List β)
  | [] => []
  | item :: rest => encode item :: encodeItems rest

def encodeFields : List (List Char × JsonValue) → List (List Char × List β)
  | [] => []
  | (name,value) :: rest => (name,encode value) :: encodeFields rest

end

theorem encodeItems_map (items : List JsonValue) : e.encodeItems items = items.map e.encode := by
  induction items with
  | nil => rfl
  | cons item rest ih => rw [encodeItems,ih,List.map_cons]

theorem encodeFields_map (fields : List (List Char × JsonValue)) :
    e.encodeFields fields = fields.map fun field => (field.1,e.encode field.2) := by
  induction fields with
  | nil => rfl
  | cons field rest ih => rw [encodeFields,ih,List.map_cons]

end Encode

section Image
variable {β γ : Type} {e : Encoder β} {image : Encoder γ} {f : β → List γ}

/-- A map of symbols that takes the texts of one encoder to those of another. -/
structure MapsTo (f : β → List γ) (e : Encoder β) (image : Encoder γ) : Prop where
  symbol : ∀ c, c.toNat < 128 → f (e.symbol c) = [image.symbol c]
  literal : ∀ s, (e.literal s).flatMap f = image.literal s
  precedes : e.precedes = image.precedes

theorem ascii_of_all {text : List Char} (all : text.all (fun c => c.toNat < 128) = true) :
    ∀ c ∈ text, c.toNat < 128 :=
  fun c member => of_decide_eq_true (List.all_eq_true.mp all c member)

theorem MapsTo.word (maps : MapsTo f e image) {text : List Char}
    (ascii : ∀ c ∈ text, c.toNat < 128) : (e.word text).flatMap f = image.word text := by
  induction text with
  | nil => rfl
  | cons c rest ih =>
    obtain ⟨first,others⟩ := List.forall_mem_cons.mp ascii
    unfold Encoder.word at ih ⊢
    rw [List.map_cons,List.flatMap_cons,maps.symbol c first,ih others,List.map_cons]
    rfl

theorem MapsTo.intercalate (maps : MapsTo f e image) (parts : List (List β)) :
    ([e.symbol ','].intercalate parts).flatMap f =
      [image.symbol ','].intercalate (parts.map (·.flatMap f)) := by
  have comma : f (e.symbol ',') = [image.symbol ','] := maps.symbol ',' (by decide)
  induction parts with
  | nil => rfl
  | cons part rest ih =>
    cases rest with
    | nil => simp [List.intercalate_singleton]
    | cons next rest =>
      simp only [List.map_cons] at ih ⊢
      rw [List.intercalate_cons_cons,List.intercalate_cons_cons,List.flatMap_append,
        List.flatMap_append,ih,List.flatMap_singleton,comma]

theorem MapsTo.enclosed (maps : MapsTo f e image) {opening closing : Char}
    (asciiOpening : opening.toNat < 128) (asciiClosing : closing.toNat < 128)
    (parts : List (List β)) :
    (e.enclosed opening closing parts).flatMap f =
      image.enclosed opening closing (parts.map (·.flatMap f)) := by
  unfold Encoder.enclosed
  rw [List.flatMap_cons,List.flatMap_append,maps.intercalate,maps.symbol opening asciiOpening,
    List.flatMap_singleton,maps.symbol closing asciiClosing]
  rfl

theorem MapsTo.member (maps : MapsTo f e image) (field : List Char × List β) :
    (e.member field).flatMap f = image.member (field.1,field.2.flatMap f) := by
  unfold Encoder.member
  rw [List.flatMap_append,maps.literal,List.flatMap_cons,maps.symbol ':' (by decide)]
  rfl

theorem isNumeral_ascii {c : Char} (numeral : isNumeral c = true) : c.toNat < 128 := by
  unfold isNumeral at numeral
  rcases Bool.or_eq_true_iff.mp numeral with digit | minus
  · simp only [Char.isDigit,Bool.and_eq_true,decide_eq_true_eq,UInt32.le_iff_toNat_le] at digit
    have high : c.toNat ≤ 57 := digit.2
    omega
  · rw [beq_iff_eq.mp minus]
    decide

/-- The text of a value under the image of an encoder is the image of its text. -/
theorem MapsTo.encode (maps : MapsTo f e image) (value : JsonValue) :
    (e.encode value).flatMap f = image.encode value := by
  induction value using JsonValue.tree with
  | null => exact maps.word (ascii_of_all (by decide))
  | boolean b => exact maps.word (ascii_of_all (by cases b <;> decide))
  | integer n => exact maps.word fun c member => isNumeral_ascii (integerText_numeral member)
  | string s => exact maps.literal s
  | array items ih =>
    rw [Encoder.encode,Encoder.encode,maps.enclosed (by decide) (by decide),encodeItems_map,
      encodeItems_map,List.map_map]
    exact congrArg _ (List.map_congr_left ih)
  | object fields ih =>
    have sorted := List.map_insertionSort e.MemberLe image.MemberLe
      (fun field : List Char × List β => (field.1,field.2.flatMap f)) (e.encodeFields fields)
      fun a _ b _ => by rw [Encoder.MemberLe,Encoder.MemberLe,maps.precedes]
    have encoded : (e.encodeFields fields).map (fun field => (field.1,field.2.flatMap f)) =
        image.encodeFields fields := by
      rw [encodeFields_map,encodeFields_map,List.map_map]
      exact List.map_congr_left fun field member => Prod.ext rfl (ih field member)
    rw [Encoder.encode,Encoder.encode,maps.enclosed (by decide) (by decide),← encoded,← sorted,
      List.map_map,List.map_map]
    exact congrArg _ (List.map_congr_left fun field _ => maps.member field)

end Image
section Order
variable {β : Type} {e : Encoder β}

/-- The names are in a linear order. -/
structure Orders (e : Encoder β) : Prop where
  total : ∀ a b, e.precedes a b = true ∨ e.precedes b a = true
  trans : ∀ a b c, e.precedes a b = true → e.precedes b c = true → e.precedes a c = true
  antisymm : ∀ a b, e.precedes a b = true → e.precedes b a = true → a = b

theorem Orders.sorted (orders : e.Orders) (fields : List (List Char × List β)) :
    (fields.insertionSort e.MemberLe).Pairwise e.MemberLe := by
  have : @Std.Total (List Char × List β) e.MemberLe := ⟨fun a b => orders.total a.1 b.1⟩
  have : IsTrans (List Char × List β) e.MemberLe := ⟨fun a b c => orders.trans a.1 b.1 c.1⟩
  exact List.pairwise_insertionSort e.MemberLe fields

/-- Members of different names have one order. -/
theorem Orders.sort_eq (orders : e.Orders) {fields others : List (List Char × List β)}
    (perm : fields.Perm others) (distinct : (fields.map Prod.fst).Nodup) :
    fields.insertionSort e.MemberLe = others.insertionSort e.MemberLe := by
  have left := List.perm_insertionSort e.MemberLe fields
  have right := List.perm_insertionSort e.MemberLe others
  refine List.Perm.eq_of_pairwise ?_ (orders.sorted fields) (orders.sorted others)
    (left.trans (perm.trans right.symm))
  intro a b inA inB before after
  exact List.inj_on_of_nodup_map distinct (left.mem_iff.mp inA)
    (perm.mem_iff.mpr (right.mem_iff.mp inB)) (orders.antisymm a.1 b.1 before after)

/-- Equal values have one text. -/
theorem Orders.encode_same (orders : e.Orders) {value other : JsonValue} (same : value.Same other)
    (wellFormed : value.WellFormed bound) : e.encode value = e.encode other := by
  induction same with
  | null => rfl
  | boolean b => rfl
  | integer n => rfl
  | string s => rfl
  | array pairs each ih =>
    cases wellFormed with
    | array items =>
      rw [encode,encode,encodeItems_map,encodeItems_map,List.map_map,List.map_map]
      exact congrArg _ (List.map_congr_left fun pair member =>
        ih pair member (items _ (List.mem_map_of_mem member)))
  | @object fields others pairs left right each ih =>
    cases wellFormed with
    | object distinct values =>
      have texts : (pairs.map fun pair => (pair.1,pair.2.1)).map
            (fun field => (field.1,e.encode field.2)) =
          (pairs.map fun pair => (pair.1,pair.2.2)).map
            fun field => (field.1,e.encode field.2) := by
        rw [List.map_map,List.map_map]
        refine List.map_congr_left fun pair member => Prod.ext rfl (ih pair member ?_)
        exact values (pair.1,pair.2.1) (left.mem_iff.mpr (List.mem_map_of_mem member))
      have perm : (e.encodeFields fields).Perm (e.encodeFields others) := by
        rw [encodeFields_map,encodeFields_map]
        exact (left.map _).trans (texts ▸ (right.map _).symm)
      have names : (e.encodeFields fields).map Prod.fst = fields.map Prod.fst := by
        rw [encodeFields_map,List.map_map]
        rfl
      rw [encode,encode,orders.sort_eq perm (names ▸ distinct)]

end Order

section Reading
variable {β : Type} {e : Encoder β}

/-- Symbols differ, and a string literal is read from the front of a text. -/
structure Reads (e : Encoder β) : Prop where
  symbol : Function.Injective e.symbol
  opens : ∀ s, ∃ rest, e.literal s = e.symbol '"' :: rest
  closes : ∀ s t rest left, e.literal s ++ rest = e.literal t ++ left → s = t ∧ rest = left

/-- What may stand behind a value. -/
def Ends (e : Encoder β) : List β → Prop
  | [] => True
  | x :: _ => ∃ c ∈ [',',']','\x7d'], x = e.symbol c

inductive Kind where
  | null
  | boolean
  | integer
  | string
  | array
  | object
  deriving DecidableEq

def kind : JsonValue → Kind
  | .null => .null
  | .boolean _ => .boolean
  | .integer _ => .integer
  | .string _ => .string
  | .array _ => .array
  | .object _ => .object

/-- The kind of a value from the first character of its text. -/
def kindOf (c : Char) : Kind :=
  if c = 'n' then .null
  else if c = 't' ∨ c = 'f' then .boolean
  else if c = '"' then .string
  else if c = '[' then .array
  else if c = '\x7b' then .object
  else .integer

theorem kindOf_numeral {c : Char} (numeral : isNumeral c = true) : kindOf c = .integer := by
  unfold kindOf
  have apart (d : Char) (other : isNumeral d = false) : c ≠ d := by
    rintro rfl
    rw [numeral] at other
    contradiction
  rw [if_neg (apart 'n' (by decide)),if_neg (not_or.mpr ⟨apart 't' (by decide),
    apart 'f' (by decide)⟩),if_neg (apart '"' (by decide)),if_neg (apart '[' (by decide)),
    if_neg (apart '\x7b' (by decide))]

theorem Reads.encode_head (reads : e.Reads) (value : JsonValue) :
    ∃ c rest, e.encode value = e.symbol c :: rest ∧ kindOf c = kind value ∧
      c ∉ [',',']','\x7d'] := by
  cases value with
  | null => exact ⟨'n',_,rfl,by decide,by decide⟩
  | boolean b =>
    cases b with
    | true => exact ⟨'t',_,rfl,by decide,by decide⟩
    | false => exact ⟨'f',_,rfl,by decide,by decide⟩
  | integer n =>
    obtain ⟨c,rest,text⟩ := List.exists_cons_of_ne_nil (integerText_filled n)
    have numeral : isNumeral c = true :=
      integerText_numeral (n := n) (text ▸ List.mem_cons_self)
    refine ⟨c,rest.map e.symbol,?_,kindOf_numeral numeral,?_⟩
    · rw [encode,word,text,List.map_cons]
    · intro closing
      simp only [List.mem_cons,List.not_mem_nil,or_false] at closing
      rcases closing with rfl | rfl | rfl <;> exact absurd numeral (by decide)
  | string s =>
    obtain ⟨rest,text⟩ := reads.opens s
    exact ⟨'"',rest,text,rfl,by decide⟩
  | array items => exact ⟨'[',_,rfl,rfl,by decide⟩
  | object fields => exact ⟨'\x7b',_,rfl,rfl,by decide⟩

theorem pair_up {f : ι → α} {g : κ → α} {items : List ι} {others : List κ}
    (same : items.map f = others.map g) :
    ∃ pairs : List (ι × κ), items = pairs.map Prod.fst ∧ others = pairs.map Prod.snd ∧
      ∀ pair ∈ pairs, f pair.1 = g pair.2 := by
  induction items generalizing others with
  | nil =>
    cases others with
    | nil => exact ⟨[],rfl,rfl,List.forall_mem_nil _⟩
    | cons other others => cases same
  | cons item items ih =>
    cases others with
    | nil => cases same
    | cons other others =>
      obtain ⟨first,rest⟩ := List.cons.inj same
      obtain ⟨pairs,rfl,rfl,each⟩ := ih rest
      exact ⟨(item,other) :: pairs,rfl,rfl,List.forall_mem_cons.mpr ⟨first,each⟩⟩

theorem ends_cons (closing : c ∈ [',',']','\x7d']) (rest : List β) :
    e.Ends (e.symbol c :: rest) :=
  ⟨c,closing,rfl⟩

/-- A number is read as far as its characters go. -/
theorem Reads.numeral_inj (reads : e.Reads) {text other : List Char} {rest left : List β}
    (numeral : ∀ c ∈ text, isNumeral c = true) (numeral' : ∀ c ∈ other, isNumeral c = true)
    (ends : e.Ends rest) (ends' : e.Ends left) (same : e.word text ++ rest = e.word other ++ left) :
    text = other ∧ rest = left := by
  have stop {c : Char} {more rest : List β} (isNumber : isNumeral c = true) (ends : e.Ends rest)
      (same : rest = e.symbol c :: more) : False := by
    rw [same] at ends
    obtain ⟨d,closing,equal⟩ := ends
    obtain rfl := reads.symbol equal
    simp only [List.mem_cons,List.not_mem_nil,or_false] at closing
    rcases closing with rfl | rfl | rfl <;> exact absurd isNumber (by decide)
  induction text generalizing other with
  | nil =>
    cases other with
    | nil => exact ⟨rfl,same⟩
    | cons c other => exact (stop (numeral' c List.mem_cons_self) ends same).elim
  | cons c text ih =>
    cases other with
    | nil => exact (stop (numeral c List.mem_cons_self) ends' same.symm).elim
    | cons d other =>
      obtain ⟨first,others⟩ := List.cons.inj same
      obtain ⟨rfl,done⟩ := ih (fun c member => numeral c (List.mem_cons_of_mem _ member))
        (fun c member => numeral' c (List.mem_cons_of_mem _ member)) others
      exact ⟨by rw [reads.symbol first],done⟩

/-- What stands behind the first part of an enclosed list. -/
def behind (e : Encoder β) (closing : Char) (parts : List (List β)) : List β :=
  parts.flatMap (e.symbol ',' :: ·) ++ [e.symbol closing]

theorem enclosed_cons (opening closing : Char) (part : List β) (parts : List (List β)) :
    e.enclosed opening closing (part :: parts) =
      e.symbol opening :: (part ++ e.behind closing parts) := by
  suffices joined : [e.symbol ','].intercalate (part :: parts) ++ [e.symbol closing] =
      part ++ e.behind closing parts by rw [enclosed,joined]
  induction parts generalizing part with
  | nil => simp [List.intercalate_singleton,behind]
  | cons next rest ih =>
    rw [List.intercalate_cons_cons,List.append_assoc,List.append_assoc,ih next]
    simp [behind]

theorem behind_ends (closes : closing ∈ [',',']','\x7d']) (parts : List (List β))
    (rest : List β) : e.Ends (e.behind closing parts ++ rest) := by
  cases parts with
  | nil => exact ends_cons closes rest
  | cons part parts => exact ends_cons (c := ',') (by decide) _

/-- The parts of two lists that are read one by one. -/
def ReadsParts (e : Encoder β) (parts others : List (List β)) : Prop :=
  ∀ part ∈ parts, ∀ other ∈ others, ∀ rest left, e.Ends rest → e.Ends left →
    part ++ rest = other ++ left → part = other ∧ rest = left

theorem Reads.behind_inj (reads : e.Reads) {closing : Char}
    (closes : closing ∈ [']','\x7d']) {parts others : List (List β)} {rest left : List β}
    (each : e.ReadsParts parts others)
    (same : e.behind closing parts ++ rest = e.behind closing others ++ left) :
    parts = others ∧ rest = left := by
  have apart : e.symbol closing ≠ e.symbol ',' := by
    intro equal
    rw [reads.symbol equal] at closes
    contradiction
  have closes' : closing ∈ [',',']','\x7d'] := List.mem_cons_of_mem _ closes
  induction parts generalizing others with
  | nil =>
    cases others with
    | nil => exact ⟨rfl,(List.cons.inj same).2⟩
    | cons other others => exact absurd (List.cons.inj same).1 apart
  | cons part parts ih =>
    cases others with
    | nil => exact absurd (List.cons.inj same).1.symm apart
    | cons other others =>
      unfold behind at same
      simp only [List.flatMap_cons,List.cons_append,List.append_assoc,List.cons.injEq,
        true_and] at same
      obtain ⟨rfl,tails⟩ := each part List.mem_cons_self other List.mem_cons_self _ _
        (by simpa [behind] using behind_ends (e := e) closes' parts rest)
        (by simpa [behind] using behind_ends (e := e) closes' others left) same
      obtain ⟨rfl,done⟩ := ih (fun p inP o inO => each p
        (List.mem_cons_of_mem _ inP) o (List.mem_cons_of_mem _ inO))
        (by simpa [behind] using tails)
      exact ⟨rfl,done⟩

/-- No part begins with a closing symbol, so that the empty list is told apart. -/
theorem Reads.enclosed_inj (reads : e.Reads) {opening closing : Char}
    (closes : closing ∈ [']','\x7d']) {parts others : List (List β)} {rest left : List β}
    (filled : ∀ part ∈ parts, ∃ more c, part = e.symbol c :: more ∧ c ∉ [',',']','\x7d'])
    (filled' : ∀ part ∈ others, ∃ more c, part = e.symbol c :: more ∧ c ∉ [',',']','\x7d'])
    (each : e.ReadsParts parts others)
    (same : e.enclosed opening closing parts ++ rest =
      e.enclosed opening closing others ++ left) :
    parts = others ∧ rest = left := by
  have closes' : closing ∈ [',',']','\x7d'] := List.mem_cons_of_mem _ closes
  have clash {part : List β} {left right : List β}
      (filled : ∃ more c, part = e.symbol c :: more ∧ c ∉ [',',']','\x7d'])
      (same : e.symbol closing :: left = part ++ right) : False := by
    obtain ⟨more,c,rfl,open_⟩ := filled
    rw [← reads.symbol (List.cons.inj same).1] at open_
    exact open_ closes'
  cases parts with
  | nil =>
    cases others with
    | nil => exact ⟨rfl,(List.cons.inj (List.cons.inj same).2).2⟩
    | cons other others =>
      rw [enclosed_cons,List.cons_append,List.append_assoc] at same
      exact (clash (filled' other List.mem_cons_self) (List.cons.inj same).2).elim
  | cons part parts =>
    rw [enclosed_cons,List.cons_append,List.append_assoc] at same
    cases others with
    | nil => exact (clash (filled part List.mem_cons_self) (List.cons.inj same).2.symm).elim
    | cons other others =>
      rw [enclosed_cons,List.cons_append,List.append_assoc] at same
      obtain ⟨rfl,tails⟩ := each part List.mem_cons_self other List.mem_cons_self _ _
        (behind_ends closes' parts rest) (behind_ends closes' others left) (List.cons.inj same).2
      obtain ⟨rfl,done⟩ := reads.behind_inj closes (fun p inP o inO => each p
        (List.mem_cons_of_mem _ inP) o (List.mem_cons_of_mem _ inO)) tails
      exact ⟨rfl,done⟩

theorem encode_object (fields : List (List Char × JsonValue)) :
    e.encode (.object fields) = e.enclosed '\x7b' '\x7d' ((fields.insertionSort
      e.MemberLe).map fun field => e.member (field.1,e.encode field.2)) := by
  have sorted := List.map_insertionSort e.MemberLe e.MemberLe
    (fun field : List Char × JsonValue => (field.1,e.encode field.2)) fields
    fun a _ b _ => Iff.rfl
  rw [encode,encodeFields_map,← sorted,List.map_map]
  rfl

theorem Reads.member_inj (reads : e.Reads) {field other : List Char × List β}
    {rest left : List β} (same : e.member field ++ rest = e.member other ++ left) :
    field.1 = other.1 ∧ field.2 ++ rest = other.2 ++ left := by
  unfold member at same
  rw [List.append_assoc,List.append_assoc] at same
  obtain ⟨name,values⟩ := reads.closes _ _ _ _ same
  exact ⟨name,(List.cons.inj values).2⟩

theorem Reads.member_filled (reads : e.Reads) (field : List Char × List β) :
    ∃ more c, e.member field = e.symbol c :: more ∧ c ∉ [',',']','\x7d'] := by
  obtain ⟨rest,text⟩ := reads.opens field.1
  exact ⟨_,'"',by rw [member,text,List.cons_append],by decide⟩

theorem Reads.encode_filled (reads : e.Reads) (value : JsonValue) :
    ∃ more c, e.encode value = e.symbol c :: more ∧ c ∉ [',',']','\x7d'] := by
  obtain ⟨c,rest,text,-,open_⟩ := reads.encode_head value
  exact ⟨rest,c,text,open_⟩

/-- A value is read from the front of a text. -/
theorem Reads.encode_inj (reads : e.Reads) (value : JsonValue) :
    ∀ other rest left, e.Ends rest → e.Ends left →
      e.encode value ++ rest = e.encode other ++ left →
        value.Same other ∧ e.encode value = e.encode other ∧ rest = left := by
  have kinds {value other : JsonValue} {rest left : List β}
      (same : e.encode value ++ rest = e.encode other ++ left) : kind value = kind other := by
    obtain ⟨c,more,text,kind_,-⟩ := reads.encode_head value
    obtain ⟨d,more',text',kind',-⟩ := reads.encode_head other
    rw [text,text'] at same
    rw [← kind_,← kind',reads.symbol (List.cons.inj same).1]
  induction value using JsonValue.tree with
  | null =>
    intro other rest left ends ends' same
    cases other with
    | null => exact ⟨.null,rfl,List.append_cancel_left same⟩
    | _ => exact nomatch kinds same
  | boolean b =>
    intro other rest left ends ends' same
    cases other with
    | boolean c =>
      have first : b = c := by
        cases b <;> cases c
        · rfl
        · exact absurd (reads.symbol (List.cons.inj same).1) (by decide)
        · exact absurd (reads.symbol (List.cons.inj same).1) (by decide)
        · rfl
      subst first
      exact ⟨.boolean b,rfl,List.append_cancel_left same⟩
    | _ => exact nomatch kinds same
  | integer n =>
    intro other rest left ends ends' same
    cases other with
    | integer m =>
      obtain ⟨text,done⟩ := reads.numeral_inj (fun c => integerText_numeral)
        (fun c => integerText_numeral) ends ends' same
      obtain rfl := integerText_injective text
      exact ⟨.integer n,rfl,done⟩
    | _ => exact nomatch kinds same
  | string s =>
    intro other rest left ends ends' same
    cases other with
    | string t =>
      obtain ⟨rfl,done⟩ := reads.closes s t rest left same
      exact ⟨.string s,rfl,done⟩
    | _ => exact nomatch kinds same
  | array items ih =>
    intro other rest left ends ends' same
    cases other with
    | array others =>
      have filled (values : List JsonValue) : ∀ part ∈ values.map e.encode,
          ∃ more c, part = e.symbol c :: more ∧ c ∉ [',',']','\x7d'] := by
        intro part member
        obtain ⟨value,-,rfl⟩ := List.mem_map.mp member
        exact reads.encode_filled value
      have each : e.ReadsParts (items.map e.encode) (others.map e.encode) := by
        intro part inItems other inOthers rest left ends ends' same
        obtain ⟨item,held,rfl⟩ := List.mem_map.mp inItems
        obtain ⟨value,-,rfl⟩ := List.mem_map.mp inOthers
        exact (ih item held value rest left ends ends' same).2
      rw [encode,encode,encodeItems_map,encodeItems_map] at same ⊢
      obtain ⟨parts,done⟩ := reads.enclosed_inj (by decide) (filled items) (filled others) each same
      obtain ⟨pairs,rfl,rfl,texts⟩ := pair_up parts
      refine ⟨.array pairs fun pair member => ?_,by rw [parts],done⟩
      exact (ih pair.1 (List.mem_map_of_mem member) pair.2 [] [] trivial trivial
        (congrArg (· ++ []) (texts pair member))).1
    | _ => exact nomatch kinds same
  | object fields ih =>
    intro other rest left ends ends' same
    cases other with
    | object others =>
      have filled (values : List (List Char × JsonValue)) :
          ∀ part ∈ values.map (fun field => e.member (field.1,e.encode field.2)),
            ∃ more c, part = e.symbol c :: more ∧ c ∉ [',',']','\x7d'] := by
        intro part member
        obtain ⟨field,-,rfl⟩ := List.mem_map.mp member
        exact reads.member_filled _
      have within {field : List Char × JsonValue}
          (member : field ∈ fields.insertionSort e.MemberLe) : field ∈ fields :=
        (List.mem_insertionSort e.MemberLe).mp member
      have each : e.ReadsParts ((fields.insertionSort e.MemberLe).map
            fun field => e.member (field.1,e.encode field.2))
          ((others.insertionSort e.MemberLe).map
            fun field => e.member (field.1,e.encode field.2)) := by
        intro part inFields other inOthers rest left ends ends' same
        obtain ⟨field,held,rfl⟩ := List.mem_map.mp inFields
        obtain ⟨value,-,rfl⟩ := List.mem_map.mp inOthers
        obtain ⟨name,texts⟩ := reads.member_inj same
        obtain ⟨-,text,done⟩ := ih field (within held) value.2 rest left ends ends' texts
        exact ⟨by rw [name,text],done⟩
      rw [encode_object,encode_object] at same ⊢
      obtain ⟨parts,done⟩ := reads.enclosed_inj (by decide) (filled _) (filled _) each same
      obtain ⟨pairs,left_,right_,texts⟩ := pair_up parts
      have named (pair) (member : pair ∈ pairs) : pair.1.1 = pair.2.1 ∧
          e.encode pair.1.2 = e.encode pair.2.2 := by
        have inj := reads.member_inj (congrArg (· ++ []) (texts pair member))
        exact ⟨inj.1,List.append_cancel_right inj.2⟩
      refine ⟨.object (pairs.map fun pair => (pair.1.1,pair.1.2,pair.2.2)) ?_ ?_ ?_,
        by rw [parts],done⟩
      · rw [List.map_map]
        have sorted := List.perm_insertionSort e.MemberLe fields
        rw [left_] at sorted
        exact sorted.symm
      · rw [List.map_map]
        have sorted := List.perm_insertionSort e.MemberLe others
        rw [right_] at sorted
        refine sorted.symm.trans (List.Perm.of_eq (List.map_congr_left fun pair member => ?_))
        exact Prod.ext (named pair member).1.symm rfl
      · intro triple member
        obtain ⟨pair,held,rfl⟩ := List.mem_map.mp member
        have inFields : pair.1 ∈ fields := within (left_ ▸ List.mem_map_of_mem held)
        exact (ih pair.1 inFields pair.2.2 [] [] trivial trivial
          (congrArg (· ++ []) (named pair held).2)).1
    | _ => exact nomatch kinds same

/-- Values of one text are equal. -/
theorem Reads.same_of_encode (reads : e.Reads) {value other : JsonValue}
    (same : e.encode value = e.encode other) : value.Same other :=
  (reads.encode_inj value other [] [] trivial trivial (congrArg (· ++ []) same)).1

end Reading
end Encoder
end CanonicalJson
