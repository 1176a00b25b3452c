import Mathlib.Data.List.Induction
import Mathlib.Data.List.Sort
import Tonbankcard.EcmaScript
import Tonbankcard.JsMap

/-! Plain objects: what a parser makes of members, and the order in which the keys of an object
stand that is filled by assignments. -/
namespace EcmaScript

variable {V W : Type}

section Parsed

/-- The object that a parser makes of members: a name that comes again is given its last value. -/
def parsed (members : List (JsString × V)) : JsMap JsString V :=
  members.foldl (fun object member => object.set member.1 member.2) JsMap.empty

theorem parsed_concat (members : List (JsString × V)) (member : JsString × V) :
    parsed (members ++ [member]) = (parsed members).set member.1 member.2 := by
  rw [parsed,List.foldl_append]
  rfl

theorem parsed_keys (members : List (JsString × V)) (key : JsString) :
    key ∈ (parsed members).entries.map Prod.fst ↔ key ∈ members.map Prod.fst := by
  induction members using List.reverseRecOn with
  | nil => exact Iff.rfl
  | append_singleton members member ih =>
    rw [parsed_concat,JsMap.set,JsMap.setEntry_keys,List.map_append,List.mem_append,← ih]
    split
    · rename_i present
      rw [List.map_singleton,List.mem_singleton]
      refine ⟨.inl,fun held => held.elim id fun same => ?_⟩
      rwa [same]
    · rw [List.mem_append]
      rfl

theorem setEntry_fresh {entries : List (JsString × V)} {key : JsString}
    (fresh : key ∉ entries.map Prod.fst) (value : V) :
    JsMap.setEntry key value entries = entries ++ [(key,value)] := by
  induction entries with
  | nil => rfl
  | cons entry rest ih =>
    rw [List.map_cons,List.mem_cons,not_or] at fresh
    rw [JsMap.setEntry,if_neg (Ne.symm fresh.1),ih fresh.2,List.cons_append]

/-- Members with distinct names are the fields of the object, in their order. -/
theorem parsed_distinct {members : List (JsString × V)} (distinct : (members.map Prod.fst).Nodup) :
    (parsed members).entries = members := by
  induction members using List.reverseRecOn with
  | nil => rfl
  | append_singleton members member ih =>
    rw [List.map_append,List.nodup_append] at distinct
    have fresh : member.1 ∉ (parsed members).entries.map Prod.fst := fun present =>
      distinct.2.2 _ ((parsed_keys members member.1).mp present) _ List.mem_cons_self rfl
    rw [parsed_concat]
    exact (setEntry_fresh fresh member.2).trans (by rw [ih distinct.1])

end Parsed

section Ordered

/-- The number of an array index, whose key is its decimal text. -/
def arrayIndex (key : JsString) : Option Nat :=
  let value := fixedValue 10 key
  if natDigits value = key ∧ value < 2^32 - 1 then some value else none

/-- The order of own keys: the array indices by their numbers, then the other keys as they were
assigned. -/
def ownOrder (fields : List (JsString × V)) : List (JsString × V) :=
  (fields.filter fun field => (arrayIndex field.1).isSome).insertionSort
      (fun a b => (arrayIndex a.1).getD 0 ≤ (arrayIndex b.1).getD 0) ++
    fields.filter fun field => (arrayIndex field.1).isNone

/-- The order of `Array.prototype.sort` on keys. -/
abbrev KeyLe (a b : JsString × V) : Prop := a.1 ≤ b.1

/-- An object that is given the fields of another in the order of their keys. To `__proto__`
nothing is assigned that stays. -/
def assigned (fields : List (JsString × V)) : List (JsString × V) :=
  ownOrder ((fields.insertionSort KeyLe).filter fun field => field.1 ≠ js "__proto__")

end Ordered

end EcmaScript
