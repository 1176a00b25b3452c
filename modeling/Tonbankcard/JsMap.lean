import Mathlib.Data.List.Basic
import Mathlib.Data.List.Nodup

/-! Maps that keep their entries in insertion order, each key once, as ECMAScript's `Map` and
plain objects do: an update of a present key stays in its place. -/

structure JsMap (K V : Type) where
  entries : List (K × V)
  distinct : (entries.map Prod.fst).Nodup
  deriving DecidableEq

namespace JsMap

variable {K V : Type}

def empty : JsMap K V := ⟨[],List.nodup_nil⟩

variable [DecidableEq K]

def getEntry (key : K) : List (K × V) → Option V
  | [] => none
  | entry :: rest => if entry.1 = key then some entry.2 else getEntry key rest

def setEntry (key : K) (value : V) : List (K × V) → List (K × V)
  | [] => [(key,value)]
  | entry :: rest => if entry.1 = key then (key,value) :: rest else entry :: setEntry key value rest

theorem setEntry_keys (key : K) (value : V) (entries : List (K × V)) :
    (setEntry key value entries).map Prod.fst =
      if key ∈ entries.map Prod.fst then entries.map Prod.fst
      else entries.map Prod.fst ++ [key] := by
  induction entries with
  | nil => rfl
  | cons entry rest ih =>
    by_cases same : entry.1 = key
    · simp [setEntry,same]
    · rw [setEntry,if_neg same,List.map_cons,ih]
      by_cases later : key ∈ rest.map Prod.fst
      · rw [if_pos later,if_pos (by simp only [List.map_cons,List.mem_cons,later,or_true])]
        rfl
      · have fresh : key ∉ (entry :: rest).map Prod.fst := by
          simp only [List.map_cons,List.mem_cons,not_or]
          exact ⟨Ne.symm same,later⟩
        rw [if_neg later,if_neg fresh]
        rfl

def get (m : JsMap K V) (key : K) : Option V := getEntry key m.entries

def set (m : JsMap K V) (key : K) (value : V) : JsMap K V where
  entries := setEntry key value m.entries
  distinct := by
    rw [setEntry_keys]
    split
    · exact m.distinct
    · rename_i fresh
      refine List.nodup_append.mpr ⟨m.distinct,List.nodup_singleton key,?_⟩
      intro other member last same
      rw [List.mem_singleton.mp same]
      rintro rfl
      exact fresh member

def delete (m : JsMap K V) (key : K) : JsMap K V where
  entries := m.entries.filter (fun entry => entry.1 ≠ key)
  distinct := m.distinct.sublist (List.filter_sublist.map Prod.fst)

@[simp] theorem get_empty (key : K) : (empty : JsMap K V).get key = none := rfl

theorem get_set (m : JsMap K V) (key other : K) (value : V) :
    (m.set key value).get other = if other = key then some value else m.get other := by
  simp only [get,set]
  generalize m.entries = entries
  induction entries with
  | nil => simp [setEntry,getEntry,eq_comm]
  | cons entry rest ih =>
    by_cases here : entry.1 = key
    · rw [setEntry,if_pos here,getEntry,getEntry,here]
      by_cases same : key = other
      · rw [if_pos same,if_pos same.symm]
      · rw [if_neg same,if_neg (Ne.symm same),if_neg same]
    · rw [setEntry,if_neg here,getEntry,getEntry,ih]
      by_cases same : entry.1 = other
      · rw [if_pos same,if_pos same,if_neg (same ▸ here)]
      · rw [if_neg same,if_neg same]

theorem get_delete (m : JsMap K V) (key other : K) :
    (m.delete key).get other = if other = key then none else m.get other := by
  simp only [get,delete]
  generalize m.entries = entries
  induction entries with
  | nil => simp [getEntry]
  | cons entry rest ih =>
    rw [getEntry]
    by_cases here : entry.1 = key
    · rw [List.filter_cons_of_neg (by simpa using here),ih,here]
      by_cases same : key = other
      · rw [if_pos same.symm,if_pos same.symm]
      · rw [if_neg (Ne.symm same),if_neg (Ne.symm same),if_neg same]
    · rw [List.filter_cons_of_pos (by simpa using here),getEntry,ih]
      by_cases same : entry.1 = other
      · rw [if_pos same,if_pos same,if_neg (same ▸ here)]
      · rw [if_neg same,if_neg same]

theorem mem_entries_iff (m : JsMap K V) (key : K) (value : V) :
    (key,value) ∈ m.entries ↔ m.get key = some value := by
  obtain ⟨entries,distinct⟩ := m
  simp only [get]
  induction entries with
  | nil => simp [getEntry]
  | cons entry rest ih =>
    obtain ⟨fresh,distinct⟩ := List.nodup_cons.mp distinct
    have ih := ih distinct
    rw [getEntry,List.mem_cons,ih]
    by_cases same : entry.1 = key
    · subst same
      have absent : getEntry entry.1 rest ≠ some value := fun found =>
        fresh (List.mem_map.mpr ⟨_,ih.mpr found,rfl⟩)
      simp only [absent,or_false,if_true,Option.some.injEq]
      exact ⟨fun whole => congrArg Prod.snd whole.symm,fun held => Prod.ext rfl held.symm⟩
    · rw [if_neg same]
      constructor
      · rintro (rfl | found)
        · exact absurd rfl same
        · exact found
      · exact .inr

/-- Iterates over the entries and deletes those that do not pass. -/
def keep (m : JsMap K V) (passes : V → Bool) : JsMap K V where
  entries := m.entries.filter fun entry => passes entry.2
  distinct := m.distinct.sublist (List.filter_sublist.map Prod.fst)

/-- Iterates over the keys and deletes those that do not pass. -/
def keepKeys (m : JsMap K V) (passes : K → Bool) : JsMap K V where
  entries := m.entries.filter fun entry => passes entry.1
  distinct := m.distinct.sublist (List.filter_sublist.map Prod.fst)

/-- Drops the oldest entry while there are more than `most`. -/
def dropOldest (most : Nat) : List (K × V) → List (K × V)
  | [] => []
  | entry :: rest => if most < rest.length + 1 then dropOldest most rest else entry :: rest

omit [DecidableEq K] in
theorem dropOldest_suffix (most : Nat) (entries : List (K × V)) :
    dropOldest most entries <:+ entries := by
  induction entries with
  | nil => exact List.suffix_rfl
  | cons entry rest ih =>
    rw [dropOldest]
    split
    · exact ih.trans (List.suffix_cons entry rest)
    · exact List.suffix_rfl

/-- Deletes the first key while there are more than `most`. -/
def evict (m : JsMap K V) (most : Nat) : JsMap K V where
  entries := dropOldest most m.entries
  distinct := m.distinct.sublist ((dropOldest_suffix most m.entries).sublist.map Prod.fst)

theorem get_keep (m : JsMap K V) (passes : V → Bool) (key : K) (value : V) :
    (m.keep passes).get key = some value ↔ m.get key = some value ∧ passes value = true := by
  rw [← mem_entries_iff,← mem_entries_iff,keep,List.mem_filter]

theorem get_keepKeys (m : JsMap K V) (passes : K → Bool) (key : K) (value : V) :
    (m.keepKeys passes).get key = some value ↔ m.get key = some value ∧ passes key = true := by
  rw [← mem_entries_iff,← mem_entries_iff,keepKeys,List.mem_filter]

theorem get_evict (m : JsMap K V) (most : Nat) (key : K) (value : V)
    (found : (m.evict most).get key = some value) : m.get key = some value :=
  (m.mem_entries_iff key value).mp
    ((dropOldest_suffix most m.entries).subset ((mem_entries_iff _ _ _).mpr found))

end JsMap
