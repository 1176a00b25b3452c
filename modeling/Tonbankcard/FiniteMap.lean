import Mathlib.Data.Finmap
import Mathlib.Data.Finsupp.Weight

/-! Finite maps with overwriting updates, over Mathlib's `Finmap`. A map with integer
values is also read as a finitely supported amount, where an absent key holds zero. -/

abbrev FiniteMap (K V : Type) := Finmap (fun _ : K => V)

namespace FiniteMap
variable {K V : Type} [DecidableEq K]

def get (m : FiniteMap K V) (key : K) : Option V := Finmap.lookup key m
def set (m : FiniteMap K V) (key : K) (value : V) : FiniteMap K V := Finmap.insert key value m
def del (m : FiniteMap K V) (key : K) : FiniteMap K V := Finmap.erase key m

@[simp] theorem get_empty (key : K) : (∅ : FiniteMap K V).get key = none :=
  Finmap.lookup_empty key

@[simp] theorem get_set_same (m : FiniteMap K V) (key : K) (value : V) :
    (m.set key value).get key = some value := Finmap.lookup_insert m

@[simp] theorem get_set_other (m : FiniteMap K V) (value : V) (apart : other ≠ key) :
    (m.set key value).get other = m.get other := Finmap.lookup_insert_of_ne m apart

@[simp] theorem get_del_same (m : FiniteMap K V) (key : K) : (m.del key).get key = none :=
  Finmap.lookup_erase key m

@[simp] theorem get_del_other (m : FiniteMap K V) (apart : other ≠ key) :
    (m.del key).get other = m.get other := Finmap.lookup_erase_ne apart

theorem get_set (m : FiniteMap K V) (key other : K) (value : V) :
    (m.set key value).get other = if other = key then some value else m.get other := by
  split
  next h => subst h; exact get_set_same m _ value
  next h => exact get_set_other m value h

theorem get_del (m : FiniteMap K V) (key other : K) :
    (m.del key).get other = if other = key then none else m.get other := by
  split
  next h => subst h; exact get_del_same m _
  next h => exact get_del_other m h

/-- A binding after an update is an old one or the one just made. -/
theorem get_set_cases (m : FiniteMap K V) (bound : (m.set key value).get other = some found) :
    m.get other = some found ∨ other = key ∧ found = value := by
  rw [get_set] at bound
  split at bound
  next same => exact .inr ⟨same,(Option.some.inj bound).symm⟩
  next different => exact .inl bound

theorem get_eq_some_iff (m : FiniteMap K V) (key : K) (value : V) :
    m.get key = some value ↔ (⟨key,value⟩ : Sigma fun _ : K => V) ∈ m.entries :=
  Finmap.lookup_eq_some_iff

theorem get_eq_none_iff (m : FiniteMap K V) (key : K) : m.get key = none ↔ key ∉ m.keys := by
  rw [Finmap.mem_keys]
  exact Finmap.lookup_eq_none

/-- Every binding of the one map is a binding of the other. -/
def Within (m larger : FiniteMap K V) : Prop :=
  ∀ key value, m.get key = some value → larger.get key = some value

theorem Within.refl (m : FiniteMap K V) : m.Within m := fun _ _ => id

theorem del_within (m : FiniteMap K V) (key : K) : (m.del key).Within m := by
  intro other value bound
  rw [get_del] at bound
  split at bound
  · contradiction
  · exact bound

section Keys

theorem mem_keys_iff (m : FiniteMap K V) (key : K) : key ∈ m.keys ↔ m.get key ≠ none := by
  rw [Ne,get_eq_none_iff,not_not]

theorem mem_keys_of_get {m : FiniteMap K V} (bound : m.get key = some value) : key ∈ m.keys :=
  (mem_keys_iff m key).mpr (by simp [bound])

@[simp] theorem keys_set (m : FiniteMap K V) (key : K) (value : V) :
    (m.set key value).keys = insert key m.keys := by
  ext other
  rw [Finset.mem_insert,mem_keys_iff,mem_keys_iff,get_set]
  split
  next same => simp [same]
  next different => simp [different]

@[simp] theorem keys_del (m : FiniteMap K V) (key : K) : (m.del key).keys = m.keys.erase key :=
  Finmap.keys_erase key m

theorem del_absent (m : FiniteMap K V) (absent : key ∉ m.keys) : m.del key = m := by
  apply Finmap.ext_lookup
  intro other
  have lookup := get_del m key other
  split at lookup
  next same => exact lookup.trans (same ▸ ((get_eq_none_iff m key).mpr absent).symm)
  next different => exact lookup

variable [DecidableEq V]

/-- The keys that are bound to a value. -/
def holding (m : FiniteMap K V) (value : V) : Finset K :=
  m.keys.filter (fun key => m.get key = some value)

@[simp] theorem mem_holding (m : FiniteMap K V) :
    key ∈ m.holding value ↔ m.get key = some value := by
  simp only [holding,Finset.mem_filter,and_iff_right_iff_imp]
  exact mem_keys_of_get

/-- A fresh binding adds its key to those of its value. -/
theorem card_holding_set (m : FiniteMap K V) (fresh : key ∉ m.keys) (value other : V) :
    ((m.set key value).holding other).card =
      (m.holding other).card + if other = value then 1 else 0 := by
  have unbound := (get_eq_none_iff m key).mpr fresh
  by_cases same : other = value
  · subst same
    have grown : (m.set key other).holding other = insert key (m.holding other) := by
      ext at_
      simp only [mem_holding,Finset.mem_insert,get_set]
      split <;> simp_all
    rw [grown,Finset.card_insert_of_notMem (by simp [unbound]),if_pos rfl]
  · have kept : (m.set key value).holding other = m.holding other := by
      ext at_
      simp only [mem_holding,get_set]
      split
      next found => simp [found,unbound,Ne.symm same]
      next => rfl
    rw [kept,if_neg same,Nat.add_zero]

/-- A deleted binding takes its key away from those of its value. -/
theorem card_holding_del (m : FiniteMap K V) (bound : m.get key = some value) (other : V) :
    ((m.del key).holding other).card + (if other = value then 1 else 0) =
      (m.holding other).card := by
  have erased : (m.del key).holding other = (m.holding other).erase key := by
    ext at_
    simp only [mem_holding,Finset.mem_erase,get_del]
    split <;> simp_all
  rw [erased]
  by_cases same : other = value
  · subst same
    have member : key ∈ m.holding other := (mem_holding m).mpr bound
    rw [if_pos rfl,Finset.card_erase_add_one member]
  · have apart : key ∉ m.holding other := by simp [bound,Ne.symm same]
    rw [Finset.erase_eq_of_notMem apart,if_neg same,Nat.add_zero]

end Keys

section Counts

/-- The keys whose value passes a test. -/
def satisfying (m : FiniteMap K V) (test : V → Bool) : Finset K :=
  m.keys.filter (fun key => (m.get key).any test)

def countWhere (m : FiniteMap K V) (test : V → Bool) : Nat := (m.satisfying test).card

@[simp] theorem mem_satisfying (m : FiniteMap K V) (test : V → Bool) :
    key ∈ m.satisfying test ↔ (m.get key).any test = true := by
  simp only [satisfying,Finset.mem_filter,and_iff_right_iff_imp]
  intro passes
  rw [mem_keys_iff]
  intro absent
  simp [absent] at passes

theorem satisfying_set (m : FiniteMap K V) (key : K) (value : V) (test : V → Bool) :
    (m.set key value).satisfying test =
      if test value then insert key (m.satisfying test) else (m.satisfying test).erase key := by
  ext other
  rw [mem_satisfying,get_set]
  by_cases same : other = key
  · subst same
    cases passes : test value <;> simp [passes]
  · cases passes : test value <;> simp [same]

/-- A write takes the old value out of the count and puts the new one in. -/
theorem countWhere_set (m : FiniteMap K V) (key : K) (value : V) (test : V → Bool) :
    (m.set key value).countWhere test + ((m.get key).any test).toNat =
      m.countWhere test + (test value).toNat := by
  rw [countWhere,satisfying_set,countWhere]
  by_cases before : key ∈ m.satisfying test
  · have held := (mem_satisfying m test).mp before
    have more := Finset.card_erase_add_one before
    cases passes : test value
    · simpa [held] using more
    · simp [held,Finset.insert_eq_of_mem before]
  · have absent : (m.get key).any test = false :=
      Bool.eq_false_iff.mpr (fun held => before ((mem_satisfying m test).mpr held))
    cases passes : test value
    · simp [absent,before]
    · simp [absent,Finset.card_insert_of_notMem before]

@[simp] theorem countWhere_empty (test : V → Bool) : (∅ : FiniteMap K V).countWhere test = 0 := rfl

/-- A fresh binding counts for one when it passes. -/
theorem countWhere_set_fresh (m : FiniteMap K V) (fresh : m.get key = none) (value : V)
    (test : V → Bool) :
    (m.set key value).countWhere test = m.countWhere test + (test value).toNat := by
  have counted := countWhere_set m key value test
  simpa [fresh] using counted

end Counts

section Weights

/-- The sum of a weight of all stored entries. -/
def sumOf (m : FiniteMap K V) (f : V → ℤ) : ℤ := (m.entries.map (fun e => f e.2)).sum

/-- The weights as a finitely supported amount of each key; an absent entry weighs nothing. -/
noncomputable def weights (m : FiniteMap K V) (f : V → ℤ) : K →₀ ℤ :=
  Finsupp.onFinset m.keys (fun key => ((m.get key).map f).getD 0) (by
    intro key held
    by_contra absent
    exact held (by simp [(get_eq_none_iff m key).mpr absent]))

@[simp] theorem weights_apply (m : FiniteMap K V) (f : V → ℤ) (key : K) :
    m.weights f key = ((m.get key).map f).getD 0 := rfl

/-- The sum over the entries is the degree of the weights: an entry that weighs nothing adds
nothing and no key is stored twice. -/
theorem sumOf_eq_degree (m : FiniteMap K V) (f : V → ℤ) : m.sumOf f = (m.weights f).degree := by
  have entry : ∀ e ∈ m.entries, f e.2 = m.weights f e.1 := by
    intro e member
    simp [(get_eq_some_iff m e.1 e.2).mpr member]
  have keys : (m.weights f).degree = ∑ key ∈ m.keys, m.weights f key := by
    rw [Finsupp.degree_apply]
    exact Finset.sum_subset Finsupp.support_onFinset_subset (fun key _ absent => by
      simpa using absent)
  rw [keys,sumOf,Multiset.map_congr rfl entry]
  simp [Finset.sum,Finmap.keys,Multiset.keys,Multiset.map_map]

end Weights

section Amounts

/-- What a map of amounts holds for a key; an absent entry is zero. -/
def amount (m : FiniteMap K ℤ) (key : K) : ℤ := (m.get key).getD 0

/-- The sum of all stored entries. -/
def total (m : FiniteMap K ℤ) : ℤ := (m.entries.map Sigma.snd).sum

theorem amount_set (m : FiniteMap K ℤ) (key other : K) (value : ℤ) :
    (m.set key value).amount other = if other = key then value else m.amount other := by
  simp only [amount,get_set]
  split <;> rfl

/-- The map as a finitely supported amount of each key. -/
noncomputable def amounts (m : FiniteMap K ℤ) : K →₀ ℤ :=
  Finsupp.onFinset m.keys m.amount (by
    intro key held
    by_contra absent
    exact held (by simp [amount,(get_eq_none_iff m key).mpr absent]))

@[simp] theorem amounts_apply (m : FiniteMap K ℤ) (key : K) : m.amounts key = m.amount key := rfl

@[simp] theorem amounts_empty : (∅ : FiniteMap K ℤ).amounts = 0 := by
  ext key
  simp [amount]

theorem amounts_set (m : FiniteMap K ℤ) (key : K) (value : ℤ) :
    (m.set key value).amounts = m.amounts + Finsupp.single key (value - m.amount key) := by
  ext other
  rw [amounts_apply,amount_set,Finsupp.add_apply,amounts_apply,Finsupp.single_apply]
  by_cases same : key = other
  · subst same; simp
  · simp [same,Ne.symm same]

/-- The total is the degree of the amounts, which weigh an entry by itself. -/
theorem total_eq_degree (m : FiniteMap K ℤ) : m.total = m.amounts.degree := by
  have weighed : m.amounts = m.weights id := by
    ext key
    rw [amounts_apply,weights_apply,Option.map_id]
    rfl
  rw [weighed,← sumOf_eq_degree]
  rfl

theorem amounts_del (m : FiniteMap K ℤ) (key : K) :
    (m.del key).amounts = m.amounts - Finsupp.single key (m.amount key) := by
  ext other
  rw [amounts_apply,Finsupp.sub_apply,amounts_apply,Finsupp.single_apply]
  by_cases same : key = other
  · subst same; simp [amount]
  · simp [same,amount,get_del_other m (Ne.symm same)]

theorem total_set (m : FiniteMap K ℤ) (key : K) (value : ℤ) :
    (m.set key value).total = m.total + (value - m.amount key) := by
  simp only [total_eq_degree,amounts_set,map_add,Finsupp.degree_single]

theorem total_del (m : FiniteMap K ℤ) (key : K) :
    (m.del key).total = m.total - m.amount key := by
  simp only [total_eq_degree,amounts_del,map_sub,Finsupp.degree_single]

end Amounts
end FiniteMap
