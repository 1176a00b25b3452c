import Mathlib.Data.List.Basic

/-! Batches: one step for each item, in order, up to the first step that fails. The state keeps
what the earlier steps did. -/
namespace Batch

/-- What a batch has done, the error that stopped it and the state that it leaves. -/
structure Outcome (β ε σ : Type*) where
  done : List β
  error : Option ε
  state : σ

section Batches

variable {α β γ ε σ : Type*}

/-- Nothing was done. -/
def Outcome.Idle (out : Outcome β ε σ) (s : σ) : Prop := out.done = [] ∧ out.state = s

def runBatch (step : α → σ → Except ε (β × σ)) : List α → σ → Outcome β ε σ
  | [], s => ⟨[],none,s⟩
  | item :: items, s =>
    match step item s with
    | .error error => ⟨[],some error,s⟩
    | .ok (result,next) =>
      let rest := runBatch step items next
      { rest with done := result :: rest.done }

/-- All of the items, each with its step. -/
inductive Ran (step : α → σ → Except ε (β × σ)) : List α → σ → List β → σ → Prop
  | nil (s : σ) : Ran step [] s [] s
  | cons {item : α} {items : List α} {s next last : σ} {result : β} {results : List β} :
      step item s = .ok (result,next) → Ran step items next results last →
      Ran step (item :: items) s (result :: results) last

/-- The outcome of the items in their order: either all of them, or those before one whose step
fails in the state that they lead to. -/
def Follows (step : α → σ → Except ε (β × σ)) (items : List α) (s : σ) (out : Outcome β ε σ) :
    Prop :=
  ∃ ran rest, items = ran ++ rest ∧ Ran step ran s out.done out.state ∧
    ((out.error = none ∧ rest = []) ∨
      (out.error ≠ none ∧ ∃ item tail e, rest = item :: tail ∧ step item out.state = .error e))

theorem runBatch_follows (step : α → σ → Except ε (β × σ)) (items : List α) (s : σ) :
    Follows step items s (runBatch step items s) := by
  induction items generalizing s with
  | nil => exact ⟨[],[],rfl,.nil s,.inl ⟨rfl,rfl⟩⟩
  | cons item items ih =>
    cases first : step item s with
    | error error =>
      refine ⟨[],item :: items,rfl,?_⟩
      simp only [runBatch,first]
      exact ⟨.nil s,.inr ⟨nofun,item,items,error,rfl,first⟩⟩
    | ok made =>
      obtain ⟨result,next⟩ := made
      obtain ⟨ran,rest,split,steps,ends⟩ := ih next
      refine ⟨item :: ran,rest,by rw [split]; rfl,?_⟩
      simp only [runBatch,first]
      exact ⟨.cons first steps,ends⟩

theorem Ran.succeeds {step : α → σ → Except ε (β × σ)} {items : List α} {s last : σ}
    {results : List β} (ran : Ran step items s results last) {item : α} (member : item ∈ items) :
    ∃ s result next, step item s = .ok (result,next) := by
  induction ran with
  | nil => cases member
  | cons first _ ih =>
    cases member with
    | head => exact ⟨_,_,_,first⟩
    | tail _ later => exact ih later

/-- Two outcomes up to the names of the results and the text of the error. -/
def Outcome.Agrees (name : β → γ) (out : Outcome β ε σ) (other : Outcome γ ε σ) : Prop :=
  other.done = out.done.map name ∧ other.state = out.state ∧
    (other.error = none ↔ out.error = none)

/-- Two batches whose steps agree on every item. -/
theorem runBatch_agrees {α' : Type*} {step : α → σ → Except ε (β × σ)}
    {other : α' → σ → Except ε (γ × σ)} (f : α → α') (name : β → γ) (items : List α)
    (succeeds : ∀ item ∈ items, ∀ s result next, step item s = .ok (result,next) →
      other (f item) s = .ok (name result,next))
    (fails : ∀ item ∈ items, ∀ s e, step item s = .error e → ∃ e', other (f item) s = .error e')
    (s : σ) : (runBatch step items s).Agrees name (runBatch other (items.map f) s) := by
  induction items generalizing s with
  | nil => exact ⟨rfl,rfl,Iff.rfl⟩
  | cons item items ih =>
    rw [List.map_cons]
    cases first : step item s with
    | error e =>
      obtain ⟨e',second⟩ := fails item List.mem_cons_self s e first
      simp [Outcome.Agrees,runBatch,first,second]
    | ok made =>
      obtain ⟨result,next⟩ := made
      have second := succeeds item List.mem_cons_self s result next first
      obtain ⟨done,state,error⟩ := ih
        (fun item member => succeeds item (List.mem_cons_of_mem _ member))
        (fun item member => fails item (List.mem_cons_of_mem _ member)) next
      simp only [Outcome.Agrees,runBatch,first,second,done,state,error,List.map_cons,
        and_self]

/-- Where whether a step succeeds depends only on the item, the items that ran could. -/
theorem Ran.results_eq {step : α → σ → Except ε (α × σ)} {able : α → Bool}
    (succeeds : ∀ item s, able item = true → ∃ next, step item s = .ok (item,next))
    (fails : ∀ item s, able item = false → ∃ e, step item s = .error e) {items results : List α}
    {s last : σ} (ran : Ran step items s results last) :
    results = items ∧ ∀ item ∈ items, able item = true := by
  induction ran with
  | nil => exact ⟨rfl,nofun⟩
  | @cons item items s next last result results first _ ih =>
    cases can : able item with
    | false =>
      obtain ⟨e,no⟩ := fails item s can
      rw [first] at no
      cases no
    | true =>
      obtain ⟨next',yes⟩ := succeeds item s can
      rw [first] at yes
      cases yes
      exact ⟨by rw [ih.1],List.forall_mem_cons.mpr ⟨can,ih.2⟩⟩

/-- Then a batch does the items before the first that cannot. -/
theorem Follows.done_eq {step : α → σ → Except ε (α × σ)} {able : α → Bool}
    (succeeds : ∀ item s, able item = true → ∃ next, step item s = .ok (item,next))
    (fails : ∀ item s, able item = false → ∃ e, step item s = .error e) {items : List α} {s : σ}
    {out : Outcome α ε σ} (follows : Follows step items s out) :
    out.done = items.takeWhile able := by
  obtain ⟨ran,rest,split,steps,ends⟩ := follows
  have all := steps.results_eq succeeds fails
  have stops : rest.takeWhile able = [] := by
    rcases ends with ⟨_,rfl⟩ | ⟨_,item,tail,e,rfl,no⟩
    · rfl
    · refine List.takeWhile_cons_of_neg fun can => ?_
      obtain ⟨next,yes⟩ := succeeds item out.state can
      rw [no] at yes
      cases yes
  rw [all.1,split,List.takeWhile_append_of_pos all.2,stops,List.append_nil]

/-- An outcome of one list of items is an outcome of another of the same length that agrees with
it up to the first item whose step always fails. -/
theorem Follows.transfer {step : α → σ → Except ε (β × σ)} {able : α → Bool}
    (fails : ∀ item s, able item = false → ∃ e, step item s = .error e) {items others : List α}
    {s : σ} {out : Outcome β ε σ} (follows : Follows step items s out)
    (same : items.takeWhile able = others.takeWhile able) (length : items.length = others.length) :
    Follows step others s out := by
  obtain ⟨ran,rest,rfl,steps,ends⟩ := follows
  have all : ∀ item ∈ ran, able item = true := fun item member => by
    obtain ⟨s,result,next,yes⟩ := steps.succeeds member
    by_contra cannot
    obtain ⟨e,no⟩ := fails item s (Bool.not_eq_true _ ▸ cannot)
    rw [no] at yes
    cases yes
  rw [List.takeWhile_append_of_pos all] at same
  have split : others = ran ++ (rest.takeWhile able ++ others.dropWhile able) := by
    rw [← List.append_assoc,same,List.takeWhile_append_dropWhile]
  have left : (rest.takeWhile able ++ others.dropWhile able).length = rest.length := by
    have sum := congrArg List.length split
    rw [List.length_append,← length,List.length_append] at sum
    omega
  refine ⟨ran,_,split,steps,?_⟩
  rcases ends with ⟨none,rfl⟩ | ⟨some,item,tail,e,rfl,no⟩
  · exact .inl ⟨none,List.eq_nil_of_length_eq_zero left⟩
  · refine .inr ⟨some,?_⟩
    cases can : able item with
    | true =>
      rw [List.takeWhile_cons_of_pos can]
      exact ⟨item,_,e,rfl,no⟩
    | false =>
      rw [List.takeWhile_cons_of_neg (by simp [can]),List.nil_append] at left ⊢
      cases dropped : others.dropWhile able with
      | nil => rw [dropped] at left; cases left
      | cons item' tail' =>
        have cannot : able item' = false := by
          have head := List.head_dropWhile_not able
            (show others.dropWhile able ≠ [] by simp [dropped])
          simpa only [dropped,List.head_cons] using head
        obtain ⟨e',no'⟩ := fails item' out.state cannot
        exact ⟨item',tail',e',rfl,no'⟩

end Batches

end Batch
