import Mathlib.Data.List.Basic

/-! Tasks of one thread that share a store. A task reads and writes the store at once and waits
only for the answers to its requests, so what lies between two answers is atomic. A run takes
one task to its end; a world interleaves any number of tasks at their answers. -/
namespace Await

variable {Request : Type} {Answer : Request → Type} {Store Operation : Type}

/-- A write that the store refuses ends its task like a failure of its own. -/
inductive Task (Request : Type) (Answer : Request → Type) (Store Operation α : Type) where
  | done (value : α)
  | fail
  | ask (request : Request) (next : Answer request → Task Request Answer Store Operation α)
  | read (next : Store → Task Request Answer Store Operation α)
  | write (operation : Operation) (rest : Task Request Answer Store Operation α)

namespace Task

def bind : Task Request Answer Store Operation α →
    (α → Task Request Answer Store Operation β) → Task Request Answer Store Operation β
  | .done value, next => next value
  | .fail, _ => .fail
  | .ask request answered, next => .ask request fun answer => bind (answered answer) next
  | .read looked, next => .read fun s => bind (looked s) next
  | .write operation rest, next => .write operation (bind rest next)

instance : Monad (Task Request Answer Store Operation) where
  pure := .done
  bind := bind

def request (r : Request) : Task Request Answer Store Operation (Answer r) := .ask r .done
def select (query : Store → α) : Task Request Answer Store Operation α :=
  .read fun s => .done (query s)
def perform (operation : Operation) : Task Request Answer Store Operation Unit :=
  .write operation (.done ())

end Task

section Running
variable (apply : Operation → Store → Option Store)

/-- How a run ended, with the calls it made; a run that failed has no value. -/
structure Ran (Request : Type) (Answer : Request → Type) (Store α : Type) where
  value : Option α
  store : Store
  calls : List ((r : Request) × Answer r)

/-- The answers may depend on how many calls were made before. -/
def run (answers : Nat → (r : Request) → Answer r) :
    Task Request Answer Store Operation α → Nat → Store → Ran Request Answer Store α
  | .done value, _, s => ⟨some value,s,[]⟩
  | .fail, _, s => ⟨none,s,[]⟩
  | .ask r next, made, s =>
    let rest := run answers (next (answers made r)) (made + 1) s
    {rest with calls := ⟨r,answers made r⟩ :: rest.calls}
  | .read next, made, s => run answers (next s) made s
  | .write operation rest, made, s =>
    match apply operation s with
    | none => ⟨none,s,[]⟩
    | some s => run answers rest made s

/-- What holds when a task ends, for any answers that may be given. Where it waits or fails the
invariant holds. While it waits other tasks may change the store, but the invariant and what the
task relies on hold of the store that it is answered on. -/
def Ensures (may : (r : Request) → Answer r → Prop) (rely : Store → Store → Prop)
    (inv : Store → Prop) (post : α → Store → Prop) :
    Task Request Answer Store Operation α → Store → Prop
  | .done value, s => post value s
  | .fail, s => inv s
  | .ask r next, s => inv s ∧ ∀ after, inv after → rely s after → ∀ answer, may r answer →
      Ensures may rely inv post (next answer) after
  | .read next, s => Ensures may rely inv post (next s) s
  | .write operation rest, s =>
    match apply operation s with
    | none => inv s
    | some s => Ensures may rely inv post rest s

variable {apply} {answers : Nat → (r : Request) → Answer r}
variable {may : (r : Request) → Answer r → Prop} {rely : Store → Store → Prop}
  {inv : Store → Prop}

theorem run_bind (t : Task Request Answer Store Operation α)
    (next : α → Task Request Answer Store Operation β) (made : Nat) (s : Store) :
    run apply answers (t >>= next) made s =
      match run apply answers t made s with
      | ⟨none,s,calls⟩ => ⟨none,s,calls⟩
      | ⟨some value,s,calls⟩ =>
        let rest := run apply answers (next value) (made + calls.length) s
        {rest with calls := calls ++ rest.calls} := by
  change run apply answers (t.bind next) made s = _
  induction t generalizing made s with
  | done value => simp [Task.bind,run]
  | fail => rfl
  | ask r answered ih =>
    simp only [Task.bind,run,ih]
    cases run apply answers (answered (answers made r)) (made + 1) s with
    | mk value store calls =>
      cases value with
      | none => rfl
      | some value => simp [Nat.add_assoc,Nat.add_comm 1]
  | read looked ih => simp only [Task.bind,run,ih]
  | write operation rest ih =>
    simp only [Task.bind,run]
    cases apply operation s with
    | none => rfl
    | some s => exact ih made s

theorem run_calls {t : Task Request Answer Store Operation α} :
    ∀ call ∈ (run apply answers t made s).calls, ∃ asked, answers asked call.1 = call.2 := by
  induction t generalizing made s with
  | done value => nofun
  | fail => nofun
  | ask r answered ih => exact List.forall_mem_cons.mpr ⟨⟨made,rfl⟩,ih _⟩
  | read looked ih => exact ih _
  | write operation rest ih =>
    unfold run
    split
    · nofun
    · exact ih

/-- The rule for sequences: what the first part ensures is what the second starts from. -/
theorem ensures_bind {post : β → Store → Prop} (t : Task Request Answer Store Operation α)
    (next : α → Task Request Answer Store Operation β) (s : Store) :
    Ensures apply may rely inv post (t >>= next) s ↔
      Ensures apply may rely inv
        (fun value s => Ensures apply may rely inv post (next value) s) t s := by
  change Ensures apply may rely inv post (t.bind next) s ↔ _
  induction t generalizing s with
  | done value => rfl
  | fail => rfl
  | ask r answered ih =>
    refine and_congr_right fun _ => forall_congr' fun after => ?_
    exact forall₂_congr fun _ _ => forall₂_congr fun answer _ => ih answer after
  | read looked ih => exact ih s s
  | write operation rest ih =>
    simp only [Task.bind,Ensures]
    cases apply operation s with
    | none => rfl
    | some s => exact ih s

theorem Ensures.mono {post weaker : α → Store → Prop}
    {t : Task Request Answer Store Operation α} {s : Store}
    (ensured : Ensures apply may rely inv post t s)
    (more : ∀ value s, post value s → weaker value s) :
    Ensures apply may rely inv weaker t s := by
  induction t generalizing s with
  | done value => exact more _ _ ensured
  | fail => exact ensured
  | ask r answered ih =>
    exact ⟨ensured.1,fun after held relied answer given =>
      ih answer (ensured.2 after held relied answer given)⟩
  | read looked ih => exact ih s ensured
  | write operation rest ih =>
    simp only [Ensures] at ensured ⊢
    cases applied : apply operation s with
    | none =>
      rw [applied] at ensured
      exact ensured
    | some s =>
      rw [applied] at ensured
      exact ih ensured

theorem ensures_perform {post : Unit → Store → Prop} {operation : Operation} {s : Store}
    (applied : ∀ after, apply operation s = some after → post () after)
    (refused : apply operation s = none → inv s) :
    Ensures apply may rely inv post (Task.perform operation) s := by
  simp only [Task.perform,Ensures]
  split
  · rename_i none
    exact refused none
  · rename_i after some
    exact applied after some

/-- A write that is known to succeed. -/
theorem ensures_performed {post : Unit → Store → Prop} {operation : Operation} {s after : Store}
    (performed : apply operation s = some after) (holds : post () after) :
    Ensures apply may rely inv post (Task.perform operation) s := by
  apply ensures_perform
  · intro other again
    rw [performed,Option.some.injEq] at again
    exact again ▸ holds
  · intro refused
    rw [performed] at refused
    cases refused

/-- A run that nothing disturbs, and whose calls were answered as they may be, ends as ensured. -/
theorem Ensures.run {post : α → Store → Prop} {t : Task Request Answer Store Operation α}
    {s : Store} (ensured : Ensures apply may rely inv post t s) (reflexive : ∀ s, rely s s)
    (given : ∀ call ∈ (run apply answers t made s).calls, may call.1 call.2) :
    match (run apply answers t made s).value with
    | some value => post value (run apply answers t made s).store
    | none => inv (run apply answers t made s).store := by
  induction t generalizing made s with
  | done value => exact ensured
  | fail => exact ensured
  | ask r answered ih =>
    simp only [Await.run,List.mem_cons,forall_eq_or_imp] at given ⊢
    exact ih _ (ensured.2 s ensured.1 (reflexive s) _ given.1) given.2
  | read looked ih => exact ih _ ensured given
  | write operation rest ih =>
    simp only [Await.run,Ensures] at ensured given ⊢
    cases applied : apply operation s with
    | none =>
      rw [applied] at ensured
      exact ensured
    | some s =>
      simp only [applied] at ensured given ⊢
      exact ih ensured given

/-- A task that writes nothing and makes only some requests, whatever it reads and is
answered. -/
def Silent (asked : Request → Prop) : Task Request Answer Store Operation α → Prop
  | .done _ => True
  | .fail => True
  | .ask r next => asked r ∧ ∀ answer : Answer r, Silent asked (next answer)
  | .read next => ∀ s, Silent asked (next s)
  | .write _ _ => False

variable {asked : Request → Prop}

theorem Silent.bind {t : Task Request Answer Store Operation α}
    {next : α → Task Request Answer Store Operation β} (silent : Silent asked t)
    (later : ∀ value, Silent asked (next value)) : Silent asked (t >>= next) := by
  change Silent asked (t.bind next)
  induction t with
  | done value => exact later value
  | fail => trivial
  | ask r answered ih => exact ⟨silent.1,fun answer => ih answer (silent.2 answer)⟩
  | read looked ih => exact fun s => ih s (silent s)
  | write operation rest => exact silent.elim

theorem Silent.ensures {t : Task Request Answer Store Operation α} (silent : Silent asked t)
    (reflexive : ∀ s, rely s s) (transitive : ∀ {a b c}, rely a b → rely b c → rely a c)
    {s : Store} (held : inv s) :
    Ensures apply may rely inv (fun _ after => inv after ∧ rely s after) t s := by
  induction t generalizing s with
  | done value => exact ⟨held,reflexive s⟩
  | fail => exact held
  | ask r answered ih =>
    refine ⟨held,fun after held relied answer _ => ?_⟩
    refine (ih answer (silent.2 answer) held).mono ?_
    exact fun _ last later => ⟨later.1,transitive relied later.2⟩
  | read looked ih => exact ih s (silent s) held
  | write operation rest => exact silent.elim

theorem Silent.run_store {t : Task Request Answer Store Operation α} (silent : Silent asked t)
    (made : Nat) (s : Store) : (run apply answers t made s).store = s := by
  have kept : Ensures apply (fun _ _ => True) Eq (· = s) (fun _ after => after = s ∧ s = after) t s :=
    silent.ensures (fun _ => rfl) .trans rfl
  have given : ∀ call ∈ (run apply answers t made s).calls, True := fun _ _ => trivial
  have ensured := kept.run (fun _ => rfl) given
  split at ensured
  · exact ensured.1
  · exact ensured

theorem Silent.run_asked {t : Task Request Answer Store Operation α} (silent : Silent asked t)
    (made : Nat) (s : Store) : ∀ call ∈ (run apply answers t made s).calls, asked call.1 := by
  induction t generalizing made s with
  | done value => nofun
  | fail => nofun
  | ask r answered ih =>
    exact List.forall_mem_cons.mpr ⟨silent.1,ih _ (silent.2 _) _ _⟩
  | read looked ih => exact ih s (silent s) made s
  | write operation rest => exact silent.elim

end Running

section Worlds
variable (apply : Operation → Store → Option Store)

/-- A task up to its next request. -/
structure Segment (Request : Type) (Answer : Request → Type) (Store Operation α : Type) where
  store : Store
  rest : Task Request Answer Store Operation α

def settle : Task Request Answer Store Operation α → Store →
    Segment Request Answer Store Operation α
  | .done value, s => ⟨s,.done value⟩
  | .fail, s => ⟨s,.fail⟩
  | .ask r next, s => ⟨s,.ask r next⟩
  | .read next, s => settle (next s) s
  | .write operation rest, s =>
    match apply operation s with
    | none => ⟨s,.fail⟩
    | some after => settle rest after

structure World (Request : Type) (Answer : Request → Type) (Store Operation α : Type) where
  store : Store
  tasks : List (Task Request Answer Store Operation α)

/-- A task starts, or the one in a place is answered. -/
inductive Event (Request : Type) (Answer : Request → Type) where
  | start
  | resume (place : Nat) (answer : (r : Request) → Answer r)

def segment (main : Task Request Answer Store Operation α)
    (w : World Request Answer Store Operation α) :
    Event Request Answer → Segment Request Answer Store Operation α
  | .start => settle apply main w.store
  | .resume place answer =>
    match w.tasks[place]? with
    | some (.ask r next) => settle apply (next (answer r)) w.store
    | some task => ⟨w.store,task⟩
    | none => ⟨w.store,.fail⟩

def next (main : Task Request Answer Store Operation α)
    (w : World Request Answer Store Operation α) (event : Event Request Answer) :
    World Request Answer Store Operation α :=
  let taken := segment apply main w event
  { store := taken.store
    tasks := match event with
      | .start => w.tasks ++ [taken.rest]
      | .resume place _ => w.tasks.set place taken.rest }

/-- The world after some events, newest first. -/
def world (main : Task Request Answer Store Operation α) (initial : Store) :
    List (Event Request Answer) → World Request Answer Store Operation α
  | [] => ⟨initial,[]⟩
  | event :: past => next apply main (world main initial past) event

/-- The place of the task that an event takes on. -/
def Event.place (w : World Request Answer Store Operation α) : Event Request Answer → Nat
  | .start => w.tasks.length
  | .resume place _ => place

def World.waits (w : World Request Answer Store Operation α) (place : Nat) : Bool :=
  match w.tasks[place]? with
  | some (.ask _ _) => true
  | _ => false

/-- The store on which the task in a place was left by its last event. -/
def left (main : Task Request Answer Store Operation α) (initial : Store) (place : Nat) :
    List (Event Request Answer) → Store
  | [] => initial
  | event :: past =>
    if event.place (world apply main initial past) = place then
      (world apply main initial (event :: past)).store
    else left main initial place past

/-- A task that waits is answered on a store that agrees with the one on which it was left. -/
def Undisturbed (same : Store → Store → Prop) (main : Task Request Answer Store Operation α)
    (initial : Store) : List (Event Request Answer) → Prop
  | [] => True
  | .start :: past => Undisturbed same main initial past
  | .resume place _ :: past =>
    ((world apply main initial past).waits place = true →
      same (left apply main initial place past) (world apply main initial past).store) ∧
    Undisturbed same main initial past

/-- No task starts while another one waits. -/
def Serial (main : Task Request Answer Store Operation α) (initial : Store) :
    List (Event Request Answer) → Prop
  | [] => True
  | .start :: past =>
    (∀ place, (world apply main initial past).waits place = false) ∧ Serial main initial past
  | .resume _ _ :: past => Serial main initial past

instance decidableUndisturbed (same : Store → Store → Prop) [DecidableRel same]
    (main : Task Request Answer Store Operation α) (initial : Store) :
    (events : List (Event Request Answer)) →
      Decidable (Undisturbed apply same main initial events)
  | [] => inferInstanceAs (Decidable True)
  | .start :: past => decidableUndisturbed same main initial past
  | .resume _ _ :: past =>
    have := decidableUndisturbed same main initial past
    inferInstanceAs (Decidable ((_ → _) ∧ _))

instance (w : World Request Answer Store Operation α) :
    Decidable (∀ place, w.waits place = false) :=
  decidable_of_iff (∀ place < w.tasks.length, w.waits place = false) ⟨fun idle place => by
    by_cases inside : place < w.tasks.length
    · exact idle place inside
    · rw [World.waits,List.getElem?_eq_none (Nat.le_of_not_lt inside)],fun idle place _ => idle place⟩

instance decidableSerial (main : Task Request Answer Store Operation α) (initial : Store) :
    (events : List (Event Request Answer)) → Decidable (Serial apply main initial events)
  | [] => inferInstanceAs (Decidable True)
  | .start :: past =>
    have := decidableSerial main initial past
    inferInstanceAs (Decidable ((∀ _, _) ∧ _))
  | .resume _ _ :: past => decidableSerial main initial past

variable {apply}

theorem settle_invariant (inv : Store → Prop) {t : Task Request Answer Store Operation α}
    {s : Store} (held : inv s)
    (kept : ∀ operation met after, apply operation met = some after → inv met → inv after) :
    inv (settle apply t s).store := by
  induction t generalizing s with
  | done value => exact held
  | fail => exact held
  | ask r answered => exact held
  | read looked ih => exact ih _ held
  | write operation rest ih =>
    simp only [settle]
    cases applied : apply operation s with
    | none => exact held
    | some after => exact ih (kept _ _ _ applied held)

section Interference
variable {main : Task Request Answer Store Operation α} {initial : Store}

/-- What every write leaves in a relation, an event does. -/
theorem next_related {related : Store → Store → Prop} (reflexive : ∀ s, related s s)
    (transitive : ∀ {a b c}, related a b → related b c → related a c)
    (writes : ∀ operation met after, apply operation met = some after → related met after)
    (w : World Request Answer Store Operation α) (event : Event Request Answer) :
    related w.store (next apply main w event).store := by
  have taken (t : Task Request Answer Store Operation α) :
      related w.store (settle apply t w.store).store :=
    settle_invariant (related w.store) (reflexive w.store)
      fun operation met after applied met => transitive met (writes _ _ _ applied)
  simp only [next]
  cases event with
  | start => exact taken main
  | resume place answer =>
    simp only [segment]
    split
    · exact taken _
    · exact reflexive _
    · exact reflexive _

theorem left_related {related : Store → Store → Prop} (reflexive : ∀ s, related s s)
    (transitive : ∀ {a b c}, related a b → related b c → related a c)
    (writes : ∀ operation met after, apply operation met = some after → related met after)
    (place : Nat) (events : List (Event Request Answer)) :
    related (left apply main initial place events) (world apply main initial events).store := by
  induction events with
  | nil => exact reflexive initial
  | cons event past ih =>
    unfold left
    split
    · exact reflexive _
    · exact transitive ih (next_related reflexive transitive writes _ event)

/-- An event leaves the tasks of the other places as they are. -/
theorem next_other {w : World Request Answer Store Operation α} {event : Event Request Answer}
    (apart : event.place w ≠ place) : (next apply main w event).tasks[place]? = w.tasks[place]? := by
  simp only [next]
  cases event with
  | start =>
    rcases Nat.lt_or_gt_of_ne apart with beyond | inside
    · have short : (w.tasks ++ [(segment apply main w .start).rest]).length ≤ place := by
        rw [List.length_append]
        exact beyond
      rw [List.getElem?_eq_none short,List.getElem?_eq_none (Nat.le_of_lt beyond)]
    · exact List.getElem?_append_left inside
  | resume other answer => exact List.getElem?_set_ne apart

theorem next_taken {w : World Request Answer Store Operation α} {event : Event Request Answer}
    (there : (next apply main w event).tasks[event.place w]? = some t) :
    (segment apply main w event).rest = t := by
  simp only [next] at there
  cases event with
  | start => exact Option.some.inj (List.getElem?_concat_length.symm.trans there)
  | resume place answer =>
    obtain ⟨inside,same⟩ := List.getElem?_eq_some_iff.mp there
    exact (List.getElem_set_self inside).symm.trans same

theorem waits_next {w : World Request Answer Store Operation α} {event : Event Request Answer}
    (apart : event.place w ≠ place) : (next apply main w event).waits place = w.waits place := by
  unfold World.waits
  rw [next_other apart]

/-- Nothing comes of an answer to a task that does not wait. -/
theorem next_idle {w : World Request Answer Store Operation α} (idle : w.waits place = false)
    (answer : (r : Request) → Answer r) :
    (next apply main w (.resume place answer)).store = w.store ∧
      (next apply main w (.resume place answer)).waits place = false := by
  unfold World.waits at idle ⊢
  simp only [next,segment,List.getElem?_set_self']
  cases there : w.tasks[place]? with
  | none => simp
  | some t =>
    cases t with
    | ask r answered => simp [there] at idle
    | _ => simp

/-- Where no tasks overlap at most one waits, and the store is as it was left. -/
theorem Serial.alone {events : List (Event Request Answer)}
    (serial : Serial apply main initial events) (place : Nat)
    (waiting : (world apply main initial events).waits place = true) :
    left apply main initial place events = (world apply main initial events).store ∧
      ∀ other, (world apply main initial events).waits other = true → other = place := by
  induction events generalizing place with
  | nil => simp [world,World.waits] at waiting
  | cons event past ih =>
    cases event with
    | start =>
      have newest (other : Nat) (waits : (world apply main initial (.start :: past)).waits other =
          true) : other = (world apply main initial past).tasks.length := by
        by_contra apart
        rw [world,waits_next (Ne.symm apart),serial.1 other] at waits
        contradiction
      rw [newest place waiting]
      exact ⟨if_pos rfl,newest⟩
    | resume resumed answer =>
      have before := ih serial
      cases busy : (world apply main initial past).waits resumed with
      | false =>
        obtain ⟨kept,ended⟩ := @next_idle _ _ _ _ _ apply main _ _ busy answer
        have others (other : Nat) (waits : (world apply main initial
            (.resume resumed answer :: past)).waits other = true) :
            (Event.resume resumed answer).place (world apply main initial past) ≠ other ∧
              (world apply main initial past).waits other = true := by
          have apart : (Event.resume resumed answer).place (world apply main initial past) ≠
              other := by
            rintro rfl
            rw [world] at waits
            exact absurd waits (ended ▸ Bool.false_ne_true)
          rw [world,waits_next apart] at waits
          exact ⟨apart,waits⟩
        obtain ⟨apart,waited⟩ := others place waiting
        obtain ⟨store,single⟩ := before place waited
        refine ⟨?_,fun other waits => single other (others other waits).2⟩
        unfold left
        rw [if_neg apart,store,world,kept]
      | true =>
        obtain ⟨-,single⟩ := before resumed busy
        have only (other : Nat) (waits : (world apply main initial
            (.resume resumed answer :: past)).waits other = true) : other = resumed := by
          by_contra apart
          rw [world,waits_next (Ne.symm apart)] at waits
          exact apart (single other waits)
        rw [only place waiting]
        exact ⟨if_pos rfl,only⟩

/-- Tasks that do not overlap are undisturbed. -/
theorem Serial.undisturbed {same : Store → Store → Prop} (reflexive : ∀ s, same s s)
    {events : List (Event Request Answer)} (serial : Serial apply main initial events) :
    Undisturbed apply same main initial events := by
  induction events with
  | nil => trivial
  | cons event past ih =>
    cases event with
    | start => exact ih serial.2
    | resume place answer =>
      have before : Serial apply main initial past := serial
      refine ⟨fun waiting => ?_,ih before⟩
      rw [(before.alone place waiting).1]
      exact reflexive _

end Interference

/-- Whatever a task reads of stores with an invariant and is answered as it may be, its writes are
good and its value is as promised. -/
def Careful (may : (r : Request) → Answer r → Prop) (inv : Store → Prop) (good : Operation → Prop)
    (post : α → Prop) : Task Request Answer Store Operation α → Prop
  | .done value => post value
  | .fail => True
  | .ask r next => ∀ answer, may r answer → Careful may inv good post (next answer)
  | .read next => ∀ s, inv s → Careful may inv good post (next s)
  | .write operation rest => good operation ∧ Careful may inv good post rest

section Care
variable {may : (r : Request) → Answer r → Prop} {inv : Store → Prop} {good : Operation → Prop}

theorem Careful.bind {P : α → Prop} {Q : β → Prop}
    {t : Task Request Answer Store Operation α}
    {next : α → Task Request Answer Store Operation β} (careful : Careful may inv good P t)
    (later : ∀ value, P value → Careful may inv good Q (next value)) :
    Careful may inv good Q (t >>= next) := by
  change Careful may inv good Q (t.bind next)
  induction t with
  | done value => exact later value careful
  | fail => trivial
  | ask r answered ih => exact fun answer given => ih answer (careful answer given)
  | read looked ih => exact fun s held => ih s (careful s held)
  | write operation rest ih => exact ⟨careful.1,ih careful.2⟩

theorem settle_careful {post : α → Prop} {t : Task Request Answer Store Operation α} {s : Store}
    (careful : Careful may inv good post t) (held : inv s)
    (kept : ∀ met operation after, good operation → inv met → apply operation met = some after →
      inv after) :
    inv (settle apply t s).store ∧ Careful may inv good post (settle apply t s).rest := by
  induction t generalizing s with
  | done value => exact ⟨held,careful⟩
  | fail => exact ⟨held,trivial⟩
  | ask r answered => exact ⟨held,careful⟩
  | read looked ih => exact ih s (careful s held) held
  | write operation rest ih =>
    simp only [settle]
    cases applied : apply operation s with
    | none => exact ⟨held,trivial⟩
    | some after => exact ih careful.2 (kept _ _ _ careful.1 held applied)

/-- The answers of an event may be given. -/
def Event.Allowed (may : (r : Request) → Answer r → Prop) : Event Request Answer → Prop
  | .start => True
  | .resume _ answer => ∀ r, may r (answer r)

theorem segment_careful {main : Task Request Answer Store Operation α}
    {w : World Request Answer Store Operation α} {event : Event Request Answer} {post : α → Prop}
    (careful : Careful may inv good post main) (held : inv w.store)
    (tasks : ∀ t ∈ w.tasks, Careful may inv good post t)
    (kept : ∀ met operation after, good operation → inv met → apply operation met = some after →
      inv after)
    (given : event.Allowed may) :
    inv (segment apply main w event).store ∧
      Careful may inv good post (segment apply main w event).rest := by
  cases event with
  | start => exact settle_careful careful held kept
  | resume place answer =>
    simp only [segment]
    split
    · rename_i r answered there
      have pending := tasks _ (List.mem_of_getElem? there)
      exact settle_careful (pending _ (given r)) held kept
    · rename_i t _ there
      exact ⟨held,tasks t (List.mem_of_getElem? there)⟩
    · exact ⟨held,trivial⟩

/-- The rule for worlds of careful tasks: an invariant that good writes keep holds at every
moment. -/
theorem world_careful {main : Task Request Answer Store Operation α} {initial : Store}
    {post : α → Prop} (careful : Careful may inv good post main) (start : inv initial)
    (kept : ∀ met operation after, good operation → inv met → apply operation met = some after →
      inv after)
    {events : List (Event Request Answer)} (allowed : ∀ event ∈ events, event.Allowed may) :
    inv (world apply main initial events).store ∧
      ∀ t ∈ (world apply main initial events).tasks, Careful may inv good post t := by
  induction events with
  | nil => exact ⟨start,nofun⟩
  | cons event past ih =>
    obtain ⟨held,tasks⟩ := ih fun other member => allowed other (List.mem_cons_of_mem _ member)
    have taken := segment_careful careful held tasks kept (allowed event List.mem_cons_self)
    refine ⟨taken.1,fun t member => ?_⟩
    simp only [world,next] at member
    cases event with
    | start =>
      rcases List.mem_append.mp member with old | new
      · exact tasks t old
      · exact List.mem_singleton.mp new ▸ taken.2
    | resume place answer =>
      rcases List.mem_or_eq_of_mem_set member with old | rfl
      · exact tasks t old
      · exact taken.2

end Care

section Reliance
variable {may : (r : Request) → Answer r → Prop}

theorem settle_ensures {rely : Store → Store → Prop} {inv : Store → Prop}
    {t : Task Request Answer Store Operation α} {s : Store}
    (ensured : Ensures apply may rely inv (fun _ => inv) t s) :
    inv (settle apply t s).store ∧
      Ensures apply may rely inv (fun _ => inv) (settle apply t s).rest
        (settle apply t s).store := by
  induction t generalizing s with
  | done value => exact ⟨ensured,ensured⟩
  | fail => exact ⟨ensured,ensured⟩
  | ask r answered => exact ⟨ensured.1,ensured⟩
  | read looked ih => exact ih s ensured
  | write operation rest ih =>
    simp only [Ensures,settle] at ensured ⊢
    cases applied : apply operation s with
    | none =>
      rw [applied] at ensured
      exact ⟨ensured,ensured⟩
    | some after =>
      rw [applied] at ensured
      exact ih ensured

/-- The step of a world: a task that waited for the answer is taken on as it ensured. -/
theorem segment_ensures {rely : Store → Store → Prop} {inv : Store → Prop}
    {main : Task Request Answer Store Operation α} {w : World Request Answer Store Operation α}
    {event : Event Request Answer} (held : inv w.store)
    (ensured : Ensures apply may rely inv (fun _ => inv) main w.store)
    (resumed : ∀ place answer, event = .resume place answer → ∀ r answered,
      w.tasks[place]? = some (.ask r answered) →
        Ensures apply may rely inv (fun _ => inv) (answered (answer r)) w.store) :
    inv (segment apply main w event).store ∧
      ∀ r answered, (segment apply main w event).rest = .ask r answered →
        Ensures apply may rely inv (fun _ => inv) (.ask r answered)
          (segment apply main w event).store := by
  cases event with
  | start =>
    obtain ⟨after,rest⟩ := settle_ensures ensured
    exact ⟨after,fun r answered asks => asks ▸ rest⟩
  | resume place answer =>
    simp only [segment]
    split
    · rename_i r answered there
      obtain ⟨after,rest⟩ := settle_ensures (resumed place answer rfl r answered there)
      exact ⟨after,fun r answered asks => asks ▸ rest⟩
    · rename_i t idle there
      exact ⟨held,fun r answered asks => (idle r answered asks).elim⟩
    · exact ⟨held,nofun⟩

/-- The rule for worlds of tasks that rely on the store as they were left on it: their invariant
holds at every moment. What every write keeps need not be asked of the interleaving. -/
theorem world_ensures {main : Task Request Answer Store Operation α} {initial : Store}
    (inv : Store → Prop) (related same : Store → Store → Prop) (reflexive : ∀ s, related s s)
    (transitive : ∀ {a b c}, related a b → related b c → related a c)
    (writes : ∀ operation met after, apply operation met = some after → related met after)
    (ensured : ∀ s, inv s →
      Ensures apply may (fun s after => related s after ∧ same s after) inv (fun _ => inv) main s)
    (start : inv initial)
    {events : List (Event Request Answer)} (allowed : ∀ event ∈ events, event.Allowed may)
    (undisturbed : Undisturbed apply same main initial events) :
    inv (world apply main initial events).store ∧
      ∀ place r answered, (world apply main initial events).tasks[place]? = some (.ask r answered) →
        Ensures apply may (fun s after => related s after ∧ same s after) inv (fun _ => inv)
          (.ask r answered) (left apply main initial place events) := by
  induction events with
  | nil => exact ⟨start,by simp [world]⟩
  | cons event past ih =>
    have before : Undisturbed apply same main initial past := by
      cases event with
      | start => exact undisturbed
      | resume place answer => exact undisturbed.2
    obtain ⟨held,waiting⟩ := ih (fun other member => allowed other (List.mem_cons_of_mem _ member))
      before
    have resumed : ∀ place answer, event = .resume place answer → ∀ r answered,
        (world apply main initial past).tasks[place]? = some (.ask r answered) →
        Ensures apply may (fun s after => related s after ∧ same s after) inv (fun _ => inv)
          (answered (answer r)) (world apply main initial past).store := by
      rintro place answer rfl r answered there
      have waits : (world apply main initial past).waits place = true := by
        unfold World.waits
        rw [there]
      have moved : related (left apply main initial place past)
          (world apply main initial past).store :=
        left_related reflexive transitive writes place past
      have given : may r (answer r) := allowed _ List.mem_cons_self r
      exact (waiting place r answered there).2 _ held ⟨moved,undisturbed.1 waits⟩ _ given
    have taken := segment_ensures held (ensured _ held) resumed
    refine ⟨taken.1,fun place r answered there => ?_⟩
    unfold left
    split
    · rename_i here
      exact taken.2 r answered (next_taken (here ▸ there))
    · rename_i apart
      exact waiting place r answered ((next_other apart).symm.trans there)

end Reliance
end Worlds
end Await
