import Tonbankcard.RecurringPayments

/-! The limits of a mandate over whole runs. What happens to one mandate is read off the events of
the journal, from its creation to the next creation under the same id. -/
namespace Tonbankcard.RecurringPayments

open Ton NftOwnership

structure Execution where
  merchantAddress : Address
  amount : Nat
  executionNumber : Nat
  timestamp : Nat
  deriving DecidableEq, Repr

/-- What a message did to one mandate. -/
inductive Operation where
  | create (terms : Terms)
  | cancel
  | execute (execution : Execution)
  | other
  deriving DecidableEq, Repr

def Operation.execution : Operation → Option Execution
  | .execute execution => some execution
  | _ => none

section Operations
variable (nft : Address) (id : BitVec 64)

def announced : Action Body → Option Operation
  | .emit (.mandateCreated nftAddress merchantAddress mandateId amountPerPeriod periodSeconds
      maxExecutions _) =>
    if nftAddress = nft ∧ mandateId = id then
      some (.create ⟨merchantAddress,amountPerPeriod,periodSeconds,maxExecutions⟩) else none
  | .emit (.mandateCancelled nftAddress mandateId _) =>
    if nftAddress = nft ∧ mandateId = id then some .cancel else none
  | .emit (.recurringPaymentExecuted nftAddress merchantAddress mandateId amount executionNumber
      timestamp) =>
    if nftAddress = nft ∧ mandateId = id then
      some (.execute ⟨merchantAddress,amount,executionNumber,timestamp⟩) else none
  | _ => none

def operation (entry : Entry) : Operation :=
  (entry.output.findSome? (announced nft id)).getD .other

def executions (entries : List Entry) : List Execution :=
  entries.filterMap (fun entry => (operation nft id entry).execution)

/-- The terms of the last creation and what was accepted since, newest first. -/
def since : List Entry → Option (Terms × List Entry)
  | [] => none
  | entry :: past =>
    match operation nft id entry with
    | .create terms => some (terms,[])
    | _ => (since past).map (fun episode => (episode.1,entry :: episode.2))

/-- An entry after which the mandate is cancelled or completed. -/
def Ends (hash : Cell → Int) (entry : Entry) : Prop :=
  operation nft id entry = .cancel ∨
    ∃ m, entry.after.getMandate hash nft id = some m ∧ m.status = .completed

/-- What the terms promise of the entries since the creation. -/
structure RateLimited (hash : Cell → Int) (terms : Terms) (entries : List Entry) : Prop where
  numbered : ((executions nft id entries).map Execution.executionNumber).reverse =
    List.range' 1 (executions nft id entries).length
  limited : 0 < terms.maxExecutions → (executions nft id entries).length ≤ terms.maxExecutions
  spaced : (executions nft id entries).Pairwise
    (fun later earlier => earlier.timestamp + terms.periodSeconds ≤ later.timestamp)
  agreed : ∀ entry ∈ entries, ∀ execution, operation nft id entry = .execute execution →
    execution.merchantAddress = terms.merchantAddress ∧
    execution.amount = terms.amountPerPeriod ∧ execution.timestamp = entry.input.context.now ∧
    Authorized entry.before entry.input.context nft terms.merchantAddress
  final : entries.Pairwise (fun later earlier =>
    Ends nft id hash earlier → (operation nft id later).execution = none)

/-- The stored mandate as the entries since its creation account for it. -/
structure Tracked (hash : Cell → Int) (terms : Terms) (entries : List Entry)
    (m : MandateInfo) : Prop where
  rate : RateLimited nft id hash terms entries
  promised : m.terms = terms
  count : m.executionCount = (executions nft id entries).length
  last : m.lastExecutedAt = ((executions nft id entries).head?.map Execution.timestamp).getD 0
  dated : ∀ execution ∈ executions nft id entries, 0 < execution.timestamp
  unfinished : m.status = .active →
    (0 < terms.maxExecutions → m.executionCount < terms.maxExecutions) ∧
    ∀ entry ∈ entries, ¬Ends nft id hash entry

end Operations

section Slots
variable {hash : Cell → Int} {nft : Address} {id : BitVec 64}

/-- What an operation on a mandate requires of the state before it and leaves after it. -/
inductive Slot (hash : Cell → Int) (env : Context) (self : State) (nft : Address)
    (id : BitVec 64) : Operation → State → Prop where
  | create (stored : next.getMandate hash nft id = some (terms.mandate env.now)) :
      Slot hash env self nft id (.create terms) next
  | cancel (found : self.getMandate hash nft id = some m)
      (stored : next.getMandate hash nft id = some {m with status := .cancelled}) :
      Slot hash env self nft id .cancel next
  | execute (found : self.getMandate hash nft id = some m) (due : Due self env nft m)
      (stored : next.getMandate hash nft id = some (m.executed env.now)) :
      Slot hash env self nft id
        (.execute ⟨m.merchantAddress,m.amountPerPeriod,m.executionCount + 1,env.now⟩) next
  | other (kept : next.getMandate hash nft id = self.getMandate hash nft id) :
      Slot hash env self nft id .other next

theorem operation_answered (event : Action Body) :
    operation nft id ⟨self,d,next,[event,sendResponse sender success errorCode other otherId]⟩ =
      (announced nft id event).getD .other := by
  have silent : announced nft id (sendResponse sender success errorCode other otherId) = none := rfl
  rw [operation,List.findSome?_cons]
  cases announced nft id event with
  | none => simp [silent]
  | some found => rfl

/-- Each accepted message acts on a mandate through its operation alone. -/
theorem effect_slot (collisionFree : CollisionFree hash) {d : Delivery Message}
    {self next : State} (effect : Effect hash d.context self d.message next actions)
    (nft : Address) (id : BitVec 64) :
    Slot hash d.context self nft id (operation nft id ⟨self,d,next,actions⟩) next := by
  obtain ⟨context,msg,commits⟩ := d
  cases effect with
  | registered owners => exact .other rfl
  | refused => exact .other rfl
  | created owner positive period =>
    rw [operation_answered,announced]
    split
    next same =>
      obtain ⟨rfl,rfl⟩ := same
      exact .create (getMandate_putMandate_same ..)
    next apart => exact .other (getMandate_putMandate_apart _ _ collisionFree apart)
  | cancelled owner stored =>
    rw [operation_answered,announced]
    split
    next same =>
      obtain ⟨rfl,rfl⟩ := same
      exact .cancel stored (getMandate_putMandate_same ..)
    next apart => exact .other (getMandate_putMandate_apart _ _ collisionFree apart)
  | executed stored due =>
    rw [operation_answered,announced]
    split
    next same =>
      obtain ⟨rfl,rfl⟩ := same
      exact .execute stored due (getMandate_putMandate_same ..)
    next apart => exact .other (getMandate_putMandate_apart _ _ collisionFree apart)

end Slots

section Episodes
variable {hash : Cell → Int} {nft : Address} {id : BitVec 64} {terms : Terms}
variable {entries : List Entry} {m : MandateInfo}

theorem executions_silent (silent : (operation nft id entry).execution = none) :
    executions nft id (entry :: entries) = executions nft id entries := by
  simp [executions,silent]

theorem executions_execute (executes : operation nft id entry = .execute execution) :
    executions nft id (entry :: entries) = execution :: executions nft id entries := by
  have named : (operation nft id entry).execution = some execution := by rw [executes]; rfl
  simp [executions,named]

theorem tracked_create (hash : Cell → Int) (nft : Address) (id : BitVec 64) (terms : Terms)
    (now : Nat) : Tracked nft id hash terms [] (terms.mandate now) where
  rate := ⟨rfl,fun _ => Nat.zero_le _,.nil,nofun,.nil⟩
  promised := rfl
  count := rfl
  last := rfl
  dated := nofun
  unfinished := fun _ => ⟨fun limited => limited,nofun⟩

/-- An entry without an execution keeps the limits. -/
theorem rate_silent (rate : RateLimited nft id hash terms entries)
    (silent : (operation nft id entry).execution = none) :
    RateLimited nft id hash terms (entry :: entries) := by
  have same := @executions_silent nft id entries entry silent
  constructor
  · rw [same]; exact rate.numbered
  · rw [same]; exact rate.limited
  · rw [same]; exact rate.spaced
  · intro counted member execution executes
    rcases List.mem_cons.mp member with rfl | member
    · rw [executes] at silent
      contradiction
    · exact rate.agreed counted member execution executes
  · exact List.pairwise_cons.mpr ⟨fun _ _ _ => silent,rate.final⟩

theorem tracked_cancel (tracked : Tracked nft id hash terms entries m)
    (cancels : operation nft id entry = .cancel) :
    Tracked nft id hash terms (entry :: entries) {m with status := .cancelled} := by
  have silent : (operation nft id entry).execution = none := by rw [cancels]; rfl
  have same := @executions_silent nft id entries entry silent
  exact {
    rate := rate_silent tracked.rate silent
    promised := tracked.promised
    count := by rw [same]; exact tracked.count
    last := by rw [same]; exact tracked.last
    dated := by rw [same]; exact tracked.dated
    unfinished := nofun }

theorem tracked_other (tracked : Tracked nft id hash terms entries m)
    (other : operation nft id entry = .other)
    (stored : entry.after.getMandate hash nft id = some m) :
    Tracked nft id hash terms (entry :: entries) m := by
  have silent : (operation nft id entry).execution = none := by rw [other]; rfl
  have same := @executions_silent nft id entries entry silent
  refine {
    rate := rate_silent tracked.rate silent
    promised := tracked.promised
    count := by rw [same]; exact tracked.count
    last := by rw [same]; exact tracked.last
    dated := by rw [same]; exact tracked.dated
    unfinished := ?_ }
  intro active
  obtain ⟨limit,unended⟩ := tracked.unfinished active
  refine ⟨limit,?_⟩
  intro counted member
  rcases List.mem_cons.mp member with rfl | member
  · rintro (cancels | ⟨held,found,completed⟩)
    · cases other.symm.trans cancels
    · obtain rfl := Option.some.inj (stored.symm.trans found)
      cases active.symm.trans completed
  · exact unended counted member

/-- The clock has passed the period since every execution so far. -/
theorem spaced_execute (tracked : Tracked nft id hash terms entries m)
    (elapsed : 0 < m.lastExecutedAt → m.lastExecutedAt + m.periodSeconds ≤ now) :
    ∀ earlier ∈ executions nft id entries, earlier.timestamp + terms.periodSeconds ≤ now := by
  have last := tracked.last
  have dated := tracked.dated
  have spaced := tracked.rate.spaced
  have period : m.periodSeconds = terms.periodSeconds :=
    congrArg Terms.periodSeconds tracked.promised
  cases executed : executions nft id entries with
  | nil => exact nofun
  | cons latest older =>
    rw [executed] at last dated spaced
    simp only [List.head?_cons,Option.map_some,Option.getD_some] at last
    have positive := dated latest List.mem_cons_self
    have passed := elapsed (last ▸ positive)
    intro earlier member
    rcases List.mem_cons.mp member with rfl | member
    · omega
    · have before := (List.pairwise_cons.mp spaced).1 earlier member
      omega

theorem tracked_execute (tracked : Tracked nft id hash terms entries m)
    (due : Due entry.before entry.input.context nft m)
    (executes : operation nft id entry =
      .execute ⟨m.merchantAddress,m.amountPerPeriod,m.executionCount + 1,
        entry.input.context.now⟩)
    (positive : 0 < entry.input.context.now)
    (stored : entry.after.getMandate hash nft id = some (m.executed entry.input.context.now)) :
    Tracked nft id hash terms (entry :: entries) (m.executed entry.input.context.now) := by
  have grown := @executions_execute nft id entries entry _ executes
  have promised := tracked.promised
  have limit : m.maxExecutions = terms.maxExecutions := congrArg Terms.maxExecutions promised
  have count := tracked.count
  obtain ⟨room,unended⟩ := tracked.unfinished due.active
  constructor
  · constructor
    · have number : 1 + 1 * (executions nft id entries).length = m.executionCount + 1 := by omega
      rw [grown,List.map_cons,List.reverse_cons,tracked.rate.numbered,List.length_cons,
        List.range'_concat,number]
    · intro limited
      rw [grown,List.length_cons,← count]
      exact room limited
    · rw [grown]
      exact List.pairwise_cons.mpr ⟨spaced_execute tracked due.elapsed,tracked.rate.spaced⟩
    · intro counted member execution executed
      rcases List.mem_cons.mp member with rfl | member
      · cases executes.symm.trans executed
        rw [← promised]
        exact ⟨rfl,rfl,rfl,due.authorized⟩
      · exact tracked.rate.agreed counted member execution executed
    · refine List.pairwise_cons.mpr ⟨?_,tracked.rate.final⟩
      intro earlier member ended
      exact absurd ended (unended earlier member)
  · exact promised
  · rw [grown,List.length_cons,← count]
    rfl
  · rw [grown]
    rfl
  · rw [grown]
    exact List.forall_mem_cons.mpr ⟨positive,tracked.dated⟩
  · intro active
    have more : ¬(0 < m.maxExecutions ∧ m.maxExecutions ≤ m.executionCount + 1) := by
      intro done
      simp [MandateInfo.executed,done] at active
    refine ⟨fun limited => ?_,?_⟩
    · change m.executionCount + 1 < terms.maxExecutions
      omega
    · intro counted member
      rcases List.mem_cons.mp member with rfl | member
      · rintro (cancels | ⟨held,found,completed⟩)
        · cases executes.symm.trans cancels
        · obtain rfl := Option.some.inj (stored.symm.trans found)
          cases active.symm.trans completed
      · exact unended counted member

end Episodes

section Runs
variable {hash : Cell → Int} {nft : Address} {id : BitVec 64}

theorem since_create (created : operation nft id entry = .create terms) :
    since nft id (entry :: past) = some (terms,[]) := by rw [since,created]

theorem since_other (kept : ∀ terms, operation nft id entry ≠ .create terms) :
    since nft id (entry :: past) =
      (since nft id past).map (fun episode => (episode.1,entry :: episode.2)) := by
  rw [since]
  split
  next created => exact absurd created (kept _)
  next => rfl

theorem since_append {newer older : List Entry}
    (created : operation nft id entry = .create terms)
    (kept : ∀ later ∈ newer, ∀ terms, operation nft id later ≠ .create terms) :
    since nft id (newer ++ entry :: older) = some (terms,newer) := by
  induction newer with
  | nil => exact since_create created
  | cons later newer ih =>
    rw [List.cons_append,since_other (kept later List.mem_cons_self),
      ih (fun earlier member => kept earlier (.tail _ member))]
    rfl

theorem since_created (found : since nft id entries = some episode) :
    ∃ entry ∈ entries, ∃ terms, operation nft id entry = .create terms := by
  induction entries generalizing episode with
  | nil => cases found
  | cons entry past ih =>
    by_cases created : ∃ terms, operation nft id entry = .create terms
    · exact ⟨entry,List.mem_cons_self,created⟩
    · rw [since_other (fun terms same => created ⟨terms,same⟩)] at found
      obtain ⟨earlier,found,-⟩ := Option.map_eq_some_iff.mp found
      obtain ⟨creation,member,created⟩ := ih found
      exact ⟨creation,.tail _ member,created⟩

/-- What a run maintains about one mandate: none is stored before the first creation, and from
each creation on the entries account for it. -/
def Accounted (hash : Cell → Int) (nft : Address) (id : BitVec 64) (entries : List Entry)
    (s : State) : Prop :=
  match since nft id entries with
  | none => s.getMandate hash nft id = none
  | some (terms,entries) =>
    ∃ m, s.getMandate hash nft id = some m ∧ Tracked nft id hash terms entries m

theorem accounted_found (accounted : Accounted hash nft id entries s)
    (found : s.getMandate hash nft id = some m) :
    ∃ terms episode, since nft id entries = some (terms,episode) ∧
      Tracked nft id hash terms episode m := by
  unfold Accounted at accounted
  split at accounted
  next => cases accounted.symm.trans found
  next terms episode begun =>
    obtain ⟨held,stored,tracked⟩ := accounted
    obtain rfl := Option.some.inj (stored.symm.trans found)
    exact ⟨terms,episode,begun,tracked⟩

theorem accounted_step (past : List Entry) (entry : Entry)
    (slot : Slot hash entry.input.context entry.before nft id (operation nft id entry) entry.after)
    (positive : 0 < entry.input.context.now)
    (accounted : Accounted hash nft id past entry.before) :
    Accounted hash nft id (entry :: past) entry.after := by
  generalize operated : operation nft id entry = operation at slot
  cases slot with
  | create stored =>
    rw [Accounted,since_create operated]
    exact ⟨_,stored,tracked_create hash nft id _ _⟩
  | cancel found stored =>
    obtain ⟨terms,episode,begun,tracked⟩ := accounted_found accounted found
    rw [Accounted,since_other (by simp [operated]),begun]
    exact ⟨_,stored,tracked_cancel tracked operated⟩
  | execute found due stored =>
    obtain ⟨terms,episode,begun,tracked⟩ := accounted_found accounted found
    rw [Accounted,since_other (by simp [operated]),begun]
    exact ⟨_,stored,tracked_execute tracked due operated positive stored⟩
  | other kept =>
    rw [Accounted,since_other (by simp [operated])]
    cases begun : since nft id past with
    | none =>
      rw [Accounted,begun] at accounted
      exact kept.trans accounted
    | some episode =>
      rw [Accounted,begun] at accounted
      obtain ⟨m,found,tracked⟩ := accounted
      have stored := kept.trans found
      exact ⟨m,stored,tracked_other tracked operated stored⟩

theorem accounted_init (deployer : Address) : Accounted hash nft id [] (init deployer) :=
  FiniteMap.get_empty _

theorem run_accounted (collisionFree : CollisionFree hash) (deployer : Address)
    (deliveries : List (Delivery Message)) (positive : ∀ d ∈ deliveries, 0 < d.context.now)
    (nft : Address) (id : BitVec 64) :
    Accounted hash nft id (journal hash (init deployer) deliveries)
      (run hash (init deployer) deliveries) := by
  have held : (∀ entry ∈ journal hash (init deployer) deliveries, 0 < entry.input.context.now) →
      Accounted hash nft id (journal hash (init deployer) deliveries)
        (run hash (init deployer) deliveries) := by
    refine deliver_invariant (fun entries s =>
      (∀ entry ∈ entries, 0 < entry.input.context.now) → Accounted hash nft id entries s)
      (fun _ => accounted_init deployer) ?_ deliveries
    intro past s d next actions accounted accepted dated
    have slot := effect_slot collisionFree (receive_effect accepted) nft id
    have older := accounted (fun entry member => dated entry (.tail _ member))
    exact accounted_step past ⟨s,d,next,actions⟩ slot (dated _ List.mem_cons_self) older
  apply held
  intro entry member
  obtain ⟨past,within,-,-⟩ := Journal.entry_origin member
  exact positive _ (within.subset List.mem_cons_self)

/-- Nothing is executed before a mandate is created. From each creation to the next the executions
are numbered from one without a gap, at most as many as the terms allow, a period apart, for the
merchant and the amount of the terms, asked for by the owner or the merchant, and none comes after
a cancellation or the completion. -/
theorem rate_limited (hash : Cell → Int) (collisionFree : CollisionFree hash)
    (deployer : Address) (deliveries : List (Delivery Message))
    (positive : ∀ d ∈ deliveries, 0 < d.context.now) (nft : Address) (id : BitVec 64) :
    (∀ newer entry older execution,
      journal hash (init deployer) deliveries = newer ++ entry :: older →
      operation nft id entry = .execute execution →
      ∃ created ∈ older, ∃ terms, operation nft id created = .create terms) ∧
    ∀ newer created older terms,
      journal hash (init deployer) deliveries = newer ++ created :: older →
      operation nft id created = .create terms →
      (∀ entry ∈ newer, ∀ terms, operation nft id entry ≠ .create terms) →
      RateLimited nft id hash terms newer := by
  constructor
  · intro newer entry older execution split executes
    obtain ⟨past,within,rfl,before,accepted⟩ := Journal.suffix_origin ⟨newer,split.symm⟩
    have dated : ∀ d ∈ past, 0 < d.context.now := fun d member =>
      positive d (within.subset (.tail _ member))
    have accounted := run_accounted collisionFree deployer past dated nft id
    have slot := effect_slot collisionFree (receive_effect (deliver_received accepted)) nft id
    rw [executes] at slot
    cases slot with
    | execute found due stored =>
      rw [before] at found
      obtain ⟨terms,episode,begun,-⟩ := accounted_found accounted found
      exact since_created begun
  · intro newer created older terms split creates kept
    have accounted := run_accounted collisionFree deployer deliveries positive nft id
    rw [Accounted,split,since_append creates kept] at accounted
    obtain ⟨m,-,tracked⟩ := accounted
    exact tracked.rate

end Runs

section Samples

def card : Address := newAddress 0 7
def owner : Address := newAddress 0 1
def shop : Address := newAddress 0 4
def subscription : BitVec 64 := 1

def sentAt (now : Nat) (sender : Address) (message : Message) : Delivery Message :=
  ⟨⟨sender,1000,now⟩,message,true⟩

/-- The shop collects a first payment and a second one to the second, asking too early between. -/
def twoPayments : List (Delivery Message) :=
  [sentAt 3700 shop (.executeRecurringPayment card subscription),
    sentAt 3699 shop (.executeRecurringPayment card subscription),
    sentAt 100 shop (.executeRecurringPayment card subscription),
    sentAt 90 owner (.createMandate card shop subscription 50 3600 2),
    sentAt 80 owner (.registerNFTOwnerRecurring card owner)]

theorem two_payments_rate_limited : ∃ newer created older,
    journal packedHash (init owner) twoPayments = newer ++ created :: older ∧
    executions card subscription newer = [⟨shop,50,2,3700⟩,⟨shop,50,1,100⟩] ∧
    RateLimited card subscription packedHash ⟨shop,50,3600,2⟩ newer := by
  have limited := (rate_limited packedHash packedHash_collisionFree owner twoPayments
    (by decide) card subscription).2
  have operations : (journal packedHash (init owner) twoPayments).map (operation card subscription) =
      [.execute ⟨shop,50,2,3700⟩,.other,.execute ⟨shop,50,1,100⟩,.create ⟨shop,50,3600,2⟩,.other] := by
    decide +kernel
  obtain ⟨later,rest,split,operated,operations⟩ := List.map_eq_cons_iff.mp operations
  obtain ⟨refused,rest,rfl,silent,operations⟩ := List.map_eq_cons_iff.mp operations
  obtain ⟨first,rest,rfl,executed,operations⟩ := List.map_eq_cons_iff.mp operations
  obtain ⟨created,older,rfl,creates,-⟩ := List.map_eq_cons_iff.mp operations
  refine ⟨[later,refused,first],created,older,split,?_,limited _ _ _ _ split creates ?_⟩
  · simp [executions,operated,silent,executed,Operation.execution]
  · simp [operated,silent,executed]

end Samples
end Tonbankcard.RecurringPayments
