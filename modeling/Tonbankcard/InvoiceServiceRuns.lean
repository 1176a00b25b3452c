import Tonbankcard.InvoiceService

/-! What a segment of the invoice service can do to the stored invoices, and what every run
keeps: an invoice that a call holds is an earlier version of the stored one. -/
namespace Tonbankcard.MerchantApi

open EcmaScript

/-- An invoice with the id it was read at. -/
abbrev Snapshot := JsString × Invoice

def readAt (invoiceId : JsString) (found : Option Invoice) : List Snapshot :=
  found.toList.map (fun invoice => (invoiceId,invoice))

/-- The invoices that settlement and cleanup calls go on with. -/
def Await.snapshots : Await → List Snapshot
  | .scanning _ rest | .matched _ _ rest _ | .sweeping _ _ rest => rest
  | .sweepLapsed _ _ rest invoiceId invoice found
  | .sweepReloaded _ _ rest invoiceId invoice found =>
    (invoiceId,invoice) :: (readAt invoiceId found ++ rest)
  | _ => []

def Await.confirmations : Await → Option Int
  | .scanning confirmations _ | .matched confirmations _ _ _ => some confirmations
  | _ => none

/-- What a settlement call has checked before it looks for an invoice. -/
structure Attested (host : Host) (configured : Option JsString) (event : SettlementEvent)
    (options : ProcessSettlementOptions) (secret : JsString) (confirmations : Int) : Prop where
  resolved : options.indexerSecret.or configured = some secret
  verified : verifySettlementAttestation host secret event options.attestation = some true
  counted : options.currentBlockNumber = some (confirmations + event.blockNumber)
  final : minConfirmations ≤ confirmations

def Final (host : Host) (configured : Option JsString) (operation : Operation)
    (confirmations : Int) : Prop :=
  ∃ event options secret, operation = .processSettlementEvent event options ∧
    Attested host configured event options secret confirmations

/-- An await that holds no more than it may. -/
structure Within (final : Int → Prop) (held : List Snapshot) (next : Await) : Prop where
  snapshots : next.snapshots ⊆ held
  checked : ∀ confirmations, next.confirmations = some confirmations → final confirmations

/-- The commands a call may issue, with what it knows by then. -/
inductive Issued (host : Host) (operation : Operation) (inputs : Inputs) (final : Int → Prop)
    (held : List Snapshot) : Command → Prop where
  | wait (within : Within final held next) : Issued host operation inputs final held (.wait next)
  | get (within : ∀ found, Within final (readAt invoiceId found ++ held) (next found)) :
      Issued host operation inputs final held (.get invoiceId next)
  | generated (creates : operation = .createInvoice request merchantApiKey)
      (named : invoice.invoiceId = inputs.invoiceId) (pending : invoice.status = .pending)
      (within : Within final held next) :
      Issued host operation inputs final held (.set invoice next)
  | lapsed (within : ∀ found, Within final (readAt invoiceId found ++ held) (next found)) :
      Issued host operation inputs final held (.transition invoiceId .expired none next)
  | settled (settles : operation = .processSettlementEvent event options)
      (checked : final confirmations) (member : (invoiceId,invoice) ∈ held)
      (pays : matchesEvent host event invoice = true)
      (within : ∀ found, Within final held (next found)) :
      Issued host operation inputs final held (.transition invoice.invoiceId .settled
        (some (settlementOf event confirmations timestamp)) next)
  | withdrawn (creates : operation = .createInvoice request merchantApiKey)
      (within : Within final held next) :
      Issued host operation inputs final held (.delete invoiceId next)
  | removed (cleans : operation = .cleanupExpiredInvoices)
      (member : (invoiceId,invoice) ∈ held) (expired : invoice.status = .expired)
      (within : Within final held next) :
      Issued host operation inputs final held (.delete invoiceId next)
  | entries (within : ∀ found, Within final (found ++ held) (next found)) :
      Issued host operation inputs final held (.entries next)
  | lookup (within : ∀ found, Within final held (next found)) :
      Issued host operation inputs final held (.lookup key next)
  | setIfAbsent (within : ∀ found, Within final held (next found)) :
      Issued host operation inputs final held (.setIfAbsent key record next)
  | drop (within : Within final held next) :
      Issued host operation inputs final held (.drop key next)

section Segments
variable {host : Host} {configured : Option JsString} {inputs : Inputs} {held : List Snapshot}
variable {final : Int → Prop} {operation : Operation}

theorem within_quiet {next : Await} (silent : next.snapshots = [])
    (early : next.confirmations = none) : Within final held next :=
  ⟨by simp [silent],by simp [early]⟩

theorem finish_issued (outcome : Outcome) :
    Issued host operation inputs final held (finish outcome) :=
  .wait (within_quiet rfl rfl)

theorem reject_issued (code : ErrorCode) (message : String) :
    Issued host operation inputs final held (reject code message) := finish_issued _

theorem beginCreateInvoice_issued (request : CreateInvoiceRequest) :
    Issued host operation inputs final held (beginCreateInvoice request inputs) := by
  unfold beginCreateInvoice
  split
  · exact finish_issued _
  · exact .wait (within_quiet rfl rfl)

theorem generateInvoice_issued (creates : operation = .createInvoice asked merchantApiKey)
    (request : CreateInvoiceRequest) (key : JsString) :
    Issued host operation inputs final held (generateInvoice host request key inputs) :=
  .generated creates rfl rfl (within_quiet rfl rfl)

theorem resumeCreateInvoice_issued (creates : operation = .createInvoice asked merchantApiKey)
    (await : Await) (within : Within final held await) :
    Issued host operation inputs final held (resumeCreateInvoice host await inputs) := by
  unfold resumeCreateInvoice
  split
  · split
    · exact finish_issued _
    · exact reject_issued _ _
    · exact .wait (within_quiet rfl rfl)
  · split
    · exact finish_issued _
    · exact .lookup fun found => within_quiet rfl rfl
  · exact generateInvoice_issued creates _ _
  · exact .get fun found => within_quiet rfl rfl
  · exact generateInvoice_issued creates _ _
  · split
    · exact .drop (within_quiet rfl rfl)
    · exact finish_issued _
  · exact .withdrawn creates (within_quiet rfl rfl)
  · exact generateInvoice_issued creates _ _
  · exact .setIfAbsent fun found => within_quiet rfl rfl
  · exact finish_issued _
  · exact .withdrawn creates (within_quiet rfl rfl)
  · exact .get fun found => within_quiet rfl rfl
  · split
    · exact .drop (within_quiet rfl rfl)
    · exact finish_issued _
  · exact .drop (within_quiet rfl rfl)
  · exact .withdrawn creates (within_quiet rfl rfl)
  · exact beginCreateInvoice_issued _
  · exact beginCreateInvoice_issued _
  · exact .wait within

theorem beginGetInvoice_issued (invoiceId : JsString) :
    Issued host operation inputs final held (beginGetInvoice invoiceId) := by
  unfold beginGetInvoice
  split
  · exact finish_issued _
  · exact .get fun found => within_quiet rfl rfl

theorem resumeGetInvoice_issued (await : Await) (within : Within final held await) :
    Issued host operation inputs final held (resumeGetInvoice await inputs) := by
  unfold resumeGetInvoice
  split
  · exact reject_issued _ _
  · split
    · exact .lapsed fun found => within_quiet rfl rfl
    · exact finish_issued _
  · exact finish_issued _
  · exact .get fun found => within_quiet rfl rfl
  · exact finish_issued _
  · exact .wait within

/-- The scan goes on with what is left of its entries. -/
theorem scan_issued (settles : operation = .processSettlementEvent event options)
    (checked : final confirmations) (rest : List Snapshot) (within : rest ⊆ held) :
    Issued host operation inputs final held (scan host event confirmations rest) := by
  induction rest with
  | nil => exact finish_issued _
  | cons snapshot rest ih =>
    obtain ⟨invoiceId,invoice⟩ := snapshot
    obtain ⟨member,within⟩ := List.cons_subset.mp within
    rw [scan]
    split
    next pays =>
      split
      · exact finish_issued _
      · exact .settled settles checked member pays fun found =>
          ⟨within,fun _ same => Option.some.inj same ▸ checked⟩
    next => exact ih within

theorem resumeSettlement_issued (settles : operation = .processSettlementEvent event options)
    (await : Await) (within : Within final held await) :
    Issued host operation inputs final held (resumeSettlement host event await) := by
  unfold resumeSettlement
  split
  · exact scan_issued settles (within.checked _ rfl) _ within.snapshots
  · exact finish_issued _
  · exact scan_issued settles (within.checked _ rfl) _ within.snapshots
  · exact .wait within

theorem beginSettlement_issued (event : SettlementEvent) (options : ProcessSettlementOptions) :
    Issued host (.processSettlementEvent event options) inputs
      (Final host configured (.processSettlementEvent event options)) held
      (beginSettlement host event configured options) := by
  unfold beginSettlement
  split
  · exact finish_issued _
  · rename_i secret found
    split
    · exact finish_issued _
    · exact reject_issued _ _
    · rename_i verified
      split
      · exact finish_issued _
      · rename_i current counted
        dsimp only
        split
        · rename_i enough
          refine .entries fun found => ⟨List.subset_append_left _ _,fun _ same => ?_⟩
          obtain rfl := Option.some.inj same
          exact ⟨event,options,secret,rfl,‹_›,verified,by rw [counted]; congr 1; omega,enough⟩
        · exact finish_issued _

theorem sweep_issued (cleans : operation = .cleanupExpiredInvoices) (now : Int) (cleaned : Nat)
    (read : Nat) (rest : List Snapshot) (within : rest ⊆ held) :
    Issued host operation inputs final held (sweep inputs now cleaned read rest) := by
  induction rest generalizing read with
  | nil => exact .wait (within_quiet rfl rfl)
  | cons snapshot rest ih =>
    obtain ⟨invoiceId,invoice⟩ := snapshot
    obtain ⟨member,within⟩ := List.cons_subset.mp within
    rw [sweep]
    split
    · refine .lapsed fun found => ⟨?_,by simp [Await.confirmations]⟩
      refine List.cons_subset.mpr ⟨List.mem_append_right _ member,?_⟩
      exact List.append_subset.mpr ⟨List.subset_append_left _ _,
        List.Subset.trans within (List.subset_append_right _ _)⟩
    · split
      next removable =>
        simp only [isRemovable,Bool.and_eq_true,decide_eq_true_eq] at removable
        exact .removed cleans member removable.1 ⟨within,by simp [Await.confirmations]⟩
      next => exact ih _ within

theorem sweepOn_issued (cleans : operation = .cleanupExpiredInvoices) (now : Int)
    (cleaned : Nat) (rest : List Snapshot) (within : rest ⊆ held)
    (member : (invoiceId,invoice) ∈ held) :
    Issued host operation inputs final held
      (sweepOn inputs now cleaned rest invoiceId invoice) := by
  unfold sweepOn
  split
  next removable =>
    simp only [isRemovable,Bool.and_eq_true,decide_eq_true_eq] at removable
    exact .removed cleans member removable.1 ⟨within,by simp [Await.confirmations]⟩
  next => exact sweep_issued cleans now cleaned 0 rest within

theorem sweepKeys_issued (idempotency : JsMap JsString IdempotencyRecord)
    (cleaned keysCleaned : Nat) : Issued host operation inputs final held
      (sweepKeys idempotency inputs cleaned keysCleaned) := by
  unfold sweepKeys
  split
  · exact finish_issued _
  · split
    · exact finish_issued _
    · exact .get fun found => within_quiet rfl rfl

theorem resumeCleanup_issued (cleans : operation = .cleanupExpiredInvoices)
    (idempotency : JsMap JsString IdempotencyRecord) (await : Await)
    (within : Within final held await) :
    Issued host operation inputs final held (resumeCleanup idempotency await inputs) := by
  have holds := within.snapshots
  unfold resumeCleanup
  split
  · exact sweep_issued cleans _ _ 0 _ holds
  · obtain ⟨-,holds⟩ := List.cons_subset.mp holds
    obtain ⟨updated,rest⟩ := List.append_subset.mp holds
    exact sweepOn_issued cleans _ _ _ rest (updated List.mem_cons_self)
  · obtain ⟨member,holds⟩ := List.cons_subset.mp holds
    refine .get fun found => ⟨?_,by simp [Await.confirmations]⟩
    refine List.cons_subset.mpr ⟨List.mem_append_right _ member,?_⟩
    exact List.append_subset.mpr ⟨List.subset_append_left _ _,
      List.Subset.trans holds (List.subset_append_right _ _)⟩
  · obtain ⟨member,holds⟩ := List.cons_subset.mp holds
    obtain ⟨found,rest⟩ := List.append_subset.mp holds
    refine sweepOn_issued cleans _ _ _ rest ?_
    rename_i current _
    cases current with
    | none => exact member
    | some current => exact found List.mem_cons_self
  · exact sweepKeys_issued _ _ _
  · exact .drop (within_quiet rfl rfl)
  · exact sweepKeys_issued _ _ _
  · exact .wait within

theorem begin_issued (operation : Operation) :
    Issued host operation inputs (Final host configured operation) held
      (operation.begin host configured inputs) := by
  cases operation with
  | createInvoice request merchantApiKey => exact beginCreateInvoice_issued request
  | processSettlementEvent event options => exact beginSettlement_issued event options
  | getInvoice invoiceId => exact beginGetInvoice_issued invoiceId
  | cleanupExpiredInvoices =>
    exact .entries fun found => ⟨List.subset_append_left _ _,by simp [Await.confirmations]⟩

/-- The spec of all segments: a call issues what its operation may, on what it holds. -/
theorem resume_issued (call : Call) (idempotency : JsMap JsString IdempotencyRecord)
    (within : Within final held call.await) :
    Issued host call.operation inputs final held (call.resume host idempotency inputs) := by
  obtain ⟨operation,await⟩ := call
  cases operation with
  | createInvoice request merchantApiKey => exact resumeCreateInvoice_issued rfl await within
  | processSettlementEvent event options => exact resumeSettlement_issued rfl await within
  | getInvoice invoiceId => exact resumeGetInvoice_issued await within
  | cleanupExpiredInvoices => exact resumeCleanup_issued rfl idempotency await within

end Segments

section Steps
variable {host : Host} {configured : Option JsString} {w : World} {event : Event}

/-- The call that an event is a segment of. -/
def World.caller (w : World) : Event → Nat
  | .start .. => w.calls.length
  | .resume index _ => index

theorem next_storage (ran : w.segment host configured event = some (operation,command)) :
    (w.next host configured event).storage =
      (command.perform event.inputs.storageNow w.storage).1 := by
  unfold World.next
  rw [ran]
  cases event with
  | start => rfl
  | resume => rfl

theorem next_caller (ran : w.segment host configured event = some (operation,command)) :
    (w.next host configured event).calls[w.caller event]? =
      some ⟨operation,(command.perform event.inputs.storageNow w.storage).2⟩ := by
  unfold World.next
  rw [ran]
  cases event with
  | start asked inputs => exact List.getElem?_concat_length
  | resume index inputs =>
    have inside : index < w.calls.length := by
      by_contra beyond
      simp [World.segment,List.getElem?_eq_none (Nat.le_of_not_lt beyond)] at ran
    exact List.getElem?_set_self inside

theorem next_others (apart : i ≠ w.caller event) :
    (w.next host configured event).calls[i]? = w.calls[i]? := by
  unfold World.next
  split
  · rfl
  cases event with
  | start asked inputs =>
    by_cases earlier : i < w.calls.length
    · exact List.getElem?_append_left earlier
    · have beyond : w.calls.length < i := Nat.lt_of_le_of_ne (Nat.le_of_not_lt earlier) apart.symm
      rw [List.getElem?_eq_none (by simp; omega),List.getElem?_eq_none (by omega)]
  | resume index inputs => exact List.getElem?_set_ne (Ne.symm apart)

theorem next_idle (idle : w.segment host configured event = none) :
    w.next host configured event = w := by
  unfold World.next
  rw [idle]

/-- A segment resumes a call where it awaits, or begins one. -/
theorem segment_cases (ran : w.segment host configured event = some (operation,command)) :
    (w.calls[w.caller event]? = none ∧
      command = operation.begin host configured event.inputs) ∨
    ∃ call : Call, w.calls[w.caller event]? = some call ∧ operation = call.operation ∧
      command = call.resume host w.storage.idempotency event.inputs := by
  cases event with
  | start asked inputs =>
    obtain ⟨rfl,rfl⟩ := Prod.mk.inj (Option.some.inj ran)
    exact .inl ⟨List.getElem?_eq_none (Nat.le_refl _),rfl⟩
  | resume index inputs =>
    obtain ⟨call,found,same⟩ := Option.map_eq_some_iff.mp ran
    obtain ⟨rfl,rfl⟩ := Prod.mk.inj same
    exact .inr ⟨call,found,rfl,rfl⟩

/-- No two segments draw the same random id. -/
def UniqueIds (events : List Event) : Prop := (events.map (·.inputs.invoiceId)).Nodup

theorem UniqueIds.past {later past : List Event} (unique : UniqueIds (later ++ past)) :
    UniqueIds past := by
  unfold UniqueIds at unique
  rw [List.map_append] at unique
  exact (List.nodup_append.mp unique).2.1

/-- The clock never goes back, neither within a segment nor from one to the next. -/
def Clocked : List Event → Prop
  | [] => True
  | event :: past =>
    (∀ read later, read ≤ later → event.inputs.reads read ≤ event.inputs.reads later) ∧
      (∀ read, event.inputs.reads read ≤ event.inputs.storageNow) ∧
      (∀ earlier ∈ past.head?, earlier.inputs.storageNow ≤ event.inputs.reads 0) ∧ Clocked past

end Steps
end Tonbankcard.MerchantApi
