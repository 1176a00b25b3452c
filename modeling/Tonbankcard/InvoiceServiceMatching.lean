import Tonbankcard.InvoiceServicePermanence

/-! What settles an invoice: an attested and final event with the invoice's merchant, amount
and payload hash. A call settles one invoice at most, and none if it is rejected. -/
namespace Tonbankcard.MerchantApi

open EcmaScript

/-- Whether a settlement call has made its transition. -/
def Await.hasSettled : Await → Bool
  | .matched _ _ _ (some _) | .done (.settled _) => true
  | _ => false

section Calls
variable {host : Host} {configured : Option JsString} {inputs : Inputs} {s : Storage}

/-- A segment of a settlement call changes nothing, or it makes the one transition. -/
def Settling (command : Command) (now : Int) (s : Storage) : Prop :=
  (command.perform now s).1 = s ∨ ((command.perform now s).2.hasSettled = true ∧
    ∃ (invoiceId : JsString) (pending settled : Invoice),
      s.invoices.get invoiceId = some pending ∧ pending.status = .pending ∧
      settled.status = .settled ∧
      (command.perform now s).1 = {s with invoices := s.invoices.set invoiceId settled})

theorem scan_settling (event : SettlementEvent) (confirmations : Int) (rest : List Snapshot)
    (now : Int) : Settling (scan host event confirmations rest) now s := by
  induction rest with
  | nil => exact .inl rfl
  | cons snapshot rest ih =>
    obtain ⟨invoiceId,invoice⟩ := snapshot
    rw [scan]
    split
    · split
      · exact .inl rfl
      · rename_i timestamp _
        cases made : (s.transition invoice.invoiceId .settled
            (some (settlementOf event confirmations timestamp)) now).2 with
        | none => exact .inl (transition_none made)
        | some updated =>
          obtain ⟨current,stored,pending,rfl,after⟩ := transition_some made
          refine .inr ⟨?_,invoice.invoiceId,current,_,stored,pending,?_,after⟩
          · simp only [Command.perform,Prod.map,made]
            rfl
          · rfl
    · exact ih

theorem beginSettlement_settling (event : SettlementEvent) (options : ProcessSettlementOptions)
    (now : Int) : Settling (beginSettlement host event configured options) now s := by
  unfold beginSettlement
  split
  · exact .inl rfl
  · split
    · exact .inl rfl
    · exact .inl rfl
    · split
      · exact .inl rfl
      · dsimp only
        split
        · exact .inl rfl
        · exact .inl rfl

theorem resumeSettlement_settling (event : SettlementEvent) (await : Await) (now : Int) :
    Settling (resumeSettlement host event await) now s := by
  unfold resumeSettlement
  split
  · exact scan_settling _ _ _ _
  · exact .inl rfl
  · exact scan_settling _ _ _ _
  · exact .inl rfl

/-- A call that has settled an invoice does nothing more. -/
theorem settled_rests (host : Host) (inputs : Inputs) (call : Call) (idempotency : JsMap JsString IdempotencyRecord)
    (settled : call.await.hasSettled = true) :
    ∃ next : Await, call.resume host idempotency inputs = .wait next ∧ next.hasSettled = true := by
  obtain ⟨operation,await⟩ := call
  change await.hasSettled = true at settled
  unfold Await.hasSettled at settled
  split at settled
  · cases operation <;> exact ⟨_,rfl,rfl⟩
  · cases operation <;> exact ⟨_,rfl,rfl⟩
  · simp at settled

variable {w : World} {event : Event}

theorem segment_settling
    (ran : w.segment host configured event = some (.processSettlementEvent paid options,command)) :
    Settling command event.inputs.storageNow w.storage := by
  rcases segment_cases ran with ⟨-,rfl⟩ | ⟨⟨operation,await⟩,-,rfl,rfl⟩
  · exact beginSettlement_settling _ _ _
  · exact resumeSettlement_settling _ _ _

/-- After its transition a call has settled, and stays so without a change to the storage. -/
theorem hasSettled_next (found : w.calls[i]? = some call) (settled : call.await.hasSettled = true) :
    (∃ later : Call, (w.next host configured event).calls[i]? = some later ∧
      later.await.hasSettled = true) ∧
    (i = w.caller event → (w.next host configured event).storage = w.storage) := by
  cases ran : w.segment host configured event with
  | none =>
    rw [next_idle ran]
    exact ⟨⟨call,found,settled⟩,fun _ => rfl⟩
  | some segment =>
    obtain ⟨operation,command⟩ := segment
    by_cases caller : i = w.caller event
    · rcases segment_cases ran with ⟨absent,-⟩ | ⟨resumed,here,rfl,rfl⟩
      · simp [← caller,found] at absent
      · rw [← caller,found,Option.some.injEq] at here
        subst here
        obtain ⟨next,waits,still⟩ := settled_rests host event.inputs call w.storage.idempotency
          settled
        rw [next_storage ran,caller,next_caller ran,waits]
        exact ⟨⟨_,rfl,still⟩,fun _ => rfl⟩
    · rw [next_others caller]
      exact ⟨⟨call,found,settled⟩,fun same => absurd same caller⟩

end Calls

section Matching
variable (host : Host) (configured : Option JsString)

/-- The invoice becomes settled by the event. -/
def Settles (past : List Event) (event : Event) (invoiceId : JsString) : Prop :=
  (world host configured past).isSettled invoiceId = false ∧
    (world host configured (event :: past)).isSettled invoiceId = true

/-- An invoice that is stored at some moment of a run. -/
def StoredIn (events : List Event) (invoice : Invoice) : Prop :=
  ∃ past invoiceId, past <:+ events ∧
    (world host configured past).storage.invoices.get invoiceId = some invoice

def payloadTexts (events : List Event) : Set JsString :=
  {text | ∃ invoice, StoredIn host configured events invoice ∧
    text = payloadText invoice.metadata invoice.invoiceId}

/-- A settlement event that the service is called with, attested or not. -/
def Presented (events : List Event) (paid : SettlementEvent) : Prop :=
  ∃ options inputs, .start (.processSettlementEvent paid options) inputs ∈ events

def presentedTexts (events : List Event) : Set JsString :=
  {text | ∃ paid, Presented events paid ∧ text = canonicalizeSettlementEvent paid}

/-- What a settlement rests on. The attestation is of this event and the payload hash of this
invoice alone, and nothing else changes. -/
structure PaidBy (events past : List Event) (event : Event) (invoiceId : JsString)
    (paid : SettlementEvent) (options : ProcessSettlementOptions) (invoice : Invoice) : Prop where
  segment : ∃ command, (world host configured past).segment host configured event =
    some (.processSettlementEvent paid options,command)
  attested : ∃ secret confirmations, Attested host configured paid options secret confirmations ∧
    ∀ other, Presented events other →
      verifySettlementAttestation host secret other options.attestation = some true →
      other = paid
  stored : (world host configured past).storage.invoices.get invoiceId = some invoice
  named : invoice.invoiceId = invoiceId
  pending : invoice.status = .pending
  merchantNft : invoice.merchantNft = paid.merchantNft
  amountTbc : invoice.amountTbc = paid.amountTbc
  payloadHash : hashMetadata host invoice.metadata invoiceId = paid.payloadHash
  pinned : ∀ other, StoredIn host configured events other →
    hashMetadata host other.metadata other.invoiceId = paid.payloadHash →
    other.invoiceId = invoiceId ∧ ∀ key, key ≠ js "invoice_id" →
      ((other.metadata.getD JsMap.empty).get key).map MetadataValue.text =
        ((invoice.metadata.getD JsMap.empty).get key).map MetadataValue.text
  others : ∀ other, other ≠ invoiceId →
    (world host configured (event :: past)).storage.invoices.get other =
      (world host configured past).storage.invoices.get other
  idempotency : (world host configured (event :: past)).storage.idempotency =
    (world host configured past).storage.idempotency

end Matching

section Runs
variable {host : Host} {configured : Option JsString} {past : List Event} {event : Event}

theorem settles_segment (settles : Settles host configured past event invoiceId) :
    ∃ operation command, (world host configured past).segment host configured event =
      some (operation,command) := by
  cases ran : (world host configured past).segment host configured event with
  | none => simp [Settles,world,next_idle ran] at settles
  | some segment => exact ⟨segment.1,segment.2,rfl⟩

/-- Only a settlement can have settled an invoice. -/
theorem settles_changed {w : World} {after : Invoices} {operation : Operation}
    {command : Command} {inputs : Inputs} {final : Int → Prop}
    (changed : Changed host operation inputs final command w.storage.invoices after)
    (before : w.isSettled invoiceId = false)
    (now : (after.get invoiceId).any (fun invoice => invoice.status = .settled) = true) :
    ∃ paid options invoice confirmations, operation = .processSettlementEvent paid options ∧
      final confirmations ∧ w.storage.invoices.get invoiceId = some invoice ∧
      invoice.invoiceId = invoiceId ∧ matchesEvent host paid invoice = true ∧
      ∀ other, other ≠ invoiceId → after.get other = w.storage.invoices.get other := by
  have absurdly (same : after.get invoiceId = w.storage.invoices.get invoiceId) : False := by
    simp [World.isSettled,← same,now] at before
  cases changed with
  | kept => exact (absurdly rfl).elim
  | created creates named pending =>
    rw [JsMap.get_set] at now absurdly
    split at now
    · simp [pending] at now
    · exact (absurdly (by simp_all)).elim
  | lapsed stored pending =>
    rw [JsMap.get_set] at now absurdly
    split at now
    · simp at now
    · exact (absurdly (by simp_all)).elim
  | @settled paid options confirmations found invoice timestamp settles checked stored named pays =>
    by_cases same : invoiceId = found
    · subst same
      refine ⟨paid,options,invoice,confirmations,settles,checked,stored,named,pays,?_⟩
      intro other apart
      rw [JsMap.get_set,if_neg apart]
    · rw [JsMap.get_set,if_neg same] at absurdly
      exact (absurdly rfl).elim
  | withdrawn | removed =>
    rw [JsMap.get_delete] at now absurdly
    split at now
    · simp at now
    · exact (absurdly (by simp_all)).elim

/-- A call was started with its operation. -/
theorem call_started (past : List Event) :
    ∀ (i : Nat) (call : Call), (world host configured past).calls[i]? = some call →
      ∃ inputs, .start call.operation inputs ∈ past := by
  induction past with
  | nil => simp [world]
  | cons event past ih =>
    intro i call found
    have before (found : (world host configured past).calls[i]? = some call) :
        ∃ inputs, .start call.operation inputs ∈ event :: past := by
      obtain ⟨inputs,member⟩ := ih i call found
      exact ⟨inputs,List.mem_cons_of_mem _ member⟩
    rw [world] at found
    cases ran : (world host configured past).segment host configured event with
    | none =>
      rw [next_idle ran] at found
      exact before found
    | some segment =>
      obtain ⟨operation,command⟩ := segment
      by_cases caller : i = (world host configured past).caller event
      · rw [caller,next_caller ran,Option.some.injEq] at found
        subst found
        cases event with
        | start asked inputs =>
          obtain ⟨rfl,-⟩ := Prod.mk.inj (Option.some.inj ran)
          exact ⟨inputs,List.mem_cons_self⟩
        | resume index inputs =>
          obtain ⟨call,here,same⟩ := Option.map_eq_some_iff.mp ran
          obtain ⟨rfl,-⟩ := Prod.mk.inj same
          obtain ⟨inputs,member⟩ := ih index call here
          exact ⟨inputs,List.mem_cons_of_mem _ member⟩
      · rw [next_others caller] at found
        exact before found

theorem segment_presented (within : event :: past <:+ events)
    (ran : (world host configured past).segment host configured event =
      some (.processSettlementEvent paid options,command)) : Presented events paid := by
  cases event with
  | start asked inputs =>
    obtain ⟨rfl,-⟩ := Prod.mk.inj (Option.some.inj ran)
    exact ⟨options,inputs,within.subset List.mem_cons_self⟩
  | resume index inputs =>
    obtain ⟨call,here,same⟩ := Option.map_eq_some_iff.mp ran
    obtain ⟨asked,-⟩ := Prod.mk.inj same
    obtain ⟨began,member⟩ := call_started past index call here
    rw [asked] at member
    exact ⟨options,began,within.subset (List.mem_cons_of_mem _ member)⟩

/-- What every settlement rests on. -/
theorem settles_paid (unique : UniqueIds events)
    (free : CollisionFree host.sha256 (payloadTexts host configured events))
    (unforgeable : ∀ secret, CollisionFree (host.hmacSha256 secret) (presentedTexts events))
    (within : event :: past <:+ events) (settles : Settles host configured past event invoiceId) :
    ∃ paid options invoice,
      PaidBy host configured events past event invoiceId paid options invoice := by
  obtain ⟨later,rfl⟩ := within
  have coherent : Coherent host configured (past.map (·.inputs.invoiceId))
      (world host configured past) := world_coherent (List.nodup_cons.mp unique.past).2
  obtain ⟨operation,command,ran⟩ := settles_segment settles
  obtain ⟨paid,options,invoice,confirmations,rfl,⟨paid',options',secret,same,attested⟩,stored,named,
    pays,others⟩ := settles_changed (next_changed coherent ran) settles.1 settles.2
  obtain ⟨rfl,rfl⟩ := Operation.processSettlementEvent.inj same
  have presented := segment_presented (List.suffix_append later _) ran
  simp only [matchesEvent,Bool.and_eq_true,decide_eq_true_eq] at pays
  obtain ⟨⟨⟨pending,merchantNft⟩,amountTbc⟩,payloadHash⟩ := pays
  have here : StoredIn host configured (later ++ event :: past) invoice :=
    ⟨past,invoiceId,(List.suffix_cons event past).trans (List.suffix_append later _),stored⟩
  refine ⟨paid,options,invoice,⟨command,ran⟩,⟨secret,confirmations,attested,?_⟩,stored,named,pending,
    merchantNft,amountTbc,named ▸ payloadHash,?_,others,?_⟩
  · intro other known verified
    exact verified_event (unforgeable secret) ⟨other,known,rfl⟩ ⟨paid,presented,rfl⟩ verified
      attested.verified
  · intro other known hashes
    have pins := hashMetadata_pins free ⟨other,known,rfl⟩ ⟨invoice,here,rfl⟩
      (hashes.trans payloadHash.symm)
    exact ⟨pins.1.trans named,pins.2⟩
  · rw [world,next_storage ran]
    rcases segment_settling ran with unchanged | ⟨-,_,_,_,-,-,-,after⟩
    · rw [unchanged]
    · rw [after]

theorem hasSettled_later (later : List Event) {call : Call} {i : Nat}
    (found : (world host configured past).calls[i]? = some call) (settled : call.await.hasSettled = true) :
    ∃ call' : Call, (world host configured (later ++ past)).calls[i]? = some call' ∧
      call'.await.hasSettled = true := by
  induction later with
  | nil => exact ⟨call,found,settled⟩
  | cons event later ih =>
    obtain ⟨between,found,settled⟩ := ih
    exact (hasSettled_next found settled).1

/-- A settlement call that changes the storage has settled an invoice. -/
theorem storage_settling
    (ran : (world host configured past).segment host configured event =
      some (.processSettlementEvent paid options,command))
    (changed : (world host configured (event :: past)).storage ≠
      (world host configured past).storage) :
    ∃ call : Call, (world host configured (event :: past)).calls[
      (world host configured past).caller event]? = some call ∧
      call.await.hasSettled = true := by
  rcases segment_settling ran with unchanged | ⟨settled,-⟩
  · rw [world,next_storage ran] at changed
    exact absurd unchanged changed
  · exact ⟨_,next_caller ran,settled⟩

/-- A settlement call changes no invoice but the one that it settles. -/
theorem settling_alone
    (ran : (world host configured past).segment host configured event =
      some (.processSettlementEvent paid options,command))
    (changed : (world host configured (event :: past)).storage.invoices.get other ≠
      (world host configured past).storage.invoices.get other) :
    Settles host configured past event other := by
  rcases segment_settling ran with
    unchanged | ⟨-,invoiceId,pending,settled,stored,waiting,final,after⟩
  · rw [world,next_storage ran,unchanged] at changed
    exact absurd rfl changed
  · rw [world,next_storage ran,after,JsMap.get_set] at changed
    by_cases same : other = invoiceId
    · subst same
      constructor
      · simp [World.isSettled,stored,waiting]
      · simp [World.isSettled,world,next_storage ran,after,JsMap.get_set,final]
    · rw [if_neg same] at changed
      exact absurd rfl changed

theorem settles_changes (settles : Settles host configured past event invoiceId) :
    (world host configured (event :: past)).storage ≠ (world host configured past).storage := by
  intro same
  have before := settles.1
  have after := settles.2
  rw [World.isSettled,same] at after
  simp [World.isSettled,after] at before

/-- A call that has settled settles no more. -/
theorem settles_once (between : List Event) {event' : Event}
    (ran : (world host configured past).segment host configured event =
      some (.processSettlementEvent paid options,command))
    (settles : Settles host configured past event invoiceId)
    (again : Settles host configured (between ++ event :: past) event' other) :
    (world host configured (between ++ event :: past)).caller event' ≠
      (world host configured past).caller event := by
  intro same
  obtain ⟨call,found,settled⟩ := storage_settling ran (settles_changes settles)
  obtain ⟨call,found,settled⟩ := hasSettled_later between found settled
  exact settles_changes again ((hasSettled_next found settled).2 same.symm)

/-- Whenever an invoice becomes settled, an attested and final event pays exactly it; a call
settles at most one invoice, an invoice is settled once, and a call that ends otherwise has
changed nothing. No segment of a call changes an invoice that it does not settle. -/
theorem settlement_matching {events : List Event} (unique : UniqueIds events)
    (free : CollisionFree host.sha256 (payloadTexts host configured events))
    (unforgeable : ∀ secret, CollisionFree (host.hmacSha256 secret) (presentedTexts events)) :
    (∀ past event invoiceId, event :: past <:+ events →
      Settles host configured past event invoiceId → ∃ paid options invoice,
        PaidBy host configured events past event invoiceId paid options invoice) ∧
    (∀ past event between event' invoiceId other,
      event' :: (between ++ event :: past) <:+ events →
      Settles host configured past event invoiceId →
      Settles host configured (between ++ event :: past) event' other →
      (world host configured (between ++ event :: past)).caller event' ≠
        (world host configured past).caller event ∧ other ≠ invoiceId) ∧
    (∀ past event later paid options command operation outcome,
      later ++ event :: past <:+ events →
      (world host configured past).segment host configured event =
        some (.processSettlementEvent paid options,command) →
      (world host configured (later ++ event :: past)).calls[
        (world host configured past).caller event]? = some ⟨operation,.done outcome⟩ →
      (∀ invoiceId, outcome ≠ .settled invoiceId) →
      (world host configured (event :: past)).storage = (world host configured past).storage) ∧
    (∀ past event paid options command other, event :: past <:+ events →
      (world host configured past).segment host configured event =
        some (.processSettlementEvent paid options,command) →
      (world host configured (event :: past)).storage.invoices.get other ≠
        (world host configured past).storage.invoices.get other →
      Settles host configured past event other) := by
  refine ⟨fun past event invoiceId => settles_paid unique free unforgeable,?_,?_,
    fun past event paid options command other _ => settling_alone⟩
  · intro past event between event' invoiceId other within settles again
    have first : event :: past <:+ events :=
      ((List.suffix_append between _).trans (List.suffix_cons event' _)).trans within
    obtain ⟨paid,options,invoice,rests⟩ := settles_paid unique free unforgeable first settles
    obtain ⟨paid',options',renewed,rests'⟩ := settles_paid unique free unforgeable within again
    obtain ⟨command,ran⟩ := rests.segment
    refine ⟨settles_once between ran settles again,?_⟩
    rintro rfl
    obtain ⟨whole,rfl⟩ := within
    obtain ⟨settled,stored,status⟩ := (Option.any_eq_true _ _).mp settles.2
    have unmoved := (stored_becomes between (event :: past) (List.nodup_cons.mp unique.past).2 stored
      rests'.stored).unmoved rests'.pending
    simp [unmoved,rests'.pending] at status
  · intro past event later paid options command operation outcome within ran ended rejected
    by_contra changed
    obtain ⟨call,found,settled⟩ := storage_settling ran changed
    obtain ⟨call,found,settled⟩ := hasSettled_later later found settled
    rw [ended,Option.some.injEq] at found
    subst found
    cases outcome with
    | settled invoiceId => exact rejected invoiceId rfl
    | _ => simp [Await.hasSettled] at settled

theorem paidRun_invoice (stored : StoredIn shopHost (some shopSecret) paidRun invoice) :
    payloadText invoice.metadata invoice.invoiceId = payloadText none shopInvoiceId := by
  obtain ⟨past,invoiceId,within,stored⟩ := stored
  have all : ∀ past ∈ paidRun.tails,
      ∀ entry ∈ (world shopHost (some shopSecret) past).storage.invoices.entries,
        entry.2.metadata = none ∧ entry.2.invoiceId = shopInvoiceId := by decide +kernel
  obtain ⟨plain,named⟩ := all past ((List.mem_tails _ _).mpr within) (invoiceId,invoice)
    ((JsMap.mem_entries_iff _ _ _).mpr stored)
  rw [plain,named]

theorem paidRun_matched : ∃ paid options invoice,
    PaidBy shopHost (some shopSecret) paidRun (paidRun.drop 2)
      (.resume 1 (shopInputs 1767225700000 7)) shopInvoiceId paid options invoice := by
  refine (settlement_matching (by unfold UniqueIds; decide +kernel) ?_ ?_).1 _ _ _
    (List.suffix_cons _ _) ⟨by decide +kernel,by decide +kernel⟩
  · rintro text ⟨invoice,stored,rfl⟩ other ⟨invoice',stored',rfl⟩ - - -
    rw [paidRun_invoice stored,paidRun_invoice stored']
  · rintro secret text ⟨paid,⟨options,inputs,member⟩,rfl⟩ other ⟨paid',⟨options',inputs',member'⟩,rfl⟩
      - - -
    simp [paidRun] at member member'
    rw [member.1.1,member'.1.1]

end Runs
end Tonbankcard.MerchantApi
