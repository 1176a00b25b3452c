import Tonbankcard.InvoiceServiceRuns

/-! The life of an invoice over any run of the service: an invoice that a call holds is an
earlier version of the stored one, so a settlement pays the invoice it has matched. -/
namespace Tonbankcard.MerchantApi

open EcmaScript

/-- An invoice and what can be stored in its place later. -/
def Invoice.Becomes (earlier later : Invoice) : Prop :=
  earlier = later ∨ (earlier.status = .pending ∧ later.status ≠ .pending ∧
    later = {earlier with status := later.status,settlement := later.settlement})

theorem Invoice.Becomes.trans {a b c : Invoice} (first : a.Becomes b) (second : b.Becomes c) :
    a.Becomes c := by
  rcases first with rfl | ⟨pending,moved,same⟩
  · exact second
  · rcases second with rfl | ⟨contrary,-⟩
    · exact .inr ⟨pending,moved,same⟩
    · exact absurd contrary moved

/-- An invoice that has left pending becomes nothing else. -/
theorem Invoice.Becomes.final {a b : Invoice} (becomes : a.Becomes b)
    (moved : a.status ≠ .pending) : a = b := by
  rcases becomes with same | ⟨pending,-⟩
  · exact same
  · exact absurd pending moved

/-- An invoice that is pending by now was the same all the time. -/
theorem Invoice.Becomes.unmoved {a b : Invoice} (becomes : a.Becomes b)
    (pending : b.status = .pending) : a = b := by
  rcases becomes with same | ⟨-,moved,-⟩
  · exact same
  · exact absurd pending moved

theorem Invoice.Becomes.named {a b : Invoice} (becomes : a.Becomes b) :
    b.invoiceId = a.invoiceId := by
  rcases becomes with rfl | ⟨-,-,same⟩
  · rfl
  · rw [same]

abbrev Invoices := JsMap JsString Invoice

/-- A snapshot of an issued invoice, up to date but for what the stored one has become. -/
structure Faithful (issued : List JsString) (invoices : Invoices) (snapshot : Snapshot) : Prop where
  named : snapshot.2.invoiceId = snapshot.1
  issued : snapshot.1 ∈ issued
  becomes : ∀ current, invoices.get snapshot.1 = some current → snapshot.2.Becomes current

/-- What one segment can do to the stored invoices. -/
inductive Changed (host : Host) (operation : Operation) (inputs : Inputs) (final : Int → Prop)
    (command : Command) (before : Invoices) : Invoices → Prop where
  | kept : Changed host operation inputs final command before before
  | created (creates : operation = .createInvoice request merchantApiKey)
      (named : invoice.invoiceId = inputs.invoiceId) (pending : invoice.status = .pending) :
      Changed host operation inputs final command before (before.set invoice.invoiceId invoice)
  | lapsed (stored : before.get invoiceId = some invoice) (pending : invoice.status = .pending) :
      Changed host operation inputs final command before
        (before.set invoiceId {invoice with status := .expired})
  | settled (settles : operation = .processSettlementEvent event options)
      (checked : final confirmations) (stored : before.get invoiceId = some invoice)
      (named : invoice.invoiceId = invoiceId)
      (pays : matchesEvent host event invoice = true) :
      Changed host operation inputs final command before (before.set invoiceId
        {invoice with
          status := .settled
          settlement := some (settlementOf event confirmations timestamp)})
  | withdrawn (creates : operation = .createInvoice request merchantApiKey)
      (deletes : command = .delete invoiceId next) :
      Changed host operation inputs final command before (before.delete invoiceId)
  | removed (cleans : operation = .cleanupExpiredInvoices)
      (expired : ∀ invoice, before.get invoiceId = some invoice → invoice.status = .expired) :
      Changed host operation inputs final command before (before.delete invoiceId)

section Steps
variable {host : Host} {configured : Option JsString} {operation : Operation} {inputs : Inputs}
variable {final : Int → Prop} {held : List Snapshot} {issued : List JsString} {s : Storage}

theorem transition_none {target : InvoiceStatus} {settlement : Option Settlement}
    (refused : (s.transition invoiceId target settlement now).2 = none) :
    (s.transition invoiceId target settlement now).1 = s := by
  unfold Storage.transition at *
  split
  · rfl
  · split
    · rfl
    · split
      · rfl
      · simp_all

/-- A transition that is made finds a pending invoice. -/
theorem transition_some {target : InvoiceStatus} {settlement : Option Settlement}
    (made : (s.transition invoiceId target settlement now).2 = some updated) :
    ∃ current, s.invoices.get invoiceId = some current ∧ current.status = .pending ∧
      updated = {current with status := target,settlement := settlement.or current.settlement} ∧
      (s.transition invoiceId target settlement now).1 =
        {s with invoices := s.invoices.set invoiceId updated} := by
  unfold Storage.transition at *
  split
  · simp_all
  · rename_i current found
    rw [found] at made
    dsimp only at made
    split at made
    · simp at made
    · rename_i pending
      split at made
      · simp at made
      · rename_i timely
        obtain rfl := Option.some.inj made
        exact ⟨current,found,not_not.mp pending,rfl,by rw [if_neg pending,if_neg timely]⟩

theorem lookup_invoices (key : JsString) (now : Int) :
    (s.lookup key now).1.invoices = s.invoices := by
  unfold Storage.lookup
  split
  · rfl
  · split <;> rfl

theorem setIfAbsent_invoices (key : JsString) (record : IdempotencyRecord) (now : Int) :
    (s.setIfAbsent key record now).1.invoices = s.invoices := by
  unfold Storage.setIfAbsent
  split
  · rfl
  · split <;> rfl

theorem matchesEvent_pending {event : SettlementEvent}
    (pays : matchesEvent host event invoice = true) : invoice.status = .pending := by
  simp only [matchesEvent,Bool.and_eq_true,decide_eq_true_eq] at pays
  exact pays.1.1.1

/-- What an issued command does to the stored invoices. -/
theorem perform_changed (ran : Issued host operation inputs final held command)
    (faithful : ∀ snapshot ∈ held, Faithful issued s.invoices snapshot) (now : Int) :
    Changed host operation inputs final command s.invoices (command.perform now s).1.invoices := by
  cases ran with
  | wait => exact .kept
  | get => exact .kept
  | entries => exact .kept
  | drop => exact .kept
  | lookup =>
    simp only [Command.perform,Prod.map,id_eq,lookup_invoices]
    exact .kept
  | setIfAbsent =>
    simp only [Command.perform,Prod.map,id_eq,setIfAbsent_invoices]
    exact .kept
  | generated creates named pending within => exact .created creates named pending
  | withdrawn creates within => exact .withdrawn creates rfl
  | removed cleans member expired within =>
    refine .removed cleans fun current stored => ?_
    have same := ((faithful _ member).becomes current stored).final (by simp [expired])
    rw [← same]
    exact expired
  | @lapsed invoiceId next within =>
    simp only [Command.perform,Prod.map,id_eq]
    cases made : (s.transition invoiceId .expired none now).2 with
    | none =>
      rw [transition_none made]
      exact .kept
    | some updated =>
      obtain ⟨current,stored,pending,rfl,after⟩ := transition_some made
      rw [after]
      exact .lapsed stored pending
  | @settled event options confirmations invoiceId invoice next timestamp settles checked member
      pays within =>
    simp only [Command.perform,Prod.map,id_eq]
    cases made : (s.transition invoice.invoiceId .settled
        (some (settlementOf event confirmations timestamp)) now).2 with
    | none =>
      rw [transition_none made]
      exact .kept
    | some updated =>
      obtain ⟨current,stored,pending,rfl,after⟩ := transition_some made
      have keyed := (faithful _ member).named
      obtain rfl := ((faithful _ member).becomes current (keyed ▸ stored)).unmoved pending
      rw [after]
      exact .settled settles checked stored rfl pays

/-- Where a stored invoice comes from: it was stored before, or its segment created it. -/
theorem changed_origin {before after : Invoices}
    (changed : Changed host operation inputs final command before after)
    (stored : after.get invoiceId = some invoice) :
    (∃ earlier, before.get invoiceId = some earlier ∧ earlier.Becomes invoice) ∨
      (invoiceId = inputs.invoiceId ∧ invoice.invoiceId = invoiceId ∧
        invoice.status = .pending) := by
  cases changed with
  | kept => exact .inl ⟨invoice,stored,.inl rfl⟩
  | created creates named pending =>
    rw [JsMap.get_set] at stored
    split at stored
    · obtain rfl := Option.some.inj stored
      rename_i same
      exact .inr ⟨same.trans named,same.symm,pending⟩
    · exact .inl ⟨invoice,stored,.inl rfl⟩
  | lapsed found pending =>
    rw [JsMap.get_set] at stored
    split at stored
    · obtain rfl := Option.some.inj stored
      rename_i same
      exact .inl ⟨_,same ▸ found,.inr ⟨pending,by simp,rfl⟩⟩
    · exact .inl ⟨invoice,stored,.inl rfl⟩
  | settled settles checked found named pays =>
    rw [JsMap.get_set] at stored
    split at stored
    · obtain rfl := Option.some.inj stored
      rename_i same
      exact .inl ⟨_,same ▸ found,.inr ⟨matchesEvent_pending pays,by simp,rfl⟩⟩
    · exact .inl ⟨invoice,stored,.inl rfl⟩
  | withdrawn | removed =>
    rw [JsMap.get_delete] at stored
    split at stored
    · simp at stored
    · exact .inl ⟨invoice,stored,.inl rfl⟩

theorem Faithful.after {before after : Invoices} (faithful : Faithful issued before snapshot)
    (changed : Changed host operation inputs final command before after)
    (fresh : inputs.invoiceId ∉ issued) :
    Faithful (inputs.invoiceId :: issued) after snapshot := by
  refine ⟨faithful.named,List.mem_cons_of_mem _ faithful.issued,fun current stored => ?_⟩
  rcases changed_origin changed stored with ⟨earlier,found,becomes⟩ | ⟨same,-⟩
  · exact (faithful.becomes earlier found).trans becomes
  · exact absurd (same ▸ faithful.issued) fresh

/-- What a call holds after its command, it held before or it is stored now. -/
theorem perform_held (ran : Issued host operation inputs final held command) (now : Int) :
    (∀ snapshot ∈ (command.perform now s).2.snapshots, snapshot ∈ held ∨
      (command.perform now s).1.invoices.get snapshot.1 = some snapshot.2) ∧
    ∀ confirmations, (command.perform now s).2.confirmations = some confirmations →
      final confirmations := by
  have keeps {next : Await} {invoices : Invoices} (within : Within final held next) :
      (∀ snapshot ∈ next.snapshots, snapshot ∈ held ∨
        invoices.get snapshot.1 = some snapshot.2) ∧
      ∀ confirmations, next.confirmations = some confirmations → final confirmations :=
    ⟨fun snapshot member => .inl (within.snapshots member),within.checked⟩
  have reads {next : Await} {invoices : Invoices} {invoiceId : JsString}
      {found : Option Invoice} (within : Within final (readAt invoiceId found ++ held) next)
      (stored : ∀ invoice, found = some invoice → invoices.get invoiceId = some invoice) :
      (∀ snapshot ∈ next.snapshots, snapshot ∈ held ∨
        invoices.get snapshot.1 = some snapshot.2) ∧
      ∀ confirmations, next.confirmations = some confirmations → final confirmations := by
    refine ⟨fun snapshot member => ?_,within.checked⟩
    rcases List.mem_append.mp (within.snapshots member) with fetched | kept
    · obtain ⟨invoice,here,rfl⟩ := List.mem_map.mp fetched
      exact .inr (stored invoice (Option.mem_toList.mp here))
    · exact .inl kept
  cases ran with
  | wait within => exact keeps within
  | drop within => exact keeps within
  | generated creates named pending within => exact keeps within
  | withdrawn creates within => exact keeps within
  | removed cleans member expired within => exact keeps within
  | lookup within => exact keeps (within _)
  | setIfAbsent within => exact keeps (within _)
  | settled settles checked member pays within => exact keeps (within _)
  | get within => exact reads (within _) fun _ found => found
  | @lapsed invoiceId next within =>
    refine reads (within _) fun updated made => ?_
    obtain ⟨current,stored,pending,-,after⟩ := transition_some made
    simp only [Command.perform,Prod.map,id_eq,after,JsMap.get_set,if_pos]
  | entries within =>
    refine ⟨fun snapshot member => ?_,(within _).checked⟩
    rcases List.mem_append.mp ((within _).snapshots member) with stored | kept
    · exact .inr ((JsMap.mem_entries_iff _ _ _).mp stored)
    · exact .inl kept

/-- What every run keeps: stored invoices and those that calls hold are faithful, and what a
settlement call goes on with was checked. -/
structure Coherent (host : Host) (configured : Option JsString) (issued : List JsString)
    (w : World) : Prop where
  stored : ∀ invoiceId invoice, w.storage.invoices.get invoiceId = some invoice →
    Faithful issued w.storage.invoices (invoiceId,invoice)
  held : ∀ (i : Nat) (call : Call), w.calls[i]? = some call →
    ∀ snapshot ∈ call.await.snapshots, Faithful issued w.storage.invoices snapshot
  checked : ∀ (i : Nat) (call : Call), w.calls[i]? = some call →
    ∀ confirmations, call.await.confirmations = some confirmations →
      Final host configured call.operation confirmations

variable {w : World} {event : Event}

theorem segment_issued (coherent : Coherent host configured issued w)
    (ran : w.segment host configured event = some (operation,command)) :
    ∃ held, (∀ snapshot ∈ held, Faithful issued w.storage.invoices snapshot) ∧
      Issued host operation event.inputs (Final host configured operation) held command := by
  rcases segment_cases ran with ⟨-,rfl⟩ | ⟨call,found,rfl,rfl⟩
  · exact ⟨[],by simp,begin_issued operation⟩
  · exact ⟨call.await.snapshots,coherent.held _ call found,
      resume_issued call _ ⟨List.Subset.refl _,coherent.checked _ call found⟩⟩

/-- What an event does to the stored invoices. -/
theorem next_changed (coherent : Coherent host configured issued w)
    (ran : w.segment host configured event = some (operation,command)) :
    Changed host operation event.inputs (Final host configured operation) command
      w.storage.invoices (w.next host configured event).storage.invoices := by
  obtain ⟨held,faithful,ranAs⟩ := segment_issued coherent ran
  rw [next_storage ran]
  exact perform_changed ranAs faithful _

theorem Coherent.next (coherent : Coherent host configured issued w)
    (fresh : event.inputs.invoiceId ∉ issued) :
    Coherent host configured (event.inputs.invoiceId :: issued)
      (w.next host configured event) := by
  cases ran : w.segment host configured event with
  | none =>
    have more {snapshot : Snapshot} (faithful : Faithful issued w.storage.invoices snapshot) :
        Faithful (event.inputs.invoiceId :: issued) w.storage.invoices snapshot :=
      ⟨faithful.named,List.mem_cons_of_mem _ faithful.issued,faithful.becomes⟩
    rw [next_idle ran]
    exact ⟨fun invoiceId invoice stored => more (coherent.stored invoiceId invoice stored),
      fun i call found snapshot member => more (coherent.held i call found snapshot member),
      coherent.checked⟩
  | some segment =>
    obtain ⟨operation,command⟩ := segment
    have changed := next_changed coherent ran
    have stored : ∀ invoiceId invoice,
        (w.next host configured event).storage.invoices.get invoiceId = some invoice →
        Faithful (event.inputs.invoiceId :: issued)
          (w.next host configured event).storage.invoices (invoiceId,invoice) := by
      intro invoiceId invoice stored
      have same : ∀ current,
          (w.next host configured event).storage.invoices.get invoiceId = some current →
          invoice.Becomes current := by
        intro current again
        exact .inl (Option.some.inj (stored.symm.trans again))
      rcases changed_origin changed stored with ⟨earlier,found,becomes⟩ | ⟨here,named,-⟩
      · have faithful := coherent.stored invoiceId earlier found
        exact ⟨becomes.named.trans faithful.named,List.mem_cons_of_mem _ faithful.issued,same⟩
      · exact ⟨named,here ▸ List.mem_cons_self,same⟩
    obtain ⟨held,faithful,ranAs⟩ := segment_issued coherent ran
    obtain ⟨keeps,checked⟩ := perform_held (s := w.storage) ranAs event.inputs.storageNow
    refine ⟨stored,fun i call found => ?_,fun i call found => ?_⟩
    · by_cases caller : i = w.caller event
      · rw [caller,next_caller ran,Option.some.injEq] at found
        subst found
        intro snapshot member
        rcases keeps snapshot member with before | now
        · exact (faithful snapshot before).after changed fresh
        · rw [← next_storage ran] at now
          exact stored _ _ now
      · rw [next_others caller] at found
        exact fun snapshot member => (coherent.held i call found snapshot member).after changed fresh
    · by_cases caller : i = w.caller event
      · rw [caller,next_caller ran,Option.some.injEq] at found
        subst found
        exact checked
      · rw [next_others caller] at found
        exact coherent.checked i call found

end Steps

section Runs
variable {host : Host} {configured : Option JsString}

theorem world_coherent (unique : UniqueIds events) :
    Coherent host configured (events.map (·.inputs.invoiceId)) (world host configured events) := by
  induction events with
  | nil => exact ⟨by simp [world],by simp [world],by simp [world]⟩
  | cons event past ih =>
    obtain ⟨fresh,unique⟩ := List.nodup_cons.mp unique
    exact (ih unique).next fresh

end Runs
end Tonbankcard.MerchantApi
