import Mathlib.Data.List.Infix
import Tonbankcard.InvoiceServiceSettlement

/-! Once settled, an invoice stays: only `createInvoice` can delete it, when it drops the
invoice of a record that it has read as stale, or its own candidate. -/
namespace Tonbankcard.MerchantApi

open EcmaScript

/-- The invoice that a call of `createInvoice` deletes in its next segment. -/
def Await.doomed : Await → Option JsString
  | .keyDropped _ _ existingEntry => some existingEntry.invoiceId
  | .published _ _ invoice (some _) => some invoice.invoiceId
  | .keyCleared _ existingRecord (some _) => some existingRecord.invoiceId
  | _ => none

def World.isSettled (w : World) (invoiceId : JsString) : Bool :=
  (w.storage.invoices.get invoiceId).any fun invoice => invoice.status = .settled

/-- Whether no settled invoice is the one that the resumed `createInvoice` deletes. -/
def World.spares (w : World) (event : Event) : Bool :=
  match w.calls[w.caller event]? with
  | some ⟨.createInvoice ..,await⟩ => !await.doomed.any w.isSettled
  | _ => true

section Sparing
variable (host : Host) (configured : Option JsString)

/-- A run in which every segment spares the settled invoices. -/
def sparing : List Event → Bool
  | [] => true
  | event :: past => (world host configured past).spares event && sparing past

/-- A settled invoice stays as it is, and a status moves from pending only. -/
def Permanent (events : List Event) : Prop :=
  ∀ past moment invoiceId invoice, past <:+ moment → moment <:+ events →
    (world host configured past).storage.invoices.get invoiceId = some invoice →
    (invoice.status = .settled →
      (world host configured moment).storage.invoices.get invoiceId = some invoice) ∧
    ∀ current, (world host configured moment).storage.invoices.get invoiceId = some current →
      current.status = invoice.status ∨
        (invoice.status = .pending ∧ (current.status = .settled ∨ current.status = .expired))

end Sparing

section Permanence
variable {host : Host} {configured : Option JsString}

theorem resumeCreateInvoice_deletes {await : Await} {inputs : Inputs}
    (deletes : resumeCreateInvoice host await inputs = .delete invoiceId next) :
    await.doomed = some invoiceId := by
  have begins (request : CreateInvoiceRequest) :
      beginCreateInvoice request inputs ≠ .delete invoiceId next := by
    unfold beginCreateInvoice
    split <;> exact nofun
  unfold resumeCreateInvoice at deletes
  split at deletes
  · split at deletes <;> exact nomatch deletes
  · split at deletes <;> exact nomatch deletes
  · exact nomatch deletes
  · exact nomatch deletes
  · exact nomatch deletes
  · split at deletes <;> exact nomatch deletes
  · exact congrArg some (Command.delete.inj deletes).1
  · exact nomatch deletes
  · exact nomatch deletes
  · exact nomatch deletes
  · exact congrArg some (Command.delete.inj deletes).1
  · exact nomatch deletes
  · split at deletes <;> exact nomatch deletes
  · exact nomatch deletes
  · exact congrArg some (Command.delete.inj deletes).1
  · exact absurd deletes (begins _)
  · exact absurd deletes (begins _)
  · exact nomatch deletes

/-- A segment that spares the settled invoices deletes none of them. -/
theorem spared_delete {w : World} {event : Event} (spares : w.spares event = true)
    (ran : w.segment host configured event =
      some (.createInvoice request merchantApiKey,.delete invoiceId next)) :
    w.isSettled invoiceId = false := by
  rcases segment_cases ran with ⟨-,begins⟩ | ⟨⟨operation,await⟩,found,rfl,resumes⟩
  · simp only [Operation.begin,beginCreateInvoice] at begins
    split at begins <;> exact nomatch begins
  · have doomed := resumeCreateInvoice_deletes resumes.symm
    simpa [World.spares,found,doomed] using spares

variable {past : List Event} {event : Event}

theorem stored_issued (unique : UniqueIds past)
    (stored : (world host configured past).storage.invoices.get invoiceId = some invoice) :
    invoiceId ∈ past.map (·.inputs.invoiceId) :=
  ((world_coherent unique).stored invoiceId invoice stored).issued

theorem settled_kept (unique : UniqueIds (event :: past))
    (spares : (world host configured past).spares event = true)
    (stored : (world host configured past).storage.invoices.get invoiceId = some invoice)
    (settled : invoice.status = .settled) :
    (world host configured (event :: past)).storage.invoices.get invoiceId = some invoice := by
  obtain ⟨fresh,unique⟩ := List.nodup_cons.mp unique
  cases ran : (world host configured past).segment host configured event with
  | none =>
    rw [world,next_idle ran]
    exact stored
  | some segment =>
    obtain ⟨operation,command⟩ := segment
    have changed := next_changed (world_coherent unique) ran
    have issued := stored_issued unique stored
    rw [world]
    generalize ((world host configured past).next host configured event).storage.invoices =
      after at changed
    cases changed with
    | kept => exact stored
    | created creates named pending =>
      rw [JsMap.get_set]
      split
      · rename_i same
        rw [same,named] at issued
        exact absurd issued fresh
      · exact stored
    | lapsed found pending =>
      rw [JsMap.get_set]
      split
      · rename_i same
        rw [same,found,Option.some.injEq] at stored
        simp [stored,settled] at pending
      · exact stored
    | settled settles checked found named pays =>
      rw [JsMap.get_set]
      split
      · rename_i same
        rw [same,found,Option.some.injEq] at stored
        have pending := matchesEvent_pending pays
        simp [stored,settled] at pending
      · exact stored
    | withdrawn creates deletes =>
      subst creates deletes
      rw [JsMap.get_delete]
      split
      · rename_i same
        have spared := spared_delete spares ran
        simp [World.isSettled,← same,stored,settled] at spared
      · exact stored
    | removed cleans expired =>
      rw [JsMap.get_delete]
      split
      · rename_i same
        simp [expired invoice (same ▸ stored)] at settled
      · exact stored

/-- The invoices stored under one id at two moments: the later is what the earlier became. -/
theorem stored_becomes (later past : List Event) (unique : UniqueIds (later ++ past))
    (stored : (world host configured past).storage.invoices.get invoiceId = some invoice)
    (now : (world host configured (later ++ past)).storage.invoices.get invoiceId =
      some current) : invoice.Becomes current := by
  induction later generalizing current with
  | nil => exact .inl (Option.some.inj (stored.symm.trans now))
  | cons event later ih =>
    have issued := stored_issued unique.past stored
    obtain ⟨fresh,unique⟩ := List.nodup_cons.mp unique
    cases ran : (world host configured (later ++ past)).segment host configured event with
    | none =>
      rw [List.cons_append,world,next_idle ran] at now
      exact ih unique now
    | some segment =>
      have changed := next_changed (world_coherent unique) ran
      rcases changed_origin changed now with ⟨earlier,found,becomes⟩ | ⟨created,-⟩
      · exact (ih unique found).trans becomes
      · have drawn : event.inputs.invoiceId ∈ (later ++ past).map (·.inputs.invoiceId) := by
          rw [← created,List.map_append]
          exact List.mem_append_right _ issued
        exact absurd drawn fresh

theorem settled_kept_later (later past : List Event) (unique : UniqueIds (later ++ past))
    (spares : sparing host configured (later ++ past) = true)
    (stored : (world host configured past).storage.invoices.get invoiceId = some invoice)
    (settled : invoice.status = .settled) :
    (world host configured (later ++ past)).storage.invoices.get invoiceId = some invoice := by
  induction later with
  | nil => exact stored
  | cons event later ih =>
    obtain ⟨here,before⟩ := Bool.and_eq_true_iff.mp spares
    exact settled_kept unique here (ih (List.nodup_cons.mp unique).2 before) settled

theorem sparing_past (later past : List Event)
    (spares : sparing host configured (later ++ past) = true) :
    sparing host configured past = true := by
  induction later with
  | nil => exact spares
  | cons event later ih => exact ih (Bool.and_eq_true_iff.mp spares).2

/-- A run that spares the settled invoices keeps each as it is, and moves no status but from
pending. -/
theorem settlement_permanence {events : List Event} (unique : UniqueIds events)
    (spares : sparing host configured events = true) : Permanent host configured events := by
  rintro past moment invoiceId invoice ⟨later,rfl⟩ ⟨rest,rfl⟩ stored
  have unique := unique.past
  refine ⟨settled_kept_later later past unique (sparing_past rest _ spares) stored,?_⟩
  intro current now
  rcases stored_becomes later past unique stored now with rfl | ⟨pending,moved,-⟩
  · exact .inl rfl
  · refine .inr ⟨pending,?_⟩
    cases status : current.status with
    | pending => exact absurd status moved
    | settled => exact .inl rfl
    | expired => exact .inr rfl

end Permanence

section Shop

def randomId (random : Nat) : JsString := js "inv_" ++ fixedDigits 16 16 random

def shopInvoiceId : JsString := randomId 0x0123456789abcdef

/-- The text of a time in January 2026. -/
def januaryText (time : Int) : JsString :=
  let since := (time - 1767225600000).toNat
  js "2026-01-" ++ fixedDigits 10 2 (since / 86400000 + 1) ++
    js "T" ++ fixedDigits 10 2 (since / 3600000 % 24) ++
    js ":" ++ fixedDigits 10 2 (since / 60000 % 60) ++
    js ":" ++ fixedDigits 10 2 (since / 1000 % 60) ++
    js "." ++ fixedDigits 10 3 (since % 1000) ++ js "Z"

/-- SHA-256 and HMAC-SHA256 with their values on the texts of the runs below. -/
def shopHost : Host where
  sha256 text :=
    if text = payloadText none shopInvoiceId then
      0x74172640422b63d933fa33ee140a365cb4ec09cd30a6ca63a956a0be3a3cbe0b#256
    else 0xb8318e55bf41ce4eeb599864b56c8b66c691f622700d10fedfb4d81aeb2e8da9#256
  hmacSha256 _ _ := 0x2c5634def5e6db190ab3a71d0ff9f33092e107d90c8297f288d44e1348644f8f#256
  isoText := januaryText

def shopSecret : JsString := js "settlement-indexer-secret-000001"

def shopRequest : CreateInvoiceRequest where
  merchantNft := js "EQAjHkHtt1MIoU5c7dks73Rz8NMxAA3oStSrcQ_qgn3il-Le"
  amountTbc := js "1000000000"
  currency := js "TBC"
  metadata := none
  expiresAt := none

def shopEvent : SettlementEvent where
  payerNft := js "EQBedyJo8oEKJEmGUaxPELXM8dQUzXN3QYx7e8WBsfu9aVQ7"
  merchantNft := js "EQAjHkHtt1MIoU5c7dks73Rz8NMxAA3oStSrcQ_qgn3il-Le"
  amountTbc := js "1000000000"
  payloadHash := hexDigest 0x74172640422b63d933fa33ee140a365cb4ec09cd30a6ca63a956a0be3a3cbe0b#256
  blockNumber := 100
  txHash := js "5f1c"
  timestamp := 1767225660

def shopOptions : ProcessSettlementOptions where
  attestation :=
    some (hexDigest 0x2c5634def5e6db190ab3a71d0ff9f33092e107d90c8297f288d44e1348644f8f#256)
  currentBlockNumber := some 106
  indexerSecret := none

def shopInputs (now : Int) (random : Nat) : Inputs where
  reads _ := now
  storageNow := now
  authorized := some true
  keyId := some (some (js "key_1"))
  invoiceId := randomId random
  nextKey := none

/-- An invoice is created at midnight and settled. -/
def paidRun : List Event :=
  [.resume 1 (shopInputs 1767225700000 8),
    .resume 1 (shopInputs 1767225700000 7),
    .start (.processSettlementEvent shopEvent shopOptions) (shopInputs 1767225700000 6),
    .resume 0 (shopInputs 1767225600040 5),
    .resume 0 (shopInputs 1767225600040 4),
    .resume 0 (shopInputs 1767225600000 0x0123456789abcdef),
    .resume 0 (shopInputs 1767225600000 2),
    .resume 0 (shopInputs 1767225600000 1),
    .start (.createInvoice shopRequest (js "sk_1")) (shopInputs 1767225600000 0)]

/-- The same request again, a day and a moment later. -/
def repeatedRun : List Event :=
  [.resume 2 (shopInputs 1767312000020 14),
    .resume 2 (shopInputs 1767312000020 13),
    .resume 2 (shopInputs 1767312000020 12),
    .resume 2 (shopInputs 1767312000020 11),
    .resume 2 (shopInputs 1767312000020 10),
    .start (.createInvoice shopRequest (js "sk_1")) (shopInputs 1767312000020 9)] ++ paidRun

theorem paidRun_settled :
    (world shopHost (some shopSecret) paidRun).isSettled shopInvoiceId = true := by
  decide +kernel

theorem paidRun_permanent : Permanent shopHost (some shopSecret) paidRun ∧
    (world shopHost (some shopSecret) paidRun).isSettled shopInvoiceId = true :=
  ⟨settlement_permanence (by unfold UniqueIds; decide +kernel) (by decide +kernel),
    paidRun_settled⟩

/-- The record outlives the invoice by a moment, and in that moment the second request deletes
the settled invoice. -/
theorem repeatedRun_deletes : UniqueIds repeatedRun ∧ Clocked repeatedRun ∧
    ¬ Permanent shopHost (some shopSecret) repeatedRun := by
  refine ⟨by unfold UniqueIds; decide +kernel,?_,?_⟩
  · simp [Clocked,repeatedRun,paidRun,Event.inputs,shopInputs]
  · intro permanent
    have gone : (world shopHost (some shopSecret) repeatedRun).storage.invoices.get
        shopInvoiceId = none := by decide +kernel
    obtain ⟨invoice,stored,status⟩ := (Option.any_eq_true _ _).mp paidRun_settled
    have kept := (permanent paidRun repeatedRun _ invoice ⟨_,rfl⟩ (List.suffix_refl _) stored).1
      (of_decide_eq_true status)
    simp [gone] at kept

end Shop
end Tonbankcard.MerchantApi
