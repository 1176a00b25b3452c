import Tonbankcard.LendingProtocolCoordinator

/-! The documented diagram of a lending intent over whole runs. Updates and cancellations follow it;
a registration follows it when it does not find an active intent. -/
namespace Tonbankcard.LendingProtocolCoordinator

open Ton NftOwnership

/-- The edges of the diagram, each with the message that takes it. -/
inductive Edge (nft : Address) (before : Option LendingIntentInfo) (after : LendingIntentInfo) :
    Message → Prop where
  | register (inactive : ∀ i, before = some i → i.intentState ≠ .active)
      (active : after.intentState = .active) :
      Edge nft before after (.registerLendingIntent nft collateralSignalAmount targetLender)
  | update (stored : before = some i) (was : i.intentState = .active)
      (active : after.intentState = .active) (created : after.createdAt = i.createdAt) :
      Edge nft before after (.updateLendingIntent nft collateralSignalAmount targetLender)
  | cancel (stored : before = some i) (was : i.intentState = .active)
      (cancelled : after.intentState = .cancelled)
      (amount : after.collateralSignalAmount = i.collateralSignalAmount)
      (lender : after.targetLender = i.targetLender) (created : after.createdAt = i.createdAt) :
      Edge nft before after (.cancelLendingIntent nft)

/-- A changed intent took an edge on a message of the registered owner. -/
structure Follows (entry : Entry) (nft : Address) : Prop where
  owner : entry.before.nftOwners.get nft = some entry.input.context.sender
  edge : ∃ after, entry.after.lendingIntents.get nft = some after ∧
    Edge nft (entry.before.lendingIntents.get nft) after entry.input.message

def isRefusal : Action Body → Bool
  | .send parameters =>
    match parameters.body with
    | .lendingIntentResponse success .. => !success
    | _ => false
  | .emit _ => false

/-- A message that aborts or is answered with an error. -/
def Rejected (s : State) (d : Delivery Message) : Prop :=
  ∀ next actions, deliver receive s d = some (next,actions) → actions.any isRefusal = true

/-- What the state machine promises of a run. -/
structure Lawful (initial : State) (deliveries : List (Delivery Message)) : Prop where
  diagram : ∀ entry ∈ journal initial deliveries, ∀ nft,
    entry.after.lendingIntents.get nft ≠ entry.before.lendingIntents.get nft → Follows entry nft
  dated : ∀ past, past <:+ deliveries → ∀ nft i,
    (run initial past).lendingIntents.get nft = some i → i.createdAt ≤ i.updatedAt
  rejected : ∀ d past, d :: past <:+ deliveries → Rejected (run initial past) d →
    run initial (d :: past) = run initial past

/-- A registration that is carried out finds no active intent, unless it is the very record that
the registration writes. -/
def FreshRegistrations (entries : List Entry) : Prop :=
  ∀ entry ∈ entries, ∀ nft collateralSignalAmount targetLender,
    entry.input.message = .registerLendingIntent nft collateralSignalAmount targetLender →
    entry.before.nftOwners.get nft = some entry.input.context.sender →
    0 ≤ collateralSignalAmount →
    ∀ i, entry.before.lendingIntents.get nft = some i → i.intentState = .active →
      i = ⟨.active,collateralSignalAmount,targetLender,entry.input.context.now,
        entry.input.context.now⟩

section Steps
variable {self next : State} {nft : Address} {d : Delivery Message}

theorem putIntent_get (self : State) (nftAddress nft : Address) (i : LendingIntentInfo) :
    (self.putIntent nftAddress i).lendingIntents.get nft =
      if nft = nftAddress then some i else self.lendingIntents.get nft := FiniteMap.get_set ..

/-- A write changes only its own account. -/
theorem putIntent_changed {nftAddress : Address}
    (changed : (self.putIntent nftAddress i).lendingIntents.get nft ≠ self.lendingIntents.get nft) :
    nft = nftAddress ∧ self.lendingIntents.get nftAddress ≠ some i ∧
      (self.putIntent nftAddress i).lendingIntents.get nft = some i := by
  rw [putIntent_get] at changed ⊢
  split at changed
  next same =>
    subst same
    exact ⟨rfl,fun held => changed held.symm,if_pos rfl⟩
  next apart => exact absurd rfl changed

theorem effect_follows {entries : List Entry} (fresh : FreshRegistrations entries)
    (member : ⟨self,d,next,actions⟩ ∈ entries)
    (effect : Effect d.context self d.message next actions)
    (changed : next.lendingIntents.get nft ≠ self.lendingIntents.get nft) :
    Follows ⟨self,d,next,actions⟩ nft := by
  obtain ⟨env,msg,commits⟩ := d
  cases effect with
  | ownerRegistered owners => exact absurd rfl changed
  | refused => exact absurd rfl changed
  | registered owner natural =>
    obtain ⟨rfl,other,stored⟩ := putIntent_changed changed
    refine ⟨owner,_,stored,.register ?_ rfl⟩
    intro i held active
    exact other (fresh _ member _ _ _ rfl owner natural i held active ▸ held)
  | cancelled owner held active =>
    obtain ⟨rfl,-,stored⟩ := putIntent_changed changed
    exact ⟨owner,_,stored,.cancel held active rfl rfl rfl rfl⟩
  | updated owner natural held active =>
    obtain ⟨rfl,-,stored⟩ := putIntent_changed changed
    exact ⟨owner,_,stored,.update held active rfl rfl⟩

/-- A refusal leaves the whole storage as it is. -/
theorem effect_refused (effect : Effect d.context self d.message next actions)
    (refused : actions.any isRefusal = true) : next = self := by
  obtain ⟨env,msg,commits⟩ := d
  cases effect with
  | refused => rfl
  | _ => simp [isRefusal,sendResponse] at refused

/-- Every stored intent was created before it was updated, and updated by now. -/
def Dated (now : Nat) (s : State) : Prop :=
  ∀ nft i, s.lendingIntents.get nft = some i → i.createdAt ≤ i.updatedAt ∧ i.updatedAt ≤ now

theorem dated_later (dated : Dated now s) (later : now ≤ bound) : Dated bound s :=
  fun nft i stored => ⟨(dated nft i stored).1,(dated nft i stored).2.trans later⟩

theorem dated_put {nftAddress : Address} {written : LendingIntentInfo} (dated : Dated now self)
    (created : written.createdAt ≤ now) (updated : written.updatedAt = now) :
    Dated now (self.putIntent nftAddress written) := by
  intro nft i stored
  rw [putIntent_get] at stored
  split at stored
  · obtain rfl := Option.some.inj stored
    exact ⟨updated ▸ created,updated.le⟩
  · exact dated nft i stored

theorem effect_dated {env : Context} (effect : Effect env self msg next actions)
    (dated : Dated env.now self) : Dated env.now next := by
  cases effect with
  | ownerRegistered owners => exact dated
  | refused => exact dated
  | registered owner natural => exact dated_put dated le_rfl rfl
  | cancelled owner stored active =>
    obtain ⟨created,updated⟩ := dated _ _ stored
    exact dated_put dated (created.trans updated) rfl
  | updated owner natural stored active =>
    obtain ⟨created,updated⟩ := dated _ _ stored
    exact dated_put dated (created.trans updated) rfl

end Steps

/-- The clock of a run never goes back; the newest delivery comes first. -/
def Clocked (deliveries : List (Delivery Message)) : Prop :=
  deliveries.Pairwise (fun later earlier => earlier.context.now ≤ later.context.now)

theorem run_dated (deployer : Address) {deliveries : List (Delivery Message)}
    (clocked : Clocked deliveries) (passed : ∀ d ∈ deliveries, d.context.now ≤ now) :
    Dated now (run (init deployer) deliveries) := by
  induction deliveries generalizing now with
  | nil =>
    intro nft i stored
    cases (FiniteMap.get_empty nft).symm.trans stored
  | cons d past ih =>
    obtain ⟨earlier,clocked⟩ := List.pairwise_cons.mp clocked
    have before := ih clocked earlier
    refine dated_later ?_ (passed d List.mem_cons_self)
    cases outcome : deliver receive (run (init deployer) past) d with
    | none =>
      rw [run,Journal.run_refused outcome]
      exact before
    | some result =>
      rw [run,Journal.run_accepted outcome]
      exact effect_dated (receive_effect (deliver_received outcome)) before

theorem run_rejected (initial : State) (d : Delivery Message) (past : List (Delivery Message))
    (rejected : Rejected (run initial past) d) : run initial (d :: past) = run initial past := by
  cases outcome : deliver receive (run initial past) d with
  | none => exact Journal.run_refused outcome
  | some result =>
    have same := effect_refused (receive_effect (deliver_received outcome)) (rejected _ _ outcome)
    exact (Journal.run_accepted outcome).trans same

/-- Under a clock that never goes back, a run follows the diagram with ordered dates, on messages
of the owner alone and with rejections that change nothing, exactly when its registrations find no
active intent. -/
theorem lawful_iff (deployer : Address) (deliveries : List (Delivery Message))
    (clocked : Clocked deliveries) :
    Lawful (init deployer) deliveries ↔
      FreshRegistrations (journal (init deployer) deliveries) := by
  constructor
  · intro lawful entry member nft amount lender registration owner natural i held active
    by_contra other
    have accepted := entry_received member
    rw [registration,receive_register owner natural,Except.ok.injEq,Prod.mk.injEq] at accepted
    have stored : entry.after.lendingIntents.get nft = some
        ⟨.active,amount,lender,entry.input.context.now,entry.input.context.now⟩ := by
      rw [← accepted.1,putIntent_get,if_pos rfl]
    have changed : entry.after.lendingIntents.get nft ≠ entry.before.lendingIntents.get nft := by
      rw [stored,held]
      exact fun same => other (Option.some.inj same).symm
    obtain ⟨after,-,edge⟩ := (lawful.diagram entry member nft changed).edge
    rw [registration] at edge
    cases edge with
    | register inactive => exact inactive i held active
  · intro fresh
    constructor
    · intro entry member nft changed
      exact effect_follows fresh member (entry_effect member) changed
    · intro past earlier nft i stored
      have sorted : Clocked past := List.Pairwise.sublist earlier.sublist clocked
      have bound : ∀ d ∈ past, d.context.now ≤ (past.map (fun d => d.context.now)).sum := by
        intro d member
        exact List.le_sum_of_mem (List.mem_map_of_mem member)
      exact (run_dated deployer sorted bound nft i stored).1
    · intro d past earlier rejected
      exact run_rejected (init deployer) d past rejected

section Samples

def card : Address := newAddress 0 7
def owner : Address := newAddress 0 1

def sentAt (now : Nat) (sender : Address) (message : Message) : Delivery Message :=
  ⟨⟨sender,1000,now⟩,message,true⟩

def secondRegistration : Delivery Message :=
  sentAt 100 owner (.registerLendingIntent card 900 1)

/-- The owner registers again while the intent is active. -/
def registeredTwice : List (Delivery Message) :=
  [secondRegistration,
    sentAt 90 owner (.registerLendingIntent card 50 0),
    sentAt 80 owner (.registerNFTOwnerLending card owner)]

theorem registered_twice_lawful_iff :
    Lawful (init owner) registeredTwice ↔
      FreshRegistrations (journal (init owner) registeredTwice) :=
  lawful_iff owner registeredTwice (by simp [Clocked,registeredTwice,secondRegistration,sentAt])

theorem registered_twice_unlawful : ¬Lawful (init owner) registeredTwice := by
  intro lawful
  have before : (run (init owner) registeredTwice.tail).lendingIntents.get card =
      some ⟨.active,50,0,90,90⟩ := by decide +kernel
  have after : (run (init owner) registeredTwice).lendingIntents.get card =
      some ⟨.active,900,1,100,100⟩ := by decide +kernel
  obtain ⟨next,actions,accepted⟩ : ∃ next actions,
      deliver receive (run (init owner) registeredTwice.tail) secondRegistration =
        some (next,actions) :=
    ⟨_,_,rfl⟩
  have member : ⟨run (init owner) registeredTwice.tail,secondRegistration,next,actions⟩ ∈
      journal (init owner) registeredTwice := by
    change _ ∈ Journal.journal _ _ (secondRegistration :: registeredTwice.tail)
    rw [Journal.journal_accepted accepted]
    exact List.mem_cons_self
  have reached : run (init owner) registeredTwice = next := Journal.run_accepted accepted
  rw [reached] at after
  have changed : next.lendingIntents.get card ≠
      (run (init owner) registeredTwice.tail).lendingIntents.get card := by
    rw [after,before]
    decide
  obtain ⟨written,-,edge⟩ := (lawful.diagram _ member card changed).edge
  cases edge with
  | register inactive => exact inactive _ before rfl

end Samples
end Tonbankcard.LendingProtocolCoordinator
