import Tonbankcard.RecurringPaymentsLimits

/-! How long the terms of a mandate last. The three receivers write whole records under a key that
the owner chooses; a record keeps its terms and its final status over exactly the runs that never
create over a mandate and never cancel a completed one. -/
namespace Tonbankcard.RecurringPayments

open Ton NftOwnership

/-- What may become of a stored mandate. -/
structure Follows (m next : MandateInfo) : Prop where
  terms : next.terms = m.terms
  createdAt : next.createdAt = m.createdAt
  count : m.executionCount ≤ next.executionCount
  status : next.status = m.status ∨
    m.status = .active ∧ (next.status = .cancelled ∨ next.status = .completed)

theorem Follows.refl (m : MandateInfo) : Follows m m := ⟨rfl,rfl,le_rfl,.inl rfl⟩

theorem Follows.trans (first : Follows m middle) (second : Follows middle next) :
    Follows m next where
  terms := second.terms.trans first.terms
  createdAt := second.createdAt.trans first.createdAt
  count := first.count.trans second.count
  status := by
    rcases second.status with same | ⟨active,final⟩
    · rw [same]
      exact first.status
    · rcases first.status with same | ⟨-,stopped | completed⟩
      · exact .inr ⟨same.symm.trans active,final⟩
      · cases active.symm.trans stopped
      · cases active.symm.trans completed

/-- Every mandate that is stored at some moment of a run is followed at every later one. -/
def MandatesLast (hash : Cell → Int) (initial : State) (deliveries : List (Delivery Message)) :
    Prop :=
  ∀ past later, past <:+ later → later <:+ deliveries → ∀ nft id m,
    (run hash initial past).getMandate hash nft id = some m →
    ∃ next, (run hash initial later).getMandate hash nft id = some next ∧ Follows m next

/-- What a creation has to meet to be carried out. -/
structure Creatable (s : State) (env : Context) (nftAddress : Address) (terms : Terms) :
    Prop where
  owner : s.nftOwners.get nftAddress = some env.sender
  positive : 0 < terms.amountPerPeriod
  period : minPeriodSeconds ≤ terms.periodSeconds

/-- A creation that is carried out finds no mandate, or repeats one of the same terms and second
before anything happened to it; a cancellation that is carried out does not find a completed one. -/
structure MandatesSpared (hash : Cell → Int) (entries : List Entry) : Prop where
  creations : ∀ entry ∈ entries, ∀ nft id, ∀ terms : Terms,
    entry.input.message = .createMandate nft terms.merchantAddress id terms.amountPerPeriod
      terms.periodSeconds terms.maxExecutions →
    Creatable entry.before entry.input.context nft terms →
    ∀ m, entry.before.getMandate hash nft id = some m →
      m.terms = terms ∧ m.createdAt = entry.input.context.now ∧ m.executionCount = 0 ∧
        m.status = .active
  cancellations : ∀ entry ∈ entries, ∀ nft id,
    entry.input.message = .cancelMandate nft id →
    entry.before.nftOwners.get nft = some entry.input.context.sender →
    ∀ m, entry.before.getMandate hash nft id = some m → m.status ≠ .completed

section Steps
variable {hash : Cell → Int} {env : Context} {self : State} {nft : Address} {id : BitVec 64}

theorem receive_create (creatable : Creatable self env nft terms) :
    receive hash env (.createMandate nft terms.merchantAddress id terms.amountPerPeriod
      terms.periodSeconds terms.maxExecutions) self =
      .ok (self.putMandate hash nft id (terms.mandate env.now),
        [.emit (.mandateCreated nft terms.merchantAddress id terms.amountPerPeriod
            terms.periodSeconds terms.maxExecutions env.now),
          sendResponse env.sender true errorNone nft id]) := by
  have valid : self.validateOwnership env.sender nft = errorNone :=
    (validateOwnership_ok (by decide) (by decide)).mpr creatable.owner
  have positive := creatable.positive
  have period := creatable.period
  simp only [receive,receiveCreateMandate]
  rw [if_neg (not_not.mpr valid),if_neg (by omega),if_neg (by omega)]
  rfl

theorem receive_cancel (owner : self.nftOwners.get nft = some env.sender)
    (stored : self.getMandate hash nft id = some m) :
    receive hash env (.cancelMandate nft id) self =
      .ok (self.putMandate hash nft id {m with status := .cancelled},
        [.emit (.mandateCancelled nft id env.now),
          sendResponse env.sender true errorNone nft id]) := by
  have valid : self.validateOwnership env.sender nft = errorNone :=
    (validateOwnership_ok (by decide) (by decide)).mpr owner
  simp only [receive,receiveCancelMandate,stored]
  rw [if_neg (not_not.mpr valid)]
  rfl

theorem executed_follows (m : MandateInfo) (active : m.status = .active) (now : Nat) :
    Follows m (m.executed now) where
  terms := rfl
  createdAt := rfl
  count := Nat.le_succ _
  status := by
    simp only [MandateInfo.executed]
    split
    · exact .inr ⟨active,.inr rfl⟩
    · exact .inl active.symm

theorem cancelled_follows (m : MandateInfo) (incomplete : m.status ≠ .completed) :
    Follows m {m with status := .cancelled} := by
  refine ⟨rfl,rfl,le_rfl,?_⟩
  cases status : m.status with
  | active => exact .inr ⟨rfl,.inl rfl⟩
  | cancelled => exact .inl rfl
  | completed => exact absurd status incomplete

/-- A write under a key is followed when what was stored there is. -/
theorem put_follows {next : MandateInfo}
    (follows : ∀ m, self.getMandate hash nft id = some m → Follows m next)
    (found : self.getMandate hash other otherId = some m) :
    ∃ later, (self.putMandate hash nft id next).getMandate hash other otherId = some later ∧
      Follows m later := by
  rw [getMandate_putMandate]
  split
  next same =>
    have here : self.getMandate hash nft id = some m := by
      rw [← found,State.getMandate,State.getMandate,same]
    exact ⟨next,rfl,follows m here⟩
  next apart => exact ⟨m,found,.refl m⟩

end Steps

theorem effect_follows {hash : Cell → Int} {entries : List Entry} {d : Delivery Message}
    {self next : State} {id : BitVec 64} (spared : MandatesSpared hash entries)
    (member : ⟨self,d,next,actions⟩ ∈ entries)
    (effect : Effect hash d.context self d.message next actions)
    (found : self.getMandate hash nft id = some m) :
    ∃ later, next.getMandate hash nft id = some later ∧ Follows m later := by
  obtain ⟨env,msg,commits⟩ := d
  cases effect with
  | registered owners => exact ⟨m,found,.refl m⟩
  | refused => exact ⟨m,found,.refl m⟩
  | @created nftAddress mandateId terms owner positive period =>
    refine put_follows ?_ found
    intro stored here
    obtain ⟨same,second,fresh,active⟩ :=
      spared.creations _ member nftAddress mandateId terms rfl ⟨owner,positive,period⟩ stored here
    exact ⟨same.symm,second.symm,fresh.le,.inl active.symm⟩
  | @cancelled nftAddress mandateId _ owner stored =>
    refine put_follows ?_ found
    intro held here
    obtain rfl := Option.some.inj (stored.symm.trans here)
    exact cancelled_follows _ (spared.cancellations _ member nftAddress mandateId rfl owner _ stored)
  | executed stored due =>
    refine put_follows ?_ found
    intro held here
    obtain rfl := Option.some.inj (stored.symm.trans here)
    exact executed_follows _ due.active _

/-- Mandates keep their terms and their final status over exactly the runs that spare them. -/
theorem mandates_last_iff (hash : Cell → Int) (deployer : Address)
    (deliveries : List (Delivery Message)) :
    MandatesLast hash (init deployer) deliveries ↔
      MandatesSpared hash (journal hash (init deployer) deliveries) := by
  constructor
  · intro last
    have follows : ∀ entry ∈ journal hash (init deployer) deliveries, ∀ nft id m,
        entry.before.getMandate hash nft id = some m →
        ∃ next, entry.after.getMandate hash nft id = some next ∧ Follows m next := by
      intro entry member nft id m found
      obtain ⟨past,within,before,after⟩ := Journal.entry_reached member
      rw [before] at found
      rw [after]
      exact last past _ (List.suffix_cons _ _) within nft id m found
    constructor
    · intro entry member nft id terms created creatable m found
      obtain ⟨next,stored,followed⟩ := follows entry member nft id m found
      have accepted := entry_received member
      rw [created,receive_create creatable,Except.ok.injEq,Prod.mk.injEq] at accepted
      rw [← accepted.1,getMandate_putMandate_same] at stored
      obtain rfl := Option.some.inj stored
      refine ⟨followed.terms.symm,followed.createdAt.symm,Nat.le_zero.mp followed.count,?_⟩
      rcases followed.status with same | ⟨active,-⟩
      · exact same.symm
      · exact active
    · intro entry member nft id cancelled owner m found completed
      obtain ⟨next,stored,followed⟩ := follows entry member nft id m found
      have accepted := entry_received member
      rw [cancelled,receive_cancel owner found,Except.ok.injEq,Prod.mk.injEq] at accepted
      rw [← accepted.1,getMandate_putMandate_same] at stored
      obtain rfl := Option.some.inj stored
      rcases followed.status with same | ⟨active,-⟩
      · cases same.trans completed
      · cases active.symm.trans completed
  · intro spared past later earlier within nft id m found
    refine Journal.persists_entries (fun s : State => ∃ next, s.getMandate hash nft id = some next ∧
      Follows m next) earlier ?_ ⟨m,found,.refl m⟩
    rintro entry member ⟨middle,held,followed⟩
    have whole := (Journal.journal_suffix within).subset member
    have effect := receive_effect (entry_received whole)
    obtain ⟨next,stored,further⟩ := effect_follows spared whole effect held
    exact ⟨next,stored,followed.trans further⟩

section Samples

/-- The owner creates a second mandate under the id of the first, for ten times the amount. -/
def createdOver : List (Delivery Message) :=
  [sentAt 100 owner (.createMandate card shop subscription 500 3600 0),
    sentAt 90 owner (.createMandate card shop subscription 50 3600 2),
    sentAt 80 owner (.registerNFTOwnerRecurring card owner)]

/-- The owner cancels a mandate whose only payment was made. -/
def cancelledCompleted : List (Delivery Message) :=
  [sentAt 110 owner (.cancelMandate card subscription),
    sentAt 100 shop (.executeRecurringPayment card subscription),
    sentAt 90 owner (.createMandate card shop subscription 50 3600 1),
    sentAt 80 owner (.registerNFTOwnerRecurring card owner)]

theorem mandates_do_not_last :
    ¬MandatesLast packedHash (init owner) createdOver ∧
      ¬MandatesLast packedHash (init owner) cancelledCompleted := by
  constructor
  · intro last
    have first : (run packedHash (init owner) createdOver.tail).getMandate packedHash card
        subscription = some ⟨.active,shop,50,3600,2,0,0,90⟩ := by decide +kernel
    have second : (run packedHash (init owner) createdOver).getMandate packedHash card
        subscription = some ⟨.active,shop,500,3600,0,0,0,100⟩ := by decide +kernel
    obtain ⟨next,stored,follows⟩ := last _ _ (List.tail_suffix _) (List.suffix_refl _) _ _ _ first
    obtain rfl := Option.some.inj (stored.symm.trans second)
    exact absurd follows.terms (by decide)
  · intro last
    have first : (run packedHash (init owner) cancelledCompleted.tail).getMandate packedHash card
        subscription = some ⟨.completed,shop,50,3600,1,1,100,90⟩ := by decide +kernel
    have second : (run packedHash (init owner) cancelledCompleted).getMandate packedHash card
        subscription = some ⟨.cancelled,shop,50,3600,1,1,100,90⟩ := by decide +kernel
    obtain ⟨next,stored,follows⟩ := last _ _ (List.tail_suffix _) (List.suffix_refl _) _ _ _ first
    obtain rfl := Option.some.inj (stored.symm.trans second)
    exact absurd follows.status (by decide)

end Samples
end Tonbankcard.RecurringPayments
