import Tonbankcard.CrossChainBridge

/-! When a settled intent stays as it is. Confirmation and cancellation look at the status, and
registration writes the same key without a look: records are final over exactly the runs whose
registrations never name a settled intent. -/
namespace Tonbankcard.CrossChainBridge

open Ton NftOwnership

def BridgeIntentInfo.Settled (i : BridgeIntentInfo) : Prop :=
  i.status = .confirmed ∨ i.status = .cancelled

section Confirmations
variable (nft : Address) (id : BitVec 64)

def confirmation : Action Body → Bool
  | .emit (.bridgeExecutionConfirmed nftAddress intentId _ _) => nftAddress = nft ∧ intentId = id
  | _ => false

def confirms (entry : Entry) : Bool := entry.output.any (confirmation nft id)

end Confirmations

/-- A settled record is what it is at every later moment, it is confirmed at most once, and the
owner or a relayer confirms it. -/
structure IntentsTerminal (hash : Cell → Int) (initial : State)
    (deliveries : List (Delivery Message)) : Prop where
  terminal : ∀ past later, past <:+ later → later <:+ deliveries → ∀ nft id i,
    (run hash initial past).getIntent hash nft id = some i → i.Settled →
    (run hash initial later).getIntent hash nft id = some i
  once : ∀ nft id, (journal hash initial deliveries).countP (confirms nft id) ≤ 1
  authorized : ∀ entry ∈ journal hash initial deliveries, ∀ nft id,
    confirms nft id entry = true → Authorized entry.before entry.input.context nft

/-- No registration that is carried out names a settled intent. -/
def FreshRegistrations (hash : Cell → Int) (entries : List Entry) : Prop :=
  ∀ entry ∈ entries, ∀ nft id targetChain amount targetAddressHash,
    entry.input.message = .registerBridgeIntent nft id targetChain amount targetAddressHash →
    Registrable entry.before entry.input.context nft targetChain amount →
    ∀ i, entry.before.getIntent hash nft id = some i → ¬i.Settled

section Steps
variable {hash : Cell → Int} {env : Context} {self next : State} {nft : Address}
variable {id : BitVec 64} {d : Delivery Message}

theorem effect_confirms (effect : Effect hash d.context self d.message next actions)
    (confirmed : confirms nft id ⟨self,d,next,actions⟩ = true) :
    Authorized self d.context nft ∧ ∃ i externalTxHash, i.status = .pending ∧
      self.getIntent hash nft id = some i ∧
      next = self.putIntent hash nft id (i.confirm externalTxHash d.context.now) := by
  obtain ⟨env,msg,commits⟩ := d
  cases effect with
  | confirmed authorized stored pending =>
    simp only [confirms,confirmation,sendResponse,List.any_cons,List.any_nil,Bool.or_false,
      decide_eq_true_eq] at confirmed
    obtain ⟨rfl,rfl⟩ := confirmed
    exact ⟨authorized,_,_,pending,stored,rfl⟩
  | _ => simp [confirms,confirmation,sendResponse] at confirmed

/-- A write under a key keeps a settled record when what was stored there is not settled. -/
theorem put_terminal {written : BridgeIntentInfo}
    (unsettled : ∀ i, self.getIntent hash nft id = some i → ¬i.Settled)
    (found : self.getIntent hash other otherId = some i) (settled : i.Settled) :
    (self.putIntent hash nft id written).getIntent hash other otherId = some i := by
  rw [getIntent_putIntent,if_neg,found]
  intro same
  have here : self.getIntent hash nft id = some i := by
    rw [← found,State.getIntent,State.getIntent,same]
  exact unsettled i here settled

theorem not_settled_of_pending {i : BridgeIntentInfo} (pending : i.status = .pending) :
    ¬i.Settled := by
  rintro (confirmed | cancelled)
  · cases pending.symm.trans confirmed
  · cases pending.symm.trans cancelled

theorem effect_terminal {entries : List Entry} (fresh : FreshRegistrations hash entries)
    (member : ⟨self,d,next,actions⟩ ∈ entries)
    (effect : Effect hash d.context self d.message next actions)
    (found : self.getIntent hash nft id = some i) (settled : i.Settled) :
    next.getIntent hash nft id = some i := by
  obtain ⟨env,msg,commits⟩ := d
  cases effect with
  | ownerRegistered owners => exact found
  | relayerRegistered authorized => exact found
  | refused => exact found
  | registered registrable =>
    exact put_terminal (fresh _ member _ _ _ _ _ rfl registrable) found settled
  | confirmed authorized stored pending =>
    refine put_terminal (fun held here => ?_) found settled
    obtain rfl := Option.some.inj (stored.symm.trans here)
    exact not_settled_of_pending pending
  | cancelled owner stored pending =>
    refine put_terminal (fun held here => ?_) found settled
    obtain rfl := Option.some.inj (stored.symm.trans here)
    exact not_settled_of_pending pending

end Steps

/-- One confirmation at most stands behind a confirmed record and none behind any other. -/
def Counted (hash : Cell → Int) (nft : Address) (id : BitVec 64) (entries : List Entry)
    (s : State) : Prop :=
  entries.countP (confirms nft id) ≤ 1 ∧
    (0 < entries.countP (confirms nft id) →
      ∃ i, s.getIntent hash nft id = some i ∧ i.status = .confirmed)

theorem counted_step {hash : Cell → Int} {past : List Entry} {d : Delivery Message}
    {id : BitVec 64} (fresh : FreshRegistrations hash (⟨self,d,next,actions⟩ :: past))
    (effect : Effect hash d.context self d.message next actions)
    (counted : Counted hash nft id past self) :
    Counted hash nft id (⟨self,d,next,actions⟩ :: past) next := by
  obtain ⟨few,behind⟩ := counted
  by_cases confirmed : confirms nft id ⟨self,d,next,actions⟩ = true
  · obtain ⟨-,i,externalTxHash,pending,stored,rfl⟩ := effect_confirms effect confirmed
    have unconfirmed : past.countP (confirms nft id) = 0 := by
      by_contra some_
      obtain ⟨held,here,status⟩ := behind (Nat.pos_of_ne_zero some_)
      obtain rfl := Option.some.inj (stored.symm.trans here)
      cases pending.symm.trans status
    refine ⟨?_,fun _ => ⟨_,getIntent_putIntent_same ..,rfl⟩⟩
    rw [List.countP_cons_of_pos confirmed,unconfirmed]
  · rw [Counted,List.countP_cons_of_neg confirmed]
    refine ⟨few,fun positive => ?_⟩
    obtain ⟨i,stored,status⟩ := behind positive
    exact ⟨i,effect_terminal fresh List.mem_cons_self effect stored (.inl status),status⟩

theorem run_counted (hash : Cell → Int) (deployer : Address)
    (deliveries : List (Delivery Message)) (nft : Address) (id : BitVec 64) :
    FreshRegistrations hash (journal hash (init deployer) deliveries) →
      Counted hash nft id (journal hash (init deployer) deliveries)
        (run hash (init deployer) deliveries) := by
  refine deliver_invariant (fun entries s => FreshRegistrations hash entries →
    Counted hash nft id entries s) ?_ ?_ deliveries
  · intro _
    exact ⟨Nat.zero_le _,nofun⟩
  · intro past s d next actions counted accepted fresh
    refine counted_step fresh (receive_effect accepted) (counted ?_)
    exact fun entry member => fresh entry (.tail _ member)

/-- Settled intents are final over exactly the runs of fresh registrations. -/
theorem intents_terminal_iff (hash : Cell → Int) (deployer : Address)
    (deliveries : List (Delivery Message)) :
    IntentsTerminal hash (init deployer) deliveries ↔
      FreshRegistrations hash (journal hash (init deployer) deliveries) := by
  constructor
  · intro final entry member nft id targetChain amount targetAddressHash registration registrable
      i found settled
    obtain ⟨past,within,before,after⟩ := Journal.entry_reached member
    rw [before] at found
    have stored := final.terminal past _ (List.suffix_cons _ _) within nft id i found settled
    have accepted := entry_received member
    rw [registration,receive_register registrable,Except.ok.injEq,Prod.mk.injEq] at accepted
    change State.getIntent hash (Journal.run _ _ _) nft id = some i at stored
    rw [← after,← accepted.1,getIntent_putIntent_same] at stored
    obtain rfl := Option.some.inj stored
    exact not_settled_of_pending rfl settled
  · intro fresh
    constructor
    · intro past later earlier within nft id i found settled
      refine Journal.persists_entries (fun s : State => s.getIntent hash nft id = some i) earlier ?_
        found
      intro entry member held
      have whole := (Journal.journal_suffix within).subset member
      exact effect_terminal fresh whole (entry_effect whole) held settled
    · intro nft id
      exact (run_counted hash deployer deliveries nft id fresh).1
    · intro entry member nft id confirmed
      exact (effect_confirms (entry_effect member) confirmed).1

section Samples

def card : Address := newAddress 0 7
def owner : Address := newAddress 0 1
def relayer : Address := newAddress 0 5
def intent : BitVec 64 := 1

def sentAt (now : Nat) (sender : Address) (message : Message) : Delivery Message :=
  ⟨⟨sender,1000,now⟩,message,true⟩

/-- The owner registers an intent again that a relayer has confirmed, for another amount. -/
def registeredAgain : List (Delivery Message) :=
  [sentAt 120 owner (.registerBridgeIntent card intent 2 9000 77),
    sentAt 110 relayer (.confirmBridgeExecution card intent 4242),
    sentAt 100 owner (.registerBridgeIntent card intent 1 50 66),
    sentAt 90 owner (.registerRelayer relayer),
    sentAt 80 owner (.registerNFTOwnerBridge card owner)]

theorem confirmed_intent_changes : ¬IntentsTerminal packedHash (init owner) registeredAgain := by
  intro final
  have confirmed : (run packedHash (init owner) registeredAgain.tail).getIntent packedHash card
      intent = some ⟨.confirmed,1,50,66,4242,100,110⟩ := by decide +kernel
  have replaced : (run packedHash (init owner) registeredAgain).getIntent packedHash card
      intent = some ⟨.pending,2,9000,77,0,120,0⟩ := by decide +kernel
  have kept := final.terminal _ _ (List.tail_suffix _) (List.suffix_refl _) _ _ _ confirmed
    (.inl rfl)
  exact absurd (kept.symm.trans replaced) (by decide)

end Samples
end Tonbankcard.CrossChainBridge
