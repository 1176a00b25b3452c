import Tonbankcard.MultiSigCardQuorum

/-! Approvals in flight. A co-signer reads the stored content and sends an approval that
names the proposal by its id alone, so what it is counted for is decided when it arrives.
The world is the card together with the approvals under way, each with what its signer saw. -/
namespace Tonbankcard.MultiSigCard

open Ton

variable {hash : Cell → Int} {nft : Address} {id : BitVec 64}

/-- An approval under way and the content its signer saw before sending it. -/
structure Sighting where
  signer : Address
  nftAddress : Address
  proposalId : BitVec 64
  recipient : Address
  amount : Nat
  deriving DecidableEq, Repr

structure World where
  card : State
  inFlight : List Sighting

inductive Event where
  | observe (signer nftAddress : Address) (proposalId : BitVec 64)
  | arrive (position value now : Nat) (commits : Bool)
  | message (delivery : Delivery Message)

/-- What the card accepted during an event, if anything, and which approval it was. -/
structure Outcome where
  sighting : Option Sighting := none
  accepted : Option (Delivery Message) := none
  actions : List (Action Body) := []

def Sighting.delivery (sighting : Sighting) (value now : Nat) (commits : Bool) :
    Delivery Message :=
  ⟨⟨sighting.signer,value,now⟩,
    .approvePaymentProposal sighting.nftAddress sighting.proposalId,commits⟩

/-- The card would count the approval if its proposal is pending: its signer is configured and not
on record. -/
structure Sighting.Countable (hash : Cell → Int) (sighting : Sighting) (card : State) : Prop where
  active : (card.getMultiSigConfig sighting.nftAddress).isActive = true
  signer : isSigner sighting.signer (card.getMultiSigConfig sighting.nftAddress) = true
  pending : card.hasApproved hash sighting.nftAddress sighting.proposalId sighting.signer = false

abbrev WorldEntry := Journal.Entry World Event Outcome

/-- The card's own journal entry behind an entry of the world. -/
def cardEntry (entry : WorldEntry) : Option Entry :=
  entry.output.accepted.map
    (fun delivery => ⟨entry.before.card,delivery,entry.after.card,entry.output.actions⟩)

def cardJournal (entries : List WorldEntry) : List Entry := entries.filterMap cardEntry

end Tonbankcard.MultiSigCard
