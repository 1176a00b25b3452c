import Tonbankcard.TonContract

/-! What the coordinators that keep records for NFT accounts have in common: a registered owner
for each account and keys that are hashes of an account with a record id. Their test harnesses
register the owners, each only once; nothing else writes them. -/
namespace Tonbankcard.NftOwnership

open Ton

def errorNone : Int := 0

def validateOwnership (errorNftNotRegistered errorNotOwner : Int)
    (nftOwners : FiniteMap Address Address) (sender nftAddress : Address) : Int :=
  match nftOwners.get nftAddress with
  | none => errorNftNotRegistered
  | some owner => if owner ≠ sender then errorNotOwner else errorNone

def isOwner (nftOwners : FiniteMap Address Address) (sender nftAddress : Address) : Bool :=
  match nftOwners.get nftAddress with
  | none => false
  | some owner => owner == sender

def registerNFTOwner (deployer sender nftAddress owner : Address)
    (nftOwners : FiniteMap Address Address) : Result (FiniteMap Address Address) := do
  require (sender = deployer) "Unauthorized: only deployer (test-only)"
  require (nftOwners.get nftAddress = none) "NFT owner already registered"
  pure (nftOwners.set nftAddress owner)

/-- Address and id at fixed positions, 267 and 257 bits. -/
def recordCell (nftAddress : Address) (id : BitVec 64) : Cell :=
  .ordinary (nftAddress.bits ++ uintBits 257 id.toNat) []

def recordKey (hash : Cell → Int) (nftAddress : Address) (id : BitVec 64) : Int :=
  hash (recordCell nftAddress id)

variable {nftOwners : FiniteMap Address Address} {nftAddress sender : Address}

theorem validateOwnership_ok {errorNftNotRegistered errorNotOwner : Int}
    (unregistered : errorNftNotRegistered ≠ errorNone) (notOwner : errorNotOwner ≠ errorNone) :
    validateOwnership errorNftNotRegistered errorNotOwner nftOwners sender nftAddress =
      errorNone ↔ nftOwners.get nftAddress = some sender := by
  unfold validateOwnership
  split
  next absent => simp [absent,unregistered]
  next owner registered =>
    split
    next other => simp [registered,notOwner,other]
    next same => simpa [registered] using same

theorem isOwner_iff : isOwner nftOwners sender nftAddress = true ↔
    nftOwners.get nftAddress = some sender := by
  unfold isOwner
  split
  next absent => simp [absent]
  next owner registered => simp [registered]

theorem recordKey_injective {hash : Cell → Int} {id otherId : BitVec 64}
    (collisionFree : CollisionFree hash)
    (same : recordKey hash nft id = recordKey hash other otherId) : nft = other ∧ id = otherId := by
  obtain ⟨addresses,ids⟩ := List.append_inj (collisionFree _ _ same) (by simp)
  exact ⟨Address.bits_injective addresses,uintBits_toNat_injective (by decide) ids⟩

end Tonbankcard.NftOwnership
