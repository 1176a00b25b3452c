import Tonbankcard.Journal
import Tonbankcard.TonCell

/-! The AccountLocks contract as it runs on cells: the persistent data is one root cell, the
inbound message a header cell and a body slice. Addresses are the bits of their slices, the
two roles are one structure, and `slice_hash` is a parameter. -/
namespace Tonbankcard.AccountLocks

open Ton

def opSetFraudLock : Nat := 0x1001
def opClearFraudLock : Nat := 0x1002
def opSetCollateralLock : Nat := 0x1003
def opClearCollateralLock : Nat := 0x1004
def opCheckCanSend : Nat := 0x2001
def opBindPaymentHub : Nat := 0x5001
def opProposeRiskAuthority : Nat := 0x4001
def opExecuteRiskAuthority : Nat := 0x4002
def opCancelRiskAuthority : Nat := 0x4003
def opProposeLendingAdapter : Nat := 0x4011
def opExecuteLendingAdapter : Nat := 0x4012
def opCancelLendingAdapter : Nat := 0x4013

def errUnauthorized : Nat := 401
def errAccountLocked : Nat := 403
def errInvalidOperation : Nat := 400
def errNoPendingTransfer : Nat := 405
def errTimelockNotExpired : Nat := 406

def roleTransferDelay : Nat := 7 * 24 * 60 * 60

inductive Role where
  | riskAuthority
  | lendingAdapter
  deriving DecidableEq, Repr

/-- The fields of one role: who holds it, and the pending transfer. -/
structure RoleData where
  holder : List Bool
  pendingPresent : Nat
  pending : List Bool
  pendingAt : Nat
  deriving DecidableEq, Repr

/-- The fields of `load_data`, with the global `payment_hub` it sets. -/
structure Storage where
  lockDict : Option Cell
  risk : RoleData
  lending : RoleData
  paymentHub : List Bool

def Storage.role (s : Storage) : Role → RoleData
  | .riskAuthority => s.risk
  | .lendingAdapter => s.lending

def Storage.setRole (s : Storage) (role : Role) (data : RoleData) : Storage :=
  match role with
  | .riskAuthority => {s with risk := data}
  | .lendingAdapter => {s with lending := data}

def loadData (data : Cell) : Result Storage := do
  let (lockDict,ds) ← data.beginParse.loadDict
  let (riskAuthority,ds) ← ds.loadMsgAddr
  let (lendingAdapter,ds) ← ds.loadMsgAddr
  let (pendingRiskPresent,ds) ← ds.loadUint 1
  let (pendingRisk,ds) ← ds.loadMsgAddr
  let (pendingRiskAt,ds) ← ds.loadUint 32
  let (pendingLendingPresent,ds) ← ds.loadUint 1
  let (pendingLending,ds) ← ds.loadMsgAddr
  let (pendingLendingAt,ds) ← ds.loadUint 32
  let (hubData,_) ← ds.loadRef
  let (paymentHub,_) ← hubData.beginParse.loadMsgAddr
  pure {
    lockDict
    risk := ⟨riskAuthority,pendingRiskPresent,pendingRisk,pendingRiskAt⟩
    lending := ⟨lendingAdapter,pendingLendingPresent,pendingLending,pendingLendingAt⟩
    paymentHub }

def saveData (s : Storage) : Result Cell := do
  let b ← beginCell.storeDict s.lockDict
  let b ← b.storeBits s.risk.holder
  let b ← b.storeBits s.lending.holder
  let b ← b.storeUint s.risk.pendingPresent 1
  let b ← b.storeBits s.risk.pending
  let b ← b.storeUint s.risk.pendingAt 32
  let b ← b.storeUint s.lending.pendingPresent 1
  let b ← b.storeBits s.lending.pending
  let b ← b.storeUint s.lending.pendingAt 32
  let hub ← beginCell.storeBits s.paymentHub
  let b ← b.storeRef hub.endCell
  pure b.endCell

structure RawMessage where
  message : Cell
  mode : Nat

section Receiver
variable (sliceHash : List Bool → Nat)

/-- The two flags under the hash of the address; an absent entry is unlocked. -/
def lockState (lockDict : Option Cell) (nftAddress : List Bool) : Result (Nat × Nat) := do
  let value ← udictGet (sliceHash nftAddress) lockDict
  match value with
  | none => pure (0,0)
  | some bits =>
    let (fraudLocked,rest) ← Slice.loadUint 1 ⟨bits,[]⟩
    let (collateralLocked,_) ← rest.loadUint 1
    pure (fraudLocked,collateralLocked)

def getLockState (data : Cell) (nftAddress : List Bool) : Result (Nat × Nat) := do
  let s ← loadData data
  lockState sliceHash s.lockDict nftAddress

def canSend (data : Cell) (nftAddress : List Bool) : Result Nat := do
  let (fraudLocked,collateralLocked) ← getLockState sliceHash data nftAddress
  pure (if fraudLocked ||| collateralLocked ≠ 0 then 0 else 1)

def setLock (lockDict : Option Cell) (nftAddress : List Bool)
    (fraudLocked collateralLocked : Nat) : Result (Option Cell) := do
  let b ← beginCell.storeUint fraudLocked 1
  let b ← b.storeUint collateralLocked 1
  udictSet (sliceHash nftAddress) b.bits lockDict

/-- Reading the lock state loads the saved data again, and the hub with it. -/
def emitAccountLock (data : Cell) (paymentHub nftAddress : List Bool) : Result RawMessage := do
  let tag ← Slice.preloadUint 2 paymentHub
  throwUnless errInvalidOperation (tag = 2)
  let s ← loadData data
  let (fraudLocked,collateralLocked) ← lockState sliceHash s.lockDict nftAddress
  let b ← beginCell.storeUint 0x10 6
  let b ← b.storeBits s.paymentHub
  let b ← b.storeCoins 50000000
  let b ← b.storeUint 0 (1 + 4 + 4 + 64 + 32 + 1 + 1)
  let b ← b.storeUint 1170261328 32
  let b ← b.storeBits nftAddress
  let b ← b.storeUint fraudLocked 1
  let b ← b.storeUint collateralLocked 1
  pure ⟨b.endCell,1⟩

def recvBindPaymentHub (senderAddress : List Bool) (body : Slice) (s : Storage) :
    Result (Cell × List RawMessage) := do
  throwUnless errUnauthorized (senderAddress = s.risk.holder)
  let bound ← Slice.preloadUint 2 s.paymentHub
  throwUnless errInvalidOperation (bound = 0)
  let (paymentHub,_) ← body.loadMsgAddr
  let tag ← Slice.preloadUint 2 paymentHub
  throwUnless errInvalidOperation (tag = 2)
  let data ← saveData {s with paymentHub}
  pure (data,[])

/-- The four lock operations: the role that may call it, and what becomes of the flags. -/
def recvLock (role : Role) (update : Nat × Nat → Nat × Nat) (senderAddress : List Bool)
    (body : Slice) (s : Storage) (data : Cell) : Result (Cell × List RawMessage) := do
  throwUnless errUnauthorized (senderAddress = (s.role role).holder)
  let (nftAddress,_) ← body.loadMsgAddr
  let locks ← getLockState sliceHash data nftAddress
  let (fraudLocked,collateralLocked) := update locks
  let lockDict ← setLock sliceHash s.lockDict nftAddress fraudLocked collateralLocked
  let saved ← saveData {s with lockDict}
  let message ← emitAccountLock sliceHash saved s.paymentHub nftAddress
  pure (saved,[message])

def recvCheckCanSend (body : Slice) (data : Cell) : Result (Cell × List RawMessage) := do
  let (nftAddress,_) ← body.loadMsgAddr
  let canSendFlag ← canSend sliceHash data nftAddress
  throwUnless errAccountLocked (canSendFlag ≠ 0)
  pure (data,[])

def recvPropose (role : Role) (now : Nat) (senderAddress : List Bool) (body : Slice)
    (s : Storage) : Result (Cell × List RawMessage) := do
  throwUnless errUnauthorized (senderAddress = (s.role role).holder)
  let (proposed,_) ← body.loadMsgAddr
  let executableAt := now + roleTransferDelay
  let data ← saveData (s.setRole role ⟨(s.role role).holder,1,proposed,executableAt⟩)
  pure (data,[])

/-- The executed transfer leaves its address in the pending slot. -/
def recvExecute (role : Role) (now : Nat) (senderAddress : List Bool) (s : Storage) :
    Result (Cell × List RawMessage) := do
  throwUnless errNoPendingTransfer ((s.role role).pendingPresent ≠ 0)
  throwUnless errUnauthorized (senderAddress = (s.role role).pending)
  throwUnless errTimelockNotExpired (now ≥ (s.role role).pendingAt)
  let data ← saveData (s.setRole role ⟨(s.role role).pending,0,(s.role role).pending,0⟩)
  pure (data,[])

def recvCancel (role : Role) (senderAddress : List Bool) (s : Storage) :
    Result (Cell × List RawMessage) := do
  throwUnless errUnauthorized (senderAddress = (s.role role).holder)
  throwUnless errNoPendingTransfer ((s.role role).pendingPresent ≠ 0)
  let data ← saveData (s.setRole role ⟨(s.role role).holder,0,(s.role role).holder,0⟩)
  pure (data,[])

def recvInternal (now : Nat) (inMsgFull : Cell) (inMsgBody : Slice) (data : Cell) :
    Result (Cell × List RawMessage) :=
  if inMsgBody.bits.isEmpty ∧ inMsgBody.refs.isEmpty then pure (data,[]) else do
  let (flags,cs) ← inMsgFull.beginParse.loadUint 4
  if flags &&& 1 ≠ 0 then pure (data,[]) else do
  let (senderAddress,_) ← cs.loadMsgAddr
  let (op,body) ← inMsgBody.loadUint 32
  let s ← loadData data
  if op = opBindPaymentHub then recvBindPaymentHub senderAddress body s
  else if op = opSetFraudLock then
    recvLock sliceHash .riskAuthority (fun locks => (1,locks.2)) senderAddress body s data
  else if op = opClearFraudLock then
    recvLock sliceHash .riskAuthority (fun locks => (0,locks.2)) senderAddress body s data
  else if op = opSetCollateralLock then
    recvLock sliceHash .lendingAdapter (fun locks => (locks.1,1)) senderAddress body s data
  else if op = opClearCollateralLock then
    recvLock sliceHash .lendingAdapter (fun locks => (locks.1,0)) senderAddress body s data
  else if op = opCheckCanSend then recvCheckCanSend sliceHash body data
  else if op = opProposeRiskAuthority then recvPropose .riskAuthority now senderAddress body s
  else if op = opExecuteRiskAuthority then recvExecute .riskAuthority now senderAddress s
  else if op = opCancelRiskAuthority then recvCancel .riskAuthority senderAddress s
  else if op = opProposeLendingAdapter then recvPropose .lendingAdapter now senderAddress body s
  else if op = opExecuteLendingAdapter then recvExecute .lendingAdapter now senderAddress s
  else if op = opCancelLendingAdapter then recvCancel .lendingAdapter senderAddress s
  else .error (.exit errInvalidOperation)

end Receiver

section Codec

/-- The fields of the root cell in the order they are stored. -/
def Storage.segments (s : Storage) : List (List Bool) :=
  [uintBits 1 s.lockDict.toList.length,s.risk.holder,s.lending.holder,
    uintBits 1 s.risk.pendingPresent,s.risk.pending,uintBits 32 s.risk.pendingAt,
    uintBits 1 s.lending.pendingPresent,s.lending.pending,uintBits 32 s.lending.pendingAt]

def Storage.bits (s : Storage) : List Bool := s.segments.flatten

def Storage.cell (s : Storage) : Cell :=
  .ordinary s.bits (s.lockDict.toList ++ [.ordinary s.paymentHub []])

/-- The numbers fit the widths they are stored in. -/
structure Storage.InRange (s : Storage) : Prop where
  riskPresent : s.risk.pendingPresent < 2^1
  riskAt : s.risk.pendingAt < 2^32
  lendingPresent : s.lending.pendingPresent < 2^1
  lendingAt : s.lending.pendingAt < 2^32

@[simp] theorem Storage.bits_length (s : Storage) : s.bits.length =
    67 + s.risk.holder.length + s.lending.holder.length + s.risk.pending.length +
      s.lending.pending.length := by
  simp [bits,segments]
  omega

/-- `save_data` builds the cell of its fields exactly when they fit into it. -/
theorem saveData_ok (s : Storage) (hub : s.paymentHub.length ≤ maxBits) :
    saveData s = .ok data ↔ data = s.cell ∧ s.InRange ∧ s.bits.length ≤ maxBits := by
  obtain ⟨lockDict,risk,lending,paymentHub⟩ := s
  have cells : Builder.endCell ⟨[] ++ uintBits 1 lockDict.toList.length ++ risk.holder ++
      lending.holder ++ uintBits 1 risk.pendingPresent ++ risk.pending ++
      uintBits 32 risk.pendingAt ++ uintBits 1 lending.pendingPresent ++ lending.pending ++
      uintBits 32 lending.pendingAt,[] ++ lockDict.toList ++
      [Builder.endCell ⟨[] ++ paymentHub,[]⟩]⟩ =
      Storage.cell ⟨lockDict,risk,lending,paymentHub⟩ := by
    simp [Storage.cell,Storage.bits,Storage.segments,Builder.endCell]
  have refs : lockDict.toList.length ≤ 1 := by cases lockDict <;> simp
  have room : (0:Nat) + 1 ≤ maxRefs := by decide
  have wide : lockDict.toList.length + 1 ≤ maxRefs := by unfold maxRefs; omega
  simp only [saveData,bind_ok,Builder.storeDict_ok,Builder.storeBits_ok,Builder.storeUint_ok,
    Builder.storeRef_ok,pure_ok,beginCell,exists_eq_left,and_assoc,List.length_append,
    List.length_nil,uintBits_length,Int.toNat_natCast,Nat.cast_nonneg,true_and,Nat.zero_add,
    cells,Storage.bits_length]
  constructor
  · rintro ⟨-,-,-,-,rp,-,-,ra,-,lp,-,-,la,fits,-,-,rfl⟩
    refine ⟨rfl,⟨?_,?_,?_,?_⟩,by omega⟩ <;> (dsimp only; omega)
  · rintro ⟨rfl,⟨rp,ra,lp,la⟩,fits⟩
    dsimp only at rp ra lp la hub
    exact ⟨by omega,fun _ => room,by omega,by omega,by omega,by omega,by omega,by omega,
      by omega,by omega,by omega,by omega,by omega,by omega,hub,wide,rfl⟩

end Codec
end Tonbankcard.AccountLocks
