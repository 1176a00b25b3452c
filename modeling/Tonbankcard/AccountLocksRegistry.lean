import Tonbankcard.AccountLocks
import Tonbankcard.AccountTypes

/-! The registry that the contract's root cell encodes: typed roles, pending transfers and a
lock table. Every operation on standard addresses that succeeds on a cell is the typed
operation on the registry inside it. -/
namespace Tonbankcard.AccountLocks

open Ton

/-- An optional address as it is stored. -/
def slotBits : Option Address → List Bool
  | none => addrNone
  | some address => address.bits

/-- One role and its pending transfer; the slot keeps the address of an earlier one. -/
structure Transfer where
  holder : Address
  present : Bool
  slot : Option Address
  executableAt : BitVec 32

def Transfer.data (t : Transfer) : RoleData :=
  ⟨t.holder.bits,t.present.toNat,slotBits t.slot,t.executableAt.toNat⟩

structure LockTable where
  entries : FiniteMap Nat (List Bool)
  flags : ∀ key value, entries.get key = some value → ∃ fraud collateral, value = [fraud,collateral]

structure Registry where
  locks : Option LockTable
  risk : Transfer
  lending : Transfer
  hub : Option Address

def Registry.storage (r : Registry) : Storage :=
  { lockDict := r.locks.map (fun table => .dictionary table.entries)
    risk := r.risk.data
    lending := r.lending.data
    paymentHub := slotBits r.hub }

def Registry.cell (r : Registry) : Cell := r.storage.cell

def Registry.transfer (r : Registry) : Role → Transfer
  | .riskAuthority => r.risk
  | .lendingAdapter => r.lending

def Registry.setTransfer (r : Registry) (role : Role) (t : Transfer) : Registry :=
  match role with
  | .riskAuthority => {r with risk := t}
  | .lendingAdapter => {r with lending := t}

def Role.other : Role → Role
  | .riskAuthority => .lendingAdapter
  | .lendingAdapter => .riskAuthority

theorem slotBits_some : slotBits slot = address.bits ↔ slot = some address := by
  cases slot with
  | none =>
    simp only [slotBits,reduceCtorEq,iff_false]
    intro same
    have lengths := congrArg List.length same
    rw [Address.bits_length] at lengths
    exact absurd lengths (by decide)
  | some other => simp [slotBits,Address.bits_injective.eq_iff]

theorem slotBits_length (slot : Option Address) :
    (slotBits slot).length = if slot = none then 2 else 267 := by
  cases slot with
  | none => rfl
  | some address => simp [slotBits]

theorem loadMsgAddr_slot (slot : Option Address) (rest : List Bool) (refs : List Cell) :
    Slice.loadMsgAddr ⟨slotBits slot ++ rest,refs⟩ = .ok (slotBits slot,⟨rest,refs⟩) := by
  cases slot with
  | none => exact Slice.loadMsgAddr_none rest refs
  | some address => exact Slice.loadMsgAddr_std address rest refs

theorem preload_slot (slot : Option Address) :
    Slice.preloadUint 2 (slotBits slot) = .ok (if slot = none then 0 else 2) := by
  cases slot with
  | none => rfl
  | some address => rfl

theorem storage_inRange (r : Registry) : r.storage.InRange :=
  ⟨Bool.toNat_lt _,r.risk.executableAt.isLt,Bool.toNat_lt _,r.lending.executableAt.isLt⟩

/-- The root cell holds one pending address and never two. -/
theorem storage_fits (r : Registry) :
    r.storage.bits.length ≤ maxBits ↔ r.risk.slot = none ∨ r.lending.slot = none := by
  simp only [Storage.bits_length,Registry.storage,Transfer.data,Address.bits_length,
    slotBits_length,maxBits]
  by_cases risk : r.risk.slot = none <;> by_cases lending : r.lending.slot = none <;>
    simp [risk,lending]

theorem hub_fits (r : Registry) : r.storage.paymentHub.length ≤ maxBits := by
  change (slotBits r.hub).length ≤ maxBits
  rw [slotBits_length]
  split <;> decide

theorem saveData_registry (r : Registry) :
    saveData r.storage = .ok data ↔
      data = r.cell ∧ (r.risk.slot = none ∨ r.lending.slot = none) := by
  rw [saveData_ok _ (hub_fits r),storage_fits]
  simp [storage_inRange,Registry.cell]

theorem loadDict_append (dict : Option Cell) (rest : List Bool) (refs : List Cell) :
    Slice.loadDict ⟨uintBits 1 dict.toList.length ++ rest,dict.toList ++ refs⟩ =
      .ok (dict,⟨rest,refs⟩) := by
  have present := Slice.loadUint_append 1 dict.toList.length rest (dict.toList ++ refs)
    (by cases dict <;> simp)
  rw [Slice.loadDict,present]
  cases dict <;> rfl

section Transfer
variable (t : Transfer) (rest : List Bool) (refs : List Cell)

theorem load_holder : Slice.loadMsgAddr ⟨t.data.holder ++ rest,refs⟩ =
    .ok (t.data.holder,⟨rest,refs⟩) := Slice.loadMsgAddr_std t.holder rest refs

theorem load_present : Slice.loadUint 1 ⟨uintBits 1 t.data.pendingPresent ++ rest,refs⟩ =
    .ok (t.data.pendingPresent,⟨rest,refs⟩) :=
  Slice.loadUint_append 1 _ rest refs (Bool.toNat_lt _)

theorem load_pending : Slice.loadMsgAddr ⟨t.data.pending ++ rest,refs⟩ =
    .ok (t.data.pending,⟨rest,refs⟩) := loadMsgAddr_slot t.slot rest refs

theorem load_pendingAt : Slice.loadUint 32 ⟨uintBits 32 t.data.pendingAt ++ rest,refs⟩ =
    .ok (t.data.pendingAt,⟨rest,refs⟩) :=
  Slice.loadUint_append 32 _ rest refs t.executableAt.isLt

end Transfer

/-- `load_data` recovers what `save_data` stored. -/
theorem loadData_cell (r : Registry) : loadData r.cell = .ok r.storage := by
  have hub := loadMsgAddr_slot r.hub [] []
  rw [List.append_nil] at hub
  simp only [loadData,Registry.cell,Storage.cell,Storage.bits,Storage.segments,Registry.storage,
    Cell.beginParse,List.flatten_cons,loadDict_append,load_holder,load_present,load_pending,
    load_pendingAt,Slice.loadRef,hub,ok_bind]
  rfl

inductive LockChange where
  | setFraudLock
  | clearFraudLock
  | setCollateralLock
  | clearCollateralLock
  deriving DecidableEq, Repr

def LockChange.code : LockChange → Nat
  | .setFraudLock => opSetFraudLock
  | .clearFraudLock => opClearFraudLock
  | .setCollateralLock => opSetCollateralLock
  | .clearCollateralLock => opClearCollateralLock

def LockChange.role : LockChange → Role
  | .setFraudLock | .clearFraudLock => .riskAuthority
  | .setCollateralLock | .clearCollateralLock => .lendingAdapter

def LockChange.apply (change : LockChange) (flags : LockState) : LockState :=
  match change with
  | .setFraudLock => {flags with fraudLocked := true}
  | .clearFraudLock => {flags with fraudLocked := false}
  | .setCollateralLock => {flags with collateralLocked := true}
  | .clearCollateralLock => {flags with collateralLocked := false}

/-- The same change on the flags as they are loaded. -/
def LockChange.update : LockChange → Nat × Nat → Nat × Nat
  | .setFraudLock,locks => (1,locks.2)
  | .clearFraudLock,locks => (0,locks.2)
  | .setCollateralLock,locks => (locks.1,1)
  | .clearCollateralLock,locks => (locks.1,0)

def proposeCode : Role → Nat
  | .riskAuthority => opProposeRiskAuthority
  | .lendingAdapter => opProposeLendingAdapter

def executeCode : Role → Nat
  | .riskAuthority => opExecuteRiskAuthority
  | .lendingAdapter => opExecuteLendingAdapter

def cancelCode : Role → Nat
  | .riskAuthority => opCancelRiskAuthority
  | .lendingAdapter => opCancelLendingAdapter

inductive Operation where
  | bindPaymentHub (hub : Address)
  | lock (change : LockChange) (nftAddress : Address)
  | checkCanSend (nftAddress : Address)
  | propose (role : Role) (proposed : Address)
  | execute (role : Role)
  | cancel (role : Role)

def Operation.code : Operation → Nat
  | .bindPaymentHub _ => opBindPaymentHub
  | .lock change _ => change.code
  | .checkCanSend _ => opCheckCanSend
  | .propose role _ => proposeCode role
  | .execute role => executeCode role
  | .cancel role => cancelCode role

theorem Operation.code_lt (operation : Operation) : operation.code < 2^32 := by
  cases operation with
  | bindPaymentHub => exact (by decide : opBindPaymentHub < 2^32)
  | checkCanSend => exact (by decide : opCheckCanSend < 2^32)
  | lock change => exact (by cases change <;> decide : change.code < 2^32)
  | propose role => exact (by cases role <;> decide : proposeCode role < 2^32)
  | execute role => exact (by cases role <;> decide : executeCode role < 2^32)
  | cancel role => exact (by cases role <;> decide : cancelCode role < 2^32)

def Operation.argument : Operation → List Bool
  | .bindPaymentHub address | .lock _ address | .checkCanSend address | .propose _ address =>
    address.bits
  | .execute _ | .cancel _ => []

/-- An operation sent by a standard address; of the header only the flags and the sender
are read. -/
structure Call where
  sender : Address
  now : Nat
  operation : Operation
  ihrDisabled : Bool
  bounce : Bool
  header : List Bool
  headerRefs : List Cell

def Call.inMsgFull (call : Call) : Cell :=
  .ordinary ([false,call.ihrDisabled,call.bounce,false] ++ (call.sender.bits ++ call.header))
    call.headerRefs

def Call.inMsgBody (call : Call) : Slice :=
  ⟨uintBits 32 call.operation.code ++ call.operation.argument,[]⟩

variable (sliceHash : List Bool → Nat)

/-- A call reaches the handler of its operation. -/
theorem recvInternal_call (call : Call) (loaded : loadData data = .ok s) :
    recvInternal sliceHash call.now call.inMsgFull call.inMsgBody data =
      match call.operation with
      | .bindPaymentHub hub => recvBindPaymentHub call.sender.bits ⟨hub.bits,[]⟩ s
      | .lock change nft =>
        recvLock sliceHash change.role change.update call.sender.bits ⟨nft.bits,[]⟩ s data
      | .checkCanSend nft => recvCheckCanSend sliceHash ⟨nft.bits,[]⟩ data
      | .propose role proposed => recvPropose role call.now call.sender.bits ⟨proposed.bits,[]⟩ s
      | .execute role => recvExecute role call.now call.sender.bits s
      | .cancel role => recvCancel role call.sender.bits s := by
  obtain ⟨sender,now,operation,ihrDisabled,bounce,header,headerRefs⟩ := call
  have code := operation.code_lt
  have filled : (uintBits 32 operation.code ++ operation.argument).isEmpty = false := rfl
  have flags : ∃ flags, Slice.loadUint 4 ⟨[false,ihrDisabled,bounce,false] ++
      (sender.bits ++ header),headerRefs⟩ = .ok (flags,⟨sender.bits ++ header,headerRefs⟩) ∧
      flags &&& 1 = 0 := by
    refine ⟨uintOf [false,ihrDisabled,bounce,false],rfl,?_⟩
    cases ihrDisabled <;> cases bounce <;> decide
  obtain ⟨flags,loadedFlags,delivered⟩ := flags
  simp only [recvInternal,Call.inMsgBody,Call.inMsgFull,Cell.beginParse,filled,Bool.false_eq_true,
    false_and,if_false,loadedFlags,ok_bind,delivered,ne_eq,not_true,Slice.loadMsgAddr_std,
    Slice.loadUint_append _ _ _ _ code,loaded]
  cases operation with
  | lock change => cases change <;> rfl
  | propose role | execute role | cancel role => cases role <;> rfl
  | _ => rfl

section Locks

/-- The flags of an account as `get_lock_state` returns them. -/
def flagPair (flags : LockState) : Nat × Nat :=
  (flags.fraudLocked.toNat,flags.collateralLocked.toNat)

def lockAt (locks : Option LockTable) (key : Nat) : LockState :=
  match locks.bind (fun table => table.entries.get key) with
  | some [fraudLocked,collateralLocked] => ⟨fraudLocked,collateralLocked⟩
  | _ => defaultLockState

def lockEntries : Option LockTable → FiniteMap Nat (List Bool)
  | none => ∅
  | some table => table.entries

def setLockAt (locks : Option LockTable) (key : Nat) (flags : LockState) : LockTable where
  entries := (lockEntries locks).set key [flags.fraudLocked,flags.collateralLocked]
  flags := by
    intro other value stored
    rw [FiniteMap.get_set] at stored
    split at stored
    · exact ⟨_,_,(Option.some.inj stored).symm⟩
    · cases locks with
      | none => simp [lockEntries] at stored
      | some table => exact table.flags other value stored

theorem update_flagPair (change : LockChange) (flags : LockState) :
    change.update (flagPair flags) = flagPair (change.apply flags) := by cases change <;> rfl

/-- The dictionary a lock table is stored as. -/
def lockCell (locks : Option LockTable) : Option Cell :=
  locks.map (fun table => .dictionary table.entries)

theorem lockState_table (locks : Option LockTable) (nftAddress : List Bool) :
    lockState sliceHash (lockCell locks) nftAddress =
      .ok (flagPair (lockAt locks (sliceHash nftAddress))) := by
  unfold lockState lockAt
  cases locks with
  | none => rfl
  | some table =>
    simp only [lockCell,Option.map_some,udictGet,ok_bind,Option.bind_some]
    cases stored : table.entries.get (sliceHash nftAddress) with
    | none => rfl
    | some value =>
      obtain ⟨fraudLocked,collateralLocked,rfl⟩ := table.flags _ _ stored
      cases fraudLocked <;> cases collateralLocked <;> rfl

theorem lockState_registry (r : Registry) (nftAddress : List Bool) :
    lockState sliceHash r.storage.lockDict nftAddress =
      .ok (flagPair (lockAt r.locks (sliceHash nftAddress))) :=
  lockState_table sliceHash r.locks nftAddress

theorem setLock_table (locks : Option LockTable) (nftAddress : List Bool) (flags : LockState) :
    setLock sliceHash (lockCell locks) nftAddress (flagPair flags).1 (flagPair flags).2 =
      .ok (lockCell (some (setLockAt locks (sliceHash nftAddress) flags))) := by
  obtain ⟨fraudLocked,collateralLocked⟩ := flags
  have first : beginCell.storeUint fraudLocked.toNat 1 = .ok ⟨[fraudLocked],[]⟩ := by
    cases fraudLocked <;> rfl
  have second : Builder.storeUint collateralLocked.toNat 1 ⟨[fraudLocked],[]⟩ =
      .ok ⟨[fraudLocked,collateralLocked],[]⟩ := by cases collateralLocked <;> rfl
  simp only [setLock,flagPair,first,second,ok_bind]
  cases locks <;> simp [lockCell,udictSet,setLockAt,lockEntries]

theorem setLock_registry (r : Registry) (nftAddress : List Bool) (flags : LockState) :
    setLock sliceHash r.storage.lockDict nftAddress (flagPair flags).1 (flagPair flags).2 =
      .ok (some (.dictionary (setLockAt r.locks (sliceHash nftAddress) flags).entries)) :=
  setLock_table sliceHash r.locks nftAddress flags

end Locks

/-- The registry an operation is meant to leave. -/
def Registry.after (r : Registry) (call : Call) : Registry :=
  match call.operation with
  | .bindPaymentHub hub => {r with hub := some hub}
  | .lock change nftAddress =>
    let key := sliceHash nftAddress.bits
    {r with locks := some (setLockAt r.locks key (change.apply (lockAt r.locks key)))}
  | .checkCanSend _ => r
  | .propose role proposed =>
    r.setTransfer role ⟨(r.transfer role).holder,true,some proposed,
      BitVec.ofNat 32 (call.now + roleTransferDelay)⟩
  | .execute role => r.setTransfer role ⟨call.sender,false,some call.sender,0⟩
  | .cancel role =>
    r.setTransfer role ⟨(r.transfer role).holder,false,some (r.transfer role).holder,0⟩

/-- The authorization, pending and timelock checks of an operation. -/
def Registry.Authorized (r : Registry) (call : Call) : Prop :=
  match call.operation with
  | .bindPaymentHub _ => call.sender = r.risk.holder
  | .lock change _ => call.sender = (r.transfer change.role).holder
  | .checkCanSend nftAddress => isLocked (lockAt r.locks (sliceHash nftAddress.bits)) = false
  | .propose role _ => call.sender = (r.transfer role).holder
  | .execute role =>
    (r.transfer role).present = true ∧ (r.transfer role).slot = some call.sender ∧
      (r.transfer role).executableAt.toNat ≤ call.now
  | .cancel role =>
    call.sender = (r.transfer role).holder ∧ (r.transfer role).present = true

/-- What else decides: the hub is bound once and before any lock operation, and a proposal
needs the other role's slot never used and a 32-bit deadline. -/
def Registry.Clear (r : Registry) (call : Call) : Prop :=
  match call.operation with
  | .bindPaymentHub _ => r.hub = none
  | .lock _ _ => r.hub ≠ none
  | .propose role _ =>
    (r.transfer role.other).slot = none ∧ call.now + roleTransferDelay < 2^32
  | _ => True

/-- Both pending slots do not fit into one root cell. -/
def Registry.Fits (r : Registry) : Prop := r.risk.slot = none ∨ r.lending.slot = none

section Handlers
variable (r : Registry) (sender address : Address)

theorem load_address : Slice.loadMsgAddr ⟨address.bits,[]⟩ = .ok (address.bits,⟨[],[]⟩) := by
  have front := Slice.loadMsgAddr_std address [] []
  rwa [List.append_nil] at front

theorem address_bits_eq : sender.bits = address.bits ↔ sender = address :=
  Address.bits_injective.eq_iff

theorem storage_role (role : Role) : r.storage.role role = (r.transfer role).data := by
  cases role <;> rfl

theorem storage_setRole (role : Role) (t : Transfer) :
    r.storage.setRole role t.data = (r.setTransfer role t).storage := by cases role <;> rfl

theorem saveData_bind {next : Cell → Result (Cell × List RawMessage)} :
    (saveData r.storage >>= next) = .ok result ↔ r.Fits ∧ next r.cell = .ok result := by
  simp only [bind_ok,saveData_registry,Registry.Fits,and_assoc,exists_eq_left]

theorem recvBindPaymentHub_ok : recvBindPaymentHub sender.bits ⟨address.bits,[]⟩ r.storage =
    .ok (data,messages) ↔
      (sender = r.risk.holder ∧ r.hub = none) ∧ Registry.Fits {r with hub := some address} ∧
        data = Registry.cell {r with hub := some address} ∧ messages = [] := by
  have tag : Slice.preloadUint 2 address.bits = .ok 2 := preload_slot (some address)
  have bound : Slice.preloadUint 2 r.storage.paymentHub = _ := preload_slot r.hub
  have saved : {r.storage with paymentHub := address.bits} =
      Registry.storage {r with hub := some address} := rfl
  have unbound : (if r.hub = none then 0 else 2) = 0 ↔ r.hub = none := by split <;> simp_all
  have holder : sender.bits = r.storage.risk.holder ↔ sender = r.risk.holder :=
    address_bits_eq sender r.risk.holder
  simp only [recvBindPaymentHub,throwUnless_bind_ok,bound,load_address,tag,ok_bind,saved,
    saveData_bind,pure_ok,Prod.mk.injEq,unbound,holder,true_and,and_assoc,eq_comm (a := data),
    eq_comm (a := messages)]

theorem recvExecute_ok (role : Role) (now : Nat) : recvExecute role now sender.bits r.storage =
    .ok (data,messages) ↔
      ((r.transfer role).present = true ∧ (r.transfer role).slot = some sender ∧
        (r.transfer role).executableAt.toNat ≤ now) ∧
      (r.setTransfer role ⟨sender,false,some sender,0⟩).Fits ∧
      data = (r.setTransfer role ⟨sender,false,some sender,0⟩).cell ∧ messages = [] := by
  have present : (r.transfer role).data.pendingPresent ≠ 0 ↔ (r.transfer role).present = true :=
    Bool.toNat_eq_zero.not.trans (by simp)
  have pending : sender.bits = (r.transfer role).data.pending ↔
      (r.transfer role).slot = some sender := eq_comm.trans slotBits_some
  simp only [recvExecute,throwUnless_bind_ok,storage_role,present,pending,and_assoc]
  refine and_congr_right fun _ => and_congr_right fun slot => and_congr_right fun _ => ?_
  have saved : r.storage.setRole role ⟨(r.transfer role).data.pending,0,
      (r.transfer role).data.pending,0⟩ =
      (r.setTransfer role ⟨sender,false,some sender,0⟩).storage := by
    rw [← pending.mpr slot,← storage_setRole]
    rfl
  simp only [saved,saveData_bind,pure_ok,Prod.mk.injEq,eq_comm (a := data),
    eq_comm (a := messages)]

theorem recvCancel_ok (role : Role) : recvCancel role sender.bits r.storage =
    .ok (data,messages) ↔
      (sender = (r.transfer role).holder ∧ (r.transfer role).present = true) ∧
      (r.setTransfer role ⟨(r.transfer role).holder,false,some (r.transfer role).holder,0⟩).Fits ∧
      data = (r.setTransfer role
        ⟨(r.transfer role).holder,false,some (r.transfer role).holder,0⟩).cell ∧
      messages = [] := by
  have present : (r.transfer role).data.pendingPresent ≠ 0 ↔ (r.transfer role).present = true :=
    Bool.toNat_eq_zero.not.trans (by simp)
  have holder : sender.bits = (r.transfer role).data.holder ↔ sender = (r.transfer role).holder :=
    address_bits_eq sender _
  have saved : r.storage.setRole role ⟨(r.transfer role).data.holder,0,
      (r.transfer role).data.holder,0⟩ = (r.setTransfer role
        ⟨(r.transfer role).holder,false,some (r.transfer role).holder,0⟩).storage := by
    rw [← storage_setRole]
    rfl
  simp only [recvCancel,throwUnless_bind_ok,storage_role,present,holder,saved,saveData_bind,
    pure_ok,Prod.mk.injEq,and_assoc,eq_comm (a := data),eq_comm (a := messages)]

/-- A deadline beyond 32 bits is refused by the store, not truncated. -/
theorem recvPropose_ok (role : Role) (now : Nat) :
    recvPropose role now sender.bits ⟨address.bits,[]⟩ r.storage = .ok (data,messages) ↔
      sender = (r.transfer role).holder ∧ now + roleTransferDelay < 2^32 ∧
      (r.setTransfer role ⟨(r.transfer role).holder,true,some address,
        BitVec.ofNat 32 (now + roleTransferDelay)⟩).Fits ∧
      data = (r.setTransfer role ⟨(r.transfer role).holder,true,some address,
        BitVec.ofNat 32 (now + roleTransferDelay)⟩).cell ∧
      messages = [] := by
  have holder : sender.bits = (r.transfer role).data.holder ↔ sender = (r.transfer role).holder :=
    address_bits_eq sender _
  simp only [recvPropose,throwUnless_bind_ok,storage_role,holder,load_address,ok_bind]
  refine and_congr_right fun _ => ?_
  by_cases fits : now + roleTransferDelay < 2^32
  · have saved : r.storage.setRole role ⟨(r.transfer role).data.holder,1,address.bits,
        now + roleTransferDelay⟩ = (r.setTransfer role ⟨(r.transfer role).holder,true,some address,
          BitVec.ofNat 32 (now + roleTransferDelay)⟩).storage := by
      rw [← storage_setRole]
      simp only [Transfer.data,BitVec.toNat_ofNat,Nat.mod_eq_of_lt fits,slotBits]
      rfl
    simp only [saved,saveData_bind,pure_ok,Prod.mk.injEq,fits,true_and,eq_comm (a := data),
      eq_comm (a := messages)]
  · simp only [fits,false_and,iff_false,bind_ok]
    rintro ⟨saved,store,-⟩
    have hub : (r.storage.setRole role ⟨(r.transfer role).data.holder,1,address.bits,
        now + roleTransferDelay⟩).paymentHub.length ≤ maxBits := by
      cases role <;> exact hub_fits r
    obtain ⟨-,range,-⟩ := (saveData_ok _ hub).mp store
    cases role with
    | riskAuthority => exact fits range.riskAt
    | lendingAdapter => exact fits range.lendingAt

/-- The lock message always fits into a cell, and only a bound hub receives it. -/
theorem emitAccountLock_ok : (∃ message,
    emitAccountLock sliceHash r.cell (slotBits r.hub) address.bits = .ok message) ↔
      r.hub ≠ none := by
  have coins (b : Builder) : b.storeCoins 50000000 =
      (b.storeUint 4 4 >>= fun b => b.storeUint 50000000 32) := rfl
  simp only [emitAccountLock,preload_slot,ok_bind,throwUnless_bind_ok,loadData_cell,
    lockState_registry,coins]
  cases hub : r.hub with
  | none => simp
  | some bound =>
    have destination : r.storage.paymentHub = bound.bits := by simp [Registry.storage,hub,slotBits]
    simp only [bind_ok,Builder.storeUint_ok,Builder.storeBits_ok,exists_eq_left,and_assoc,
      destination,flagPair,beginCell,exists_and_left]
    have fraud := Bool.toNat_lt (lockAt r.locks (sliceHash address.bits)).fraudLocked
    have collateral := Bool.toNat_lt (lockAt r.locks (sliceHash address.bits)).collateralLocked
    simp [maxBits]
    omega

theorem recvLock_ok (change : LockChange) :
    (∃ messages, recvLock sliceHash change.role change.update sender.bits ⟨address.bits,[]⟩
      r.storage r.cell = .ok (data,messages)) ↔
    sender = (r.transfer change.role).holder ∧ r.Fits ∧ r.hub ≠ none ∧
      data = Registry.cell {r with locks := some (setLockAt r.locks (sliceHash address.bits)
        (change.apply (lockAt r.locks (sliceHash address.bits))))} := by
  have holder : sender.bits = (r.transfer change.role).data.holder ↔
      sender = (r.transfer change.role).holder := address_bits_eq sender _
  generalize locked : ({r with locks := some (setLockAt r.locks (sliceHash address.bits)
    (change.apply (lockAt r.locks (sliceHash address.bits))))} : Registry) = after
  have saved : {r.storage with lockDict := some (.dictionary (setLockAt r.locks
      (sliceHash address.bits) (change.apply (lockAt r.locks (sliceHash address.bits)))).entries)} =
      after.storage := locked ▸ rfl
  have hub : r.storage.paymentHub = slotBits after.hub := locked ▸ rfl
  have fits : after.Fits ↔ r.Fits := locked ▸ Iff.rfl
  have bound : after.hub = r.hub := locked ▸ rfl
  have emits : (∃ message, emitAccountLock sliceHash after.cell r.storage.paymentHub
      address.bits = .ok message) ↔ r.hub ≠ none := by rw [hub,emitAccountLock_ok,bound]
  simp only [recvLock,throwUnless_bind_ok,storage_role,holder,load_address,ok_bind,getLockState,
    loadData_cell,lockState_registry,update_flagPair,setLock_registry,saved,saveData_bind,fits]
  rw [← emits]
  simp only [bind_ok,pure_ok,Prod.mk.injEq]
  constructor
  · rintro ⟨_,owner,room,message,emitted,rfl,-⟩
    exact ⟨owner,room,⟨message,emitted⟩,rfl⟩
  · rintro ⟨owner,room,⟨message,emitted⟩,rfl⟩
    exact ⟨_,owner,room,message,emitted,rfl,rfl⟩

theorem recvCheckCanSend_ok : recvCheckCanSend sliceHash ⟨address.bits,[]⟩ r.cell =
    .ok (data,messages) ↔
      isLocked (lockAt r.locks (sliceHash address.bits)) = false ∧ data = r.cell ∧
        messages = [] := by
  have open_ : (if (flagPair (lockAt r.locks (sliceHash address.bits))).1 |||
      (flagPair (lockAt r.locks (sliceHash address.bits))).2 ≠ 0 then 0 else 1) ≠ 0 ↔
      isLocked (lockAt r.locks (sliceHash address.bits)) = false := by
    obtain ⟨fraudLocked,collateralLocked⟩ := lockAt r.locks (sliceHash address.bits)
    cases fraudLocked <;> cases collateralLocked <;> decide
  simp only [recvCheckCanSend,load_address,ok_bind,canSend,getLockState,loadData_cell,
    lockState_registry,pure,Except.pure,throwUnless_bind_ok,open_,Except.ok.injEq,Prod.mk.injEq,
    eq_comm (a := data),eq_comm (a := messages)]

end Handlers

end Tonbankcard.AccountLocks
