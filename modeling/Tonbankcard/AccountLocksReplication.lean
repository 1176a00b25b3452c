import Tonbankcard.AccountLocksRoles
import Tonbankcard.FifoReplica
import Tonbankcard.MerchantPaymentHubAuthority

/-! The replication of locks into the payment hub. The lock messages of the contract travel
to the hub in order; the hub reads them as its own messages and stores what they carry. -/
namespace Tonbankcard.AccountLocks

open Ton FifoReplica

def opApplyAccountLock : Nat := 1170261328

section Flags
variable (sliceHash : List Bool → Nat)

/-- The lock state of an address, as `get_account_lock_state` returns it. -/
def flagsAt (data : Cell) (address : List Bool) : LockState :=
  match getLockState sliceHash data address with
  | .ok (fraudLocked,collateralLocked) => ⟨fraudLocked != 0,collateralLocked != 0⟩
  | .error _ => defaultLockState

variable {sliceHash} {s : Storage}

theorem flagsAt_stored (stored : Stored data s) (locks : Option LockTable)
    (tabled : s.lockDict = lockCell locks) (address : List Bool) :
    flagsAt sliceHash data address = lockAt locks (sliceHash address) := by
  simp only [flagsAt,getLockState,stored.loaded,ok_bind,tabled,lockState_table]
  generalize lockAt locks (sliceHash address) = flags
  obtain ⟨fraudLocked,collateralLocked⟩ := flags
  cases fraudLocked <;> cases collateralLocked <;> rfl

theorem lockAt_setLockAt (locks : Option LockTable) (key other : Nat) (flags : LockState) :
    lockAt (some (setLockAt locks key flags)) other =
      if other = key then flags else lockAt locks other := by
  simp only [lockAt,setLockAt,Option.bind_some,FiniteMap.get_set]
  by_cases same : other = key
  · simp [same]
  · simp only [if_neg same]
    cases locks with
    | none => simp [lockEntries]
    | some table => rfl

/-- A lock operation stores the changed flags of its address. -/
theorem setLock_change (locks : Option LockTable) (tabled : s.lockDict = lockCell locks)
    (change : LockChange)
    (loaded : lockState sliceHash s.lockDict nftAddress = .ok flags)
    (stored : setLock sliceHash s.lockDict nftAddress (change.update flags).1
      (change.update flags).2 = .ok lockDict) :
    lockDict = lockCell (some (setLockAt locks (sliceHash nftAddress)
      (change.apply (lockAt locks (sliceHash nftAddress))))) := by
  rw [tabled,lockState_table] at loaded
  obtain rfl := Except.ok.inj loaded
  rw [tabled,update_flagPair,setLock_table] at stored
  exact (Except.ok.inj stored).symm

end Flags

section Wire

/-- The destination of an outbound message and its body, behind the rest of the header. -/
def RawMessage.route (m : RawMessage) : Result (List Bool × Slice) := do
  let (_,cs) ← m.message.beginParse.loadUint 6
  let (destination,cs) ← cs.loadMsgAddr
  let (bytes,cs) ← cs.loadUint 4
  let (_,cs) ← cs.loadUint (8 * bytes)
  let (_,body) ← cs.loadUint (1 + 4 + 4 + 64 + 32 + 1 + 1)
  pure (destination,body)

/-- A standard address without anycast, read back from its bits. -/
def stdAddress (bits : List Bool) : Option Address :=
  if bits.length = 267 ∧ bits.take 3 = [true,false,false] then
    some ⟨BitVec.ofNat 8 (uintOf ((bits.drop 3).take 8)),BitVec.ofNat 256 (uintOf (bits.drop 11))⟩
  else none

/-- The hub's own reading of a body. Which workchains its address fields admit is up to the
compiler it was built with. -/
def loadApplyAccountLock (supported : Address → Bool) (body : Slice) :
    Result (Address × LockState) := do
  let (op,s) ← body.loadUint 32
  throwUnless 130 (op = opApplyAccountLock)
  let (bits,s) ← s.loadMsgAddr
  match stdAddress bits with
  | none => .error (.exit 136)
  | some nftAddress => do
    throwUnless 136 (supported nftAddress = true)
    let (fraudLocked,s) ← s.loadUint 1
    let (collateralLocked,_) ← s.loadUint 1
    pure (nftAddress,⟨fraudLocked != 0,collateralLocked != 0⟩)

def lockBody (nftAddress : List Bool) (flags : LockState) : Slice :=
  ⟨uintBits 32 opApplyAccountLock ++ (nftAddress ++ (uintBits 1 flags.fraudLocked.toNat ++
    uintBits 1 flags.collateralLocked.toNat)),[]⟩

theorem uintBits_uintOf (bits : List Bool) : uintBits bits.length (uintOf bits) = bits := by
  refine uintOf_injective (uintBits_length _ _) ?_
  rw [uintOf_uintBits,Nat.mod_eq_of_lt (uintOf_lt bits)]

theorem stdAddress_bits (address : Address) : stdAddress address.bits = some address := by
  have workchain : ((address.bits.drop 3).take 8) = uintBits 8 address.workchain.toNat := by
    simp [Address.bits]
  have account : address.bits.drop 11 = uintBits 256 address.account.toNat := by
    simp [Address.bits]
  have front : address.bits.take 3 = [true,false,false] := rfl
  rw [stdAddress,if_pos ⟨address.bits_length,front⟩,workchain,account,uintOf_uintBits,
    uintOf_uintBits,Nat.mod_eq_of_lt address.workchain.isLt,
    Nat.mod_eq_of_lt address.account.isLt,BitVec.ofNat_toNat,BitVec.ofNat_toNat]
  rfl

theorem stdAddress_some (read : stdAddress source = some address) : source = address.bits := by
  unfold stdAddress at read
  split at read
  · rename_i shape
    obtain ⟨length,front⟩ := shape
    obtain rfl := Option.some.inj read
    have workchain := uintBits_uintOf ((source.drop 3).take 8)
    have account := uintBits_uintOf (source.drop 11)
    have small := uintOf_lt ((source.drop 3).take 8)
    have small' := uintOf_lt (source.drop 11)
    have byte : ((source.drop 3).take 8).length = 8 := by simp [length]
    have hash : (source.drop 11).length = 256 := by simp [length]
    rw [byte] at workchain small
    rw [hash] at account small'
    simp only [Address.bits,BitVec.toNat_ofNat]
    rw [Nat.mod_eq_of_lt small,Nat.mod_eq_of_lt small',← front,workchain,account,
      List.append_assoc]
    have rest := List.take_append_drop 8 (source.drop 3)
    rw [List.drop_drop] at rest
    rw [rest,List.take_append_drop]
  · contradiction

/-- The contract's message goes to its hub and carries the flags it has just stored. -/
theorem emitted_route {s : Storage} (stored : Stored data s) (locks : Option LockTable)
    (tabled : s.lockDict = lockCell locks)
    (emitted : emitAccountLock sliceHash data hub nftAddress = .ok message) :
    Slice.preloadUint 2 hub = .ok 2 ∧ message.route =
      .ok (s.paymentHub,lockBody nftAddress (lockAt locks (sliceHash nftAddress))) := by
  have coins (b : Builder) : b.storeCoins 50000000 =
      (b.storeUint 4 4 >>= fun b => b.storeUint 50000000 32) := rfl
  obtain ⟨tag,slot,emitted⟩ := bind_ok.mp emitted
  obtain ⟨bound,emitted⟩ := throwUnless_bind_ok.mp emitted
  simp only [stored.loaded,ok_bind,tabled,lockState_table,coins,flagPair] at emitted
  simp only [bind_ok,Builder.storeUint_ok,Builder.storeBits_ok,exists_eq_left,and_assoc,
    beginCell,pure_ok] at emitted
  obtain ⟨-,-,-,-,middle,-,-,-,rfl,emitted⟩ := emitted
  obtain ⟨-,-,-,-,-,-,-,-,-,-,-,-,-,-,-,-,rfl⟩ := emitted
  refine ⟨bound ▸ slot,?_⟩
  have header (rest : List Bool) (refs : List Cell) :
      Slice.loadUint 6 ⟨uintBits 6 (Int.toNat 16) ++ rest,refs⟩ = .ok (16,⟨rest,refs⟩) :=
    Slice.loadUint_append 6 16 rest refs (by decide)
  have size (rest : List Bool) (refs : List Cell) :
      Slice.loadUint 4 ⟨uintBits 4 (Int.toNat 4) ++ rest,refs⟩ = .ok (4,⟨rest,refs⟩) :=
    Slice.loadUint_append 4 4 rest refs (by decide)
  have value (rest : List Bool) (refs : List Cell) :
      Slice.loadUint (8 * 4) ⟨uintBits 32 (Int.toNat 50000000) ++ rest,refs⟩ =
        .ok (50000000,⟨rest,refs⟩) := Slice.loadUint_append 32 50000000 rest refs (by decide)
  have zeros (rest : List Bool) (refs : List Cell) : Slice.loadUint (1 + 4 + 4 + 64 + 32 + 1 + 1)
      ⟨uintBits (1 + 4 + 4 + 64 + 32 + 1 + 1) (Int.toNat 0) ++ rest,refs⟩ =
        .ok (0,⟨rest,refs⟩) := Slice.loadUint_append 107 0 rest refs (by decide)
  simp only [RawMessage.route,Builder.endCell,Cell.beginParse,List.nil_append,List.append_assoc,
    header,stored.readable.paymentHub _ _,size,value,zeros,ok_bind]
  rfl

theorem loadApplyAccountLock_body (supported : Address → Bool)
    (address : MsgAddr nftAddress) (flags : LockState) :
    loadApplyAccountLock supported (lockBody nftAddress flags) =
      match stdAddress nftAddress with
      | none => .error (.exit 136)
      | some nft => if supported nft = true then .ok (nft,flags) else .error (.exit 136) := by
  have fraud := Slice.loadUint_append 1 flags.fraudLocked.toNat
    (uintBits 1 flags.collateralLocked.toNat) [] (Bool.toNat_lt _)
  have collateral := Slice.loadUint_append 1 flags.collateralLocked.toNat [] [] (Bool.toNat_lt _)
  rw [List.append_nil] at collateral
  have op : opApplyAccountLock < 2^32 := by decide
  simp only [loadApplyAccountLock,lockBody,Slice.loadUint_append _ _ _ _ op,ok_bind,throwUnless,
    if_true,address _ _]
  cases stdAddress nftAddress with
  | none => rfl
  | some nft =>
    simp only [fraud,collateral,ok_bind]
    obtain ⟨fraudLocked,collateralLocked⟩ := flags
    split
    · cases fraudLocked <;> cases collateralLocked <;> rfl
    · rfl

end Wire

/-- The two contracts with the lock messages in flight between them, oldest first. -/
structure World where
  data : Cell
  channel : List Slice
  hub : MerchantPaymentHub.State

/-- What happens next: a message arrives at AccountLocks, the oldest lock message arrives at
the hub, or the hub receives a message from anyone else. -/
inductive Event where
  | arrive (m : Incoming)
  | deliver (value now : Nat)
  | call (d : Delivery MerchantPaymentHub.Message)

/-- The addresses the two contracts are deployed at and with. -/
structure Deployment where
  accountLocks : Address
  paymentHub : Address
  riskAuthority : Address
  lendingAdapter : Address
  deployer : Address
  nftResolver : Address
  tbcSettlement : Address

section Run
variable (sliceHash : List Bool → Nat) (hash : Cell → Int) (supported : Address → Bool)

def toHub (hubAddress : Address) (m : RawMessage) : Option Slice :=
  match m.route with
  | .ok (destination,body) => if destination = hubAddress.bits then some body else none
  | .error _ => none

/-- A body that the hub cannot read or refuses is dropped: it does not bounce. -/
def hubReceives (locksAddress : Address) (value now : Nat) (body : Slice) (hub : MerchantPaymentHub.State) :
    MerchantPaymentHub.State :=
  match loadApplyAccountLock supported body with
  | .error _ => hub
  | .ok (nftAddress,lockState) =>
    match MerchantPaymentHub.receive hash ⟨locksAddress,value,now⟩
        (.applyAccountLock nftAddress lockState) hub with
    | .ok (next,_) => next
    | .error _ => hub

variable (deployment : Deployment)

def World.next (w : World) : Event → World
  | .arrive m =>
    match inbound sliceHash w.data m with
    | some (data,messages) =>
      {w with data,channel := w.channel ++ messages.filterMap (toHub deployment.paymentHub)}
    | none => w
  | .deliver value now =>
    match w.channel with
    | [] => w
    | body :: channel =>
      {w with
        channel
        hub := hubReceives hash supported deployment.accountLocks value now body w.hub}
  | .call d =>
    if d.context.sender = deployment.accountLocks then w
    else
      match deliver (MerchantPaymentHub.receive hash) w.hub d with
      | some (hub,_) => {w with hub}
      | none => w

/-- The world after any events, newest first, from the two deployments on. -/
def world : List Event → World
  | [] =>
    { data := deploymentData deployment.riskAuthority deployment.lendingAdapter
      channel := []
      hub := MerchantPaymentHub.init deployment.deployer deployment.accountLocks
        deployment.nftResolver deployment.tbcSettlement }
  | event :: past => (world past).next sliceHash hash supported deployment event

end Run

section Views
variable (sliceHash : List Bool → Nat) (supported : Address → Bool)

abbrev View := Address → LockState

/-- The locks of the NFTs whose addresses the hub can read. -/
def sourceView (data : Cell) : View := fun nft =>
  if supported nft = true then flagsAt sliceHash data nft.bits else defaultLockState

def applyBody (view : View) (body : Slice) : View :=
  match loadApplyAccountLock supported body with
  | .error _ => view
  | .ok (nftAddress,lockState) => Function.update view nftAddress lockState

/-- What the channel leads the hub to: the source's view, unless another hub was bound. -/
def ledTo (hubAddress : Address) (data : Cell) (paymentHub : List Bool) : View :=
  if Slice.preloadUint 2 paymentHub = .ok 2 ∧ paymentHub ≠ hubAddress.bits then
    fun _ => defaultLockState
  else sourceView sliceHash supported data

variable {sliceHash supported} {hash : Cell → Int}

/-- The hub stores what it reads from its lock contract. -/
theorem hubReceives_locks (hash : Cell → Int) (supported : Address → Bool)
    {hub : MerchantPaymentHub.State}
    (peer : hub.accountLocksContract = locksAddress) (value now : Nat) (body : Slice) :
    (hubReceives hash supported locksAddress value now body hub).getLockState =
        applyBody supported hub.getLockState body ∧
      (hubReceives hash supported locksAddress value now body hub).accountLocksContract =
        locksAddress := by
  unfold hubReceives applyBody
  cases loadApplyAccountLock supported body with
  | error reason => exact ⟨rfl,peer⟩
  | ok result =>
    obtain ⟨nft,flags⟩ := result
    have received : MerchantPaymentHub.receive hash ⟨locksAddress,value,now⟩
        (.applyAccountLock nft flags) hub =
        .ok ({hub with accountLocks := hub.accountLocks.set nft flags},
          [.emit (.merchantAccountLockApplied nft flags.fraudLocked flags.collateralLocked
            now)]) := by
      simp only [MerchantPaymentHub.receive,MerchantPaymentHub.receiveApplyAccountLock,
        require_bind_ok,pure_ok,peer,true_and]
    simp only [received]
    refine ⟨?_,peer⟩
    funext other
    simp only [MerchantPaymentHub.State.getLockState,FiniteMap.get_set,Function.update]
    by_cases same : other = nft
    · simp [same]
    · simp [same]

/-- Nobody else changes a lock of the hub. -/
theorem call_locks {hub next : MerchantPaymentHub.State}
    (peer : hub.accountLocksContract = locksAddress) (other : d.context.sender ≠ locksAddress)
    (delivered : deliver (MerchantPaymentHub.receive hash) hub d = some (next,actions)) :
    next.getLockState = hub.getLockState ∧ next.accountLocksContract = locksAddress := by
  have effect := MerchantPaymentHub.receive_effect (deliver_received delivered)
  refine ⟨?_,(MerchantPaymentHub.effect_peers effect).2.trans peer⟩
  funext nft
  have silent : MerchantPaymentHub.lockPush hub.accountLocksContract nft
      ⟨hub,d,next,actions⟩ = none := by
    unfold MerchantPaymentHub.lockPush
    rw [peer]
    split
    · exact if_neg (fun pushed => other pushed.2)
    · rfl
  simp only [MerchantPaymentHub.State.getLockState,
    MerchantPaymentHub.effect_lockStates effect nft,silent,Option.none_or]

end Views

section Steps
variable {sliceHash : List Bool → Nat} {supported : Address → Bool} {hubAddress : Address}
variable {before after : Storage}

/-- What `slice_hash` is trusted with: it tells addresses apart. -/
def HashInjective (sliceHash : List Bool → Nat) : Prop :=
  ∀ address other, MsgAddr address → MsgAddr other → sliceHash address = sliceHash other →
    address = other

/-- Whether a message asks for one of the four lock operations. -/
def asksLock (m : Incoming) (change : LockChange) : Prop :=
  ∃ request, m.request = some request ∧ request.op = change.code

/-- What an accepted message does to the locks and to the channel. -/
inductive Relock (sliceHash : List Bool → Nat) (m : Incoming) (before after : Storage)
    (locks : Option LockTable) : Option LockTable → List RawMessage → Prop where
  | kept (quiet : ∀ change, ¬asksLock m change) (hub : after.paymentHub = before.paymentHub) :
      Relock sliceHash m before after locks locks []
  | bound (quiet : ∀ change, ¬asksLock m change)
      (unbound : Slice.preloadUint 2 before.paymentHub = .ok 0) :
      Relock sliceHash m before after locks locks []
  | locked (change : LockChange) (asked : m.request = some request)
      (op : request.op = change.code) (loaded : request.body.loadMsgAddr = .ok (nftAddress,rest))
      (hub : after.paymentHub = before.paymentHub)
      (bound : Slice.preloadUint 2 before.paymentHub = .ok 2)
      (route : message.route = .ok (before.paymentHub,lockBody nftAddress
        (change.apply (lockAt locks (sliceHash nftAddress))))) :
      Relock sliceHash m before after locks
        (some (setLockAt locks (sliceHash nftAddress)
          (change.apply (lockAt locks (sliceHash nftAddress))))) [message]

theorem quiet_of_op (asked : m.request = some request)
    (apart : ∀ change : LockChange, request.op ≠ change.code) (change : LockChange) :
    ¬asksLock m change := by
  rintro ⟨other,same,op⟩
  obtain rfl := Option.some.inj (same.symm.trans asked)
  exact apart change op

theorem handled_relock {locks : Option LockTable} (readable : after.Readable)
    (tabled : before.lockDict = lockCell locks)
    (step : m.request = none ∧ after = before ∧ messages = [] ∨
      ∃ request, m.request = some request ∧
        Handled sliceHash m.now request before after messages) :
    ∃ relocked, after.lockDict = lockCell relocked ∧
      Relock sliceHash m before after locks relocked messages := by
  rcases step with ⟨empty,rfl,rfl⟩ | ⟨request,asked,handled⟩
  · exact ⟨locks,tabled,.kept (fun change ⟨request,asked,_⟩ => by simp [empty] at asked) rfl⟩
  cases handled with
  | bound op sender unbound =>
    have quiet := quiet_of_op asked (fun change => by rw [op]; cases change <;> nofun)
    exact ⟨locks,tabled,.bound quiet unbound⟩
  | checked op =>
    have quiet := quiet_of_op asked (fun change => by rw [op]; cases change <;> nofun)
    exact ⟨locks,tabled,.kept quiet rfl⟩
  | proposed role op | executed role op | cancelled role op =>
    have quiet := quiet_of_op asked
      (fun change => by rw [op]; cases role <;> cases change <;> nofun)
    refine ⟨locks,?_,.kept quiet (paymentHub_setRole _ _ _)⟩
    rw [lockDict_setRole]
    exact tabled
  | locked change op sender loaded state stored saved emitted =>
    have relocked := setLock_change locks tabled change state stored
    obtain ⟨rfl,inRange⟩ := saveData_cell saved
    obtain ⟨bound,route⟩ :=
      emitted_route ⟨loadData_storage readable inRange,readable⟩ _ relocked emitted
    rw [lockAt_setLockAt,if_pos rfl] at route
    exact ⟨_,relocked,.locked change asked op loaded rfl bound route⟩

/-- The four lock operations change one flag of one address, and nothing else does. -/
structure FlagStep (sliceHash : List Bool → Nat) (m : Incoming) (data next : Cell) : Prop where
  changed {change : LockChange} : m.request = some request → request.op = change.code →
    ∃ nftAddress rest, request.body.loadMsgAddr = .ok (nftAddress,rest) ∧
      ∀ address, MsgAddr address → flagsAt sliceHash next address =
        if address = nftAddress then change.apply (flagsAt sliceHash data address)
        else flagsAt sliceHash data address
  kept : (∀ change, ¬asksLock m change) →
    flagsAt sliceHash next address = flagsAt sliceHash data address

theorem LockChange.code_injective : Function.Injective LockChange.code := by
  intro change other same
  cases change <;> cases other <;> first | rfl | exact absurd same (by decide)

theorem relock_flags (injective : HashInjective sliceHash) (stored : Stored data before)
    (kept : Stored next after) (tabled : before.lockDict = lockCell locks)
    (retabled : after.lockDict = lockCell relocked)
    (relock : Relock sliceHash m before after locks relocked messages) :
    FlagStep sliceHash m data next := by
  cases relock with
  | kept quiet | bound quiet =>
    refine ⟨fun asked op => absurd ⟨_,asked,op⟩ (quiet _),fun {address} _ => ?_⟩
    rw [flagsAt_stored stored locks tabled,flagsAt_stored kept locks retabled]
  | @locked _ nftAddress _ _ change asked op loaded =>
    refine ⟨?_,fun quiet => absurd ⟨_,asked,op⟩ (quiet change)⟩
    intro request other again code
    obtain rfl := Option.some.inj (again.symm.trans asked)
    obtain rfl := LockChange.code_injective (code.symm.trans op)
    refine ⟨_,_,loaded,fun address readable => ?_⟩
    rw [flagsAt_stored stored locks tabled,flagsAt_stored kept _ retabled,lockAt_setLockAt]
    by_cases same : address = nftAddress
    · rw [if_pos same,if_pos (congrArg sliceHash same),same]
    · have apart := mt (injective _ _ readable (msgAddr_loaded loaded)) same
      rw [if_neg same,if_neg apart]

theorem sourceView_stored (stored : Stored data before) (tabled : before.lockDict = lockCell locks) :
    sourceView sliceHash supported data = fun nft =>
      if supported nft = true then lockAt locks (sliceHash nft.bits) else defaultLockState := by
  funext nft
  rw [sourceView,flagsAt_stored stored locks tabled]

/-- The hub reads a lock message as the change the source made. -/
theorem sourceView_locked (supported : Address → Bool) (injective : HashInjective sliceHash) (stored : Stored data before)
    (kept : Stored next after) (locks : Option LockTable)
    (tabled : before.lockDict = lockCell locks) (readable : MsgAddr nftAddress)
    (flags : LockState)
    (relocked : after.lockDict =
      lockCell (some (setLockAt locks (sliceHash nftAddress) flags))) :
    sourceView sliceHash supported next =
      applyBody supported (sourceView sliceHash supported data) (lockBody nftAddress flags) := by
  have other (nft : Address) (apart : nftAddress ≠ nft.bits) :
      sliceHash nft.bits ≠ sliceHash nftAddress := fun same =>
    apart (injective _ _ (msgAddr_std nft) readable same).symm
  rw [sourceView_stored stored tabled,sourceView_stored kept relocked,applyBody,
    loadApplyAccountLock_body supported readable]
  cases read : stdAddress nftAddress with
  | none =>
    funext nft
    have apart : nftAddress ≠ nft.bits := by
      rintro rfl
      simp [stdAddress_bits] at read
    simp only [lockAt_setLockAt,if_neg (other nft apart)]
  | some address =>
    obtain rfl := stdAddress_some read
    funext nft
    by_cases same : nft = address
    · subst same
      cases admitted : supported nft <;> simp [admitted,lockAt_setLockAt]
    · have apart : address.bits ≠ nft.bits :=
        fun equal => same (Address.bits_injective equal).symm
      simp only [lockAt_setLockAt,if_neg (other nft apart)]
      cases admitted : supported address <;> simp [same]

end Steps

section Runs
variable (sliceHash : List Bool → Nat) (hash : Cell → Int) (supported : Address → Bool)
  (deployment : Deployment)

/-- A view the source had at some moment of the run. -/
def Had (events : List Event) (view : View) : Prop :=
  ∃ earlier, earlier <:+ events ∧
    view = sourceView sliceHash supported (world sliceHash hash supported deployment earlier).data

/-- What holds of every world reached: the hub is led through the source's views. -/
structure Replicating (events : List Event) (w : World) (s : Storage)
    (locks : Option LockTable) : Prop where
  stored : Stored w.data s
  tabled : s.lockDict = lockCell locks
  peer : w.hub.accountLocksContract = deployment.accountLocks
  unbound : Slice.preloadUint 2 s.paymentHub ≠ .ok 2 → locks = none ∧ w.channel = []
  tracks : Tracks (applyBody supported) (Had sliceHash hash supported deployment events)
    (ledTo sliceHash supported deployment.paymentHub w.data s.paymentHub)
    w.hub.getLockState w.channel

variable {sliceHash hash supported deployment}

theorem Had.later (event : Event) (had : Had sliceHash hash supported deployment events view) :
    Had sliceHash hash supported deployment (event :: events) view := by
  obtain ⟨earlier,suffix,rfl⟩ := had
  exact ⟨earlier,suffix.trans (List.suffix_cons _ _),rfl⟩

theorem sourceView_unlocked (stored : Stored data s) (tabled : s.lockDict = lockCell none) :
    sourceView sliceHash supported data = fun _ => defaultLockState := by
  rw [sourceView_stored stored tabled]
  funext nft
  exact ite_self _

theorem replicating_start : ∃ s, Replicating sliceHash hash supported deployment []
    (world sliceHash hash supported deployment []) s none := by
  have stored := deployed_stored deployment.riskAuthority deployment.lendingAdapter
  have empty : sourceView sliceHash supported
      (deploymentData deployment.riskAuthority deployment.lendingAdapter) =
      fun _ => defaultLockState := sourceView_unlocked stored rfl
  exact ⟨_,stored,rfl,rfl,fun _ => ⟨rfl,rfl⟩,⟨[],List.suffix_refl _,empty.symm⟩,empty.symm⟩

theorem ledTo_unlocked (hubAddress : Address) (paymentHub : List Bool) (stored : Stored data s)
    (tabled : s.lockDict = lockCell none) :
    ledTo sliceHash supported hubAddress data paymentHub = fun _ => defaultLockState := by
  rw [ledTo,sourceView_unlocked stored tabled]
  exact ite_self _

theorem toHub_route (routed : message.route = .ok (destination,body)) :
    toHub hubAddress message = if destination = hubAddress.bits then some body else none := by
  rw [toHub,routed]

/-- An accepted message leads the hub on by what it sends there. -/
theorem tracks_arrive (injective : HashInjective sliceHash)
    (replicating : Replicating sliceHash hash supported deployment events w s locks)
    (kept : Stored data after) (retabled : after.lockDict = lockCell relocked)
    (relock : Relock sliceHash m s after locks relocked messages)
    (reached : Had sliceHash hash supported deployment (.arrive m :: events)
      (sourceView sliceHash supported data)) :
    Tracks (applyBody supported) (Had sliceHash hash supported deployment (.arrive m :: events))
      (ledTo sliceHash supported deployment.paymentHub data after.paymentHub)
      w.hub.getLockState
      (w.channel ++ messages.filterMap (toHub deployment.paymentHub)) := by
  obtain ⟨stored,tabled,peer,unbound,tracks⟩ := replicating
  have tracks := tracks.mono (fun _ => Had.later (.arrive m))
  cases relock with
  | kept quiet hub =>
    have same : ledTo sliceHash supported deployment.paymentHub data after.paymentHub =
        ledTo sliceHash supported deployment.paymentHub w.data s.paymentHub := by
      simp only [ledTo,hub,sourceView_stored stored tabled,sourceView_stored kept retabled]
    rw [same,List.filterMap_nil,List.append_nil]
    exact tracks
  | bound quiet tag =>
    obtain ⟨rfl,-⟩ := unbound (by simp [tag])
    rw [ledTo_unlocked _ _ stored tabled] at tracks
    rw [ledTo_unlocked _ _ kept retabled,List.filterMap_nil,List.append_nil]
    exact tracks
  | locked change asked op loaded hub bound route =>
    have relocked := sourceView_locked supported injective stored kept locks tabled
      (msgAddr_loaded loaded) _ retabled
    rw [List.filterMap_cons,toHub_route route,List.filterMap_nil,hub]
    by_cases ours : s.paymentHub = deployment.paymentHub.bits
    · rw [ledTo,if_neg (fun other => other.2 ours)] at tracks ⊢
      rw [if_pos ours,relocked]
      exact tracks.send _ (relocked ▸ reached)
    · rw [ledTo,if_pos ⟨bound,ours⟩] at tracks ⊢
      rw [if_neg ours,List.append_nil]
      exact tracks

/-- An accepted message keeps the hub on its way, whatever it does to locks and binding. -/
theorem replicating_arrive (injective : HashInjective sliceHash)
    (replicating : Replicating sliceHash hash supported deployment events w s locks)
    (accepted : inbound sliceHash w.data m = some (data,messages))
    (now : (world sliceHash hash supported deployment (.arrive m :: events)).data = data) :
    ∃ after relocked, Replicating sliceHash hash supported deployment (.arrive m :: events)
      {w with data,channel := w.channel ++ messages.filterMap (toHub deployment.paymentHub)}
      after relocked := by
  obtain ⟨after,kept,step⟩ := inbound_handled replicating.stored accepted
  obtain ⟨relocked,retabled,relock⟩ := handled_relock kept.readable replicating.tabled step
  have reached : Had sliceHash hash supported deployment (.arrive m :: events)
      (sourceView sliceHash supported data) := ⟨_,List.suffix_refl _,by rw [now]⟩
  refine ⟨after,relocked,kept,retabled,replicating.peer,?_,
    tracks_arrive injective replicating kept retabled relock reached⟩
  intro unbound
  cases relock with
  | kept quiet hub =>
    rw [hub] at unbound
    obtain ⟨none,empty⟩ := replicating.unbound unbound
    exact ⟨none,by simp [empty]⟩
  | bound quiet tag =>
    obtain ⟨none,empty⟩ := replicating.unbound (by simp [tag])
    exact ⟨none,by simp [empty]⟩
  | locked change asked op loaded hub bound route =>
    rw [hub] at unbound
    exact absurd bound unbound

theorem Replicating.later (event : Event)
    (replicating : Replicating sliceHash hash supported deployment events w s locks) :
    Replicating sliceHash hash supported deployment (event :: events) w s locks :=
  {replicating with tracks := replicating.tracks.mono (fun _ => Had.later event)}

theorem replicating_deliver (value now : Nat)
    (replicating : Replicating sliceHash hash supported deployment events w s locks) :
    Replicating sliceHash hash supported deployment (.deliver value now :: events)
      (w.next sliceHash hash supported deployment (.deliver value now)) s locks := by
  have replicating := replicating.later (.deliver value now)
  unfold World.next
  cases flying : w.channel with
  | nil => exact replicating
  | cons body channel =>
    have tracks := replicating.tracks
    rw [flying] at tracks
    obtain ⟨view,peer⟩ := hubReceives_locks hash supported replicating.peer value now body
    refine {replicating with peer,unbound := fun unbound => ?_,tracks := ?_}
    · have empty := (replicating.unbound unbound).2
      simp [flying] at empty
    · rw [view]
      exact tracks.receive

theorem replicating_call (d : Delivery MerchantPaymentHub.Message)
    (replicating : Replicating sliceHash hash supported deployment events w s locks) :
    Replicating sliceHash hash supported deployment (.call d :: events)
      (w.next sliceHash hash supported deployment (.call d)) s locks := by
  have replicating := replicating.later (.call d)
  simp only [World.next]
  by_cases other : d.context.sender = deployment.accountLocks
  · rw [if_pos other]
    exact replicating
  · rw [if_neg other]
    cases delivered : deliver (MerchantPaymentHub.receive hash) w.hub d with
    | none => exact replicating
    | some result =>
      obtain ⟨hub,actions⟩ := result
      obtain ⟨locks,peer⟩ := call_locks replicating.peer other delivered
      exact {replicating with peer,tracks := locks ▸ replicating.tracks}

/-- The simulation, over every interleaving. -/
theorem replicating_world (injective : HashInjective sliceHash) (events : List Event) :
    ∃ s locks, Replicating sliceHash hash supported deployment events
      (world sliceHash hash supported deployment events) s locks := by
  induction events with
  | nil =>
    obtain ⟨s,replicating⟩ := replicating_start
    exact ⟨s,none,replicating⟩
  | cons event past ih =>
    obtain ⟨s,locks,replicating⟩ := ih
    cases event with
    | arrive m =>
      cases accepted : inbound sliceHash
          (world sliceHash hash supported deployment past).data m with
      | none =>
        refine ⟨s,locks,?_⟩
        simp only [world,World.next,accepted]
        exact replicating.later (.arrive m)
      | some result =>
        obtain ⟨data,messages⟩ := result
        have arrived : world sliceHash hash supported deployment (.arrive m :: past) =
            {world sliceHash hash supported deployment past with
              data
              channel := (world sliceHash hash supported deployment past).channel ++
                messages.filterMap (toHub deployment.paymentHub)} := by
          simp only [world,World.next,accepted]
        rw [arrived]
        exact replicating_arrive injective replicating accepted (by rw [arrived])
    | deliver value now => exact ⟨s,locks,replicating_deliver value now replicating⟩
    | call d => exact ⟨s,locks,replicating_call d replicating⟩

theorem Had.flags (had : Had sliceHash hash supported deployment events view) :
    ∃ earlier, earlier <:+ events ∧ ∀ nft, supported nft = true → view nft = flagsAt sliceHash
      (world sliceHash hash supported deployment earlier).data nft.bits := by
  obtain ⟨earlier,suffix,rfl⟩ := had
  exact ⟨earlier,suffix,fun nft admitted => if_pos admitted⟩

/-- An address the hub cannot read is unlocked there, as it was in AccountLocks at first. -/
theorem Had.at_start (had : Had sliceHash hash supported deployment events view)
    (foreign : supported nft ≠ true) :
    view nft = flagsAt sliceHash (world sliceHash hash supported deployment []).data nft.bits := by
  obtain ⟨earlier,-,rfl⟩ := had
  rw [sourceView,if_neg foreign]
  exact (flagsAt_stored (deployed_stored _ _) none rfl nft.bits).symm

/-- For every interleaving the hub shows locks that AccountLocks had after a prefix of what it
accepted, and its present ones once nothing is in flight. Before the binding no lock is
stored, and an accepted message changes one flag of one NFT or none. -/
theorem lock_replication (injective : HashInjective sliceHash) (events : List Event) :
    (∃ earlier, earlier <:+ events ∧ ∀ nft, supported nft = true →
      (world sliceHash hash supported deployment events).hub.getLockState nft =
        flagsAt sliceHash (world sliceHash hash supported deployment earlier).data nft.bits) ∧
    (∀ nft, ∃ earlier, earlier <:+ events ∧
      (world sliceHash hash supported deployment events).hub.getLockState nft =
        flagsAt sliceHash (world sliceHash hash supported deployment earlier).data nft.bits) ∧
    (∃ s, Stored (world sliceHash hash supported deployment events).data s ∧
      (Slice.preloadUint 2 s.paymentHub ≠ .ok 2 → s.lockDict = none) ∧
      ((world sliceHash hash supported deployment events).channel = [] →
        (Slice.preloadUint 2 s.paymentHub = .ok 2 →
          s.paymentHub = deployment.paymentHub.bits) → ∀ nft, supported nft = true →
        (world sliceHash hash supported deployment events).hub.getLockState nft =
          flagsAt sliceHash (world sliceHash hash supported deployment events).data
            nft.bits)) ∧
    ∀ m next messages, inbound sliceHash
        (world sliceHash hash supported deployment events).data m = some (next,messages) →
      FlagStep sliceHash m (world sliceHash hash supported deployment events).data next := by
  have reached : ∃ s locks, Replicating sliceHash hash supported deployment events
      (world sliceHash hash supported deployment events) s locks :=
    replicating_world injective events
  obtain ⟨s,locks,replicating⟩ := reached
  have had := replicating.tracks.had
  refine ⟨had.flags,fun nft => ?_,⟨s,replicating.stored,fun unbound => ?_,?_⟩,?_⟩
  · by_cases admitted : supported nft = true
    · obtain ⟨earlier,suffix,shown⟩ := had.flags
      exact ⟨earlier,suffix,shown nft admitted⟩
    · exact ⟨[],List.nil_suffix,had.at_start admitted⟩
  · rw [replicating.tabled,(replicating.unbound unbound).1]
    rfl
  · intro drained ours nft admitted
    have tracks := replicating.tracks
    rw [drained,ledTo,if_neg (fun other => other.2 (ours other.1))] at tracks
    rw [tracks.drained,sourceView,if_pos admitted]
  · intro m next messages accepted
    obtain ⟨after,kept,step⟩ := inbound_handled replicating.stored accepted
    obtain ⟨relocked,retabled,relock⟩ := handled_relock kept.readable replicating.tabled step
    exact relock_flags injective replicating.stored kept replicating.tabled retabled relock

end Runs

def packedSlice (bits : List Bool) : Nat := uintOf (true :: bits)

theorem packedSlice_injective : HashInjective packedSlice := fun address other _ _ same =>
  packedHash_collisionFree address other (congrArg Int.ofNat same)

def deployment : Deployment :=
  ⟨newAddress 0 4,newAddress 0 5,riskAuthority,lendingAdapter,newAddress 0 6,newAddress 0 7,
    newAddress 0 8⟩

def operations (requests : List (Address × Operation)) : List Event := requests.map
  fun (sender,operation) =>
    .arrive (Call.incoming ⟨sender,1000,operation,false,true,[],[]⟩)

/-- Two roles lock an NFT once the hub is bound, and the hub has heard of one of them. -/
def lockedTwice : List Event :=
  .deliver 50000000 1001 :: operations
    [(lendingAdapter,.lock .setCollateralLock successor),
      (riskAuthority,.lock .setFraudLock successor),
      (riskAuthority,.bindPaymentHub deployment.paymentHub)]

/-- The parser of the hub's messages takes accounts of the base workchain. -/
def onBasechain (nft : Address) : Bool := nft.workchain = 0

/-- While a lock message is under way the hub has seen an earlier moment, and once it has arrived it
shows the same. -/
theorem locked_twice_replicated :
    (∃ earlier, earlier <:+ lockedTwice ∧ ∀ nft, onBasechain nft = true →
      (world packedSlice packedHash onBasechain deployment lockedTwice).hub.getLockState nft =
        flagsAt packedSlice
          (world packedSlice packedHash onBasechain deployment earlier).data nft.bits) ∧
    ∀ nft, onBasechain nft = true →
      (world packedSlice packedHash onBasechain deployment
          (.deliver 50000000 1002 :: lockedTwice)).hub.getLockState nft =
        flagsAt packedSlice (world packedSlice packedHash onBasechain deployment
          (.deliver 50000000 1002 :: lockedTwice)).data nft.bits := by
  refine ⟨(lock_replication packedSlice_injective lockedTwice).1,?_⟩
  obtain ⟨s,stored,-,drained⟩ :=
    (@lock_replication packedSlice packedHash onBasechain deployment packedSlice_injective
      (.deliver 50000000 1002 :: lockedTwice)).2.2.1
  obtain ⟨empty,bound⟩ : (world packedSlice packedHash onBasechain deployment
      (.deliver 50000000 1002 :: lockedTwice)).channel = [] ∧
        (loadData (world packedSlice packedHash onBasechain deployment
          (.deliver 50000000 1002 :: lockedTwice)).data).toOption.map (·.paymentHub) =
            some deployment.paymentHub.bits := by decide +kernel
  rw [stored.loaded] at bound
  exact drained empty fun _ => Option.some.inj bound

example : (world packedSlice packedHash onBasechain deployment
      (.deliver 50000000 1002 :: lockedTwice)).hub.getLockState successor = ⟨true,true⟩ ∧
    (world packedSlice packedHash onBasechain deployment lockedTwice).hub.getLockState
      successor = ⟨true,false⟩ := by decide +kernel

end Tonbankcard.AccountLocks
