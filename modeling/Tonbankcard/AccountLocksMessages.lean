import Tonbankcard.AccountLocksRegistry

/-! Arbitrary inbound messages, whatever their header, addresses and trailing data. One
inversion says what an accepted message reads and stores; the stored cell reads back. -/
namespace Tonbankcard.AccountLocks

open Ton

/-- An address that `load_msg_addr` takes off the front of any slice, and nothing more. -/
def MsgAddr (address : List Bool) : Prop :=
  ∀ more refs, Slice.loadMsgAddr ⟨address ++ more,refs⟩ = .ok (address,⟨more,refs⟩)

theorem msgAddr_loaded {s : Slice} (loaded : s.loadMsgAddr = .ok (address,rest)) :
    MsgAddr address := Slice.loadMsgAddr_again loaded

theorem msgAddr_std (address : Address) : MsgAddr address.bits := Slice.loadMsgAddr_std address

theorem msgAddr_none : MsgAddr addrNone := Slice.loadMsgAddr_none

/-- Every address among the fields is one. -/
structure Storage.Readable (s : Storage) : Prop where
  riskHolder : MsgAddr s.risk.holder
  riskPending : MsgAddr s.risk.pending
  lendingHolder : MsgAddr s.lending.holder
  lendingPending : MsgAddr s.lending.pending
  paymentHub : MsgAddr s.paymentHub

theorem Storage.Readable.holder {s : Storage} (readable : s.Readable) (role : Role) :
    MsgAddr (s.role role).holder := by
  cases role with
  | riskAuthority => exact readable.riskHolder
  | lendingAdapter => exact readable.lendingHolder

theorem Storage.Readable.pending {s : Storage} (readable : s.Readable) (role : Role) :
    MsgAddr (s.role role).pending := by
  cases role with
  | riskAuthority => exact readable.riskPending
  | lendingAdapter => exact readable.lendingPending

theorem Storage.Readable.setRole {s : Storage} (readable : s.Readable) (role : Role)
    (holder : MsgAddr data.holder) (pending : MsgAddr data.pending) :
    (s.setRole role data).Readable := by
  cases role with
  | riskAuthority => exact {readable with riskHolder := holder,riskPending := pending}
  | lendingAdapter => exact {readable with lendingHolder := holder,lendingPending := pending}

/-- `load_data` recovers fields that are readable and in range. -/
theorem loadData_storage {s : Storage} (readable : s.Readable) (inRange : s.InRange) :
    loadData s.cell = .ok s := by
  have hub := readable.paymentHub [] []
  rw [List.append_nil] at hub
  simp only [loadData,Storage.cell,Storage.bits,Storage.segments,Cell.beginParse,
    List.flatten_cons,loadDict_append,readable.riskHolder _ _,readable.riskPending _ _,
    readable.lendingHolder _ _,readable.lendingPending _ _,
    Slice.loadUint_append _ _ _ _ inRange.riskPresent,
    Slice.loadUint_append _ _ _ _ inRange.riskAt,
    Slice.loadUint_append _ _ _ _ inRange.lendingPresent,
    Slice.loadUint_append _ _ _ _ inRange.lendingAt,Slice.loadRef,hub,ok_bind]
  rfl

/-- The hub's cell is built like every other one. -/
theorem saveData_hub {s : Storage} (saved : saveData s = .ok data) :
    s.paymentHub.length ≤ maxBits := by
  simp only [saveData,bind_ok] at saved
  obtain ⟨-,-,-,-,-,-,-,-,-,-,-,-,-,-,-,-,-,-,hub,built,-⟩ := saved
  simpa [beginCell] using (Builder.storeBits_ok.mp built).2

theorem saveData_cell {s : Storage} (saved : saveData s = .ok data) :
    data = s.cell ∧ s.InRange := by
  obtain ⟨rfl,inRange,-⟩ := (saveData_ok s (saveData_hub saved)).mp saved
  exact ⟨rfl,inRange⟩

/-- An inbound message with the clock it is processed at. One that does not commit ran out
of gas or failed in the action phase. -/
structure Incoming where
  now : Nat
  inMsgFull : Cell
  inMsgBody : Slice
  commits : Bool

/-- What the receiver reads of a message before it looks at its storage. -/
structure Request where
  sender : List Bool
  op : Nat
  body : Slice

/-- An empty or bounced message asks for nothing, and neither does an unreadable one. -/
def Incoming.request (m : Incoming) : Option Request :=
  if m.inMsgBody.bits.isEmpty ∧ m.inMsgBody.refs.isEmpty then none
  else
    match m.inMsgFull.beginParse.loadUint 4 with
    | .error _ => none
    | .ok (flags,cs) =>
      if flags &&& 1 ≠ 0 then none
      else
        match cs.loadMsgAddr,m.inMsgBody.loadUint 32 with
        | .ok (sender,_),.ok (op,body) => some ⟨sender,op,body⟩
        | _,_ => none

section Inversion
variable (sliceHash : List Bool → Nat)

/-- What an accepted request finds in the storage, leaves there and sends. -/
inductive Handled (now : Nat) (request : Request) (s : Storage) :
    Storage → List RawMessage → Prop where
  | bound (op : request.op = opBindPaymentHub) (sender : request.sender = s.risk.holder)
      (unbound : Slice.preloadUint 2 s.paymentHub = .ok 0)
      (loaded : request.body.loadMsgAddr = .ok (paymentHub,rest)) :
      Handled now request s {s with paymentHub} []
  | locked (change : LockChange) (op : request.op = change.code)
      (sender : request.sender = (s.role change.role).holder)
      (loaded : request.body.loadMsgAddr = .ok (nftAddress,rest))
      (locks : lockState sliceHash s.lockDict nftAddress = .ok flags)
      (stored : setLock sliceHash s.lockDict nftAddress (change.update flags).1
        (change.update flags).2 = .ok lockDict)
      (saved : saveData {s with lockDict} = .ok cell)
      (emitted : emitAccountLock sliceHash cell s.paymentHub nftAddress = .ok message) :
      Handled now request s {s with lockDict} [message]
  | checked (op : request.op = opCheckCanSend) : Handled now request s s []
  | proposed (role : Role) (op : request.op = proposeCode role)
      (sender : request.sender = (s.role role).holder)
      (loaded : request.body.loadMsgAddr = .ok (proposed,rest)) :
      Handled now request s
        (s.setRole role ⟨(s.role role).holder,1,proposed,now + roleTransferDelay⟩) []
  | executed (role : Role) (op : request.op = executeCode role)
      (present : (s.role role).pendingPresent ≠ 0)
      (sender : request.sender = (s.role role).pending)
      (elapsed : (s.role role).pendingAt ≤ now) :
      Handled now request s
        (s.setRole role ⟨(s.role role).pending,0,(s.role role).pending,0⟩) []
  | cancelled (role : Role) (op : request.op = cancelCode role)
      (sender : request.sender = (s.role role).holder)
      (present : (s.role role).pendingPresent ≠ 0) :
      Handled now request s
        (s.setRole role ⟨(s.role role).holder,0,(s.role role).holder,0⟩) []

/-- What a handled request leaves as the persistent data. -/
def Saved (data : Cell) (s after : Storage) (next : Cell) : Prop :=
  after = s ∧ next = data ∨ saveData after = .ok next

variable {sliceHash} {s : Storage}

theorem recvLock_handled (change : LockChange) (op : request.op = change.code)
    (loaded : loadData data = .ok s)
    (received : recvLock sliceHash change.role change.update request.sender request.body s data =
      .ok (next,messages)) :
    ∃ after, Handled sliceHash now request s after messages ∧ Saved data s after next := by
  simp only [recvLock,throwUnless_bind_ok,getLockState,loaded,ok_bind] at received
  simp only [bind_ok,pure_ok,Prod.mk.injEq] at received
  obtain ⟨sender,⟨nftAddress,rest⟩,address,flags,locks,lockDict,stored,saved,save,message,
    emitted,rfl,rfl⟩ := received
  exact ⟨_,.locked change op sender address locks stored save emitted,.inr save⟩

theorem recvBindPaymentHub_handled (op : request.op = opBindPaymentHub)
    (received : recvBindPaymentHub request.sender request.body s = .ok (next,messages)) :
    ∃ after, Handled sliceHash now request s after messages ∧ Saved data s after next := by
  simp only [recvBindPaymentHub,throwUnless_bind_ok] at received
  obtain ⟨sender,received⟩ := received
  obtain ⟨bound,slot,received⟩ := bind_ok.mp received
  obtain ⟨unbound,received⟩ := throwUnless_bind_ok.mp received
  obtain ⟨⟨paymentHub,rest⟩,address,received⟩ := bind_ok.mp received
  obtain ⟨tag,-,received⟩ := bind_ok.mp received
  obtain ⟨-,received⟩ := throwUnless_bind_ok.mp received
  simp only [bind_ok,pure_ok,Prod.mk.injEq] at received
  obtain ⟨saved,save,rfl,rfl⟩ := received
  exact ⟨_,.bound op sender (unbound ▸ slot) address,.inr save⟩

theorem recvCheckCanSend_handled (op : request.op = opCheckCanSend)
    (received : recvCheckCanSend sliceHash request.body data = .ok (next,messages)) :
    ∃ after, Handled sliceHash now request s after messages ∧ Saved data s after next := by
  simp only [recvCheckCanSend,bind_ok,pure_ok,Prod.mk.injEq] at received
  obtain ⟨-,-,-,-,-,-,rfl,rfl⟩ := received
  exact ⟨s,.checked op,.inl ⟨rfl,rfl⟩⟩

theorem recvPropose_handled (role : Role) (op : request.op = proposeCode role)
    (received : recvPropose role now request.sender request.body s = .ok (next,messages)) :
    ∃ after, Handled sliceHash now request s after messages ∧ Saved data s after next := by
  simp only [recvPropose,throwUnless_bind_ok] at received
  obtain ⟨sender,received⟩ := received
  simp only [bind_ok,pure_ok,Prod.mk.injEq] at received
  obtain ⟨⟨proposed,rest⟩,address,saved,save,rfl,rfl⟩ := received
  exact ⟨_,.proposed role op sender address,.inr save⟩

theorem recvExecute_handled (role : Role) (op : request.op = executeCode role)
    (received : recvExecute role now request.sender s = .ok (next,messages)) :
    ∃ after, Handled sliceHash now request s after messages ∧ Saved data s after next := by
  simp only [recvExecute,throwUnless_bind_ok] at received
  obtain ⟨present,sender,elapsed,received⟩ := received
  simp only [bind_ok,pure_ok,Prod.mk.injEq] at received
  obtain ⟨saved,save,rfl,rfl⟩ := received
  exact ⟨_,.executed role op present sender elapsed,.inr save⟩

theorem recvCancel_handled (role : Role) (op : request.op = cancelCode role)
    (received : recvCancel role request.sender s = .ok (next,messages)) :
    ∃ after, Handled sliceHash now request s after messages ∧ Saved data s after next := by
  simp only [recvCancel,throwUnless_bind_ok] at received
  obtain ⟨sender,present,received⟩ := received
  simp only [bind_ok,pure_ok,Prod.mk.injEq] at received
  obtain ⟨saved,save,rfl,rfl⟩ := received
  exact ⟨_,.cancelled role op sender present,.inr save⟩

/-- The receiver ignores what asks for nothing and dispatches everything else. -/
theorem recvInternal_handled {m : Incoming} (loaded : loadData data = .ok s)
    (received : recvInternal sliceHash m.now m.inMsgFull m.inMsgBody data =
      .ok (next,messages)) :
    (m.request = none ∧ next = data ∧ messages = []) ∨
      ∃ request after, m.request = some request ∧
        Handled sliceHash m.now request s after messages ∧ Saved data s after next := by
  unfold recvInternal at received
  unfold Incoming.request
  rcases ite_eq_iff.mp received with ⟨empty,received⟩ | ⟨filled,received⟩
  · rw [pure_ok,Prod.mk.injEq] at received
    exact .inl ⟨if_pos empty,received.1.symm,received.2.symm⟩
  rw [if_neg filled]
  obtain ⟨⟨flags,cs⟩,header,received⟩ := bind_ok.mp received
  simp only [header]
  rcases ite_eq_iff.mp received with ⟨bounced,received⟩ | ⟨direct,received⟩
  · rw [pure_ok,Prod.mk.injEq] at received
    exact .inl ⟨if_pos bounced,received.1.symm,received.2.symm⟩
  rw [if_neg direct]
  obtain ⟨⟨sender,_⟩,source,received⟩ := bind_ok.mp received
  obtain ⟨⟨op,body⟩,code,received⟩ := bind_ok.mp received
  obtain ⟨_,again,received⟩ := bind_ok.mp received
  obtain rfl := Except.ok.inj (again.symm.trans loaded)
  simp only [source,code]
  suffices handled : ∃ after, Handled sliceHash m.now ⟨sender,op,body⟩ _ after messages ∧
      Saved data _ after next by
    obtain ⟨after,handled⟩ := handled
    exact .inr ⟨_,after,rfl,handled⟩
  rcases ite_eq_iff.mp received with ⟨op,received⟩ | ⟨-,received⟩
  · exact recvBindPaymentHub_handled op received
  rcases ite_eq_iff.mp received with ⟨op,received⟩ | ⟨-,received⟩
  · exact recvLock_handled .setFraudLock op loaded received
  rcases ite_eq_iff.mp received with ⟨op,received⟩ | ⟨-,received⟩
  · exact recvLock_handled .clearFraudLock op loaded received
  rcases ite_eq_iff.mp received with ⟨op,received⟩ | ⟨-,received⟩
  · exact recvLock_handled .setCollateralLock op loaded received
  rcases ite_eq_iff.mp received with ⟨op,received⟩ | ⟨-,received⟩
  · exact recvLock_handled .clearCollateralLock op loaded received
  rcases ite_eq_iff.mp received with ⟨op,received⟩ | ⟨-,received⟩
  · exact recvCheckCanSend_handled op received
  rcases ite_eq_iff.mp received with ⟨op,received⟩ | ⟨-,received⟩
  · exact recvPropose_handled .riskAuthority op received
  rcases ite_eq_iff.mp received with ⟨op,received⟩ | ⟨-,received⟩
  · exact recvExecute_handled .riskAuthority op received
  rcases ite_eq_iff.mp received with ⟨op,received⟩ | ⟨-,received⟩
  · exact recvCancel_handled .riskAuthority op received
  rcases ite_eq_iff.mp received with ⟨op,received⟩ | ⟨-,received⟩
  · exact recvPropose_handled .lendingAdapter op received
  rcases ite_eq_iff.mp received with ⟨op,received⟩ | ⟨-,received⟩
  · exact recvExecute_handled .lendingAdapter op received
  rcases ite_eq_iff.mp received with ⟨op,received⟩ | ⟨-,received⟩
  · exact recvCancel_handled .lendingAdapter op received
  contradiction

end Inversion

abbrev Entry := Journal.Entry Cell Incoming (List RawMessage)

section Runs
variable (sliceHash : List Bool → Nat)

def inbound : Journal.Machine Cell Incoming (List RawMessage) := fun data m =>
  if m.commits then (recvInternal sliceHash m.now m.inMsgFull m.inMsgBody data).toOption
  else none

variable {sliceHash} {s : Storage}

theorem inbound_some : inbound sliceHash data m = some (next,messages) ↔ m.commits = true ∧
    recvInternal sliceHash m.now m.inMsgFull m.inMsgBody data = .ok (next,messages) := by
  unfold inbound
  split
  next commits =>
    cases recvInternal sliceHash m.now m.inMsgFull m.inMsgBody data <;>
      simp [Except.toOption,commits]
  next commits => simp [commits]

theorem handled_readable (readable : s.Readable)
    (handled : Handled sliceHash now request s after messages) : after.Readable := by
  cases handled with
  | bound op sender unbound loaded => exact {readable with paymentHub := msgAddr_loaded loaded}
  | locked | checked => exact {readable with}
  | proposed role op sender loaded =>
    exact readable.setRole role (readable.holder role) (msgAddr_loaded loaded)
  | executed role => exact readable.setRole role (readable.pending role) (readable.pending role)
  | cancelled role => exact readable.setRole role (readable.holder role) (readable.holder role)

/-- The data of a cell that the contract can go on with. -/
structure Stored (data : Cell) (s : Storage) : Prop where
  loaded : loadData data = .ok s
  readable : s.Readable

theorem saved_stored (stored : Stored data s)
    (handled : Handled sliceHash now request s after messages) (saved : Saved data s after next) :
    Stored next after := by
  have readable := handled_readable stored.readable handled
  rcases saved with ⟨rfl,rfl⟩ | saved
  · exact stored
  · obtain ⟨rfl,inRange⟩ := saveData_cell saved
    exact ⟨loadData_storage readable inRange,readable⟩

/-- What an accepted message does to stored data: nothing, or what its request asks for. -/
theorem inbound_handled (stored : Stored data s)
    (accepted : inbound sliceHash data m = some (next,messages)) :
    ∃ after, Stored next after ∧ (m.request = none ∧ after = s ∧ messages = [] ∨
      ∃ request, m.request = some request ∧
        Handled sliceHash m.now request s after messages) := by
  rcases recvInternal_handled stored.loaded (inbound_some.mp accepted).2 with
    ⟨empty,rfl,rfl⟩ | ⟨request,after,asked,handled,saved⟩
  · exact ⟨s,stored,.inl ⟨empty,rfl,rfl⟩⟩
  · exact ⟨after,saved_stored stored handled saved,.inr ⟨request,asked,handled⟩⟩

/-- The induction rule for the contract: a relation between what was accepted and the fields
stored holds of every run once the accepted messages preserve it. -/
theorem stored_invariant {data : Cell} (related : List Entry → Storage → Prop)
    (stored : Stored data s) (start : related [] s)
    (step : ∀ past before data m next after messages, related past before →
      (m.request = none ∧ after = before ∧ messages = [] ∨
        ∃ request, m.request = some request ∧
          Handled sliceHash m.now request before after messages) →
      related (⟨data,m,next,messages⟩ :: past) after)
    (arrivals : List Incoming) :
    ∃ after, Stored (Journal.run (inbound sliceHash) data arrivals) after ∧
      related (Journal.journal (inbound sliceHash) data arrivals) after := by
  refine Journal.invariant (fun past data => ∃ s, Stored data s ∧ related past s)
    ⟨s,stored,start⟩ ?_ arrivals
  rintro past data m next messages ⟨before,stored,held⟩ accepted
  obtain ⟨after,kept,handled⟩ := inbound_handled stored accepted
  exact ⟨after,kept,step past before data m next after messages held handled⟩

end Runs
end Tonbankcard.AccountLocks
