import Tonbankcard.AccountLocksRegistry

/-! Which operations the stored root cell leaves possible. A pending slot keeps an address
once it was used, the cell has room for one such address, and so the first role to propose
a transfer takes the room of the other for good. -/
namespace Tonbankcard.AccountLocks

open Ton

variable (sliceHash : List Bool → Nat)

/-- The deployed data: no locks, no pending transfers, no hub. -/
def deploymentData (riskAuthority lendingAdapter : Address) : Cell :=
  .ordinary ([false] ++ riskAuthority.bits ++ lendingAdapter.bits ++ [false] ++ addrNone ++
    uintBits 32 0 ++ [false] ++ addrNone ++ uintBits 32 0) [.ordinary addrNone []]

def deployed (riskAuthority lendingAdapter : Address) : Registry :=
  { locks := none
    risk := ⟨riskAuthority,false,none,0⟩
    lending := ⟨lendingAdapter,false,none,0⟩
    hub := none }

def machine : Journal.Machine Cell Call (List RawMessage) := fun data call =>
  (recvInternal sliceHash call.now call.inMsgFull call.inMsgBody data).toOption

/-- The persistent data after a list of calls, newest first. -/
def run (riskAuthority lendingAdapter : Address) (calls : List Call) : Cell :=
  Journal.run (machine sliceHash) (deploymentData riskAuthority lendingAdapter) calls

/-- What the calls of a run maintain. -/
structure Registry.Sound (r : Registry) : Prop where
  fits : r.Fits
  pending : ∀ role, (r.transfer role).present = true → (r.transfer role).slot ≠ none

theorem deployed_cell (riskAuthority lendingAdapter : Address) :
    deploymentData riskAuthority lendingAdapter = (deployed riskAuthority lendingAdapter).cell := by
  simp [deploymentData,Registry.cell,Storage.cell,Storage.bits,Storage.segments,Registry.storage,
    deployed,Transfer.data,slotBits,uintBits]

/-- A role whose slot is in use leaves room for nothing in the other one. -/
theorem fits_setTransfer (r : Registry) (role : Role) (holder address : Address) (present : Bool)
    (executableAt : BitVec 32) :
    (r.setTransfer role ⟨holder,present,some address,executableAt⟩).Fits ↔
      (r.transfer role.other).slot = none := by
  cases role <;> simp [Registry.Fits,Registry.setTransfer,Registry.transfer,Role.other]

theorem other_free {r : Registry} (fits : r.Fits) (role : Role)
    (used : (r.transfer role).slot ≠ none) : (r.transfer role.other).slot = none := by
  cases role with
  | riskAuthority => exact fits.resolve_left used
  | lendingAdapter => exact fits.resolve_right used

theorem transfer_setTransfer (r : Registry) (role other : Role) (t : Transfer) :
    (r.setTransfer role t).transfer other = if other = role then t else r.transfer other := by
  cases role <;> cases other <;> rfl

theorem sound_setTransfer {r : Registry} (sound : r.Sound) (role : Role)
    (holder address : Address) (present : Bool) (executableAt : BitVec 32)
    (free : (r.transfer role.other).slot = none) :
    (r.setTransfer role ⟨holder,present,some address,executableAt⟩).Sound := by
  refine ⟨(fits_setTransfer r role holder address present executableAt).mpr free,?_⟩
  intro other
  rw [transfer_setTransfer]
  split
  · exact fun _ => Option.some_ne_none address
  · exact sound.pending other

/-- An operation is carried out when it passes its own checks and nothing is in its way. -/
theorem call_ok {r : Registry} (sound : r.Sound) (call : Call) :
    (∃ messages, recvInternal sliceHash call.now call.inMsgFull call.inMsgBody r.cell =
      .ok (data,messages)) ↔
    (r.Authorized sliceHash call ∧ r.Clear call) ∧ data = (r.after sliceHash call).cell := by
  rw [recvInternal_call sliceHash call (loadData_cell r)]
  unfold Registry.Authorized Registry.Clear Registry.after
  cases call.operation with
  | bindPaymentHub hub =>
    have fits : Registry.Fits {r with hub := some hub} := sound.fits
    simp [recvBindPaymentHub_ok,fits]
  | lock change nftAddress =>
    simp only [recvLock_ok,sound.fits,true_and,and_assoc]
  | checkCanSend nftAddress => simp [recvCheckCanSend_ok]
  | propose role proposed =>
    simp only [recvPropose_ok,fits_setTransfer,exists_and_left,exists_eq,and_true,and_assoc,
      and_left_comm]
  | execute role =>
    simp only [recvExecute_ok,fits_setTransfer,exists_and_left,exists_eq,and_true]
    refine and_congr_right fun authorized => ?_
    have used : (r.transfer role).slot ≠ none := by simp [authorized.2.1]
    simp [other_free sound.fits role used]
  | cancel role =>
    simp only [recvCancel_ok,fits_setTransfer,exists_and_left,exists_eq,and_true]
    refine and_congr_right fun authorized => ?_
    simp [other_free sound.fits role (sound.pending role authorized.2)]

theorem after_sound {r : Registry} (sound : r.Sound) (authorized : r.Authorized sliceHash call)
    (clear : r.Clear call) : (r.after sliceHash call).Sound := by
  unfold Registry.Authorized at authorized
  unfold Registry.Clear at clear
  unfold Registry.after
  cases operation : call.operation with
  | bindPaymentHub => exact ⟨sound.fits,sound.pending⟩
  | lock => exact ⟨sound.fits,sound.pending⟩
  | checkCanSend => exact sound
  | propose role proposed =>
    rw [operation] at clear
    exact sound_setTransfer sound role _ _ _ _ clear.1
  | execute role =>
    rw [operation] at authorized
    have used : (r.transfer role).slot ≠ none := by simp [authorized.2.1]
    exact sound_setTransfer sound role _ _ _ _ (other_free sound.fits role used)
  | cancel role =>
    rw [operation] at authorized
    have used := sound.pending role authorized.2
    exact sound_setTransfer sound role _ _ _ _ (other_free sound.fits role used)

theorem deployed_sound (riskAuthority lendingAdapter : Address) :
    (deployed riskAuthority lendingAdapter).Sound := by
  refine ⟨.inl rfl,?_⟩
  intro role
  cases role <;> simp [deployed,Registry.transfer]

/-- Every reached root cell encodes a registry with at most one pending slot in use. -/
theorem run_registry (riskAuthority lendingAdapter : Address) (calls : List Call) :
    ∃ r : Registry, run sliceHash riskAuthority lendingAdapter calls = r.cell ∧ r.Sound := by
  refine Journal.state_invariant (fun data => ∃ r : Registry, data = r.cell ∧ r.Sound)
    ⟨_,deployed_cell riskAuthority lendingAdapter,deployed_sound _ _⟩ ?_ calls
  rintro _ call next messages ⟨r,rfl,sound⟩ accepted
  have received : ∃ messages, recvInternal sliceHash call.now call.inMsgFull call.inMsgBody
      r.cell = .ok (next,messages) := by
    simp only [machine] at accepted
    cases outcome : recvInternal sliceHash call.now call.inMsgFull call.inMsgBody r.cell with
    | error reason => simp [outcome,Except.toOption] at accepted
    | ok result =>
      rw [outcome] at accepted
      exact ⟨messages,congrArg _ (Option.some.inj accepted)⟩
  obtain ⟨⟨authorized,clear⟩,rfl⟩ := (call_ok sliceHash sound call).mp received
  exact ⟨_,rfl,after_sound sliceHash sound authorized clear⟩

/-- A call succeeds when it stores its fields in a valid cell that reads back as stored. -/
def Succeeds (r : Registry) (call : Call) : Prop :=
  ∃ messages, recvInternal sliceHash call.now call.inMsgFull call.inMsgBody r.cell =
      .ok ((r.after sliceHash call).cell,messages) ∧
    (r.after sliceHash call).storage.bits.length ≤ maxBits ∧
    loadData (r.after sliceHash call).cell = .ok (r.after sliceHash call).storage

/-- In every reached state an operation that passes its own checks succeeds exactly when
nothing is in its way: for a proposal, when the other role never used its pending slot. -/
theorem operation_succeeds_iff (riskAuthority lendingAdapter : Address) (calls : List Call) :
    ∃ r : Registry, run sliceHash riskAuthority lendingAdapter calls = r.cell ∧
      loadData r.cell = .ok r.storage ∧
      ∀ call, r.Authorized sliceHash call → (Succeeds sliceHash r call ↔ r.Clear call) := by
  obtain ⟨r,reached,sound⟩ := run_registry sliceHash riskAuthority lendingAdapter calls
  refine ⟨r,reached,loadData_cell r,?_⟩
  intro call authorized
  constructor
  · rintro ⟨messages,received,-⟩
    exact ((call_ok sliceHash sound call).mp ⟨messages,received⟩).1.2
  · intro clear
    obtain ⟨messages,received⟩ := (call_ok sliceHash sound call).mpr ⟨⟨authorized,clear⟩,rfl⟩
    have fits := (after_sound sliceHash sound authorized clear).fits
    exact ⟨messages,received,(storage_fits _).mpr fits,loadData_cell _⟩

section Blocked

def riskAuthority : Address := newAddress 0 1
def lendingAdapter : Address := newAddress 0 2
def successor : Address := newAddress 0 3

def proposalBy (sender : Address) (role : Role) : Call :=
  ⟨sender,1000,.propose role successor,false,true,[],[]⟩

theorem first_proposal_succeeds_iff :
    ∃ r : Registry, run (fun _ => 0) riskAuthority lendingAdapter
        [proposalBy riskAuthority .riskAuthority] = r.cell ∧
      loadData r.cell = .ok r.storage ∧
      ∀ call, r.Authorized (fun _ => 0) call → (Succeeds (fun _ => 0) r call ↔ r.Clear call) :=
  operation_succeeds_iff (fun _ => 0) riskAuthority lendingAdapter
    [proposalBy riskAuthority .riskAuthority]

/-- After the risk authority proposed a transfer the lending adapter cannot propose one. -/
theorem second_proposal_overflows :
    ∃ r : Registry, run (fun _ => 0) riskAuthority lendingAdapter
        [proposalBy riskAuthority .riskAuthority] = r.cell ∧
      r.Authorized (fun _ => 0) (proposalBy lendingAdapter .lendingAdapter) ∧
      recvInternal (fun _ => 0) (proposalBy lendingAdapter .lendingAdapter).now
        (proposalBy lendingAdapter .lendingAdapter).inMsgFull
        (proposalBy lendingAdapter .lendingAdapter).inMsgBody r.cell = .error cellOverflow := by
  have clear : (deployed riskAuthority lendingAdapter).Clear
      (proposalBy riskAuthority .riskAuthority) := ⟨rfl,by decide⟩
  obtain ⟨messages,received⟩ := (call_ok (fun _ => 0) (deployed_sound riskAuthority lendingAdapter)
    (proposalBy riskAuthority .riskAuthority)).mpr ⟨⟨rfl,clear⟩,rfl⟩
  refine ⟨(deployed riskAuthority lendingAdapter).after (fun _ => 0)
    (proposalBy riskAuthority .riskAuthority),?_,rfl,abortsWith_eq ?_⟩
  · have stepped : machine (fun _ => 0) (deploymentData riskAuthority lendingAdapter)
        (proposalBy riskAuthority .riskAuthority) = some
          (((deployed riskAuthority lendingAdapter).after (fun _ => 0)
            (proposalBy riskAuthority .riskAuthority)).cell,messages) := by
      rw [deployed_cell,machine,received]
      rfl
    exact Journal.run_accepted stepped
  · decide +kernel

end Blocked
end Tonbankcard.AccountLocks
