import Tonbankcard.AccountLocksMessages
import Tonbankcard.AccountLocksTransfers

/-! The two-phase transfer of the roles. The pending fields of a role remember the latest
proposal its holder made, and an operation on one role leaves everything else alone. -/
namespace Tonbankcard.AccountLocks

open Ton

/-- The operations on the transfer of a role. -/
def roleCode (role : Role) (op : Nat) : Bool :=
  op == proposeCode role || op == executeCode role || op == cancelCode role

@[simp] theorem roleCode_propose (role other : Role) :
    roleCode role (proposeCode other) = decide (other = role) := by
  cases role <;> cases other <;> rfl

@[simp] theorem roleCode_execute (role other : Role) :
    roleCode role (executeCode other) = decide (other = role) := by
  cases role <;> cases other <;> rfl

@[simp] theorem roleCode_cancel (role other : Role) :
    roleCode role (cancelCode other) = decide (other = role) := by
  cases role <;> cases other <;> rfl

@[simp] theorem roleCode_lock (role : Role) (change : LockChange) :
    roleCode role change.code = false := by cases role <;> cases change <;> rfl

@[simp] theorem roleCode_bind (role : Role) : roleCode role opBindPaymentHub = false := by
  cases role <;> rfl

@[simp] theorem roleCode_check (role : Role) : roleCode role opCheckCanSend = false := by
  cases role <;> rfl

/-- Whether an entry is an operation on the transfer of a role. -/
def transfers (role : Role) (entry : Entry) : Bool :=
  entry.input.request.any (fun request => roleCode role request.op)

/-- The entry proposes an address for a role, in the name of its holder. -/
def ProposedBy (role : Role) (holder address : List Bool) (entry : Entry) : Prop :=
  ∃ request rest, entry.input.request = some request ∧ request.op = proposeCode role ∧
    request.sender = holder ∧ request.body.loadMsgAddr = .ok (address,rest)

/-- The entry executes the transfer of a role, in the name of its new holder. -/
def ExecutedBy (role : Role) (address : List Bool) (entry : Entry) : Prop :=
  ∃ request, entry.input.request = some request ∧ request.op = executeCode role ∧
    request.sender = address

/-- A pending transfer is the latest operation on its role: a proposal by its holder. -/
def Pending (past : List Entry) (role : Role) (data : RoleData) : Prop :=
  data.pendingPresent ≠ 0 → ∃ between proposal earlier, past = between ++ proposal :: earlier ∧
    ProposedBy role data.holder data.pending proposal ∧
    data.pendingAt = proposal.input.now + roleTransferDelay ∧
    ∀ entry ∈ between, transfers role entry = false

theorem Pending.later (pending : Pending past role data) (quiet : transfers role entry = false) :
    Pending (entry :: past) role data := by
  intro present
  obtain ⟨between,proposal,earlier,rfl,proposed,deadline,still⟩ := pending present
  refine ⟨entry :: between,proposal,earlier,rfl,proposed,deadline,?_⟩
  intro other member
  rcases List.mem_cons.mp member with rfl | member
  · exact quiet
  · exact still other member

theorem role_setRole (s : Storage) (role other : Role) (data : RoleData) :
    (s.setRole role data).role other = if other = role then data else s.role other := by
  cases role <;> cases other <;> rfl

theorem lockDict_setRole (s : Storage) (role : Role) (data : RoleData) :
    (s.setRole role data).lockDict = s.lockDict := by cases role <;> rfl

theorem paymentHub_setRole (s : Storage) (role : Role) (data : RoleData) :
    (s.setRole role data).paymentHub = s.paymentHub := by cases role <;> rfl

section Steps
variable {sliceHash : List Bool → Nat} {before after : Storage}

/-- An operation that is not one on a role leaves the role alone. -/
theorem handled_role (asked : entry.input.request = some request)
    (handled : Handled sliceHash now request before after messages) (role : Role)
    (quiet : transfers role entry = false) : after.role role = before.role role := by
  simp only [transfers,asked,Option.any_some] at quiet
  cases handled with
  | bound | checked | locked => cases role <;> rfl
  | proposed other op | executed other op | cancelled other op =>
    simp only [op,roleCode_propose,roleCode_execute,roleCode_cancel,decide_eq_false_iff_not]
      at quiet
    rw [role_setRole,if_neg (Ne.symm quiet)]

/-- An operation on a role leaves the other role, the locks and the hub alone. -/
theorem handled_frame (asked : entry.input.request = some request)
    (handled : Handled sliceHash now request before after messages) (role : Role)
    (touched : transfers role entry = true) :
    after.role role.other = before.role role.other ∧ after.lockDict = before.lockDict ∧
      after.paymentHub = before.paymentHub := by
  simp only [transfers,asked,Option.any_some] at touched
  have apart (role : Role) : role.other ≠ role := by cases role <;> nofun
  cases handled with
  | bound op | checked op => simp [op] at touched
  | locked change op => simp [op] at touched
  | proposed other op | executed other op | cancelled other op =>
    simp only [op,roleCode_propose,roleCode_execute,roleCode_cancel,decide_eq_true_eq] at touched
    subst touched
    exact ⟨by rw [role_setRole,if_neg (apart _)],lockDict_setRole _ _ _,paymentHub_setRole _ _ _⟩

theorem handled_pending (pending : ∀ role, Pending past role (before.role role))
    (asked : m.request = some request)
    (handled : Handled sliceHash m.now request before after messages) (role : Role) :
    Pending (⟨data,m,next,messages⟩ :: past) role (after.role role) := by
  by_cases touched : transfers role ⟨data,m,next,messages⟩ = true
  swap
  · have quiet := Bool.eq_false_iff.mpr touched
    rw [handled_role asked handled role quiet]
    exact (pending role).later quiet
  simp only [transfers,asked,Option.any_some] at touched
  cases handled with
  | bound op | checked op => simp [op] at touched
  | locked change op => simp [op] at touched
  | proposed other op sender loaded =>
    simp only [op,roleCode_propose,decide_eq_true_eq] at touched
    subst touched
    rw [role_setRole,if_pos rfl]
    exact fun _ => ⟨[],_,past,rfl,⟨request,_,asked,op,sender,loaded⟩,rfl,by simp⟩
  | executed other op | cancelled other op =>
    simp only [op,roleCode_execute,roleCode_cancel,decide_eq_true_eq] at touched
    subst touched
    rw [role_setRole,if_pos rfl]
    exact fun present => absurd rfl present

/-- A new holder executed a transfer that the holder in force proposed last. -/
structure Transferred (role : Role) (before after : RoleData) (older : List Entry)
    (entry : Entry) : Prop where
  executed : ExecutedBy role after.holder entry
  proposed : ∃ between proposal earlier, older = between ++ proposal :: earlier ∧
    ProposedBy role before.holder after.holder proposal ∧
    proposal.input.now + roleTransferDelay ≤ entry.input.now ∧
    ∀ other ∈ between, transfers role other = false

theorem handled_transferred (pending : Pending older role (before.role role))
    (asked : entry.input.request = some request)
    (handled : Handled sliceHash entry.input.now request before after messages)
    (changed : (after.role role).holder ≠ (before.role role).holder) :
    Transferred role (before.role role) (after.role role) older entry := by
  cases handled with
  | bound | checked | locked => cases role <;> exact absurd rfl changed
  | proposed other | cancelled other =>
    rw [role_setRole] at changed
    split at changed
    · rename_i same; subst same; exact absurd rfl changed
    · exact absurd rfl changed
  | executed other op present sender elapsed =>
    rw [role_setRole] at changed ⊢
    by_cases same : role = other
    swap
    · rw [if_neg same] at changed
      exact absurd rfl changed
    subst same
    rw [if_pos rfl]
    obtain ⟨between,proposal,earlier,rfl,proposed,deadline,still⟩ := pending present
    exact ⟨⟨request,asked,op,sender⟩,between,proposal,earlier,rfl,proposed,deadline ▸ elapsed,
      still⟩

end Steps

/-- The law of one accepted message, with the fields around it and the entries behind it. -/
structure RoleStep (older : List Entry) (entry : Entry) (before after : Storage) : Prop where
  transferred : (after.role role).holder ≠ (before.role role).holder →
    Transferred role (before.role role) (after.role role) older entry
  frame : transfers role entry = true → after.role role.other = before.role role.other ∧
    after.lockDict = before.lockDict ∧ after.paymentHub = before.paymentHub

section Runs
variable (sliceHash : List Bool → Nat) (riskAuthority lendingAdapter : Address)

/-- The data after any messages, newest first, and the journal of the accepted ones. -/
def reached (arrivals : List Incoming) : Cell :=
  Journal.run (inbound sliceHash) (deploymentData riskAuthority lendingAdapter) arrivals

def history (arrivals : List Incoming) : List Entry :=
  Journal.journal (inbound sliceHash) (deploymentData riskAuthority lendingAdapter) arrivals

theorem deployed_stored : Stored (deploymentData riskAuthority lendingAdapter)
    (deployed riskAuthority lendingAdapter).storage := by
  rw [deployed_cell]
  refine ⟨loadData_cell _,⟨msgAddr_std _,msgAddr_none,msgAddr_std _,msgAddr_none,msgAddr_none⟩⟩

theorem reached_pending (arrivals : List Incoming) :
    ∃ s, Stored (reached sliceHash riskAuthority lendingAdapter arrivals) s ∧
      ∀ role, Pending (history sliceHash riskAuthority lendingAdapter arrivals) role
        (s.role role) := by
  refine stored_invariant (fun past s => ∀ role, Pending past role (s.role role))
    (deployed_stored riskAuthority lendingAdapter) ?_ ?_ arrivals
  · intro role present
    cases role <;> exact absurd rfl present
  · rintro past before data m next after messages pending step role
    rcases step with ⟨empty,rfl,-⟩ | ⟨request,asked,handled⟩
    · exact (pending role).later (by simp [transfers,empty])
    · exact handled_pending pending asked handled role

/-- In every run of arbitrary messages a role changes hands only by the execution of the
latest proposal of its holder, seven days on; an operation on one role leaves the rest of
the storage alone, and a refused message all of it. -/
theorem role_timelock (arrivals : List Incoming) :
    (∀ entry older,
      entry :: older <:+ history sliceHash riskAuthority lendingAdapter arrivals →
      ∃ before after, Stored entry.before before ∧ Stored entry.after after ∧
        RoleStep older entry before after) ∧
    ∀ m, m.commits = false ∨ (∃ reason, recvInternal sliceHash m.now m.inMsgFull m.inMsgBody
        (reached sliceHash riskAuthority lendingAdapter arrivals) = .error reason) →
      reached sliceHash riskAuthority lendingAdapter (m :: arrivals) =
        reached sliceHash riskAuthority lendingAdapter arrivals := by
  constructor
  · intro entry older suffix
    obtain ⟨past,-,rfl,origin,accepted⟩ := Journal.suffix_origin suffix
    obtain ⟨before,stored,pending⟩ := reached_pending sliceHash riskAuthority lendingAdapter past
    rw [reached,← origin] at stored
    obtain ⟨after,kept,step⟩ := inbound_handled stored accepted
    refine ⟨before,after,stored,kept,?_⟩
    rcases step with ⟨empty,rfl,-⟩ | ⟨request,asked,handled⟩
    · exact ⟨fun changed => absurd rfl changed,fun _ => ⟨rfl,rfl,rfl⟩⟩
    · exact ⟨handled_transferred (pending _) asked handled,handled_frame asked handled _⟩
  · intro m rejected
    refine Journal.run_refused ?_
    change inbound sliceHash (reached sliceHash riskAuthority lendingAdapter arrivals) m = none
    rcases rejected with uncommitted | ⟨reason,failed⟩
    · simp [inbound,uncommitted]
    · simp [inbound,failed,Except.toOption]

end Runs

def Call.incoming (call : Call) : Incoming := ⟨call.now,call.inMsgFull,call.inMsgBody,true⟩

/-- The successor takes over in the second the timelock ends, and not in the one before. -/
example : [605799,605800].map (fun now => (loadData (reached (fun _ => 0) riskAuthority
      lendingAdapter [Call.incoming ⟨successor,now,.execute .riskAuthority,false,true,[],[]⟩,
        (proposalBy riskAuthority .riskAuthority).incoming])).toOption.map (·.risk.holder)) =
    [some riskAuthority.bits,some successor.bits] := by decide +kernel

end Tonbankcard.AccountLocks
