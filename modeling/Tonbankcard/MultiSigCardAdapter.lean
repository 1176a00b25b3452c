import Tonbankcard.JsNumbers
import Tonbankcard.MultiSigCardHistory
import Tonbankcard.TonAddress

/-! The off-chain records of multi-signature cards, and that the record of a proposal that is told
what the contract carried out shows the proposal as the contract has it. -/
namespace Tonbankcard.MultiSigCardAdapter

open Ton EcmaScript

section Adapter

structure ProviderError where
  message : JsString
  code : JsString
  provider : JsString

/-- Errors carry the name of another provider. -/
def createError (message code : String) : ProviderError := ⟨js message,js code,js "ChangeNOW"⟩

def refuse (bad : Bool) (message code : String) : Except ProviderError Unit :=
  if bad then .error (createError message code) else .ok ()

structure MultiSigCardConfig where
  nftAccountId : JsString
  requiredSignatures : Number
  signers : List JsString
  isActive : Bool
  createdAt : Nat

inductive Status where
  | pending | approved | rejected | executed
  deriving DecidableEq

structure PaymentProposal where
  proposalId : JsString
  nftAccountId : JsString
  recipient : JsString
  amount : JsString
  status : Status
  approvalCount : Nat
  requiredApprovals : Number
  approvers : List JsString
  createdAt : Nat

/-- `/^(0|[1-9][0-9]*)(\.[0-9]{1,9})?$/`, of at most 80 units, and more than zero. -/
def isPositiveDecimal (value : JsString) : Bool :=
  let whole := value.takeWhile isDigit
  let behind := value.dropWhile isDigit
  let fractional := behind.drop 1
  value.length ≤ 80 && (whole = [48] || (!whole.isEmpty && whole.head? ≠ some 48)) &&
    (behind.isEmpty || (behind.head? = some 46 && 1 ≤ fractional.length &&
      fractional.length ≤ 9 && fractional.all isDigit)) &&
    0 < fixedValue 10 whole * 10^9 +
      fixedValue 10 (fractional ++ List.replicate (9 - fractional.length) 48)

def createProposal (nftAccountId recipient amount : JsString) (config : MultiSigCardConfig)
    (proposalId : JsString) (now : Nat) : Except ProviderError PaymentProposal := do
  refuse (!config.isActive) "Multi-sig is not active for this account" "NOT_CONFIGURED"
  refuse (!isPositiveDecimal amount) "Invalid payment amount" "INVALID_AMOUNT"
  refuse (trim recipient).isEmpty "Recipient address required" "INVALID_RECIPIENT"
  return {
    proposalId
    nftAccountId
    recipient
    amount
    status := .pending
    approvalCount := 0
    requiredApprovals := config.requiredSignatures
    approvers := []
    createdAt := now }

/-- `newCount >= requiredApprovals` -/
def reached (newCount : Nat) : Number → Bool
  | .nan => false
  | .infinite negative => negative
  | .finite required => required ≤ newCount

def recordApproval (proposal : PaymentProposal) (approverAddress : JsString)
    (config : MultiSigCardConfig) : Except ProviderError PaymentProposal := do
  refuse (proposal.status ≠ .pending) "Can only approve pending proposals" "INVALID_STATUS"
  refuse (!config.signers.contains approverAddress) "Approver is not a registered co-signer"
    "NOT_SIGNER"
  refuse (proposal.approvers.contains approverAddress) "Already approved by this signer"
    "ALREADY_APPROVED"
  let newCount := proposal.approvalCount + 1
  return {proposal with
    approvalCount := newCount
    approvers := proposal.approvers ++ [approverAddress]
    status := if reached newCount proposal.requiredApprovals then .approved else .pending}

def rejectProposal (proposal : PaymentProposal) : Except ProviderError PaymentProposal := do
  refuse (proposal.status ≠ .pending) "Can only reject pending proposals" "INVALID_STATUS"
  return {proposal with status := .rejected}

def markExecuted (proposal : PaymentProposal) : Except ProviderError PaymentProposal := do
  refuse (proposal.status ≠ .approved) "Can only execute approved proposals" "INVALID_STATUS"
  return {proposal with status := .executed}

theorem refuse_bind_ok {bad : Bool} {message code : String}
    {rest : Except ProviderError α} {value : α} :
    (refuse bad message code >>= fun _ => rest) = .ok value ↔ bad = false ∧ rest = .ok value := by
  cases bad <;> simp [refuse,bind,Except.bind]

end Adapter

section Records

open MultiSigCard (Operation operation Entry State)

/-- How an application names things off chain. -/
structure Naming where
  text : Address → JsString
  amountText : Nat → JsString
  proposalId : Entry → JsString
  now : Entry → Nat
  text_injective : Function.Injective text

variable (names : Naming) (config : MultiSigCardConfig) (nft : Address) (id : BitVec 64)

/-- The record after one more operation of the contract. A proposal that the adapter does not
create has no record. -/
def record (entry : Entry) (known : Option PaymentProposal) :
    Except ProviderError (Option PaymentProposal) :=
  match operation nft id entry,known with
  | .submit recipient amount,_ =>
    .ok (createProposal (names.text nft) (names.text recipient) (names.amountText amount) config
      (names.proposalId entry) (names.now entry)).toOption
  | .approve signer,some proposal =>
    (recordApproval proposal (names.text signer) config).map some
  | .reject,some proposal => (rejectProposal proposal).map some
  | .execute,some proposal => (markExecuted proposal).map some
  | _,_ => .ok known

/-- The record after what was carried out, newest first. -/
def records : List Entry → Except ProviderError (Option PaymentProposal)
  | [] => .ok none
  | entry :: past => do
    let known ← records past
    record names config nft id entry known

/-- A signer whom the adapter's configuration lists, at the threshold of the contract's. -/
structure Covers (chain : MultiSigCard.MultiSigConfig) (signer : Address) : Prop where
  required : config.requiredSignatures = .finite chain.requiredSignatures
  listed : names.text signer ∈ config.signers

def statusOf : MultiSigCard.ProposalStatus → Status
  | .pending => .pending
  | .approved => .approved
  | .rejected => .rejected
  | .executed => .executed

/-- A record shows a proposal of the contract, and whom its approvals are from. -/
structure Shows (hash : Cell → Int) (s : State) (p : PaymentProposal)
    (q : MultiSigCard.PaymentProposal) : Prop where
  stored : s.getProposal hash nft id = some q
  recipient : p.recipient = names.text q.recipient
  amount : p.amount = names.amountText q.amount
  status : p.status = statusOf q.status
  count : p.approvalCount = q.approvalCount
  required : p.requiredApprovals = config.requiredSignatures
  approvers : p.approvers.Nodup ∧ p.approvers.length = p.approvalCount
  approved : ∀ approver ∈ p.approvers, ∃ signer, approver = names.text signer ∧
    s.hasApproved hash nft id signer = true
  authorized : ∀ approver ∈ p.approvers, approver ∈ config.signers
  quorum : p.status = .approved ∨ p.status = .executed →
    reached p.approvers.length config.requiredSignatures = true

variable {names : Naming} {config : MultiSigCardConfig} {nft : Address} {id : BitVec 64}
  {hash : Cell → Int}

/-- What the contract keeps shows what was shown before. -/
theorem Shows.kept {s next : State} (shown : Shows names config nft id hash s p q)
    (proposal : next.getProposal hash nft id = s.getProposal hash nft id)
    (approvals : next.hasApproved hash nft id = s.hasApproved hash nft id) :
    Shows names config nft id hash next p q :=
  {shown with
    stored := proposal.trans shown.stored
    approved := fun approver member => by
      obtain ⟨signer,same,recorded⟩ := shown.approved approver member
      exact ⟨signer,same,(congrFun approvals signer).trans recorded⟩ }

/-- A new proposal has no approvals. -/
theorem Shows.created {s : State} {recipient : Address} {amount now created : Nat}
    {proposalId : JsString} {p : PaymentProposal}
    (creates : createProposal (names.text nft) (names.text recipient) (names.amountText amount)
      config proposalId created = .ok p) :
    Shows names config nft id hash (s.putProposal hash nft id ⟨.pending,recipient,amount,0,now⟩) p
      ⟨.pending,recipient,amount,0,now⟩ := by
  obtain ⟨-,creates⟩ := refuse_bind_ok.mp creates
  obtain ⟨-,creates⟩ := refuse_bind_ok.mp creates
  obtain ⟨-,creates⟩ := refuse_bind_ok.mp creates
  obtain rfl := Except.ok.inj creates
  exact {
    stored := MultiSigCard.State.getProposal_putProposal_same ..
    recipient := rfl
    amount := rfl
    status := rfl
    count := rfl
    required := rfl
    approvers := ⟨List.nodup_nil,rfl⟩
    approved := nofun
    authorized := nofun
    quorum := nofun }

theorem count_fields (q : MultiSigCard.PaymentProposal) (required : Nat) :
    (q.count required).recipient = q.recipient ∧ (q.count required).amount = q.amount ∧
      (q.count required).approvalCount = q.approvalCount + 1 := by
  by_cases enough : required ≤ q.approvalCount + 1
  · simp [MultiSigCard.PaymentProposal.count,enough]
  · simp [MultiSigCard.PaymentProposal.count,enough]

/-- The contract and the adapter count alike, up to the same threshold. -/
theorem count_status (q : MultiSigCard.PaymentProposal) (required : Nat) :
    statusOf (q.count required).status =
      if reached (q.approvalCount + 1) (.finite required) then .approved else .pending := by
  by_cases enough : required ≤ q.approvalCount + 1
  · have within : (required : ℚ) ≤ q.approvalCount + 1 := by exact_mod_cast enough
    simp [reached,MultiSigCard.PaymentProposal.count,enough,statusOf,within]
  · have beyond : ¬(required : ℚ) ≤ q.approvalCount + 1 := by exact_mod_cast enough
    simp [reached,MultiSigCard.PaymentProposal.count,enough,statusOf,beyond]

/-- An approval that the contract counts is counted by the adapter, with the same outcome. -/
theorem Shows.approves {s : State} {signer : Address}
    (shown : Shows names config nft id hash s p q)
    (covers : Covers names config (s.getMultiSigConfig nft) signer)
    (pending : q.status = .pending) (fresh : s.hasApproved hash nft id signer = false) :
    ∃ counted, recordApproval p (names.text signer) config = .ok counted ∧
      Shows names config nft id hash
        ((s.putApproval hash nft id signer).putProposal hash nft id
          (q.count (s.getMultiSigConfig nft).requiredSignatures)) counted
        (q.count (s.getMultiSigConfig nft).requiredSignatures) := by
  have first : names.text signer ∉ p.approvers := by
    intro member
    obtain ⟨other,same,recorded⟩ := shown.approved _ member
    rw [names.text_injective same,recorded] at fresh
    cases fresh
  have waits : p.status = .pending := by rw [shown.status,pending]; rfl
  have accepted : recordApproval p (names.text signer) config = .ok
      {p with
        approvalCount := p.approvalCount + 1
        approvers := p.approvers ++ [names.text signer]
        status := if reached (p.approvalCount + 1) p.requiredApprovals then .approved
          else .pending} := by
    simp [recordApproval,refuse_bind_ok,waits,covers.listed,first,pure,Except.pure]
  refine ⟨_,accepted,?_⟩
  have split : ∀ approver, approver ∈ p.approvers ++ [names.text signer] →
      approver ∈ p.approvers ∨ approver = names.text signer := by simp
  obtain ⟨recipient,amount,counts⟩ :=
    count_fields q (s.getMultiSigConfig nft).requiredSignatures
  exact {
    stored := MultiSigCard.State.getProposal_putProposal_same ..
    recipient := shown.recipient.trans (congrArg names.text recipient.symm)
    amount := shown.amount.trans (congrArg names.amountText amount.symm)
    status := by rw [count_status,shown.required,covers.required,shown.count]
    count := (congrArg (· + 1) shown.count).trans counts.symm
    required := shown.required
    approvers := by
      refine ⟨?_,by simp [shown.approvers.2]⟩
      exact List.nodup_append.mpr ⟨shown.approvers.1,List.nodup_singleton _,
        fun approver member last same equal =>
          first (List.mem_singleton.mp same ▸ equal ▸ member)⟩
    approved := by
      intro approver member
      rcases split approver member with earlier | rfl
      · obtain ⟨other,same,recorded⟩ := shown.approved approver earlier
        refine ⟨other,same,?_⟩
        simp [MultiSigCard.State.hasApproved_putApproval,recorded]
      · refine ⟨signer,rfl,?_⟩
        simp [MultiSigCard.State.hasApproved_putApproval]
    authorized := by
      intro approver member
      rcases split approver member with earlier | rfl
      · exact shown.authorized approver earlier
      · exact covers.listed
    quorum := by
      intro closed
      have counted : (p.approvers ++ [names.text signer]).length = p.approvalCount + 1 := by
        simp [shown.approvers.2]
      rw [counted,← shown.required]
      by_contra missed
      simp [missed] at closed }

/-- A proposal that leaves its status does so on the record as well. -/
theorem Shows.closes {s : State} {status : MultiSigCard.ProposalStatus}
    (shown : Shows names config nft id hash s p q)
    (settled : status = .rejected ∨ p.status = .approved) :
    Shows names config nft id hash (s.putProposal hash nft id {q with status})
      {p with status := statusOf status} {q with status} :=
  {shown with
    stored := MultiSigCard.State.getProposal_putProposal_same ..
    status := rfl
    quorum := by
      intro closed
      rcases settled with rfl | approved
      · simp [statusOf] at closed
      · exact shown.quorum (.inl approved) }

/-- The adapter refuses to make a record of what the contract accepted as a proposal. -/
def Unrecorded (names : Naming) (config : MultiSigCardConfig) (nft : Address) (id : BitVec 64)
    (entry : Entry) : Prop :=
  ∃ recipient amount failure, operation nft id entry = .submit recipient amount ∧
    createProposal (names.text nft) (names.text recipient) (names.amountText amount) config
      (names.proposalId entry) (names.now entry) = .error failure

/-- A record shows what the contract has, and what it has is missing only after a refusal. -/
def Faithful (names : Naming) (config : MultiSigCardConfig) (nft : Address) (id : BitVec 64)
    (hash : Cell → Int) (past : List Entry) (s : State) (view : Option PaymentProposal) : Prop :=
  (∀ p, view = some p → ∃ q, Shows names config nft id hash s p q) ∧
    (view = none → s.getProposal hash nft id = none ∨
      ∃ entry ∈ past, Unrecorded names config nft id entry)

variable {past : List Entry} {entry : Entry}

theorem faithful_shows {s : State} {p : PaymentProposal}
    (shown : Shows names config nft id hash s p q) :
    Faithful names config nft id hash past s (some p) :=
  ⟨fun _ same => ⟨q,Option.some.inj same ▸ shown⟩,nofun⟩

/-- A proposal that is already stored has a record, unless it was refused one. -/
theorem Faithful.recorded {s : State} {view : Option PaymentProposal}
    (faithful : Faithful names config nft id hash past s view)
    (stored : s.getProposal hash nft id = some q) :
    (∃ p, view = some p ∧ Shows names config nft id hash s p q) ∨
      (view = none ∧ ∃ entry ∈ past, Unrecorded names config nft id entry) := by
  cases view with
  | none =>
    rcases faithful.2 rfl with absent | refused
    · rw [stored] at absent
      cases absent
    · exact .inr ⟨rfl,refused⟩
  | some p =>
    obtain ⟨known,shown⟩ := faithful.1 p rfl
    obtain rfl := Option.some.inj (shown.stored.symm.trans stored)
    exact .inl ⟨p,rfl,shown⟩

theorem faithful_refused {s : State}
    (refused : ∃ entry ∈ past, Unrecorded names config nft id entry) :
    Faithful names config nft id hash (entry :: past) s none := by
  obtain ⟨earlier,member,refused⟩ := refused
  exact ⟨nofun,fun _ => .inr ⟨earlier,List.mem_cons_of_mem _ member,refused⟩⟩

/-- One operation of the contract, told to the adapter: one case for each operation. -/
theorem record_step {s next : State} {env : Context} {known : Option PaymentProposal}
    (slot : MultiSigCard.Slot hash env s nft id (operation nft id entry) next)
    (covers : ∀ signer, operation nft id entry = .approve signer →
      Covers names config (s.getMultiSigConfig nft) signer)
    (faithful : Faithful names config nft id hash past s known) :
    ∃ view, record names config nft id entry known = .ok view ∧
      Faithful names config nft id hash (entry :: past) next view := by
  simp only [record]
  generalize carried : operation nft id entry = carries at slot covers
  cases slot with
  | submit =>
    cases outcome : createProposal (names.text nft) (names.text _) (names.amountText _) config
        (names.proposalId entry) (names.now entry) with
    | error failure =>
      exact ⟨none,congrArg (Except.ok ·.toOption) outcome,nofun,fun _ =>
        .inr ⟨entry,List.mem_cons_self,_,_,failure,carried,outcome⟩⟩
    | ok fresh => exact
      ⟨some fresh,congrArg (Except.ok ·.toOption) outcome,faithful_shows (Shows.created outcome)⟩
  | approve signer stored pending fresh =>
    rcases faithful.recorded stored with ⟨p,rfl,shown⟩ | ⟨rfl,refused⟩
    · obtain ⟨counted,accepted,follows⟩ := shown.approves (covers _ rfl) pending fresh
      exact ⟨some counted,by simp [accepted,Except.map],faithful_shows follows⟩
    · exact ⟨none,rfl,faithful_refused refused⟩
  | reject stored pending =>
    rcases faithful.recorded stored with ⟨p,rfl,shown⟩ | ⟨rfl,refused⟩
    · have waits : p.status = .pending := by rw [shown.status,pending]; rfl
      refine ⟨some {p with status := .rejected},?_,faithful_shows (shown.closes (.inl rfl))⟩
      simp [rejectProposal,waits,Except.map,refuse,bind,Except.bind,pure,Except.pure]
    · exact ⟨none,rfl,faithful_refused refused⟩
  | execute stored ready =>
    rcases faithful.recorded stored with ⟨p,rfl,shown⟩ | ⟨rfl,refused⟩
    · have approved : p.status = .approved := by rw [shown.status,ready]; rfl
      refine ⟨some {p with status := .executed},?_,
        faithful_shows (shown.closes (.inr approved))⟩
      simp [markExecuted,approved,Except.map,refuse,bind,Except.bind,pure,Except.pure]
    · exact ⟨none,rfl,faithful_refused refused⟩
  | other proposal approvals =>
    refine ⟨known,by cases known <;> rfl,?_,?_⟩
    · intro p present
      obtain ⟨q,shown⟩ := faithful.1 p present
      exact ⟨q,shown.kept proposal approvals⟩
    · intro absent
      rcases faithful.2 absent with unknown | ⟨earlier,member,refused⟩
      · exact .inl (proposal.trans unknown)
      · exact .inr ⟨earlier,List.mem_cons_of_mem _ member,refused⟩

/-- When the adapter keeps the configuration that the contract counts approvals under, it refuses
nothing that the contract carries out, and its record shows the proposal of the contract. -/
theorem records_show (collisionFree : CollisionFree hash) (names : Naming)
    (config : MultiSigCardConfig) (nft deployer : Address) (id : BitVec 64)
    (deliveries : List (Delivery MultiSigCard.Message))
    (covers : ∀ entry ∈ MultiSigCard.journal hash (MultiSigCard.init deployer) deliveries,
      ∀ signer, operation nft id entry = .approve signer →
        Covers names config (entry.before.getMultiSigConfig nft) signer) :
    ∃ view, records names config nft id
        (MultiSigCard.journal hash (MultiSigCard.init deployer) deliveries) = .ok view ∧
      Faithful names config nft id hash
        (MultiSigCard.journal hash (MultiSigCard.init deployer) deliveries)
        (MultiSigCard.run hash (MultiSigCard.init deployer) deliveries) view := by
  refine deliver_invariant (fun past s => (∀ entry ∈ past, ∀ signer,
      operation nft id entry = .approve signer →
        Covers names config (entry.before.getMultiSigConfig nft) signer) →
      ∃ view, records names config nft id past = .ok view ∧
        Faithful names config nft id hash past s view) ?_ ?_ deliveries covers
  · exact fun _ => ⟨none,rfl,nofun,fun _ => .inl rfl⟩
  · intro past s d next actions ih accepted covers
    obtain ⟨known,recorded,faithful⟩ := ih fun entry member =>
      covers entry (List.mem_cons_of_mem _ member)
    have effect := MultiSigCard.receive_effect accepted
    have slot := MultiSigCard.effect_slot collisionFree effect nft id
    obtain ⟨view,told,follows⟩ := record_step slot (covers _ List.mem_cons_self) faithful
    refine ⟨view,?_,follows⟩
    rw [records,recorded]
    exact told

end Records

section Sample

open MultiSigCard

/-- Addresses in user-friendly form, and amounts in digits. -/
def friendlyNaming : Naming where
  text := Address.friendly
  amountText := natDigits
  proposalId _ := js "proposal_0_00000000"
  now _ := 0
  text_injective := fun one other same => by
    have parsed := congrArg Address.parseFriendly same
    rw [Address.parseFriendly_friendly,Address.parseFriendly_friendly] at parsed
    exact Option.some.inj parsed

def twoSigners : MultiSigCardConfig :=
  ⟨Address.friendly card,.finite 2,[Address.friendly firstSigner,Address.friendly secondSigner],
    true,0⟩

def carriedOut : List (Delivery Message) :=
  [sentBy owner (.executePaymentProposal card 1),
    sentBy secondSigner (.approvePaymentProposal card 1),
    sentBy firstSigner (.approvePaymentProposal card 1),
    sentBy owner (.submitPaymentProposal card 1 payee 50),
    sentBy owner (.configureMultiSig card 2 firstSigner secondSigner firstSigner),
    sentBy owner (.registerNFTOwnerMultiSig card owner)]

theorem records_show_carried_out :
    ∃ view, records friendlyNaming twoSigners card 1 (journal packedHash (init owner) carriedOut) =
        .ok view ∧
      Faithful friendlyNaming twoSigners card 1 packedHash
        (journal packedHash (init owner) carriedOut) (run packedHash (init owner) carriedOut)
        view := by
  refine records_show packedHash_collisionFree friendlyNaming twoSigners card owner 1 carriedOut ?_
  have covered : (journal packedHash (init owner) carriedOut).all (fun entry =>
      (approver card 1 entry).all fun signer =>
        (entry.before.getMultiSigConfig card).requiredSignatures == 2 &&
          (signer == firstSigner || signer == secondSigner)) = true := by decide +kernel
  intro entry member signer approved
  have named : approver card 1 entry = some signer := by rw [approver,approved]
  have checked := List.all_eq_true.mp covered entry member
  simp only [named,Option.all_some,Bool.and_eq_true,beq_iff_eq,Bool.or_eq_true] at checked
  refine ⟨?_,?_⟩
  · rw [checked.1]
    rfl
  · rcases checked.2 with rfl | rfl
    · exact List.mem_cons_self
    · exact List.mem_cons_of_mem _ List.mem_cons_self

end Sample
end Tonbankcard.MultiSigCardAdapter
