import Tonbankcard.EmittedEvents
import Tonbankcard.InvoicePayment
import Tonbankcard.MerchantPaymentHubAuthority

/-! The verification of a settlement in the TypeScript SDK against the transactions of the hub: the
client looks a transaction up, reads the first payment event among its outbound messages and
compares it with the invoice. -/
namespace Tonbankcard.SdkSettlement

open Ton EcmaScript InvoicePayment

section Verification

/-- An outbound message, of which only the bodies of emitted ones are read. -/
inductive OutMessage where
  | internal (destination : Address)
  | externalOut (body : Cell)

structure Transaction where
  generic : Bool
  aborted : Bool
  now : Nat
  outMessages : List OutMessage

structure MatchedPayment where
  merchantNft : Address
  amountTbc : Int
  payloadHash : Int
  deriving DecidableEq, Repr

/-- The fields of an invoice that a payment has to have. -/
structure SettlementMatchCriteria where
  merchantNft : Address
  amountTbc : Int
  payloadHash : Option Int

structure TransactionVerification where
  isValid : Bool
  txHash : JsString
  confirmations : Int
  matchesInvoice : Bool
  error : Option String

/-- The two shapes of an answer about the head of the masterchain. -/
structure MasterchainInfo where
  latestSeqno : Option Int
  lastSeqno : Option Int

/-- What the network answers. A request that fails throws a text; the block of a time is just not
found. -/
structure Client where
  getTransaction : JsString → JsString → Except String (Option Transaction)
  getMasterchainInfo : Except String MasterchainInfo
  lookupBlock : Nat → Option Int

/-- The op code by which the client knows a payment event. -/
def MERCHANT_PAYMENT_OP : Nat := 0x3b4c2365

def extractLatestSeqno (info : MasterchainInfo) : Option Int := info.latestSeqno <|> info.lastSeqno

/-- The blocks sealed on top of the one that includes a transaction. -/
def computeConfirmations (headSeqno inclusionSeqno : Option Int) : Int :=
  match inclusionSeqno,headSeqno with
  | some inclusionSeqno,some headSeqno =>
    if 0 < headSeqno - inclusionSeqno then headSeqno - inclusionSeqno else 0
  | _,_ => 0

/-- The fields behind the op code of a payment event; the payer is skipped. -/
def loadPayment (s : Slice) : Result MatchedPayment := do
  let (_,s) ← Indexer.loadAddress s
  let (merchantNft,s) ← Indexer.loadAddress s
  let (amountTbc,s) ← s.loadCoins
  let (payloadHash,_) ← s.loadInt 257
  pure ⟨merchantNft,amountTbc,payloadHash⟩

/-- The payment of one message; a malformed body is skipped. -/
def messagePayment : OutMessage → Option MatchedPayment
  | .internal _ => none
  | .externalOut body =>
    match body.beginParse.loadUint 32 with
    | .error _ => none
    | .ok (op,s) => if op = MERCHANT_PAYMENT_OP then (loadPayment s).toOption else none

def extractMerchantPayment (tx : Transaction) : Option MatchedPayment :=
  tx.outMessages.findSome? messagePayment

def SettlementMatchCriteria.admits (expected : SettlementMatchCriteria) (payment : MatchedPayment) :
    Bool :=
  payment.merchantNft == expected.merchantNft && payment.amountTbc == expected.amountTbc &&
    (expected.payloadHash == none || some payment.payloadHash == expected.payloadHash)

def refusal (txHash : JsString) (error : String) : TransactionVerification :=
  ⟨false,txHash,0,false,some error⟩

/-- Whether a transaction pays what is expected, and what to say if it does not. -/
def matchInvoice (tx : Transaction) : Option SettlementMatchCriteria → Bool × Option String
  | none => (false,some ("No invoice provided; matchesInvoice cannot be verified. " ++
      "Pass the target invoice to verifySettlement to enable matching."))
  | some expected =>
    match extractMerchantPayment tx with
    | none => (false,some "No MerchantPayment event found in transaction")
    | some payment =>
      if expected.admits payment then (true,none)
      else (false,some "On-chain payment does not match the expected invoice")

def colon : UInt16 := 58

/-- The hash of a transaction is its logical time and its hash with a colon between them. -/
def verifySettlement (client : Client) (txHash : JsString)
    (expected : Option SettlementMatchCriteria) : TransactionVerification :=
  if colon ∉ txHash then refusal txHash "Invalid txHash format: expected \"<lt>:<hash>\"" else
  let lt := txHash.takeWhile (· ≠ colon)
  let hash := (txHash.dropWhile (· ≠ colon)).drop 1
  match client.getTransaction lt hash with
  | .error message => refusal txHash message
  | .ok none => refusal txHash "Transaction not found"
  | .ok (some tx) =>
    match client.getMasterchainInfo with
    | .error message => refusal txHash message
    | .ok info =>
      let confirmations :=
        computeConfirmations (extractLatestSeqno info) (client.lookupBlock tx.now)
      let (matchesInvoice,error) := matchInvoice tx expected
      ⟨tx.generic && !tx.aborted,txHash,confirmations,matchesInvoice,error⟩

theorem matchInvoice_iff (tx : Transaction) (expected : SettlementMatchCriteria) :
    (matchInvoice tx (some expected)).1 = true ↔
      ∃ payment, extractMerchantPayment tx = some payment ∧ expected.admits payment = true := by
  rw [matchInvoice]
  cases extractMerchantPayment tx with
  | none => simp
  | some payment =>
    simp only [Option.some.injEq,exists_eq_left']
    split <;> simp_all

theorem admits_iff (expected : SettlementMatchCriteria) (payment : MatchedPayment) :
    expected.admits payment = true ↔ payment.merchantNft = expected.merchantNft ∧
      payment.amountTbc = expected.amountTbc ∧
      ∀ payloadHash, expected.payloadHash = some payloadHash → payment.payloadHash = payloadHash := by
  rw [SettlementMatchCriteria.admits]
  cases expected.payloadHash <;> simp [and_assoc]

/-- A verification that comes to an end at a transaction. -/
theorem verifySettlement_found {client : Client} {lt hash : JsString}
    (separated : colon ∉ lt) (found : client.getTransaction lt hash = .ok (some tx))
    (head : client.getMasterchainInfo = .ok info) (expected : Option SettlementMatchCriteria) :
    verifySettlement client (lt ++ colon :: hash) expected =
      ⟨tx.generic && !tx.aborted,lt ++ colon :: hash,
        computeConfirmations (extractLatestSeqno info) (client.lookupBlock tx.now),
        (matchInvoice tx expected).1,(matchInvoice tx expected).2⟩ := by
  have present : colon ∈ lt ++ colon :: hash := by simp
  have passes : ∀ unit ∈ lt, decide (unit ≠ colon) = true := fun unit member =>
    decide_eq_true fun same => separated (same ▸ member)
  have front : (lt ++ colon :: hash).takeWhile (· ≠ colon) = lt := by
    rw [List.takeWhile_append_of_pos passes]
    simp
  have back : (lt ++ colon :: hash).dropWhile (· ≠ colon) = colon :: hash := by
    rw [List.dropWhile_append_of_pos passes]
    simp
  rw [verifySettlement,if_neg (not_not.mpr present)]
  simp only [front,back,List.drop_succ_cons,List.drop_zero,found,head]

end Verification

section Hub

open MerchantPaymentHub (receive response errorNone payloadHash Payable)

variable (hash : Cell → Int) (bodyCell : MerchantPaymentHub.Body → Cell)

def outMessage : Action MerchantPaymentHub.Body → OutMessage
  | .send parameters => .internal parameters.destination
  | .emit body => .externalOut (bodyCell body)

/-- The transaction of a message to the hub. One that is rolled back emits nothing. -/
def hubTransaction (s : MerchantPaymentHub.State) (d : Delivery MerchantPaymentHub.Message) :
    Transaction :=
  match deliver (receive hash) s d with
  | none => ⟨true,true,d.context.now,[]⟩
  | some (_,actions) => ⟨true,false,d.context.now,actions.map (outMessage bodyCell)⟩

def isPayment : MerchantPaymentHub.Body → Bool
  | .merchantPayment .. => true
  | _ => false

/-- The layout of the emitted events as far as the client tells them apart: a payment's fields are
behind an op code, and no other event has the op code that the client looks for. -/
structure Laid (op : Nat) : Prop where
  narrow : op < 2^32
  payment : ∀ payerNft merchantNft amountTbc digest timestamp cell,
    paymentCell op payerNft merchantNft amountTbc digest timestamp = .ok cell →
      bodyCell (.merchantPayment payerNft merchantNft amountTbc digest timestamp) = cell
  other : ∀ body other rest, isPayment body = false →
    (bodyCell body).beginParse.loadUint 32 = .ok (other,rest) → other ≠ MERCHANT_PAYMENT_OP

/-- What the types of a request's fields and of the clock bound. -/
def InRange (d : Delivery MerchantPaymentHub.Message) : Prop :=
  d.context.now < 2^32 ∧ ∀ payerNft merchantNft amountTbc payload,
    d.message = .merchantPaymentRequest payerNft merchantNft amountTbc payload →
      0 ≤ amountTbc ∧ amountTbc < 2^120

/-- The hub answers a request for a payment with success. -/
def Executed (s : MerchantPaymentHub.State) (d : Delivery MerchantPaymentHub.Message)
    (payerNft merchantNft : Address) (amountTbc : Int) (payload : Option Cell) : Prop :=
  d.message = .merchantPaymentRequest payerNft merchantNft amountTbc payload ∧
    ∃ next actions, deliver (receive hash) s d = some (next,actions) ∧
      response d.context errorNone ∈ actions

/-- A client that is only told of transactions of the hub. -/
def TellsOfHub (client : Client) : Prop :=
  ∀ lt txHash tx, client.getTransaction lt txHash = .ok (some tx) →
    ∃ s d, InRange d ∧ tx = hubTransaction hash bodyCell s d

def actionBody : Action MerchantPaymentHub.Body → MerchantPaymentHub.Body
  | .send parameters => parameters.body
  | .emit body => body

variable {hash : Cell → Int} {bodyCell : MerchantPaymentHub.Body → Cell}
  {s next : MerchantPaymentHub.State} {d : Delivery MerchantPaymentHub.Message}

theorem loadAddress_std (address : Address) (more : List Bool) (refs : List Cell) :
    Indexer.loadAddress ⟨address.bits ++ more,refs⟩ = .ok (address,⟨more,refs⟩) :=
  Indexer.loadAddress_address address more refs

theorem messagePayment_payment (laid : Laid bodyCell op) (natural : 0 ≤ amountTbc)
    (small : amountTbc < 2^120) (hashed : 0 ≤ digest ∧ digest < 2^256)
    (dated : timestamp < 2^32) :
    messagePayment (.externalOut (bodyCell
      (.merchantPayment payerNft merchantNft amountTbc digest timestamp))) =
        if op = MERCHANT_PAYMENT_OP then some ⟨merchantNft,amountTbc,digest⟩ else none := by
  have fits : amountTbc.toNat < 2^120 := by omega
  have payload (rest : List Bool) := loadInt_append rest [] hashed.1 hashed.2
  have amount : (amountTbc.toNat : Int) = amountTbc := Int.toNat_of_nonneg natural
  rw [laid.payment _ _ _ _ _ _ (paymentCell_ok laid.narrow natural fits hashed dated)]
  simp only [messagePayment,Cell.beginParse,Slice.loadUint_append 32 op _ _ laid.narrow,
    loadPayment,loadAddress_std,ok_bind,loadCoins_append _ _ _ fits,payload,amount]
  rfl

theorem messagePayment_other (laid : Laid bodyCell op) (other : isPayment body = false) :
    messagePayment (.externalOut (bodyCell body)) = none := by
  simp only [messagePayment]
  cases parsed : (bodyCell body).beginParse.loadUint 32 with
  | error reason => rfl
  | ok loaded =>
    obtain ⟨found,rest⟩ := loaded
    exact if_neg (laid.other body found rest other parsed)

/-- The payment that a client reads off the transaction of an accepted message. -/
theorem effect_payment (laid : Laid bodyCell op)
    (digests : ∀ cell, 0 ≤ hash cell ∧ hash cell < 2^256) (inRange : InRange d)
    (effect : MerchantPaymentHub.Effect hash d.context s d.message next actions)
    (payment : MatchedPayment) :
    (actions.map (outMessage bodyCell)).findSome? messagePayment = some payment ↔
      op = MERCHANT_PAYMENT_OP ∧ ∃ payerNft payload,
        d.message = .merchantPaymentRequest payerNft payment.merchantNft payment.amountTbc payload ∧
        payment.payloadHash = payloadHash hash payload ∧
        response d.context errorNone ∈ actions := by
  obtain ⟨context,msg,commits⟩ := d
  have digest (payload : Option Cell) :
      0 ≤ payloadHash hash payload ∧ payloadHash hash payload < 2^256 := by
    cases payload with
    | none => exact ⟨le_refl (0 : Int),(by decide : (0 : Int) < 2^256)⟩
    | some cell => exact digests cell
  cases effect with
  | @paid payerNft merchantNft amountTbc payload payable =>
    obtain ⟨natural,small⟩ := inRange.2 _ _ _ _ rfl
    rw [List.map_cons,List.findSome?_cons,outMessage,
      messagePayment_payment laid natural small (digest payload) inRange.1]
    by_cases agreed : op = MERCHANT_PAYMENT_OP
    · rw [if_pos agreed,and_iff_right agreed]
      simp only [Option.some.injEq]
      constructor
      · rintro rfl
        exact ⟨payerNft,payload,rfl,rfl,by simp⟩
      · rintro ⟨_,_,same,digest,-⟩
        obtain ⟨-,rfl,rfl,rfl⟩ := MerchantPaymentHub.Message.merchantPaymentRequest.inj same
        rw [← digest]
    · rw [if_neg agreed]
      exact iff_of_false nofun fun answered => agreed answered.1
  | rejected failure =>
    refine iff_of_false nofun ?_
    rintro ⟨-,_,_,-,-,answered⟩
    have same := congrArg actionBody (List.mem_singleton.mp answered)
    exact failure (MerchantPaymentHub.Body.merchantPaymentResponse.inj same).2.symm
  | _ =>
    -- some other event, for some other message
    refine iff_of_false ?_ ?_
    · rw [List.map_cons,List.findSome?_cons,outMessage,messagePayment_other laid rfl]
      exact nofun
    · rintro ⟨-,_,_,same,-⟩
      cases same

/-- What the client reads off the transaction of any message. -/
theorem extractMerchantPayment_iff (laid : Laid bodyCell op)
    (digests : ∀ cell, 0 ≤ hash cell ∧ hash cell < 2^256) (inRange : InRange d)
    (payment : MatchedPayment) :
    extractMerchantPayment (hubTransaction hash bodyCell s d) = some payment ↔
      op = MERCHANT_PAYMENT_OP ∧ ∃ payerNft payload,
        Executed hash s d payerNft payment.merchantNft payment.amountTbc payload ∧
        payment.payloadHash = payloadHash hash payload := by
  rw [hubTransaction]
  cases delivered : deliver (receive hash) s d with
  | none =>
    refine iff_of_false nofun ?_
    rintro ⟨-,_,_,⟨-,_,_,accepted,-⟩,-⟩
    rw [delivered] at accepted
    cases accepted
  | some outcome =>
    obtain ⟨next,actions⟩ := outcome
    have effect := MerchantPaymentHub.receive_effect (deliver_received delivered)
    refine (effect_payment laid digests inRange effect payment).trans (and_congr_right fun _ => ?_)
    constructor
    · rintro ⟨payerNft,payload,asked,digest,answered⟩
      exact ⟨payerNft,payload,⟨asked,next,actions,delivered,answered⟩,digest⟩
    · rintro ⟨payerNft,payload,⟨asked,_,_,accepted,answered⟩,digest⟩
      obtain ⟨rfl,rfl⟩ := Prod.mk.inj (Option.some.inj (delivered.symm.trans accepted))
      exact ⟨payerNft,payload,asked,digest,answered⟩

/-- A payment that is answered with success was asked for by the owner of an account without locks,
and moved the amount. -/
theorem executed_payable (executed : Executed hash s d payerNft merchantNft amountTbc payload) :
    Payable s d.context.sender payerNft merchantNft amountTbc ∧
      ∃ actions, deliver (receive hash) s d =
        some (s.pay payerNft merchantNft amountTbc,actions) := by
  obtain ⟨asked,next,actions,accepted,answered⟩ := executed
  have effect := MerchantPaymentHub.receive_effect (deliver_received accepted)
  rw [asked] at effect
  cases effect with
  | paid payable => exact ⟨payable,_,accepted⟩
  | rejected failure =>
    have same := congrArg actionBody (List.mem_singleton.mp answered)
    exact absurd (MerchantPaymentHub.Body.merchantPaymentResponse.inj same).2.symm failure

/-- The verification of a transaction of the hub reports a match exactly when the client knows the
hub's payments and the hub executed a payment of the invoice in it, and then the merchant was paid
by an account whose owner asked for it. -/
theorem verifySettlement_hub {client : Client} {lt txHash : JsString} {info : MasterchainInfo}
    (laid : Laid bodyCell op) (digests : ∀ cell, 0 ≤ hash cell ∧ hash cell < 2^256)
    (inRange : InRange d) (separated : colon ∉ lt)
    (found : client.getTransaction lt txHash = .ok (some (hubTransaction hash bodyCell s d)))
    (head : client.getMasterchainInfo = .ok info) (expected : SettlementMatchCriteria) :
    let verification := verifySettlement client (lt ++ colon :: txHash) (some expected)
    (verification.matchesInvoice = true ↔ op = MERCHANT_PAYMENT_OP ∧ ∃ payerNft payload,
      Executed hash s d payerNft expected.merchantNft expected.amountTbc payload ∧
      ∀ digest, expected.payloadHash = some digest → payloadHash hash payload = digest) ∧
    (verification.matchesInvoice = true → verification.isValid = true ∧ ∃ payerNft actions,
      s.nftOwners.get payerNft = some d.context.sender ∧
      isLocked (s.getLockState payerNft) = false ∧ 0 < expected.amountTbc ∧
      deliver (receive hash) s d =
        some (s.pay payerNft expected.merchantNft expected.amountTbc,actions)) := by
  intro verification
  have verified : verification = _ := verifySettlement_found separated found head (some expected)
  have compared : verification.matchesInvoice = true ↔
      op = MERCHANT_PAYMENT_OP ∧ ∃ payerNft payload,
        Executed hash s d payerNft expected.merchantNft expected.amountTbc payload ∧
        ∀ digest, expected.payloadHash = some digest → payloadHash hash payload = digest := by
    rw [verified,matchInvoice_iff]
    constructor
    · rintro ⟨payment,extracted,admitted⟩
      obtain ⟨merchant,amount,digests'⟩ := (admits_iff expected payment).mp admitted
      obtain ⟨agreed,payerNft,payload,executed,digest⟩ :=
        (extractMerchantPayment_iff laid digests inRange payment).mp extracted
      exact ⟨agreed,payerNft,payload,merchant ▸ amount ▸ executed,digest ▸ digests'⟩
    · rintro ⟨agreed,payerNft,payload,executed,digest⟩
      refine ⟨⟨expected.merchantNft,expected.amountTbc,payloadHash hash payload⟩,?_,?_⟩
      · exact (extractMerchantPayment_iff laid digests inRange _).mpr
          ⟨agreed,payerNft,payload,executed,rfl⟩
      · exact (admits_iff expected _).mpr ⟨rfl,rfl,digest⟩
  refine ⟨compared,fun matched => ?_⟩
  obtain ⟨-,payerNft,payload,executed,-⟩ := compared.mp matched
  obtain ⟨payable,actions,accepted⟩ := executed_payable executed
  refine ⟨?_,payerNft,actions,payable.owner,?_,payable.positive,accepted⟩
  · rw [verified,hubTransaction,accepted]
    rfl
  · simpa [canSendWithLocks] using payable.unlocked

theorem matchInvoice_unmatched (laid : Laid bodyCell op) (apart : op ≠ MERCHANT_PAYMENT_OP)
    (digests : ∀ cell, 0 ≤ hash cell ∧ hash cell < 2^256) (inRange : InRange d)
    (expected : Option SettlementMatchCriteria) :
    (matchInvoice (hubTransaction hash bodyCell s d) expected).1 = false := by
  cases expected with
  | none => rfl
  | some expected =>
    apply Bool.eq_false_iff.mpr
    intro matched
    obtain ⟨payment,extracted,-⟩ := (matchInvoice_iff _ expected).mp matched
    exact apart ((extractMerchantPayment_iff laid digests inRange payment).mp extracted).1

/-- With the op code that the hub gives its payments, no transaction of it matches any invoice. -/
theorem verifySettlement_unmatched {client : Client} (laid : Laid bodyCell merchantPaymentOp)
    (digests : ∀ cell, 0 ≤ hash cell ∧ hash cell < 2^256)
    (told : TellsOfHub hash bodyCell client) (txHash : JsString)
    (expected : Option SettlementMatchCriteria) :
    (verifySettlement client txHash expected).matchesInvoice = false := by
  unfold verifySettlement
  by_cases separated : colon ∉ txHash
  · rw [if_pos separated]
    rfl
  · rw [if_neg separated]
    simp only
    cases found : client.getTransaction (txHash.takeWhile (· ≠ colon))
        ((txHash.dropWhile (· ≠ colon)).drop 1) with
    | error message => rfl
    | ok answer =>
      cases answer with
      | none => rfl
      | some tx =>
        obtain ⟨s,d,inRange,rfl⟩ := told _ _ tx found
        cases client.getMasterchainInfo with
        | error message => rfl
        | ok info => exact matchInvoice_unmatched laid merchantPaymentOp_ne digests inRange expected

end Hub

section Samples

open MerchantPaymentHub (errorNone)

/-- Payments are laid out behind an op code, and the other events are left empty. -/
def shopBodyCell (op : Nat) : MerchantPaymentHub.Body → Cell
  | .merchantPayment payerNft merchantNft amountTbc payloadHash timestamp =>
    (paymentCell op payerNft merchantNft amountTbc payloadHash timestamp).toOption.getD
      (.ordinary [] [])
  | _ => .ordinary [] []

theorem shopBodyCell_laid (narrow : op < 2^32) : Laid (shopBodyCell op) op where
  narrow := narrow
  payment payerNft merchantNft amountTbc digest timestamp cell laid := by
    rw [shopBodyCell,laid]
    rfl
  other body found rest other := by
    intro laid
    cases body with
    | merchantPayment => contradiction
    | _ => cases laid

/-- A request for the payment of the shop's invoice by the owner of the payer's card. -/
def shopDelivery : Delivery MerchantPaymentHub.Message :=
  ⟨shopContext,.merchantPaymentRequest shopPayerNft shopMerchantNft 1000000000 none,true⟩

/-- The network of a hub that gives its payments some op code. -/
def shopClient (op : Nat) : Client where
  getTransaction _ _ :=
    .ok (some (hubTransaction shopCellHash (shopBodyCell op) shopHub shopDelivery))
  getMasterchainInfo := .ok ⟨some 120,none⟩
  lookupBlock _ := some 100

theorem shopCellHash_bounds (cell : Cell) : 0 ≤ shopCellHash cell ∧ shopCellHash cell < 2^256 := by
  cases cell with
  | ordinary bits refs =>
    rw [shopCellHash]
    split <;> decide
  | dictionary entries => exact ⟨le_refl (0 : Int),(by decide : (0 : Int) < 2^256)⟩

theorem shopDelivery_inRange : InRange shopDelivery :=
  ⟨by decide,by rintro _ _ _ _ ⟨⟩; decide⟩

theorem shopDelivery_executed :
    Executed shopCellHash shopHub shopDelivery shopPayerNft shopMerchantNft 1000000000 none :=
  ⟨rfl,_,_,rfl,by simp [shopDelivery]⟩

/-- With the op code that the client looks for, the shop's payment would match. -/
theorem verifySettlement_shop :
    (verifySettlement (shopClient MERCHANT_PAYMENT_OP) (js "47" ++ colon :: js "5f1c")
      (some ⟨shopMerchantNft,1000000000,none⟩)).matchesInvoice = true :=
  ((verifySettlement_hub (d := shopDelivery) (shopBodyCell_laid (by decide)) shopCellHash_bounds
    shopDelivery_inRange (by decide) rfl rfl ⟨shopMerchantNft,1000000000,none⟩).1).mpr
      ⟨rfl,_,_,shopDelivery_executed,nofun⟩

theorem verifySettlement_shop_unmatched :
    (verifySettlement (shopClient merchantPaymentOp) (js "47" ++ colon :: js "5f1c")
      (some ⟨shopMerchantNft,1000000000,none⟩)).matchesInvoice = false := by
  have told : TellsOfHub shopCellHash (shopBodyCell merchantPaymentOp)
      (shopClient merchantPaymentOp) := by
    rintro _ _ _ ⟨⟩
    exact ⟨shopHub,shopDelivery,shopDelivery_inRange,rfl⟩
  exact verifySettlement_unmatched (shopBodyCell_laid (by decide)) shopCellHash_bounds told _ _

end Samples
end Tonbankcard.SdkSettlement
