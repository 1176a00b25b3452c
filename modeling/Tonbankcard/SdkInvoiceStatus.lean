import Tonbankcard.Doubles
import Tonbankcard.JsMap
import Tonbankcard.MerchantApi
import Tonbankcard.TonAddress

/-! The payment status of an invoice as the TypeScript SDK reports it from its API and as the mock
SDK reports it from its stores: the expiry of the invoice is read before the settlement. -/
namespace Tonbankcard.SdkInvoiceStatus
open EcmaScript Ton

section Histories
variable {M : Type}

/-- What was reported once is reported ever after. -/
def Lasting (reports : M → Prop) (run : List M) : Prop :=
  run.Pairwise fun earlier later => reports earlier → reports later

/-- Once it is reported, every later answer is the expected one. -/
def FinalOnce (reports expected : M → Prop) (run : List M) : Prop :=
  ∀ before m after, run = before ++ m :: after → reports m → ∀ later ∈ m :: after, expected later

theorem finalOnce_iff {reports expected : M → Prop} {run : List M} (lasting : Lasting reports run) :
    FinalOnce reports expected run ↔ ∀ m ∈ run, reports m → expected m := by
  constructor
  · intro final m member reported
    obtain ⟨before,after,rfl⟩ := List.append_of_mem member
    exact final before m after rfl reported m List.mem_cons_self
  · rintro answers before m after rfl reported later member
    refine answers later (List.mem_append_right _ member) ?_
    rcases List.mem_cons.mp member with rfl | behind
    · exact reported
    · exact (List.pairwise_cons.mp (List.pairwise_append.mp lasting).2.1).1 later behind reported

end Histories

inductive PaymentStatus where
  | pending
  | settled
  | expired
  deriving DecidableEq, Repr

def PaymentStatus.text : PaymentStatus → JsString
  | .pending => js "pending"
  | .settled => js "settled"
  | .expired => js "expired"

structure Invoice (Metadata : Type) where
  id : JsString
  merchantNft : Address
  amountTbc : ℤ
  orderId : Option JsString
  description : Option JsString
  metadata : Option Metadata
  createdAt : ℚ
  expiresAt : Option ℚ
  deriving DecidableEq

/-- The status is what the API sent, whether or not it is one of the enumeration's. -/
structure PaymentSettlement where
  invoiceId : JsString
  payerNft : Address
  merchantNft : Address
  amountTbc : ℤ
  txHash : JsString
  blockNumber : ℚ
  timestamp : ℚ
  status : JsString
  deriving DecidableEq

structure CreateInvoiceParams (Metadata : Type) where
  merchantNft : Address
  amountTbc : ℤ
  orderId : Option JsString
  description : Option JsString
  metadata : Option Metadata
  expirationSeconds : Option ℚ

inductive SdkError where
  | plain (message : JsString)
  | validation (message : JsString)
  | configuration (message : JsString)
  | api (message : JsString) (status : Option Nat)
  | invoiceNotFound
  deriving DecidableEq

/-- What the two classes call: `Address.parse`, the check of an address, the copy of metadata
and the id of an invoice. -/
structure Toolkit (Metadata : Type) where
  parse : JsString → Except JsString Address
  isValidAddress : Address → Bool
  cloneJsonSerializable : Metadata → Except JsString Metadata
  generateInvoiceId : Address → ℤ → Option JsString → ℤ → Except SdkError JsString
  mockPayer : Address

/-- `Math.floor(Date.now() / 1000)`; `Date.now` is in milliseconds. -/
def seconds (now : ℤ) : ℤ := now / 1000

def isExpired (expiresAt : Option ℚ) (now : ℤ) : Bool :=
  match expiresAt with
  | none => false
  | some limit => limit ≤ seconds now

/-- The invoice never expires, or it does after the present second. -/
def BeforeExpiry (expiresAt : Option ℚ) (now : ℤ) : Prop :=
  ∀ limit, expiresAt = some limit → (seconds now : ℚ) < limit

theorem isExpired_eq_false (expiresAt : Option ℚ) (now : ℤ) :
    isExpired expiresAt now = false ↔ BeforeExpiry expiresAt now := by
  cases expiresAt with
  | none => simp [isExpired,BeforeExpiry]
  | some limit => simp [isExpired,BeforeExpiry]

/-- What has expired stays so while the clock does not go back. -/
theorem isExpired_later {expiresAt : Option ℚ} {now later : ℤ} (clock : now ≤ later)
    (expired : isExpired expiresAt now = true) : isExpired expiresAt later = true := by
  cases expiresAt with
  | none => cases expired
  | some limit =>
    simp only [isExpired,decide_eq_true_eq] at expired ⊢
    have forward : seconds now ≤ seconds later := Int.ediv_le_ediv (by decide) clock
    exact expired.trans (by exact_mod_cast forward)

/-- The settlement decides between the two statuses of an invoice that has not expired. -/
def statusOf : Option PaymentSettlement → PaymentStatus
  | some settlement => if settlement.status = PaymentStatus.settled.text then .settled else .pending
  | none => .pending

def ReportsSettled (settlement : Option PaymentSettlement) : Prop :=
  ∃ record, settlement = some record ∧ record.status = PaymentStatus.settled.text

theorem statusOf_settled (settlement : Option PaymentSettlement) :
    statusOf settlement = .settled ↔ ReportsSettled settlement := by
  cases settlement with
  | none => simp [statusOf,ReportsSettled]
  | some record => simp [statusOf,ReportsSettled]

section Api
variable {Metadata : Type}

/-- What a request comes to: `fetch` or `json` throws, the answer is not ok, or it has a body. -/
inductive Response (Body : Type) where
  | thrown (message : JsString)
  | refused (status : Nat) (statusText : JsString)
  | ok (body : Body)

structure InvoiceData (Metadata : Type) where
  id : JsString
  merchantNft : JsString
  amountTbc : JsString
  orderId : Option JsString
  description : Option JsString
  metadata : Option Metadata
  createdAt : ℚ
  expiresAt : Option ℚ

structure SettlementData where
  invoiceId : JsString
  payerNft : JsString
  merchantNft : JsString
  amountTbc : JsString
  txHash : JsString
  blockNumber : ℚ
  timestamp : ℚ
  status : JsString

/-- The answers of the API at one moment, by URL. -/
structure Web (Metadata : Type) where
  invoice : JsString → Response (InvoiceData Metadata)
  settlement : JsString → Response SettlementData

structure TonbankcardConfig where
  apiEndpoint : Option JsString

/-- The endpoint where one is configured; the empty text is none. -/
def TonbankcardConfig.endpoint (config : TonbankcardConfig) : Option JsString :=
  config.apiEndpoint.filter fun endpoint => !endpoint.isEmpty

/-- `BigInt` of a text. -/
def toBigInt (s : JsString) : Except JsString ℤ :=
  match MerchantApi.bigInt s with
  | some value => .ok value
  | none => .error (js "Cannot convert " ++ s ++ js " to a BigInt")

variable (kit : Toolkit Metadata)

def cloneOptional : Option Metadata → Except JsString (Option Metadata)
  | none => .ok none
  | some metadata => some <$> kit.cloneJsonSerializable metadata

def parseInvoice (data : InvoiceData Metadata) : Except JsString (Invoice Metadata) := do
  let merchantNft ← kit.parse data.merchantNft
  let amountTbc ← toBigInt data.amountTbc
  let metadata ← cloneOptional kit data.metadata
  return ⟨data.id,merchantNft,amountTbc,data.orderId,data.description,metadata,data.createdAt,
    data.expiresAt⟩

def parseSettlement (data : SettlementData) : Except JsString PaymentSettlement := do
  let payerNft ← kit.parse data.payerNft
  let merchantNft ← kit.parse data.merchantNft
  let amountTbc ← toBigInt data.amountTbc
  return ⟨data.invoiceId,payerNft,merchantNft,amountTbc,data.txHash,data.blockNumber,
    data.timestamp,data.status⟩

def fetchFailure (message : JsString) : SdkError :=
  .api (js "Failed to fetch invoice: " ++ message) none

def getInvoice (config : TonbankcardConfig) (web : Web Metadata) (invoiceId : JsString) :
    Except SdkError (Option (Invoice Metadata)) :=
  match config.endpoint with
  | none => .error (.configuration
      (js "API endpoint not configured. Invoice storage is merchant responsibility."))
  | some endpoint =>
    match web.invoice (endpoint ++ js "/invoice/" ++ invoiceId) with
    | .thrown message => .error (fetchFailure message)
    | .refused status statusText =>
      if status = 404 then .ok none
      else .error (.api (js "API error: " ++ statusText) (some status))
    | .ok data =>
      match parseInvoice kit data with
      | .error message => .error (fetchFailure message)
      | .ok invoice => .ok (some invoice)

def getSettlement (config : TonbankcardConfig) (web : Web Metadata) (invoiceId : JsString) :
    Option PaymentSettlement :=
  match config.endpoint with
  | none => none
  | some endpoint =>
    match web.settlement (endpoint ++ js "/settlement/" ++ invoiceId) with
    | .thrown _ => none
    | .refused _ _ => none
    | .ok data =>
      match parseSettlement kit data with
      | .error _ => none
      | .ok settlement => some settlement

/-- `TonbankcardSDK.getInvoiceStatus`; the clock is read between the two requests. -/
def getInvoiceStatus (config : TonbankcardConfig) (web : Web Metadata) (now : ℤ)
    (invoiceId : JsString) : Except SdkError PaymentStatus :=
  match config.endpoint with
  | none => .ok (statusOf (getSettlement kit config web invoiceId))
  | some _ =>
    match getInvoice kit config web invoiceId with
    | .error error => .error error
    | .ok none => .error .invoiceNotFound
    | .ok (some invoice) =>
      -- an expired invoice is not looked up any more, paid or not
      if isExpired invoice.expiresAt now then .ok .expired
      else .ok (statusOf (getSettlement kit config web invoiceId))

/-- A query: the clock and what the API answers it. -/
structure Moment (Metadata : Type) where
  now : ℤ
  web : Web Metadata

/-- Without an API nothing is ever reported as paid or expired. -/
theorem getInvoiceStatus_offline {config : TonbankcardConfig} (offline : config.endpoint = none)
    (web : Web Metadata) (now : ℤ) (invoiceId : JsString) :
    getInvoiceStatus kit config web now invoiceId = .ok .pending := by
  simp only [getInvoiceStatus,getSettlement,offline,statusOf]

theorem getInvoiceStatus_answered {config : TonbankcardConfig} {web : Web Metadata}
    {invoiceId : JsString} {invoice : Invoice Metadata}
    (answered : getInvoice kit config web invoiceId = .ok (some invoice)) (now : ℤ) :
    getInvoiceStatus kit config web now invoiceId =
      if isExpired invoice.expiresAt now then .ok .expired
      else .ok (statusOf (getSettlement kit config web invoiceId)) := by
  cases configured : config.endpoint with
  | none => simp [getInvoice,configured] at answered
  | some endpoint => simp only [getInvoiceStatus,configured,answered]

/-- The status is SETTLED where the settlement is and the invoice has not expired. -/
theorem getInvoiceStatus_settled_iff {config : TonbankcardConfig} {web : Web Metadata}
    {invoiceId : JsString} {invoice : Invoice Metadata}
    (answered : getInvoice kit config web invoiceId = .ok (some invoice)) (now : ℤ) :
    getInvoiceStatus kit config web now invoiceId = .ok .settled ↔
      BeforeExpiry invoice.expiresAt now ∧
        ReportsSettled (getSettlement kit config web invoiceId) := by
  rw [getInvoiceStatus_answered kit answered,← isExpired_eq_false]
  cases expired : isExpired invoice.expiresAt now with
  | true => simp
  | false => simp [statusOf_settled]

end Api

section Mock
variable {Metadata : Type}

/-- The stores of `MockTonbankcardSDK`; what the constructor is given is where a run starts. -/
structure MockStore (Metadata : Type) where
  invoices : JsMap JsString (Invoice Metadata)
  settlements : JsMap JsString PaymentSettlement

inductive MockCall (Metadata : Type) where
  | createInvoice (params : CreateInvoiceParams Metadata)
  | registerInvoice (invoice : Invoice Metadata)
  | registerSettlement (settlement : PaymentSettlement)
  | simulateSettlement (invoiceId : JsString) (txHash : Option JsString)
  | reset
  | getInvoiceStatus (invoiceId : JsString)

inductive MockReply (Metadata : Type) where
  | done
  | invoice (invoice : Invoice Metadata)
  | status (status : PaymentStatus)

def maxTbcNanocoins : ℤ := 2^120 - 1

variable (kit : Toolkit Metadata)

def validate (valid : Bool) (message : JsString) : Except SdkError Unit :=
  if valid then .ok () else .error (.validation message)

def cloneMetadata (metadata : Option Metadata) : Except SdkError (Option Metadata) :=
  (cloneOptional kit metadata).mapError fun message =>
    .validation (js "Invalid invoice metadata: " ++ message)

/-- The invoice that `createInvoice` builds. -/
def newInvoice (now : ℤ) (params : CreateInvoiceParams Metadata) :
    Except SdkError (Invoice Metadata) := do
  validate (0 < params.amountTbc) (js "Invoice amount must be positive")
  validate (params.amountTbc ≤ maxTbcNanocoins) (js "Invoice amount exceeds maximum of 2^120 - 1")
  validate (kit.isValidAddress params.merchantNft) (js "Invalid merchant NFT address")
  let metadata ← cloneMetadata kit params.metadata
  let id ← kit.generateInvoiceId params.merchantNft params.amountTbc params.orderId (seconds now)
  return ⟨id,params.merchantNft,params.amountTbc,params.orderId,params.description,metadata,
    seconds now,params.expirationSeconds.map fun lifetime => Doubles.nearest (seconds now + lifetime)⟩

/-- The settlement that `simulateSettlement` records. -/
def simulatedSettlement (now : ℤ) (invoiceId : JsString) (invoice : Invoice Metadata)
    (txHash : Option JsString) : PaymentSettlement where
  invoiceId := invoiceId
  payerNft := kit.mockPayer
  merchantNft := invoice.merchantNft
  amountTbc := invoice.amountTbc
  txHash := txHash.getD (js "mock_tx_" ++ decimal now)
  blockNumber := 1000000
  timestamp := seconds now
  status := PaymentStatus.settled.text

namespace MockStore

def putInvoice (s : MockStore Metadata) (invoice : Invoice Metadata) : MockStore Metadata :=
  { s with invoices := s.invoices.set invoice.id invoice }

def putSettlement (s : MockStore Metadata) (settlement : PaymentSettlement) : MockStore Metadata :=
  { s with settlements := s.settlements.set settlement.invoiceId settlement }

/-- When the stored invoice expires, if there is one and it does. -/
def expiresAt (s : MockStore Metadata) (invoiceId : JsString) : Option ℚ :=
  (s.invoices.get invoiceId).bind Invoice.expiresAt

/-- `MockTonbankcardSDK.getInvoiceStatus` -/
def getInvoiceStatus (s : MockStore Metadata) (now : ℤ) (invoiceId : JsString) : PaymentStatus :=
  if isExpired (s.expiresAt invoiceId) now then .expired
  else statusOf (s.settlements.get invoiceId)

def perform (s : MockStore Metadata) (now : ℤ) :
    MockCall Metadata → MockStore Metadata × Except SdkError (MockReply Metadata)
  | .createInvoice params =>
    match newInvoice kit now params with
    | .error error => (s,.error error)
    | .ok invoice => (s.putInvoice invoice,.ok (.invoice invoice))
  | .registerInvoice invoice => (s.putInvoice invoice,.ok .done)
  | .registerSettlement settlement => (s.putSettlement settlement,.ok .done)
  | .simulateSettlement invoiceId txHash =>
    match s.invoices.get invoiceId with
    | none => (s,.error (.plain (js "Invoice " ++ invoiceId ++ js " not found in mock store")))
    | some invoice => (s.putSettlement (simulatedSettlement kit now invoiceId invoice txHash),.ok .done)
  | .reset => (⟨JsMap.empty,JsMap.empty⟩,.ok .done)
  | .getInvoiceStatus invoiceId => (s,.ok (.status (s.getInvoiceStatus now invoiceId)))

/-- The settlement store reports the invoice as paid. -/
def Reports (s : MockStore Metadata) (invoiceId : JsString) : Prop :=
  ReportsSettled (s.settlements.get invoiceId)

theorem getInvoiceStatus_settled_iff (s : MockStore Metadata) (now : ℤ) (invoiceId : JsString) :
    s.getInvoiceStatus now invoiceId = .settled ↔
      BeforeExpiry (s.expiresAt invoiceId) now ∧ s.Reports invoiceId := by
  rw [getInvoiceStatus,← isExpired_eq_false]
  cases expired : isExpired (s.expiresAt invoiceId) now with
  | true => simp
  | false => simp [statusOf_settled,Reports]

/-- A settlement that is put under an id replaces the one there. -/
theorem reports_putSettlement (s : MockStore Metadata) (settlement : PaymentSettlement)
    (invoiceId : JsString) :
    (s.putSettlement settlement).Reports invoiceId ↔
      if invoiceId = settlement.invoiceId then settlement.status = PaymentStatus.settled.text
      else s.Reports invoiceId := by
  rw [Reports,putSettlement,JsMap.get_set]
  split
  · simp [ReportsSettled]
  · rfl

end MockStore

/-- A call that takes no recorded payment of the invoice back. -/
def Keeps (invoiceId : JsString) : MockCall Metadata → Prop
  | .registerSettlement settlement =>
    settlement.invoiceId = invoiceId → settlement.status = PaymentStatus.settled.text
  | .reset => False
  | _ => True

/-- A call with the clock and the stores it finds. -/
structure Visit (Metadata : Type) where
  now : ℤ
  store : MockStore Metadata
  call : MockCall Metadata

def visits : MockStore Metadata → List (ℤ × MockCall Metadata) → List (Visit Metadata)
  | _, [] => []
  | s, (now,call) :: rest => ⟨now,s,call⟩ :: visits (s.perform kit now call).1 rest

def Visit.reply (v : Visit Metadata) : Except SdkError (MockReply Metadata) :=
  (v.store.perform kit v.now v.call).2

variable {kit}

theorem perform_reports {s : MockStore Metadata} {invoiceId : JsString} {call : MockCall Metadata}
    (keeps : Keeps invoiceId call) (now : ℤ) (reported : s.Reports invoiceId) :
    (s.perform kit now call).1.Reports invoiceId := by
  cases call with
  | createInvoice params =>
    rw [MockStore.perform]
    split <;> exact reported
  | registerInvoice invoice => exact reported
  | registerSettlement settlement =>
    refine (s.reports_putSettlement settlement invoiceId).mpr ?_
    split
    · rename_i same
      exact keeps same.symm
    · exact reported
  | simulateSettlement paid txHash =>
    rw [MockStore.perform]
    split
    · exact reported
    · refine (s.reports_putSettlement _ invoiceId).mpr ?_
      split
      · rfl
      · exact reported
  | reset => exact keeps.elim
  | getInvoiceStatus asked => exact reported

theorem visits_report {s : MockStore Metadata} {invoiceId : JsString}
    {calls : List (ℤ × MockCall Metadata)} (keep : ∀ c ∈ calls, Keeps invoiceId c.2)
    (reported : s.Reports invoiceId) : ∀ v ∈ visits kit s calls, v.store.Reports invoiceId := by
  induction calls generalizing s with
  | nil => exact fun _ member => absurd member List.not_mem_nil
  | cons first rest ih =>
    intro v member
    rcases List.mem_cons.mp member with rfl | behind
    · exact reported
    · exact ih (fun c later => keep c (List.mem_cons_of_mem _ later))
        (perform_reports (keep first List.mem_cons_self) first.1 reported) v behind

/-- While no call takes it back, a payment stays recorded. -/
theorem visits_lasting {invoiceId : JsString} {calls : List (ℤ × MockCall Metadata)}
    (keep : ∀ c ∈ calls, Keeps invoiceId c.2) (s : MockStore Metadata) :
    Lasting (fun v => v.store.Reports invoiceId) (visits kit s calls) := by
  induction calls generalizing s with
  | nil => exact List.Pairwise.nil
  | cons first rest ih =>
    have after : ∀ c ∈ rest, Keeps invoiceId c.2 :=
      fun c later => keep c (List.mem_cons_of_mem _ later)
    refine List.pairwise_cons.mpr ⟨fun v behind reported => ?_,ih after _⟩
    exact visits_report after (perform_reports (keep first List.mem_cons_self) first.1 reported)
      v behind

end Mock

section Finality
variable {Metadata : Type} (kit : Toolkit Metadata) (config : TonbankcardConfig)
  (invoiceId : JsString)

/-- The API reports the invoice as paid. -/
def Moment.Reports (m : Moment Metadata) : Prop :=
  ReportsSettled (getSettlement kit config m.web invoiceId)

/-- `TonbankcardSDK` answers SETTLED. -/
def Moment.Settled (m : Moment Metadata) : Prop :=
  getInvoiceStatus kit config m.web m.now invoiceId = .ok .settled

/-- If it is asked for the status, `MockTonbankcardSDK` answers SETTLED. -/
def Visit.Settled (v : Visit Metadata) : Prop :=
  v.call = .getInvoiceStatus invoiceId → v.reply kit = .ok (.status .settled)

theorem Visit.settled_iff (v : Visit Metadata) (reported : v.store.Reports invoiceId) :
    v.Settled kit invoiceId ↔
      (v.call = .getInvoiceStatus invoiceId → BeforeExpiry (v.store.expiresAt invoiceId) v.now) := by
  refine forall_congr' fun asked => ?_
  have answer : v.reply kit = .ok (.status (v.store.getInvoiceStatus v.now invoiceId)) := by
    rw [Visit.reply,asked,MockStore.perform]
  rw [answer,Except.ok.injEq,MockReply.status.injEq,MockStore.getInvoiceStatus_settled_iff]
  exact and_iff_left reported

/-- Of an invoice reported as paid the status stays SETTLED just until the invoice expires. -/
theorem settled_final_iff :
    (∀ (invoice : Invoice Metadata) (run : List (Moment Metadata)),
      (∀ m ∈ run, getInvoice kit config m.web invoiceId = .ok (some invoice)) →
      Lasting (Moment.Reports kit config invoiceId) run →
      (FinalOnce (Moment.Reports kit config invoiceId) (Moment.Settled kit config invoiceId) run ↔
        ∀ m ∈ run, m.Reports kit config invoiceId → BeforeExpiry invoice.expiresAt m.now)) ∧
    (∀ (s : MockStore Metadata) (calls : List (ℤ × MockCall Metadata)),
      (∀ c ∈ calls, Keeps invoiceId c.2) →
      (FinalOnce (fun v => v.store.Reports invoiceId) (Visit.Settled kit invoiceId)
          (visits kit s calls) ↔
        ∀ v ∈ visits kit s calls, v.store.Reports invoiceId →
          v.call = .getInvoiceStatus invoiceId →
            BeforeExpiry (v.store.expiresAt invoiceId) v.now)) := by
  constructor
  · intro invoice run answered lasting
    rw [finalOnce_iff lasting]
    refine forall₃_congr fun m member reported => ?_
    rw [Moment.Settled,getInvoiceStatus_settled_iff kit (answered m member)]
    exact and_iff_left reported
  · intro s calls keep
    rw [finalOnce_iff (visits_lasting keep s)]
    exact forall₃_congr fun v _ reported => v.settled_iff kit invoiceId reported

end Finality

section Sample

/-- An invoice of 5 nanocoins that expires in second 100. -/
def sampleInvoice : Invoice Unit where
  id := js "inv_1"
  merchantNft := newAddress 0 7
  amountTbc := 5
  orderId := none
  description := none
  metadata := none
  createdAt := 40
  expiresAt := some 100

def sampleKit : Toolkit Unit where
  parse := fun text =>
    match Address.parseFriendly text with
    | some address => .ok address
    | none => .error (js "Unknown address type: " ++ text)
  isValidAddress := fun _ => true
  cloneJsonSerializable := .ok
  generateInvoiceId := fun _ _ _ _ => .ok (js "inv_1")
  mockPayer := newAddress 0 9

def sampleConfig : TonbankcardConfig := ⟨some (js "https://api")⟩

/-- An API that knows the invoice and its payment. -/
def sampleWeb : Web Unit where
  invoice := fun _ => .ok ⟨js "inv_1",(newAddress 0 7).friendly,js "5",none,none,none,40,some 100⟩
  settlement := fun _ => .ok ⟨js "inv_1",(newAddress 0 9).friendly,(newAddress 0 7).friendly,js "5",
    js "tx",7,90,js "settled"⟩

/-- The invoice is paid and its status asked for in the seconds 99 and 100. -/
def sampleCalls : List (ℤ × MockCall Unit) :=
  [(40000,.registerInvoice sampleInvoice),(90000,.simulateSettlement (js "inv_1") none),
    (99000,.getInvoiceStatus (js "inv_1")),(100000,.getInvoiceStatus (js "inv_1"))]

def sampleRun : List (Moment Unit) := [⟨99000,sampleWeb⟩,⟨100000,sampleWeb⟩]

theorem sample_answer : getInvoice sampleKit sampleConfig sampleWeb (js "inv_1") =
    .ok (some sampleInvoice) := by
  decide +kernel

theorem sample_settlement : getSettlement sampleKit sampleConfig sampleWeb (js "inv_1") =
    some ⟨js "inv_1",newAddress 0 9,newAddress 0 7,5,js "tx",7,90,js "settled"⟩ := by
  decide +kernel

theorem sampleRun_answered :
    ∀ m ∈ sampleRun, getInvoice sampleKit sampleConfig m.web (js "inv_1") =
      .ok (some sampleInvoice) := by
  intro m member
  rcases List.mem_pair.mp member with rfl | rfl <;> exact sample_answer

theorem sampleRun_reports :
    ∀ m ∈ sampleRun, m.Reports sampleKit sampleConfig (js "inv_1") := by
  intro m member
  rcases List.mem_pair.mp member with rfl | rfl <;> exact ⟨_,sample_settlement,rfl⟩

theorem sampleRun_lasting :
    Lasting (Moment.Reports sampleKit sampleConfig (js "inv_1")) sampleRun :=
  List.pairwise_pair.mpr fun _ =>
    sampleRun_reports _ (List.mem_cons_of_mem _ List.mem_cons_self)

/-- The stores with the invoice and its payment. -/
def paidStore : MockStore Unit :=
  (MockStore.putInvoice ⟨JsMap.empty,JsMap.empty⟩ sampleInvoice).putSettlement
    (simulatedSettlement sampleKit 90000 (js "inv_1") sampleInvoice none)

theorem paidStore_reports : paidStore.Reports (js "inv_1") :=
  (MockStore.reports_putSettlement _ _ _).mpr rfl

theorem sampleCalls_last : ⟨100000,paidStore,.getInvoiceStatus (js "inv_1")⟩ ∈
    visits sampleKit ⟨JsMap.empty,JsMap.empty⟩ sampleCalls := by
  have found : (MockStore.putInvoice ⟨JsMap.empty,JsMap.empty⟩ sampleInvoice).invoices.get
      (js "inv_1") = some sampleInvoice := (JsMap.get_set _ _ _ _).trans (if_pos rfl)
  simp only [sampleCalls,visits,MockStore.perform,found,List.mem_cons]
  exact .inr (.inr (.inr (.inl rfl)))

theorem sampleCalls_keep : ∀ c ∈ sampleCalls, Keeps (js "inv_1") c.2 := by
  simp [sampleCalls,Keeps]

theorem settled_final_sample :
    (FinalOnce (Moment.Reports sampleKit sampleConfig (js "inv_1"))
        (Moment.Settled sampleKit sampleConfig (js "inv_1")) sampleRun ↔
      ∀ m ∈ sampleRun, m.Reports sampleKit sampleConfig (js "inv_1") →
        BeforeExpiry (some 100) m.now) ∧
    (FinalOnce (fun v => v.store.Reports (js "inv_1")) (Visit.Settled sampleKit (js "inv_1"))
        (visits sampleKit ⟨JsMap.empty,JsMap.empty⟩ sampleCalls) ↔
      ∀ v ∈ visits sampleKit ⟨JsMap.empty,JsMap.empty⟩ sampleCalls, v.store.Reports (js "inv_1") →
        v.call = .getInvoiceStatus (js "inv_1") →
          BeforeExpiry (v.store.expiresAt (js "inv_1")) v.now) :=
  ⟨(settled_final_iff sampleKit sampleConfig (js "inv_1")).1 sampleInvoice sampleRun
      sampleRun_answered sampleRun_lasting,
    (settled_final_iff sampleKit sampleConfig (js "inv_1")).2 _ sampleCalls sampleCalls_keep⟩

/-- Both answer SETTLED in second 99 and EXPIRED in second 100. -/
theorem settled_then_expired :
    (sampleRun.map fun m =>
        (getInvoiceStatus sampleKit sampleConfig m.web m.now (js "inv_1")).toOption) =
      [some .settled,some .expired] ∧
    ((visits sampleKit ⟨JsMap.empty,JsMap.empty⟩ sampleCalls).map fun v =>
        v.store.getInvoiceStatus v.now (js "inv_1")) = [.pending,.pending,.settled,.expired] ∧
    ¬(∀ run : List (Moment Unit), run.Pairwise (fun earlier later => earlier.now ≤ later.now) →
      (∀ m ∈ run, getInvoice sampleKit sampleConfig m.web (js "inv_1") = .ok (some sampleInvoice)) →
      Lasting (Moment.Reports sampleKit sampleConfig (js "inv_1")) run →
      FinalOnce (Moment.Reports sampleKit sampleConfig (js "inv_1"))
        (Moment.Settled sampleKit sampleConfig (js "inv_1")) run) ∧
    ¬(∀ calls : List (ℤ × MockCall Unit), (calls.map Prod.fst).Pairwise (· ≤ ·) →
      (∀ c ∈ calls, Keeps (js "inv_1") c.2) →
      FinalOnce (fun v => v.store.Reports (js "inv_1")) (Visit.Settled sampleKit (js "inv_1"))
        (visits sampleKit ⟨JsMap.empty,JsMap.empty⟩ calls)) := by
  refine ⟨by decide +kernel,by decide +kernel,fun final => ?_,fun final => ?_⟩
  · have settled := final sampleRun (by decide) sampleRun_answered sampleRun_lasting []
      ⟨99000,sampleWeb⟩ [⟨100000,sampleWeb⟩] rfl (sampleRun_reports _ List.mem_cons_self)
      ⟨100000,sampleWeb⟩ (List.mem_cons_of_mem _ List.mem_cons_self)
    rw [Moment.Settled,getInvoiceStatus_settled_iff sampleKit sample_answer] at settled
    exact absurd (settled.1 100 rfl) (by decide)
  · have settled := final sampleCalls (by decide) sampleCalls_keep
    rw [finalOnce_iff (visits_lasting sampleCalls_keep _)] at settled
    have last := settled _ sampleCalls_last paidStore_reports
    rw [Visit.settled_iff _ _ _ paidStore_reports] at last
    exact absurd (last rfl 100 rfl) (by decide)

end Sample

end Tonbankcard.SdkInvoiceStatus
