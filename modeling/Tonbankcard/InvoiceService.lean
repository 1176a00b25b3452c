import Tonbankcard.MerchantApiHashes

/-! The invoice service over its in-memory storage. An operation runs from one await to the
next without interruption; each of these segments ends in one storage operation, in a wait
for another service, or in the result of the call. -/
namespace Tonbankcard.MerchantApi

open EcmaScript

structure IdempotencyRecord where
  invoiceId : JsString
  expiresAt : Int
  deriving DecidableEq

structure Storage where
  invoices : JsMap JsString Invoice
  idempotency : JsMap JsString IdempotencyRecord

structure ProcessSettlementOptions where
  attestation : Option JsString
  currentBlockNumber : Option Int
  indexerSecret : Option JsString

inductive Operation where
  | createInvoice (request : CreateInvoiceRequest) (merchantApiKey : JsString)
  | processSettlementEvent (event : SettlementEvent) (options : ProcessSettlementOptions)
  | getInvoice (invoiceId : JsString)
  | cleanupExpiredInvoices

/-- Why a call is rejected: a validation error, a failure of the key service or of the secret's
resolution, or a `RangeError` of the host. -/
inductive Failure where
  | validation (error : ValidationError)
  | service
  | rangeError
  deriving DecidableEq

inductive SettlementRejectionReason where
  | insufficientConfirmations
  | noMatchingInvoice
  deriving DecidableEq

inductive Outcome where
  | invoice (invoice : Invoice)
  | settled (invoiceId : JsString)
  | unsettled (reason : SettlementRejectionReason)
  | cleaned (invoicesCleaned idempotencyKeysCleaned : Nat)
  | rejected (failure : Failure)
  deriving DecidableEq

/-- Where a call awaits, with the locals that the rest of it still reads. The first eleven are
those of `createInvoice`, then come `getInvoice`, settlement and cleanup. -/
inductive Await where
  | authorizing (request : CreateInvoiceRequest)
  | identifying (request : CreateInvoiceRequest)
  | lookedUp (request : CreateInvoiceRequest) (key : JsString)
      (existingEntry : Option IdempotencyRecord)
  | fetched (request : CreateInvoiceRequest) (key : JsString)
      (existingEntry : IdempotencyRecord) (existingInvoice : Option Invoice)
  | keyDropped (request : CreateInvoiceRequest) (key : JsString)
      (existingEntry : IdempotencyRecord)
  | invoiceDropped (request : CreateInvoiceRequest) (key : JsString)
  | stored (request : CreateInvoiceRequest) (key : JsString) (invoice : Invoice)
  | published (request : CreateInvoiceRequest) (key : JsString) (invoice : Invoice)
      (existingRecord : Option IdempotencyRecord)
  | withdrawn (request : CreateInvoiceRequest) (key : JsString)
      (existingRecord : IdempotencyRecord)
  | refetched (request : CreateInvoiceRequest) (key : JsString)
      (existingRecord : IdempotencyRecord) (existingInvoice : Option Invoice)
  | keyCleared (request : CreateInvoiceRequest) (existingRecord : IdempotencyRecord)
      (existingInvoice : Option Invoice)
  | cleared (request : CreateInvoiceRequest)
  | loaded (invoiceId : JsString) (invoice : Option Invoice)
  | lapsed (invoiceId : JsString) (invoice : Invoice) (updated : Option Invoice)
  | reloaded (invoice : Invoice) (current : Option Invoice)
  | scanning (confirmations : Int) (rest : List (JsString × Invoice))
  | matched (confirmations : Int) (invoiceId : JsString) (rest : List (JsString × Invoice))
      (updated : Option Invoice)
  | sweeping (now : Int) (invoicesCleaned : Nat) (rest : List (JsString × Invoice))
  | sweepLapsed (now : Int) (invoicesCleaned : Nat) (rest : List (JsString × Invoice))
      (invoiceId : JsString) (invoice : Invoice) (updated : Option Invoice)
  | sweepReloaded (now : Int) (invoicesCleaned : Nat) (rest : List (JsString × Invoice))
      (invoiceId : JsString) (invoice : Invoice) (current : Option Invoice)
  | sweepingKeys (invoicesCleaned idempotencyKeysCleaned : Nat)
  | keyChecked (invoicesCleaned idempotencyKeysCleaned : Nat) (key : JsString)
      (invoice : Option Invoice)
  | done (outcome : Outcome)

/-- How a segment ends. Every transition is from pending. -/
inductive Command where
  | wait (next : Await)
  | get (invoiceId : JsString) (next : Option Invoice → Await)
  | set (invoice : Invoice) (next : Await)
  | transition (invoiceId : JsString) (target : InvoiceStatus) (settlement : Option Settlement)
      (next : Option Invoice → Await)
  | delete (invoiceId : JsString) (next : Await)
  | entries (next : List (JsString × Invoice) → Await)
  | lookup (key : JsString) (next : Option IdempotencyRecord → Await)
  | setIfAbsent (key : JsString) (record : IdempotencyRecord)
      (next : Option IdempotencyRecord → Await)
  | drop (key : JsString) (next : Await)

def finish (outcome : Outcome) : Command := .wait (.done outcome)

def reject (code : ErrorCode) (message : String) : Command :=
  finish (.rejected (.validation ⟨code,message⟩))

/-- What a segment takes from outside: its readings of the clock and the one of the storage
operation, the answers of the key service, none where it throws, the random invoice id and
the key the iterator of the idempotency map shows next. -/
structure Inputs where
  reads : Nat → Int
  storageNow : Int
  authorized : Option Bool
  keyId : Option (Option JsString)
  invoiceId : JsString
  nextKey : Option JsString

section CreateInvoice
variable (host : Host)

def beginCreateInvoice (request : CreateInvoiceRequest) (inputs : Inputs) : Command :=
  match validateCreateInvoiceRequest request (inputs.reads 0) with
  | .error error => finish (.rejected (.validation error))
  | .ok () => .wait (.authorizing request)

/-- A request whose expiry has passed by now is changed, but not the expiry of the invoice. -/
def requestAfter (request : CreateInvoiceRequest) (expiresAt : DateString) (inputs : Inputs) :
    CreateInvoiceRequest :=
  match validateExpirationTime expiresAt (inputs.reads 2) with
  | .ok () => request
  | .error _ => {request with expiresAt := some (generateDefaultExpiry host (inputs.reads 3))}

def candidate (request : CreateInvoiceRequest) (inputs : Inputs) : Invoice :=
  { invoiceId := inputs.invoiceId
    merchantNft := request.merchantNft
    amountTbc := request.amountTbc
    currency := js "TBC"
    metadata := sanitizeMetadata request.metadata
    status := .pending
    createdAt := getCurrentTimestamp host (inputs.reads 0)
    expiresAt := request.expiresAt.getD (generateDefaultExpiry host (inputs.reads 1))
    paymentUrl := generatePaymentUrl inputs.invoiceId
    settlement := none }

def generateInvoice (request : CreateInvoiceRequest) (key : JsString) (inputs : Inputs) :
    Command :=
  let invoice := candidate host request inputs
  .set invoice (.stored (requestAfter host request invoice.expiresAt inputs) key invoice)

def publication (invoice : Invoice) (inputs : Inputs) : IdempotencyRecord :=
  ⟨invoice.invoiceId,max invoice.expiresAt.time (inputs.reads 0 + idempotencyTtlMs)⟩

def resumeCreateInvoice (await : Await) (inputs : Inputs) : Command :=
  match await with
  | .authorizing request =>
    match inputs.authorized with
    | none => finish (.rejected .service)
    | some false =>
      reject .unauthorizedMerchant "API key not authorized for this merchant NFT"
    | some true => .wait (.identifying request)
  | .identifying request =>
    match inputs.keyId with
    | none => finish (.rejected .service)
    | some keyId =>
      let key := generateIdempotencyKey host request keyId
      .lookup key (.lookedUp request key)
  | .lookedUp request key none => generateInvoice host request key inputs
  | .lookedUp request key (some existingEntry) =>
    .get existingEntry.invoiceId (.fetched request key existingEntry)
  | .fetched request key _ none => generateInvoice host request key inputs
  | .fetched request key existingEntry (some existingInvoice) =>
    if isExpired existingInvoice.expiresAt (inputs.reads 0) then
      .drop key (.keyDropped request key existingEntry)
    else finish (.invoice existingInvoice)
  | .keyDropped request key existingEntry =>
    .delete existingEntry.invoiceId (.invoiceDropped request key)
  | .invoiceDropped request key => generateInvoice host request key inputs
  | .stored request key invoice =>
    .setIfAbsent key (publication invoice inputs) (.published request key invoice)
  | .published _ _ invoice none => finish (.invoice invoice)
  | .published request key invoice (some existingRecord) =>
    .delete invoice.invoiceId (.withdrawn request key existingRecord)
  | .withdrawn request key existingRecord =>
    .get existingRecord.invoiceId (.refetched request key existingRecord)
  | .refetched request key existingRecord (some existingInvoice) =>
    if isExpired existingInvoice.expiresAt (inputs.reads 0) then
      .drop key (.keyCleared request existingRecord (some existingInvoice))
    else finish (.invoice existingInvoice)
  | .refetched request key existingRecord none =>
    .drop key (.keyCleared request existingRecord none)
  | .keyCleared request existingRecord (some _) =>
    .delete existingRecord.invoiceId (.cleared request)
  | .keyCleared request _ none => beginCreateInvoice request inputs
  | .cleared request => beginCreateInvoice request inputs
  | other => .wait other

end CreateInvoice

section Settlement
variable (host : Host) (event : SettlementEvent) (confirmations : Int)

def settlementOf (timestamp : DateString) : Settlement :=
  { payerNft := event.payerNft
    merchantNft := event.merchantNft
    amountTbc := event.amountTbc
    blockNumber := event.blockNumber
    txHash := event.txHash
    timestamp
    payloadHash := event.payloadHash
    onChainVerified := true
    verificationUrl := generateExplorerUrl event.txHash
    confirmations
    isFinal := true }

/-- Whether a pending invoice is the one an event pays. -/
def matchesEvent (invoice : Invoice) : Bool :=
  invoice.status = .pending && invoice.merchantNft = event.merchantNft &&
    invoice.amountTbc = event.amountTbc &&
    hashMetadata host invoice.metadata invoice.invoiceId = event.payloadHash

def scan : List (JsString × Invoice) → Command
  | [] => finish (.unsettled .noMatchingInvoice)
  | (_,invoice) :: rest =>
    if matchesEvent host event invoice then
      match toISOString host (event.timestamp * 1000) with
      | none => finish (.rejected .rangeError)
      | some timestamp =>
        .transition invoice.invoiceId .settled
          (some (settlementOf event confirmations timestamp))
          (.matched confirmations invoice.invoiceId rest)
    else scan rest

def beginSettlement (configured : Option JsString) (options : ProcessSettlementOptions) :
    Command :=
  match options.indexerSecret.or configured with
  | none => finish (.rejected .service)
  | some indexerSecret =>
    match verifySettlementAttestation host indexerSecret event options.attestation with
    | none => finish (.rejected .rangeError)
    | some false =>
      reject .untrustedSettlementSource "Settlement event is not attested by the trusted indexer"
    | some true =>
      match options.currentBlockNumber with
      | none => finish (.unsettled .insufficientConfirmations)
      | some currentBlockNumber =>
        let confirmations := currentBlockNumber - event.blockNumber
        if confirmations ≥ minConfirmations then .entries (.scanning confirmations)
        else finish (.unsettled .insufficientConfirmations)

def resumeSettlement (await : Await) : Command :=
  match await with
  | .scanning confirmations rest => scan host event confirmations rest
  | .matched _ invoiceId _ (some _) => finish (.settled invoiceId)
  | .matched confirmations _ rest none => scan host event confirmations rest
  | other => .wait other

end Settlement

section GetInvoice

def beginGetInvoice (invoiceId : JsString) : Command :=
  match validateInvoiceId invoiceId with
  | .error error => finish (.rejected (.validation error))
  | .ok () => .get invoiceId (.loaded invoiceId)

def hasLapsed (invoice : Invoice) (now : Int) : Bool :=
  isExpired invoice.expiresAt now && invoice.status = .pending

def resumeGetInvoice (await : Await) (inputs : Inputs) : Command :=
  match await with
  | .loaded _ none => reject .invoiceNotFound "Invoice not found"
  | .loaded invoiceId (some invoice) =>
    if hasLapsed invoice (inputs.reads 0) then
      .transition invoiceId .expired none (.lapsed invoiceId invoice)
    else finish (.invoice invoice)
  | .lapsed _ _ (some updated) => finish (.invoice updated)
  | .lapsed invoiceId invoice none => .get invoiceId (.reloaded invoice)
  | .reloaded invoice current => finish (.invoice (current.getD invoice))
  | other => .wait other

end GetInvoice

section Cleanup

def weekMs : Int := 7 * 24 * 60 * 60 * 1000

/-- Whether an invoice has been expired for more than seven days. -/
def isRemovable (invoice : Invoice) (now : Int) : Bool :=
  invoice.status = .expired && weekMs < now - invoice.expiresAt.time

def sweep (inputs : Inputs) (now : Int) (cleaned : Nat) :
    Nat → List (JsString × Invoice) → Command
  | _, [] => .wait (.sweepingKeys cleaned 0)
  | read, (invoiceId,invoice) :: rest =>
    if hasLapsed invoice (inputs.reads read) then
      .transition invoiceId .expired none (.sweepLapsed now cleaned rest invoiceId invoice)
    else if isRemovable invoice now then .delete invoiceId (.sweeping now (cleaned + 1) rest)
    else sweep inputs now cleaned (read + 1) rest

def sweepOn (inputs : Inputs) (now : Int) (cleaned : Nat) (rest : List (JsString × Invoice))
    (invoiceId : JsString) (invoice : Invoice) : Command :=
  if isRemovable invoice now then .delete invoiceId (.sweeping now (cleaned + 1) rest)
  else sweep inputs now cleaned 0 rest

/-- The iterator over the idempotency map is a live one: it shows what the map holds by then. -/
def sweepKeys (idempotency : JsMap JsString IdempotencyRecord) (inputs : Inputs)
    (cleaned keysCleaned : Nat) : Command :=
  match inputs.nextKey with
  | none => finish (.cleaned cleaned keysCleaned)
  | some key =>
    match idempotency.get key with
    | none => finish (.cleaned cleaned keysCleaned)
    | some record => .get record.invoiceId (.keyChecked cleaned keysCleaned key)

def resumeCleanup (idempotency : JsMap JsString IdempotencyRecord) (await : Await)
    (inputs : Inputs) : Command :=
  match await with
  | .sweeping now cleaned rest => sweep inputs now cleaned 0 rest
  | .sweepLapsed now cleaned rest invoiceId _ (some updated) =>
    sweepOn inputs now cleaned rest invoiceId updated
  | .sweepLapsed now cleaned rest invoiceId invoice none =>
    .get invoiceId (.sweepReloaded now cleaned rest invoiceId invoice)
  | .sweepReloaded now cleaned rest invoiceId invoice current =>
    sweepOn inputs now cleaned rest invoiceId (current.getD invoice)
  | .sweepingKeys cleaned keysCleaned => sweepKeys idempotency inputs cleaned keysCleaned
  | .keyChecked cleaned keysCleaned key none =>
    .drop key (.sweepingKeys cleaned (keysCleaned + 1))
  | .keyChecked cleaned keysCleaned _ (some _) =>
    sweepKeys idempotency inputs cleaned keysCleaned
  | other => .wait other

end Cleanup

section Storage

/-- The compare-and-set of the store; an invoice does not expire before its time. -/
def Storage.transition (s : Storage) (invoiceId : JsString) (target : InvoiceStatus)
    (settlement : Option Settlement) (now : Int) : Storage × Option Invoice :=
  match s.invoices.get invoiceId with
  | none => (s,none)
  | some current =>
    if current.status ≠ .pending then (s,none)
    else if target = .expired ∧ now < current.expiresAt.time then (s,none)
    else
      let next := {current with status := target,settlement := settlement.or current.settlement}
      ({s with invoices := s.invoices.set invoiceId next},some next)

/-- A record whose time is over is dropped when it is looked up. -/
def Storage.lookup (s : Storage) (key : JsString) (now : Int) :
    Storage × Option IdempotencyRecord :=
  match s.idempotency.get key with
  | none => (s,none)
  | some record =>
    if record.expiresAt < now then ({s with idempotency := s.idempotency.delete key},none)
    else (s,some record)

def Storage.setIfAbsent (s : Storage) (key : JsString) (record : IdempotencyRecord) (now : Int) :
    Storage × Option IdempotencyRecord :=
  match s.idempotency.get key with
  | none => ({s with idempotency := s.idempotency.set key record},none)
  | some existing =>
    if existing.expiresAt ≥ now then (s,some existing)
    else ({s with idempotency := (s.idempotency.delete key).set key record},none)

def Command.perform (command : Command) (now : Int) (s : Storage) : Storage × Await :=
  match command with
  | .wait next => (s,next)
  | .get invoiceId next => (s,next (s.invoices.get invoiceId))
  | .set invoice next => ({s with invoices := s.invoices.set invoice.invoiceId invoice},next)
  | .transition invoiceId target settlement next =>
    (s.transition invoiceId target settlement now).map id next
  | .delete invoiceId next => ({s with invoices := s.invoices.delete invoiceId},next)
  | .entries next => (s,next s.invoices.entries)
  | .lookup key next => (s.lookup key now).map id next
  | .setIfAbsent key record next => (s.setIfAbsent key record now).map id next
  | .drop key next => ({s with idempotency := s.idempotency.delete key},next)

end Storage

structure Call where
  operation : Operation
  await : Await

/-- The storage with the calls made so far, in the order of their start. -/
structure World where
  storage : Storage
  calls : List Call

inductive Event where
  | start (operation : Operation) (inputs : Inputs)
  | resume (index : Nat) (inputs : Inputs)

def Event.inputs : Event → Inputs
  | .start _ inputs | .resume _ inputs => inputs

section Run
variable (host : Host) (configured : Option JsString)

def Operation.begin (operation : Operation) (inputs : Inputs) : Command :=
  match operation with
  | .createInvoice request _ => beginCreateInvoice request inputs
  | .processSettlementEvent event options => beginSettlement host event configured options
  | .getInvoice invoiceId => beginGetInvoice invoiceId
  | .cleanupExpiredInvoices => .entries (.sweeping (inputs.reads 0) 0)

def Call.resume (call : Call) (idempotency : JsMap JsString IdempotencyRecord)
    (inputs : Inputs) : Command :=
  match call.operation with
  | .createInvoice .. => resumeCreateInvoice host call.await inputs
  | .processSettlementEvent event _ => resumeSettlement host event call.await
  | .getInvoice _ => resumeGetInvoice call.await inputs
  | .cleanupExpiredInvoices => resumeCleanup idempotency call.await inputs

/-- The segment an event runs, with the operation it belongs to. -/
def World.segment (w : World) : Event → Option (Operation × Command)
  | .start operation inputs => some (operation,operation.begin host configured inputs)
  | .resume index inputs =>
    w.calls[index]?.map fun call => (call.operation,call.resume host w.storage.idempotency inputs)

def World.next (w : World) (event : Event) : World :=
  match w.segment host configured event with
  | none => w
  | some (operation,command) =>
    let (storage,await) := command.perform event.inputs.storageNow w.storage
    match event with
    | .start .. => ⟨storage,w.calls ++ [⟨operation,await⟩]⟩
    | .resume index _ => ⟨storage,w.calls.set index ⟨operation,await⟩⟩

/-- The world after any events, newest first, from an empty storage on. -/
def world : List Event → World
  | [] => ⟨⟨JsMap.empty,JsMap.empty⟩,[]⟩
  | event :: past => (world past).next host configured event

end Run
end Tonbankcard.MerchantApi
