import Tonbankcard.AccountLocksReplication
import Tonbankcard.InvoiceServicePermanence

/-! An invoice on its way through a payment: the body of the wallet link, the payment that the
hub emits for it, and what the indexer's parser reads of that. The parser knows the payment under
another op code, and in the fields behind it the payload hash is a prefixed cell hash, which is
never the digest that a settlement requires. -/
namespace Tonbankcard.InvoicePayment

open Ton EcmaScript MerchantApi

section Addresses

/-- A standard address behind its four forms. -/
def loadAddress (s : Slice) : Result (Address × Slice) := do
  let (bits,s) ← s.loadMsgAddr
  match AccountLocks.stdAddress bits with
  | none => .error (.exit 136)
  | some address => pure (address,s)

theorem loadAddress_bits (address : Address) (rest : List Bool) (refs : List Cell) :
    loadAddress ⟨address.bits ++ rest,refs⟩ = .ok (address,⟨rest,refs⟩) := by
  rw [loadAddress,Slice.loadMsgAddr_std,ok_bind]
  simp only [AccountLocks.stdAddress_bits]
  rfl

end Addresses

section WalletLink

/-- An amount as coins, which a negative one has no encoding as. -/
def storeAmount (amountTbc : Int) (b : Builder) : Result Builder := do
  let amountTbc ← fitUint 120 amountTbc
  b.storeCoins amountTbc.toNat

theorem storeAmount_ok {b stored : Builder} (saved : storeAmount amountTbc b = .ok stored) :
    stored = ⟨b.bits ++ Builder.coinsBits amountTbc.toNat,b.refs⟩ ∧
      0 ≤ amountTbc ∧ amountTbc.toNat < 2^120 := by
  obtain ⟨_,fits,stores⟩ := bind_ok.mp saved
  obtain ⟨rfl,natural,-⟩ := fitUint_ok.mp fits
  obtain ⟨rfl,small,-⟩ := Builder.storeCoins_ok.mp stores
  exact ⟨rfl,natural,small⟩

def merchantPaymentRequestOp : Nat := 112790503
def invoiceIdPayloadType : Nat := 2

/-- An invoice of the SDK, as far as its payment reads it. -/
structure LinkInvoice where
  id : JsString
  merchantNft : Address
  amountTbc : Int

variable (storeStringTail : JsString → Builder → Result Builder)

def buildDefaultInvoicePayload (invoice : LinkInvoice) : Result Cell := do
  let b ← beginCell.storeUint invoiceIdPayloadType 8
  let b ← storeStringTail invoice.id b
  pure b.endCell

def buildMerchantPaymentRequestBody (invoice : LinkInvoice) (payerNft : Address) :
    Result Cell := do
  let b ← beginCell.storeUint merchantPaymentRequestOp 32
  let b ← b.storeBits payerNft.bits
  let b ← b.storeBits invoice.merchantNft.bits
  let b ← storeAmount invoice.amountTbc b
  let payload ← buildDefaultInvoicePayload storeStringTail invoice
  let b ← b.storeDict (some payload)
  pure b.endCell

/-- The body that a wallet link carries for its transfer. -/
def walletLinkBody (invoice : LinkInvoice) (payerNft : Address) (nativeAmountNanoTon : Int) :
    Result Cell := do
  require (0 < invoice.amountTbc) "Invalid invoice amount"
  require (0 < nativeAmountNanoTon) "Native TON amount must be a positive bigint"
  buildMerchantPaymentRequestBody storeStringTail invoice payerNft

variable {storeStringTail : JsString → Builder → Result Builder}

theorem walletLinkBody_ok
    (linked : walletLinkBody storeStringTail invoice payerNft nativeAmountNanoTon = .ok body) :
    ∃ payload, buildDefaultInvoicePayload storeStringTail invoice = .ok payload ∧
      (0 < invoice.amountTbc ∧ invoice.amountTbc.toNat < 2^120) ∧
      body = .ordinary (uintBits 32 merchantPaymentRequestOp ++ (payerNft.bits ++
        (invoice.merchantNft.bits ++ (Builder.coinsBits invoice.amountTbc.toNat ++ [true]))))
        [payload] := by
  simp only [walletLinkBody,require_bind_ok,buildMerchantPaymentRequestBody] at linked
  obtain ⟨positive,-,linked⟩ := linked
  obtain ⟨_,stored,linked⟩ := bind_ok.mp linked
  obtain ⟨rfl,-⟩ := Builder.storeUint_ok.mp stored
  obtain ⟨_,stored,linked⟩ := bind_ok.mp linked
  obtain ⟨rfl,-⟩ := Builder.storeBits_ok.mp stored
  obtain ⟨_,stored,linked⟩ := bind_ok.mp linked
  obtain ⟨rfl,-⟩ := Builder.storeBits_ok.mp stored
  obtain ⟨_,stored,linked⟩ := bind_ok.mp linked
  obtain ⟨rfl,-,small⟩ := storeAmount_ok stored
  obtain ⟨payload,built,linked⟩ := bind_ok.mp linked
  obtain ⟨_,stored,linked⟩ := bind_ok.mp linked
  obtain ⟨rfl,-⟩ := Builder.storeDict_ok.mp stored
  obtain rfl := pure_ok.mp linked
  exact ⟨payload,built,⟨positive,small⟩,by simp [Builder.endCell,beginCell,uintBits]⟩

end WalletLink

section Hub

/-- The hub's reading of a body, with the addresses that its compiler admits. -/
def loadMerchantPaymentRequest (supported : Address → Bool) (body : Slice) :
    Result MerchantPaymentHub.Message := do
  let (op,s) ← body.loadUint 32
  throwUnless 130 (op = merchantPaymentRequestOp)
  let (payerNft,s) ← loadAddress s
  throwUnless 136 (supported payerNft = true)
  let (merchantNft,s) ← loadAddress s
  throwUnless 136 (supported merchantNft = true)
  let (amountTbc,s) ← s.loadCoins
  let (payload,_) ← s.loadDict
  pure (.merchantPaymentRequest payerNft merchantNft amountTbc payload)

def hubReceives (hash : Cell → Int) (supported : Address → Bool) (env : Context) (body : Cell)
    (self : MerchantPaymentHub.State) :
    Result (MerchantPaymentHub.State × List (Action MerchantPaymentHub.Body)) := do
  let message ← loadMerchantPaymentRequest supported body.beginParse
  MerchantPaymentHub.receive hash env message self

/-- The hub reads from a link's body what the link was made from, when it admits both addresses. -/
theorem loadMerchantPaymentRequest_link {storeStringTail : JsString → Builder → Result Builder}
    (linked : walletLinkBody storeStringTail invoice payerNft nativeAmountNanoTon = .ok body) :
    ∃ payload, buildDefaultInvoicePayload storeStringTail invoice = .ok payload ∧
      ∀ supported, loadMerchantPaymentRequest supported body.beginParse = (do
        throwUnless 136 (supported payerNft = true)
        throwUnless 136 (supported invoice.merchantNft = true)
        pure (.merchantPaymentRequest payerNft invoice.merchantNft invoice.amountTbc
          (some payload))) := by
  obtain ⟨payload,built,⟨positive,small⟩,rfl⟩ := walletLinkBody_ok linked
  refine ⟨payload,built,fun supported => ?_⟩
  have marked : Slice.loadDict ⟨[true],[payload]⟩ = .ok (some payload,⟨[],[]⟩) := rfl
  have amount : (invoice.amountTbc.toNat : Int) = invoice.amountTbc :=
    Int.toNat_of_nonneg positive.le
  simp only [loadMerchantPaymentRequest,Cell.beginParse,
    Slice.loadUint_append 32 merchantPaymentRequestOp _ _ (by decide),ok_bind,
    loadAddress_bits,loadCoins_append _ _ _ small,marked,amount]
  rfl

/-- The event declares no op code. Its compiler takes the first 32 bits of the SHA-256 digest of
`MerchantPayment` with the names and types of its fields. -/
def merchantPaymentOp : Nat := 0x8ec1d812

/-- The fields of a payment event behind an op code. -/
def paymentCell (op : Nat) (payerNft merchantNft : Address) (amountTbc payloadHash : Int)
    (timestamp : Nat) : Result Cell := do
  let b ← beginCell.storeUint op 32
  let b ← b.storeBits payerNft.bits
  let b ← b.storeBits merchantNft.bits
  let b ← storeAmount amountTbc b
  let b ← b.storeInt payloadHash 257
  let b ← b.storeUint timestamp 32
  pure b.endCell

/-- The cell of the emitted event. -/
def merchantPaymentCell (payerNft merchantNft : Address) (amountTbc payloadHash : Int)
    (timestamp : Nat) : Result Cell :=
  paymentCell merchantPaymentOp payerNft merchantNft amountTbc payloadHash timestamp

theorem paymentCell_op
    (built : paymentCell op payerNft merchantNft amountTbc payloadHash timestamp = .ok cell) :
    ∃ rest, cell = .ordinary (uintBits 32 op ++ rest) [] := by
  obtain ⟨_,stored,built⟩ := bind_ok.mp built
  obtain ⟨rfl,-⟩ := Builder.storeUint_ok.mp stored
  obtain ⟨_,stored,built⟩ := bind_ok.mp built
  obtain ⟨rfl,-⟩ := Builder.storeBits_ok.mp stored
  obtain ⟨_,stored,built⟩ := bind_ok.mp built
  obtain ⟨rfl,-⟩ := Builder.storeBits_ok.mp stored
  obtain ⟨_,stored,built⟩ := bind_ok.mp built
  obtain ⟨rfl,-⟩ := storeAmount_ok stored
  obtain ⟨_,stored,built⟩ := bind_ok.mp built
  obtain ⟨rfl,-⟩ := storeInt_ok.mp stored
  obtain ⟨_,stored,built⟩ := bind_ok.mp built
  obtain ⟨rfl,-⟩ := Builder.storeUint_ok.mp stored
  obtain rfl := pure_ok.mp built
  simp only [Builder.endCell,beginCell,List.nil_append,List.append_assoc]
  exact ⟨_,rfl⟩

theorem coinsBits_length_le (small : value < 2^120) : (Builder.coinsBits value).length ≤ 124 := by
  have short := (Builder.coins_short value).mpr small
  simp only [Builder.coinsBits,List.length_append,uintBits_length]
  omega

/-- An event whose fields are in range fits into its cell. -/
theorem paymentCell_ok (narrow : op < 2^32) (natural : 0 ≤ amountTbc)
    (small : amountTbc.toNat < 2^120) (hashed : 0 ≤ payloadHash ∧ payloadHash < 2^256)
    (dated : timestamp < 2^32) :
    paymentCell op payerNft merchantNft amountTbc payloadHash timestamp =
      .ok (.ordinary (uintBits 32 op ++ (payerNft.bits ++ (merchantNft.bits ++
        (Builder.coinsBits amountTbc.toNat ++ (uintBits 257 (payloadHash % 2^257).toNat ++
          uintBits 32 timestamp))))) []) := by
  have coins := coinsBits_length_le small
  have amount : storeAmount amountTbc ⟨uintBits 32 op ++ payerNft.bits ++
      merchantNft.bits,[]⟩ = .ok ⟨uintBits 32 op ++ payerNft.bits ++
        merchantNft.bits ++ Builder.coinsBits amountTbc.toNat,[]⟩ := by
    refine bind_ok.mpr ⟨_,fitUint_ok.mpr ⟨rfl,natural,?_⟩,Builder.storeCoins_ok.mpr
      ⟨rfl,small,?_⟩⟩
    · omega
    · simp only [List.length_append,uintBits_length,Address.bits_length,maxBits]
      omega
  refine bind_ok.mpr ⟨_,Builder.storeUint_ok.mpr ⟨rfl,by omega,by decide⟩,?_⟩
  refine bind_ok.mpr ⟨_,Builder.storeBits_ok.mpr ⟨rfl,by simp [beginCell,maxBits]⟩,?_⟩
  refine bind_ok.mpr ⟨_,Builder.storeBits_ok.mpr ⟨rfl,by simp [beginCell,maxBits]⟩,?_⟩
  refine bind_ok.mpr ⟨_,amount,?_⟩
  refine bind_ok.mpr ⟨_,storeInt_ok.mpr ⟨rfl,by omega,?_⟩,?_⟩
  · simp only [List.length_append,uintBits_length,Address.bits_length,maxBits]
    omega
  refine bind_ok.mpr ⟨_,Builder.storeUint_ok.mpr ⟨rfl,by omega,?_⟩,?_⟩
  · simp only [List.length_append,uintBits_length,Address.bits_length,maxBits]
    omega
  · simp only [Builder.endCell,List.append_assoc,Int.toNat_natCast]
    rfl

end Hub

section Indexer

structure MerchantPaymentEvent where
  blockNumber : Nat
  transactionHash : JsString
  logIndex : Nat
  timestamp : Nat
  payerNft : JsString
  merchantNft : JsString
  amountTbc : Nat
  payloadHash : JsString

def hexDigits (n : Nat) : JsString := (Nat.toDigits 16 n).map digitUnit

def padStart (width : Nat) (unit : UInt16) (s : JsString) : JsString :=
  List.replicate (width - s.length) unit ++ s

def formatPayloadHash (payloadHashInt : Int) : JsString :=
  if payloadHashInt ≥ 0 then js "0x" ++ padStart 64 48 (hexDigits payloadHashInt.toNat)
  else js "-0x" ++ padStart 64 48 (hexDigits (-payloadHashInt).toNat)

/-- The op code that the parser expects of a payment: the CRC32 of the event's name. -/
def MERCHANT_PAYMENT : Nat := 0x3b4c2365

theorem merchantPaymentOp_ne : merchantPaymentOp ≠ MERCHANT_PAYMENT := by
  unfold merchantPaymentOp MERCHANT_PAYMENT
  omega

variable (addressText : Address → JsString)

/-- `none` where the parser returns null. -/
def decodeMerchantPaymentEvent (slice : Slice) (blockNumber : Nat) (txHash : JsString)
    (logIndex timestamp : Nat) : Option MerchantPaymentEvent :=
  Except.toOption do
    let (payerNft,s) ← loadAddress slice
    let (merchantNft,s) ← loadAddress s
    let (amountTbc,s) ← s.loadCoins
    let (payloadHashInt,_) ← s.loadInt 257
    pure
      { blockNumber
        transactionHash := txHash
        logIndex
        timestamp
        payerNft := addressText payerNft
        merchantNft := addressText merchantNft
        amountTbc
        payloadHash := formatPayloadHash payloadHashInt }

/-- The merchant payment in the body of an emitted message. -/
def parseOutMessage (body : Cell) (blockNumber : Nat) (txHash : JsString)
    (logIndex timestamp : Nat) : Option MerchantPaymentEvent := do
  let (op,slice) ← (body.beginParse.loadUint 32).toOption
  if op = MERCHANT_PAYMENT then
    decodeMerchantPaymentEvent addressText slice blockNumber txHash logIndex timestamp
  else none

/-- The body of an emitted payment. -/
def paymentBody : MerchantPaymentHub.Body → Option Cell
  | .merchantPayment payerNft merchantNft amountTbc payloadHash timestamp =>
    (merchantPaymentCell payerNft merchantNft amountTbc payloadHash timestamp).toOption
  | _ => none

/-- What the indexer makes of an emitted payment. -/
def indexed (emitted : MerchantPaymentHub.Body) (blockNumber : Nat) (txHash : JsString)
    (logIndex timestamp : Nat) : Option MerchantPaymentEvent := do
  let body ← paymentBody emitted
  parseOutMessage addressText body blockNumber txHash logIndex timestamp

/-- What the parser's decoder makes of the fields of an emitted payment, whatever their op code. -/
def decodedFields (emitted : MerchantPaymentHub.Body) (blockNumber : Nat) (txHash : JsString)
    (logIndex timestamp : Nat) : Option MerchantPaymentEvent := do
  let body ← paymentBody emitted
  let (_,slice) ← (body.beginParse.loadUint 32).toOption
  decodeMerchantPaymentEvent addressText slice blockNumber txHash logIndex timestamp

variable {addressText : Address → JsString}

theorem ok_of_toOption {result : Result α} (given : result.toOption = some value) :
    result = .ok value := by
  cases result with
  | error reason => simp [Except.toOption] at given
  | ok other => simpa [Except.toOption] using given

/-- The parser takes no emitted payment for one. -/
theorem indexed_none (emitted : MerchantPaymentHub.Body) :
    indexed addressText emitted blockNumber txHash logIndex timestamp = none := by
  apply Option.eq_none_iff_forall_ne_some.mpr
  intro seen decoded
  obtain ⟨body,sent,parsed⟩ := Option.bind_eq_some_iff.mp decoded
  cases emitted with
  | merchantPayment =>
    simp only [paymentBody,merchantPaymentCell] at sent
    obtain ⟨rest,rfl⟩ := paymentCell_op (ok_of_toOption sent)
    simp only [parseOutMessage,Cell.beginParse,
      Slice.loadUint_append 32 merchantPaymentOp _ _ (by decide),Except.toOption,
      Option.bind_eq_bind,Option.bind_some] at parsed
    obtain ⟨same,-⟩ := Option.ite_none_right_eq_some.mp parsed
    exact absurd same merchantPaymentOp_ne
  | _ => contradiction

theorem decodedFields_inRange (natural : 0 ≤ amountTbc) (small : amountTbc.toNat < 2^120)
    (hashed : 0 ≤ payloadHash ∧ payloadHash < 2^256) (dated : sentAt < 2^32) :
    decodedFields addressText
      (.merchantPayment payerNft merchantNft amountTbc payloadHash sentAt) blockNumber txHash
      logIndex timestamp = some
        { blockNumber
          transactionHash := txHash
          logIndex
          timestamp
          payerNft := addressText payerNft
          merchantNft := addressText merchantNft
          amountTbc := amountTbc.toNat
          payloadHash := formatPayloadHash payloadHash } := by
  have payload (rest : List Bool) := loadInt_append rest [] hashed.1 hashed.2
  simp only [decodedFields,paymentBody,merchantPaymentCell,
    paymentCell_ok (show merchantPaymentOp < 2^32 by decide) natural small hashed dated,
    Except.toOption,Option.bind_eq_bind,Option.bind_some,Cell.beginParse,
    Slice.loadUint_append 32 merchantPaymentOp _ _ (by decide),
    decodeMerchantPaymentEvent,loadAddress_bits,ok_bind,loadCoins_append _ _ _ small,payload]
  rfl

/-- Whatever is decoded, its payload hash is a formatted number. -/
theorem decodedFields_formatted (decoded : decodedFields addressText emitted blockNumber txHash
    logIndex timestamp = some seen) :
    ∃ payloadHash, seen.payloadHash = formatPayloadHash payloadHash := by
  obtain ⟨body,-,decoded⟩ := Option.bind_eq_some_iff.mp decoded
  obtain ⟨⟨op,slice⟩,-,decoded⟩ := Option.bind_eq_some_iff.mp decoded
  obtain ⟨_,-,decoded⟩ := bind_ok.mp (ok_of_toOption decoded)
  obtain ⟨_,-,decoded⟩ := bind_ok.mp decoded
  obtain ⟨_,-,decoded⟩ := bind_ok.mp decoded
  obtain ⟨⟨payloadHash,_⟩,-,decoded⟩ := bind_ok.mp decoded
  exact ⟨payloadHash,by rw [← pure_ok.mp decoded]⟩

theorem padStart_length (width : Nat) (unit : UInt16) (s : JsString) :
    width ≤ (padStart width unit s).length := by
  simp only [padStart,List.length_append,List.length_replicate]
  omega

/-- The prefix makes a formatted payload hash longer than a digest. -/
theorem formatPayloadHash_ne (payloadHash : Int) (digest : BitVec 256) :
    formatPayloadHash payloadHash ≠ hexDigest digest := by
  intro same
  have digits : (hexDigest digest).length = 64 := fixedDigits_length _ _ _
  have formatted : 66 ≤ (formatPayloadHash payloadHash).length := by
    unfold formatPayloadHash
    split
    · have padded := padStart_length 64 48 (hexDigits payloadHash.toNat)
      rw [List.length_append]
      exact Nat.add_le_add (show 2 ≤ (js "0x").length by decide) padded
    · have padded := padStart_length 64 48 (hexDigits (-payloadHash).toNat)
      rw [List.length_append]
      exact Nat.add_le_add (show 2 ≤ (js "-0x").length by decide) padded
  rw [same,digits] at formatted
  omega

end Indexer

section Mismatch

/-- An API invoice as its payment link sees it. -/
def linkInvoice (invoice : Invoice) (merchantNft : Address) (amountTbc : Int) : LinkInvoice :=
  ⟨invoice.invoiceId,merchantNft,amountTbc⟩

/-- The parser finds no payment in what the hub emits for a link. Its decoder would find the
formatted hash of the link's payload cell behind the op code, which is not what the invoice's
settlement requires, and no invoice matches an event with what it decodes. -/
theorem payload_hash_mismatch {storeStringTail : JsString → Builder → Result Builder}
    {hash : Cell → Int} {env : Context} {self next : MerchantPaymentHub.State}
    {invoice : Invoice} {addressText : Address → JsString} {host : Host}
    (linked : walletLinkBody storeStringTail (linkInvoice invoice merchantNft amountTbc) payerNft
      nativeAmountNanoTon = .ok body)
    (paid : hubReceives hash supported env body self = .ok (next,actions))
    (emitted : .emit payment ∈ actions) :
    indexed addressText payment blockNumber txHash logIndex timestamp = none ∧
    (∃ payload,
      buildDefaultInvoicePayload storeStringTail (linkInvoice invoice merchantNft amountTbc) =
        .ok payload ∧
      payment = .merchantPayment payerNft merchantNft amountTbc (hash payload) env.now ∧
      (0 ≤ hash payload → hash payload < 2^256 → env.now < 2^32 →
        ∃ seen, decodedFields addressText payment blockNumber txHash logIndex timestamp =
          some seen ∧ seen.payloadHash = formatPayloadHash (hash payload))) ∧
    ∀ seen, decodedFields addressText payment blockNumber txHash logIndex timestamp = some seen →
      seen.payloadHash ≠ hashMetadata host invoice.metadata invoice.invoiceId ∧
      ∀ event, event.payloadHash = seen.payloadHash → matchesEvent host event invoice = false := by
  obtain ⟨message,loaded,received⟩ := bind_ok.mp paid
  obtain ⟨payload,built,loads⟩ := loadMerchantPaymentRequest_link linked
  rw [loads] at loaded
  simp only [throwUnless_bind_ok,pure_ok] at loaded
  obtain ⟨-,-,rfl⟩ := loaded
  obtain ⟨-,-,⟨positive,small⟩,-⟩ := walletLinkBody_ok linked
  refine ⟨indexed_none payment,⟨payload,built,?_⟩,?_⟩
  · have sent : payment = .merchantPayment payerNft merchantNft amountTbc (hash payload)
        env.now := by
      cases MerchantPaymentHub.receive_effect received with
      | rejected => simp [MerchantPaymentHub.response] at emitted
      | paid =>
        simpa [MerchantPaymentHub.response,MerchantPaymentHub.payloadHash,linkInvoice]
          using emitted
    refine ⟨sent,fun natural fits dated => ?_⟩
    rw [sent]
    exact ⟨_,decodedFields_inRange positive.le small ⟨natural,fits⟩ dated,rfl⟩
  · intro seen decoded
    obtain ⟨payloadHash,formatted⟩ := decodedFields_formatted decoded
    have apart : seen.payloadHash ≠ hashMetadata host invoice.metadata invoice.invoiceId := by
      rw [formatted]
      exact formatPayloadHash_ne _ _
    refine ⟨apart,fun event same => ?_⟩
    simp [matchesEvent,same,apart.symm]

def shopMerchantNft : Address :=
  ⟨0,0x231e41edb75308a14e5cedd92cef7473f0d331000de84ad4ab710fea827de297⟩

def shopPayerNft : Address :=
  ⟨0,0x5e772268f2810a24498651ac4f10b5ccf1d414cd7377418c7b7bc581b1fbbd69⟩

def shopAddressText (address : Address) : JsString :=
  if address = shopMerchantNft then shopRequest.merchantNft else shopEvent.payerNft

/-- The invoice of the shop's first run, before it is paid. -/
def shopInvoice : Invoice where
  invoiceId := shopInvoiceId
  merchantNft := shopRequest.merchantNft
  amountTbc := shopRequest.amountTbc
  currency := shopRequest.currency
  metadata := none
  status := .pending
  createdAt := getCurrentTimestamp shopHost 1767225600000
  expiresAt := generateDefaultExpiry shopHost 1767225600000
  paymentUrl := generatePaymentUrl shopInvoiceId
  settlement := none

/-- `storeStringTail` of an ASCII text that fits. -/
def storeAsciiTail (text : JsString) (b : Builder) : Result Builder :=
  b.storeBits (text.flatMap fun unit => uintBits 8 unit.toNat)

/-- The representation hash with its value on the payload cell of the shop's invoice. -/
def shopCellHash : Cell → Int
  | .ordinary bits _ =>
    if bits = uintBits 8 invoiceIdPayloadType ++
        shopInvoiceId.flatMap (fun unit => uintBits 8 unit.toNat) then
      0xecc1bdaa8d8794bb5725a8059e2c7c8a33f19d0d2cdf604c6368c5d24ff997d0
    else 0
  | .dictionary _ => 0

/-- A hub where the payer's owner can pay the shop. -/
def shopHub : MerchantPaymentHub.State :=
  let hub := MerchantPaymentHub.init (newAddress 0 1) (newAddress 0 2) (newAddress 0 3)
    (newAddress 0 4)
  {hub with
    nftOwners := hub.nftOwners.set shopPayerNft (newAddress 0 5)
    accountStates := (hub.accountStates.set shopPayerNft accountStateActive).set shopMerchantNft
      accountStateActive
    accountBalances := hub.accountBalances.set shopPayerNft 5000000000 }

def shopContext : Context := ⟨newAddress 0 5,50000000,1767225660⟩

/-- The link, the payment and what its fields are decoded as, for the shop's invoice. -/
def shopPayment : Option (MerchantPaymentHub.Body × MerchantPaymentEvent) := do
  let body ← (walletLinkBody storeAsciiTail (linkInvoice shopInvoice shopMerchantNft 1000000000)
    shopPayerNft 50000000).toOption
  let (_,actions) ← (hubReceives shopCellHash (fun _ => true) shopContext body shopHub).toOption
  match actions with
  | .emit payment :: _ =>
    let seen ← decodedFields shopAddressText payment 100 (js "5f1c") 0 1767225660
    pure (payment,seen)
  | _ => none

/-- The shop's payment goes through, and its fields hold the formatted cell hash. -/
theorem shopPayment_reached : ∃ body next actions payment seen,
    walletLinkBody storeAsciiTail (linkInvoice shopInvoice shopMerchantNft 1000000000)
      shopPayerNft 50000000 = .ok body ∧
    hubReceives shopCellHash (fun _ => true) shopContext body shopHub = .ok (next,actions) ∧
    .emit payment ∈ actions ∧
    decodedFields shopAddressText payment 100 (js "5f1c") 0 1767225660 = some seen ∧
    seen.payloadHash =
      js "0xecc1bdaa8d8794bb5725a8059e2c7c8a33f19d0d2cdf604c6368c5d24ff997d0" := by
  have reached : (shopPayment.map fun paid => paid.2.payloadHash) =
      some (js "0xecc1bdaa8d8794bb5725a8059e2c7c8a33f19d0d2cdf604c6368c5d24ff997d0") := by
    decide +kernel
  obtain ⟨⟨payment,seen⟩,through,formatted⟩ := Option.map_eq_some_iff.mp reached
  simp only [shopPayment,Option.bind_eq_bind,Option.bind_eq_some_iff] at through
  obtain ⟨body,linked,⟨next,actions⟩,paid,through⟩ := through
  have linked := ok_of_toOption linked
  have paid := ok_of_toOption paid
  cases actions with
  | nil => simp at through
  | cons action rest =>
    cases action with
    | send parameters => simp at through
    | emit emitted =>
      obtain ⟨decoded,fields,same⟩ := Option.bind_eq_some_iff.mp through
      obtain ⟨rfl,rfl⟩ := Prod.mk.inj (Option.some.inj same)
      exact ⟨body,next,_,emitted,decoded,linked,paid,List.mem_cons_self,fields,formatted⟩

theorem shopPayment_unmatched : ∃ body next actions payment seen,
    walletLinkBody storeAsciiTail (linkInvoice shopInvoice shopMerchantNft 1000000000)
      shopPayerNft 50000000 = .ok body ∧
    hubReceives shopCellHash (fun _ => true) shopContext body shopHub = .ok (next,actions) ∧
    .emit payment ∈ actions ∧
    indexed shopAddressText payment 100 (js "5f1c") 0 1767225660 = none ∧
    decodedFields shopAddressText payment 100 (js "5f1c") 0 1767225660 = some seen ∧
    ∀ event, event.payloadHash = seen.payloadHash →
      matchesEvent shopHost event shopInvoice = false := by
  obtain ⟨body,next,actions,payment,seen,linked,paid,emitted,decoded,-⟩ := shopPayment_reached
  obtain ⟨unseen,-,unmatched⟩ := payload_hash_mismatch linked paid emitted
  exact ⟨body,next,actions,payment,seen,linked,paid,emitted,unseen,decoded,
    (unmatched seen decoded).2⟩

/-- The parser hands nothing on for the shop's payment, and the hash in its fields is not the one
that a settlement of the invoice requires. -/
theorem shopPayment_differs : ∃ body next actions payment seen,
    walletLinkBody storeAsciiTail (linkInvoice shopInvoice shopMerchantNft 1000000000)
      shopPayerNft 50000000 = .ok body ∧
    hubReceives shopCellHash (fun _ => true) shopContext body shopHub = .ok (next,actions) ∧
    .emit payment ∈ actions ∧
    indexed shopAddressText payment 100 (js "5f1c") 0 1767225660 = none ∧
    decodedFields shopAddressText payment 100 (js "5f1c") 0 1767225660 = some seen ∧
    seen.payloadHash ≠ hashMetadata shopHost shopInvoice.metadata shopInvoice.invoiceId := by
  obtain ⟨body,next,actions,payment,seen,linked,paid,emitted,decoded,formatted⟩ :=
    shopPayment_reached
  refine ⟨body,next,actions,payment,seen,linked,paid,emitted,indexed_none payment,decoded,?_⟩
  rw [formatted]
  decide +kernel

end Mismatch
end Tonbankcard.InvoicePayment
