import Tonbankcard.IndexerDatabase

/-! The parser of the indexer, from the raw transactions of the HTTP API to typed events. What a
decoder throws drops the message it was decoding. -/
namespace Tonbankcard.Indexer

open Ton EcmaScript

/-- What the parser takes from the cell library beyond slices. -/
structure CellReader where
  fromBase64 : JsString → Option Cell
  loadStringTail : Slice → Option JsString

section Slices

/-- An internal address without anycast, the only form that `loadAddress` takes. -/
def loadAddress (s : Slice) : Result (Ton.Address × Slice) := do
  let (tag,s) ← s.loadBits 3
  let (workchain,s) ← s.loadUint 8
  let (account,s) ← s.loadUint 256
  if tag = [true,false,false] then pure (newAddress workchain account,s)
  else .error cellUnderflow

def loadMaybeAddress (s : Slice) : Result (Option Ton.Address × Slice) := do
  let (kind,rest) ← s.loadBits 2
  if kind = addrNone then pure (none,rest) else
    let (address,rest) ← loadAddress s
    pure (some address,rest)

end Slices

section Numbers

def hexDigits (n : Nat) : JsString := (Nat.toDigits 16 n).map digitUnit

/-- `padStart` with zeros. -/
def padStart (width : Nat) (text : JsString) : JsString :=
  List.replicate (width - text.length) 48 ++ text

def hex64 (n : Nat) : JsString := js "0x" ++ padStart 64 (hexDigits n)

/-- `Number` of a natural number: the nearest that has 53 significant bits, ties to even. -/
def numberOf (n : Nat) : Nat :=
  let shift := n.log2 - 52
  let down := n / 2^shift
  let rest := n % 2^shift
  let up := 2^shift < 2 * rest || (2^shift = 2 * rest && down % 2 = 1)
  (if up then down + 1 else down) * 2^shift

end Numbers

section Messages

/-- A message of the API, where `body` is that of `msg_data` or else its own. -/
structure Message where
  source : Option JsString
  destination : Option JsString
  body : Option JsString

structure Transaction where
  transactionIdHash : JsString
  inMsg : Option Message
  outMsgs : List Message

variable (codec : AddressCodec) (cells : CellReader)

def decodeInternalTransferEvent (s : Slice) : Result IndexedEvent := do
  let (fromNft,s) ← loadAddress s
  let (toNft,s) ← loadAddress s
  let (amountTbc,s) ← s.loadCoins
  let (payloadHash,_) ← s.loadUint 256
  pure (.internalTransfer (codec.text fromNft) (codec.text toNft) amountTbc (hex64 payloadHash))

/-- `accountStateFromNumber` refuses what is not one of the four states. -/
def accountStateFromNumber (state : Nat) : Result Nat :=
  if state ≤ 3 then .ok state else .error rangeCheck

def decodeAccountStateChangedEvent (s : Slice) : Result IndexedEvent := do
  let (nftAddress,s) ← loadAddress s
  let (oldState,s) ← s.loadUint 8
  let (newState,_) ← s.loadUint 8
  let oldState ← accountStateFromNumber oldState
  let newState ← accountStateFromNumber newState
  pure (.accountStateChanged (codec.text nftAddress) oldState newState)

def decodeMerchantPaymentEvent (s : Slice) : Result IndexedEvent := do
  let (payerNft,s) ← loadAddress s
  let (merchantNft,s) ← loadAddress s
  let (amountTbc,s) ← s.loadCoins
  let (payloadHashInt,_) ← s.loadInt 257
  let payloadHash := if 0 ≤ payloadHashInt then hex64 payloadHashInt.toNat
    else 45 :: hex64 payloadHashInt.natAbs
  pure (.merchantPayment (codec.text payerNft) (codec.text merchantNft) amountTbc payloadHash)

def ownershipAssigned : Nat := 0x05138d91

/-- The owner before is known only from `ownership_assigned`; an empty new owner is no event. -/
def decodeNFTOwnershipChange (msg : Message) (op : Nat) (contractAddress : JsString) (s : Slice) :
    Result IndexedEvent := do
  let nftAddress := msg.source.getD contractAddress
  if op = ownershipAssigned then
    let (_,s) ← s.loadUint 64
    let (prevOwner,_) ← loadMaybeAddress s
    let newOwner := msg.destination.getD []
    if newOwner.isEmpty then .error rangeCheck
    else pure (.nftOwnershipChange nftAddress contractAddress (prevOwner.map codec.text) newOwner)
  else
    let (newOwner,_) ← loadAddress s
    pure (.nftOwnershipChange nftAddress contractAddress none (codec.text newOwner))

def decodeProtocolMetricsRecorded (s : Slice) : Result IndexedEvent := do
  let (periodStart,s) ← s.loadUint 32
  let (periodEnd,s) ← s.loadUint 32
  let (activeAccounts,s) ← s.loadUint 32
  let (tbcVolumeTransferred,s) ← s.loadCoins
  let (transferCount,_) ← s.loadUint 32
  pure (.transparencyProtocolMetrics periodStart periodEnd activeAccounts tbcVolumeTransferred
    transferCount)

def decodeLockActivityRecorded (s : Slice) : Result IndexedEvent := do
  let (periodStart,s) ← s.loadUint 32
  let (periodEnd,s) ← s.loadUint 32
  let (locksSet,s) ← s.loadUint 32
  let (locksCleared,s) ← s.loadUint 32
  let (locksActive,s) ← s.loadUint 32
  let (appealsFiled,s) ← s.loadUint 32
  let (appealsOverturned,s) ← s.loadUint 32
  let (appealsUpheld,_) ← s.loadUint 32
  pure (.transparencyLockActivity periodStart periodEnd locksSet locksCleared locksActive
    appealsFiled appealsOverturned appealsUpheld)

def decodeParameterChangeRecorded (s : Slice) : Result IndexedEvent := do
  let (parameterIdRef,s) ← s.loadRef
  let parameterId ← match cells.loadStringTail parameterIdRef.beginParse with
    | some text => .ok text
    | none => .error cellUnderflow
  let (oldValueHash,s) ← s.loadUint 256
  let (newValueHash,s) ← s.loadUint 256
  let (effectiveBlock,s) ← s.loadUint 64
  let (hasProposal,s) ← s.loadUint 1
  let governanceProposalId ← if hasProposal = 1 then (do
    let (proposal,_) ← s.loadUint 64
    pure (some (numberOf proposal))) else pure none
  pure (.transparencyParameterChange parameterId (hex64 oldValueHash) (hex64 newValueHash)
    (numberOf effectiveBlock) governanceProposalId)

/-- Messages without a destination are emitted events, by their op code. -/
def decodeEmitted (op : Nat) (s : Slice) : Result IndexedEvent :=
  if op = 0x7cb56db1 then decodeInternalTransferEvent codec s
  else if op = 0x5af8273b then decodeAccountStateChangedEvent codec s
  else if op = 0x3b4c2365 then decodeMerchantPaymentEvent codec s
  else if op = 0xe4011001 then decodeProtocolMetricsRecorded s
  else if op = 0xe4011002 then decodeLockActivityRecorded s
  else if op = 0xe4011003 then decodeParameterChangeRecorded cells s
  else .error rangeCheck

def nftTransfer : Nat := 0x8fc3fa67

def parseOutMessage (msg : Message) (contractAddress : JsString) : Option IndexedEvent := do
  let body ← msg.body
  let cell ← if body.isEmpty then none else cells.fromBase64 body
  let (op,s) ← (cell.beginParse.loadUint 32).toOption
  if (msg.destination.getD []).isEmpty then (decodeEmitted codec cells op s).toOption
  else if op = ownershipAssigned ∨ op = nftTransfer then
    (decodeNFTOwnershipChange codec msg op contractAddress s).toOption
  else none

/-- The events of the outbound messages, then that of the inbound one. -/
def parseTransaction (transaction : Transaction) (contractAddress : JsString) :
    List IndexedEvent :=
  (transaction.outMsgs ++ transaction.inMsg.toList).filterMap fun msg =>
    parseOutMessage codec cells msg contractAddress

end Messages
end Tonbankcard.Indexer
