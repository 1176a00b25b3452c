import Tonbankcard.IndexerEventParser
import Tonbankcard.TactLayout

/-! The events that the indexer decodes, as the contracts lay them out, and what the parser makes
of their bodies. -/
namespace Tonbankcard.Indexer

open Ton EcmaScript

/-- The emitted messages, each field of its declared width. -/
inductive EmittedEvent where
  | internalTransferEvent (fromNft toNft : Ton.Address) (amountTbc : BitVec 120)
      (payloadHash : BitVec 256) (timestamp : BitVec 32)
  | accountStateChangedEvent (nftAddress : Ton.Address) (oldState newState : BitVec 8)
      (timestamp : BitVec 32)
  | merchantPayment (payerNft merchantNft : Ton.Address) (amountTbc : BitVec 120)
      (payloadHash : BitVec 257) (timestamp : BitVec 32)
  | protocolMetricsRecorded (periodStart periodEnd activeAccounts : BitVec 32)
      (tbcVolumeTransferred : BitVec 120) (transferCount timestamp : BitVec 32)
  | lockActivityRecorded (periodStart periodEnd locksSet locksCleared locksActive appealsFiled
      appealsOverturned appealsUpheld timestamp : BitVec 32)
  | parameterChangeRecorded (parameterId proposalId : BitVec 64)
      (oldValueHash newValueHash : BitVec 256) (effectiveBlock : BitVec 64)
      (timestamp : BitVec 32)

namespace EmittedEvent

/-- The op codes that the parser expects of the events. -/
def op : EmittedEvent → BitVec 32
  | internalTransferEvent .. => 0x7cb56db1
  | accountStateChangedEvent .. => 0x5af8273b
  | merchantPayment .. => 0x3b4c2365
  | protocolMetricsRecorded .. => 0xe4011001
  | lockActivityRecorded .. => 0xe4011002
  | parameterChangeRecorded .. => 0xe4011003

/-- The fields in the order of declaration. -/
def fields : EmittedEvent → List Tact.Field
  | internalTransferEvent fromNft toNft amountTbc payloadHash timestamp =>
    [.address fromNft,.address toNft,.coins amountTbc,.uint 256 payloadHash,.uint 32 timestamp]
  | accountStateChangedEvent nftAddress oldState newState timestamp =>
    [.address nftAddress,.uint 8 oldState,.uint 8 newState,.uint 32 timestamp]
  | merchantPayment payerNft merchantNft amountTbc payloadHash timestamp =>
    [.address payerNft,.address merchantNft,.coins amountTbc,.int257 payloadHash,
      .uint 32 timestamp]
  | protocolMetricsRecorded periodStart periodEnd activeAccounts tbcVolumeTransferred transferCount
      timestamp =>
    [.uint 32 periodStart,.uint 32 periodEnd,.uint 32 activeAccounts,.coins tbcVolumeTransferred,
      .uint 32 transferCount,.uint 32 timestamp]
  | lockActivityRecorded periodStart periodEnd locksSet locksCleared locksActive appealsFiled
      appealsOverturned appealsUpheld timestamp =>
    [.uint 32 periodStart,.uint 32 periodEnd,.uint 32 locksSet,.uint 32 locksCleared,
      .uint 32 locksActive,.uint 32 appealsFiled,.uint 32 appealsOverturned,
      .uint 32 appealsUpheld,.uint 32 timestamp]
  | parameterChangeRecorded parameterId proposalId oldValueHash newValueHash effectiveBlock
      timestamp =>
    [.uint 64 parameterId,.uint 64 proposalId,.uint 256 oldValueHash,.uint 256 newValueHash,
      .uint 64 effectiveBlock,.uint 32 timestamp]

def toCell (event : EmittedEvent) : Result Cell := Tact.toCell event.op event.fields

/-- None of the events needs a second cell. -/
theorem fields_room (event : EmittedEvent) : Tact.room event.fields ≤ Tact.cellRoom - 32 := by
  cases event <;> simp [Tact.room,fields,Tact.Field.room,Tact.cellRoom,maxBits]

theorem toCell_ok (event : EmittedEvent) :
    event.toCell = .ok (.ordinary (uintBits 32 event.op.toNat ++ Tact.bits event.fields) []) :=
  Tact.toCell_ok event.op event.fields_room

/-- A signed number in prefixed hexadecimal. -/
def signedHex64 (value : Int) : JsString :=
  if 0 ≤ value then hex64 value.toNat else 45 :: hex64 value.natAbs

/-- The indexed event with the values of the emitted one. The time of an indexed event is that of
its block. -/
def indexed (codec : AddressCodec) : EmittedEvent → IndexedEvent
  | internalTransferEvent fromNft toNft amountTbc payloadHash _ =>
    .internalTransfer (codec.text fromNft) (codec.text toNft) amountTbc.toNat
      (hex64 payloadHash.toNat)
  | accountStateChangedEvent nftAddress oldState newState _ =>
    .accountStateChanged (codec.text nftAddress) oldState.toNat newState.toNat
  | merchantPayment payerNft merchantNft amountTbc payloadHash _ =>
    .merchantPayment (codec.text payerNft) (codec.text merchantNft) amountTbc.toNat
      (signedHex64 payloadHash.toInt)
  | protocolMetricsRecorded periodStart periodEnd activeAccounts tbcVolumeTransferred transferCount
      _ =>
    .transparencyProtocolMetrics periodStart.toNat periodEnd.toNat activeAccounts.toNat
      tbcVolumeTransferred.toNat transferCount.toNat
  | lockActivityRecorded periodStart periodEnd locksSet locksCleared locksActive appealsFiled
      appealsOverturned appealsUpheld _ =>
    .transparencyLockActivity periodStart.toNat periodEnd.toNat locksSet.toNat
      locksCleared.toNat locksActive.toNat appealsFiled.toNat appealsOverturned.toNat
      appealsUpheld.toNat
  | parameterChangeRecorded parameterId proposalId oldValueHash newValueHash effectiveBlock _ =>
    .transparencyParameterChange (natDigits parameterId.toNat) (hex64 oldValueHash.toNat)
      (hex64 newValueHash.toNat) effectiveBlock.toNat (some proposalId.toNat)

/-- The parameter change is read by another layout, and a state has to be one of the four. -/
def readable : EmittedEvent → Bool
  | accountStateChangedEvent _ oldState newState _ => oldState.toNat ≤ 3 ∧ newState.toNat ≤ 3
  | parameterChangeRecorded .. => false
  | _ => true

end EmittedEvent

theorem loadAddress_address (address : Ton.Address) (more : List Bool) (refs : List Cell) :
    loadAddress ⟨(Tact.Field.address address).bits ++ more,refs⟩ = .ok (address,⟨more,refs⟩) := by
  have tag := Slice.loadBits_append [true,false,false]
    (uintBits 8 address.workchain.toNat ++ (uintBits 256 address.account.toNat ++ more)) refs
  change Slice.loadBits 3 _ = _ at tag
  rw [loadAddress,Tact.Field.bits,Address.bits,List.append_assoc,List.append_assoc,tag,ok_bind]
  simp only [Slice.loadUint_append _ _ _ _ address.workchain.isLt,
    Slice.loadUint_append _ _ _ _ address.account.isLt,ok_bind]
  simp [newAddress,pure,Except.pure]

section Decoders

variable (codec : AddressCodec) (cells : CellReader)

/-- Without a reference there is nothing to read the parameter from. -/
theorem decodeParameterChangeRecorded_flat (bits : List Bool) :
    decodeParameterChangeRecorded cells ⟨bits,[]⟩ = .error cellUnderflow := rfl

theorem accountStateFromNumber_ok :
    accountStateFromNumber state = .ok known ↔ known = state ∧ state ≤ 3 := by
  unfold accountStateFromNumber
  split
  next small => simp [small,eq_comm]
  next large => simp [large]

variable (more : List Bool)

theorem decodeInternalTransferEvent_bits (fromNft toNft : Ton.Address) (amountTbc : BitVec 120)
    (payloadHash : BitVec 256) :
    decodeInternalTransferEvent codec
      ⟨(Tact.Field.address fromNft).bits ++ ((Tact.Field.address toNft).bits ++
        ((Tact.Field.coins amountTbc).bits ++ ((Tact.Field.uint 256 payloadHash).bits ++ more))),[]⟩ =
      .ok (.internalTransfer (codec.text fromNft) (codec.text toNft) amountTbc.toNat
        (hex64 payloadHash.toNat)) := by
  simp only [decodeInternalTransferEvent,loadAddress_address,Tact.loadCoins_coins,
    Tact.loadUint_uint,ok_bind]
  rfl

theorem decodeAccountStateChangedEvent_bits (nftAddress : Ton.Address)
    (oldState newState : BitVec 8) (indexed : IndexedEvent) :
    decodeAccountStateChangedEvent codec
      ⟨(Tact.Field.address nftAddress).bits ++ ((Tact.Field.uint 8 oldState).bits ++
        ((Tact.Field.uint 8 newState).bits ++ more)),[]⟩ = .ok indexed ↔
      indexed = .accountStateChanged (codec.text nftAddress) oldState.toNat newState.toNat ∧
        oldState.toNat ≤ 3 ∧ newState.toNat ≤ 3 := by
  simp only [decodeAccountStateChangedEvent,loadAddress_address,Tact.loadUint_uint,ok_bind,
    bind_ok,accountStateFromNumber_ok]
  constructor
  · rintro ⟨_,⟨rfl,old⟩,_,⟨rfl,new⟩,made⟩
    exact ⟨(pure_ok.mp made).symm,old,new⟩
  · rintro ⟨rfl,old,new⟩
    exact ⟨_,⟨rfl,old⟩,_,⟨rfl,new⟩,rfl⟩

theorem decodeMerchantPaymentEvent_bits (payerNft merchantNft : Ton.Address)
    (amountTbc : BitVec 120) (payloadHash : BitVec 257) :
    decodeMerchantPaymentEvent codec
      ⟨(Tact.Field.address payerNft).bits ++ ((Tact.Field.address merchantNft).bits ++
        ((Tact.Field.coins amountTbc).bits ++ ((Tact.Field.int257 payloadHash).bits ++ more))),[]⟩ =
      .ok (.merchantPayment (codec.text payerNft) (codec.text merchantNft) amountTbc.toNat
        (EmittedEvent.signedHex64 payloadHash.toInt)) := by
  simp only [decodeMerchantPaymentEvent,loadAddress_address,Tact.loadCoins_coins,
    Tact.loadInt_int257,ok_bind]
  rfl

/-- A body in its declared layout is decoded to its values exactly when it is readable. -/
theorem decodeEmitted_ok (event : EmittedEvent) :
    decodeEmitted codec cells event.op.toNat ⟨Tact.bits event.fields,[]⟩ =
      .ok (event.indexed codec) ↔ event.readable = true := by
  cases event with
  | internalTransferEvent fromNft toNft amountTbc payloadHash timestamp =>
    have decoded := decodeInternalTransferEvent_bits codec
      ((Tact.Field.uint 32 timestamp).bits ++ []) fromNft toNft amountTbc payloadHash
    exact iff_of_true decoded rfl
  | accountStateChangedEvent nftAddress oldState newState timestamp =>
    have decoded := decodeAccountStateChangedEvent_bits codec
      ((Tact.Field.uint 32 timestamp).bits ++ []) nftAddress oldState newState
      (.accountStateChanged (codec.text nftAddress) oldState.toNat newState.toNat)
    rw [EmittedEvent.readable,decide_eq_true_iff]
    exact decoded.trans (and_iff_right rfl)
  | merchantPayment payerNft merchantNft amountTbc payloadHash timestamp =>
    have decoded := decodeMerchantPaymentEvent_bits codec
      ((Tact.Field.uint 32 timestamp).bits ++ []) payerNft merchantNft amountTbc payloadHash
    exact iff_of_true decoded rfl
  | protocolMetricsRecorded periodStart periodEnd activeAccounts volume transferCount timestamp =>
    refine iff_of_true ?_ rfl
    change decodeProtocolMetricsRecorded _ = _
    simp only [EmittedEvent.fields,Tact.bits,List.flatMap_cons,decodeProtocolMetricsRecorded,
      Tact.loadUint_uint,Tact.loadCoins_coins,ok_bind]
    rfl
  | lockActivityRecorded periodStart periodEnd locksSet locksCleared locksActive appealsFiled
      appealsOverturned appealsUpheld timestamp =>
    refine iff_of_true ?_ rfl
    change decodeLockActivityRecorded _ = _
    simp only [EmittedEvent.fields,Tact.bits,List.flatMap_cons,decodeLockActivityRecorded,
      Tact.loadUint_uint,ok_bind]
    rfl
  | parameterChangeRecorded parameterId proposalId oldValue newValue effectiveBlock timestamp =>
    have dropped := decodeParameterChangeRecorded_flat cells
      (Tact.bits [.uint 64 parameterId,.uint 64 proposalId,.uint 256 oldValue,
        .uint 256 newValue,.uint 64 effectiveBlock,.uint 32 timestamp])
    refine iff_of_false (fun decoded => ?_) Bool.false_ne_true
    cases dropped.symm.trans decoded

/-- Nothing else is made of a body, so one that is not readable is dropped. -/
theorem decodeEmitted_readable {event : EmittedEvent}
    (decoded : decodeEmitted codec cells event.op.toNat ⟨Tact.bits event.fields,[]⟩ = .ok other) :
    event.readable = true := by
  cases event with
  | accountStateChangedEvent nftAddress oldState newState timestamp =>
    have known := decodeAccountStateChangedEvent_bits codec
      ((Tact.Field.uint 32 timestamp).bits ++ []) nftAddress oldState newState other
    exact decide_eq_true (known.mp decoded).2
  | parameterChangeRecorded parameterId proposalId oldValue newValue effectiveBlock timestamp =>
    have dropped := decodeParameterChangeRecorded_flat cells
      (Tact.bits [.uint 64 parameterId,.uint 64 proposalId,.uint 256 oldValue,
        .uint 256 newValue,.uint 64 effectiveBlock,.uint 32 timestamp])
    cases dropped.symm.trans decoded
  | _ => rfl

theorem decodeEmitted_toOption (event : EmittedEvent) :
    (decodeEmitted codec cells event.op.toNat ⟨Tact.bits event.fields,[]⟩).toOption =
      if event.readable then some (event.indexed codec) else none := by
  cases outcome : decodeEmitted codec cells event.op.toNat ⟨Tact.bits event.fields,[]⟩ with
  | ok other =>
    have known := decodeEmitted_readable codec cells outcome
    have values := (decodeEmitted_ok codec cells event).mpr known
    rw [if_pos known,← Except.ok.inj (outcome.symm.trans values)]
    rfl
  | error reason =>
    by_cases known : event.readable = true
    · cases outcome.symm.trans ((decodeEmitted_ok codec cells event).mpr known)
    · rw [if_neg known]
      rfl

/-- A message without a destination whose body is the cell of an event. -/
structure Emitted (msg : Message) (event : EmittedEvent) : Prop where
  outside : (msg.destination.getD []).isEmpty = true
  body : ∃ text cell, msg.body = some text ∧ text.isEmpty = false ∧
    cells.fromBase64 text = some cell ∧ event.toCell = .ok cell

theorem parseOutMessage_emitted (emitted : Emitted cells msg event) (contractAddress : JsString) :
    parseOutMessage codec cells msg contractAddress =
      if event.readable then some (event.indexed codec) else none := by
  obtain ⟨outside,text,cell,carried,filled,read,laid⟩ := emitted
  obtain rfl := Except.ok.inj (event.toCell_ok.symm.trans laid)
  have op := Slice.loadUint_append 32 event.op.toNat (Tact.bits event.fields) [] event.op.isLt
  rw [parseOutMessage,carried]
  simp only [Option.bind_eq_bind,Option.bind_some,filled,Bool.false_eq_true,if_false,read,
    Cell.beginParse,op,Except.toOption]
  rw [if_pos outside]
  exact decodeEmitted_toOption codec cells event

/-- The six event decoders undo the layout of the contracts except for a changed parameter and for
a state that is not one of the four. -/
theorem emitted_read_iff (emitted : Emitted cells msg event) (contractAddress : JsString) :
    parseOutMessage codec cells msg contractAddress = some (event.indexed codec) ↔
      event.readable = true := by
  rw [parseOutMessage_emitted codec cells emitted]
  by_cases known : event.readable = true <;> simp [known]

/-- A transaction that only emits yields its readable events in their order. -/
theorem parseTransaction_emitted (emitted : List.Forall₂ (Emitted cells) msgs events)
    (hash contractAddress : JsString) :
    parseTransaction codec cells ⟨hash,none,msgs⟩ contractAddress =
      (events.filter EmittedEvent.readable).map (EmittedEvent.indexed codec) := by
  rw [parseTransaction,Option.toList_none,List.append_nil]
  induction emitted with
  | nil => rfl
  | cons first rest ih =>
    rw [List.filterMap_cons,parseOutMessage_emitted codec cells first,List.filter_cons,ih]
    split <;> simp_all

end Decoders

section Samples

/-- Reads one text as one cell. -/
def readerOf (text : JsString) (cell : Cell) : CellReader where
  fromBase64 other := if other = text then some cell else none
  loadStringTail _ := none

def emittedBody (event : EmittedEvent) : Cell :=
  .ordinary (uintBits 32 event.op.toNat ++ Tact.bits event.fields) []

def emittedMessage (text : JsString) : Message := ⟨none,none,some text⟩

theorem emitted_sample (event : EmittedEvent) (text : JsString) (filled : text.isEmpty = false) :
    Emitted (readerOf text (emittedBody event)) (emittedMessage text) event where
  outside := rfl
  body := ⟨text,emittedBody event,rfl,filled,if_pos rfl,event.toCell_ok⟩

/-- The lock activity of one month. -/
def aprilLocks : EmittedEvent := .lockActivityRecorded 1743465600 1746057600 3 1 2 1 0 1 1746057700

theorem emitted_read_iff_sample :
    parseOutMessage .friendly (readerOf (js "te6c") (emittedBody aprilLocks))
      (emittedMessage (js "te6c")) [] = some (aprilLocks.indexed .friendly) := by
  have emitted := emitted_sample aprilLocks (js "te6c") rfl
  exact (emitted_read_iff .friendly _ emitted []).mpr rfl

/-- Parameter 7 is changed by proposal 11. -/
def parameterChange : EmittedEvent := .parameterChangeRecorded 7 11 0xAA 0xBB 1234 1746057700

theorem parameter_change_dropped :
    Emitted (readerOf (js "te6c") (emittedBody parameterChange)) (emittedMessage (js "te6c"))
        parameterChange ∧
      parseOutMessage .friendly (readerOf (js "te6c") (emittedBody parameterChange))
        (emittedMessage (js "te6c")) [] = none := by
  have emitted := emitted_sample parameterChange (js "te6c") rfl
  exact ⟨emitted,parseOutMessage_emitted .friendly _ emitted []⟩

end Samples

end Tonbankcard.Indexer
