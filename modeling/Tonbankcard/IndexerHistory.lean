import Mathlib.Data.Prod.Lex
import Tonbankcard.IndexerDatabase
import Tonbankcard.JsMap
import Tonbankcard.JsNumbers
import Tonbankcard.Keyset
import Tonbankcard.Unicode

/-! The history of an account in the indexer's database: the union of three event tables, sorted
and cut into pages, behind a cache with an entry for each list of arguments. -/
namespace Tonbankcard.Indexer

open EcmaScript

section Events

inductive HistoryDetails where
  | transfer (fromNft toNft amount payloadHash : JsString)
  | payment (payer merchant amount payloadHash : JsString)
  | stateChange (oldState newState : Nat)
  deriving DecidableEq

structure HistoryEvent where
  timestamp : Nat
  blockNumber : Nat
  transactionHash : JsString
  logIndex : Nat
  details : HistoryDetails
  deriving DecidableEq

def Row.historyEvent {Content : Type} (row : Row Content) (details : HistoryDetails) :
    HistoryEvent :=
  ⟨row.timestamp,row.blockNumber,row.transactionHash,row.logIndex,details⟩

def transferEvent (row : Row InternalTransfer) : HistoryEvent :=
  row.historyEvent (.transfer row.content.fromNft row.content.toNft row.content.amountTbc
    row.content.payloadHash)

def paymentEvent (row : Row MerchantPayment) : HistoryEvent :=
  row.historyEvent (.payment row.content.payerNft row.content.merchantNft row.content.amountTbc
    row.content.payloadHash)

def stateChangeEvent (row : Row AccountStateChange) : HistoryEvent :=
  row.historyEvent (.stateChange row.content.oldState row.content.newState)

/-- What SQLite compares texts by: their UTF-8 bytes. -/
def sqlText (text : JsString) : List Nat := (Unicode.encodeUtf8 text).map UInt8.toNat

/-- `ORDER BY timestamp DESC, transaction_hash ASC, log_index ASC` -/
def HistoryEvent.rank (event : HistoryEvent) : ℕᵒᵈ ×ₗ (List ℕ ×ₗ ℕ) :=
  toLex (OrderDual.toDual event.timestamp,toLex (sqlText event.transactionHash,event.logIndex))

/-- The order of a history: the latest first, of one time by transaction and place in it. -/
def HistoryEvent.Before (event other : HistoryEvent) : Prop :=
  other.timestamp < event.timestamp ∨ event.timestamp = other.timestamp ∧
    (sqlText event.transactionHash < sqlText other.transactionHash ∨
      sqlText event.transactionHash = sqlText other.transactionHash ∧
        event.logIndex < other.logIndex)

theorem HistoryEvent.rank_lt {event other : HistoryEvent} :
    event.rank < other.rank ↔ event.Before other := by
  simp only [rank,Prod.Lex.toLex_lt_toLex,OrderDual.toDual_lt_toDual,OrderDual.toDual_inj,Before]

end Events

section Query

structure AccountHistoryCursor where
  timestamp : Number
  transactionHash : JsString
  logIndex : Number
  deriving DecidableEq

inductive AccountHistoryCursorInput where
  | number (before : Number)
  | cursor (before : AccountHistoryCursor)
  deriving DecidableEq

/-- A column that holds a whole number, as SQLite compares it with a bound number; what is no
number is bound as NULL, which compares with nothing. -/
def column (value : Nat) : Number := .finite value

/-- The filter that a cursor adds to each of the three queries. -/
def cursorFilter (before : Option AccountHistoryCursorInput) (event : HistoryEvent) : Bool :=
  match before with
  | some (.number before) => (column event.timestamp).lt before
  | some (.cursor before) =>
    (column event.timestamp).lt before.timestamp ||
      (column event.timestamp = before.timestamp &&
        sqlText before.transactionHash < sqlText event.transactionHash) ||
      (column event.timestamp = before.timestamp &&
        sqlText event.transactionHash = sqlText before.transactionHash &&
        before.logIndex.lt (column event.logIndex))
  | none => true

/-- `UNION ALL` of the three tables' rows of an account. -/
def Database.buildUnionSql (db : Database) (nftAddress : JsString)
    (filter : HistoryEvent → Bool) : List HistoryEvent :=
  ((db.internalTransfers.filter fun row =>
      row.content.fromNft = nftAddress || row.content.toNft = nftAddress).map
    transferEvent).filter filter ++
  ((db.merchantPayments.filter fun row =>
      row.content.payerNft = nftAddress || row.content.merchantNft = nftAddress).map
    paymentEvent).filter filter ++
  ((db.accountStateChanges.filter fun row => row.content.nftAddress = nftAddress).map
    stateChangeEvent).filter filter

/-- The events of an account. -/
def Database.historyOf (db : Database) (nftAddress : JsString) : List HistoryEvent :=
  db.buildUnionSql nftAddress fun _ => true

/-- What `LIMIT` and `OFFSET` take: a whole number of 64 bits. -/
def sqlInteger : Number → Option ℤ
  | .finite value =>
    if value.den = 1 ∧ -2^63 ≤ value.num ∧ value.num < 2^63 then some value.num else none
  | _ => none

/-- A negative limit is none, and a negative offset is zero. -/
def limitOffset (limit offset : ℤ) (rows : List HistoryEvent) : List HistoryEvent :=
  let rest := rows.drop offset.toNat
  if limit < 0 then rest else rest.take limit.toNat

structure AccountHistoryResult where
  events : List HistoryEvent
  totalCount : Nat
  deriving DecidableEq

/-- The two queries on a miss; none is the error of a limit or an offset that is no integer. -/
def Database.queryAccountHistory (db : Database) (nftAddress : JsString) (limit offset : Number)
    (before : Option AccountHistoryCursorInput) : Option AccountHistoryResult := do
  let limit ← sqlInteger limit
  let offset ← sqlInteger offset
  return {
    events := limitOffset limit offset
      (Keyset.orderBy HistoryEvent.rank (db.buildUnionSql nftAddress (cursorFilter before)))
    totalCount := (db.historyOf nftAddress).length }

theorem buildUnionSql_eq (db : Database) (nftAddress : JsString) (filter : HistoryEvent → Bool) :
    db.buildUnionSql nftAddress filter = (db.historyOf nftAddress).filter filter := by
  simp [Database.historyOf,Database.buildUnionSql,List.filter_append]

/-- The position of an event as a cursor. -/
def HistoryEvent.cursor (event : HistoryEvent) : AccountHistoryCursor :=
  ⟨column event.timestamp,event.transactionHash,column event.logIndex⟩

theorem column_lt {n m : Nat} : (column n).lt (column m) = decide (n < m) := by
  simp [column,Number.lt]

theorem column_inj {n m : Nat} : column n = column m ↔ n = m := by
  simp [column]

/-- The filter of an event's cursor selects what lies behind the event. -/
theorem cursorFilter_cursor (last : HistoryEvent) :
    cursorFilter (some (.cursor last.cursor)) =
      Keyset.isBehind HistoryEvent.rank (some last.rank) := by
  funext event
  have timestamp : last.cursor.timestamp = column last.timestamp := rfl
  have hash : last.cursor.transactionHash = last.transactionHash := rfl
  have logIndex : last.cursor.logIndex = column last.logIndex := rfl
  rw [Bool.eq_iff_iff]
  simp only [cursorFilter,timestamp,hash,logIndex,column_lt,column_inj,Bool.or_eq_true,
    Bool.and_eq_true,decide_eq_true_eq,Keyset.isBehind,Option.all_some,HistoryEvent.rank_lt,
    HistoryEvent.Before]
  rw [or_assoc,and_assoc,← and_or_left]
  simp only [eq_comm]

theorem cursorFilter_none : cursorFilter none = Keyset.isBehind HistoryEvent.rank none := rfl

end Query

section Cache

/-- A cursor as JSON has it, where a number that is not finite is null. -/
inductive KeyCursor where
  | null
  | number (before : ℚ)
  | cursor (timestamp : Option ℚ) (transactionHash : JsString) (logIndex : Option ℚ)
  deriving DecidableEq

/-- The list of arguments as JSON has it. -/
structure HistoryKey where
  nftAddress : JsString
  limit : Option ℚ
  offset : Option ℚ
  before : KeyCursor
  deriving DecidableEq

def jsonNumber : Number → Option ℚ
  | .finite value => some value
  | _ => none

def keyCursor : Option AccountHistoryCursorInput → KeyCursor
  | none => .null
  | some (.number before) =>
    match jsonNumber before with
    | some value => .number value
    | none => .null
  | some (.cursor before) =>
    .cursor (jsonNumber before.timestamp) before.transactionHash (jsonNumber before.logIndex)

/-- The key is the text that `JSON.stringify` makes of the arguments, here what the text says. -/
def accountHistoryCacheKey (nftAddress : JsString) (limit offset : Number)
    (before : Option AccountHistoryCursorInput) : HistoryKey :=
  ⟨nftAddress,jsonNumber limit,jsonNumber offset,keyCursor before⟩

structure AccountHistoryCache where
  nftAddress : JsString
  result : AccountHistoryResult
  cachedAt : ℤ
  deriving DecidableEq

abbrev HistoryCache := JsMap HistoryKey AccountHistoryCache

def cacheTtlMs : ℤ := 5000
def accountHistoryCacheMaxEntries : Nat := 1024

def setHistoryCacheEntry (cache : HistoryCache) (cacheKey : HistoryKey)
    (entry : AccountHistoryCache) : HistoryCache :=
  ((cache.delete cacheKey).set cacheKey entry).evict accountHistoryCacheMaxEntries

def invalidateHistoryCache (codec : AddressCodec) (nftAddress : JsString) (cache : HistoryCache) :
    HistoryCache :=
  cache.keep fun entry => entry.nftAddress ≠ normalizeTonAddress codec nftAddress

/-- A query that no entry answers. -/
def missAccountHistory (db : Database) (now : ℤ) (nftAddress : JsString) (limit offset : Number)
    (before : Option AccountHistoryCursorInput) (cache : HistoryCache) :
    Option AccountHistoryResult × HistoryCache :=
  match db.queryAccountHistory nftAddress limit offset before with
  | none => (none,cache)
  | some result => (some result,setHistoryCacheEntry cache
      (accountHistoryCacheKey nftAddress limit offset before) ⟨nftAddress,result,now⟩)

/-- An entry that is young enough answers the query and becomes the youngest. -/
def getAccountHistory (codec : AddressCodec) (db : Database) (now : ℤ) (nftAddress : JsString)
    (limit offset : Number) (before : Option AccountHistoryCursorInput) (cache : HistoryCache) :
    Option AccountHistoryResult × HistoryCache :=
  let nftAddress := normalizeTonAddress codec nftAddress
  let cacheKey := accountHistoryCacheKey nftAddress limit offset before
  match cache.get cacheKey with
  | some cached =>
    if now - cached.cachedAt < cacheTtlMs then
      (some cached.result,(cache.delete cacheKey).set cacheKey cached)
    else missAccountHistory db now nftAddress limit offset before (cache.delete cacheKey)
  | none => missAccountHistory db now nftAddress limit offset before cache

section Keys

/-- Whether the numbers of a cursor are finite, so that JSON does not make them null. -/
def Exact : Option AccountHistoryCursorInput → Prop
  | none => True
  | some (.number before) => jsonNumber before ≠ none
  | some (.cursor before) => jsonNumber before.timestamp ≠ none ∧ jsonNumber before.logIndex ≠ none

theorem jsonNumber_inj {value other : Number} (exact : jsonNumber value ≠ none)
    (same : jsonNumber value = jsonNumber other) : value = other := by
  cases value with
  | finite => cases other <;> simp_all [jsonNumber]
  | nan => exact absurd rfl exact
  | infinite => exact absurd rfl exact

theorem keyCursor_inj {before other : Option AccountHistoryCursorInput} (exact : Exact before)
    (exact' : Exact other) (same : keyCursor before = keyCursor other) : before = other := by
  cases before with
  | none =>
    cases other with
    | none => rfl
    | some other =>
      cases other with
      | number value => cases value <;> simp_all [keyCursor,Exact,jsonNumber]
      | cursor => simp [keyCursor] at same
  | some before =>
    cases before with
    | number value =>
      cases value with
      | nan => exact absurd rfl exact
      | infinite => exact absurd rfl exact
      | finite value =>
        cases other with
        | none => simp [keyCursor,jsonNumber] at same
        | some other =>
          cases other with
          | number value => cases value <;> simp_all [keyCursor,Exact,jsonNumber]
          | cursor => simp [keyCursor,jsonNumber] at same
    | cursor before =>
      cases other with
      | none => simp [keyCursor] at same
      | some other =>
        cases other with
        | number value => cases value <;> simp_all [keyCursor,Exact,jsonNumber]
        | cursor other =>
          obtain ⟨timestamp,hash,logIndex⟩ := KeyCursor.cursor.inj same
          obtain rfl : before = other := by
            cases before
            cases other
            exact congr (congr (congrArg _ (jsonNumber_inj exact.1 timestamp)) hash)
              (jsonNumber_inj exact.2 logIndex)
          rfl

theorem sqlInteger_finite {value : Number} {n : ℤ} (taken : sqlInteger value = some n) :
    jsonNumber value ≠ none := by
  cases value with
  | finite => simp [jsonNumber]
  | nan => contradiction
  | infinite => contradiction

theorem queryAccountHistory_finite {db : Database} {nftAddress : JsString} {limit offset : Number}
    {before : Option AccountHistoryCursorInput} {result : AccountHistoryResult}
    (answered : db.queryAccountHistory nftAddress limit offset before = some result) :
    jsonNumber limit ≠ none ∧ jsonNumber offset ≠ none := by
  unfold Database.queryAccountHistory at answered
  obtain ⟨limit',taken,answered⟩ := Option.bind_eq_some_iff.mp answered
  obtain ⟨offset',taken',-⟩ := Option.bind_eq_some_iff.mp answered
  exact ⟨sqlInteger_finite taken,sqlInteger_finite taken'⟩

/-- Queries with one key have one answer, unless JSON takes a number of a cursor for null. -/
theorem queryAccountHistory_key {db : Database} {nftAddress other : JsString}
    {limit offset limit' offset' : Number} {before before' : Option AccountHistoryCursorInput}
    {result : AccountHistoryResult} (exact : Exact before) (exact' : Exact before')
    (same : accountHistoryCacheKey nftAddress limit offset before =
      accountHistoryCacheKey other limit' offset' before')
    (answered : db.queryAccountHistory nftAddress limit offset before = some result) :
    db.queryAccountHistory other limit' offset' before' = some result := by
  obtain ⟨limited,begins⟩ := queryAccountHistory_finite answered
  obtain ⟨rfl,limits,offsets,cursors⟩ := HistoryKey.mk.inj same
  obtain rfl := jsonNumber_inj limited limits
  obtain rfl := jsonNumber_inj begins offsets
  obtain rfl := keyCursor_inj exact exact' cursors
  exact answered

end Keys

section Answers
variable (codec : AddressCodec) (db : Database) (now : ℤ) (nftAddress : JsString)
  (limit offset : Number) (before : Option AccountHistoryCursorInput) (cache : HistoryCache)

/-- An entry that would answer the query has the result of the database. -/
def Answers (entry : AccountHistoryCache) : Prop :=
  db.queryAccountHistory (normalizeTonAddress codec nftAddress) limit offset before =
    some entry.result

theorem missAccountHistory_result :
    (missAccountHistory db now nftAddress limit offset before cache).1 =
      db.queryAccountHistory nftAddress limit offset before := by
  unfold missAccountHistory
  split
  · exact Eq.symm ‹_›
  · exact Eq.symm ‹_›

theorem getAccountHistory_result
    (coherent : ∀ entry, cache.get (accountHistoryCacheKey (normalizeTonAddress codec nftAddress)
      limit offset before) = some entry → Answers codec db nftAddress limit offset before entry) :
    (getAccountHistory codec db now nftAddress limit offset before cache).1 =
      db.queryAccountHistory (normalizeTonAddress codec nftAddress) limit offset before := by
  unfold getAccountHistory
  simp only
  split
  · rename_i entry found
    split
    · exact (coherent entry found).symm
    · exact missAccountHistory_result ..
  · exact missAccountHistory_result ..

theorem get_setHistoryCacheEntry {key other : HistoryKey} {stored entry : AccountHistoryCache}
    (found : (setHistoryCacheEntry cache key stored).get other = some entry) :
    cache.get other = some entry ∨ other = key ∧ entry = stored := by
  have held := JsMap.get_evict _ _ _ _ found
  rw [JsMap.get_set] at held
  split at held
  · exact .inr ⟨‹_›,(Option.some.inj held).symm⟩
  · rw [JsMap.get_delete] at held
    split at held
    · contradiction
    · exact .inl held

theorem get_missAccountHistory {key : HistoryKey} {entry : AccountHistoryCache}
    (found : (missAccountHistory db now nftAddress limit offset before cache).2.get key =
      some entry) :
    cache.get key = some entry ∨ key = accountHistoryCacheKey nftAddress limit offset before ∧
      entry.nftAddress = nftAddress ∧
      db.queryAccountHistory nftAddress limit offset before = some entry.result := by
  unfold missAccountHistory at found
  split at found
  · exact .inl found
  · rename_i result answered
    rcases get_setHistoryCacheEntry _ found with held | ⟨same,rfl⟩
    · exact .inl held
    · exact .inr ⟨same,rfl,answered⟩

/-- What a query leaves in the cache was there or is what it has read itself. -/
theorem get_getAccountHistory {key : HistoryKey} {entry : AccountHistoryCache}
    (found : (getAccountHistory codec db now nftAddress limit offset before cache).2.get key =
      some entry) :
    cache.get key = some entry ∨
      key = accountHistoryCacheKey (normalizeTonAddress codec nftAddress) limit offset before ∧
      entry.nftAddress = normalizeTonAddress codec nftAddress ∧
      Answers codec db nftAddress limit offset before entry := by
  have deleted {other : HistoryKey} (held : (cache.delete other).get key = some entry) :
      cache.get key = some entry := by
    rw [JsMap.get_delete] at held
    split at held
    · contradiction
    · exact held
  unfold getAccountHistory at found
  simp only at found
  split at found
  · rename_i cached held
    split at found
    · rw [JsMap.get_set] at found
      split at found
      · rename_i same
        rw [← Option.some.inj found,same]
        exact .inl held
      · exact .inl (deleted found)
    · exact (get_missAccountHistory _ _ _ _ _ _ _ found).imp_left deleted
  · exact get_missAccountHistory _ _ _ _ _ _ _ found

end Answers

end Cache

end Tonbankcard.Indexer
