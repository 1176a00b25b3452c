import Tonbankcard.Base64Url
import Tonbankcard.IndexerHistory
import Tonbankcard.Json

/-! `GET /accounts/:nft_id/history`: the query parameters, the opaque cursor, the page that the
route answers with, and a client that follows the cursors. -/
namespace Tonbankcard.Indexer

open EcmaScript

section Parameters

/-- What the framework makes of a query parameter: nothing, a text, or a list of such. -/
inductive QueryValue where
  | absent
  | text (value : JsString)
  | list (items : List QueryValue)

/-- The value of a parameter, or the first of several. -/
def QueryValue.raw : QueryValue → Option JsString
  | .text value => some value
  | .list (.text value :: _) => some value
  | _ => none

def parseQueryString (value : QueryValue) : Option JsString :=
  value.raw.bind fun raw => if (trim raw).isEmpty then none else some (trim raw)

def parseQueryNumber (value : QueryValue) : Option ℚ :=
  (parseQueryString value).bind fun trimmed =>
    match stringToNumber trimmed with
    | .finite parsed => some parsed
    | _ => none

structure HistoryQuery where
  limit : QueryValue
  offset : QueryValue
  cursor : QueryValue

end Parameters

section Cursors

def encodeAccountHistoryCursor (nftAddress : JsString) (event : HistoryEvent) : JsString :=
  Base64Url.encode (objectText
    [(js "v",natDigits 1),(js "nftAddress",quote nftAddress),
      (js "timestamp",natDigits event.timestamp),
      (js "transactionHash",quote event.transactionHash),
      (js "logIndex",natDigits event.logIndex)])

/-- A cursor of this account with places that are whole numbers in the exact range. -/
def decodeAccountHistoryCursor (encoded nftAddress : JsString) : Option AccountHistoryCursor := do
  let cursor ← Json.parse (Base64Url.decode encoded)
  let .number version ← cursor.property (js "v") | none
  let .string address ← cursor.property (js "nftAddress") | none
  let .string transactionHash ← cursor.property (js "transactionHash") | none
  let .number timestamp ← cursor.property (js "timestamp") | none
  let .number logIndex ← cursor.property (js "logIndex") | none
  if version ≠ .finite 1 || address ≠ nftAddress || !timestamp.isSafeInteger ||
      !logIndex.isSafeInteger || timestamp.lt (.finite 0) || logIndex.lt (.finite 0) then none
  else some ⟨timestamp,transactionHash,logIndex⟩

end Cursors

section Pages

def accountHistoryDefaultLimit : ℤ := 100
def accountHistoryMinLimit : ℤ := 1
def accountHistoryMaxLimit : ℤ := 500

structure HistoryPagination where
  limit : ℤ
  offset : ℤ
  cursor : Option AccountHistoryCursor
  deriving DecidableEq

def wholeNumber (value : ℚ) : Option ℤ := if value.den = 1 then some value.num else none

def clampLimit (limit : ℤ) : ℤ :=
  min (max limit accountHistoryMinLimit) accountHistoryMaxLimit

/-- The bounds of a page with the cursor that was read. -/
def boundPagination (query : HistoryQuery) (cursor : Option AccountHistoryCursor) :
    Option HistoryPagination :=
  let parsedLimit := parseQueryNumber query.limit
  let parsedOffset := parseQueryNumber query.offset
  if parsedLimit.any (· < 0) || parsedOffset.any (· < 0) then none
  else some {
    limit := clampLimit ((parsedLimit.bind wholeNumber).getD accountHistoryDefaultLimit)
    offset := (parsedOffset.bind wholeNumber).getD 0
    cursor := cursor }

def parseAccountHistoryPagination (query : HistoryQuery) (nftAddress : JsString) :
    Option HistoryPagination :=
  match parseQueryString query.cursor with
  | none => boundPagination query none
  | some encoded =>
    match decodeAccountHistoryCursor encoded nftAddress with
    | none => none
    | some cursor => boundPagination query (some cursor)

structure PaginationInfo where
  limit : ℤ
  offset : ℤ
  hasMore : Bool
  nextCursor : Option JsString
  deriving DecidableEq

structure AccountHistoryResponse where
  nftAddress : JsString
  currentState : JsString
  currentBalance : JsString
  owner : Option JsString
  events : List HistoryEvent
  totalCount : Nat
  pagination : PaginationInfo
  deriving DecidableEq

inductive HistoryReply where
  | page (response : AccountHistoryResponse)
  | error (status : Nat) (code message : JsString)
  deriving DecidableEq

def accountStateToString (state : Nat) : JsString :=
  match state with
  | 0 => js "ACTIVE"
  | 1 => js "FROZEN"
  | 2 => js "COLLATERAL_LOCKED"
  | 3 => js "CLOSED"
  | _ => js "UNKNOWN"

def Database.getAccountSnapshot (codec : AddressCodec) (db : Database) (nftAddress : JsString) :
    Option AccountSnapshot :=
  db.accountSnapshots.get (normalizeTonAddress codec nftAddress)

/-- The page that is made of one event more than it shows. -/
def historyResponse (codec : AddressCodec) (db : Database) (nftAddress : JsString)
    (pagination : HistoryPagination) (history : AccountHistoryResult) : AccountHistoryResponse :=
  let snapshot := db.getAccountSnapshot codec nftAddress
  let events := history.events.take pagination.limit.toNat
  let hasMore : Bool := pagination.limit < history.events.length
  { nftAddress := nftAddress
    currentState := (snapshot.map fun row => accountStateToString row.currentState).getD
      (js "UNKNOWN")
    currentBalance := js "0"
    -- an owner without text counts as none
    owner := (snapshot.bind (·.currentOwner)).filter (!·.isEmpty)
    events := events
    totalCount := history.totalCount
    pagination := {
      limit := pagination.limit
      offset := pagination.offset
      hasMore := hasMore
      nextCursor := if hasMore then events.getLast?.map (encodeAccountHistoryCursor nftAddress)
        else none } }

/-- The handler of the route; the database refuses an offset beyond its integers. -/
def accountHistory (codec : AddressCodec) (db : Database) (now : ℤ) (nftAddress : JsString)
    (query : HistoryQuery) (cache : HistoryCache) : HistoryReply × HistoryCache :=
  match parseAccountHistoryPagination query nftAddress with
  | none => (.error 400 (js "API_INVALID_PARAMETER") (js "Invalid pagination parameters"),cache)
  | some pagination =>
    match getAccountHistory codec db now nftAddress (.finite (pagination.limit + 1))
        (.finite pagination.offset) (pagination.cursor.map .cursor) cache with
    | (none,cache) =>
      (.error 500 (js "API_REQUEST_FAILED") (js "Failed to fetch account history"),cache)
    | (some history,cache) => (.page (historyResponse codec db nftAddress pagination history),cache)

/-- A client that asks for a page and for every next one, at the instants of a clock; none where
a request is refused or fails, or where the fuel runs out. -/
def followCursors (codec : AddressCodec) (db : Database) (clock : Nat → ℤ)
    (nftAddress : JsString) : Nat → HistoryQuery → HistoryCache →
    Option (List AccountHistoryResponse)
  | 0, _, _ => none
  | fuel+1, query, cache =>
    match accountHistory codec db (clock fuel) nftAddress query cache with
    | (.error _ _ _,_) => none
    | (.page response,cache) =>
      match response.pagination.nextCursor with
      | none => some [response]
      | some cursor =>
        (followCursors codec db clock nftAddress fuel {query with cursor := .text cursor}
          cache).map (response :: ·)

/-- What earlier requests to the route have left in the cache. -/
def servedHistory (codec : AddressCodec) (db : Database)
    (requests : List (ℤ × JsString × HistoryQuery)) : HistoryCache :=
  requests.foldl (fun cache (now,nftAddress,query) =>
    (accountHistory codec db now nftAddress query cache).2) JsMap.empty

end Pages

end Tonbankcard.Indexer
