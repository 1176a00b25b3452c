import Tonbankcard.IndexerHistoryRoute

/-! Following the cursors of an account's history. A cursor stands for the event that it was made
of, a page begins behind it, and the pages make up the history as long as the places of events are
in the exact range of numbers. -/
namespace Tonbankcard.Indexer

open EcmaScript

section Cursors
variable (nftAddress : JsString) (event : HistoryEvent)

/-- What the cursor of an event says in JSON. -/
def cursorMembers : List (JsString × Json) :=
  [(js "v",.number (.ofRational (1 : Nat))),(js "nftAddress",.string nftAddress),
    (js "timestamp",.number (.ofRational event.timestamp)),
    (js "transactionHash",.string event.transactionHash),
    (js "logIndex",.number (.ofRational event.logIndex))]

theorem parse_encoded :
    Json.parse (Base64Url.decode (encodeAccountHistoryCursor nftAddress event)) =
      some (.object (cursorMembers nftAddress event)) := by
  unfold encodeAccountHistoryCursor
  rw [Base64Url.decode_encode]
  · refine Json.parse_objectText ?_ (List.cons_ne_nil _ _)
    refine .cons ⟨rfl,Json.reads_natDigits 1⟩ (.cons ⟨rfl,Json.reads_quote nftAddress⟩
      (.cons ⟨rfl,Json.reads_natDigits event.timestamp⟩
        (.cons ⟨rfl,Json.reads_quote event.transactionHash⟩
          (.cons ⟨rfl,Json.reads_natDigits event.logIndex⟩ .nil))))
  · have numeral (n : Nat) : isWellFormed (natDigits n) = true :=
      isWellFormed_ascii fun unit member =>
        (decimal_plain (n := n) (by simpa [decimal,show ¬(n : ℤ) < 0 by omega] using member)).2
    refine objectText_wellFormed fun field member => ?_
    simp only [List.mem_cons,List.not_mem_nil,or_false] at member
    rcases member with rfl | rfl | rfl | rfl | rfl
    · exact numeral 1
    · exact quote_wellFormed nftAddress
    · exact numeral event.timestamp
    · exact quote_wellFormed event.transactionHash
    · exact numeral event.logIndex

/-- Whether the place of an event is in the exact range of numbers. -/
def HistoryEvent.Safe (event : HistoryEvent) : Prop :=
  event.timestamp < 2^53 ∧ event.logIndex < 2^53

/-- What the decoder makes of an event's cursor. -/
theorem decode_cursor :
    decodeAccountHistoryCursor (encodeAccountHistoryCursor nftAddress event) nftAddress =
      if !(Number.ofRational event.timestamp).isSafeInteger ||
          !(Number.ofRational event.logIndex).isSafeInteger ||
          (Number.ofRational event.timestamp).lt (.finite 0) ||
          (Number.ofRational event.logIndex).lt (.finite 0) then none
      else some ⟨.ofRational event.timestamp,event.transactionHash,.ofRational event.logIndex⟩ := by
  have one : Number.ofRational (1 : Nat) = .finite 1 := by
    rw [Number.ofRational_nat (by decide),Nat.cast_one]
  have version : (Json.object (cursorMembers nftAddress event)).property (js "v") =
      some (.number (.ofRational (1 : Nat))) := rfl
  have address : (Json.object (cursorMembers nftAddress event)).property (js "nftAddress") =
      some (.string nftAddress) := rfl
  have hash : (Json.object (cursorMembers nftAddress event)).property (js "transactionHash") =
      some (.string event.transactionHash) := rfl
  have timestamp : (Json.object (cursorMembers nftAddress event)).property (js "timestamp") =
      some (.number (.ofRational event.timestamp)) := rfl
  have logIndex : (Json.object (cursorMembers nftAddress event)).property (js "logIndex") =
      some (.number (.ofRational event.logIndex)) := rfl
  unfold decodeAccountHistoryCursor
  simp only [parse_encoded,version,address,hash,timestamp,logIndex,one,Option.bind_eq_bind,
    Option.bind_some,ne_eq,not_true_eq_false,decide_false,Bool.false_or]

theorem decode_encoded (safe : event.Safe) :
    decodeAccountHistoryCursor (encodeAccountHistoryCursor nftAddress event) nftAddress =
      some event.cursor := by
  have nonneg (n : Nat) : (Number.finite n).lt (.finite 0) = false := by
    simp [Number.lt]
  rw [decode_cursor,Number.ofRational_nat safe.1,Number.ofRational_nat safe.2,
    Number.isSafeInteger_nat,Number.isSafeInteger_nat,nonneg,nonneg,decide_eq_true safe.1,
    decide_eq_true safe.2]
  rfl

/-- A cursor beyond the exact range is refused. -/
theorem decode_unsafe (beyond : 2^53 ≤ event.timestamp) :
    decodeAccountHistoryCursor (encodeAccountHistoryCursor nftAddress event) nftAddress =
      none := by
  rw [decode_cursor,Number.isSafeInteger_far beyond]
  rfl

theorem char64_solid {value : Nat} (small : value < 64) : isBlank (Ton.char64 value) = false := by
  revert value
  decide

theorem encoded_filled : encodeAccountHistoryCursor nftAddress event ≠ [] := by
  intro empty
  have parsed := parse_encoded nftAddress event
  rw [empty] at parsed
  contradiction

theorem parseQueryString_encoded :
    parseQueryString (.text (encodeAccountHistoryCursor nftAddress event)) =
      some (encodeAccountHistoryCursor nftAddress event) := by
  have solid : trim (encodeAccountHistoryCursor nftAddress event) =
      encodeAccountHistoryCursor nftAddress event := by
    refine trim_solid fun unit member => ?_
    obtain ⟨value,small,rfl⟩ := Base64Url.encode_unit member
    exact char64_solid small
  rw [parseQueryString,QueryValue.raw,Option.bind_some,solid,if_neg (by
    simpa using encoded_filled nftAddress event)]

theorem isSafeInteger_exact {value : Number} (safe : value.isSafeInteger = true) :
    jsonNumber value ≠ none := by
  cases value with
  | finite => simp [jsonNumber]
  | nan => contradiction
  | infinite => contradiction

omit event in
/-- A cursor that is read has finite numbers. -/
theorem decode_exact {encoded : JsString} {cursor : AccountHistoryCursor}
    (read : decodeAccountHistoryCursor encoded nftAddress = some cursor) :
    Exact (some (.cursor cursor)) := by
  unfold decodeAccountHistoryCursor at read
  obtain ⟨parsed,-,read⟩ := Option.bind_eq_some_iff.mp read
  iterate 5
    obtain ⟨value,-,read⟩ := Option.bind_eq_some_iff.mp read
    split at read <;> try contradiction
  split at read
  · contradiction
  rename_i refused
  obtain rfl := Option.some.inj read
  simp only [Bool.or_eq_true,not_or,Bool.not_eq_true',Bool.not_eq_false] at refused
  exact ⟨isSafeInteger_exact refused.1.1.1.2,isSafeInteger_exact refused.1.1.2⟩

end Cursors

section Requests
variable (codec : AddressCodec) (db : Database)

/-- Every entry holds what the database answers to the query it was stored for. -/
def Coherent (cache : HistoryCache) : Prop :=
  ∀ key entry, cache.get key = some entry → ∃ limit offset before, Exact before ∧
    key = accountHistoryCacheKey entry.nftAddress limit offset before ∧
    db.queryAccountHistory entry.nftAddress limit offset before = some entry.result

variable {db} {cache : HistoryCache} (coherent : Coherent db cache) (now : ℤ)
  (nftAddress : JsString)
include coherent

/-- A coherent cache does not show in an answer. -/
theorem Coherent.result (limit offset : Number) {before : Option AccountHistoryCursorInput}
    (exact : Exact before) :
    (Indexer.getAccountHistory codec db now nftAddress limit offset before cache).1 =
      db.queryAccountHistory (normalizeTonAddress codec nftAddress) limit offset before := by
  refine getAccountHistory_result _ _ _ _ _ _ _ _ fun entry found => ?_
  obtain ⟨limit',offset',before',exact',same,answered⟩ := coherent _ entry found
  exact queryAccountHistory_key exact' exact same.symm answered

theorem Coherent.getAccountHistory (limit offset : Number)
    {before : Option AccountHistoryCursorInput} (exact : Exact before) :
    Coherent db (Indexer.getAccountHistory codec db now nftAddress limit offset before cache).2 := by
  intro key entry found
  rcases get_getAccountHistory _ _ _ _ _ _ _ _ found with held | ⟨rfl,account,answered⟩
  · exact coherent key entry held
  · exact ⟨limit,offset,before,exact,by rw [account],by rw [account]; exact answered⟩

omit coherent in
theorem boundPagination_cursor {query : HistoryQuery} {cursor : Option AccountHistoryCursor}
    {pagination : HistoryPagination} (bound : boundPagination query cursor = some pagination) :
    pagination.cursor = cursor := by
  unfold boundPagination at bound
  simp only at bound
  split at bound
  · contradiction
  · rw [← Option.some.inj bound]

omit coherent in
theorem parse_exact {query : HistoryQuery} {pagination : HistoryPagination}
    (parsed : parseAccountHistoryPagination query nftAddress = some pagination) :
    Exact (pagination.cursor.map .cursor) := by
  unfold parseAccountHistoryPagination at parsed
  split at parsed
  · rw [boundPagination_cursor parsed]
    trivial
  · split at parsed
    · contradiction
    · rename_i cursor read
      rw [boundPagination_cursor parsed]
      exact decode_exact nftAddress read

/-- A request leaves the cache coherent. -/
theorem Coherent.accountHistory (query : HistoryQuery) :
    Coherent db (Indexer.accountHistory codec db now nftAddress query cache).2 := by
  unfold Indexer.accountHistory
  split
  · exact coherent
  · rename_i pagination parsed
    have kept := coherent.getAccountHistory codec now nftAddress (.finite (pagination.limit + 1))
      (.finite pagination.offset) (parse_exact nftAddress parsed)
    split
    · rename_i answered
      rw [answered] at kept
      exact kept
    · rename_i answered
      rw [answered] at kept
      exact kept

omit coherent nftAddress now in
theorem coherent_servedHistory (requests : List (ℤ × JsString × HistoryQuery)) :
    Coherent db (servedHistory codec db requests) := by
  suffices every : ∀ cache, Coherent db cache → Coherent db (requests.foldl
      (fun cache request =>
        (Indexer.accountHistory codec db request.1 request.2.1 request.2.2 cache).2) cache) from
    every JsMap.empty fun key entry found => by contradiction
  induction requests with
  | nil => exact fun _ => id
  | cons request rest ih => exact fun cache coherent => ih _ (coherent.accountHistory _ _ _ _)

end Requests

section Pages

/-- The events of the three tables. -/
def Database.historyEvents (db : Database) : List HistoryEvent :=
  db.internalTransfers.map transferEvent ++ db.merchantPayments.map paymentEvent ++
    db.accountStateChanges.map stateChangeEvent

/-- `(transaction_hash, log_index)` identifies an event, whichever table it is in. -/
def Database.Identified (db : Database) : Prop :=
  (db.historyEvents.map fun event => (sqlText event.transactionHash,event.logIndex)).Nodup

/-- Every event has a place in the exact range of numbers. -/
def Database.SafePlaces (db : Database) : Prop := ∀ event ∈ db.historyEvents, event.Safe

instance (db : Database) : Decidable db.Identified := inferInstanceAs (Decidable (List.Nodup _))

instance (db : Database) : Decidable db.SafePlaces :=
  inferInstanceAs (Decidable (∀ event ∈ db.historyEvents, _ ∧ _))

/-- What is left of a history behind an event, or all of it. -/
def Database.historyBehind (db : Database) (nftAddress : JsString)
    (position : Option HistoryEvent) : List HistoryEvent :=
  Keyset.orderBy HistoryEvent.rank ((db.historyOf nftAddress).filter
    (Keyset.isBehind HistoryEvent.rank (position.map HistoryEvent.rank)))

variable {db : Database} (nftAddress : JsString)

theorem historyOf_sublist : (db.historyOf nftAddress).Sublist db.historyEvents := by
  unfold Database.historyOf Database.buildUnionSql Database.historyEvents
  refine List.Sublist.append (List.Sublist.append ?_ ?_) ?_
  all_goals exact List.filter_sublist.trans (List.filter_sublist.map _)

theorem historyOf_distinct (identified : db.Identified) :
    ((db.historyOf nftAddress).map HistoryEvent.rank).Nodup := by
  have keys := List.Nodup.sublist ((historyOf_sublist nftAddress).map _) identified
  refine List.Nodup.of_map (fun rank => ofLex (ofLex rank).2) ?_
  rw [List.map_map]
  exact keys

theorem historyBehind_perm :
    (db.historyBehind nftAddress none).Perm (db.historyOf nftAddress) := by
  have all : (db.historyOf nftAddress).filter (Keyset.isBehind HistoryEvent.rank none) =
      db.historyOf nftAddress := List.filter_eq_self.mpr fun _ _ => rfl
  have sorted := Keyset.orderBy_perm HistoryEvent.rank ((db.historyOf nftAddress).filter
    (Keyset.isBehind HistoryEvent.rank none))
  rw [all] at sorted
  unfold Database.historyBehind
  rw [Option.map_none,all]
  exact sorted

theorem historyBehind_subset {position : Option HistoryEvent} {event : HistoryEvent}
    (member : event ∈ db.historyBehind nftAddress position) : event ∈ db.historyEvents :=
  (historyOf_sublist nftAddress).subset
    (List.mem_filter.mp ((Keyset.orderBy_perm _ _).subset member)).1

theorem historyBehind_sorted (identified : db.Identified) (position : Option HistoryEvent) :
    (db.historyBehind nftAddress position).Pairwise HistoryEvent.Before := by
  have distinct := historyOf_distinct nftAddress identified
  unfold Database.historyBehind
  rw [Keyset.orderBy_filter distinct]
  exact ((Keyset.orderBy_strict distinct).filter _).imp HistoryEvent.rank_lt.mp

theorem sqlInteger_int {n : ℤ} (low : -2^63 ≤ n) (high : n < 2^63) :
    sqlInteger (.finite n) = some n := by
  unfold sqlInteger
  simp only [Rat.den_intCast,Rat.num_intCast]
  rw [if_pos ⟨trivial,low,high⟩]

theorem clampLimit_bounds (limit : ℤ) : 1 ≤ clampLimit limit ∧ clampLimit limit ≤ 500 := by
  unfold clampLimit accountHistoryMinLimit accountHistoryMaxLimit
  omega

/-- The query of a page reads one event more than the page shows. -/
theorem queryAccountHistory_page {limit : ℤ} (least : 1 ≤ limit) (most : limit ≤ 500)
    (position : Option HistoryEvent) :
    db.queryAccountHistory nftAddress (.finite (limit + 1)) (.finite (0 : ℤ))
        ((position.map HistoryEvent.cursor).map .cursor) =
      some ⟨(db.historyBehind nftAddress position).take (limit.toNat + 1),
        (db.historyOf nftAddress).length⟩ := by
  have filter : cursorFilter ((position.map HistoryEvent.cursor).map .cursor) =
      Keyset.isBehind HistoryEvent.rank (position.map HistoryEvent.rank) := by
    cases position with
    | none => exact cursorFilter_none
    | some last => exact cursorFilter_cursor last
  have one : ((limit : ℚ) + 1) = ((limit + 1 : ℤ) : ℚ) := by push_cast; rfl
  have next : (limit + 1).toNat = limit.toNat + 1 := by omega
  unfold Database.queryAccountHistory
  rw [one,sqlInteger_int (by omega) (by omega),sqlInteger_int (by decide) (by decide),
    buildUnionSql_eq,filter]
  simp only [Option.bind_eq_bind,Option.bind_some,limitOffset,Int.toNat_zero,List.drop_zero,
    show ¬limit + 1 < 0 by omega,if_false,next]
  rfl

theorem parse_limit {query : HistoryQuery} {pagination : HistoryPagination}
    (parsed : parseAccountHistoryPagination query nftAddress = some pagination) :
    1 ≤ pagination.limit ∧ pagination.limit ≤ 500 := by
  have bounds {cursor : Option AccountHistoryCursor}
      (bound : boundPagination query cursor = some pagination) :
      1 ≤ pagination.limit ∧ pagination.limit ≤ 500 := by
    unfold boundPagination at bound
    simp only at bound
    split at bound
    · contradiction
    · rw [← Option.some.inj bound]
      exact clampLimit_bounds _
  unfold parseAccountHistoryPagination at parsed
  split at parsed
  · exact bounds parsed
  · split at parsed
    · contradiction
    · exact bounds parsed

/-- The request with the cursor of an event has the bounds of the first one. -/
theorem parse_next {query : HistoryQuery} {pagination : HistoryPagination} {last : HistoryEvent}
    (parsed : parseAccountHistoryPagination query nftAddress = some pagination)
    (safe : last.Safe) :
    parseAccountHistoryPagination
        {query with cursor := .text (encodeAccountHistoryCursor nftAddress last)} nftAddress =
      some {pagination with cursor := some last.cursor} := by
  have bounds {cursor : Option AccountHistoryCursor}
      (bound : boundPagination query cursor = some pagination) :
      boundPagination query (some last.cursor) =
        some {pagination with cursor := some last.cursor} := by
    unfold boundPagination at bound ⊢
    simp only at bound ⊢
    split at bound
    · contradiction
    · rw [if_neg ‹_›,← Option.some.inj bound]
  unfold parseAccountHistoryPagination at parsed ⊢
  simp only [parseQueryString_encoded,decode_encoded nftAddress last safe]
  split at parsed
  · exact bounds parsed
  · split at parsed
    · contradiction
    · exact bounds parsed

section Requests
variable (codec : AddressCodec) {cache : HistoryCache} (coherent : Coherent db cache) (now : ℤ)
  {query : HistoryQuery} {pagination : HistoryPagination} {position : Option HistoryEvent}
  (parsed : parseAccountHistoryPagination query nftAddress = some pagination)
  (start : pagination.offset = 0) (cursor : pagination.cursor = position.map HistoryEvent.cursor)
include coherent parsed start cursor

/-- A page shows the events that come next, says whether more remain and points behind its last
one. -/
theorem accountHistory_page :
    let account := normalizeTonAddress codec nftAddress
    let rest := db.historyBehind account position
    let limit := pagination.limit.toNat
    ∃ response, (accountHistory codec db now nftAddress query cache).1 = .page response ∧
      response.events = rest.take limit ∧ response.totalCount = (db.historyOf account).length ∧
      response.pagination.hasMore = decide (limit < rest.length) ∧
      response.pagination.nextCursor = if limit < rest.length then
        (rest.take limit).getLast?.map (encodeAccountHistoryCursor nftAddress) else none := by
  intro account rest limit
  obtain ⟨least,most⟩ := parse_limit nftAddress parsed
  have answered := coherent.result codec now nftAddress (.finite (pagination.limit + 1))
    (.finite pagination.offset) (parse_exact nftAddress parsed)
  rw [start,cursor,queryAccountHistory_page account least most position] at answered
  have shown : (rest.take (limit + 1)).take limit = rest.take limit := by
    rw [List.take_take,Nat.min_eq_left (Nat.le_succ limit)]
  have more : pagination.limit < ((rest.take (limit + 1)).length : ℤ) ↔ limit < rest.length := by
    rw [List.length_take]
    omega
  refine ⟨historyResponse codec db nftAddress pagination
    ⟨rest.take (limit + 1),(db.historyOf account).length⟩,?_,shown,rfl,?_,?_⟩
  · unfold accountHistory
    rw [parsed]
    simp only [start,cursor]
    split
    · rename_i failed
      rw [failed] at answered
      contradiction
    · rename_i found
      rw [found] at answered
      rw [Option.some.inj answered]
  · exact decide_eq_decide.mpr more
  · simp only [historyResponse,decide_eq_true_eq]
    exact if_congr more (by rw [shown]) rfl

end Requests

/-- What the pages of a walk have to be for the events that it has before it. -/
structure HistoryWalk (total : Nat) (rest : List HistoryEvent)
    (responses : List AccountHistoryResponse) : Prop where
  events : responses.flatMap (·.events) = rest
  counts : ∀ response ∈ responses, response.totalCount = total
  more : ∀ front response behind, responses = front ++ response :: behind →
    (response.pagination.hasMore = true ↔ behind.flatMap (·.events) ≠ [])

theorem HistoryWalk.last {response : AccountHistoryResponse}
    (done : response.pagination.hasMore = false) :
    HistoryWalk response.totalCount response.events [response] where
  events := by simp
  counts := by simp
  more := by
    intro front other behind same
    obtain ⟨rfl,rfl,rfl⟩ : front = [] ∧ other = response ∧ behind = [] := by
      cases front with
      | nil => simp_all
      | cons => simp at same
    simp [done]

theorem HistoryWalk.next {response : AccountHistoryResponse} {rest : List HistoryEvent}
    {responses : List AccountHistoryResponse}
    (walk : HistoryWalk response.totalCount rest responses) (remains : rest ≠ [])
    (more : response.pagination.hasMore = true) :
    HistoryWalk response.totalCount (response.events ++ rest) (response :: responses) where
  events := by rw [List.flatMap_cons,walk.events]
  counts := List.forall_mem_cons.mpr ⟨rfl,walk.counts⟩
  more := by
    intro front other behind same
    cases front with
    | nil =>
      obtain ⟨rfl,rfl⟩ := List.cons.inj same
      rw [walk.events]
      exact iff_of_true more remains
    | cons first front => exact walk.more front other behind (List.cons.inj same).2

/-- Behind the last event of a page stands what the page has left. -/
theorem historyBehind_next (identified : db.Identified) {position : Option HistoryEvent}
    {limit : Nat} {last : HistoryEvent}
    (ends : ((db.historyBehind nftAddress position).take limit).getLast? = some last) :
    db.historyBehind nftAddress (some last) =
      (db.historyBehind nftAddress position).drop limit :=
  Keyset.behind_page (historyOf_distinct nftAddress identified) ends

/-- From every position the cursors lead through all that is left, by induction on the fuel: a
page shows an event at least. -/
theorem followCursors_behind (codec : AddressCodec) (identified : db.Identified)
    (safe : db.SafePlaces) (clock : Nat → ℤ) (fuel : Nat) {cache : HistoryCache}
    (coherent : Coherent db cache) {query : HistoryQuery} {pagination : HistoryPagination}
    {position : Option HistoryEvent}
    (parsed : parseAccountHistoryPagination query nftAddress = some pagination)
    (start : pagination.offset = 0) (cursor : pagination.cursor = position.map HistoryEvent.cursor)
    (enough : (db.historyBehind (normalizeTonAddress codec nftAddress) position).length < fuel) :
    ∃ responses, followCursors codec db clock nftAddress fuel query cache = some responses ∧
      HistoryWalk (db.historyOf (normalizeTonAddress codec nftAddress)).length
        (db.historyBehind (normalizeTonAddress codec nftAddress) position) responses := by
  induction fuel generalizing cache query pagination position with
  | zero => contradiction
  | succ fuel ih =>
    obtain ⟨response,page,events,count,more,next⟩ :=
      accountHistory_page nftAddress codec coherent (clock fuel) parsed start cursor
    have kept := coherent.accountHistory codec (clock fuel) nftAddress query
    have least := (parse_limit nftAddress parsed).1
    unfold followCursors
    generalize request : accountHistory codec db (clock fuel) nftAddress query cache = reply
    obtain ⟨reply,cache⟩ := reply
    rw [request] at page kept
    subst page
    rw [← count]
    by_cases remains : pagination.limit.toNat <
        (db.historyBehind (normalizeTonAddress codec nftAddress) position).length
    · obtain ⟨last,ends⟩ : ∃ last, ((db.historyBehind (normalizeTonAddress codec nftAddress)
          position).take pagination.limit.toNat).getLast? = some last :=
        Option.isSome_iff_exists.mp (List.getLast?_isSome.mpr
          (List.ne_nil_of_length_pos (by rw [List.length_take]; omega)))
      have member := historyBehind_subset _
        (List.mem_of_mem_take (List.mem_of_getLast? ends))
      have left := historyBehind_next _ identified ends
      obtain ⟨responses,followed,walk⟩ := ih kept (parse_next nftAddress parsed (safe last member))
        start rfl (by rw [left,List.length_drop]; omega)
      rw [if_pos remains,ends] at next
      simp only [next,Option.map_some,followed]
      refine ⟨_,rfl,?_⟩
      rw [← count,left] at walk
      rw [← List.take_append_drop pagination.limit.toNat (db.historyBehind _ position),← events]
      refine walk.next (mt List.drop_eq_nil_iff.mp (by omega)) ?_
      rw [more,decide_eq_true remains]
    · rw [if_neg remains] at next
      simp only [next]
      refine ⟨_,rfl,?_⟩
      rw [List.take_of_length_le (by omega)] at events
      rw [← events]
      exact .last (by rw [more,decide_eq_false remains])

/-- Behind a page that ends beyond the exact range no request is accepted. -/
theorem followCursors_unsafe (codec : AddressCodec) (clock : Nat → ℤ) (fuel : Nat)
    {cache : HistoryCache} (coherent : Coherent db cache) {query : HistoryQuery}
    {pagination : HistoryPagination} {position : Option HistoryEvent} {last : HistoryEvent}
    (parsed : parseAccountHistoryPagination query nftAddress = some pagination)
    (start : pagination.offset = 0) (cursor : pagination.cursor = position.map HistoryEvent.cursor)
    (remains : pagination.limit.toNat <
      (db.historyBehind (normalizeTonAddress codec nftAddress) position).length)
    (ends : ((db.historyBehind (normalizeTonAddress codec nftAddress) position).take
      pagination.limit.toNat).getLast? = some last) (beyond : 2^53 ≤ last.timestamp) :
    followCursors codec db clock nftAddress fuel query cache = none := by
  cases fuel with
  | zero => rfl
  | succ fuel =>
    obtain ⟨response,page,-,-,-,next⟩ :=
      accountHistory_page nftAddress codec coherent (clock fuel) parsed start cursor
    rw [if_pos remains,ends,Option.map_some] at next
    unfold followCursors
    generalize accountHistory codec db (clock fuel) nftAddress query cache = reply at page
    obtain ⟨reply,cache⟩ := reply
    subst page
    simp only [next,Option.map_eq_none_iff]
    cases fuel with
    | zero => rfl
    | succ fuel =>
      unfold followCursors accountHistory parseAccountHistoryPagination
      simp only [parseQueryString_encoded, decode_unsafe nftAddress last beyond]

/-- The first page and the pages that the cursors lead to, whatever the cache holds of earlier
requests: every event of the account once, in order, the same count on all pages, and more to
come where it is said so. -/
theorem history_followed (codec : AddressCodec) (db : Database) (identified : db.Identified)
    (safe : db.SafePlaces) (earlier : List (ℤ × JsString × HistoryQuery)) (clock : Nat → ℤ)
    (nftAddress : JsString) (query : HistoryQuery) (pagination : HistoryPagination)
    (parsed : parseAccountHistoryPagination query nftAddress = some pagination)
    (first : pagination.cursor = none) (start : pagination.offset = 0) :
    let history := db.historyOf (normalizeTonAddress codec nftAddress)
    ∃ responses, followCursors codec db clock nftAddress (history.length + 1) query
        (servedHistory codec db earlier) = some responses ∧
      (responses.flatMap (·.events)).Perm history ∧
      (responses.flatMap (·.events)).Pairwise HistoryEvent.Before ∧
      (∀ response ∈ responses, response.totalCount = history.length) ∧
      ∀ front response behind, responses = front ++ response :: behind →
        (response.pagination.hasMore = true ↔ behind.flatMap (·.events) ≠ []) := by
  intro history
  have all : (db.historyBehind (normalizeTonAddress codec nftAddress) none).Perm history :=
    historyBehind_perm (normalizeTonAddress codec nftAddress)
  obtain ⟨responses,followed,walk⟩ := followCursors_behind nftAddress codec identified safe clock
    (history.length + 1) (coherent_servedHistory codec earlier) parsed start
    (show pagination.cursor = (none : Option HistoryEvent).map HistoryEvent.cursor from first)
    (by rw [all.length_eq]; exact Nat.lt_succ_self _)
  refine ⟨responses,followed,by rw [walk.events]; exact all,?_,walk.counts,walk.more⟩
  rw [walk.events]
  exact historyBehind_sorted _ identified none

section Samples

/-- Two transfers of one account in one block. -/
def twoTransfers (timestamp : Nat) : Database :=
  {Database.empty with internalTransfers :=
    [⟨1,js "y",0,timestamp,js "a",js "b",js "5",js "p"⟩,
      ⟨1,js "x",3,timestamp,js "c",js "a",js "7",js "q"⟩]}

def onePerPage : HistoryQuery := ⟨.text (js "1"),.absent,.absent⟩

/-- Both transfers are shown, one on a page. -/
theorem history_followed_twoTransfers :
    let history := (twoTransfers 1000).historyOf (js "a")
    history.length = 2 ∧ ∃ responses, followCursors .friendly (twoTransfers 1000) (fun _ => 0)
        (js "a") 3 onePerPage (servedHistory .friendly (twoTransfers 1000) []) = some responses ∧
      (responses.flatMap (·.events)).Perm history ∧
      (responses.flatMap (·.events)).Pairwise HistoryEvent.Before ∧
      (∀ response ∈ responses, response.totalCount = history.length) ∧
      ∀ front response behind, responses = front ++ response :: behind →
        (response.pagination.hasMore = true ↔ behind.flatMap (·.events) ≠ []) :=
  ⟨by decide +kernel,history_followed .friendly (twoTransfers 1000) (by decide +kernel)
    (by decide +kernel) [] (fun _ => 0) (js "a") onePerPage ⟨1,0,none⟩ (by decide +kernel) rfl rfl⟩

/-- From 2^53 on a timestamp is not read back: the cursor of the first page is refused, and the
second transfer is never shown. -/
theorem late_history_refused :
    (twoTransfers (2^53)).Identified ∧
      parseAccountHistoryPagination onePerPage (js "a") = some ⟨1,0,none⟩ ∧
      ∀ fuel, followCursors .friendly (twoTransfers (2^53)) (fun _ => 0) (js "a") fuel onePerPage
        JsMap.empty = none := by
  have parsed : parseAccountHistoryPagination onePerPage (js "a") = some ⟨1,0,none⟩ := by
    decide +kernel
  refine ⟨by decide +kernel,parsed,fun fuel => ?_⟩
  have coherent : Coherent (twoTransfers (2^53)) JsMap.empty :=
    coherent_servedHistory .friendly []
  have remains : 1 < ((twoTransfers (2^53)).historyBehind (js "a") none).length := by
    decide +kernel
  have ends : (((twoTransfers (2^53)).historyBehind (js "a") none).take 1).getLast? =
      some ⟨2^53,1,js "x",3,.transfer (js "c") (js "a") (js "7") (js "q")⟩ := by
    decide +kernel
  exact followCursors_unsafe (js "a") .friendly (fun _ => 0) fuel coherent parsed rfl
    (show none = (none : Option HistoryEvent).map HistoryEvent.cursor from rfl) remains ends le_rfl

end Samples

end Pages

end Tonbankcard.Indexer
