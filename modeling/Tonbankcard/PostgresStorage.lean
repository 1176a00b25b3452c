import Mathlib.Data.List.Perm.Basic
import Mathlib.Tactic.Ring
import Tonbankcard.InvoiceServicePermanence
import Tonbankcard.MerchantApiPayload
import Tonbankcard.Unicode

/-! The invoice store of production, statements on a table of PostgreSQL. Whatever it is asked for,
it answers as the store in memory does, up to the order of rows and of metadata and to the writing
of dates, and nothing that the service decides depends on these. -/
namespace Tonbankcard.MerchantApi.PostgresStorage

open EcmaScript Unicode

section Columns

/-- What the store relies on in PostgreSQL. A timestamp has microseconds, none where its text is
refused, and an object in a `JSONB` column keeps its members but not their order. -/
structure Database where
  timestamptz : JsString → Option ℤ
  jsonb : InvoiceMetadata → InvoiceMetadata
  jsonb_get : ∀ metadata key, (jsonb metadata).get key = metadata.get key

/-- A text as the server receives it; it stores no NUL. -/
def textColumn (value : JsString) : Option JsString :=
  let received := decodeUtf8 (encodeUtf8 value)
  if 0 ∈ received then none else some received

/-- A text that is too long is cut where it ends with spaces, and refused elsewhere. -/
def varchar (length : Nat) (value : JsString) : Option JsString :=
  (textColumn value).bind fun received =>
    let points := codePoints received
    if points.length ≤ length then some received
    else if (points.drop length).all (· = 32) then
      some (utf16 ((points.take length).map Char.ofNat))
    else none

/-- `JSON.stringify` escapes NULs and unpaired surrogates, and `JSONB` takes neither escape. -/
def jsonText (text : JsString) : Bool := isWellFormed text && text.all (· ≠ 0)

def jsonField (field : JsString × MetadataValue) : Bool :=
  jsonText field.1 &&
    match field.2 with
    | .string text => jsonText text
    | .number _ | .boolean _ => true

def jsonSettlement (settlement : Settlement) : Bool :=
  [settlement.payerNft,settlement.merchantNft,settlement.amountTbc,settlement.txHash,
    settlement.timestamp.text,settlement.payloadHash,settlement.verificationUrl].all jsonText

/-- A column of an object that may be missing. -/
def jsonColumn (takes : α → Bool) (stored : α → α) : Option α → Option (Option α)
  | none => some none
  | some value => if takes value then some (some (stored value)) else none

variable (db : Database)

def metadataColumn : Option InvoiceMetadata → Option (Option InvoiceMetadata) :=
  jsonColumn (fun metadata => metadata.entries.all jsonField) db.jsonb

def settlementColumn : Option Settlement → Option (Option Settlement) :=
  jsonColumn jsonSettlement id

end Columns

section Statements

structure Row where
  merchantNft : JsString
  amountTbc : JsString
  currency : JsString
  status : InvoiceStatus
  metadata : Option InvoiceMetadata
  settlement : Option Settlement
  createdAt : ℤ
  expiresAt : ℤ
  paymentUrl : JsString

/-- The table `invoices` by its primary key. -/
abbrev Table := JsMap JsString Row

variable (host : Host) (db : Database)

/-- A `TIMESTAMPTZ` comes back as a `Date`, which has milliseconds. -/
def toIsoString (value : ℤ) : DateString := ⟨host.isoText (value / 1000),value / 1000⟩

def rowToInvoice (invoiceId : JsString) (row : Row) : Invoice :=
  { invoiceId
    merchantNft := row.merchantNft
    amountTbc := row.amountTbc
    currency := js "TBC"
    metadata := row.metadata
    status := row.status
    createdAt := toIsoString host row.createdAt
    expiresAt := toIsoString host row.expiresAt
    paymentUrl := row.paymentUrl
    settlement := row.settlement }

def insertedRow (invoice : Invoice) : Option Row := do
  let merchantNft ← varchar 128 invoice.merchantNft
  let amountTbc ← varchar 40 invoice.amountTbc
  let currency ← varchar 8 invoice.currency
  let metadata ← metadataColumn db invoice.metadata
  let settlement ← settlementColumn invoice.settlement
  let createdAt ← db.timestamptz invoice.createdAt.text
  let expiresAt ← db.timestamptz invoice.expiresAt.text
  let paymentUrl ← textColumn invoice.paymentUrl
  return ⟨merchantNft,amountTbc,currency,invoice.status,metadata,settlement,createdAt,expiresAt,
    paymentUrl⟩

/-- An invoice of a stored id changes three columns of its row. -/
def set (invoice : Invoice) (table : Table) : Option Table := do
  let invoiceId ← varchar 32 invoice.invoiceId
  let row ← insertedRow db invoice
  match table.get invoiceId with
  | none => return table.set invoiceId row
  | some stored =>
    return table.set invoiceId
      {stored with status := row.status,metadata := row.metadata,settlement := row.settlement}

/-- The compare-and-set of the database from `pending`, at its own time. -/
def transition (now : ℤ) (invoiceId : JsString) (target : InvoiceStatus)
    (patch : Option Settlement) (table : Table) : Option (Table × Option Invoice) := do
  let invoiceId ← textColumn invoiceId
  let patch ← settlementColumn patch
  match table.get invoiceId with
  | none => return (table,none)
  | some row =>
    if row.status = .pending ∧ (target ≠ .expired ∨ row.expiresAt ≤ now) then
      let row := {row with status := target,settlement := patch.or row.settlement}
      return (table.set invoiceId row,some (rowToInvoice host invoiceId row))
    else return (table,none)

def get (invoiceId : JsString) (table : Table) : Option (Option Invoice) := do
  let invoiceId ← textColumn invoiceId
  return (table.get invoiceId).map (rowToInvoice host invoiceId)

def delete (invoiceId : JsString) (table : Table) : Option Table := do
  let invoiceId ← textColumn invoiceId
  return table.delete invoiceId

end Statements

section Stores

/-- What the service asks of its store. -/
inductive Query where
  | set (invoice : Invoice)
  | get (invoiceId : JsString)
  | transition (invoiceId : JsString) (target : InvoiceStatus) (patch : Option Settlement)
  | delete (invoiceId : JsString)
  | entries

inductive Answer where
  | done
  | invoice (invoice : Option Invoice)
  | entries (invoices : List (JsString × Invoice))
  | failed

/-- A query at a time of the database, in microseconds, with the order in which a scan finds its
rows. -/
structure Call where
  query : Query
  now : ℤ
  scan : List (JsString × Row) → List (JsString × Row)
  scan_perm : ∀ rows, (scan rows).Perm rows

variable (host : Host) (db : Database)

/-- The store of production. A failed statement throws and changes nothing. -/
def Table.serve (table : Table) (call : Call) : Table × Answer :=
  match call.query with
  | .set invoice =>
    match set db invoice table with
    | none => (table,.failed)
    | some table => (table,.done)
  | .get invoiceId =>
    match get host invoiceId table with
    | none => (table,.failed)
    | some invoice => (table,.invoice invoice)
  | .transition invoiceId target patch =>
    match transition host call.now invoiceId target patch table with
    | none => (table,.failed)
    | some (table,updated) => (table,.invoice updated)
  | .delete invoiceId =>
    match delete invoiceId table with
    | none => (table,.failed)
    | some table => (table,.done)
  | .entries =>
    let rows := call.scan table.entries
    (table,.entries (rows.map fun row => (row.1,rowToInvoice host row.1 row.2)))

/-- The store in memory, on a clock of milliseconds. -/
def memory (s : Storage) (call : Call) : Storage × Answer :=
  match call.query with
  | .set invoice => ({s with invoices := s.invoices.set invoice.invoiceId invoice},.done)
  | .get invoiceId => (s,.invoice (s.invoices.get invoiceId))
  | .transition invoiceId target patch =>
    (s.transition invoiceId target patch (call.now / 1000)).map id .invoice
  | .delete invoiceId => ({s with invoices := s.invoices.delete invoiceId},.done)
  | .entries => (s,.entries s.invoices.entries)

/-- What a store holds after calls, the first one first. -/
def reached (serve : Store → Call → Store × Answer) : Store → List Call → Store :=
  List.foldl fun s call => (serve s call).1

/-- The answers of a store to calls, the first one first. -/
def answers (serve : Store → Call → Store × Answer) : Store → List Call → List Answer
  | _, [] => []
  | s, call :: rest => (serve s call).2 :: answers serve (serve s call).1 rest

end Stores

section Alike

/-- One object up to the order of its members. -/
def SameFields (a b : InvoiceMetadata) : Prop := ∀ key, a.get key = b.get key

/-- One invoice up to the writing of its dates and the order of its metadata. -/
structure Alike (a b : Invoice) : Prop where
  invoiceId : a.invoiceId = b.invoiceId
  merchantNft : a.merchantNft = b.merchantNft
  amountTbc : a.amountTbc = b.amountTbc
  currency : a.currency = b.currency
  metadata : Option.Rel SameFields a.metadata b.metadata
  status : a.status = b.status
  createdAt : a.createdAt.time = b.createdAt.time
  expiresAt : a.expiresAt.time = b.expiresAt.time
  paymentUrl : a.paymentUrl = b.paymentUrl
  settlement : a.settlement = b.settlement

inductive Agree : Answer → Answer → Prop where
  | done : Agree .done .done
  | invoice (alike : Option.Rel Alike a b) : Agree (.invoice a) (.invoice b)
  | entries (same : rows.Perm ordered)
      (alike : List.Forall₂ (fun a b => a.1 = b.1 ∧ Alike a.2 b.2) ordered invoices) :
      Agree (.entries rows) (.entries invoices)

theorem entries_perm {a b : InvoiceMetadata} (same : SameFields a b) :
    a.entries.Perm b.entries := by
  apply (List.perm_ext_iff_of_nodup (List.Nodup.of_map _ a.distinct)
    (List.Nodup.of_map _ b.distinct)).mpr
  intro field
  rw [JsMap.mem_entries_iff,JsMap.mem_entries_iff,same]

theorem payloadFields_same {a b : Option InvoiceMetadata} (same : Option.Rel SameFields a b)
    (invoiceId : JsString) :
    SameFields (payloadFields a invoiceId) (payloadFields b invoiceId) := by
  intro key
  cases same with
  | none => rfl
  | some fields =>
    simp only [payloadFields,Option.getD_some,JsMap.get_set]
    split
    · rfl
    · exact fields key

/-- The payload text sorts its fields. -/
theorem payloadText_same {a b : Option InvoiceMetadata} (same : Option.Rel SameFields a b)
    (invoiceId : JsString) : payloadText a invoiceId = payloadText b invoiceId := by
  rw [payloadText_eq,payloadText_eq]
  have perm := (entries_perm (payloadFields_same same invoiceId)).map fun field =>
    (field.1,field.2.text)
  have distinct : (((payloadFields a invoiceId).entries.map
      fun field => (field.1,field.2.text)).map Prod.fst).Nodup := by
    rw [List.map_map]
    exact (payloadFields a invoiceId).distinct
  congr 1
  refine List.Perm.eq_of_pairwise ?_ (List.pairwise_insertionSort _ _)
    (List.pairwise_insertionSort _ _)
    ((List.perm_insertionSort _ _).trans (perm.trans (List.perm_insertionSort _ _).symm))
  intro field other left right before after
  have member := (List.mem_insertionSort KeyLe).mp left
  have found := perm.mem_iff.mpr ((List.mem_insertionSort KeyLe).mp right)
  exact List.inj_on_of_nodup_map distinct member found (List.le_antisymm before after)

/-- What settlement, expiry and cleanup decide about an invoice. -/
def decisions (host : Host) (event : SettlementEvent) (now : Int) (invoice : Invoice) :
    JsString × Bool × Bool × Bool :=
  (invoice.invoiceId,matchesEvent host event invoice,hasLapsed invoice now,isRemovable invoice now)

theorem Alike.decides {a b : Invoice} (alike : Alike a b) (host : Host) (event : SettlementEvent)
    (now : Int) : decisions host event now a = decisions host event now b := by
  have hashes : hashMetadata host a.metadata a.invoiceId =
      hashMetadata host b.metadata b.invoiceId := by
    rw [hashMetadata,hashMetadata,payloadText_same alike.metadata,alike.invoiceId]
  rw [decisions,decisions,matchesEvent,matchesEvent,hashes,alike.status,alike.merchantNft,
    alike.amountTbc,hasLapsed,hasLapsed,isRemovable,isRemovable,isExpired,isExpired,alike.status,
    alike.expiresAt,alike.invoiceId]

def Answer.invoices : Answer → List Invoice
  | .invoice found => found.toList
  | .entries rows => rows.map Prod.snd
  | .done | .failed => []

theorem Agree.decides {a b : Answer} (agree : Agree a b) (host : Host) (event : SettlementEvent)
    (now : Int) : (a.invoices.map (decisions host event now)).Perm
      (b.invoices.map (decisions host event now)) := by
  cases agree with
  | done => exact .refl _
  | invoice alike =>
    cases alike with
    | none => exact .refl _
    | some alike =>
      simp only [Answer.invoices,Option.toList_some,List.map_singleton]
      rw [alike.decides host event now]
  | @entries rows ordered invoices same alike =>
    simp only [Answer.invoices]
    refine ((same.map Prod.snd).map _).trans (.of_eq ?_)
    clear same
    induction alike with
    | nil => rfl
    | cons pair rest ih =>
      simp only [List.map_cons]
      rw [pair.2.decides host event now,ih]

end Alike

section Agreement
variable {host : Host} {db : Database}

/-- A row that holds an invoice. -/
structure Shows (invoiceId : JsString) (row : Row) (invoice : Invoice) : Prop where
  invoiceId : invoice.invoiceId = invoiceId
  merchantNft : row.merchantNft = invoice.merchantNft
  amountTbc : row.amountTbc = invoice.amountTbc
  currency : invoice.currency = js "TBC"
  metadata : Option.Rel SameFields row.metadata invoice.metadata
  status : row.status = invoice.status
  createdAt : row.createdAt = 1000 * invoice.createdAt.time
  expiresAt : row.expiresAt = 1000 * invoice.expiresAt.time
  paymentUrl : row.paymentUrl = invoice.paymentUrl
  settlement : row.settlement = invoice.settlement

theorem shows_alike (shows : Shows invoiceId row invoice) :
    Alike (rowToInvoice host invoiceId row) invoice where
  invoiceId := shows.invoiceId.symm
  merchantNft := shows.merchantNft
  amountTbc := shows.amountTbc
  currency := shows.currency.symm
  metadata := shows.metadata
  status := shows.status
  createdAt := by
    change row.createdAt / 1000 = _
    rw [shows.createdAt,Int.mul_ediv_cancel_left _ (by decide)]
  expiresAt := by
    change row.expiresAt / 1000 = _
    rw [shows.expiresAt,Int.mul_ediv_cancel_left _ (by decide)]
  paymentUrl := shows.paymentUrl
  settlement := shows.settlement

/-- The table holds what the store in memory holds. -/
def Holds (table : Table) (s : Storage) : Prop :=
  ∀ invoiceId, Option.Rel (Shows invoiceId) (table.get invoiceId) (s.invoices.get invoiceId)

/-- A text that reaches the server as it is. -/
def Plain (text : JsString) : Prop := textColumn text = some text

/-- An invoice that the columns take as it is, with dates that the database reads as the service
does. -/
structure Fits (db : Database) (invoice : Invoice) : Prop where
  invoiceId : varchar 32 invoice.invoiceId = some invoice.invoiceId
  merchantNft : varchar 128 invoice.merchantNft = some invoice.merchantNft
  amountTbc : varchar 40 invoice.amountTbc = some invoice.amountTbc
  currency : invoice.currency = js "TBC"
  metadata : ∀ metadata, invoice.metadata = some metadata → metadata.entries.all jsonField = true
  createdAt : db.timestamptz invoice.createdAt.text = some (1000 * invoice.createdAt.time)
  expiresAt : db.timestamptz invoice.expiresAt.text = some (1000 * invoice.expiresAt.time)
  paymentUrl : Plain invoice.paymentUrl
  settlement : ∀ settlement, invoice.settlement = some settlement →
    jsonSettlement settlement = true

/-- Invoices of the columns that an upsert leaves alone. -/
structure SameTerms (a b : Invoice) : Prop where
  merchantNft : a.merchantNft = b.merchantNft
  amountTbc : a.amountTbc = b.amountTbc
  createdAt : a.createdAt.time = b.createdAt.time
  expiresAt : a.expiresAt.time = b.expiresAt.time
  paymentUrl : a.paymentUrl = b.paymentUrl

/-- What the stores agree on: an invoice that fits, of a new id or in place of one of its terms. -/
def Admissible (db : Database) (s : Storage) : Query → Prop
  | .set invoice => Fits db invoice ∧ ∀ stored, s.invoices.get invoice.invoiceId = some stored →
      SameTerms stored invoice
  | .get invoiceId | .delete invoiceId => Plain invoiceId
  | .transition invoiceId _ patch => Plain invoiceId ∧
      ∀ settlement, patch = some settlement → jsonSettlement settlement = true
  | .entries => True

theorem currency_fits : varchar 8 (js "TBC") = some (js "TBC") := by decide +kernel

theorem jsonColumn_fits {takes : α → Bool} {stored : α → α}
    (fits : ∀ value, column = some value → takes value = true) :
    jsonColumn takes stored column = some (column.map stored) := by
  cases column with
  | none => rfl
  | some value => simp [jsonColumn,fits value rfl]

theorem insertedRow_fits (fits : Fits db invoice) : ∃ row, insertedRow db invoice = some row ∧
    Shows invoice.invoiceId row invoice := by
  have metadata : metadataColumn db invoice.metadata = some (invoice.metadata.map db.jsonb) :=
    jsonColumn_fits fits.metadata
  have settlement : settlementColumn invoice.settlement = some (invoice.settlement.map id) :=
    jsonColumn_fits fits.settlement
  have paymentUrl : textColumn invoice.paymentUrl = some invoice.paymentUrl := fits.paymentUrl
  have same : Option.Rel SameFields (invoice.metadata.map db.jsonb) invoice.metadata := by
    cases invoice.metadata with
    | none => exact .none
    | some metadata => exact .some (db.jsonb_get metadata)
  refine ⟨⟨invoice.merchantNft,invoice.amountTbc,js "TBC",invoice.status,
    invoice.metadata.map db.jsonb,invoice.settlement,1000 * invoice.createdAt.time,
    1000 * invoice.expiresAt.time,invoice.paymentUrl⟩,?_,?_⟩
  · simp only [insertedRow,fits.merchantNft,fits.amountTbc,fits.currency,currency_fits,metadata,
      settlement,fits.createdAt,fits.expiresAt,paymentUrl,Option.bind_eq_bind,Option.bind_some,
      Option.map_id,id,Option.pure_def]
  · exact ⟨rfl,rfl,rfl,fits.currency,same,rfl,rfl,rfl,rfl,rfl⟩

theorem Holds.missing {table : Table} {s : Storage} (holds : Holds table s)
    (stored : table.get invoiceId = none) : s.invoices.get invoiceId = none := by
  have held := holds invoiceId
  rw [stored] at held
  cases known : s.invoices.get invoiceId with
  | none => rfl
  | some current =>
    rw [known] at held
    cases held

theorem Holds.shown {table : Table} {s : Storage} (holds : Holds table s)
    (stored : table.get invoiceId = some row) :
    ∃ current, s.invoices.get invoiceId = some current ∧ Shows invoiceId row current := by
  have held := holds invoiceId
  rw [stored] at held
  cases known : s.invoices.get invoiceId with
  | none =>
    rw [known] at held
    cases held
  | some current =>
    rw [known] at held
    cases held with
    | some shown => exact ⟨current,rfl,shown⟩

theorem Holds.put {table : Table} {s : Storage} (holds : Holds table s)
    (shows : Shows invoiceId row invoice) :
    Holds (table.set invoiceId row) {s with invoices := s.invoices.set invoiceId invoice} := by
  intro other
  rw [JsMap.get_set,JsMap.get_set]
  split
  · rename_i same
    exact .some (same ▸ shows)
  · exact holds other

theorem Holds.drop {table : Table} {s : Storage} (holds : Holds table s) (invoiceId : JsString) :
    Holds (table.delete invoiceId) {s with invoices := s.invoices.delete invoiceId} := by
  intro other
  rw [JsMap.get_delete,JsMap.get_delete]
  split
  · exact .none
  · exact holds other

/-- An upsert in place of an invoice of one's terms writes all that there is to write. -/
theorem set_holds {table : Table} {s : Storage} (holds : Holds table s) (fits : Fits db invoice)
    (terms : ∀ stored, s.invoices.get invoice.invoiceId = some stored →
      SameTerms stored invoice) :
    ∃ next, set db invoice table = some next ∧
      Holds next {s with invoices := s.invoices.set invoice.invoiceId invoice} := by
  obtain ⟨row,inserted,shows⟩ := insertedRow_fits fits
  cases stored : table.get invoice.invoiceId with
  | none =>
    refine ⟨table.set invoice.invoiceId row,?_,holds.put shows⟩
    simp [set,fits.invoiceId,inserted,stored]
  | some before =>
    obtain ⟨current,known,shown⟩ := holds.shown stored
    have kept := terms current known
    have shows : Shows invoice.invoiceId
        {before with
          status := row.status
          metadata := row.metadata
          settlement := row.settlement} invoice :=
      { invoiceId := rfl
        merchantNft := shown.merchantNft.trans kept.merchantNft
        amountTbc := shown.amountTbc.trans kept.amountTbc
        currency := fits.currency
        metadata := shows.metadata
        status := shows.status
        createdAt := shown.createdAt.trans (congrArg _ kept.createdAt)
        expiresAt := shown.expiresAt.trans (congrArg _ kept.expiresAt)
        paymentUrl := shown.paymentUrl.trans kept.paymentUrl
        settlement := shows.settlement }
    refine ⟨_,?_,holds.put shows⟩
    simp [set,fits.invoiceId,inserted,stored]

section Transitions
variable {table : Table} {s : Storage} {now : ℤ} {target : InvoiceStatus}
  {patch : Option Settlement}

/-- A transition that both stores refuse. -/
theorem refused_holds (holds : Holds table s)
    (database : transition host now invoiceId target patch table = some (table,none))
    (inMemory : s.transition invoiceId target patch (now / 1000) = (s,none)) :
    ∃ next updated, transition host now invoiceId target patch table = some (next,updated) ∧
      Option.Rel Alike updated (s.transition invoiceId target patch (now / 1000)).2 ∧
      Holds next (s.transition invoiceId target patch (now / 1000)).1 := by
  rw [inMemory]
  exact ⟨table,none,database,.none,holds⟩

/-- The compare-and-set on a row and the invoice that it holds: an expiry is due at the same time
on both clocks. -/
theorem transition_shown (holds : Holds table s) (plain : Plain invoiceId)
    (column : settlementColumn patch = some patch) (stored : table.get invoiceId = some row)
    (known : s.invoices.get invoiceId = some current) (shown : Shows invoiceId row current) :
    ∃ next updated, transition host now invoiceId target patch table = some (next,updated) ∧
      Option.Rel Alike updated (s.transition invoiceId target patch (now / 1000)).2 ∧
      Holds next (s.transition invoiceId target patch (now / 1000)).1 := by
  have received : textColumn invoiceId = some invoiceId := plain
  have due : row.expiresAt ≤ now ↔ ¬now / 1000 < current.expiresAt.time := by
    rw [shown.expiresAt]
    omega
  by_cases waits : row.status = .pending
  · have pending : current.status = .pending := shown.status.symm.trans waits
    by_cases early : target = .expired ∧ now / 1000 < current.expiresAt.time
    · apply refused_holds holds
      · simp [transition,received,column,stored,early.1,due,early.2]
      · simp [Storage.transition,known,pending,early]
    · have moves : target ≠ .expired ∨ row.expiresAt ≤ now := by
        rw [due]
        exact not_and_or.mp early
      have next : Shows invoiceId
          {row with status := target,settlement := patch.or row.settlement}
          {current with status := target,settlement := patch.or current.settlement} :=
        {shown with
          status := rfl
          settlement := congrArg patch.or shown.settlement}
      have inMemory : s.transition invoiceId target patch (now / 1000) =
          ({s with
            invoices := s.invoices.set invoiceId
              {current with status := target,settlement := patch.or current.settlement}},
            some {current with status := target,settlement := patch.or current.settlement}) := by
        simp only [Storage.transition,known,pending,ne_eq,not_true_eq_false,if_false,if_neg early]
      rw [inMemory]
      refine ⟨_,_,?_,.some (@shows_alike host _ _ _ next),holds.put next⟩
      simp [transition,received,column,stored,waits,moves]
  · have moved : current.status ≠ .pending := fun pending => waits (shown.status.trans pending)
    apply refused_holds holds
    · simp [transition,received,column,stored,waits]
    · simp [Storage.transition,known,moved]

theorem transition_holds (holds : Holds table s) (plain : Plain invoiceId)
    (accepted : ∀ settlement, patch = some settlement → jsonSettlement settlement = true) :
    ∃ next updated, transition host now invoiceId target patch table = some (next,updated) ∧
      Option.Rel Alike updated (s.transition invoiceId target patch (now / 1000)).2 ∧
      Holds next (s.transition invoiceId target patch (now / 1000)).1 := by
  have column : settlementColumn patch = some (patch.map id) := jsonColumn_fits accepted
  rw [Option.map_id,id] at column
  cases stored : table.get invoiceId with
  | none =>
    have unknown := holds.missing stored
    have received : textColumn invoiceId = some invoiceId := plain
    apply refused_holds holds
    · simp [transition,received,column,stored]
    · simp [Storage.transition,unknown]
  | some row =>
    obtain ⟨current,known,shown⟩ := holds.shown stored
    exact transition_shown holds plain column stored known shown

end Transitions

/-- Lists with the same keys in the same places are alike where their entries of one key are. -/
theorem forall₂_of_keys {related : K × V → K × W → Prop} {left : List (K × V)}
    {right : List (K × W)} (keys : left.map Prod.fst = right.map Prod.fst)
    (each : ∀ a ∈ left, ∀ b ∈ right, a.1 = b.1 → related a b) :
    List.Forall₂ related left right := by
  induction left generalizing right with
  | nil =>
    rw [List.map_nil,eq_comm,List.map_eq_nil_iff] at keys
    subst keys
    exact .nil
  | cons a left ih =>
    cases right with
    | nil => cases keys
    | cons b right =>
      obtain ⟨head,tail⟩ := List.cons.inj keys
      refine .cons (each a List.mem_cons_self b List.mem_cons_self head) (ih tail ?_)
      exact fun a inLeft b inRight =>
        each a (List.mem_cons_of_mem _ inLeft) b (List.mem_cons_of_mem _ inRight)

theorem mem_keys {K V : Type} [DecidableEq K] (m : JsMap K V) (key : K) :
    key ∈ m.entries.map Prod.fst ↔ (m.get key).isSome = true := by
  rw [Option.isSome_iff_exists,List.mem_map]
  constructor
  · rintro ⟨⟨key,value⟩,member,rfl⟩
    exact ⟨value,(JsMap.mem_entries_iff _ _ _).mp member⟩
  · rintro ⟨value,found⟩
    exact ⟨(key,value),(JsMap.mem_entries_iff _ _ _).mpr found,rfl⟩

/-- A scan finds each invoice once, in some order. -/
theorem entries_agree {table : Table} {s : Storage} (holds : Holds table s)
    {scan : List (JsString × Row)} (perm : scan.Perm table.entries) :
    Agree (.entries (scan.map fun row => (row.1,rowToInvoice host row.1 row.2)))
      (.entries s.invoices.entries) := by
  have keys : (table.entries.map Prod.fst).Perm (s.invoices.entries.map Prod.fst) := by
    apply (List.perm_ext_iff_of_nodup table.distinct s.invoices.distinct).mpr
    intro invoiceId
    rw [mem_keys,mem_keys]
    cases stored : table.get invoiceId with
    | none =>
      rw [holds.missing stored,Option.isSome_none,Option.isSome_none]
    | some row =>
      obtain ⟨current,known,-⟩ := holds.shown stored
      rw [known,Option.isSome_some,Option.isSome_some]
  have named : List.Forall₂ (fun key (row : JsString × Row) => key = row.1)
      (table.entries.map Prod.fst) table.entries :=
    List.forall₂_map_left_iff.mpr (List.forall₂_same.mpr fun _ _ => rfl)
  obtain ⟨ordered,order,same⟩ := List.perm_comp_forall₂ keys.symm named
  have places : s.invoices.entries.map Prod.fst = ordered.map Prod.fst :=
    List.forall₂_eq_eq_eq ▸ List.forall₂_map_right_iff.mpr order
  refine .entries ((perm.trans same.symm).map _) (List.forall₂_map_left_iff.mpr ?_)
  apply forall₂_of_keys places.symm
  intro row inTable entry inStore key
  refine ⟨key,?_⟩
  have stored := (JsMap.mem_entries_iff _ _ _).mp (same.mem_iff.mp inTable)
  have known := (JsMap.mem_entries_iff _ _ _).mp inStore
  obtain ⟨current,found,shown⟩ := holds.shown stored
  rw [key,known] at found
  obtain rfl := Option.some.inj found
  exact shows_alike shown

theorem serve_agrees {table : Table} {s : Storage} (holds : Holds table s) (call : Call)
    (admissible : Admissible db s call.query) :
    Agree (table.serve host db call).2 (memory s call).2 ∧
      Holds (table.serve host db call).1 (memory s call).1 := by
  obtain ⟨query,now,scan,perm⟩ := call
  cases query with
  | set invoice =>
    obtain ⟨next,stored,held⟩ := set_holds holds admissible.1 admissible.2
    simp only [Table.serve,memory,stored]
    exact ⟨.done,held⟩
  | get invoiceId =>
    have received : textColumn invoiceId = some invoiceId := admissible
    simp only [Table.serve,memory,get,received,Option.bind_eq_bind,Option.bind_some,
      Option.pure_def]
    refine ⟨.invoice ?_,holds⟩
    cases stored : table.get invoiceId with
    | none =>
      rw [holds.missing stored]
      exact .none
    | some row =>
      obtain ⟨current,known,shown⟩ := holds.shown stored
      rw [known]
      exact .some (shows_alike shown)
  | transition invoiceId target patch =>
    obtain ⟨next,updated,stored,alike,held⟩ :=
      @transition_holds host table s now target patch invoiceId holds admissible.1 admissible.2
    simp only [Table.serve,memory,stored]
    exact ⟨.invoice alike,held⟩
  | delete invoiceId =>
    have received : textColumn invoiceId = some invoiceId := admissible
    simp only [Table.serve,memory,delete,received,Option.bind_eq_bind,Option.bind_some,
      Option.pure_def]
    exact ⟨.done,holds.drop invoiceId⟩
  | entries => exact ⟨entries_agree holds (perm _),holds⟩

/-- The calls of a run, each admissible when it is made. -/
def AllAdmissible (db : Database) : Storage → List Call → Prop
  | _, [] => True
  | s, call :: rest => Admissible db s call.query ∧ AllAdmissible db (memory s call).1 rest

theorem reached_holds {table : Table} {s : Storage} (holds : Holds table s) {past later : List Call}
    (admissible : AllAdmissible db s (past ++ later)) :
    Holds (reached (Table.serve host db) table past) (reached memory s past) ∧
      AllAdmissible db (reached memory s past) later := by
  induction past generalizing table s with
  | nil => exact ⟨holds,admissible⟩
  | cons call past ih => exact ih (serve_agrees holds call admissible.1).2 admissible.2

theorem answers_agree {table : Table} {s : Storage} (holds : Holds table s) {calls : List Call}
    (admissible : AllAdmissible db s calls) :
    List.Forall₂ Agree (answers (Table.serve host db) table calls) (answers memory s calls) := by
  induction calls generalizing table s with
  | nil => exact .nil
  | cons call rest ih =>
    obtain ⟨agree,held⟩ := serve_agrees holds call admissible.1
    exact .cons agree (ih held admissible.2)

end Agreement

section Candidates
variable {db : Database}

/-- A text of ASCII without NULs. -/
def isAscii (text : JsString) : Bool := text.all fun unit => 0 < unit && unit < 128

theorem isAscii_iff {text : JsString} :
    isAscii text = true ↔ ∀ unit ∈ text, 0 < unit ∧ unit < 128 := by
  simp [isAscii]

theorem plain_ascii {text : JsString} (ascii : isAscii text = true) : Plain text := by
  have units := isAscii_iff.mp ascii
  have wellFormed := isWellFormed_ascii fun unit member => (units unit member).2
  have filled : 0 ∉ text := fun member => absurd (units 0 member).1 (by decide)
  rw [Plain,textColumn,decodeUtf8_encodeUtf8 wellFormed,if_neg filled]

theorem varchar_ascii {text : JsString} (ascii : isAscii text = true)
    (short : text.length ≤ length) : varchar length text = some text := by
  have fits : (codePoints text).length ≤ length := by
    rw [codePoints_ascii fun unit member => (isAscii_iff.mp ascii unit member).2,List.length_map]
    exact short
  rw [varchar,plain_ascii ascii,Option.bind_some,if_pos fits]

theorem digit_range {unit : UInt16} (digit : isDigitUnit unit = true) :
    48 ≤ unit.toNat ∧ unit.toNat ≤ 57 := by
  simp only [isDigitUnit,Bool.and_eq_true,decide_eq_true_eq,UInt16.le_iff_toNat_le] at digit
  exact digit

theorem isDigitUnit_ascii {unit : UInt16} (digit : isDigitUnit unit = true) :
    0 < unit ∧ unit < 128 := by
  have range := digit_range digit
  have low : (0 : UInt16).toNat < 48 := by decide
  have high : 57 < (128 : UInt16).toNat := by decide
  rw [UInt16.lt_iff_toNat_lt,UInt16.lt_iff_toNat_lt]
  exact ⟨low.trans_le range.1,range.2.trans_lt high⟩

theorem invoiceId_units {invoiceId : JsString} (valid : isInvoiceId invoiceId = true) :
    invoiceId.length = 20 ∧ isAscii invoiceId = true := by
  simp only [isInvoiceId,Bool.and_eq_true,beq_iff_eq,List.all_eq_true,Bool.or_eq_true,
    decide_eq_true_eq] at valid
  obtain ⟨⟨named,length⟩,digits⟩ := valid
  constructor
  · have split := congrArg List.length (List.take_append_drop 4 invoiceId)
    rw [List.length_append,named,length] at split
    exact split.symm
  · have front : isAscii (js "inv_") = true := by decide
    have back : isAscii (invoiceId.drop 4) = true := by
      apply isAscii_iff.mpr
      intro unit member
      rcases digits unit member with digit | ⟨low,high⟩
      · exact isDigitUnit_ascii digit
      · exact ⟨UInt16.lt_of_lt_of_le (by decide) low,UInt16.lt_of_le_of_lt high (by decide)⟩
    rw [← List.take_append_drop 4 invoiceId,named,isAscii,List.all_append]
    exact Bool.and_eq_true_iff.mpr ⟨front,back⟩

/-- A number is at least the power of its length. -/
theorem digitsValue_large {s : JsString} {start value : Nat}
    (read : s.foldlM (fun value unit => (digitOf 10 unit).map (value * 10 + ·)) start =
      some value) : start * 10^s.length ≤ value := by
  induction s generalizing start with
  | nil => simpa using (Option.some.inj read).le
  | cons unit rest ih =>
    obtain ⟨next,digit,read⟩ := Option.bind_eq_some_iff.mp read
    obtain ⟨d,-,rfl⟩ := Option.map_eq_some_iff.mp digit
    calc start * 10^(rest.length+1) = start * 10 * 10^rest.length := by ring
      _ ≤ (start * 10 + d) * 10^rest.length := Nat.mul_le_mul_right _ (by omega)
      _ ≤ value := ih read

theorem trim_digits {s : JsString} (digits : s.all isDigitUnit = true) :
    MerchantApi.trim s = s := by
  have visible : ∀ unit ∈ s, isWhiteSpace unit = false := by
    intro unit member
    have blank : ∀ code < 58, 48 ≤ code → isWhiteSpace (UInt16.ofNat code) = false := by decide
    obtain ⟨low,high⟩ := digit_range (List.all_eq_true.mp digits unit member)
    have seen := blank unit.toNat (by omega) low
    rwa [UInt16.ofNat_toNat] at seen
  have front : s.dropWhile isWhiteSpace = s := by
    cases s with
    | nil => rfl
    | cons unit rest => rw [List.dropWhile_cons_of_neg (by simp [visible unit])]
  have back : s.reverse.dropWhile isWhiteSpace = s.reverse := by
    cases reversed : s.reverse with
    | nil => rfl
    | cons unit rest =>
      have member : unit ∈ s := List.mem_reverse.mp (reversed ▸ List.mem_cons_self)
      rw [List.dropWhile_cons_of_neg (by simp [visible unit member])]
  rw [MerchantApi.trim,front,back,List.reverse_reverse]

theorem isCanonicalDecimal_digits {s : JsString} (canonical : isCanonicalDecimal s = true) :
    ∃ first rest, s = first :: rest ∧ 49 ≤ first.toNat ∧ s.all isDigitUnit = true := by
  cases s with
  | nil => cases canonical
  | cons first rest =>
    simp only [isCanonicalDecimal,Bool.and_eq_true,decide_eq_true_eq,
      UInt16.le_iff_toNat_le] at canonical
    obtain ⟨⟨low,high⟩,digits⟩ := canonical
    have low : 49 ≤ first.toNat := low
    refine ⟨first,rest,rfl,low,?_⟩
    simp only [List.all_cons,digits,Bool.and_true,isDigitUnit,Bool.and_eq_true,decide_eq_true_eq,
      UInt16.le_iff_toNat_le]
    exact ⟨le_trans (by decide) low,high⟩

/-- An amount without a prefix is read as it stands. -/
theorem bigInt_canonical {s : JsString} (canonical : isCanonicalDecimal s = true) :
    bigInt s = (digitsValue 10 s).map Int.ofNat := by
  obtain ⟨first,rest,rfl,low,digits⟩ := isCanonicalDecimal_digits canonical
  have apart : ∀ code : UInt16, code.toNat < 49 → first ≠ code := by
    rintro code small rfl
    omega
  rw [bigInt,trim_digits digits]
  split
  · rename_i whole
    cases whole
  all_goals first
    | rfl
    | rename_i whole
      exact absurd (List.cons.inj whole).1 (apart _ (by decide))

theorem validateAmount_short (valid : validateAmount amount = .ok ()) :
    amount.all isDigitUnit = true ∧ amount.length ≤ 40 := by
  obtain ⟨_,-,valid⟩ := bind_passed valid
  cases read : bigInt amount with
  | none =>
    rw [read] at valid
    cases valid
  | some value =>
    rw [read] at valid
    obtain ⟨_,-,valid⟩ := bind_passed valid
    obtain ⟨_,small,valid⟩ := bind_passed valid
    have canonical := check_passed valid
    have small : value ≤ maxTbcAmount := of_decide_eq_true (check_passed small)
    obtain ⟨first,rest,rfl,low,digits⟩ := isCanonicalDecimal_digits canonical
    refine ⟨digits,?_⟩
    rw [bigInt_canonical canonical] at read
    obtain ⟨natural,whole,rfl⟩ := Option.map_eq_some_iff.mp read
    rw [digitsValue,List.isEmpty_cons] at whole
    obtain ⟨next,digit,whole⟩ := Option.bind_eq_some_iff.mp whole
    have leading : next = first.toNat - 48 := by
      have first_digit := List.all_eq_true.mp digits first List.mem_cons_self
      have range := digit_range first_digit
      have below : first.toNat - 48 < 10 := by omega
      simpa [digitOf,first_digit,below,eq_comm] using digit
    have bound : natural ≤ 2^120 - 1 := Int.ofNat_le.mp small
    have large := digitsValue_large whole
    have power : 10^rest.length < 10^37 := by
      calc 10^rest.length ≤ next * 10^rest.length := Nat.le_mul_of_pos_left _ (by omega)
        _ ≤ natural := large
        _ ≤ 2^120 - 1 := bound
        _ < 10^37 := by decide
    have short := (Nat.pow_lt_pow_iff_right (by decide)).mp power
    rw [List.length_cons]
    omega

theorem whitelisted_fits : ∀ address ∈ whitelistedNftCollections,
    varchar 128 address = some address := by decide +kernel

/-- An invoice that is created fits, if the database takes its metadata and reads its dates. -/
theorem candidate_fits {host : Host} {request : CreateInvoiceRequest} {inputs : Inputs} {now : Int}
    (valid : validateCreateInvoiceRequest request now = .ok ())
    (drawn : isInvoiceId inputs.invoiceId = true)
    (metadata : ∀ metadata, sanitizeMetadata request.metadata = some metadata →
      metadata.entries.all jsonField = true)
    (created : db.timestamptz (candidate host request inputs).createdAt.text =
      some (1000 * (candidate host request inputs).createdAt.time))
    (expires : db.timestamptz (candidate host request inputs).expiresAt.text =
      some (1000 * (candidate host request inputs).expiresAt.time)) :
    Fits db (candidate host request inputs) := by
  obtain ⟨_,nft,valid⟩ := bind_passed valid
  obtain ⟨_,amount,-⟩ := bind_passed valid
  obtain ⟨_,-,listed⟩ := bind_passed nft
  obtain ⟨digits,short⟩ := validateAmount_short amount
  obtain ⟨length,named⟩ := invoiceId_units drawn
  have numeral : isAscii request.amountTbc = true :=
    isAscii_iff.mpr fun unit member => isDigitUnit_ascii (List.all_eq_true.mp digits unit member)
  have payment : isAscii (generatePaymentUrl inputs.invoiceId) = true := by
    have base : isAscii (js "https://wallet.tonbankcard.io/pay/") = true := by decide
    rw [generatePaymentUrl,isAscii,List.all_append]
    exact Bool.and_eq_true_iff.mpr ⟨base,named⟩
  exact
    { invoiceId := varchar_ascii named (length.trans_le (by decide))
      merchantNft := whitelisted_fits _ (of_decide_eq_true (check_passed listed))
      amountTbc := varchar_ascii numeral short
      currency := rfl
      metadata := metadata
      createdAt := created
      expiresAt := expires
      paymentUrl := plain_ascii payment
      settlement := nofun }

end Candidates

section Service

/-- A query as the service makes it. -/
def Query.command (next : Answer → Await) : Query → Command
  | .set invoice => .set invoice (next .done)
  | .get invoiceId => .get invoiceId fun invoice => next (.invoice invoice)
  | .transition invoiceId target patch =>
    .transition invoiceId target patch fun updated => next (.invoice updated)
  | .delete invoiceId => .delete invoiceId (next .done)
  | .entries => .entries fun invoices => next (.entries invoices)

/-- The store in memory is the one that the service runs on. -/
theorem perform_memory (s : Storage) (call : Call) (next : Answer → Await) :
    (call.query.command next).perform (call.now / 1000) s =
      ((memory s call).1,next (memory s call).2) := by
  obtain ⟨query,now,scan,perm⟩ := call
  cases query <;> rfl

/-- Over any run of queries from the empty stores, the table of production gives the answers of
the store in memory. -/
theorem store_agrees (host : Host) (db : Database) {calls : List Call}
    (admissible : AllAdmissible db ⟨.empty,.empty⟩ calls) :
    List.Forall₂ Agree (answers (Table.serve host db) .empty calls)
      (answers memory ⟨.empty,.empty⟩ calls) :=
  answers_agree (fun _ => .none) admissible

/-- Whatever the service goes on with in memory, on the table of production it goes on with an
answer that agrees, and it decides the same about the invoices in it. -/
theorem decisions_agree (host : Host) (db : Database) {past : List Call} {call : Call}
    (admissible : AllAdmissible db ⟨.empty,.empty⟩ (past ++ [call])) (next : Answer → Await) :
    ∃ shown, (call.query.command next).perform (call.now / 1000)
        (reached memory ⟨.empty,.empty⟩ past) =
          (reached memory ⟨.empty,.empty⟩ (past ++ [call]),next shown) ∧
      Agree ((reached (Table.serve host db) .empty past).serve host db call).2 shown ∧
      ∀ event now, (((reached (Table.serve host db) .empty past).serve host db call).2.invoices.map
        (decisions host event now)).Perm (shown.invoices.map (decisions host event now)) := by
  have empty : Holds .empty ⟨.empty,.empty⟩ := fun _ => .none
  obtain ⟨holds,last⟩ := @reached_holds host db _ _ empty past [call] admissible
  have agree := (@serve_agrees host db _ _ holds call last.1).1
  refine ⟨_,?_,agree,agree.decides host⟩
  rw [perform_memory,reached,List.foldl_append]
  rfl

/-- A database that reads the dates of one invoice. -/
def shopDatabase : Database where
  timestamptz text :=
    if text = js "2026-01-01T00:00:00.000Z" then some 1767225600000000
    else if text = js "2026-01-02T00:00:00.000Z" then some 1767312000000000
    else none
  jsonb := id
  jsonb_get _ _ := rfl

def shopInvoice : Invoice := candidate shopHost shopRequest (shopInputs 1767225600000 0)

/-- The invoice is stored, it does not expire in its first second, is settled and shown. -/
def shopCalls : List Call :=
  [⟨.set shopInvoice,1767225600000000,id,fun _ => .refl _⟩,
    ⟨.transition shopInvoice.invoiceId .expired none,1767225601000000,id,fun _ => .refl _⟩,
    ⟨.transition shopInvoice.invoiceId .settled
      (some (settlementOf shopEvent 6 (getCurrentTimestamp shopHost 1767225660000))),
      1767225700000000,id,fun _ => .refl _⟩,
    ⟨.entries,1767225700000001,List.reverse,List.reverse_perm⟩]

theorem shop_admissible : AllAdmissible shopDatabase ⟨.empty,.empty⟩ shopCalls := by
  have valid : validateCreateInvoiceRequest shopRequest 1767225600000 = .ok () := by
    decide +kernel
  have fits : Fits shopDatabase shopInvoice :=
    candidate_fits valid (by decide +kernel) nofun (by decide +kernel) (by decide +kernel)
  have plain : Plain shopInvoice.invoiceId := plain_ascii (by decide +kernel)
  refine ⟨⟨fits,nofun⟩,⟨plain,nofun⟩,⟨plain,?_⟩,trivial,trivial⟩
  rintro settlement ⟨⟩
  decide +kernel

theorem store_agrees_shop : List.Forall₂ Agree
    (answers (Table.serve shopHost shopDatabase) .empty shopCalls)
    (answers memory ⟨.empty,.empty⟩ shopCalls) :=
  store_agrees shopHost shopDatabase shop_admissible

theorem decisions_agree_shop : ∃ past call shown, shopCalls = past ++ [call] ∧
    (call.query.command fun _ => .sweepingKeys 0 0).perform (call.now / 1000)
      (reached memory ⟨.empty,.empty⟩ past) =
        (reached memory ⟨.empty,.empty⟩ shopCalls,.sweepingKeys 0 0) ∧
    Agree ((reached (Table.serve shopHost shopDatabase) .empty past).serve shopHost shopDatabase
      call).2 shown ∧
    ∀ event now, (((reached (Table.serve shopHost shopDatabase) .empty past).serve shopHost
      shopDatabase call).2.invoices.map (decisions shopHost event now)).Perm
        (shown.invoices.map (decisions shopHost event now)) := by
  obtain ⟨past,call,whole⟩ : ∃ past call, shopCalls = past ++ [call] :=
    ⟨[_,_,_],_,rfl⟩
  have admissible : AllAdmissible shopDatabase ⟨.empty,.empty⟩ (past ++ [call]) :=
    whole ▸ shop_admissible
  obtain ⟨shown,performed,agree,same⟩ :=
    decisions_agree shopHost shopDatabase admissible fun _ => .sweepingKeys 0 0
  exact ⟨past,call,shown,whole,whole ▸ performed,agree,same⟩

end Service
end Tonbankcard.MerchantApi.PostgresStorage
