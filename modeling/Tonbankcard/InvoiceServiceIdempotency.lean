import Mathlib.Data.List.Infix
import Tonbankcard.InvoiceServicePermanence
import Tonbankcard.PublishOnce

/-! Repeated calls of `createInvoice` with one request and one API key publish one invoice at a
time, as long as none of them drops a record that it has not read. -/
namespace Tonbankcard.MerchantApi

open EcmaScript PublishOnce

/-- Whether the next segment of `createInvoice` drops no record but the one that the call has
read, and creates no invoice that has expired by then. -/
def Await.agrees (host : Host) (idempotency : JsMap JsString IdempotencyRecord)
    (inputs : Inputs) : Await → Bool
  | .fetched _ key existingEntry (some existingInvoice)
  | .refetched _ key existingEntry (some existingInvoice) =>
    !isExpired existingInvoice.expiresAt (inputs.reads 0) ||
      (idempotency.get key).all fun record => record.invoiceId = existingEntry.invoiceId
  | .refetched _ key existingEntry none =>
    (idempotency.get key).all fun record => record.invoiceId = existingEntry.invoiceId
  | .lookedUp request _ none | .fetched request _ _ none | .invoiceDropped request _ =>
    !isExpired (candidate host request inputs).expiresAt (inputs.reads 2)
  | _ => true

def World.agrees (host : Host) (w : World) (event : Event) : Bool :=
  (w.calls[w.caller event]?).all fun call =>
    call.await.agrees host w.storage.idempotency event.inputs

/-- A run in which every segment agrees with the records it has read. -/
def agreeing (host : Host) (configured : Option JsString) : List Event → Bool
  | [] => true
  | event :: past =>
    (world host configured past).agrees host event && agreeing host configured past

/-- A run of calls of `createInvoice` with one request and one API key. -/
structure Repeats (request : CreateInvoiceRequest) (merchantApiKey : JsString)
    (keyId : Option JsString) (events : List Event) : Prop where
  operation : ∀ operation inputs, .start operation inputs ∈ events →
    operation = .createInvoice request merchantApiKey
  keyId : ∀ event ∈ events, ∀ answer, event.inputs.keyId = some answer → answer = keyId

/-- An instant that no reading of the clock is after. -/
def Inputs.Before (inputs : Inputs) (now : Int) : Prop :=
  (∀ read, inputs.reads read ≤ now) ∧ inputs.storageNow ≤ now

def World.quiescent (w : World) : Prop := ∀ call ∈ w.calls, ∃ outcome, call.await = .done outcome

/-- The ids of records and invoices that a call holds. -/
def Await.holding : Await → Holding JsString
  | .lookedUp _ _ (some entry) | .keyDropped _ _ entry | .withdrawn _ _ entry
  | .keyCleared _ entry (some _) | .fetched _ _ entry none => ⟨some entry.invoiceId,none,none,none⟩
  | .fetched _ _ entry (some invoice) | .refetched _ _ entry (some invoice) =>
    ⟨some entry.invoiceId,none,some invoice.invoiceId,none⟩
  | .stored _ _ invoice => ⟨none,some invoice.invoiceId,none,none⟩
  | .published _ _ invoice none => ⟨none,none,some invoice.invoiceId,none⟩
  | .published _ _ invoice (some entry) =>
    ⟨some entry.invoiceId,some invoice.invoiceId,none,none⟩
  | .refetched _ _ entry none => ⟨some entry.invoiceId,none,none,some entry.invoiceId⟩
  | .done (.invoice invoice) => ⟨none,none,some invoice.invoiceId,none⟩
  | _ => .nothing

section Calls
variable (host : Host) (request : CreateInvoiceRequest) (keyId : Option JsString)
variable (events : List Event) (now : Int)

/-- An invoice that a segment of the run creates. -/
def Genuine (invoice : Invoice) : Prop :=
  ∃ event ∈ events, invoice = candidate host request event.inputs

def Lasting (invoiceId : JsString) : Prop :=
  ∃ invoice, Genuine host request events invoice ∧ invoice.invoiceId = invoiceId ∧
    now < invoice.expiresAt.time

/-- What a call knows of its request, its key and the invoices it holds. -/
def Await.Minds : Await → Prop
  | .authorizing asked | .identifying asked | .cleared asked | .keyCleared asked _ none =>
    asked = request
  | .lookedUp asked key _ | .invoiceDropped asked key | .fetched asked key _ none
  | .refetched asked key _ none | .withdrawn asked key _ =>
    asked = request ∧ key = generateIdempotencyKey host request keyId
  | .fetched asked key entry (some invoice) | .refetched asked key entry (some invoice) =>
    asked = request ∧ key = generateIdempotencyKey host request keyId ∧
      Genuine host request events invoice ∧ invoice.invoiceId = entry.invoiceId
  | .keyDropped asked key entry =>
    asked = request ∧ key = generateIdempotencyKey host request keyId ∧
      ¬ Lasting host request events now entry.invoiceId
  | .keyCleared asked entry (some _) =>
    asked = request ∧ ¬ Lasting host request events now entry.invoiceId
  | .stored asked key invoice | .published asked key invoice _ =>
    asked = request ∧ key = generateIdempotencyKey host request keyId ∧
      Genuine host request events invoice
  | .done (.invoice invoice) => Genuine host request events invoice
  | .done _ => True
  | _ => False

/-- The stored invoices are genuine, and a record outlasts its invoice. -/
structure Sound (s : Storage) : Prop where
  genuine : ∀ invoiceId invoice, s.invoices.get invoiceId = some invoice →
    Genuine host request events invoice ∧ invoice.invoiceId = invoiceId
  outlasts : ∀ record, s.idempotency.get (generateIdempotencyKey host request keyId) = some record →
    Lasting host request events now record.invoiceId → now < record.expiresAt

/-- The storage and what the calls hold, in the terms of publication. -/
def board (s : Storage) (used : Set JsString) (holding : Nat → Holding JsString) :
    Board Nat JsString where
  published := (s.idempotency.get (generateIdempotencyKey host request keyId)).map (·.invoiceId)
  stored := {invoiceId | (s.invoices.get invoiceId).isSome}
  used
  holding

/-- What every segment keeps. -/
structure Upheld (s : Storage) (used : Set JsString) (holding : Nat → Holding JsString)
    (caller : Nat) (await : Await) : Prop where
  lawful : Lawful (Lasting host request events now) (board host request keyId s used
    (Function.update holding caller await.holding))
  sound : Sound host request keyId events now s
  minds : await.Minds host request keyId events now

end Calls

section Segments
variable {host : Host} {request : CreateInvoiceRequest} {keyId : Option JsString}
variable {events : List Event} {now : Int} {s : Storage} {used : Set JsString}
variable {holding : Nat → Holding JsString} {caller : Nat} {await next : Await}

theorem genuine_lasting (unique : UniqueIds events) (genuine : Genuine host request events invoice)
    (lasting : Lasting host request events now invoice.invoiceId) :
    now < invoice.expiresAt.time := by
  obtain ⟨event,member,rfl⟩ := genuine
  obtain ⟨-,⟨other,member',rfl⟩,same,alive⟩ := lasting
  have : other = event := List.inj_on_of_nodup_map unique member' member same
  exact this ▸ alive

theorem expired_lasting {read : Int} (unique : UniqueIds events) (genuine : Genuine host request events invoice)
    (expired : isExpired invoice.expiresAt read = true) (before : read ≤ now) :
    ¬ Lasting host request events now invoice.invoiceId := by
  intro lasting
  have alive := genuine_lasting unique genuine lasting
  have passed := of_decide_eq_true expired
  omega

/-- A segment that leaves the storage alone lets its call hold what it may read. -/
theorem Upheld.rest (upheld : Upheld host request keyId events now s used holding caller await)
    (may : Reads (board host request keyId s used (Function.update holding caller await.holding))
      caller next.holding) (minds : next.Minds host request keyId events now) :
    Upheld host request keyId events now s used holding caller next := by
  refine ⟨?_,upheld.sound,minds⟩
  have lawful := reads_lawful upheld.lawful may
  simpa only [Board.put,board,Function.update_idem] using lawful

theorem Upheld.forget (upheld : Upheld host request keyId events now s used holding caller await)
    (idle : await.holding.candidate = none) (nothing : next.holding = .nothing)
    (minds : next.Minds host request keyId events now) :
    Upheld host request keyId events now s used holding caller next := by
  refine upheld.rest ?_ minds
  rw [nothing]
  constructor
  · simpa only [board,Function.update_self] using idle
  all_goals simp [Holding.nothing]

/-- A call gives the invoice that it shares as its result. -/
theorem Upheld.give {invoice : Invoice}
    (upheld : Upheld host request keyId events now s used holding caller await)
    (idle : await.holding.candidate = none)
    (shared : await.holding.shared = some invoice.invoiceId)
    (genuine : Genuine host request events invoice) :
    Upheld host request keyId events now s used holding caller (.done (.invoice invoice)) := by
  refine upheld.rest ⟨?_,rfl,nofun,?_,nofun⟩ genuine
  · simpa only [board,Function.update_self] using idle
  · rintro invoiceId ⟨⟩
    refine .inl ?_
    simpa only [board,Function.update_self] using shared

/-- A call goes on with the id that it has read alone. -/
theorem Upheld.recall {invoiceId : JsString}
    (upheld : Upheld host request keyId events now s used holding caller await)
    (idle : await.holding.candidate = none) (read : await.holding.read = some invoiceId)
    (only : next.holding = ⟨some invoiceId,none,none,none⟩)
    (minds : next.Minds host request keyId events now) :
    Upheld host request keyId events now s used holding caller next := by
  refine upheld.rest ?_ minds
  rw [only]
  refine ⟨?_,rfl,?_,nofun,nofun⟩
  · simpa only [board,Function.update_self] using idle
  · rintro other ⟨⟩
    refine .inl ?_
    simpa only [board,Function.update_self] using read

/-- A record is dropped if no lasting invoice is stored behind it. -/
theorem Upheld.clear (upheld : Upheld host request keyId events now s used holding caller await)
    (gone : ∀ record,
      s.idempotency.get (generateIdempotencyKey host request keyId) = some record →
      Lasting host request events now record.invoiceId →
      s.invoices.get record.invoiceId = none) :
    Upheld host request keyId events now
      {s with idempotency := s.idempotency.delete (generateIdempotencyKey host request keyId)}
      used holding caller await := by
  refine ⟨?_,⟨upheld.sound.genuine,?_⟩,upheld.minds⟩
  · have lawful := clears_lawful upheld.lawful fun invoiceId published lasting => by
      obtain ⟨record,found,rfl⟩ := Option.map_eq_some_iff.mp published
      simp [board,gone record found lasting]
    simpa only [board,JsMap.get_delete,if_pos,Option.map_none] using lawful
  · intro record found
    simp [JsMap.get_delete] at found

theorem board_delete (invoiceId : JsString) :
    board host request keyId {s with invoices := s.invoices.delete invoiceId} used holding =
      {board host request keyId s used holding with
        stored := (board host request keyId s used holding).stored \ {invoiceId}} := by
  simp only [board,Board.mk.injEq,true_and,and_true]
  ext other
  by_cases same : other = invoiceId
  · simp [JsMap.get_delete,same]
  · simp [JsMap.get_delete,same]

theorem Sound.delete (sound : Sound host request keyId events now s) (invoiceId : JsString) :
    Sound host request keyId events now {s with invoices := s.invoices.delete invoiceId} := by
  refine ⟨fun other invoice stored => ?_,sound.outlasts⟩
  rw [JsMap.get_delete] at stored
  split at stored
  · simp at stored
  · exact sound.genuine other invoice stored

/-- An invoice that does not last is deleted by a call that has read its id. -/
theorem Upheld.remove (upheld : Upheld host request keyId events now s used holding caller await)
    {invoiceId : JsString} (read : await.holding.read = some invoiceId)
    (dead : ¬ Lasting host request events now invoiceId) :
    Upheld host request keyId events now {s with invoices := s.invoices.delete invoiceId}
      used holding caller await := by
  refine ⟨?_,upheld.sound.delete invoiceId,upheld.minds⟩
  have reads : ((board host request keyId s used (Function.update holding caller
      await.holding)).holding caller).read = some invoiceId := by
    simpa only [board,Function.update_self] using read
  rw [board_delete]
  exact acts_lawful upheld.lawful (.removes reads dead)

/-- The invoice of a call that has lost is deleted by that call. -/
theorem Upheld.withdraw {key : JsString} {invoice : Invoice} {entry : IdempotencyRecord}
    (upheld : Upheld host request keyId events now s used holding caller
      (.published request key invoice (some entry))) :
    Upheld host request keyId events now
      {s with invoices := s.invoices.delete invoice.invoiceId}
      used holding caller (.withdrawn request key entry) := by
  refine ⟨?_,upheld.sound.delete _,upheld.minds.1,upheld.minds.2.1⟩
  have own : ((board host request keyId s used (Function.update holding caller
      (Await.published request key invoice (some entry)).holding)).holding caller).candidate =
        some invoice.invoiceId := by
    simp [board,Await.holding]
  have lawful := acts_lawful upheld.lawful (.withdraws own)
  rw [board_delete]
  simpa only [board,Board.put,Function.update_self,Function.update_idem,Await.holding] using lawful

/-- A new invoice is stored under an id that is not in use. -/
theorem Upheld.create {invoice : Invoice} {key : JsString}
    (upheld : Upheld host request keyId events now s used holding caller await)
    (idle : await.holding.candidate = none) (fresh : invoice.invoiceId ∉ used)
    (minds : Await.Minds host request keyId events now (.stored request key invoice)) :
    Upheld host request keyId events now
      {s with invoices := s.invoices.set invoice.invoiceId invoice}
      (insert invoice.invoiceId used) holding caller (.stored request key invoice) := by
  refine ⟨?_,⟨fun other found stored => ?_,upheld.sound.outlasts⟩,minds⟩
  · have idles : ((board host request keyId s used (Function.update holding caller
        await.holding)).holding caller).candidate = none := by
      simpa only [board,Function.update_self] using idle
    have lawful := acts_lawful upheld.lawful (.creates idles fresh)
    have stored : {other | ((s.invoices.set invoice.invoiceId invoice).get other).isSome} =
        insert invoice.invoiceId {other | (s.invoices.get other).isSome} := by
      ext other
      by_cases same : other = invoice.invoiceId
      · simp [JsMap.get_set,same]
      · simp [JsMap.get_set,same]
    simpa only [board,stored,Board.put,Function.update_idem,Await.holding] using lawful
  · rw [JsMap.get_set] at stored
    split at stored
    · rename_i same
      obtain rfl := Option.some.inj stored
      exact ⟨minds.2.2,same.symm⟩
    · exact upheld.sound.genuine other found stored

/-- A lookup drops a record that is over, and otherwise reads it. -/
theorem Upheld.lookup {time : Int}
    (upheld : Upheld host request keyId events now s used holding caller await)
    (idle : await.holding.candidate = none) (before : time ≤ now) :
    Upheld host request keyId events now
      (s.lookup (generateIdempotencyKey host request keyId) time).1 used holding caller
      (.lookedUp request (generateIdempotencyKey host request keyId)
        (s.lookup (generateIdempotencyKey host request keyId) time).2) := by
  unfold Storage.lookup
  split
  · exact upheld.forget idle rfl ⟨rfl,rfl⟩
  · rename_i record found
    split
    · rename_i ended
      refine (upheld.clear fun other here lasting => ?_).forget idle rfl ⟨rfl,rfl⟩
      rw [found,Option.some.injEq] at here
      have alive := upheld.sound.outlasts record found (here ▸ lasting)
      omega
    · refine upheld.rest ⟨?_,rfl,?_,nofun,nofun⟩ ⟨rfl,rfl⟩
      · simpa only [board,Function.update_self] using idle
      · intro invoiceId read
        refine .inr ?_
        simp only [board,found]
        exact read

/-- A call reads the invoice of a record, or finds none. -/
theorem Upheld.fetch {key : JsString} {entry : IdempotencyRecord}
    (upheld : Upheld host request keyId events now s used holding caller await)
    (idle : await.holding.candidate = none) (read : await.holding.read = some entry.invoiceId)
    (same : key = generateIdempotencyKey host request keyId) :
    Upheld host request keyId events now s used holding caller
        (.fetched request key entry (s.invoices.get entry.invoiceId)) ∧
      Upheld host request keyId events now s used holding caller
        (.refetched request key entry (s.invoices.get entry.invoiceId)) := by
  have idle : ((board host request keyId s used (Function.update holding caller
      await.holding)).holding caller).candidate = none := by
    simpa only [board,Function.update_self] using idle
  have reads : ((board host request keyId s used (Function.update holding caller
      await.holding)).holding caller).read = some entry.invoiceId := by
    simpa only [board,Function.update_self] using read
  cases found : s.invoices.get entry.invoiceId with
  | none =>
    refine ⟨upheld.rest ⟨idle,rfl,?_,by simp [Await.holding],by simp [Await.holding]⟩ ⟨rfl,same⟩,
      upheld.rest ⟨idle,rfl,?_,by simp [Await.holding],?_⟩ ⟨rfl,same⟩⟩
    · rintro invoiceId ⟨⟩
      exact .inl reads
    · rintro invoiceId ⟨⟩
      exact .inl reads
    · rintro invoiceId ⟨⟩
      exact ⟨reads,by simp [board,found]⟩
  | some invoice =>
    obtain ⟨genuine,named⟩ := upheld.sound.genuine _ _ found
    refine ⟨upheld.rest ⟨idle,rfl,?_,?_,by simp [Await.holding]⟩ ⟨rfl,same,genuine,named⟩,
      upheld.rest ⟨idle,rfl,?_,?_,by simp [Await.holding]⟩ ⟨rfl,same,genuine,named⟩⟩
    · rintro invoiceId ⟨⟩
      exact .inl reads
    · rintro invoiceId ⟨⟩
      exact .inr ⟨named ▸ reads,by simp [board,named,found]⟩
    · rintro invoiceId ⟨⟩
      exact .inl reads
    · rintro invoiceId ⟨⟩
      exact .inr ⟨named ▸ reads,by simp [board,named,found]⟩

/-- A candidate is published where no record is left, under one that outlasts it. -/
theorem Upheld.publish {invoice : Invoice} {record : IdempotencyRecord} (unique : UniqueIds events)
    (upheld : Upheld host request keyId events now s used holding caller
      (.stored request (generateIdempotencyKey host request keyId) invoice))
    (vacant : s.idempotency.get (generateIdempotencyKey host request keyId) = none)
    (named : record.invoiceId = invoice.invoiceId)
    (outlasts : invoice.expiresAt.time ≤ record.expiresAt) :
    Upheld host request keyId events now {s with
        idempotency := s.idempotency.set (generateIdempotencyKey host request keyId) record}
      used holding caller
      (.published request (generateIdempotencyKey host request keyId) invoice none) := by
  refine ⟨?_,⟨upheld.sound.genuine,fun other found lasting => ?_⟩,upheld.minds⟩
  · have own : ((board host request keyId s used (Function.update holding caller
        (Await.stored request (generateIdempotencyKey host request keyId)
          invoice).holding)).holding caller).candidate = some invoice.invoiceId := by
      simp [board,Await.holding]
    have lawful := acts_lawful upheld.lawful (.publishes own (by simp [board,vacant]))
    simpa only [board,Board.put,Function.update_idem,Await.holding,JsMap.get_set,if_pos,
      Option.map_some,named] using lawful
  · rw [JsMap.get_set,if_pos rfl,Option.some.injEq] at found
    subst found
    have alive := genuine_lasting unique upheld.minds.2.2 (named ▸ lasting)
    omega

theorem Upheld.lose {invoice : Invoice} {entry : IdempotencyRecord}
    (upheld : Upheld host request keyId events now s used holding caller
      (.stored request (generateIdempotencyKey host request keyId) invoice))
    (taken : s.idempotency.get (generateIdempotencyKey host request keyId) = some entry) :
    Upheld host request keyId events now s used holding caller
      (.published request (generateIdempotencyKey host request keyId) invoice (some entry)) := by
  refine ⟨?_,upheld.sound,upheld.minds⟩
  have own : ((board host request keyId s used (Function.update holding caller
      (Await.stored request (generateIdempotencyKey host request keyId)
        invoice).holding)).holding caller).candidate = some invoice.invoiceId := by
    simp [board,Await.holding]
  have here : (board host request keyId s used (Function.update holding caller
      (Await.stored request (generateIdempotencyKey host request keyId)
        invoice).holding)).published = some entry.invoiceId := by
    simp [board,taken]
  have lawful := acts_lawful upheld.lawful (.loses own here)
  simpa only [board,Board.put,Function.update_idem,Await.holding] using lawful

/-- The atomic set of a record that is not there, or over. -/
theorem Upheld.setIfAbsent {invoice : Invoice} {record : IdempotencyRecord} {time : Int}
    (unique : UniqueIds events)
    (upheld : Upheld host request keyId events now s used holding caller
      (.stored request (generateIdempotencyKey host request keyId) invoice))
    (named : record.invoiceId = invoice.invoiceId)
    (outlasts : invoice.expiresAt.time ≤ record.expiresAt) (before : time ≤ now) :
    Upheld host request keyId events now
      (s.setIfAbsent (generateIdempotencyKey host request keyId) record time).1 used holding caller
      (.published request (generateIdempotencyKey host request keyId) invoice
        (s.setIfAbsent (generateIdempotencyKey host request keyId) record time).2) := by
  unfold Storage.setIfAbsent
  split
  · rename_i vacant
    exact upheld.publish unique vacant named outlasts
  · rename_i existing found
    split
    · exact upheld.lose found
    · rename_i ended
      refine (upheld.clear fun other here lasting => ?_).publish unique
        (by simp [JsMap.get_delete]) named outlasts
      rw [found,Option.some.injEq] at here
      have alive := upheld.sound.outlasts existing found (here ▸ lasting)
      omega

theorem Upheld.more {used' : Set JsString}
    (upheld : Upheld host request keyId events now s used holding caller await)
    (more : used ⊆ used') : Upheld host request keyId events now s used' holding caller await :=
  ⟨upheld.lawful.more more,upheld.sound,upheld.minds⟩

variable {event : Event}

theorem begin_upheld (upheld : Upheld host request keyId events now s used holding caller await)
    (idle : await.holding.candidate = none) : Upheld host request keyId events now
      ((beginCreateInvoice request event.inputs).perform event.inputs.storageNow s).1
      used holding caller
      ((beginCreateInvoice request event.inputs).perform event.inputs.storageNow s).2 := by
  unfold beginCreateInvoice
  split
  · exact upheld.forget idle rfl trivial
  · exact upheld.forget idle rfl rfl

/-- A candidate that has not expired when it is made leaves the request as it was. -/
theorem generate_upheld {key : JsString}
    (upheld : Upheld host request keyId events now s used holding caller await)
    (idle : await.holding.candidate = none) (member : event ∈ events)
    (fresh : event.inputs.invoiceId ∉ used)
    (same : key = generateIdempotencyKey host request keyId)
    (timely : (!isExpired (candidate host request event.inputs).expiresAt
      (event.inputs.reads 2)) = true) :
    Upheld host request keyId events now
      ((generateInvoice host request key event.inputs).perform event.inputs.storageNow s).1
      (insert event.inputs.invoiceId used) holding caller
      ((generateInvoice host request key event.inputs).perform event.inputs.storageNow s).2 := by
  have unchanged : requestAfter host request (candidate host request event.inputs).expiresAt
      event.inputs = request := by
    have alive : event.inputs.reads 2 < (candidate host request event.inputs).expiresAt.time := by
      simpa [isExpired] using timely
    simp [requestAfter,validateExpirationTime,check,alive]
  simp only [generateInvoice,Command.perform,unchanged]
  exact upheld.create idle fresh ⟨rfl,same,event,member,rfl⟩

theorem agreed_gone {entry : IdempotencyRecord} {key : JsString}
    (agrees : ((s.idempotency.get key).all fun record =>
      record.invoiceId = entry.invoiceId) = true)
    (dead : ¬ Lasting host request events now entry.invoiceId) :
    ∀ record, s.idempotency.get key = some record →
      Lasting host request events now record.invoiceId →
      s.invoices.get record.invoiceId = none := by
  intro record found lasting
  have read := of_decide_eq_true ((Option.all_eq_true _ _).mp agrees record found)
  exact absurd (read ▸ lasting) dead

/-- What a call holds to, it holds to after its segment. -/
theorem resume_upheld (unique : UniqueIds events) (member : event ∈ events)
    (before : event.inputs.Before now) (fresh : event.inputs.invoiceId ∉ used)
    (answers : ∀ answer, event.inputs.keyId = some answer → answer = keyId)
    (agrees : await.agrees host s.idempotency event.inputs = true)
    (upheld : Upheld host request keyId events now s used holding caller await) :
    Upheld host request keyId events now
      ((resumeCreateInvoice host await event.inputs).perform event.inputs.storageNow s).1
      (insert event.inputs.invoiceId used) holding caller
      ((resumeCreateInvoice host await event.inputs).perform event.inputs.storageNow s).2 := by
  have more : used ⊆ insert event.inputs.invoiceId used := Set.subset_insert _ _
  have minds := upheld.minds
  cases await with
  | authorizing asked =>
    simp only [resumeCreateInvoice]
    refine Upheld.more ?_ more
    split
    · exact upheld.forget rfl rfl trivial
    · exact upheld.forget rfl rfl trivial
    · exact upheld.forget rfl rfl minds
  | identifying asked =>
    obtain rfl : asked = request := minds
    simp only [resumeCreateInvoice]
    refine Upheld.more ?_ more
    split
    · exact upheld.forget rfl rfl trivial
    · rename_i answer answered
      rw [answers answer answered]
      exact upheld.lookup rfl before.2
  | lookedUp asked key entry =>
    obtain ⟨rfl,same⟩ := minds
    cases entry with
    | none =>
      simp only [resumeCreateInvoice]
      exact generate_upheld upheld rfl member fresh same agrees
    | some entry =>
      simp only [resumeCreateInvoice]
      refine Upheld.more ?_ more
      exact (upheld.fetch rfl rfl same).1
  | fetched asked key entry found =>
    cases found with
    | none =>
      obtain ⟨rfl,same⟩ := minds
      simp only [resumeCreateInvoice]
      exact generate_upheld upheld rfl member fresh same agrees
    | some invoice =>
      obtain ⟨rfl,same,genuine,named⟩ := minds
      obtain rfl := same.symm
      simp only [resumeCreateInvoice]
      refine Upheld.more ?_ more
      split
      · rename_i expired
        have dead := named ▸ expired_lasting unique genuine expired (before.1 0)
        simp only [Await.agrees,expired,Bool.not_true,Bool.false_or] at agrees
        exact (upheld.clear (agreed_gone agrees dead)).recall rfl rfl rfl ⟨rfl,rfl,dead⟩
      · exact upheld.give rfl rfl genuine
  | keyDropped asked key entry =>
    obtain ⟨rfl,same,dead⟩ := minds
    simp only [resumeCreateInvoice]
    refine Upheld.more ?_ more
    exact (upheld.remove rfl dead).forget rfl rfl ⟨rfl,same⟩
  | invoiceDropped asked key =>
    obtain ⟨rfl,same⟩ := minds
    simp only [resumeCreateInvoice]
    exact generate_upheld upheld rfl member fresh same agrees
  | stored asked key invoice =>
    obtain ⟨rfl,same,genuine⟩ := minds
    obtain rfl := same.symm
    simp only [resumeCreateInvoice,Command.perform,Prod.map,id_eq]
    refine Upheld.more (upheld.setIfAbsent unique ?_ ?_ before.2) more
    · rfl
    · exact le_max_left _ _
  | published asked key invoice existing =>
    obtain ⟨rfl,same,genuine⟩ := minds
    cases existing with
    | none =>
      simp only [resumeCreateInvoice]
      refine Upheld.more ?_ more
      exact upheld.give rfl rfl genuine
    | some entry =>
      simp only [resumeCreateInvoice]
      refine Upheld.more ?_ more
      exact upheld.withdraw
  | withdrawn asked key entry =>
    obtain ⟨rfl,same⟩ := minds
    simp only [resumeCreateInvoice]
    refine Upheld.more ?_ more
    exact (upheld.fetch rfl rfl same).2
  | refetched asked key entry found =>
    cases found with
    | none =>
      obtain ⟨rfl,same⟩ := minds
      obtain rfl := same.symm
      simp only [resumeCreateInvoice]
      refine Upheld.more ?_ more
      have absent := (upheld.lawful.missing caller entry.invoiceId (by simp [board,Await.holding])).2
      refine (upheld.clear fun record found _ => ?_).forget rfl rfl rfl
      simp only [Await.agrees,Option.all_eq_true] at agrees
      rw [of_decide_eq_true (agrees record found)]
      simpa [board] using absent
    | some invoice =>
      obtain ⟨rfl,same,genuine,named⟩ := minds
      obtain rfl := same.symm
      simp only [resumeCreateInvoice]
      refine Upheld.more ?_ more
      split
      · rename_i expired
        have dead := named ▸ expired_lasting unique genuine expired (before.1 0)
        simp only [Await.agrees,expired,Bool.not_true,Bool.false_or] at agrees
        exact (upheld.clear (agreed_gone agrees dead)).recall rfl rfl rfl ⟨rfl,dead⟩
      · exact upheld.give rfl rfl genuine
  | keyCleared asked entry found =>
    cases found with
    | none =>
      obtain rfl : asked = request := minds
      simp only [resumeCreateInvoice]
      refine Upheld.more ?_ more
      exact begin_upheld upheld rfl
    | some invoice =>
      obtain ⟨rfl,dead⟩ := minds
      simp only [resumeCreateInvoice]
      refine Upheld.more ?_ more
      exact (upheld.remove rfl dead).forget rfl rfl rfl
  | cleared asked =>
    obtain rfl : asked = request := minds
    simp only [resumeCreateInvoice]
    refine Upheld.more ?_ more
    exact begin_upheld upheld rfl
  | done outcome => exact upheld.more more
  | _ => exact minds.elim

end Segments

section Runs
variable {host : Host} {configured : Option JsString} {request : CreateInvoiceRequest}
variable {merchantApiKey : JsString} {keyId : Option JsString} {events : List Event} {now : Int}

def World.holding (w : World) (i : Nat) : Holding JsString :=
  ((w.calls[i]?).map fun call => call.await.holding).getD .nothing

/-- What every repeating run keeps. -/
structure Consistent (host : Host) (request : CreateInvoiceRequest) (merchantApiKey : JsString)
    (keyId : Option JsString) (events : List Event) (now : Int) (past : List Event) (w : World) :
    Prop where
  lawful : Lawful (Lasting host request events now)
    (board host request keyId w.storage {id | id ∈ past.map (·.inputs.invoiceId)} w.holding)
  sound : Sound host request keyId events now w.storage
  calls : ∀ (i : Nat) (call : Call), w.calls[i]? = some call →
    call.operation = .createInvoice request merchantApiKey ∧
      call.await.Minds host request keyId events now

/-- A segment goes on from an await of its call, or from nothing. -/
theorem segment_resumes {w : World} {event : Event} {past : List Event}
    (repeats : Repeats request merchantApiKey keyId events) (member : event ∈ events)
    (agrees : w.agrees host event = true)
    (consistent : Consistent host request merchantApiKey keyId events now past w)
    (ran : w.segment host configured event = some (operation,command)) :
    ∃ await : Await, operation = .createInvoice request merchantApiKey ∧
      command = resumeCreateInvoice host await event.inputs ∧
      w.holding (w.caller event) = await.holding ∧
      await.agrees host w.storage.idempotency event.inputs = true ∧
      await.Minds host request keyId events now := by
  rcases segment_cases ran with ⟨absent,begins⟩ | ⟨call,found,rfl,rfl⟩
  · cases event with
    | start asked inputs =>
      obtain ⟨rfl,-⟩ := Prod.mk.inj (Option.some.inj ran)
      obtain rfl := repeats.operation asked inputs member
      exact ⟨.cleared request,rfl,begins,by simp [World.holding,absent,Await.holding],rfl,rfl⟩
    | resume index inputs =>
      obtain ⟨call,found,-⟩ := Option.map_eq_some_iff.mp ran
      simp [World.caller,found] at absent
  · obtain ⟨same,minds⟩ := consistent.calls _ call found
    refine ⟨call.await,same,?_,by simp [World.holding,found],?_,minds⟩
    · simp only [Call.resume,same]
    · simpa [World.agrees,found] using agrees

theorem next_holding {w : World} {event : Event}
    (ran : w.segment host configured event = some (operation,command)) :
    (w.next host configured event).holding = Function.update w.holding (w.caller event)
      (command.perform event.inputs.storageNow w.storage).2.holding := by
  funext i
  by_cases caller : i = w.caller event
  · rw [caller,Function.update_self,World.holding,next_caller ran]
    rfl
  · rw [Function.update_of_ne caller,World.holding,World.holding,next_others caller]

theorem Consistent.next {w : World} {event : Event} {past : List Event}
    (unique : UniqueIds events) (repeats : Repeats request merchantApiKey keyId events)
    (member : event ∈ events) (before : event.inputs.Before now)
    (fresh : event.inputs.invoiceId ∉ past.map (·.inputs.invoiceId))
    (agrees : w.agrees host event = true)
    (consistent : Consistent host request merchantApiKey keyId events now past w) :
    Consistent host request merchantApiKey keyId events now (event :: past)
      (w.next host configured event) := by
  cases ran : w.segment host configured event with
  | none =>
    rw [next_idle ran]
    exact ⟨consistent.lawful.more fun id known => List.mem_cons_of_mem _ known,consistent.sound,
      consistent.calls⟩
  | some segment =>
    obtain ⟨operation,command⟩ := segment
    obtain ⟨await,rfl,rfl,held,agreed,minds⟩ :=
      segment_resumes repeats member agrees consistent ran
    have upheld : Upheld host request keyId events now w.storage
        {id | id ∈ past.map (·.inputs.invoiceId)} w.holding (w.caller event) await := by
      refine ⟨?_,consistent.sound,minds⟩
      rw [← held,Function.update_eq_self]
      exact consistent.lawful
    have after := resume_upheld unique member before fresh (repeats.keyId event member) agreed upheld
    rw [← next_storage ran] at after
    have used : insert event.inputs.invoiceId {id | id ∈ past.map (·.inputs.invoiceId)} =
        {id | id ∈ (event :: past).map (·.inputs.invoiceId)} := by
      ext id
      simp
    refine ⟨?_,after.sound,fun i call found => ?_⟩
    · rw [next_holding ran,← used]
      exact after.lawful
    · by_cases caller : i = w.caller event
      · rw [caller,next_caller ran,Option.some.injEq] at found
        subst found
        exact ⟨rfl,after.minds⟩
      · rw [next_others caller] at found
        exact consistent.calls i call found

theorem agreeing_past (later past : List Event)
    (agrees : agreeing host configured (later ++ past) = true) :
    agreeing host configured past = true := by
  induction later with
  | nil => exact agrees
  | cons event later ih => exact ih (Bool.and_eq_true_iff.mp agrees).2

theorem world_consistent (unique : UniqueIds events)
    (repeats : Repeats request merchantApiKey keyId events)
    (before : ∀ event ∈ events, event.inputs.Before now) (past : List Event)
    (within : past <:+ events) (agrees : agreeing host configured past = true) :
    Consistent host request merchantApiKey keyId events now past
      (world host configured past) := by
  induction past with
  | nil =>
    refine ⟨?_,⟨by simp [world],by simp [world]⟩,by simp [world]⟩
    have empty : Lawful (Lasting host request events now)
        (⟨none,∅,∅,fun _ => .nothing⟩ : Board Nat JsString) := empty_lawful _ _
    have calls (storage : Storage) : World.holding ⟨storage,[]⟩ = fun _ => .nothing := by
      funext i
      simp [World.holding]
    simpa [world,board,calls] using empty
  | cons event past ih =>
    obtain ⟨here,earlier⟩ := Bool.and_eq_true_iff.mp agrees
    have member : event ∈ events := within.subset List.mem_cons_self
    have fresh : event.inputs.invoiceId ∉ past.map (·.inputs.invoiceId) := by
      obtain ⟨later,rfl⟩ := within
      exact (List.nodup_cons.mp unique.past).1
    exact (ih ((List.suffix_cons event past).trans within) earlier).next unique repeats member
      (before event member) fresh here

theorem quiescent_candidate {w : World} (quiescent : w.quiescent) (i : Nat) :
    (w.holding i).candidate = none := by
  rw [World.holding]
  cases found : w.calls[i]? with
  | none => rfl
  | some call =>
    obtain ⟨outcome,done⟩ := quiescent call (List.mem_of_getElem? found)
    cases outcome <;> simp [done,Await.holding,Holding.nothing]

/-- Calls that return invoices unexpired at one instant return the same, and when all calls are
done, at most one unexpired pending invoice is stored. -/
def Idempotent (host : Host) (configured : Option JsString) (events : List Event) : Prop :=
  ∀ moment now, moment <:+ events → (∀ event ∈ moment, event.inputs.Before now) →
    (∀ (i j : Nat) (call call' : Operation) (a b : Invoice),
      (world host configured moment).calls[i]? = some ⟨call,.done (.invoice a)⟩ →
      (world host configured moment).calls[j]? = some ⟨call',.done (.invoice b)⟩ →
      isExpired a.expiresAt now = false → isExpired b.expiresAt now = false →
      a.invoiceId = b.invoiceId) ∧
    ((world host configured moment).quiescent → ∀ invoiceId invoiceId' a b,
      (world host configured moment).storage.invoices.get invoiceId = some a →
      (world host configured moment).storage.invoices.get invoiceId' = some b →
      a.status = .pending → b.status = .pending →
      isExpired a.expiresAt now = false → isExpired b.expiresAt now = false →
      invoiceId = invoiceId')

/-- A repeating run that agrees with the records it has read is idempotent. -/
theorem idempotent_creation {events : List Event} (unique : UniqueIds events)
    (repeats : Repeats request merchantApiKey keyId events)
    (agrees : agreeing host configured events = true) : Idempotent host configured events := by
  rintro moment now ⟨later,rfl⟩ before
  have within : moment <:+ later ++ moment := List.suffix_append later moment
  have repeated : Repeats request merchantApiKey keyId moment :=
    ⟨fun operation inputs member => repeats.operation operation inputs (within.subset member),
      fun event member => repeats.keyId event (within.subset member)⟩
  have consistent := world_consistent unique.past repeated before moment (List.suffix_refl _)
    (agreeing_past later moment agrees)
  have lasts {invoice : Invoice} (genuine : Genuine host request moment invoice)
      (alive : isExpired invoice.expiresAt now = false) :
      Lasting host request moment now invoice.invoiceId :=
    ⟨invoice,genuine,rfl,by simpa [isExpired] using alive⟩
  constructor
  · intro i j call call' a b returned returned' alive alive'
    have genuine : Genuine host request moment a := (consistent.calls i _ returned).2
    have genuine' : Genuine host request moment b := (consistent.calls j _ returned').2
    have shared : ((world host configured moment).holding i).shared = some a.invoiceId := by
      simp [World.holding,returned,Await.holding]
    have shared' : ((world host configured moment).holding j).shared = some b.invoiceId := by
      simp [World.holding,returned',Await.holding]
    exact shared_unique consistent.lawful (lasts genuine alive) (lasts genuine' alive') shared
      shared'
  · intro quiescent invoiceId invoiceId' a b stored stored' _ _ alive alive'
    obtain ⟨genuine,rfl⟩ := consistent.sound.genuine _ _ stored
    obtain ⟨genuine',rfl⟩ := consistent.sound.genuine _ _ stored'
    exact stored_unique consistent.lawful (quiescent_candidate quiescent) (lasts genuine alive)
      (lasts genuine' alive') (by simp [board,stored]) (by simp [board,stored'])

end Runs

section Shop

def Await.returned : Await → Option Invoice
  | .done (.invoice invoice) => some invoice
  | _ => none

theorem returned_done {await : Await} (returned : await.returned = some invoice) :
    await = .done (.invoice invoice) := by
  unfold Await.returned at returned
  split at returned
  · obtain rfl := Option.some.inj returned
    rfl
  · simp at returned

/-- The segments of a call from its start to its end, one by one. -/
def shopSegments (index : Nat) (now : Int) (random count : Nat) : List Event :=
  (List.range count).reverse.map fun i => .resume index (shopInputs now (random + i))

def shopStart (now : Int) (random : Nat) : Event :=
  .start (.createInvoice shopRequest (js "sk_1")) (shopInputs now random)

/-- A call creates an invoice and a second one returns it. -/
def sharedRun : List Event :=
  shopSegments 1 1767225600050 21 4 ++ [shopStart 1767225600050 20] ++
    shopSegments 0 1767225600040 4 2 ++ shopSegments 0 1767225600000 1 3 ++
    [shopStart 1767225600000 0]

/-- A day later two calls read the record of the expired invoice. One of them replaces it, and
then the other one drops the new record. -/
def racedRun : List Event :=
  shopSegments 2 1767312000030 34 5 ++ shopSegments 1 1767312000020 14 5 ++
    shopSegments 2 1767312000020 31 3 ++ [shopStart 1767312000020 30] ++
    shopSegments 1 1767312000020 11 3 ++ [shopStart 1767312000020 10] ++
    shopSegments 0 1767225600040 4 2 ++ shopSegments 0 1767225600000 1 3 ++
    [shopStart 1767225600000 0]

/-- The id and the expiry of the invoice that a call has returned. -/
def World.result (w : World) (i : Nat) : Option (JsString × Int) :=
  ((w.calls[i]?).bind fun call => call.await.returned).map fun invoice =>
    (invoice.invoiceId,invoice.expiresAt.time)

theorem result_returned {w : World} {i : Nat} (result : w.result i = some (invoiceId,time)) :
    ∃ operation invoice, w.calls[i]? = some ⟨operation,.done (.invoice invoice)⟩ ∧
      invoice.invoiceId = invoiceId ∧ invoice.expiresAt.time = time := by
  obtain ⟨invoice,found,same⟩ := Option.map_eq_some_iff.mp result
  obtain ⟨⟨operation,await⟩,here,returned⟩ := Option.bind_eq_some_iff.mp found
  obtain ⟨named,expires⟩ := Prod.mk.inj same
  exact ⟨operation,invoice,returned_done returned ▸ here,named,expires⟩

def Event.IsShop (event : Event) : Prop :=
  (∃ now random, event = shopStart now random) ∨
    ∃ index now random, event = .resume index (shopInputs now random)

theorem Event.IsShop.reading {event : Event} (shop : event.IsShop) :
    ∃ now random, event.inputs = shopInputs now random := by
  rcases shop with ⟨now,random,rfl⟩ | ⟨index,now,random,rfl⟩
  · exact ⟨now,random,rfl⟩
  · exact ⟨now,random,rfl⟩

theorem shop_repeats {events : List Event} (shop : ∀ event ∈ events, event.IsShop) :
    Repeats shopRequest (js "sk_1") (some (js "key_1")) events := by
  refine ⟨fun operation inputs member => ?_,fun event member answer answered => ?_⟩
  · rcases shop _ member with ⟨now,random,same⟩ | ⟨index,now,random,same⟩
    · exact (Event.start.inj same).1
    · exact nomatch same
  · obtain ⟨now,random,same⟩ := (shop event member).reading
    rw [same] at answered
    exact (Option.some.inj answered).symm

theorem shop_clocked {events : List Event} (shop : ∀ event ∈ events, event.IsShop)
    (ordered : (events.map (·.inputs.storageNow)).Pairwise (· ≥ ·)) : Clocked events := by
  induction events with
  | nil => trivial
  | cons event past ih =>
    obtain ⟨now,random,same⟩ := (shop event List.mem_cons_self).reading
    obtain ⟨latest,ordered⟩ := List.pairwise_cons.mp ordered
    refine ⟨by simp [same,shopInputs],by simp [same,shopInputs],?_,
      ih (fun event member => shop event (List.mem_cons_of_mem _ member)) ordered⟩
    intro earlier first
    have before := latest _ (List.mem_map_of_mem (List.mem_of_mem_head? first))
    simpa [same,shopInputs] using before

theorem shop_before {events : List Event} {now : Int} (shop : ∀ event ∈ events, event.IsShop)
    (latest : ∀ event ∈ events, event.inputs.storageNow ≤ now) :
    ∀ event ∈ events, event.inputs.Before now := by
  intro event member
  obtain ⟨time,random,same⟩ := (shop event member).reading
  have before := latest event member
  rw [same] at before ⊢
  exact ⟨fun _ => before,before⟩

theorem sharedRun_shop : ∀ event ∈ sharedRun, event.IsShop := by
  simp [sharedRun,shopSegments,Event.IsShop,or_imp,forall_and]

theorem racedRun_shop : ∀ event ∈ racedRun, event.IsShop := by
  simp [racedRun,shopSegments,Event.IsShop,or_imp,forall_and]

theorem sharedRun_shared : Idempotent shopHost (some shopSecret) sharedRun ∧
    (world shopHost (some shopSecret) sharedRun).result 0 =
      (world shopHost (some shopSecret) sharedRun).result 1 := by
  refine ⟨idempotent_creation ?_ (shop_repeats sharedRun_shop) ?_,?_⟩
  · unfold UniqueIds
    decide +kernel
  · decide +kernel
  · decide +kernel

/-- Both of the later calls return an invoice of their own, and both invoices are alive. -/
theorem racedRun_diverges : UniqueIds racedRun ∧ Clocked racedRun ∧
    Repeats shopRequest (js "sk_1") (some (js "key_1")) racedRun ∧
    ¬ Idempotent shopHost (some shopSecret) racedRun := by
  refine ⟨by unfold UniqueIds; decide +kernel,shop_clocked racedRun_shop (by decide +kernel),
    shop_repeats racedRun_shop,?_⟩
  · intro idempotent
    have latest : ∀ event ∈ racedRun, event.inputs.storageNow ≤ 1767312000030 := by
      decide +kernel
    have before := shop_before racedRun_shop latest
    have results : (world shopHost (some shopSecret) racedRun).result 1 =
        some (randomId 16,1767398400020) ∧
        (world shopHost (some shopSecret) racedRun).result 2 =
          some (randomId 36,1767398400030) := by decide +kernel
    obtain ⟨operation,a,returned,named,expires⟩ := result_returned results.1
    obtain ⟨operation',b,returned',named',expires'⟩ := result_returned results.2
    have same := (idempotent racedRun 1767312000030 (List.suffix_refl _) before).1 1 2 operation
      operation' a b returned returned' (by simp [isExpired,expires]) (by simp [isExpired,expires'])
    rw [named,named'] at same
    exact absurd same (by decide +kernel)

end Shop
end Tonbankcard.MerchantApi
