import Mathlib.Data.Set.Insert
import Mathlib.Logic.Function.Basic

/-! Callers that each store a value of their own and then publish its id where none is
published, or share the one that is. If an id is unpublished only when nothing alive is behind
it, all live values that callers share are one. -/

namespace PublishOnce

/-- What a caller holds: the published id it has read, the stored one it has not published, the
one it shares with others and the one that it has found missing. -/
structure Holding (Id : Type) where
  read : Option Id
  candidate : Option Id
  shared : Option Id
  missing : Option Id

def Holding.nothing {Id : Type} : Holding Id := ⟨none,none,none,none⟩

structure Board (Caller Id : Type) where
  published : Option Id
  stored : Set Id
  used : Set Id
  holding : Caller → Holding Id

section Board
variable {Caller Id : Type} [DecidableEq Caller]

def Board.put (board : Board Caller Id) (caller : Caller) (holding : Holding Id) :
    Board Caller Id :=
  {board with holding := Function.update board.holding caller holding}

@[simp] theorem put_same (board : Board Caller Id) (caller : Caller) (holding : Holding Id) :
    (board.put caller holding).holding caller = holding := Function.update_self ..

@[simp] theorem put_other (board : Board Caller Id) (holding : Holding Id) (apart : d ≠ caller) :
    (board.put caller holding).holding d = board.holding d := Function.update_of_ne apart ..

theorem put_cases (board : Board Caller Id) (holding : Holding Id) (c : Caller) :
    c = caller ∨ (board.put caller holding).holding c = board.holding c := by
  by_cases same : c = caller
  · exact .inl same
  · exact .inr (put_other _ _ same)

/-- What the caller may come to hold by reading: the published id, a stored value behind the id
that it has read, or that there is none. -/
structure Reads (board : Board Caller Id) (caller : Caller) (holding : Holding Id) : Prop where
  idle : (board.holding caller).candidate = none
  candidate : holding.candidate = none
  read : ∀ id, holding.read = some id →
    (board.holding caller).read = some id ∨ board.published = some id
  shared : ∀ id, holding.shared = some id → (board.holding caller).shared = some id ∨
    ((board.holding caller).read = some id ∧ id ∈ board.stored)
  missing : ∀ id, holding.missing = some id →
    (board.holding caller).read = some id ∧ id ∉ board.stored

inductive Acts (live : Id → Prop) (board : Board Caller Id) (caller : Caller) :
    Board Caller Id → Prop where
  | reads (holding : Holding Id) (may : Reads board caller holding) :
      Acts live board caller (board.put caller holding)
  | clears (gone : ∀ id, board.published = some id → live id → id ∉ board.stored) :
      Acts live board caller {board with published := none}
  | removes {id : Id} (read : (board.holding caller).read = some id) (dead : ¬ live id) :
      Acts live board caller {board with stored := board.stored \ {id}}
  | creates {id : Id} (idle : (board.holding caller).candidate = none) (fresh : id ∉ board.used) :
      Acts live board caller (Board.put
        {board with stored := insert id board.stored,used := insert id board.used}
        caller ⟨none,some id,none,none⟩)
  | publishes {id : Id} (own : (board.holding caller).candidate = some id)
      (vacant : board.published = none) :
      Acts live board caller (Board.put {board with published := some id} caller
        ⟨none,none,some id,none⟩)
  | loses {id : Id} (own : (board.holding caller).candidate = some id)
      (taken : board.published = some other) :
      Acts live board caller (board.put caller ⟨some other,some id,none,none⟩)
  | withdraws {id : Id} (own : (board.holding caller).candidate = some id) :
      Acts live board caller (Board.put {board with stored := board.stored \ {id}} caller
        ⟨(board.holding caller).read,none,none,none⟩)

/-- Ids are used once they are stored, published or held; a candidate is stored and known to its
caller alone; and what is live and shared, or stored and no candidate, is published and stored. -/
structure Lawful (live : Id → Prop) (board : Board Caller Id) : Prop where
  stored : board.stored ⊆ board.used
  published : ∀ id, board.published = some id → id ∈ board.used
  read : ∀ c id, (board.holding c).read = some id → id ∈ board.used
  shared : ∀ c id, (board.holding c).shared = some id → id ∈ board.used
  missing : ∀ c id, (board.holding c).missing = some id → id ∈ board.used ∧ id ∉ board.stored
  candidate : ∀ c id, (board.holding c).candidate = some id → id ∈ board.stored
  unpublished : ∀ c id, (board.holding c).candidate = some id → board.published ≠ some id
  unread : ∀ c d id, (board.holding c).candidate = some id → (board.holding d).read ≠ some id
  unshared : ∀ c d id, (board.holding c).candidate = some id → (board.holding d).shared ≠ some id
  own : ∀ c d id, (board.holding c).candidate = some id → (board.holding d).candidate = some id →
    c = d
  sharedCurrent : ∀ c id, live id → (board.holding c).shared = some id →
    board.published = some id ∧ id ∈ board.stored
  storedCurrent : ∀ id, live id → id ∈ board.stored →
    (∀ c, (board.holding c).candidate ≠ some id) → board.published = some id

variable {live : Id → Prop} {board board' : Board Caller Id} {caller : Caller}

/-- To read changes what one caller holds only, and to nothing that another one keeps back. -/
theorem reads_lawful (lawful : Lawful live board) (may : Reads board caller holding) :
    Lawful live (board.put caller holding) := by
  have candidate (c : Caller) (id : Id) :
      ((board.put caller holding).holding c).candidate = some id →
        (board.holding c).candidate = some id := by
    intro own
    by_cases same : c = caller
    · subst same
      simp [may.candidate] at own
    · rwa [put_other _ _ same] at own
  have kept (c : Caller) (id : Id) (own : (board.holding c).candidate = some id) :
      ((board.put caller holding).holding c).candidate = some id := by
    by_cases same : c = caller
    · subst same
      simp [may.idle] at own
    · rwa [put_other _ _ same]
  refine ⟨lawful.stored,lawful.published,?_,?_,?_,?_,?_,?_,?_,?_,?_,?_⟩
  · intro c id read
    by_cases same : c = caller
    · subst same
      rw [put_same] at read
      rcases may.read id read with before | here
      · exact lawful.read c id before
      · exact lawful.published id here
    · rw [put_other _ _ same] at read
      exact lawful.read c id read
  · intro c id shared
    by_cases same : c = caller
    · subst same
      rw [put_same] at shared
      rcases may.shared id shared with before | ⟨-,stored⟩
      · exact lawful.shared c id before
      · exact lawful.stored stored
    · rw [put_other _ _ same] at shared
      exact lawful.shared c id shared
  · intro c id missing
    by_cases same : c = caller
    · subst same
      rw [put_same] at missing
      obtain ⟨read,absent⟩ := may.missing id missing
      exact ⟨lawful.read c id read,absent⟩
    · rw [put_other _ _ same] at missing
      exact lawful.missing c id missing
  · exact fun c id own => lawful.candidate c id (candidate c id own)
  · exact fun c id own => lawful.unpublished c id (candidate c id own)
  · intro c d id own read
    have mine := candidate c id own
    by_cases same : d = caller
    · subst same
      rw [put_same] at read
      rcases may.read id read with before | here
      · exact lawful.unread c d id mine before
      · exact lawful.unpublished c id mine here
    · rw [put_other _ _ same] at read
      exact lawful.unread c d id mine read
  · intro c d id own shared
    have mine := candidate c id own
    by_cases same : d = caller
    · subst same
      rw [put_same] at shared
      rcases may.shared id shared with before | ⟨read,-⟩
      · exact lawful.unshared c d id mine before
      · exact lawful.unread c d id mine read
    · rw [put_other _ _ same] at shared
      exact lawful.unshared c d id mine shared
  · exact fun c d id own own' => lawful.own c d id (candidate c id own) (candidate d id own')
  · intro c id alive shared
    by_cases same : c = caller
    · subst same
      rw [put_same] at shared
      rcases may.shared id shared with before | ⟨read,stored⟩
      · exact lawful.sharedCurrent c id alive before
      · exact ⟨lawful.storedCurrent id alive stored fun d own => lawful.unread d c id own read,
          stored⟩
    · rw [put_other _ _ same] at shared
      exact lawful.sharedCurrent c id alive shared
  · exact fun id alive stored nobody =>
      lawful.storedCurrent id alive stored fun c own => nobody c (kept c id own)

omit [DecidableEq Caller] in
/-- Nothing live is behind an id that is unpublished so. -/
theorem clears_lawful (lawful : Lawful live board)
    (gone : ∀ id, board.published = some id → live id → id ∉ board.stored) :
    Lawful live {board with published := none} := by
  refine ⟨lawful.stored,by simp,lawful.read,lawful.shared,lawful.missing,lawful.candidate,by simp,
    lawful.unread,lawful.unshared,lawful.own,?_,?_⟩
  · intro c id alive shared
    obtain ⟨published,stored⟩ := lawful.sharedCurrent c id alive shared
    exact absurd stored (gone id published alive)
  · intro id alive stored nobody
    exact absurd stored (gone id (lawful.storedCurrent id alive stored nobody) alive)

omit [DecidableEq Caller] in
theorem removes_lawful {id : Id} (lawful : Lawful live board)
    (shown : ∀ c, (board.holding c).candidate ≠ some id) (dead : ¬ live id) :
    Lawful live {board with stored := board.stored \ {id}} := by
  refine ⟨fun other stored => lawful.stored stored.1,lawful.published,lawful.read,lawful.shared,
    fun c other missing => ⟨(lawful.missing c other missing).1,
      fun stored => (lawful.missing c other missing).2 stored.1⟩,?_,lawful.unpublished,
    lawful.unread,lawful.unshared,lawful.own,?_,?_⟩
  · intro c other own
    refine ⟨lawful.candidate c other own,?_⟩
    rintro rfl
    exact shown c own
  · intro c other alive shared
    obtain ⟨published,stored⟩ := lawful.sharedCurrent c other alive shared
    refine ⟨published,stored,?_⟩
    rintro rfl
    exact dead alive
  · exact fun other alive stored nobody => lawful.storedCurrent other alive stored.1 nobody

theorem creates_lawful {id : Id} (lawful : Lawful live board)
    (idle : (board.holding caller).candidate = none) (fresh : id ∉ board.used) :
    Lawful live (Board.put
      {board with stored := insert id board.stored,used := insert id board.used}
      caller ⟨none,some id,none,none⟩) := by
  have cases (c : Caller) : c = caller ∨ (Board.put
      {board with stored := insert id board.stored,used := insert id board.used}
      caller ⟨none,some id,none,none⟩).holding c = board.holding c := put_cases _ _ c
  refine ⟨Set.insert_subset_insert lawful.stored,
    fun other published => .inr (lawful.published other published),?_,?_,?_,?_,?_,?_,?_,?_,?_,?_⟩
  · intro c other read
    rcases cases c with rfl | same
    · simp at read
    · exact .inr (lawful.read c other (same ▸ read))
  · intro c other shared
    rcases cases c with rfl | same
    · simp at shared
    · exact .inr (lawful.shared c other (same ▸ shared))
  · intro c other missing
    rcases cases c with rfl | same
    · simp at missing
    · obtain ⟨used,absent⟩ := lawful.missing c other (same ▸ missing)
      refine ⟨.inr used,?_⟩
      rintro (rfl | stored)
      · exact fresh used
      · exact absent stored
  · intro c other own
    rcases cases c with rfl | same
    · rw [put_same] at own
      exact .inl (Option.some.inj own).symm
    · exact .inr (lawful.candidate c other (same ▸ own))
  · intro c other own published
    rcases cases c with rfl | same
    · rw [put_same] at own
      exact fresh (Option.some.inj own ▸ lawful.published other published)
    · exact lawful.unpublished c other (same ▸ own) published
  · intro c d other own read
    rcases cases d with rfl | same'
    · simp at read
    rw [same'] at read
    rcases cases c with rfl | same
    · rw [put_same] at own
      exact fresh (Option.some.inj own ▸ lawful.read d other read)
    · exact lawful.unread c d other (same ▸ own) read
  · intro c d other own shared
    rcases cases d with rfl | same'
    · simp at shared
    rw [same'] at shared
    rcases cases c with rfl | same
    · rw [put_same] at own
      exact fresh (Option.some.inj own ▸ lawful.shared d other shared)
    · exact lawful.unshared c d other (same ▸ own) shared
  · intro c d other own own'
    rcases cases c with rfl | same
    · rcases cases d with rfl | same'
      · rfl
      · rw [put_same] at own
        rw [same'] at own'
        exact absurd (Option.some.inj own ▸ lawful.stored (lawful.candidate d other own')) fresh
    · rw [same] at own
      rcases cases d with rfl | same'
      · rw [put_same] at own'
        exact absurd (Option.some.inj own' ▸ lawful.stored (lawful.candidate c other own)) fresh
      · exact lawful.own c d other own (same' ▸ own')
  · intro c other alive shared
    rcases cases c with rfl | same
    · simp at shared
    · obtain ⟨published,stored⟩ := lawful.sharedCurrent c other alive (same ▸ shared)
      exact ⟨published,.inr stored⟩
  · rintro other alive (rfl | stored) nobody
    · exact absurd (by rw [put_same]) (nobody caller)
    · refine lawful.storedCurrent other alive stored fun c own => ?_
      rcases cases c with rfl | same
      · simp [idle] at own
      · exact nobody c (same ▸ own)

/-- Where none is published, nothing live is shared or stored but candidates. -/
theorem publishes_lawful {id : Id} (lawful : Lawful live board)
    (own : (board.holding caller).candidate = some id) (vacant : board.published = none) :
    Lawful live (Board.put {board with published := some id} caller ⟨none,none,some id,none⟩) := by
  have cases (c : Caller) : c = caller ∨ (Board.put {board with published := some id} caller
      ⟨none,none,some id,none⟩).holding c = board.holding c := put_cases _ _ c
  have stored := lawful.candidate caller id own
  refine ⟨lawful.stored,?_,?_,?_,?_,?_,?_,?_,?_,?_,?_,?_⟩
  · intro other published
    exact Option.some.inj published ▸ lawful.stored stored
  · intro c other read
    rcases cases c with rfl | same
    · simp at read
    · exact lawful.read c other (same ▸ read)
  · intro c other shared
    rcases cases c with rfl | same
    · rw [put_same] at shared
      exact Option.some.inj shared ▸ lawful.stored stored
    · exact lawful.shared c other (same ▸ shared)
  · intro c other missing
    rcases cases c with rfl | same
    · simp at missing
    · exact lawful.missing c other (same ▸ missing)
  · intro c other mine
    rcases cases c with rfl | same
    · simp at mine
    · exact lawful.candidate c other (same ▸ mine)
  · intro c other mine published
    rcases cases c with rfl | same
    · simp at mine
    · obtain rfl := Option.some.inj published
      have here : caller = c := lawful.own caller c id own (same ▸ mine)
      subst here
      simp at mine
  · intro c d other mine read
    rcases cases d with rfl | same'
    · simp at read
    rcases cases c with rfl | same
    · simp at mine
    · exact lawful.unread c d other (same ▸ mine) (same' ▸ read)
  · intro c d other mine shared
    rcases cases c with rfl | same
    · simp at mine
    rcases cases d with rfl | same'
    · rw [put_same] at shared
      obtain rfl := Option.some.inj shared
      have here : d = c := lawful.own d c id own (same ▸ mine)
      subst here
      simp at mine
    · exact lawful.unshared c d other (same ▸ mine) (same' ▸ shared)
  · intro c d other mine yours
    rcases cases c with rfl | same
    · simp at mine
    rcases cases d with rfl | same'
    · simp at yours
    · exact lawful.own c d other (same ▸ mine) (same' ▸ yours)
  · intro c other alive shared
    rcases cases c with rfl | same
    · rw [put_same] at shared
      exact Option.some.inj shared ▸ ⟨rfl,stored⟩
    · have before := (lawful.sharedCurrent c other alive (same ▸ shared)).1
      simp [vacant] at before
  · intro other alive kept nobody
    by_cases here : id = other
    · exact congrArg some here
    · have before := lawful.storedCurrent other alive kept fun c mine => by
        rcases cases c with rfl | same
        · exact here (Option.some.inj (own.symm.trans mine))
        · exact nobody c (same ▸ mine)
      simp [vacant] at before

/-- A caller that keeps its candidate reads the published id, which is another one. -/
theorem loses_lawful {id other : Id} (lawful : Lawful live board)
    (own : (board.holding caller).candidate = some id) (taken : board.published = some other) :
    Lawful live (board.put caller ⟨some other,some id,none,none⟩) := by
  have cases (c : Caller) : c = caller ∨
      (board.put caller ⟨some other,some id,none,none⟩).holding c = board.holding c := put_cases _ _ c
  have candidate (c : Caller) : ((board.put caller ⟨some other,some id,none,none⟩).holding
      c).candidate = (board.holding c).candidate := by
    rcases cases c with rfl | same
    · rw [put_same,own]
    · rw [same]
  refine ⟨lawful.stored,lawful.published,?_,?_,?_,?_,?_,?_,?_,?_,?_,?_⟩
  · intro c key read
    rcases cases c with rfl | same
    · rw [put_same] at read
      exact lawful.published key (taken.trans read)
    · exact lawful.read c key (same ▸ read)
  · intro c key shared
    rcases cases c with rfl | same
    · simp at shared
    · exact lawful.shared c key (same ▸ shared)
  · intro c key missing
    rcases cases c with rfl | same
    · simp at missing
    · exact lawful.missing c key (same ▸ missing)
  · exact fun c key mine => lawful.candidate c key (candidate c ▸ mine)
  · exact fun c key mine => lawful.unpublished c key (candidate c ▸ mine)
  · intro c d key mine read
    rw [candidate] at mine
    rcases cases d with rfl | same
    · rw [put_same] at read
      exact lawful.unpublished c key mine (taken.trans read)
    · exact lawful.unread c d key mine (same ▸ read)
  · intro c d key mine shared
    rw [candidate] at mine
    rcases cases d with rfl | same
    · simp at shared
    · exact lawful.unshared c d key mine (same ▸ shared)
  · intro c d key mine yours
    rw [candidate] at mine yours
    exact lawful.own c d key mine yours
  · intro c key alive shared
    rcases cases c with rfl | same
    · simp at shared
    · exact lawful.sharedCurrent c key alive (same ▸ shared)
  · intro key alive stored nobody
    exact lawful.storedCurrent key alive stored fun c mine => nobody c (candidate c ▸ mine)

theorem withdraws_lawful {id : Id} (lawful : Lawful live board)
    (own : (board.holding caller).candidate = some id) :
    Lawful live (Board.put {board with stored := board.stored \ {id}} caller
      ⟨(board.holding caller).read,none,none,none⟩) := by
  have cases (c : Caller) : c = caller ∨ (Board.put {board with stored := board.stored \ {id}}
      caller ⟨(board.holding caller).read,none,none,none⟩).holding c = board.holding c := put_cases _ _ c
  have read (c : Caller) : ((Board.put {board with stored := board.stored \ {id}} caller
      ⟨(board.holding caller).read,none,none,none⟩).holding c).read = (board.holding c).read := by
    rcases cases c with rfl | same
    · rw [put_same]
    · rw [same]
  refine ⟨fun key stored => lawful.stored stored.1,lawful.published,
    fun c key reads => lawful.read c key (read c ▸ reads),?_,?_,?_,?_,?_,?_,?_,?_,?_⟩
  · intro c key shared
    rcases cases c with rfl | same
    · simp at shared
    · exact lawful.shared c key (same ▸ shared)
  · intro c key missing
    rcases cases c with rfl | same
    · simp at missing
    · obtain ⟨used,absent⟩ := lawful.missing c key (same ▸ missing)
      exact ⟨used,fun stored => absent stored.1⟩
  · intro c key mine
    rcases cases c with rfl | same
    · simp at mine
    · refine ⟨lawful.candidate c key (same ▸ mine),?_⟩
      rintro rfl
      have here : caller = c := lawful.own caller c key own (same ▸ mine)
      subst here
      simp at mine
  · intro c key mine
    rcases cases c with rfl | same
    · simp at mine
    · exact lawful.unpublished c key (same ▸ mine)
  · intro c d key mine reads
    rcases cases c with rfl | same
    · simp at mine
    · exact lawful.unread c d key (same ▸ mine) (read d ▸ reads)
  · intro c d key mine shared
    rcases cases c with rfl | same
    · simp at mine
    rcases cases d with rfl | same'
    · simp at shared
    · exact lawful.unshared c d key (same ▸ mine) (same' ▸ shared)
  · intro c d key mine yours
    rcases cases c with rfl | same
    · simp at mine
    rcases cases d with rfl | same'
    · simp at yours
    · exact lawful.own c d key (same ▸ mine) (same' ▸ yours)
  · intro c key alive shared
    rcases cases c with rfl | same
    · simp at shared
    · obtain ⟨published,stored⟩ := lawful.sharedCurrent c key alive (same ▸ shared)
      refine ⟨published,stored,?_⟩
      rintro rfl
      exact lawful.unshared caller c key own (same ▸ shared)
  · intro key alive stored nobody
    refine lawful.storedCurrent key alive stored.1 fun c mine => ?_
    rcases cases c with rfl | same
    · exact stored.2 (Option.some.inj (mine.symm.trans own))
    · exact nobody c (same ▸ mine)

/-- Every act keeps the board lawful. -/
theorem acts_lawful (lawful : Lawful live board) (acts : Acts live board caller board') :
    Lawful live board' := by
  cases acts with
  | reads holding may => exact reads_lawful lawful may
  | clears gone => exact clears_lawful lawful gone
  | removes read dead =>
    exact removes_lawful lawful (fun c own => lawful.unread c caller _ own read) dead
  | creates idle fresh => exact creates_lawful lawful idle fresh
  | publishes own vacant => exact publishes_lawful lawful own vacant
  | loses own taken => exact loses_lawful lawful own taken
  | withdraws own => exact withdraws_lawful lawful own

omit [DecidableEq Caller] in
/-- All live values that callers share are one. -/
theorem shared_unique {c d : Caller} {a b : Id} (lawful : Lawful live board) (alive : live a)
    (alive' : live b) (shared : (board.holding c).shared = some a)
    (shared' : (board.holding d).shared = some b) : a = b := by
  have published := (lawful.sharedCurrent c a alive shared).1
  have published' := (lawful.sharedCurrent d b alive' shared').1
  exact Option.some.inj (published.symm.trans published')

omit [DecidableEq Caller] in
/-- While nobody keeps a candidate, all live values that are stored are one. -/
theorem stored_unique {a b : Id} (lawful : Lawful live board)
    (settled : ∀ c, (board.holding c).candidate = none) (alive : live a) (alive' : live b)
    (stored : a ∈ board.stored) (stored' : b ∈ board.stored) : a = b := by
  have published := lawful.storedCurrent a alive stored (by simp [settled])
  have published' := lawful.storedCurrent b alive' stored' (by simp [settled])
  exact Option.some.inj (published.symm.trans published')

omit [DecidableEq Caller] in
theorem empty_lawful (live : Id → Prop) (used : Set Id) :
    Lawful live ⟨none,∅,used,fun _ : Caller => Holding.nothing⟩ := by
  constructor <;> simp [Holding.nothing]

omit [DecidableEq Caller] in
/-- More ids may count as used. -/
theorem Lawful.more {used : Set Id} (lawful : Lawful live board) (more : board.used ⊆ used) :
    Lawful live {board with used := used} :=
  { lawful with
    stored := fun _ stored => more (lawful.stored stored)
    published := fun id published => more (lawful.published id published)
    read := fun c id read => more (lawful.read c id read)
    shared := fun c id shared => more (lawful.shared c id shared)
    missing := fun c id missing =>
      ⟨more (lawful.missing c id missing).1,(lawful.missing c id missing).2⟩ }

end Board
end PublishOnce
