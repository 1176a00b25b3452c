import Mathlib.Data.List.Forall2

/-! A replica that receives the updates of a source over a FIFO channel. Channels are listed
oldest first. Every view the replica goes through is one the source had before, and the one
behind the last update in flight is the source's own. Values that are read off a source and
pass through several channels, where some get lost, arrive in the order they were read in. -/
namespace FifoReplica

section Tracking
variable {View Update : Type} (apply : View → Update → View)

/-- What the replica shows now and after each update in flight, up to the source's view. -/
def Tracks (had : View → Prop) (source : View) : View → List Update → Prop
  | replica, [] => had replica ∧ replica = source
  | replica, update :: channel => had replica ∧ Tracks had source (apply replica update) channel

variable {apply} {held later : View → Prop} {source replica : View}

theorem Tracks.had {channel : List Update} (tracks : Tracks apply held source replica channel) :
    held replica := by
  cases channel with
  | nil => exact tracks.1
  | cons => exact tracks.1

/-- A drained channel leaves the replica with the source's view. -/
theorem Tracks.drained (tracks : Tracks apply held source replica []) : replica = source :=
  tracks.2

theorem Tracks.receive (tracks : Tracks apply held source replica (update :: channel)) :
    Tracks apply held source (apply replica update) channel := tracks.2

/-- What the source had it still had later. -/
theorem Tracks.mono {channel : List Update} (tracks : Tracks apply held source replica channel)
    (keeps : ∀ view, held view → later view) : Tracks apply later source replica channel := by
  induction channel generalizing replica with
  | nil => exact ⟨keeps _ tracks.1,tracks.2⟩
  | cons update channel ih => exact ⟨keeps _ tracks.1,ih tracks.2⟩

/-- An update of the source goes to the end of the channel. -/
theorem Tracks.send {channel : List Update} (tracks : Tracks apply held source replica channel)
    (update : Update) (reached : held (apply source update)) :
    Tracks apply held (apply source update) replica (channel ++ [update]) := by
  induction channel generalizing replica with
  | nil =>
    obtain ⟨before,rfl⟩ := tracks
    exact ⟨before,reached,rfl⟩
  | cons head channel ih => exact ⟨tracks.1,ih tracks.2⟩

end Tracking

section Chronology
variable {Moment Value : Type} (earlier : Moment → Moment → Prop) (shown : Moment → Value → Prop)

/-- Values the source showed one after the other, each of them before the present. -/
def Chronological (present : Moment) (values : List Value) : Prop :=
  ∃ moments : List Moment, moments.Pairwise earlier ∧ List.Forall₂ shown moments values ∧
    ∀ moment ∈ moments, earlier moment present

variable {earlier shown} {present next : Moment} {values kept : List Value}

theorem chronological_nil (present : Moment) : Chronological earlier shown present [] :=
  ⟨[],.nil,.nil,by simp⟩

theorem Chronological.later (chronological : Chronological earlier shown present values)
    (passes : ∀ moment, earlier moment present → earlier moment next) :
    Chronological earlier shown next values := by
  obtain ⟨moments,ordered,held,before⟩ := chronological
  exact ⟨moments,ordered,held,fun moment member => passes moment (before moment member)⟩

theorem forall₂_sublist {moments : List Moment} (held : List.Forall₂ shown moments values)
    (lost : kept.Sublist values) :
    ∃ left, left.Sublist moments ∧ List.Forall₂ shown left kept := by
  induction lost generalizing moments with
  | slnil => exact ⟨[],List.nil_sublist _,.nil⟩
  | cons value lost ih =>
    obtain - | ⟨_,held⟩ := held
    obtain ⟨left,within,held⟩ := ih held
    exact ⟨left,within.cons _,held⟩
  | cons_cons value lost ih =>
    obtain - | ⟨here,held⟩ := held
    obtain ⟨left,within,held⟩ := ih held
    exact ⟨_ :: left,within.cons_cons _,.cons here held⟩

theorem forall₂_member {moments : List Moment} (held : List.Forall₂ shown moments values)
    (member : value ∈ values) : ∃ moment ∈ moments, shown moment value := by
  induction held with
  | nil => contradiction
  | cons here held ih =>
    rcases List.mem_cons.mp member with rfl | member
    · exact ⟨_,List.mem_cons_self,here⟩
    · obtain ⟨moment,within,there⟩ := ih member
      exact ⟨moment,List.mem_cons_of_mem _ within,there⟩

/-- Values may get lost on the way. -/
theorem Chronological.sublist (chronological : Chronological earlier shown present values)
    (lost : kept.Sublist values) : Chronological earlier shown present kept := by
  obtain ⟨moments,ordered,held,before⟩ := chronological
  obtain ⟨left,within,held⟩ := forall₂_sublist held lost
  exact ⟨left,ordered.sublist within,held,fun moment member => before moment (within.subset member)⟩

/-- A value read at present goes behind those that were read before. -/
theorem Chronological.read (chronological : Chronological earlier shown present values)
    (here : shown present value) (passes : ∀ moment, earlier moment present → earlier moment next)
    (now : earlier present next) : Chronological earlier shown next (values ++ [value]) := by
  obtain ⟨moments,ordered,held,before⟩ := chronological
  refine ⟨moments ++ [present],?_,List.rel_append held (.cons here .nil),?_⟩
  · refine List.pairwise_append.mpr ⟨ordered,List.pairwise_singleton _ _,?_⟩
    intro moment member last same
    obtain rfl := List.mem_singleton.mp same
    exact before moment member
  · intro moment member
    rcases List.mem_append.mp member with old | new
    · exact passes moment (before moment old)
    · obtain rfl := List.mem_singleton.mp new
      exact now

end Chronology
end FifoReplica
