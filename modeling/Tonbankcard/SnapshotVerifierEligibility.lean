import Tonbankcard.SnapshotVerifier

/-! Eligibility over whole runs: a roll is what the trusted indexer submitted once, for ever, and
no proposal shares an entry with another. -/
namespace Tonbankcard.SnapshotVerifier

open Ton

/-- The indexer that the latest configuration names. -/
def namedIndexer (entries : List Entry) : Option Address :=
  entries.findSome? (fun entry =>
    match entry.input.message with
    | .setTrustedIndexer indexer => some indexer
    | _ => none)

/-- What the contract promises of a run. -/
structure Exact (deployer : Address) (deliveries : List (Delivery Message)) : Prop where
  unregistered : ∀ p : Int,
    (∀ entry ∈ journal (init deployer) deliveries, ∀ proposalId timestamp eligibleNfts,
      entry.input.message = .registerSnapshot proposalId timestamp eligibleNfts →
      (proposalId.toNat : Int) ≠ p) →
    ∀ n, (run (init deployer) deliveries).isEligible p n = false
  registered : ∀ entry ∈ journal (init deployer) deliveries,
    ∀ proposalId timestamp eligibleNfts,
      entry.input.message = .registerSnapshot proposalId timestamp eligibleNfts →
      (∀ n, (run (init deployer) deliveries).isEligible proposalId.toNat n = true ↔
        IsDiamond n ∧ eligibleNfts.get n = some true) ∧
      (run (init deployer) deliveries).getEligibleCount proposalId.toNat =
        (eligibleIds eligibleNfts 1).card
  answered : ∀ env queryId proposalId nftId,
    receive env (.eligibilityCheckRequest queryId proposalId nftId)
        (run (init deployer) deliveries) =
      .ok (run (init deployer) deliveries,
        [.send {
          destination := env.sender
          value := 0
          mode := sendRemainingValue
          bounce := false
          body := .eligibilityCheckResponse queryId proposalId nftId
            ((run (init deployer) deliveries).isEligible proposalId.toNat nftId.toNat) }])
  separate : ∀ entry ∈ journal (init deployer) deliveries,
    ∀ proposalId timestamp eligibleNfts,
      entry.input.message = .registerSnapshot proposalId timestamp eligibleNfts →
      ∀ other n, other ≠ (proposalId.toNat : Int) →
        entry.after.isEligible other n = entry.before.isEligible other n
  authorized : ∀ entry older, entry :: older <:+ journal (init deployer) deliveries →
    ∀ proposalId timestamp eligibleNfts,
      entry.input.message = .registerSnapshot proposalId timestamp eligibleNfts →
      namedIndexer older = some entry.input.context.sender
  configured : ∀ entry ∈ journal (init deployer) deliveries, ∀ indexer,
    entry.input.message = .setTrustedIndexer indexer → entry.input.context.sender = deployer

section Registrations
variable {self : State} {proposalId timestamp : BitVec 64} {eligibleNfts : FiniteMap Int Bool}

theorem isEligible_iff (self : State) (p n : Int) :
    self.isEligible p n = true ↔ 0 < p ∧ IsDiamond n ∧ self.snapshots.get p ≠ none ∧
      self.eligibility.get (eligibilityKey p n) = some true := by
  unfold State.isEligible IsDiamond
  split
  next outside =>
    refine iff_of_false (by simp) ?_
    rintro ⟨positive,⟨low,high⟩,-⟩
    omega
  next inside =>
    have positive : 0 < p := by omega
    have diamond : 1 ≤ n ∧ n ≤ diamondsTotalSupply := by omega
    rw [and_iff_right positive,and_iff_right diamond]
    cases self.snapshots.get p with
    | none => simp
    | some snapshot => cases self.eligibility.get (eligibilityKey p n) <;> simp

theorem register_snapshots (p : Int) :
    (self.register proposalId timestamp eligibleNfts).snapshots.get p =
      if p = proposalId.toNat then
        some ⟨proposalId,timestamp,(eligibleIds eligibleNfts 1).card⟩
      else self.snapshots.get p := by
  obtain ⟨-,counted⟩ := storeEligible_spec proposalId.toNat eligibleNfts 1 self.eligibility 0
  rw [zero_add] at counted
  rw [State.register,FiniteMap.get_set,counted]

theorem register_eligibility {p n : Int} (diamond : IsDiamond n) :
    (self.register proposalId timestamp eligibleNfts).eligibility.get (eligibilityKey p n) =
        some true ↔
      p = proposalId.toNat ∧ eligibleNfts.get n = some true ∨
        self.eligibility.get (eligibilityKey p n) = some true := by
  obtain ⟨marked,-⟩ := storeEligible_spec proposalId.toNat eligibleNfts 1 self.eligibility 0
  refine (marked (eligibilityKey p n)).trans (or_congr_left ?_)
  constructor
  · rintro ⟨stored,listed,same⟩
    obtain ⟨range,held⟩ := (mem_eligibleIds eligibleNfts 1 stored).mp listed
    obtain ⟨rfl,rfl⟩ := eligibilityKey_injective diamond range same
    exact ⟨rfl,held⟩
  · rintro ⟨rfl,held⟩
    exact ⟨n,(mem_eligibleIds eligibleNfts 1 n).mpr ⟨diamond,held⟩,rfl⟩

theorem register_other {other : Int} (apart : other ≠ (proposalId.toNat : Int)) (n : Int) :
    (self.register proposalId timestamp eligibleNfts).isEligible other n =
      self.isEligible other n := by
  rw [Bool.eq_iff_iff,isEligible_iff,isEligible_iff,register_snapshots,if_neg apart]
  refine and_congr_right fun _ => and_congr_right fun diamond => and_congr_right fun _ => ?_
  rw [register_eligibility diamond]
  simp [apart]

end Registrations

/-- What a run keeps between its journal and the two maps. -/
structure Rolls (deployer : Address) (entries : List Entry) (s : State) : Prop where
  deployer : s.deployer = deployer
  indexer : s.trustedIndexer = namedIndexer entries
  unmarked : ∀ p n, s.snapshots.get p = none → IsDiamond n →
    s.eligibility.get (eligibilityKey p n) ≠ some true
  unlisted : ∀ p, (∀ entry ∈ entries, ∀ proposalId timestamp eligibleNfts,
      entry.input.message = .registerSnapshot proposalId timestamp eligibleNfts →
      (proposalId.toNat : Int) ≠ p) → s.snapshots.get p = none
  listed : ∀ entry ∈ entries, ∀ proposalId timestamp eligibleNfts,
    entry.input.message = .registerSnapshot proposalId timestamp eligibleNfts →
    0 < proposalId.toNat ∧
      s.snapshots.get proposalId.toNat =
        some ⟨proposalId,timestamp,(eligibleIds eligibleNfts 1).card⟩ ∧
      ∀ n, IsDiamond n →
        (s.eligibility.get (eligibilityKey proposalId.toNat n) = some true ↔
          eligibleNfts.get n = some true)

section Runs
variable {deployer : Address} {past : List Entry} {s next : State} {d : Delivery Message}

/-- A message that registers nothing moves the rolls along with the configuration. -/
theorem Rolls.configure (rolls : Rolls deployer past s)
    (silent : ∀ proposalId timestamp eligibleNfts,
      d.message ≠ .registerSnapshot proposalId timestamp eligibleNfts)
    (indexer : next.trustedIndexer = namedIndexer (⟨s,d,next,actions⟩ :: past))
    (kept : next.deployer = s.deployer ∧ next.snapshots = s.snapshots ∧
      next.eligibility = s.eligibility) :
    Rolls deployer (⟨s,d,next,actions⟩ :: past) next := by
  obtain ⟨owner,snapshots,eligibility⟩ := kept
  constructor
  · rw [owner,rolls.deployer]
  · exact indexer
  · rw [snapshots,eligibility]
    exact rolls.unmarked
  · intro p absent
    rw [snapshots]
    exact rolls.unlisted p (fun entry member => absent entry (.tail _ member))
  · intro entry member proposalId timestamp eligibleNfts registration
    rw [snapshots,eligibility]
    rcases List.mem_cons.mp member with rfl | earlier
    · exact absurd registration (silent _ _ _)
    · exact rolls.listed entry earlier proposalId timestamp eligibleNfts registration

theorem Rolls.register (rolls : Rolls deployer past s)
    (message : d.message = .registerSnapshot proposalId timestamp eligibleNfts)
    (positive : 0 < proposalId.toNat) (fresh : s.snapshots.get proposalId.toNat = none) :
    Rolls deployer
      (⟨s,d,s.register proposalId timestamp eligibleNfts,actions⟩ :: past)
      (s.register proposalId timestamp eligibleNfts) := by
  constructor
  · exact rolls.deployer
  · rw [namedIndexer,List.findSome?_cons,message]
    exact rolls.indexer
  · intro p n absent diamond marked
    rw [register_snapshots] at absent
    split at absent
    · contradiction
    next apart =>
      rw [register_eligibility diamond] at marked
      rcases marked with ⟨same,-⟩ | before
      · exact apart same
      · exact rolls.unmarked p n absent diamond before
  · intro p absent
    rw [register_snapshots]
    split
    next same => exact absurd same.symm (absent _ List.mem_cons_self _ _ _ message)
    next => exact rolls.unlisted p (fun entry member => absent entry (.tail _ member))
  · intro entry member proposalId' timestamp' eligibleNfts' registration
    rcases List.mem_cons.mp member with rfl | earlier
    · obtain ⟨rfl,rfl,rfl⟩ := Message.registerSnapshot.inj (message.symm.trans registration)
      refine ⟨positive,by rw [register_snapshots,if_pos rfl],fun n diamond => ?_⟩
      rw [register_eligibility diamond]
      have unmarked := rolls.unmarked _ n fresh diamond
      simp [unmarked]
    · obtain ⟨low,stored,marks⟩ := rolls.listed entry earlier _ _ _ registration
      have apart : (proposalId'.toNat : Int) ≠ proposalId.toNat := by
        intro same
        rw [same,fresh] at stored
        contradiction
      refine ⟨low,by rw [register_snapshots,if_neg apart,stored],fun n diamond => ?_⟩
      rw [register_eligibility diamond,← marks n diamond]
      simp [apart]

theorem effect_rolls (rolls : Rolls deployer past s)
    (effect : Effect d.context s d.message next) :
    Rolls deployer (⟨s,d,next,actions⟩ :: past) next := by
  obtain ⟨env,msg,commits⟩ := d
  cases effect with
  | indexerSet authorized => exact rolls.configure nofun rfl ⟨rfl,rfl,rfl⟩
  | registrySet authorized unset => exact rolls.configure nofun rolls.indexer ⟨rfl,rfl,rfl⟩
  | registered indexer positive fresh => exact rolls.register rfl positive fresh
  | answered => exact rolls.configure nofun rolls.indexer ⟨rfl,rfl,rfl⟩

theorem run_rolls (deployer : Address) (deliveries : List (Delivery Message)) :
    Rolls deployer (journal (init deployer) deliveries) (run (init deployer) deliveries) := by
  refine deliver_invariant (Rolls deployer) ?_ ?_ deliveries
  · constructor
    · rfl
    · rfl
    · intro p n _ _ marked
      cases (FiniteMap.get_empty _).symm.trans marked
    · intro p _
      exact FiniteMap.get_empty p
    · intro entry member
      cases member
  · intro past s d next actions rolls accepted
    exact effect_rolls rolls (receive_effect accepted)

end Runs

theorem entry_effect {deliveries : List (Delivery Message)}
    (member : entry ∈ journal initial deliveries) :
    Effect entry.input.context entry.before entry.input.message entry.after :=
  receive_effect (entry_received member)

/-- In every run of any messages eligibility is what the trusted indexer in force registered. -/
theorem eligibility_exact (deployer : Address) (deliveries : List (Delivery Message)) :
    Exact deployer deliveries := by
  have rolls := run_rolls deployer deliveries
  constructor
  · intro p absent n
    rw [Bool.eq_false_iff,Ne,isEligible_iff]
    rintro ⟨-,-,stored,-⟩
    exact stored (rolls.unlisted p absent)
  · intro entry member proposalId timestamp eligibleNfts registration
    obtain ⟨positive,stored,marks⟩ := rolls.listed entry member _ _ _ registration
    constructor
    · intro n
      rw [isEligible_iff,stored]
      constructor
      · rintro ⟨-,diamond,-,marked⟩
        exact ⟨diamond,(marks n diamond).mp marked⟩
      · rintro ⟨diamond,held⟩
        exact ⟨by exact_mod_cast positive,diamond,nofun,(marks n diamond).mpr held⟩
    · rw [State.getEligibleCount,stored]
      rfl
  · intro env queryId proposalId nftId
    rfl
  · intro entry member proposalId timestamp eligibleNfts registration other n apart
    have effect := entry_effect member
    rw [registration] at effect
    generalize entry.after = after at effect
    cases effect with
    | registered => exact register_other apart n
  · intro entry older suffix proposalId timestamp eligibleNfts registration
    obtain ⟨past,-,rfl,before,accepted⟩ := Journal.suffix_origin suffix
    have effect := receive_effect (deliver_received accepted)
    rw [registration] at effect
    generalize entry.after = after at effect
    cases effect with
    | registered indexer =>
      rw [before] at indexer
      exact (run_rolls deployer past).indexer.symm.trans indexer
  · intro entry member indexer configuration
    obtain ⟨past,-,before,-⟩ := Journal.entry_reached member
    have effect := entry_effect member
    rw [configuration] at effect
    generalize entry.after = after at effect
    cases effect with
    | indexerSet authorized =>
      rw [authorized,before]
      exact (run_rolls deployer past).deployer

end Tonbankcard.SnapshotVerifier
