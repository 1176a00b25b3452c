import Tonbankcard.CollateralSignal

/-! The validity of stored collateral signals over whole runs. It holds of every run whose owners
update and release only signals that exist and leave no amount under NONE and RELEASED. -/
namespace Tonbankcard.CollateralSignal

open Ton NftOwnership

structure CollateralSignalInfo.Valid (i : CollateralSignalInfo) : Prop where
  created : 0 < i.createdAt
  ordered : i.createdAt ≤ i.updatedAt
  cleared : i.signalState = collateralSignalNone ∨ i.signalState = collateralSignalReleased →
    i.collateralAmountTon = 0

/-- The account has announced a signal. -/
def Signaled (entries : List Entry) (nft : Address) : Prop :=
  ∃ entry ∈ entries, ∃ collateralAmountTon timestamp,
    .emit (.collateralSignaled nft collateralAmountTon timestamp) ∈ entry.output

/-- The account whose signal a message changes without announcing one. -/
def Message.amends : Message → Option Address
  | .updateCollateralSignalRequest nftAddress .. => some nftAddress
  | .releaseCollateralSignalRequest nftAddress => some nftAddress
  | _ => none

def Message.isResolution : Message → Bool
  | .resolveNFTOwner .. => true
  | _ => false

def isRefusal : Action Body → Bool
  | .send parameters =>
    match parameters.body with
    | .collateralSignalResponse success .. => !success
    | _ => false
  | .emit _ => false

/-- A message that aborts, or that is answered with an error and changes nothing. -/
def Rejected (s : State) (d : Delivery Message) : Prop :=
  ∀ next actions, deliver receive s d = some (next,actions) →
    next = s ∧ actions.any isRefusal = true

/-- What is promised of the signals in a run. -/
structure Sound (initial : State) (deliveries : List (Delivery Message)) : Prop where
  valid : ∀ past, past <:+ deliveries → ∀ nft i,
    (run initial past).collateralSignals.get nft = some i → i.Valid
  rejected : ∀ d past, d :: past <:+ deliveries → ∀ nft, d.message.amends = some nft →
    ¬Signaled (journal initial past) nft → Rejected (run initial past) d
  refreshed : ∀ d past, d :: past <:+ deliveries → d.message.isResolution = true →
    (run initial (d :: past)).collateralSignals = (run initial past).collateralSignals

/-- The owner of an account amends a signal that is there, and takes the amount away with it. -/
def Regular (s : State) (env : Context) : Message → Prop
  | .updateCollateralSignalRequest nftAddress newState collateralAmountTon =>
    s.nftOwners.get nftAddress = some env.sender →
    collateralSignalNone ≤ newState ∧ newState ≤ collateralSignalReleased →
    0 ≤ collateralAmountTon →
    (s.collateralSignals.get nftAddress).isSome ∧
      (newState = collateralSignalNone ∨ newState = collateralSignalReleased →
        collateralAmountTon = 0)
  | .releaseCollateralSignalRequest nftAddress =>
    s.nftOwners.get nftAddress = some env.sender → (s.collateralSignals.get nftAddress).isSome
  | _ => True

/-- Every message that is carried out is regular in the state that it finds. -/
def RegularRun (initial : State) (deliveries : List (Delivery Message)) : Prop :=
  ∀ d past, d :: past <:+ deliveries → d.commits = true →
    Regular (run initial past) d.context d.message

/-- The clock of a run is positive and never goes back; the newest delivery comes first. -/
structure Clocked (deliveries : List (Delivery Message)) : Prop where
  positive : ∀ d ∈ deliveries, 0 < d.context.now
  ordered : deliveries.Pairwise fun later earlier => earlier.context.now ≤ later.context.now

section Steps
variable {self next : State} {env : Context} {nft : Address}

theorem putSignal_get (self : State) (nftAddress nft : Address) (i : CollateralSignalInfo) :
    (self.putSignal nftAddress i).collateralSignals.get nft =
      if nft = nftAddress then some i else self.collateralSignals.get nft := FiniteMap.get_set ..

theorem getCollateralSignalInfo_stored (stored : self.collateralSignals.get nft = some i) :
    self.getCollateralSignalInfo nft = i := by
  rw [State.getCollateralSignalInfo,stored,Option.getD_some]

/-- A signal is created once, at a positive time. -/
theorem createdAt_bounds (passed : 0 < env.now)
    (dated : ∀ i, self.collateralSignals.get nft = some i → i.createdAt ≤ env.now) :
    0 < self.createdAt env nft ∧ self.createdAt env nft ≤ env.now := by
  simp only [State.createdAt]
  split
  · exact ⟨passed,le_rfl⟩
  · rename_i created
    refine ⟨Nat.pos_of_ne_zero created,?_⟩
    cases stored : self.collateralSignals.get nft with
    | none => simp [State.getCollateralSignalInfo,stored,defaultCollateralSignalInfo]
    | some i =>
      rw [getCollateralSignalInfo_stored stored]
      exact dated i stored

/-- What holds of the stored signals at a moment of a regular run. -/
structure Kept (now : Nat) (entries : List Entry) (s : State) : Prop where
  valid : ∀ nft i, s.collateralSignals.get nft = some i → i.Valid
  passed : ∀ nft i, s.collateralSignals.get nft = some i → i.updatedAt ≤ now
  signaled : ∀ nft i, s.collateralSignals.get nft = some i → Signaled entries nft

theorem signaled_later {entries : List Entry} (entry : Entry) (signaled : Signaled entries nft) :
    Signaled (entry :: entries) nft := by
  obtain ⟨announcement,member,announced⟩ := signaled
  exact ⟨announcement,List.mem_cons_of_mem _ member,announced⟩

theorem kept_later {entries : List Entry} (kept : Kept now entries self) (later : now ≤ bound) :
    Kept bound entries self :=
  ⟨kept.valid,fun nft i stored => (kept.passed nft i stored).trans later,kept.signaled⟩

/-- A write of a valid signal of an account that has announced one. -/
theorem kept_put {entries : List Entry} {nftAddress : Address} {i : CollateralSignalInfo}
    (kept : Kept now entries self) (entry : Entry) (valid : i.Valid) (passed : i.updatedAt ≤ now)
    (signaled : Signaled (entry :: entries) nftAddress) :
    Kept now (entry :: entries) (self.putSignal nftAddress i) := by
  have split (nft : Address) (other : CollateralSignalInfo)
      (stored : (self.putSignal nftAddress i).collateralSignals.get nft = some other) :
      nft = nftAddress ∧ other = i ∨ self.collateralSignals.get nft = some other := by
    rw [putSignal_get] at stored
    split at stored
    · rename_i same
      exact .inl ⟨same,(Option.some.inj stored).symm⟩
    · exact .inr stored
  constructor
  · intro nft other stored
    rcases split nft other stored with ⟨-,rfl⟩ | before
    · exact valid
    · exact kept.valid nft other before
  · intro nft other stored
    rcases split nft other stored with ⟨-,rfl⟩ | before
    · exact passed
    · exact kept.passed nft other before
  · intro nft other stored
    rcases split nft other stored with ⟨rfl,-⟩ | before
    · exact signaled
    · exact signaled_later entry (kept.signaled nft other before)

theorem effect_kept {entries : List Entry} {d : Delivery Message}
    (effect : Effect d.context self d.message next actions) (passed : 0 < d.context.now)
    (regular : Regular self d.context d.message) (kept : Kept d.context.now entries self) :
    Kept d.context.now (⟨self,d,next,actions⟩ :: entries) next := by
  obtain ⟨env,msg,commits⟩ := d
  have dated (nft : Address) (i : CollateralSignalInfo)
      (stored : self.collateralSignals.get nft = some i) : i.createdAt ≤ env.now :=
    (kept.valid nft i stored).ordered.trans (kept.passed nft i stored)
  cases effect with
  | resolved resolver =>
    exact ⟨kept.valid,kept.passed,
      fun nft i stored => signaled_later _ (kept.signaled nft i stored)⟩
  | refused =>
    exact ⟨kept.valid,kept.passed,
      fun nft i stored => signaled_later _ (kept.signaled nft i stored)⟩
  | signaled owner natural =>
    obtain ⟨positive,ordered⟩ := createdAt_bounds passed (dated _)
    refine kept_put kept _ ⟨positive,ordered,fun quiet => ?_⟩ le_rfl
      ⟨_,List.mem_cons_self,_,_,List.mem_cons_self⟩
    rcases quiet with none | released
    · cases none
    · cases released
  | updated owner known natural =>
    obtain ⟨present,cleared⟩ := regular owner known natural
    obtain ⟨i,stored⟩ := Option.isSome_iff_exists.mp present
    obtain ⟨positive,ordered⟩ := createdAt_bounds passed (dated _)
    exact kept_put kept _ ⟨positive,ordered,cleared⟩ le_rfl
      (signaled_later _ (kept.signaled _ i stored))
  | released owner =>
    obtain ⟨i,stored⟩ := Option.isSome_iff_exists.mp (regular owner)
    rw [getCollateralSignalInfo_stored stored]
    exact kept_put kept _ ⟨(kept.valid _ i stored).created,dated _ i stored,fun _ => rfl⟩ le_rfl
      (signaled_later _ (kept.signaled _ i stored))

/-- A refresh of the owner reaches no signal. -/
theorem effect_refreshed {msg : Message} (effect : Effect env self msg next actions)
    (resolution : msg.isResolution = true) : next.collateralSignals = self.collateralSignals := by
  cases effect with
  | resolved resolver => rfl
  | refused => rfl
  | _ => cases resolution

/-- A regular amendment that finds no signal is refused. -/
theorem effect_rejected {msg : Message} (effect : Effect env self msg next actions)
    (regular : Regular self env msg) (amends : msg.amends = some nft)
    (absent : self.collateralSignals.get nft = none) :
    next = self ∧ actions.any isRefusal = true := by
  cases effect with
  | resolved resolver => cases amends
  | refused => exact ⟨rfl,rfl⟩
  | signaled owner natural => cases amends
  | updated owner known natural =>
    obtain rfl := Option.some.inj amends
    have present := (regular owner known natural).1
    rw [absent] at present
    cases present
  | released owner =>
    obtain rfl := Option.some.inj amends
    have present := regular owner
    rw [absent] at present
    cases present

/-- Signals are never removed. -/
theorem effect_stored {msg : Message} (effect : Effect env self msg next actions)
    (stored : (self.collateralSignals.get nft).isSome) :
    (next.collateralSignals.get nft).isSome := by
  cases effect with
  | resolved resolver => exact stored
  | refused => exact stored
  | _ =>
    rw [putSignal_get]
    split
    · rfl
    · exact stored

theorem announceChange_other {env : Context} {amount : Int} :
    .emit (.collateralSignaled nft announcedAmount timestamp) ∉
      announceChange env nftAddress previousState newState amount := by
  rw [announceChange]
  split <;> simp

/-- An announced signal is stored. -/
theorem effect_announced {msg : Message} (effect : Effect env self msg next actions)
    (announced : .emit (.collateralSignaled nft announcedAmount timestamp) ∈ actions) :
    (next.collateralSignals.get nft).isSome := by
  cases effect with
  | signaled owner natural =>
    simp only [List.mem_cons,List.mem_append,announceChange_other,sendResponse,List.not_mem_nil,
      or_false,reduceCtorEq,Action.emit.injEq,Body.collateralSignaled.injEq] at announced
    obtain ⟨rfl,-,-⟩ := announced
    rw [putSignal_get,if_pos rfl]
    rfl
  | released owner =>
    simp [announceChange_other,sendResponse] at announced
  | _ => simp [sendResponse] at announced

end Steps

section Runs
variable {deliveries : List (Delivery Message)} (nftResolver : Address)

theorem RegularRun.older (regular : RegularRun initial deliveries) (earlier : past <:+ deliveries) :
    RegularRun initial past :=
  fun d before within commits => regular d before (within.trans earlier) commits

theorem Clocked.older (clocked : Clocked deliveries) (earlier : past <:+ deliveries) :
    Clocked past :=
  ⟨fun d member => clocked.positive d (earlier.subset member),
    clocked.ordered.sublist earlier.sublist⟩

theorem run_kept (clocked : Clocked deliveries) (regular : RegularRun (init nftResolver) deliveries)
    (passed : ∀ d ∈ deliveries, d.context.now ≤ now) :
    Kept now (journal (init nftResolver) deliveries) (run (init nftResolver) deliveries) := by
  induction deliveries generalizing now with
  | nil =>
    have none (nft : Address) (i : CollateralSignalInfo) :
        ¬(run (init nftResolver) []).collateralSignals.get nft = some i := by
      intro stored
      cases (FiniteMap.get_empty nft).symm.trans stored
    exact ⟨fun nft i stored => absurd stored (none nft i),
      fun nft i stored => absurd stored (none nft i),fun nft i stored => absurd stored (none nft i)⟩
  | cons d past ih =>
    have shorter : past <:+ d :: past := List.suffix_cons d past
    have before := ih (clocked.older shorter) (regular.older shorter)
      (List.pairwise_cons.mp clocked.ordered).1
    refine kept_later ?_ (passed d List.mem_cons_self)
    cases outcome : deliver receive (run (init nftResolver) past) d with
    | none =>
      rw [run,journal,Journal.run_refused outcome,Journal.journal_refused outcome]
      exact before
    | some result =>
      obtain ⟨commits,received⟩ := (deliver_some receive).mp outcome
      rw [run,journal,Journal.run_accepted outcome,Journal.journal_accepted outcome]
      exact effect_kept (receive_effect received) (clocked.positive d List.mem_cons_self)
        (regular d past (List.suffix_refl _) commits) before

/-- The same at some bound of the clock. -/
theorem exists_run_kept (clocked : Clocked deliveries)
    (regular : RegularRun (init nftResolver) deliveries) :
    ∃ now, Kept now (journal (init nftResolver) deliveries) (run (init nftResolver) deliveries) :=
  ⟨(deliveries.map fun d => d.context.now).sum,run_kept nftResolver clocked regular
    fun _ member => List.le_sum_of_mem (List.mem_map_of_mem member)⟩

/-- In every run an account that has announced a signal has one. -/
theorem run_signaled (deliveries : List (Delivery Message)) {nft : Address}
    (signaled : Signaled (journal initial deliveries) nft) :
    ((run initial deliveries).collateralSignals.get nft).isSome := by
  refine deliver_invariant (fun entries (s : State) => Signaled entries nft →
    (s.collateralSignals.get nft).isSome) ?_ ?_ deliveries signaled
  · rintro ⟨entry,member,-⟩
    cases member
  · rintro past s d next actions earlier received ⟨entry,member,amount,timestamp,announced⟩
    rcases List.mem_cons.mp member with rfl | member
    · exact effect_announced (receive_effect received) announced
    · exact effect_stored (receive_effect received) (earlier ⟨entry,member,amount,timestamp,announced⟩)

theorem run_refreshed (initial : State) {d : Delivery Message} (past : List (Delivery Message))
    (resolution : d.message.isResolution = true) :
    (run initial (d :: past)).collateralSignals = (run initial past).collateralSignals := by
  cases outcome : deliver receive (run initial past) d with
  | none => rw [run,Journal.run_refused outcome,run]
  | some result =>
    rw [run,Journal.run_accepted outcome]
    exact effect_refreshed (receive_effect (deliver_received outcome)) resolution

/-- Under a positive clock that never goes back, the signals of a run are sound exactly when the
owners amend only signals that are there and leave no amount under NONE and RELEASED. -/
theorem sound_iff (deliveries : List (Delivery Message)) (clocked : Clocked deliveries) :
    Sound (init nftResolver) deliveries ↔ RegularRun (init nftResolver) deliveries := by
  constructor
  · rintro sound ⟨env,msg,_⟩ past within rfl
    have unsignaled {nft : Address}
        (absent : ¬((run (init nftResolver) past).collateralSignals.get nft).isSome) :
        ¬Signaled (journal (init nftResolver) past) nft := mt (run_signaled past) absent
    cases msg with
    | signalCollateralRequest => trivial
    | resolveNFTOwner => trivial
    | updateCollateralSignalRequest nft newState amount =>
      intro owner known natural
      have outcome := (deliver_some (d := ⟨env,_,true⟩) receive).mpr
        ⟨rfl,receive_update owner known natural⟩
      constructor
      · by_contra absent
        have rejected := sound.rejected _ past within nft rfl (unsignaled absent) _ _ outcome
        simp [isRefusal,sendResponse] at rejected
      · have stored :
            (run (init nftResolver) (⟨env,.updateCollateralSignalRequest nft newState amount,true⟩
              :: past)).collateralSignals.get nft =
                some ⟨newState,amount,(run (init nftResolver) past).createdAt env nft,env.now⟩ := by
          rw [run,Journal.run_accepted outcome,putSignal_get,if_pos rfl,run]
        exact (sound.valid _ within nft _ stored).cleared
    | releaseCollateralSignalRequest nft =>
      intro owner
      have outcome := (deliver_some (d := ⟨env,_,true⟩) receive).mpr ⟨rfl,receive_release owner⟩
      by_contra absent
      have rejected := (sound.rejected _ past within nft rfl (unsignaled absent) _ _ outcome).2
      simp [isRefusal,sendResponse,announceChange] at rejected
  · intro regular
    constructor
    · intro past earlier nft i stored
      obtain ⟨now,kept⟩ := exists_run_kept nftResolver (clocked.older earlier)
        (regular.older earlier)
      exact kept.valid nft i stored
    · intro d past within nft amends unsignaled next actions outcome
      have shorter : past <:+ deliveries := (List.suffix_cons d past).trans within
      obtain ⟨now,kept⟩ := exists_run_kept nftResolver (clocked.older shorter)
        (regular.older shorter)
      have absent : (run (init nftResolver) past).collateralSignals.get nft = none := by
        cases stored : (run (init nftResolver) past).collateralSignals.get nft with
        | none => rfl
        | some i => exact absurd (kept.signaled nft i stored) unsignaled
      obtain ⟨commits,received⟩ := (deliver_some receive).mp outcome
      exact effect_rejected (receive_effect received) (regular d past within commits) amends absent
    · intro d past _ resolution
      exact run_refreshed (init nftResolver) past resolution

end Runs

section Samples

def resolver : Address := newAddress 0 9
def card : Address := newAddress 0 7
def owner : Address := newAddress 0 1

def sentAt (now : Nat) (sender : Address) (message : Message) : Delivery Message :=
  ⟨⟨sender,1000,now⟩,message,true⟩

def ownerResolved : Delivery Message := sentAt 80 resolver (.resolveNFTOwner card owner)

/-- The owner signals and releases. -/
def signaledAndReleased : List (Delivery Message) :=
  [sentAt 100 owner (.releaseCollateralSignalRequest card),
    sentAt 90 owner (.signalCollateralRequest card 500),ownerResolved]

/-- The owner releases what was never signaled. -/
def releasedFirst : List (Delivery Message) :=
  [sentAt 90 owner (.releaseCollateralSignalRequest card),ownerResolved]

/-- The owner updates what was never signaled. -/
def updatedFirst : List (Delivery Message) :=
  [sentAt 90 owner (.updateCollateralSignalRequest card collateralSignalActive 500),ownerResolved]

/-- The owner takes a signal back by an update that leaves its amount. -/
def amountLeft : List (Delivery Message) :=
  [sentAt 100 owner (.updateCollateralSignalRequest card collateralSignalReleased 500),
    sentAt 90 owner (.signalCollateralRequest card 500),ownerResolved]

theorem signaledAndReleased_sound_iff :
    Sound (init resolver) signaledAndReleased ↔
      RegularRun (init resolver) signaledAndReleased :=
  sound_iff resolver signaledAndReleased
    ⟨by simp [signaledAndReleased,ownerResolved,sentAt],
      by simp [signaledAndReleased,ownerResolved,sentAt]⟩

theorem unsound_runs :
    (Clocked releasedFirst ∧ ¬Sound (init resolver) releasedFirst) ∧
      (Clocked updatedFirst ∧ ¬Sound (init resolver) updatedFirst) ∧
      (Clocked amountLeft ∧ ¬Sound (init resolver) amountLeft) := by
  refine ⟨⟨⟨?_,?_⟩,fun sound => ?_⟩,⟨⟨?_,?_⟩,fun sound => ?_⟩,⟨⟨?_,?_⟩,fun sound => ?_⟩⟩
  · simp [releasedFirst,ownerResolved,sentAt]
  · simp [releasedFirst,ownerResolved,sentAt]
  · have stored : (run (init resolver) releasedFirst).collateralSignals.get card =
        some ⟨collateralSignalReleased,0,0,90⟩ := by decide +kernel
    exact absurd (sound.valid _ (List.suffix_refl _) card _ stored).created (by decide)
  · simp [updatedFirst,ownerResolved,sentAt]
  · simp [updatedFirst,ownerResolved,sentAt]
  · have unsignaled : ¬Signaled (journal (init resolver) [ownerResolved]) card :=
      mt (run_signaled [ownerResolved]) (by decide +kernel)
    obtain ⟨next,actions,outcome⟩ : ∃ next actions,
        deliver receive (run (init resolver) [ownerResolved])
          (sentAt 90 owner (.updateCollateralSignalRequest card collateralSignalActive 500)) =
            some (next,actions) := ⟨_,_,rfl⟩
    obtain ⟨same,-⟩ := sound.rejected _ [ownerResolved] (List.suffix_refl _) card rfl unsignaled _ _
      outcome
    have reached : run (init resolver) updatedFirst = next := Journal.run_accepted outcome
    have stored : ((run (init resolver) updatedFirst).collateralSignals.get card).isSome := by
      decide +kernel
    rw [reached,same] at stored
    exact absurd stored (by decide +kernel)
  · simp [amountLeft,ownerResolved,sentAt]
  · simp [amountLeft,ownerResolved,sentAt]
  · have stored : (run (init resolver) amountLeft).collateralSignals.get card =
        some ⟨collateralSignalReleased,500,90,100⟩ := by decide +kernel
    exact absurd ((sound.valid _ (List.suffix_refl _) card _ stored).cleared (.inr rfl)) (by decide)

end Samples
end Tonbankcard.CollateralSignal
