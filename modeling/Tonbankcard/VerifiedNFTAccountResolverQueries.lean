import Tonbankcard.VerifiedNFTAccountResolver

/-! The bookkeeping of the pending queries, and what stands behind every owner the resolver
sends: the latest query of a registered item, answered in time by the item itself. -/
namespace Tonbankcard.VerifiedNFTAccountResolver

open Ton

abbrev Entry := Journal.Entry State (Delivery Message) (List (Action Body))

section History

def registration (nft : Address) (entry : Entry) : Option Address :=
  match entry.input.message with
  | .registerAccountItem nftAddress =>
    if nftAddress = nft then some entry.input.context.sender else none
  | _ => none

/-- The collection that registered an item; journals are newest first. -/
def registrar (nft : Address) (entries : List Entry) : Option Address :=
  entries.findSome? (registration nft)

def sentQuery : Action Body → Option Int
  | .send parameters =>
    match parameters.body with
    | .queryAccountNFTData queryId => some queryId
    | .resolveNFTOwner .. => none
  | .emit _ => none

def sentOwner : Action Body → Option (Address × Address × Address)
  | .send parameters =>
    match parameters.body with
    | .queryAccountNFTData _ => none
    | .resolveNFTOwner nftAddress owner => some (parameters.destination,nftAddress,owner)
  | .emit _ => none

/-- The query an accepted refresh sent to the item, with the target and expiry it was for. -/
def refreshed (nft : Address) (entry : Entry) : Option PendingOwnerQuery :=
  match entry.input.message with
  | .refreshAccountOwner nftAddress target =>
    if nftAddress = nft then (entry.output.findSome? sentQuery).map
      (fun queryId => ⟨queryId,target,entry.input.context.now + 300⟩)
    else none
  | _ => none

def latestQuery (nft : Address) (entries : List Entry) : Option PendingOwnerQuery :=
  entries.findSome? (refreshed nft)

/-- The owners sent with an entry: target, item and owner. -/
def resolutions (entry : Entry) : List (Address × Address × Address) :=
  entry.output.filterMap sentOwner

def repliedQuery (entry : Entry) : Option Int :=
  match entry.input.message with
  | .accountNFTData queryId _ _ => some queryId
  | _ => none

/-- For every owner ever sent, the query id of the message it was sent in reply to. -/
def resolvedQueries (entries : List Entry) : List (Option Int) :=
  entries.flatMap (fun entry => (resolutions entry).map (fun _ => repliedQuery entry))

theorem findSome?_cons_or {α β : Type} (find : α → Option β) (head : α) (tail : List α) :
    (head :: tail).findSome? find = (find head).or (tail.findSome? find) := by
  rw [List.findSome?_cons]
  cases find head <;> rfl

theorem registrar_cons (nft : Address) (entry : Entry) (past : List Entry) :
    registrar nft (entry :: past) = (registration nft entry).or (registrar nft past) :=
  findSome?_cons_or _ _ _

theorem latestQuery_cons (nft : Address) (entry : Entry) (past : List Entry) :
    latestQuery nft (entry :: past) = (refreshed nft entry).or (latestQuery nft past) :=
  findSome?_cons_or _ _ _

theorem resolvedQueries_cons (entry : Entry) (past : List Entry) :
    resolvedQueries (entry :: past) =
      (resolutions entry).map (fun _ => repliedQuery entry) ++ resolvedQueries past := rfl

end History

/-- What holds between the counters and the maps of every reachable state. -/
structure Bookkept (s : State) : Prop where
  count : s.pendingCount = s.pending.keys.card
  capacity : s.pendingCount ≤ 64
  registered : s.pending.get nft = some request → s.items.get nft ≠ none
  below : s.pending.get nft = some request → request.queryId < s.nextQuery
  distinct : s.pending.get nft = some request → s.pending.get other = some another →
    request.queryId = another.queryId → nft = other

theorem init_bookkept (collection7777 collection8888 : Address) :
    Bookkept (init collection7777 collection8888) := by
  constructor <;> simp [init]

theorem close_bookkept {self : State} (bookkept : Bookkept self)
    (waiting : self.pending.get nft = some request) : Bookkept (self.close nft) := by
  have kept : (self.close nft).pending.Within self.pending := FiniteMap.del_within _ _
  have positive := Finset.card_pos.mpr ⟨nft,FiniteMap.mem_keys_of_get waiting⟩
  have fewer := Finset.card_erase_of_mem (FiniteMap.mem_keys_of_get waiting)
  have count := bookkept.count
  have capacity := bookkept.capacity
  constructor
  · simp only [State.close,FiniteMap.keys_del,fewer]
    omega
  · simp only [State.close]
    omega
  · exact fun found => bookkept.registered (kept _ _ found)
  · exact fun found => bookkept.below (kept _ _ found)
  · exact fun found another => bookkept.distinct (kept _ _ found) (kept _ _ another)

/-- A new query takes a new id, and a new place in the count unless it replaces one. -/
theorem refresh_bookkept {self : State} (bookkept : Bookkept self) (target : Address) (now : Nat)
    (known : self.items.get nft ≠ none)
    (room : self.pending.get nft = none → self.pendingCount < 64) :
    Bookkept (self.refresh nft target now) := by
  have count := bookkept.count
  have capacity := bookkept.capacity
  have older {other : Address} {request : PendingOwnerQuery}
      (found : (self.refresh nft target now).pending.get other = some request) :
      self.pending.get other = some request ∧ request.queryId < self.nextQuery ∨
        other = nft ∧ request.queryId = self.nextQuery := by
    rcases FiniteMap.get_set_cases _ found with old | ⟨rfl,rfl⟩
    · exact .inl ⟨old,bookkept.below old⟩
    · exact .inr ⟨rfl,rfl⟩
  constructor
  · by_cases fresh : self.pending.get nft = none
    · have absent := (FiniteMap.get_eq_none_iff _ _).mp fresh
      simp only [State.refresh,FiniteMap.keys_set,if_pos fresh,
        Finset.card_insert_of_notMem absent]
      omega
    · have present := (FiniteMap.mem_keys_iff _ _).mpr fresh
      simp only [State.refresh,FiniteMap.keys_set,if_neg fresh,Finset.insert_eq_of_mem present]
      omega
  · by_cases fresh : self.pending.get nft = none
    · have below := room fresh
      simp only [State.refresh,if_pos fresh]
      omega
    · simp only [State.refresh,if_neg fresh]
      omega
  · intro other request found
    rcases older found with ⟨old,-⟩ | ⟨rfl,-⟩
    · exact bookkept.registered old
    · exact known
  · intro other request found
    simp only [State.refresh]
    rcases older found with ⟨-,below⟩ | ⟨-,latest⟩ <;> omega
  · intro other request third another found found' same
    rcases older found with ⟨old,below⟩ | ⟨rfl,latest⟩
    · rcases older found' with ⟨old',-⟩ | ⟨-,latest'⟩
      · exact bookkept.distinct old old' same
      · omega
    · rcases older found' with ⟨-,below'⟩ | ⟨rfl,-⟩
      · omega
      · rfl

theorem effect_bookkept {self next : State} (bookkept : Bookkept self)
    (effect : Effect env self msg next actions) : Bookkept next := by
  cases effect with
  | @registered nft collection fresh =>
    refine {bookkept with registered := fun {other request} found => ?_}
    change FiniteMap.get (FiniteMap.set ..) _ ≠ none
    rw [FiniteMap.get_set]
    split
    · exact nofun
    · exact bookkept.registered found
  | refreshed known elapsed room => exact refresh_bookkept bookkept _ _ known room
  | answered waiting | bounced waiting | cleaned waiting => exact close_bookkept bookkept waiting
  | unmatched | nothingPending => exact bookkept

section Steps
variable {d : Delivery Message} {s next : State}

theorem effect_items (effect : Effect d.context s d.message next actions) (nft : Address) :
    next.items.get nft =
      (registration nft ⟨s,d,next,actions⟩).or (s.items.get nft) := by
  obtain ⟨context,msg,commits⟩ := d
  cases effect with
  | registered =>
    simp only [FiniteMap.get_set,registration,eq_comm (a := nft)]
    split <;> rfl
  | _ => rfl

/-- A pending query is the one just sent or was pending before. -/
theorem effect_pending (effect : Effect d.context s d.message next actions)
    (found : next.pending.get nft = some request) :
    refreshed nft ⟨s,d,next,actions⟩ = some request ∧ request.queryId = s.nextQuery ∨
      refreshed nft ⟨s,d,next,actions⟩ = none ∧ s.pending.get nft = some request := by
  obtain ⟨context,msg,commits⟩ := d
  cases effect with
  | @refreshed nftAddress target =>
    change FiniteMap.get (FiniteMap.set ..) _ = _ at found
    rw [FiniteMap.get_set] at found
    by_cases same : nft = nftAddress
    · subst same
      rw [if_pos rfl] at found
      obtain rfl := Option.some.inj found
      exact .inl ⟨if_pos rfl,rfl⟩
    · rw [if_neg same] at found
      exact .inr ⟨if_neg (Ne.symm same),found⟩
  | answered | bounced | cleaned => exact .inr ⟨rfl,FiniteMap.del_within _ _ _ _ found⟩
  | registered | unmatched | nothingPending => exact .inr ⟨rfl,found⟩

theorem effect_nextQuery (effect : Effect d.context s d.message next actions) :
    s.nextQuery ≤ next.nextQuery := by
  obtain ⟨context,msg,commits⟩ := d
  cases effect with
  | refreshed =>
    simp only [State.refresh]
    omega
  | _ => exact le_rfl

/-- What an accepted reply needs, as the journal before it has it. -/
structure Answered (older : List Entry) (entry : Entry) (target nft owner : Address)
    (request : PendingOwnerQuery) (collection : Address) : Prop where
  sender : entry.input.context.sender = nft
  reply : entry.input.message = .accountNFTData request.queryId collection owner
  latest : latestQuery nft older = some request
  unexpired : entry.input.context.now < request.expiresAt
  registered : registrar nft older = some collection
  named : target = request.target

/-- What the journal says of the state it leads to. -/
structure Traced (entries : List Entry) (s : State) : Prop where
  bookkept : Bookkept s
  items : ∀ nft, s.items.get nft = registrar nft entries
  latest : s.pending.get nft = some request → latestQuery nft entries = some request
  spent : replied ∈ resolvedQueries entries → ∃ queryId, replied = some queryId ∧
    queryId < s.nextQuery ∧
    ∀ nft request, s.pending.get nft = some request → request.queryId ≠ queryId
  once : (resolvedQueries entries).Nodup

/-- An owner is sent in reply to a pending query or not at all. -/
theorem effect_resolutions (traced : Traced past s)
    (effect : Effect d.context s d.message next actions) :
    resolutions ⟨s,d,next,actions⟩ = [] ∨
      ∃ request collection owner, s.pending.get d.context.sender = some request ∧
        next.pending = s.pending.del d.context.sender ∧
        resolutions ⟨s,d,next,actions⟩ = [(request.target,d.context.sender,owner)] ∧
        Answered past ⟨s,d,next,actions⟩ request.target d.context.sender owner request
          collection := by
  obtain ⟨context,msg,commits⟩ := d
  cases effect with
  | @answered request collection owner waiting unexpired registrar =>
    refine .inr ⟨request,collection,owner,waiting,rfl,rfl,?_⟩
    exact
      { sender := rfl
        reply := rfl
        latest := traced.latest waiting
        unexpired
        registered := (traced.items _).symm.trans registrar
        named := rfl }
  | _ => exact .inl rfl

theorem Traced.spent_later (traced : Traced past s)
    (effect : Effect d.context s d.message next actions)
    (member : replied ∈ resolvedQueries past) :
    ∃ queryId, replied = some queryId ∧ queryId < next.nextQuery ∧
      ∀ nft request, next.pending.get nft = some request → request.queryId ≠ queryId := by
  obtain ⟨queryId,rfl,below,gone⟩ := traced.spent member
  have later := effect_nextQuery effect
  refine ⟨queryId,rfl,by omega,fun nft request found => ?_⟩
  rcases effect_pending effect found with ⟨-,latest⟩ | ⟨-,old⟩
  · omega
  · exact gone nft request old

theorem traced_step (traced : Traced past s)
    (effect : Effect d.context s d.message next actions) :
    Traced (⟨s,d,next,actions⟩ :: past) next := by
  have quiet {replied : Option Int} (member : replied ∈ resolvedQueries past) :=
    traced.spent_later effect member
  constructor
  · exact effect_bookkept traced.bookkept effect
  · intro nft
    rw [effect_items effect,traced.items,registrar_cons]
  · intro nft request found
    rw [latestQuery_cons]
    rcases effect_pending effect found with ⟨sent,-⟩ | ⟨silent,old⟩
    · rw [sent,Option.some_or]
    · rw [silent,Option.none_or,traced.latest old]
  · intro replied member
    rw [resolvedQueries_cons] at member
    rcases effect_resolutions traced effect with silent |
      ⟨request,collection,owner,waiting,closed,sent,answered⟩
    · rw [silent] at member
      exact quiet member
    · rw [sent] at member
      rcases List.mem_append.mp member with here | member
      · obtain rfl := List.mem_singleton.mp here
        have below := traced.bookkept.below waiting
        have later := effect_nextQuery effect
        refine ⟨request.queryId,by rw [repliedQuery,answered.reply],by omega,?_⟩
        intro nft another found same
        rw [closed,FiniteMap.get_del] at found
        split at found
        · contradiction
        · rename_i apart
          exact apart (traced.bookkept.distinct found waiting same)
      · exact quiet member
  · rw [resolvedQueries_cons]
    rcases effect_resolutions traced effect with silent |
      ⟨request,collection,owner,waiting,closed,sent,answered⟩
    · rw [silent]
      exact traced.once
    · rw [sent]
      refine List.nodup_cons.mpr ⟨fun member => ?_,traced.once⟩
      obtain ⟨queryId,same,-,gone⟩ := traced.spent member
      rw [repliedQuery,answered.reply] at same
      exact gone _ _ waiting (Option.some.inj same)

end Steps

section Runs
variable (collection7777 collection8888 : Address)

def reached (deliveries : List (Delivery Message)) : State :=
  Journal.run (deliver receive) (init collection7777 collection8888) deliveries

def history (deliveries : List (Delivery Message)) : List Entry :=
  Journal.journal (deliver receive) (init collection7777 collection8888) deliveries

theorem reached_traced (deliveries : List (Delivery Message)) :
    Traced (history collection7777 collection8888 deliveries)
      (reached collection7777 collection8888 deliveries) := by
  refine deliver_invariant Traced ?_ ?_ deliveries
  · refine ⟨init_bookkept _ _,fun _ => rfl,?_,?_,List.nodup_nil⟩
    · simp [init]
    · simp [resolvedQueries]
  · intro past s d next actions traced received
    exact traced_step traced (receive_effect received)

/-- In every reachable state the count is the number of pending queries, at most 64, each of
a registered item and with an id of its own; every owner sent answers the latest unexpired
query of the item it comes from, and no query is answered twice. -/
theorem owner_queries (deliveries : List (Delivery Message)) :
    (let s := reached collection7777 collection8888 deliveries
    s.pendingCount = s.pending.keys.card ∧ 0 ≤ s.pendingCount ∧ s.pendingCount ≤ 64 ∧
      (∀ nft request, s.pending.get nft = some request →
        s.items.get nft ≠ none ∧ request.queryId < s.nextQuery) ∧
      ∀ nft other request another, s.pending.get nft = some request →
        s.pending.get other = some another → request.queryId = another.queryId → nft = other) ∧
    (resolvedQueries (history collection7777 collection8888 deliveries)).Nodup ∧
    ∀ entry older, entry :: older <:+ history collection7777 collection8888 deliveries →
      ∀ target nft owner, (target,nft,owner) ∈ resolutions entry →
        ∃ request collection, Answered older entry target nft owner request collection := by
  have traced := reached_traced collection7777 collection8888 deliveries
  have bookkept := traced.bookkept
  refine ⟨⟨bookkept.count,?_,bookkept.capacity,?_,?_⟩,traced.once,?_⟩
  · rw [bookkept.count]
    exact Int.natCast_nonneg _
  · exact fun nft request found => ⟨bookkept.registered found,bookkept.below found⟩
  · exact fun nft other request another => bookkept.distinct
  · intro entry older suffix target nft owner member
    obtain ⟨past,-,rfl,origin,accepted⟩ := Journal.suffix_origin suffix
    have effect := receive_effect (deliver_received accepted)
    have before := reached_traced collection7777 collection8888 past
    rw [reached,← origin] at before
    rcases effect_resolutions before effect with silent |
      ⟨request,collection,resolved,-,-,sent,answered⟩
    · exact absurd (silent ▸ member) List.not_mem_nil
    · have sole : (target,nft,owner) = (request.target,entry.input.context.sender,resolved) :=
        List.mem_singleton.mp (sent ▸ member)
      simp only [Prod.mk.injEq] at sole
      obtain ⟨rfl,rfl,rfl⟩ := sole
      exact ⟨request,collection,answered⟩

end Runs
end Tonbankcard.VerifiedNFTAccountResolver
