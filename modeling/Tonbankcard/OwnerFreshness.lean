import Tonbankcard.FifoReplica
import Tonbankcard.MerchantPaymentHubAuthority
import Tonbankcard.VerifiedNFTAccountResolverQueries

/-! Owners on their way from the NFT items through the resolver to the payment hub. Every
ordered pair of contracts has a FIFO channel; the items answer with their present owner. -/
namespace Tonbankcard.OwnerFreshness

open Ton FifoReplica VerifiedNFTAccountResolver

/-- The contracts around the items, and which addresses are items of which collection. -/
structure Deployment where
  resolver : Address
  hub : Address
  collection7777 : Address
  collection8888 : Address
  deployer : Address
  accountLocks : Address
  tbcSettlement : Address
  isItem : Address → Bool
  collection : Address → Address
  firstOwner : Address → Address

/-- The resolver, the owners the items store, the messages in flight, oldest first, and what
arrived at the hub so far, newest first. -/
structure World where
  resolver : State
  owner : Address → Address
  toItem : Address → List Int
  toResolver : Address → List Message
  toHub : List (Address × Address)
  arrived : List (Delivery MerchantPaymentHub.Message)

/-- What happens next: anyone calls the resolver or the hub, an item changes hands, takes its
oldest query or bounces it, the resolver takes the oldest message of an item, or the hub the
oldest one of the resolver. -/
inductive Event where
  | callResolver (d : Delivery Message)
  | callHub (d : Delivery MerchantPaymentHub.Message)
  | transfer (nft owner : Address)
  | answer (nft : Address)
  | bounce (nft : Address)
  | reply (nft : Address) (value now : Nat) (commits : Bool)
  | resolve (value now : Nat) (commits : Bool)

section Run
variable (deployment : Deployment)

/-- An item sends its data only in answer to a query. -/
def forged (d : Delivery Message) : Bool :=
  match d.message with
  | .accountNFTData .. => deployment.isItem d.context.sender
  | _ => false

def World.send (w : World) : Action Body → World
  | .send parameters =>
    match parameters.body with
    | .queryAccountNFTData queryId =>
      let queries := w.toItem parameters.destination ++ [queryId]
      {w with toItem := Function.update w.toItem parameters.destination queries}
    | .resolveNFTOwner nft owner =>
      if parameters.destination = deployment.hub then {w with toHub := w.toHub ++ [(nft,owner)]}
      else w
  | .emit _ => w

def World.receive (w : World) (d : Delivery Message) : World :=
  match deliver VerifiedNFTAccountResolver.receive w.resolver d with
  | some (resolver,actions) => actions.foldl (World.send deployment) {w with resolver}
  | none => w

def World.next (w : World) : Event → World
  | .callResolver d => if forged deployment d = true then w else w.receive deployment d
  | .callHub d =>
    if d.context.sender = deployment.resolver then w else {w with arrived := d :: w.arrived}
  | .transfer nft owner => {w with owner := Function.update w.owner nft owner}
  | .answer nft =>
    match w.toItem nft with
    | [] => w
    | queryId :: queries =>
      {w with
        toItem := Function.update w.toItem nft queries
        toResolver := Function.update w.toResolver nft (w.toResolver nft ++
          [.accountNFTData queryId (deployment.collection nft) (w.owner nft)])}
  | .bounce nft =>
    match w.toItem nft with
    | [] => w
    | queryId :: queries =>
      {w with
        toItem := Function.update w.toItem nft queries
        toResolver := Function.update w.toResolver nft (w.toResolver nft ++
          [.bouncedQueryAccountNFTData queryId])}
  | .reply nft value now commits =>
    match w.toResolver nft with
    | [] => w
    | message :: messages =>
      {w with toResolver := Function.update w.toResolver nft messages}.receive deployment
        ⟨⟨nft,value,now⟩,message,commits⟩
  | .resolve value now commits =>
    match w.toHub with
    | [] => w
    | (nft,owner) :: toHub =>
      {w with
        toHub
        arrived := ⟨⟨deployment.resolver,value,now⟩,.resolveNFTOwner nft owner,commits⟩ ::
          w.arrived}

/-- The world after any events, newest first. -/
def world : List Event → World
  | [] =>
    { resolver := init deployment.collection7777 deployment.collection8888
      owner := deployment.firstOwner
      toItem := fun _ => []
      toResolver := fun _ => []
      toHub := []
      arrived := [] }
  | event :: past => (world past).next deployment event

variable (hash : Cell → Int)

def hubStart : MerchantPaymentHub.State :=
  MerchantPaymentHub.init deployment.deployer deployment.accountLocks deployment.resolver
    deployment.tbcSettlement

def World.hub (w : World) : MerchantPaymentHub.State :=
  MerchantPaymentHub.run hash (hubStart deployment) w.arrived

/-- The owners the hub wrote for an item, the first one first. -/
def World.written (w : World) (nft : Address) : List Address :=
  (MerchantPaymentHub.journal hash (hubStart deployment) w.arrived).reverse.filterMap
    (MerchantPaymentHub.ownerPush deployment.resolver nft)

end Run

section Trail
variable (deployment : Deployment) (hash : Cell → Int)

def resolvedOwner (nft : Address) (resolution : Address × Address) : Option Address :=
  if resolution.1 = nft then some resolution.2 else none

def answeredOwner : Message → Option Address
  | .accountNFTData _ _ owner => some owner
  | _ => none

/-- The owners of an item that were written or are under way, in the order they were told. -/
def World.trail (w : World) (nft : Address) : List Address :=
  w.written deployment hash nft ++
    (w.toHub.filterMap (resolvedOwner nft) ++ (w.toResolver nft).filterMap answeredOwner)

variable {deployment hash}

/-- An accepted message makes the resolver send the owner it carries, as that of its sender,
or none. -/
theorem receive_channels (deployment : Deployment) (w : World) (d : Delivery Message) :
    (w.receive deployment d).arrived = w.arrived ∧ (w.receive deployment d).owner = w.owner ∧
      (w.receive deployment d).toResolver = w.toResolver ∧
      ((w.receive deployment d).toHub = w.toHub ∨
        ∃ queryId collection owner, d.message = .accountNFTData queryId collection owner ∧
          (w.receive deployment d).toHub = w.toHub ++ [(d.context.sender,owner)]) := by
  unfold World.receive
  cases delivered : deliver VerifiedNFTAccountResolver.receive w.resolver d with
  | none => exact ⟨rfl,rfl,rfl,.inl rfl⟩
  | some result =>
    obtain ⟨resolver,actions⟩ := result
    have effect := receive_effect (deliver_received delivered)
    generalize d.message = message at effect ⊢
    cases effect with
    | @answered request collection owner =>
      simp only [List.foldl_cons,List.foldl_nil,World.send,ownerResolution]
      split
      · exact ⟨rfl,rfl,rfl,.inr ⟨_,_,_,rfl,rfl⟩⟩
      · exact ⟨rfl,rfl,rfl,.inl rfl⟩
    | _ => exact ⟨rfl,rfl,rfl,.inl rfl⟩

theorem written_arrived (deployment : Deployment) (hash : Cell → Int) (w : World) (nft : Address)
    (d : Delivery MerchantPaymentHub.Message) :
    {w with arrived := d :: w.arrived}.written deployment hash nft = w.written deployment hash nft ∨
      ∃ owner, d.message = .resolveNFTOwner nft owner ∧
        d.context.sender = deployment.resolver ∧
        {w with arrived := d :: w.arrived}.written deployment hash nft =
          w.written deployment hash nft ++ [owner] := by
  simp only [World.written,MerchantPaymentHub.journal]
  cases delivered : deliver (MerchantPaymentHub.receive hash)
      (Journal.run (deliver (MerchantPaymentHub.receive hash)) (hubStart deployment) w.arrived)
      d with
  | none =>
    rw [Journal.journal_refused delivered]
    exact .inl rfl
  | some result =>
    obtain ⟨next,actions⟩ := result
    rw [Journal.journal_accepted delivered,List.reverse_cons,List.filterMap_append]
    cases pushed : MerchantPaymentHub.ownerPush deployment.resolver nft
        ⟨Journal.run (deliver (MerchantPaymentHub.receive hash)) (hubStart deployment) w.arrived,
          d,next,actions⟩ with
    | none => simp [pushed]
    | some owner =>
      obtain ⟨asked,sender⟩ := MerchantPaymentHub.ownerPush_some pushed
      exact .inr ⟨owner,asked,sender,by simp [pushed]⟩

theorem resolvedOwner_other (apart : nft ≠ other) : resolvedOwner other (nft,owner) = none :=
  if_neg apart

/-- A message to the resolver that tells no owner of an item leaves what is told of it. -/
theorem receive_trail (w : World) (d : Delivery Message)
    (quiet : d.context.sender = nft → answeredOwner d.message = none) :
    (w.receive deployment d).trail deployment hash nft = w.trail deployment hash nft := by
  obtain ⟨arrived,-,toResolver,same | ⟨queryId,collection,owner,told,toHub⟩⟩ :=
    receive_channels deployment w d
  · simp only [World.trail,World.written,arrived,toResolver,same]
  · have apart : d.context.sender ≠ nft := by simpa [told,answeredOwner] using quiet
    simp only [World.trail,World.written,arrived,toResolver,toHub,List.filterMap_append,
      List.filterMap_cons,resolvedOwner_other apart,List.filterMap_nil,List.append_nil]

/-- The resolver takes the oldest message of an item: the owner told goes on to the hub, in
its place behind those told before, or is lost. -/
theorem reply_trail (w : World) (nft : Address) (d : Delivery Message)
    (waiting : w.toResolver d.context.sender = d.message :: messages) :
    (({w with
        toResolver := Function.update w.toResolver d.context.sender messages}.receive deployment
      d).trail deployment hash nft).Sublist (w.trail deployment hash nft) := by
  by_cases sender : d.context.sender = nft
  · subst sender
    obtain ⟨arrived,-,toResolver,same | ⟨queryId,collection,owner,told,toHub⟩⟩ :=
      receive_channels deployment
        {w with toResolver := Function.update w.toResolver d.context.sender messages} d
    · simp only [World.trail,World.written,arrived,toResolver,same,Function.update_self,waiting]
      exact (((List.sublist_cons_self _ _).filterMap _).append_left _).append_left _
    · have told : answeredOwner d.message = some owner := by rw [told]; rfl
      simp only [World.trail,World.written,arrived,toResolver,toHub,Function.update_self,waiting,
        List.filterMap_append,List.filterMap_cons,told,resolvedOwner,if_true,List.filterMap_nil,
        List.append_assoc,List.singleton_append]
      exact List.Sublist.refl _
  · rw [receive_trail _ _ (fun same => absurd same sender)]
    simp only [World.trail,World.written,Function.update_of_ne (Ne.symm sender)]
    exact List.Sublist.refl _

theorem resolve_trail (w : World) (nft : Address) (context : Context) (commits : Bool)
    (waiting : w.toHub = (other,owner) :: toHub) :
    ({w with
        toHub
        arrived := ⟨context,.resolveNFTOwner other owner,commits⟩ :: w.arrived}.trail deployment
      hash nft).Sublist (w.trail deployment hash nft) := by
  rcases written_arrived deployment hash {w with toHub} nft
      ⟨context,.resolveNFTOwner other owner,commits⟩ with lost | ⟨told,asked,-,wrote⟩
  · simp only [World.trail,waiting]
    rw [lost]
    exact (((List.sublist_cons_self _ _).filterMap _).append_right _).append_left _
  · obtain ⟨rfl,rfl⟩ := MerchantPaymentHub.Message.resolveNFTOwner.inj asked
    simp only [World.trail,waiting]
    rw [wrote]
    simp only [List.filterMap_cons,resolvedOwner,if_true,List.append_assoc,List.singleton_append]
    exact List.Sublist.refl _

/-- One event tells the present owner of an item or moves on what was told. -/
theorem next_trail (hash : Cell → Int) (item : deployment.isItem nft = true) (w : World) (event : Event) :
    ((w.next deployment event).trail deployment hash nft).Sublist (w.trail deployment hash nft) ∨
      (w.next deployment event).trail deployment hash nft =
        w.trail deployment hash nft ++ [w.owner nft] := by
  cases event with
  | callResolver d =>
    refine .inl ?_
    simp only [World.next]
    by_cases lie : forged deployment d = true
    · rw [if_pos lie]
    · rw [if_neg lie,receive_trail]
      rintro rfl
      unfold forged at lie
      unfold answeredOwner
      split at lie
      · exact absurd item lie
      · rfl
  | callHub d =>
    refine .inl ?_
    simp only [World.next]
    by_cases sender : d.context.sender = deployment.resolver
    · rw [if_pos sender]
    · rw [if_neg sender]
      rcases written_arrived deployment hash w nft d with same | ⟨-,-,resolver,-⟩
      · simp only [World.trail,same]
        exact List.Sublist.refl _
      · exact absurd resolver sender
  | transfer other owner => exact .inl (List.Sublist.refl _)
  | answer other =>
    simp only [World.next]
    split
    · exact .inl (List.Sublist.refl _)
    · by_cases same : nft = other
      · subst same
        refine .inr ?_
        simp [World.trail,World.written,answeredOwner]
      · refine .inl ?_
        simp only [World.trail,World.written,Function.update_of_ne same]
        exact List.Sublist.refl _
  | bounce other =>
    refine .inl ?_
    simp only [World.next]
    split
    · exact List.Sublist.refl _
    · by_cases same : nft = other
      · subst same
        simp [World.trail,World.written,answeredOwner]
      · simp only [World.trail,World.written,Function.update_of_ne same]
        exact List.Sublist.refl _
  | reply other value now commits =>
    refine .inl ?_
    simp only [World.next]
    split
    · exact List.Sublist.refl _
    · rename_i message messages waiting
      exact reply_trail w nft ⟨⟨other,value,now⟩,message,commits⟩ waiting
  | resolve value now commits =>
    refine .inl ?_
    simp only [World.next]
    split
    · exact List.Sublist.refl _
    · rename_i other owner toHub waiting
      exact resolve_trail w nft _ commits waiting

end Trail

section Freshness
variable (deployment : Deployment) (hash : Cell → Int)

/-- One moment of a run before another, as the events that had happened by then. -/
def Earlier (past events : List Event) : Prop := ∃ event, event :: past <:+ events

def OwnedAt (nft : Address) (past : List Event) (owner : Address) : Prop :=
  (world deployment past).owner nft = owner

theorem Earlier.later (event : Event) (earlier : Earlier past events) :
    Earlier past (event :: events) := by
  obtain ⟨next,suffix⟩ := earlier
  exact ⟨next,suffix.trans (List.suffix_cons _ _)⟩

theorem trail_chronological (item : deployment.isItem nft = true) (events : List Event) :
    Chronological Earlier (OwnedAt deployment nft) events
      ((world deployment events).trail deployment hash nft) := by
  induction events with
  | nil => exact chronological_nil []
  | cons event past ih =>
    rcases next_trail hash item (world deployment past) event with moved | told
    · exact (ih.later (fun _ => Earlier.later event)).sublist moved
    · have here : OwnedAt deployment nft past ((world deployment past).owner nft) := rfl
      rw [world,told]
      exact ih.read here (fun _ => Earlier.later event) ⟨event,List.suffix_refl _⟩

/-- An owner that the hub holds for an item was its owner at an earlier moment, and the owners
written for it one after the other were its owners at later and later moments. -/
theorem owner_freshness (item : deployment.isItem nft = true) (events : List Event) :
    (∀ owner, ((world deployment events).hub deployment hash).nftOwners.get nft = some owner →
      ∃ past, Earlier past events ∧ OwnedAt deployment nft past owner) ∧
    ((world deployment events).hub deployment hash).nftOwners.get nft =
      ((world deployment events).written deployment hash nft).getLast? ∧
    ∃ moments : List (List Event), moments.Pairwise Earlier ∧
      List.Forall₂ (OwnedAt deployment nft) moments
        ((world deployment events).written deployment hash nft) ∧
      ∀ past ∈ moments, Earlier past events := by
  have fresh := (trail_chronological deployment hash item events).sublist
    (List.sublist_append_left _ _)
  have held : ((world deployment events).hub deployment hash).nftOwners.get nft =
      ((world deployment events).written deployment hash nft).getLast? := by
    rw [World.hub,hubStart,(MerchantPaymentHub.run_cached hash _ _ _ _ _).owners nft,
      MerchantPaymentHub.pushedOwner,World.written,List.filterMap_reverse,List.getLast?_reverse,
      List.head?_filterMap]
    rfl
  refine ⟨fun owner found => ?_,held,fresh⟩
  obtain ⟨moments,-,dated,before⟩ := fresh
  rw [held] at found
  obtain ⟨past,member,owned⟩ := forall₂_member dated (List.mem_of_getLast? found)
  exact ⟨past,before past member,owned⟩

end Freshness

def item : Address := newAddress 0 1

def deployed : Deployment :=
  { resolver := newAddress 0 2
    hub := newAddress 0 3
    collection7777 := newAddress 0 4
    collection8888 := newAddress 0 5
    deployer := newAddress 0 6
    accountLocks := newAddress 0 7
    tbcSettlement := newAddress 0 8
    isItem := (· == item)
    collection := fun _ => newAddress 0 4
    firstOwner := fun _ => newAddress 0 9 }

def call (sender : Address) (now : Nat) (message : Message) : Event :=
  .callResolver ⟨⟨sender,100000000,now⟩,message,true⟩

/-- The item changes hands after its first answer. The first query expires and is replaced, so
that only the second answer reaches the hub. -/
def refreshedTwice : List Event :=
  [.resolve 100000000 700 true,.reply item 100000000 601 true,.reply item 100000000 600 true,
    .answer item,call (newAddress 0 6) 500 (.refreshAccountOwner item deployed.hub),
    .transfer item (newAddress 0 10),.answer item,
    call (newAddress 0 6) 100 (.refreshAccountOwner item deployed.hub),
    call deployed.collection7777 50 (.registerAccountItem item)]

theorem refreshed_twice_fresh :
    (∀ owner, ((world deployed refreshedTwice).hub deployed packedHash).nftOwners.get item =
      some owner → ∃ past, Earlier past refreshedTwice ∧ OwnedAt deployed item past owner) ∧
    ((world deployed refreshedTwice).hub deployed packedHash).nftOwners.get item =
      ((world deployed refreshedTwice).written deployed packedHash item).getLast? ∧
    ∃ moments : List (List Event), moments.Pairwise Earlier ∧
      List.Forall₂ (OwnedAt deployed item) moments
        ((world deployed refreshedTwice).written deployed packedHash item) ∧
      ∀ past ∈ moments, Earlier past refreshedTwice :=
  owner_freshness deployed packedHash (by decide) refreshedTwice

example : (world deployed refreshedTwice).written deployed packedHash item =
    [newAddress 0 10] := by decide +kernel

end Tonbankcard.OwnerFreshness
