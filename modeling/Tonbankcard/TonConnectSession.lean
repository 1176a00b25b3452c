import Tonbankcard.Journal
import Tonbankcard.JsonText

/-! The session of the wallet page: the state of its connector and the text that is kept of it
between reloads of the page. Whether a text is an address, the lower case of texts and the links of
the wallets are told by functions; no other page writes to the storage. -/
namespace Tonbankcard.TonConnectSession

open EcmaScript

section Connector

structure Wallets where
  parses : JsString → Bool
  toLowerCase : JsString → JsString
  /-- `buildWalletConnectLink`, which may throw or know no link. -/
  connectLink : JsString → Option JsString

def knownWallets : List JsString :=
  [js "tonkeeper",js "tonhub",js "openmask",js "mytonwallet"]

variable (w : Wallets) (network : Option JsString)

/-- The id of the wallet that is found. -/
def getWalletById (id : JsString) : Option JsString :=
  if id.isEmpty then none
  else knownWallets.find? fun known => w.toLowerCase known = w.toLowerCase id

inductive ConnectionStatus where
  | disconnected | pending | connected
  deriving DecidableEq

/-- Falsy are null, false, zero, NaN and the empty text. -/
def truthy : Json → Bool
  | .null => false
  | .boolean value => value
  | .number value => value ≠ .nan && value ≠ .finite 0
  | .string text => !text.isEmpty
  | .array _ => true
  | .object _ => true

/-- `Address.parse` throws on what is no text. -/
def isValidTonAddress : Json → Bool
  | .string text => w.parses text
  | _ => false

def statusOf (state : Json) : Option ConnectionStatus :=
  match state.property (js "status") with
  | some (.string text) =>
    if text = js "pending" then some .pending
    else if text = js "connected" then some .connected
    else if text = js "disconnected" then some .disconnected
    else none
  | _ => none

/-- A property that is there and truthy. -/
def given (state : Json) (name : JsString) : Option Json :=
  (state.property name).filter truthy

def disconnectedState : Json := .object [(js "status",.string (js "disconnected"))]

def stamp (now : Fin (2^53)) : Json := .number (.ofRational now.val)

def networkMember (network : Option JsString) : List (JsString × Json) :=
  (network.map fun name => (js "network",Json.string name)).toList

def pendingState (network : Option JsString) (walletId : JsString) (now : Fin (2^53)) : Json :=
  .object ([(js "status",.string (js "pending")),(js "walletId",.string walletId)] ++
    networkMember network ++ [(js "updatedAt",stamp now)])

def connectedState (network : Option JsString) (walletId address : JsString)
    (now : Fin (2^53)) : Json :=
  .object ([(js "status",.string (js "connected")),(js "walletId",.string walletId),
    (js "address",.string address)] ++ networkMember network ++ [(js "updatedAt",stamp now)])

/-- The state that a stored text stands for, and what is stored afterwards. -/
def loadState (stored : Option JsString) : Json × Option JsString :=
  match stored with
  | none => (disconnectedState,stored)
  | some raw =>
    if raw.isEmpty then (disconnectedState,stored)
    else
      match Json.parse raw with
      | none => (disconnectedState,stored)
      | some parsed =>
        match statusOf parsed with
        | none => (disconnectedState,stored)
        | some status =>
          match given parsed (js "address") with
          | some address =>
            if isValidTonAddress w address then (parsed,stored) else (disconnectedState,none)
          | none =>
            if status = .connected then (disconnectedState,none) else (parsed,stored)

structure Connector where
  state : Json
  stored : Option JsString

/-- A page that is opened on what is stored. -/
def Connector.open (stored : Option JsString) : Connector :=
  ⟨(loadState w stored).1,(loadState w stored).2⟩

inductive Input where
  | connect (walletId : JsString) (now : Fin (2^53))
  | applyReply (address : JsString) (walletId : Option JsString) (now : Fin (2^53))
  | cancel
  | disconnect
  | reload

inductive ConnectorEvent where
  | statusChange (state : Json)
  | connected (state : Json) (walletId : JsString)
  | disconnected

/-- A live state is stored as its text. -/
def updateState (next : Json) : Connector :=
  ⟨next,if statusOf next = some .disconnected then none else some next.stringify⟩

/-- The wallet of a reply: its own, else that of the state. -/
def replyWallet (state : Json) (walletId : Option JsString) : Option JsString :=
  match walletId with
  | some id => getWalletById w id
  | none =>
    match state.property (js "walletId") with
    | some (.string id) => getWalletById w id
    | _ => none

/-- `none` where a call throws, which leaves the connector as it is. -/
def step (c : Connector) : Input → Option (Connector × List ConnectorEvent)
  | .connect walletId now => do
    let wallet ← getWalletById w walletId
    let _ ← w.connectLink wallet
    let next := pendingState network wallet now
    return (updateState next,[.statusChange next])
  | .applyReply address walletId now =>
    if statusOf c.state ≠ some .pending then none
    else if address.isEmpty || !w.parses address then none
    else (replyWallet w c.state walletId).map fun wallet =>
      let next := connectedState network wallet address now
      (updateState next,[.statusChange next,.connected next wallet])
  | .cancel =>
    if statusOf c.state = some .disconnected then some (c,[])
    else some (updateState disconnectedState,[.statusChange disconnectedState])
  | .disconnect =>
    if statusOf c.state = some .disconnected then some (c,[])
    else some (updateState disconnectedState,[.statusChange disconnectedState,.disconnected])
  | .reload => some (.open w c.stored,[])

end Connector

section States

variable {w : Wallets} {network : Option JsString} {walletId address : JsString}
  {now : Fin (2^53)}

theorem disconnectedState_status : statusOf disconnectedState = some .disconnected ∧
    given disconnectedState (js "address") = none := by
  exact ⟨rfl,rfl⟩

theorem pendingState_status : statusOf (pendingState network walletId now) = some .pending ∧
    given (pendingState network walletId now) (js "address") = none := by
  cases network <;> exact ⟨rfl,rfl⟩

theorem connectedState_status (filled : address ≠ []) :
    statusOf (connectedState network walletId address now) = some .connected ∧
      given (connectedState network walletId address now) (js "address") =
        some (.string address) := by
  have property : (connectedState network walletId address now).property (js "address") =
      some (.string address) := by cases network <;> rfl
  refine ⟨by cases network <;> rfl,?_⟩
  rw [given,property,Option.filter_some]
  simp [truthy,filled]

theorem stamp_finite (now : Fin (2^53)) : Json.Numbers Json.IsFinite (stamp now) := by
  have double : Number.ofRational (now.val : ℚ) = .finite (now.val : ℚ) :=
    Number.ofRational_nat now.isLt
  refine .number ?_
  rw [double]
  exact Number.isDouble_ofRational double

theorem pendingState_finite :
    Json.Numbers Json.IsFinite (pendingState network walletId now) := by
  refine .object ?_
  simp only [networkMember,List.forall_mem_append,List.forall_mem_cons]
  refine ⟨⟨⟨.string _,.string _,nofun⟩,?_⟩,stamp_finite now,nofun⟩
  cases network with
  | none => nofun
  | some name => exact List.forall_mem_singleton.mpr (.string name)

theorem connectedState_finite :
    Json.Numbers Json.IsFinite (connectedState network walletId address now) := by
  refine .object ?_
  simp only [networkMember,List.forall_mem_append,List.forall_mem_cons]
  refine ⟨⟨⟨.string _,.string _,.string _,nofun⟩,?_⟩,stamp_finite now,nofun⟩
  cases network with
  | none => nofun
  | some name => exact List.forall_mem_singleton.mpr (.string name)

/-- An address, where there is one, is valid, and a connected session has one. -/
structure Valid (w : Wallets) (state : Json) : Prop where
  status : ∃ status, statusOf state = some status
  address : ∀ value, given state (js "address") = some value → isValidTonAddress w value = true
  connected : statusOf state = some .connected → (given state (js "address")).isSome = true

theorem disconnectedState_valid : Valid w disconnectedState where
  status := ⟨_,disconnectedState_status.1⟩
  address value found := by
    rw [disconnectedState_status.2] at found
    cases found
  connected status := by
    rw [disconnectedState_status.1] at status
    cases status

/-- What is loaded is valid, and loading again changes nothing. -/
theorem open_valid (stored : Option JsString) : Valid w (Connector.open w stored).state ∧
    Connector.open w (Connector.open w stored).stored = Connector.open w stored := by
  have again : loadState w none = (disconnectedState,none) := rfl
  simp only [Connector.open]
  cases stored with
  | none => exact ⟨disconnectedState_valid,rfl⟩
  | some raw =>
    cases empty : raw.isEmpty with
    | true => simp [loadState,empty,disconnectedState_valid]
    | false =>
      cases read : Json.parse raw with
      | none => simp [loadState,empty,read,disconnectedState_valid]
      | some parsed =>
        cases status : statusOf parsed with
        | none => simp [loadState,empty,read,status,disconnectedState_valid]
        | some stands =>
          cases address : given parsed (js "address") with
          | some value =>
            cases valid : isValidTonAddress w value with
            | true =>
              refine ⟨?_,by simp [loadState,empty,read,status,address,valid]⟩
              simp only [loadState,empty,read,status,address,valid,if_true,Bool.false_eq_true,
                if_false]
              refine ⟨⟨_,status⟩,fun other found => ?_,fun _ => by rw [address]; rfl⟩
              rw [address] at found
              exact Option.some.inj found ▸ valid
            | false =>
              simp [loadState,empty,read,status,address,valid,disconnectedState_valid]
          | none =>
            by_cases live : stands = .connected
            · simp [loadState,empty,read,status,address,live,disconnectedState_valid]
            · refine ⟨?_,by simp [loadState,empty,read,status,address,live]⟩
              simp only [loadState,empty,read,status,address,if_neg live,Bool.false_eq_true,
                if_false]
              refine ⟨⟨_,status⟩,fun other found => ?_,fun connected => ?_⟩
              · rw [address] at found
                cases found
              · rw [status] at connected
                exact absurd (Option.some.inj connected) live

/-- A live state is read back from its text. -/
theorem updateState_reloads {next : Json} (finite : Json.Numbers Json.IsFinite next)
    (valid : Valid w next) (live : statusOf next ≠ some .disconnected) :
    Connector.open w (updateState next).stored = updateState next := by
  obtain ⟨status,stands⟩ := valid.status
  have read := Json.parse_stringify finite
  have filled : next.stringify.isEmpty = false := by
    refine List.isEmpty_eq_false_iff.mpr fun empty => ?_
    rw [empty] at read
    cases read
  have kept : updateState next = ⟨next,some next.stringify⟩ := by rw [updateState,if_neg live]
  rw [kept]
  simp only [Connector.open,loadState,filled,read,stands,Bool.false_eq_true,if_false]
  cases address : given next (js "address") with
  | some value => simp [valid.address value address]
  | none =>
    have apart : status ≠ .connected := by
      rintro rfl
      have held := valid.connected stands
      rw [address] at held
      cases held
    simp [apart]

end States

section Sessions

variable {w : Wallets} {network : Option JsString}

theorem pendingState_valid : Valid w (pendingState network walletId now) where
  status := ⟨_,pendingState_status.1⟩
  address value found := by
    rw [pendingState_status.2] at found
    cases found
  connected status := by
    rw [pendingState_status.1] at status
    cases status

theorem connectedState_valid (filled : address ≠ []) (parses : w.parses address = true) :
    Valid w (connectedState network walletId address now) where
  status := ⟨_,(connectedState_status filled).1⟩
  address value found := by
    rw [(connectedState_status filled).2] at found
    exact Option.some.inj found ▸ parses
  connected _ := by
    rw [(connectedState_status filled).2]
    rfl

/-- What holds of a connector at any time: its state is valid, and a page that is opened now shows
it again. -/
structure Steady (w : Wallets) (c : Connector) : Prop where
  valid : Valid w c.state
  reloads : Connector.open w c.stored = c

theorem updateState_steady {next : Json} (finite : Json.Numbers Json.IsFinite next)
    (valid : Valid w next) (live : statusOf next ≠ some .disconnected) :
    Steady w (updateState next) :=
  ⟨valid,updateState_reloads finite valid live⟩

theorem disconnected_steady : Steady w (updateState disconnectedState) :=
  ⟨disconnectedState_valid,rfl⟩

/-- What an accepted input makes of a steady connector. -/
inductive Effect (w : Wallets) (network : Option JsString) (c : Connector) :
    Input → Connector → List ConnectorEvent → Prop
  | connected (known : getWalletById w walletId = some wallet) :
      Effect w network c (.connect walletId now) (updateState (pendingState network wallet now))
        [.statusChange (pendingState network wallet now)]
  | replied (pending : statusOf c.state = some .pending) (filled : address ≠ [])
      (parses : w.parses address = true) (known : replyWallet w c.state walletId = some wallet) :
      Effect w network c (.applyReply address walletId now)
        (updateState (connectedState network wallet address now))
        [.statusChange (connectedState network wallet address now),
          .connected (connectedState network wallet address now) wallet]
  | idle (unlinked : input = .cancel ∨ input = .disconnect ∨ input = .reload) :
      Effect w network c input c []
  | cancelled (live : statusOf c.state ≠ some .disconnected) :
      Effect w network c .cancel (updateState disconnectedState)
        [.statusChange disconnectedState]
  | disconnected (live : statusOf c.state ≠ some .disconnected) :
      Effect w network c .disconnect (updateState disconnectedState)
        [.statusChange disconnectedState,.disconnected]

theorem step_effect {c next : Connector} {input : Input} {events : List ConnectorEvent}
    (steady : Steady w c) (stepped : step w network c input = some (next,events)) :
    Effect w network c input next events := by
  cases input with
  | connect walletId now =>
    obtain ⟨wallet,known,stepped⟩ := Option.bind_eq_some_iff.mp stepped
    obtain ⟨_,-,stepped⟩ := Option.bind_eq_some_iff.mp stepped
    obtain ⟨rfl,rfl⟩ := Prod.mk.inj (Option.some.inj stepped)
    exact .connected known
  | applyReply address walletId now =>
    simp only [step] at stepped
    split at stepped
    · cases stepped
    next pending =>
      split at stepped
      · cases stepped
      next admitted =>
        obtain ⟨wallet,known,same⟩ := Option.map_eq_some_iff.mp stepped
        obtain ⟨rfl,rfl⟩ := Prod.mk.inj same
        simp only [Bool.or_eq_true,Bool.not_eq_true',not_or,Bool.not_eq_false,
          List.isEmpty_iff] at admitted
        exact .replied (not_not.mp pending) admitted.1 admitted.2 known
  | cancel =>
    simp only [step] at stepped
    split at stepped
    · obtain ⟨rfl,rfl⟩ := Prod.mk.inj (Option.some.inj stepped)
      exact .idle (.inl rfl)
    next live =>
      obtain ⟨rfl,rfl⟩ := Prod.mk.inj (Option.some.inj stepped)
      exact .cancelled live
  | disconnect =>
    simp only [step] at stepped
    split at stepped
    · obtain ⟨rfl,rfl⟩ := Prod.mk.inj (Option.some.inj stepped)
      exact .idle (.inr (.inl rfl))
    next live =>
      obtain ⟨rfl,rfl⟩ := Prod.mk.inj (Option.some.inj stepped)
      exact .disconnected live
  | reload =>
    obtain ⟨rfl,rfl⟩ := Prod.mk.inj (Option.some.inj stepped)
    rw [steady.reloads]
    exact .idle (.inr (.inr rfl))

/-- The state that a listener was told last. -/
def told (view : Json) : ConnectorEvent → Json
  | .statusChange state => state
  | _ => view

abbrev Entry := Journal.Entry Connector Input (List ConnectorEvent)

/-- A connected session is the one that was found in the storage, or that a reply made while it was
waited for. -/
def Origin (w : Wallets) (network : Option JsString) (initial : Json) (past : List Entry)
    (state : Json) : Prop :=
  state = initial ∨ ∃ reply ∈ past, ∃ address walletId now wallet,
    reply.input = .applyReply address walletId now ∧ w.parses address = true ∧
      statusOf reply.before.state = some .pending ∧
      replyWallet w reply.before.state walletId = some wallet ∧
      state = connectedState network wallet address now

structure Session (w : Wallets) (network : Option JsString) (initial : Json) (past : List Entry)
    (c : Connector) : Prop extends Steady w c where
  told : (Journal.emissions id past).foldl told initial = c.state
  origin : statusOf c.state = some .connected → Origin w network initial past c.state

theorem session_step (initial : Json) (past : List Entry) (c : Connector) (input : Input)
    (next : Connector) (events : List ConnectorEvent) (session : Session w network initial past c)
    (stepped : step w network c input = some (next,events)) :
    Session w network initial (⟨c,input,next,events⟩ :: past) next := by
  have heard : (Journal.emissions id (⟨c,input,next,events⟩ :: past)).foldl told initial =
      events.foldl told c.state := by
    rw [Journal.emissions_cons,List.foldl_append,session.told]
    rfl
  cases step_effect session.toSteady stepped with
  | @connected walletId wallet now known =>
    have status := (@pendingState_status network wallet now).1
    refine ⟨updateState_steady pendingState_finite pendingState_valid (by rw [status]; decide),
      heard,fun live => ?_⟩
    cases status.symm.trans live
  | @replied address walletId wallet now pending filled parses known =>
    have status := (@connectedState_status network wallet address now filled).1
    refine ⟨updateState_steady connectedState_finite (connectedState_valid filled parses)
      (by rw [status]; decide),heard,fun _ => .inr ?_⟩
    exact ⟨_,List.mem_cons_self,address,walletId,now,wallet,rfl,parses,pending,known,rfl⟩
  | idle unlinked =>
    refine ⟨session.toSteady,heard,fun live => ?_⟩
    rcases session.origin live with same | ⟨reply,member,replied⟩
    · exact .inl same
    · exact .inr ⟨reply,List.mem_cons_of_mem _ member,replied⟩
  | cancelled live =>
    refine ⟨disconnected_steady,heard,fun live => ?_⟩
    cases disconnectedState_status.1.symm.trans live
  | disconnected live =>
    refine ⟨disconnected_steady,heard,fun live => ?_⟩
    cases disconnectedState_status.1.symm.trans live

/-- Whatever the storage holds and in whatever order the page is used: a reload is not to be seen,
listeners are told of every change, and a connected session has the valid address of a reply. -/
theorem run_session (stored : Option JsString) (inputs : List Input) :
    Session w network (Connector.open w stored).state
      (Journal.journal (step w network) (.open w stored) inputs)
      (Journal.run (step w network) (.open w stored) inputs) := by
  have opened := open_valid (w := w) stored
  exact Journal.invariant (Session w network (Connector.open w stored).state)
    ⟨⟨opened.1,opened.2⟩,rfl,fun _ => .inl rfl⟩ (session_step _) inputs

end Sessions
end Tonbankcard.TonConnectSession
