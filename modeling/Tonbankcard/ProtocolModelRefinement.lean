import Tonbankcard.Protocol
import Tonbankcard.ProtocolModel

/-! The model that the invariant tests run against the specification in TLA+: with accounts that
are registered once, every run of the model is an execution of the specification. -/
namespace Tonbankcard.ProtocolModel

open Ton Simulation

/-- An account that is not registered is empty, without locks and owned by a given address. -/
def view (unowned : Address) (self : State) : Protocol.State Address Address where
  balance nft := ((self.accounts.get nft).map fun account => account.balance.toNat).getD 0
  owner nft := ((self.accounts.get nft).map Account.owner).getD unowned
  fraud nft := ((self.accounts.get nft).map Account.fraudLocked).getD false
  collat nft := ((self.accounts.get nft).map Account.collateralLocked).getD false

def result (self : State) (call : Caller × Operation) : TxResult :=
  match call.2 with
  | .initializeAccount nft owner balance state =>
    (self.initializeAccount call.1 nft owner balance state).1
  | .transfer fromNft toNft amount => (self.transfer call.1 fromNft toNft amount).1
  | .transferNFT nft newOwner => (self.transferNFT call.1 nft newOwner).1
  | .setFraudLock nft value => (self.setFraudLock call.1 nft value).1
  | .setCollateralLock nft value => (self.setCollateralLock call.1 nft value).1
  | .setAccountState nft state => (self.setAccountState call.1 nft state).1

/-- The actions that a call stands for when it succeeds, newest first. The specification has no
account states, and no transfer of an account to itself. -/
def specified (caller : Caller) : Operation → List (Protocol.Action Address Address)
  | .initializeAccount nft owner balance _ => [.mint nft balance.toNat,.transferNFT nft owner]
  | .transfer fromNft toNft amount =>
    if fromNft = toNft then [] else [.transfer caller.address fromNft toNft amount.toNat]
  | .transferNFT nft newOwner => [.transferNFT nft newOwner]
  | .setFraudLock nft value => [.setFraud nft value]
  | .setCollateralLock nft value => [.setCollateral nft value]
  | .setAccountState _ _ => []

def protocolActions (self : State) (call : Caller × Operation) :
    List (Protocol.Action Address Address) :=
  if result self call = .success then specified call.1 call.2 else []

/-- The protocol's actions of calls one after the other, newest first. -/
def protocolLog (self : State) : List (Caller × Operation) → List (Protocol.Action Address Address)
  | [] => []
  | call :: rest => protocolLog (step self call) rest ++ protocolActions self call

def registers : Operation → Option Address
  | .initializeAccount nft _ _ _ => some nft
  | _ => none

def Solvent (self : State) : Prop :=
  ∀ nft account, self.accounts.get nft = some account → 0 ≤ account.balance

variable {self : State} {caller : Caller} {unowned : Address}

theorem view_accounts {next : State} (same : next.accounts = self.accounts) :
    view unowned next = view unowned self := by
  simp only [view,same]

theorem view_set (self : State) (nft : Address) (account : Account) :
    view unowned (self.withAccounts (self.accounts.set nft account)) =
      { balance := Function.update (view unowned self).balance nft account.balance.toNat
        owner := Function.update (view unowned self).owner nft account.owner
        fraud := Function.update (view unowned self).fraud nft account.fraudLocked
        collat := Function.update (view unowned self).collat nft account.collateralLocked } := by
  ext other <;>
  simp only [view,State.withAccounts,JsMap.get_set,Function.update_apply] <;>
  split <;> rfl

theorem view_found (unowned : Address) (found : self.accounts.get nft = some account) :
    Function.update (view unowned self).balance nft account.balance.toNat =
        (view unowned self).balance ∧
      Function.update (view unowned self).owner nft account.owner = (view unowned self).owner ∧
      Function.update (view unowned self).fraud nft account.fraudLocked =
        (view unowned self).fraud ∧
      Function.update (view unowned self).collat nft account.collateralLocked =
        (view unowned self).collat := by
  simp only [Function.update_eq_self_iff,view,found,Option.map_some,Option.getD_some,and_self]

/-- An account that is not registered is empty and without locks. -/
theorem view_fresh (unowned : Address) (fresh : self.accounts.get nft = none) :
    (view unowned self).balance nft = 0 ∧
      Function.update (view unowned self).fraud nft false = (view unowned self).fraud ∧
      Function.update (view unowned self).collat nft false = (view unowned self).collat := by
  simp only [Function.update_eq_self_iff,view,fresh,Option.map_none,Option.getD_none,and_self]

section Calls

/-- What the specification has to say about an operation that is carried out. -/
structure Executed (unowned : Address) (before : State) (operation : Operation) (caller : Caller)
    (next : State) : Prop where
  solvent : Solvent next
  executes : Executes (Protocol.Next Set.univ) (view unowned before) (specified caller operation)
    (view unowned next)
  registered : ∀ nft, next.accounts.get nft ≠ none →
    before.accounts.get nft ≠ none ∨ registers operation = some nft

/-- A call is refused without effect, or it is carried out. -/
def Outcome (unowned : Address) (self : State) (operation : Operation) (caller : Caller)
    (outcome : TxResult × State) : Prop :=
  (outcome.1 ≠ .success ∧ outcome.2.accounts = self.accounts) ∨
    (outcome.1 = .success ∧ Executed unowned self operation caller outcome.2)

/-- The operations on one account: a change that keeps the balance. -/
theorem update_outcome (solvent : Solvent self) (nft : Address) (change : Account → Account)
    (balance : ∀ account, (change account).balance = account.balance)
    (executes : ∀ account, self.accounts.get nft = some account →
      Executes (Protocol.Next Set.univ) (view unowned self) (specified caller operation)
        (view unowned (self.withAccounts (self.accounts.set nft (change account))))) :
    Outcome unowned self operation caller (self.update nft change) := by
  rw [State.update]
  cases found : self.accounts.get nft with
  | none => exact .inl ⟨by simp,rfl⟩
  | some account =>
    refine .inr ⟨rfl,?_,executes account found,?_⟩
    · intro other held stored
      simp only [State.withAccounts,JsMap.get_set] at stored
      split at stored
      next same =>
        rw [← Option.some.inj stored,balance]
        exact solvent nft account found
      next => exact solvent other held stored
    · intro other stored
      simp only [State.withAccounts,JsMap.get_set] at stored
      split at stored
      next same => exact .inl (by simp [same,found])
      next => exact .inl stored

theorem initializeAccount_outcome (solvent : Solvent self)
    (fresh : self.accounts.get nft = none) (owner : Address) (balance : Int)
    (state : Option AccountState) :
    Outcome unowned self (.initializeAccount nft owner balance state) caller
      (self.initializeAccount caller nft owner balance state) := by
  rw [State.initializeAccount]
  split
  · exact .inl ⟨by simp,rfl⟩
  split
  · exact .inl ⟨by simp,rfl⟩
  rename_i natural
  refine .inr ⟨rfl,?_,?_,?_⟩
  · intro other held stored
    rw [State.withAccounts,JsMap.get_set] at stored
    split at stored
    next =>
      rw [← Option.some.inj stored]
      exact not_lt.mp natural
    next => exact solvent other held stored
  · -- a fresh account is empty and without locks, so an owner and an amount make it up
    obtain ⟨empty,unflagged,free⟩ := view_fresh unowned fresh
    have registered : view unowned (self.withAccounts (self.accounts.set nft
        ⟨nft,owner,balance,state.getD .active,false,false⟩)) =
        ((view unowned self).after (.transferNFT nft owner)).after (.mint nft balance.toNat) := by
      rw [view_set]
      simp only [Protocol.State.after,empty,Nat.zero_add,unflagged,free]
    rw [registered]
    exact .act (.single ⟨trivial,rfl⟩) ⟨trivial,rfl⟩
  · intro other stored
    rw [State.withAccounts,JsMap.get_set] at stored
    split at stored
    next same => exact .inr (congrArg some same.symm)
    next => exact .inl stored

theorem moved_self (self : State) (nft : Address) (amount : Int) (other : Address) :
    moved self nft nft amount other = self.accounts.get other := by
  rw [moved,sub_self]
  cases self.accounts.get other with
  | none => rfl
  | some account => exact congrArg some account.credit_zero

theorem view_moved {next : State} (movable : Movable self caller fromNft toNft amount)
    (solvent : Solvent self) (natural : 0 ≤ amount) (apart : fromNft ≠ toNft)
    (balances : ∀ nft, next.accounts.get nft = moved self fromNft toNft amount nft) :
    view unowned next =
      (view unowned self).after (.transfer caller.address fromNft toNft amount.toNat) := by
  obtain ⟨payer,payee,paying,paid,-,-,-,-,-,-,funded⟩ := movable
  have received := solvent toNft payee paid
  ext nft
  case balance =>
    simp only [view,Protocol.State.after,Function.update_apply,balances,moved,Account.credit]
    by_cases payment : nft = toNft
    · subst payment
      simp only [if_pos,if_neg (Ne.symm apart),paid,Option.map_some,Option.getD_some]
      omega
    by_cases debit : nft = fromNft
    · subst debit
      simp only [if_pos,if_neg payment,paying,Option.map_some,Option.getD_some]
      omega
    · simp only [if_neg payment,if_neg debit]
      cases self.accounts.get nft with
      | none => rfl
      | some account => simp
  all_goals
    simp only [view,Protocol.State.after,balances,moved,Account.credit]
    cases self.accounts.get nft <;> rfl

theorem transfer_outcome (rest : self.reentrancyLocked = false) (solvent : Solvent self)
    (fromNft toNft : Address) (amount : Int) :
    Outcome unowned self (.transfer fromNft toNft amount) caller
      (self.transfer caller fromNft toNft amount) := by
  rcases transfer_cases rest caller fromNft toNft amount with
    ⟨movable,natural,success,balances⟩ | ⟨-,failed,same⟩
  · refine .inr ⟨success,?_,?_,?_⟩
    · intro nft held stored
      rw [balances,moved,Option.map_eq_some_iff] at stored
      obtain ⟨account,found,rfl⟩ := stored
      obtain ⟨payer,payee,paying,-,-,-,-,-,-,-,funded⟩ := movable
      have before := solvent nft account found
      simp only [Account.credit]
      by_cases debit : nft = fromNft
      · subst debit
        rw [Option.some.inj (found.symm.trans paying)] at before ⊢
        split <;> simp only [if_pos] <;> omega
      · rw [if_neg debit]
        split <;> omega
    · rw [specified]
      split
      next same =>
        subst same
        have unchanged : view unowned (self.transfer caller fromNft fromNft amount).2 =
            view unowned self := by simp only [view,balances,moved_self]
        rw [unchanged]
        exact .start
      next apart =>
        rw [view_moved movable solvent natural apart balances]
        obtain ⟨payer,payee,paying,-,-,owner,-,-,fraud,collateral,funded⟩ := movable
        refine .single ⟨⟨trivial,?_,?_,?_,?_,apart⟩,rfl⟩ <;>
          simp only [view,paying,Option.map_some,Option.getD_some]
        exacts [owner,fraud,collateral,Int.toNat_le_toNat funded]
    · intro nft stored
      rw [balances,moved] at stored
      exact .inl fun absent => stored (by rw [absent,Option.map_none])
  · exact .inl ⟨failed,same⟩

theorem step_outcome (rest : self.reentrancyLocked = false) (solvent : Solvent self)
    (call : Caller × Operation)
    (fresh : ∀ nft, registers call.2 = some nft → self.accounts.get nft = none) :
    Outcome unowned self call.2 call.1 (result self call,step self call) := by
  obtain ⟨caller,operation⟩ := call
  cases operation with
  | initializeAccount nft owner balance state =>
    exact initializeAccount_outcome solvent (fresh nft rfl) owner balance state
  | transfer fromNft toNft amount => exact transfer_outcome rest solvent fromNft toNft amount
  | transferNFT nft newOwner =>
    change Outcome _ _ _ _ (self.transferNFT caller nft newOwner)
    rw [State.transferNFT]
    split
    · exact .inl ⟨by simp,rfl⟩
    split
    · exact .inl ⟨by simp,rfl⟩
    refine update_outcome solvent nft _ (fun _ => rfl) fun account found => ?_
    obtain ⟨balance,-,fraud,collat⟩ := view_found unowned found
    refine .single ⟨trivial,?_⟩
    simp only [view_set,Protocol.State.after,balance,fraud,collat]
  | setFraudLock nft value =>
    change Outcome _ _ _ _ (self.setFraudLock caller nft value)
    rw [State.setFraudLock]
    split
    · exact .inl ⟨by simp,rfl⟩
    refine update_outcome solvent nft _ (fun _ => rfl) fun account found => ?_
    obtain ⟨balance,owner,-,collat⟩ := view_found unowned found
    refine .single ⟨trivial,?_⟩
    simp only [view_set,Protocol.State.after,balance,owner,collat]
  | setCollateralLock nft value =>
    change Outcome _ _ _ _ (self.setCollateralLock caller nft value)
    rw [State.setCollateralLock]
    split
    · exact .inl ⟨by simp,rfl⟩
    refine update_outcome solvent nft _ (fun _ => rfl) fun account found => ?_
    obtain ⟨balance,owner,fraud,-⟩ := view_found unowned found
    refine .single ⟨trivial,?_⟩
    simp only [view_set,Protocol.State.after,balance,owner,fraud]
  | setAccountState nft state =>
    change Outcome _ _ _ _ (self.setAccountState caller nft state)
    rw [State.setAccountState]
    split
    · exact .inl ⟨by simp,rfl⟩
    refine update_outcome solvent nft _ (fun _ => rfl) fun account found => ?_
    obtain ⟨balance,owner,fraud,collat⟩ := view_found unowned found
    rw [view_set]
    simp only [balance,owner,fraud,collat]
    exact .start

end Calls

section Runs

variable {calls : List (Caller × Operation)}

/-- The accounts that calls register, in order. -/
def registrations (calls : List (Caller × Operation)) : List Address :=
  calls.filterMap fun call => registers call.2

theorem calls_execute (rest : self.reentrancyLocked = false) (solvent : Solvent self)
    (once : (registrations calls).Nodup)
    (fresh : ∀ nft ∈ registrations calls, self.accounts.get nft = none) :
    Solvent (calls.foldl step self) ∧ Executes (Protocol.Next Set.univ) (view unowned self)
      (protocolLog self calls) (view unowned (calls.foldl step self)) := by
  induction calls generalizing self with
  | nil => exact ⟨solvent,.start⟩
  | cons call later ih =>
    have distinct : (registrations later).Nodup ∧
        ∀ nft, registers call.2 = some nft → nft ∉ registrations later := by
      rw [registrations,List.filterMap_cons] at once
      split at once
      next none => exact ⟨once,fun nft named => by simp [none] at named⟩
      next nft named =>
        obtain ⟨new,once⟩ := List.nodup_cons.mp once
        exact ⟨once,fun other same => Option.some.inj (named.symm.trans same) ▸ new⟩
    have here (nft : Address) (named : registers call.2 = some nft) :
        nft ∈ registrations (call :: later) :=
      List.mem_filterMap.mpr ⟨call,List.mem_cons_self,named⟩
    have there (nft : Address) (member : nft ∈ registrations later) :
        nft ∈ registrations (call :: later) := by
      obtain ⟨other,member,named⟩ := List.mem_filterMap.mp member
      exact List.mem_filterMap.mpr ⟨other,List.mem_cons_of_mem call member,named⟩
    rcases step_outcome rest solvent call
      (fun nft named => fresh nft (here nft named)) with ⟨failed,same⟩ | ⟨success,executed⟩
    · have kept : Solvent (step self call) := by
        intro nft account stored
        exact solvent nft account (same ▸ stored)
      obtain ⟨solvent,executes⟩ := ih (step_rest rest call) kept distinct.1
        (fun nft member => same ▸ fresh nft (there nft member))
      refine ⟨solvent,?_⟩
      rw [view_accounts same] at executes
      rw [protocolLog,protocolActions,if_neg failed,List.append_nil]
      exact executes
    · obtain ⟨solvent,executes⟩ := ih (step_rest rest call) executed.solvent distinct.1
        (fun nft member => by
          by_contra stored
          rcases executed.registered nft stored with before | named
          · exact before (fresh nft (there nft member))
          · exact distinct.2 nft named member)
      refine ⟨solvent,?_⟩
      rw [protocolLog,protocolActions,if_pos success]
      exact executed.executes.trans executes

end Runs

structure InitAccountSpec where
  nft : Address
  owner : Address
  balance : Int
  state : AccountState

def InitAccountSpec.operation (spec : InitAccountSpec) : Operation :=
  .initializeAccount spec.nft spec.owner spec.balance (some spec.state)

/-- The specifications of one account each; of several for an account the last one counts. -/
def deduplicated (initSpecs : List InitAccountSpec) : JsMap Address InitAccountSpec :=
  initSpecs.foldl (fun dedup spec => dedup.set spec.nft spec) JsMap.empty

/-- What a model is built with before the tests play with it. -/
def setup (admin : Address) (initSpecs : List InitAccountSpec) : List (Caller × Operation) :=
  (deduplicated initSpecs).entries.map fun entry => (⟨admin,.admin⟩,entry.2.operation)

def buildModel (admin riskAuthority lendingAdapter : Address) (initSpecs : List InitAccountSpec) :
    State :=
  (setup admin initSpecs).foldl step (State.create admin (some riskAuthority) (some lendingAdapter))

theorem deduplicated_key (initSpecs : List InitAccountSpec) :
    ∀ entry ∈ (deduplicated initSpecs).entries, entry.2.nft = entry.1 := by
  suffices keyed : ∀ nft spec, (deduplicated initSpecs).get nft = some spec → spec.nft = nft by
    intro entry member
    exact keyed entry.1 entry.2 ((JsMap.mem_entries_iff _ _ _).mp member)
  induction initSpecs using List.reverseRecOn with
  | nil => simp [deduplicated]
  | append_singleton specs last ih =>
    intro nft spec found
    rw [deduplicated,List.foldl_append,List.foldl_cons,List.foldl_nil,JsMap.get_set] at found
    split at found
    next same => rw [← Option.some.inj found,same]
    next => exact ih nft spec found

theorem setup_once (admin : Address) (initSpecs : List InitAccountSpec) :
    (registrations (setup admin initSpecs)).Nodup := by
  have keys : registrations (setup admin initSpecs) =
      (deduplicated initSpecs).entries.map Prod.fst := by
    rw [registrations,setup,List.filterMap_map,← List.filterMap_eq_map]
    refine List.filterMap_congr fun entry member => ?_
    exact congrArg some (deduplicated_key initSpecs entry member)
  rw [keys]
  exact (deduplicated initSpecs).distinct

/-- What the invariant tests explore is the specification: with the accounts registered once by the
setup, every run of the other operations is an execution of it from an initial state, and the
balances are those that its actions add up to. -/
theorem buildModel_refines_protocol (unowned admin riskAuthority lendingAdapter : Address)
    (initSpecs : List InitAccountSpec) (calls : List (Caller × Operation))
    (played : ∀ call ∈ calls, registers call.2 = none) :
    let empty := State.create admin (some riskAuthority) (some lendingAdapter)
    let final := calls.foldl step (buildModel admin riskAuthority lendingAdapter initSpecs)
    let log := protocolLog empty (setup admin initSpecs ++ calls)
    Protocol.Init (view unowned empty) ∧
      Executes (Protocol.Next Set.univ) (view unowned empty) log (view unowned final) ∧
      ∀ nft account, final.accounts.get nft = some account → account.balance =
        (log.map (Protocol.Action.credit nft)).sum - (log.map (Protocol.Action.debit nft)).sum := by
  intro empty final log
  have final_eq : final = (setup admin initSpecs ++ calls).foldl step empty :=
    List.foldl_append.symm
  have none_played : registrations calls = [] := by
    rw [registrations,List.filterMap_eq_nil_iff]
    exact played
  have once : (registrations (setup admin initSpecs ++ calls)).Nodup := by
    rw [registrations,List.filterMap_append]
    change (registrations (setup admin initSpecs) ++ registrations calls).Nodup
    rw [none_played,List.append_nil]
    exact setup_once admin initSpecs
  have refined : Solvent final ∧ Executes (Protocol.Next Set.univ) (view unowned empty) log
      (view unowned final) := by
    rw [final_eq]
    exact calls_execute rfl (fun nft account stored => by cases stored) once (fun _ _ => rfl)
  obtain ⟨solvent,executes⟩ := refined
  refine ⟨⟨fun _ => rfl,fun _ => rfl,fun _ => rfl⟩,executes,fun nft account stored => ?_⟩
  have balance := Protocol.balance_history executes nft
  have opening : (view unowned empty).balance nft = 0 := rfl
  have held : (view unowned final).balance nft = account.balance.toNat := by
    simp only [view,stored,Option.map_some,Option.getD_some]
  have natural := solvent nft account stored
  rw [held,opening] at balance
  omega

def playedSpecs : List InitAccountSpec :=
  [⟨payerCard,payerOwner,1000,.active⟩,⟨shopCard,shopOwner,0,.active⟩]

def playedCalls : List (Caller × Operation) :=
  [(⟨shopOwner,.user⟩,.transfer payerCard shopCard 10),
    (⟨payerOwner,.user⟩,.transfer payerCard shopCard 10)]

/-- Of two attempts at a transfer the owner's is an action. -/
theorem buildModel_refines_protocol_played :
    Executes (Protocol.Next Set.univ)
      (view adminWallet (State.create adminWallet (some adminWallet) (some adminWallet)))
      [.transfer payerOwner payerCard shopCard 10,.mint shopCard 0,.transferNFT shopCard shopOwner,
        .mint payerCard 1000,.transferNFT payerCard payerOwner]
      (view adminWallet
        (playedCalls.foldl step (buildModel adminWallet adminWallet adminWallet playedSpecs))) :=
  (buildModel_refines_protocol adminWallet adminWallet adminWallet adminWallet playedSpecs
    playedCalls (by decide)).2.1

end Tonbankcard.ProtocolModel
