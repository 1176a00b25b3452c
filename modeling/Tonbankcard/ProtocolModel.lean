import Mathlib.Data.List.Induction
import Tonbankcard.JsMap
import Tonbankcard.MerchantPaymentHubAuthority

/-! The model that the invariant tests run, with its seven operations, against the contract that
it stands for: the transfer of the model and the payment of the hub, from states with the same
accounts. -/
namespace Tonbankcard.ProtocolModel

open Ton

inductive AccountState where
  | active
  | frozen
  | suspended
  | closed
  deriving DecidableEq, Repr

def AccountState.code : AccountState → Int
  | .active => 0
  | .frozen => 1
  | .suspended => 2
  | .closed => 3

structure Account where
  nft : Address
  owner : Address
  balance : Int
  state : AccountState
  fraudLocked : Bool
  collateralLocked : Bool
  deriving DecidableEq

def Account.credit (account : Account) (amount : Int) : Account :=
  {account with balance := account.balance + amount}

inductive CallerRole where
  | admin
  | riskAuthority
  | lendingAdapter
  | externalAdapter
  | user
  deriving DecidableEq, Repr

structure Caller where
  address : Address
  role : CallerRole
  deriving DecidableEq

inductive TxResult where
  | success
  | reverted (error : String)
  deriving DecidableEq, Repr

structure State where
  accounts : JsMap Address Account
  admin : Address
  riskAuthority : Address
  lendingAdapter : Address
  reentrancyLocked : Bool

def State.create (admin : Address) (riskAuthority lendingAdapter : Option Address) : State where
  accounts := JsMap.empty
  admin := admin
  riskAuthority := riskAuthority.getD admin
  lendingAdapter := lendingAdapter.getD admin
  reentrancyLocked := false

namespace State

variable (self : State)

def withAccounts (accounts : JsMap Address Account) : State := {self with accounts := accounts}

def initializeAccount (caller : Caller) (nft owner : Address) (balance : Int)
    (state : Option AccountState) : TxResult × State :=
  if caller.role ≠ .admin ∨ caller.address ≠ self.admin then (.reverted "NOT_ADMIN",self)
  else if balance < 0 then (.reverted "NEGATIVE_BALANCE",self)
  else (.success,self.withAccounts
    (self.accounts.set nft ⟨nft,owner,balance,state.getD .active,false,false⟩))

def transferUnchecked (caller : Caller) (fromNft toNft : Address) (amount : Int) :
    TxResult × State :=
  match self.accounts.get fromNft with
  | none => (.reverted "NO_FROM_ACCOUNT",self)
  | some payer =>
    match self.accounts.get toNft with
    | none => (.reverted "NO_TO_ACCOUNT",self)
    | some payee =>
      if amount < 0 then (.reverted "NEGATIVE_AMOUNT",self)
      else if caller.role ≠ .user ∨ caller.address ≠ payer.owner then (.reverted "NOT_OWNER",self)
      else if payer.state ≠ .active then (.reverted "FROM_NOT_ACTIVE",self)
      else if payee.state = .closed then (.reverted "TO_CLOSED",self)
      else if payer.fraudLocked then (.reverted "FRAUD_LOCKED",self)
      else if payer.collateralLocked then (.reverted "COLLATERAL_LOCKED",self)
      else if payer.balance < amount then (.reverted "INSUFFICIENT_BALANCE",self)
      else if fromNft = toNft then (.success,self)
      else (.success,self.withAccounts
        ((self.accounts.set fromNft (payer.credit (-amount))).set toNft (payee.credit amount)))

def transfer (caller : Caller) (fromNft toNft : Address) (amount : Int) : TxResult × State :=
  if self.reentrancyLocked then (.reverted "REENTRANCY",self)
  else
    let (result,next) :=
      State.transferUnchecked {self with reentrancyLocked := true} caller fromNft toNft amount
    (result,{next with reentrancyLocked := false})

/-- What the operations on one account do to it. -/
def update (nft : Address) (change : Account → Account) : TxResult × State :=
  match self.accounts.get nft with
  | none => (.reverted "NO_ACCOUNT",self)
  | some account => (.success,self.withAccounts (self.accounts.set nft (change account)))

def transferNFT (caller : Caller) (nft newOwner : Address) : TxResult × State :=
  match self.accounts.get nft with
  | none => (.reverted "NO_ACCOUNT",self)
  | some account =>
    if caller.role ≠ .user ∨ caller.address ≠ account.owner then (.reverted "NOT_OWNER",self)
    else self.update nft fun account => {account with owner := newOwner}

def setFraudLock (caller : Caller) (nft : Address) (value : Bool) : TxResult × State :=
  if caller.role ≠ .riskAuthority ∨ caller.address ≠ self.riskAuthority then
    (.reverted "NOT_RISK_AUTHORITY",self)
  else self.update nft fun account => {account with fraudLocked := value}

def setCollateralLock (caller : Caller) (nft : Address) (value : Bool) : TxResult × State :=
  if caller.role ≠ .lendingAdapter ∨ caller.address ≠ self.lendingAdapter then
    (.reverted "NOT_LENDING_ADAPTER",self)
  else self.update nft fun account => {account with collateralLocked := value}

def setAccountState (caller : Caller) (nft : Address) (state : AccountState) : TxResult × State :=
  if caller.role ≠ .admin ∨ caller.address ≠ self.admin then (.reverted "NOT_ADMIN",self)
  else self.update nft fun account => {account with state := state}

end State

section Rest

inductive Operation where
  | initializeAccount (nft owner : Address) (balance : Int) (state : Option AccountState)
  | transfer (fromNft toNft : Address) (amount : Int)
  | transferNFT (nft newOwner : Address)
  | setFraudLock (nft : Address) (value : Bool)
  | setCollateralLock (nft : Address) (value : Bool)
  | setAccountState (nft : Address) (state : AccountState)

def step (self : State) (call : Caller × Operation) : State :=
  match call.2 with
  | .initializeAccount nft owner balance state =>
    (self.initializeAccount call.1 nft owner balance state).2
  | .transfer fromNft toNft amount => (self.transfer call.1 fromNft toNft amount).2
  | .transferNFT nft newOwner => (self.transferNFT call.1 nft newOwner).2
  | .setFraudLock nft value => (self.setFraudLock call.1 nft value).2
  | .setCollateralLock nft value => (self.setCollateralLock call.1 nft value).2
  | .setAccountState nft state => (self.setAccountState call.1 nft state).2

theorem update_rest (self : State) (nft : Address) (change : Account → Account) :
    (self.update nft change).2.reentrancyLocked = self.reentrancyLocked := by
  rw [State.update]
  split <;> rfl

/-- No call leaves the model inside a transfer. -/
theorem step_rest {self : State} (rest : self.reentrancyLocked = false)
    (call : Caller × Operation) : (step self call).reentrancyLocked = false := by
  obtain ⟨caller,operation⟩ := call
  cases operation with
  | initializeAccount nft owner balance state =>
    change (self.initializeAccount caller nft owner balance state).2.reentrancyLocked = false
    rw [State.initializeAccount]
    split
    · exact rest
    split
    · exact rest
    · exact rest
  | transfer fromNft toNft amount =>
    change (self.transfer caller fromNft toNft amount).2.reentrancyLocked = false
    rw [State.transfer,rest]
    rfl
  | transferNFT nft newOwner =>
    change (self.transferNFT caller nft newOwner).2.reentrancyLocked = false
    rw [State.transferNFT]
    split
    · exact rest
    split
    · exact rest
    · exact (update_rest self nft _).trans rest
  | setFraudLock nft value =>
    change (self.setFraudLock caller nft value).2.reentrancyLocked = false
    rw [State.setFraudLock]
    split
    · exact rest
    · exact (update_rest self nft _).trans rest
  | setCollateralLock nft value =>
    change (self.setCollateralLock caller nft value).2.reentrancyLocked = false
    rw [State.setCollateralLock]
    split
    · exact rest
    · exact (update_rest self nft _).trans rest
  | setAccountState nft state =>
    change (self.setAccountState caller nft state).2.reentrancyLocked = false
    rw [State.setAccountState]
    split
    · exact rest
    · exact (update_rest self nft _).trans rest

theorem run_rest (admin : Address) (riskAuthority lendingAdapter : Option Address)
    (calls : List (Caller × Operation)) :
    (calls.foldl step (State.create admin riskAuthority lendingAdapter)).reentrancyLocked =
      false := by
  induction calls using List.reverseRecOn with
  | nil => rfl
  | append_singleton calls call ih =>
    rw [List.foldl_append]
    exact step_rest ih call

end Rest

section Transfer

/-- Everything that a transfer checks but the sign of the amount. -/
def Movable (self : State) (caller : Caller) (fromNft toNft : Address) (amount : Int) : Prop :=
  ∃ payer payee, self.accounts.get fromNft = some payer ∧ self.accounts.get toNft = some payee ∧
    caller.role = .user ∧ caller.address = payer.owner ∧ payer.state = .active ∧
    payee.state ≠ .closed ∧ payer.fraudLocked = false ∧ payer.collateralLocked = false ∧
    amount ≤ payer.balance

/-- The balances that a transfer leaves. -/
def moved (self : State) (fromNft toNft : Address) (amount : Int) (nft : Address) :
    Option Account :=
  (self.accounts.get nft).map fun account =>
    account.credit ((if nft = toNft then amount else 0) - (if nft = fromNft then amount else 0))

theorem Account.credit_zero (account : Account) : account.credit 0 = account := by
  rw [Account.credit,Int.add_zero]

theorem transferUnchecked_cases (self : State) (caller : Caller) (fromNft toNft : Address)
    (amount : Int) :
    (Movable self caller fromNft toNft amount ∧ 0 ≤ amount ∧
      ∃ accounts, self.transferUnchecked caller fromNft toNft amount =
        (.success,self.withAccounts accounts) ∧
      ∀ nft, accounts.get nft = moved self fromNft toNft amount nft) ∨
    ¬ (Movable self caller fromNft toNft amount ∧ 0 ≤ amount) ∧
      ∃ error, self.transferUnchecked caller fromNft toNft amount = (.reverted error,self) := by
  cases paying : self.accounts.get fromNft with
  | none =>
    refine .inr ⟨?_,"NO_FROM_ACCOUNT",by rw [State.transferUnchecked,paying]⟩
    rintro ⟨⟨payer,payee,found,-⟩,-⟩
    simp [paying] at found
  | some payer =>
  cases paid : self.accounts.get toNft with
  | none =>
    refine .inr ⟨?_,"NO_TO_ACCOUNT",by rw [State.transferUnchecked,paying,paid]⟩
    rintro ⟨⟨payer,payee,-,found,-⟩,-⟩
    simp [paid] at found
  | some payee =>
  have movable : Movable self caller fromNft toNft amount ↔
      caller.role = .user ∧ caller.address = payer.owner ∧ payer.state = .active ∧
        payee.state ≠ .closed ∧ payer.fraudLocked = false ∧ payer.collateralLocked = false ∧
        amount ≤ payer.balance := by
    simp [Movable,paying,paid]
  rw [movable,State.transferUnchecked,paying]
  simp only [paid]
  split
  · rename_i negative
    exact .inr ⟨fun both => absurd both.2 (not_le.mpr negative),_,rfl⟩
  rename_i natural
  split
  · rename_i stranger
    exact .inr ⟨fun both => stranger.elim (absurd both.1.1) (absurd both.1.2.1),_,rfl⟩
  rename_i owner
  split
  · rename_i inactive
    exact .inr ⟨fun both => inactive both.1.2.2.1,_,rfl⟩
  rename_i active
  split
  · rename_i closed
    exact .inr ⟨fun both => both.1.2.2.2.1 closed,_,rfl⟩
  rename_i isOpen
  split
  · rename_i locked
    exact .inr ⟨fun both => by simp [locked] at both,_,rfl⟩
  rename_i unlocked
  split
  · rename_i locked
    exact .inr ⟨fun both => by simp [locked] at both,_,rfl⟩
  rename_i free
  split
  · rename_i short
    exact .inr ⟨fun both => absurd both.1.2.2.2.2.2.2 (not_le.mpr short),_,rfl⟩
  rename_i funded
  obtain ⟨role,address⟩ := not_or.mp owner
  refine .inl ⟨⟨not_not.mp role,not_not.mp address,not_not.mp active,isOpen,
    Bool.eq_false_iff.mpr unlocked,Bool.eq_false_iff.mpr free,not_lt.mp funded⟩,
    not_lt.mp natural,?_⟩
  split
  · -- debited and credited the same amount
    rename_i same
    refine ⟨_,rfl,fun nft => ?_⟩
    rw [moved,same,sub_self]
    cases self.accounts.get nft with
    | none => rfl
    | some account => rw [Option.map_some,account.credit_zero]
  · rename_i apart
    refine ⟨_,rfl,fun nft => ?_⟩
    rw [JsMap.get_set,JsMap.get_set,moved]
    by_cases payment : nft = toNft
    · rw [if_pos payment,if_pos payment,payment,if_neg (Ne.symm apart),paid,sub_zero]
      rfl
    · rw [if_neg payment,if_neg payment]
      by_cases debit : nft = fromNft
      · rw [if_pos debit,if_pos debit,debit,paying,zero_sub]
        rfl
      · rw [if_neg debit,if_neg debit,sub_zero]
        cases self.accounts.get nft with
        | none => rfl
        | some account => rw [Option.map_some,account.credit_zero]

theorem transfer_cases {self : State} (rest : self.reentrancyLocked = false) (caller : Caller)
    (fromNft toNft : Address) (amount : Int) :
    (Movable self caller fromNft toNft amount ∧ 0 ≤ amount ∧
      (self.transfer caller fromNft toNft amount).1 = .success ∧
      ∀ nft, (self.transfer caller fromNft toNft amount).2.accounts.get nft =
        moved self fromNft toNft amount nft) ∨
    ¬ (Movable self caller fromNft toNft amount ∧ 0 ≤ amount) ∧
      (self.transfer caller fromNft toNft amount).1 ≠ .success ∧
      (self.transfer caller fromNft toNft amount).2.accounts = self.accounts := by
  have unlocked : self.transfer caller fromNft toNft amount =
      (let (result,next) := State.transferUnchecked {self with reentrancyLocked := true} caller
        fromNft toNft amount
      (result,{next with reentrancyLocked := false})) := by
    rw [State.transfer,rest]
    rfl
  rw [unlocked]
  rcases transferUnchecked_cases {self with reentrancyLocked := true} caller fromNft toNft amount
    with ⟨movable,natural,accounts,result,balances⟩ | ⟨refused,error,result⟩
  · rw [result]
    exact .inl ⟨movable,natural,rfl,balances⟩
  · rw [result]
    exact .inr ⟨refused,by simp,rfl⟩

end Transfer

section Payment

open MerchantPaymentHub (Payable validateAndExecutePayment errorNone)

variable {hash : Cell → Int} {env : Context} {hub : MerchantPaymentHub.State}
  {payerNft merchantNft : Address} {amountTbc : Int} {payload : Option Cell}

/-- A refused payment is answered by an error code. -/
theorem payment_refused
    (refused : ¬ Payable hub env.sender payerNft merchantNft amountTbc) :
    ∃ errorCode, errorCode ≠ errorNone ∧
      validateAndExecutePayment hash env payerNft merchantNft amountTbc payload hub =
        .ok (errorCode,hub,[]) := by
  rw [validateAndExecutePayment]
  split
  · exact ⟨_,by decide,rfl⟩
  rename_i payerOwner owned
  split
  · exact ⟨_,by decide,rfl⟩
  rename_i sends
  split
  · exact ⟨_,by decide,rfl⟩
  rename_i merchantState registered
  split
  · exact ⟨_,by decide,rfl⟩
  split
  · exact ⟨_,by decide,rfl⟩
  split
  · exact ⟨_,by decide,rfl⟩
  split
  · exact ⟨_,by decide,rfl⟩
  split
  · exact ⟨_,by decide,rfl⟩
  rename_i positive active unlocked isOpen funded
  refine absurd ?_ refused
  exact {
    owner := by simpa [Decidable.not_not.mp sends] using owned
    registered := ⟨merchantState,registered,by simpa using isOpen⟩
    positive := by omega
    active := by simpa using active
    unlocked := by simpa using unlocked
    funded := by omega }

/-- A payment that is let through is made, unless the merchant's sum overflows. -/
theorem payment_made (payable : Payable hub env.sender payerNft merchantNft amountTbc)
    (bounded : ∀ nft, -2^256 ≤ hub.getBalance nft ∧ hub.getBalance nft < 2^256) :
    ((payerNft ≠ merchantNft → hub.getBalance merchantNft + amountTbc < 2^256) ∧
      ∃ events, validateAndExecutePayment hash env payerNft merchantNft amountTbc payload hub =
        .ok (errorNone,hub.pay payerNft merchantNft amountTbc,events)) ∨
    (¬ (payerNft ≠ merchantNft → hub.getBalance merchantNft + amountTbc < 2^256) ∧
      ∃ error, validateAndExecutePayment hash env payerNft merchantNft amountTbc payload hub =
        .error error) := by
  obtain ⟨merchantState,registered,isOpen⟩ := payable.registered
  have checked : validateAndExecutePayment hash env payerNft merchantNft amountTbc payload hub =
      (do
        let self ← hub.debitBalance payerNft amountTbc
        let self ← self.creditBalance merchantNft amountTbc
        pure (errorNone,self,[.emit (.merchantPayment payerNft merchantNft amountTbc
          (MerchantPaymentHub.payloadHash hash payload) env.now)])) := by
    have positive := payable.positive
    have funded := payable.funded
    rw [validateAndExecutePayment,payable.owner]
    simp only [registered]
    rw [if_neg (by simp),if_neg (by omega),if_neg (by simp [payable.active]),
      if_neg (by simp [payable.unlocked]),if_neg (by simp [isOpen]),if_neg (by omega)]
  have positive := payable.positive
  have funded := payable.funded
  have payerBounds := bounded payerNft
  have merchantBounds := bounded merchantNft
  let debited := hub.accountBalances.set payerNft (hub.getBalance payerNft - amountTbc)
  have debit : hub.debitBalance payerNft amountTbc =
      .ok {hub with accountBalances := debited} := by
    rw [MerchantPaymentHub.State.debitBalance,require_ok.mpr funded]
    change (int257 _ >>= _) = _
    rw [int257_ok.mpr ⟨rfl,by omega,by omega⟩]
    rfl
  have credited : debited.amount merchantNft =
      if merchantNft = payerNft then hub.getBalance payerNft - amountTbc
      else hub.getBalance merchantNft := FiniteMap.amount_set _ _ _ _
  rw [checked,debit,ok_bind]
  by_cases fits : payerNft ≠ merchantNft → hub.getBalance merchantNft + amountTbc < 2^256
  · refine .inl ⟨fits,[.emit (.merchantPayment payerNft merchantNft amountTbc
      (MerchantPaymentHub.payloadHash hash payload) env.now)],?_⟩
    have sum : int257 (debited.amount merchantNft + amountTbc) =
        .ok (debited.amount merchantNft + amountTbc) := by
      refine int257_ok.mpr ⟨rfl,?_⟩
      rw [credited]
      split
      · omega
      · rename_i apart
        have := fits (Ne.symm apart)
        omega
    change ((int257 (debited.amount merchantNft + amountTbc) >>= _) >>= _) = _
    rw [sum]
    rfl
  · obtain ⟨apart,above⟩ := Classical.not_imp.mp fits
    refine .inr ⟨fits,integerOverflow,?_⟩
    have sum : int257 (debited.amount merchantNft + amountTbc) = .error integerOverflow := by
      rw [int257,credited,if_neg (Ne.symm apart),if_neg fun both => above both.2]
    change ((int257 (debited.amount merchantNft + amountTbc) >>= _) >>= _) = _
    rw [sum]
    rfl

end Payment

section Simulation

open MerchantPaymentHub (Payable validateAndExecutePayment errorNone)

/-- An account as the hub stores it, registered by its owner and its state. -/
def SameAccount (hub : MerchantPaymentHub.State) (nft : Address) : Option Account → Prop
  | none => hub.nftOwners.get nft = none ∧ hub.accountStates.get nft = none
  | some account => hub.nftOwners.get nft = some account.owner ∧
      hub.accountStates.get nft = some account.state.code ∧
      hub.getLockState nft = ⟨account.fraudLocked,account.collateralLocked⟩ ∧
      hub.getBalance nft = account.balance

/-- The same registered accounts, with equal owners, states, locks and balances. -/
def Related (model : State) (hub : MerchantPaymentHub.State) : Prop :=
  ∀ nft, SameAccount hub nft (model.accounts.get nft)

/-- The hub after a payment: a transaction that aborts changes nothing. -/
def settled (hub : MerchantPaymentHub.State) :
    Result (Int × MerchantPaymentHub.State × List (Action MerchantPaymentHub.Body)) →
      MerchantPaymentHub.State
  | .ok (_,next,_) => next
  | .error _ => hub

/-- The transfer of the model and the payment of the hub agree on whether the amount is moved,
and leave related states. -/
def Faithful (hash : Cell → Int) (env : Context) (model : State) (hub : MerchantPaymentHub.State)
    (role : CallerRole) (payerNft merchantNft : Address) (amount : Int) (payload : Option Cell) :
    Prop :=
  ((model.transfer ⟨env.sender,role⟩ payerNft merchantNft amount).1 = .success ↔
    ∃ next events, validateAndExecutePayment hash env payerNft merchantNft amount payload hub =
      .ok (errorNone,next,events)) ∧
  Related (model.transfer ⟨env.sender,role⟩ payerNft merchantNft amount).2
    (settled hub (validateAndExecutePayment hash env payerNft merchantNft amount payload hub))

variable {model : State} {hub : MerchantPaymentHub.State} {sender payerNft merchantNft : Address}
  {role : CallerRole} {amount : Int}

theorem canSend_code (state : AccountState) : canSend state.code = true ↔ state = .active := by
  cases state <;> decide

theorem canReceive_code (state : AccountState) :
    canReceive state.code = true ↔ state ≠ .closed := by
  cases state <;> decide

/-- The two chains of checks come to the same, apart from an amount of zero. -/
theorem payable_iff (related : Related model hub)
    (admissible : role = .user ∨ ∀ payer, model.accounts.get payerNft = some payer →
      sender ≠ payer.owner) :
    Payable hub sender payerNft merchantNft amount ↔
      Movable model ⟨sender,role⟩ payerNft merchantNft amount ∧ 0 < amount := by
  have payerSame := related payerNft
  have merchantSame := related merchantNft
  constructor
  · intro payable
    obtain ⟨merchantState,registered,isOpen⟩ := payable.registered
    cases paying : model.accounts.get payerNft with
    | none =>
      rw [paying] at payerSame
      have owner := payable.owner
      rw [payerSame.1] at owner
      cases owner
    | some payer =>
    cases paid : model.accounts.get merchantNft with
    | none =>
      rw [paid] at merchantSame
      rw [merchantSame.2] at registered
      cases registered
    | some merchant =>
      rw [paying] at payerSame
      rw [paid] at merchantSame
      obtain ⟨owner,state,locks,balance⟩ := payerSame
      have isOwner : sender = payer.owner := Option.some.inj (payable.owner.symm.trans owner)
      have isUser : role = .user := admissible.resolve_right fun stranger =>
        stranger payer paying isOwner
      have active := payable.active
      have unlocked := payable.unlocked
      rw [MerchantPaymentHub.State.getAccountState,state,Option.getD_some,canSend_code] at active
      rw [locks] at unlocked
      obtain ⟨fraud,collateral⟩ : payer.fraudLocked = false ∧ payer.collateralLocked = false := by
        simpa [canSendWithLocks,isLocked] using unlocked
      rw [merchantSame.2.1] at registered
      rw [← Option.some.inj registered,canReceive_code] at isOpen
      exact ⟨⟨payer,merchant,paying,paid,isUser,isOwner,active,isOpen,fraud,collateral,
        balance ▸ payable.funded⟩,payable.positive⟩
  · rintro ⟨⟨payer,merchant,paying,paid,-,owner,active,isOpen,fraud,collateral,funded⟩,positive⟩
    rw [paying] at payerSame
    rw [paid] at merchantSame
    obtain ⟨stored,state,locks,balance⟩ := payerSame
    exact {
      owner := by rw [stored,← owner]
      registered := ⟨_,merchantSame.2.1,(canReceive_code _).mpr isOpen⟩
      positive := positive
      active := by
        rw [MerchantPaymentHub.State.getAccountState,state,Option.getD_some]
        exact (canSend_code _).mpr active
      unlocked := by
        rw [locks,fraud,collateral]
        rfl
      funded := balance ▸ funded }

theorem related_pay (related : Related model hub) {next : State}
    (balances : ∀ nft, next.accounts.get nft = moved model payerNft merchantNft amount nft) :
    Related next (hub.pay payerNft merchantNft amount) := by
  intro nft
  have same := related nft
  rw [balances,moved]
  cases held : model.accounts.get nft with
  | none =>
    rw [held] at same
    exact same
  | some account =>
    rw [held] at same
    obtain ⟨owner,state,locks,balance⟩ := same
    refine ⟨owner,state,locks,?_⟩
    rw [MerchantPaymentHub.pay_getBalance,balance]
    change _ = account.balance + _
    ring

theorem Related.of_accounts (related : Related model hub) {next : State}
    (same : next.accounts = model.accounts) : Related next hub := fun nft => by
  rw [same]
  exact related nft

/-- The model is faithful to the hub unless it makes a transfer of zero, which the hub refuses, or
the merchant's balance overflows in the hub. -/
theorem transfer_faithful_iff (hash : Cell → Int) (env : Context)
    (rest : model.reentrancyLocked = false) (related : Related model hub)
    (bounded : ∀ nft, -2^256 ≤ hub.getBalance nft ∧ hub.getBalance nft < 2^256)
    (admissible : role = .user ∨ ∀ payer, model.accounts.get payerNft = some payer →
      env.sender ≠ payer.owner)
    (payload : Option Cell) :
    Faithful hash env model hub role payerNft merchantNft amount payload ↔
      (Movable model ⟨env.sender,role⟩ payerNft merchantNft amount → amount ≠ 0 ∧
        (payerNft ≠ merchantNft → 0 < amount → hub.getBalance merchantNft + amount < 2^256)) := by
  have checks : Payable hub env.sender payerNft merchantNft amount ↔ _ :=
    payable_iff related admissible
  by_cases payable : Payable hub env.sender payerNft merchantNft amount
  · obtain ⟨movable,positive⟩ := checks.mp payable
    rcases transfer_cases rest ⟨env.sender,role⟩ payerNft merchantNft amount with
      ⟨-,-,success,balances⟩ | ⟨refused,-⟩
    · rcases payment_made payable bounded with ⟨fits,events,made⟩ | ⟨overflow,error,aborted⟩
      · refine iff_of_true ⟨iff_of_true success ⟨_,_,made⟩,?_⟩ fun _ => ⟨positive.ne',
          fun apart _ => fits apart⟩
        rw [made]
        exact related_pay related balances
      · refine iff_of_false (fun faithful => ?_) fun held => overflow fun apart =>
          (held movable).2 apart positive
        obtain ⟨next,events,made⟩ := faithful.1.mp success
        rw [aborted] at made
        cases made
    · exact absurd ⟨movable,positive.le⟩ refused
  · obtain ⟨errorCode,failure,refused⟩ : ∃ errorCode, errorCode ≠ errorNone ∧
        validateAndExecutePayment hash env payerNft merchantNft amount payload hub =
          .ok (errorCode,hub,[]) := payment_refused payable
    have unpaid : ¬ ∃ next events, validateAndExecutePayment hash env payerNft merchantNft amount
        payload hub = .ok (errorNone,next,events) := by
      rintro ⟨next,events,made⟩
      rw [refused,Except.ok.injEq,Prod.mk.injEq] at made
      exact failure made.1
    rcases transfer_cases rest ⟨env.sender,role⟩ payerNft merchantNft amount with
      ⟨movable,natural,success,-⟩ | ⟨unmoved,failed,same⟩
    · -- the amount is zero
      refine iff_of_false (fun faithful => unpaid (faithful.1.mp success)) fun held => ?_
      have zero := (held movable).1
      exact payable (checks.mpr ⟨movable,lt_of_le_of_ne natural zero.symm⟩)
    · refine iff_of_true ⟨iff_of_false failed unpaid,?_⟩ fun movable => ?_
      · rw [refused]
        exact related.of_accounts same
      · have negative : amount < 0 := not_le.mp fun natural => unmoved ⟨movable,natural⟩
        exact ⟨negative.ne,fun _ positive => absurd positive (not_lt.mpr negative.le)⟩

def payerCard : Address := newAddress 0 1
def shopCard : Address := newAddress 0 2
def payerOwner : Address := newAddress 0 3
def shopOwner : Address := newAddress 0 4
def adminWallet : Address := newAddress 0 5

/-- Two accounts, of which the first has funds. -/
def twoAccounts : State :=
  [((⟨adminWallet,.admin⟩ : Caller),Operation.initializeAccount payerCard payerOwner 1000 none),
    (⟨adminWallet,.admin⟩,.initializeAccount shopCard shopOwner 0 none)].foldl step
      (State.create adminWallet none none)

def twoAccountsHub : MerchantPaymentHub.State :=
  let hub := MerchantPaymentHub.init adminWallet adminWallet adminWallet adminWallet
  ((hub.register payerCard payerOwner).register shopCard shopOwner).deposit 1 payerCard 1000

theorem twoAccountsHub_balance (nft : Address) :
    twoAccountsHub.getBalance nft = if nft = payerCard then 1000 else 0 := by
  change FiniteMap.amount (FiniteMap.set ∅ payerCard 1000) nft = _
  rw [FiniteMap.amount_set]
  rfl

theorem twoAccounts_related : Related twoAccounts twoAccountsHub := by
  intro nft
  have owners : twoAccountsHub.nftOwners.get nft = if nft = shopCard then some shopOwner
      else if nft = payerCard then some payerOwner else none := by
    change FiniteMap.get (FiniteMap.set (FiniteMap.set ∅ payerCard payerOwner) shopCard shopOwner)
      nft = _
    rw [FiniteMap.get_set,FiniteMap.get_set,FiniteMap.get_empty]
  have states : twoAccountsHub.accountStates.get nft = if nft = shopCard then some 0
      else if nft = payerCard then some 0 else none := by
    have first : (FiniteMap.set (∅ : FiniteMap Address Int) payerCard 0).get shopCard = none := by
      rw [FiniteMap.get_set,if_neg (by decide),FiniteMap.get_empty]
    change FiniteMap.get (if (FiniteMap.set (∅ : FiniteMap Address Int) payerCard 0).get shopCard =
      none then (FiniteMap.set ∅ payerCard 0).set shopCard 0 else FiniteMap.set ∅ payerCard 0) nft = _
    rw [if_pos first,FiniteMap.get_set,FiniteMap.get_set,FiniteMap.get_empty]
  have locks : twoAccountsHub.getLockState nft = ⟨false,false⟩ := rfl
  have accounts : twoAccounts.accounts.get nft =
      if nft = shopCard then some ⟨shopCard,shopOwner,0,.active,false,false⟩
      else if nft = payerCard then some ⟨payerCard,payerOwner,1000,.active,false,false⟩
      else none := by
    change JsMap.get ((JsMap.empty.set payerCard _).set shopCard _) nft = _
    rw [JsMap.get_set,JsMap.get_set]
    rfl
  rw [accounts]
  by_cases shop : nft = shopCard
  · rw [if_pos shop]
    refine ⟨by rw [owners,if_pos shop],by rw [states,if_pos shop]; rfl,locks,?_⟩
    rw [twoAccountsHub_balance,shop]
    decide
  by_cases payer : nft = payerCard
  · rw [if_neg shop,if_pos payer]
    refine ⟨by rw [owners,if_neg shop,if_pos payer],by rw [states,if_neg shop,if_pos payer]; rfl,
      locks,?_⟩
    rw [twoAccountsHub_balance,if_pos payer]
  · rw [if_neg shop,if_neg payer]
    exact ⟨by rw [owners,if_neg shop,if_neg payer],by rw [states,if_neg shop,if_neg payer]⟩

theorem twoAccountsHub_bounded (nft : Address) :
    -2^256 ≤ twoAccountsHub.getBalance nft ∧ twoAccountsHub.getBalance nft < 2^256 := by
  rw [twoAccountsHub_balance]
  split <;> decide

theorem transfer_faithful_sale :
    Faithful (fun _ => 0) ⟨payerOwner,0,0⟩ twoAccounts twoAccountsHub .user payerCard shopCard 600
      none := by
  refine (transfer_faithful_iff _ ⟨payerOwner,0,0⟩ rfl twoAccounts_related twoAccountsHub_bounded
    (.inl rfl) none).mpr fun _ => ⟨by decide,fun _ _ => ?_⟩
  rw [twoAccountsHub_balance]
  decide

/-- The model makes a transfer of zero, which the hub refuses. -/
theorem zero_transfer_differs : twoAccounts.reentrancyLocked = false ∧
    Related twoAccounts twoAccountsHub ∧
    ¬ Faithful (fun _ => 0) ⟨payerOwner,0,0⟩ twoAccounts twoAccountsHub .user payerCard shopCard 0
      none := by
  refine ⟨rfl,twoAccounts_related,fun faithful => ?_⟩
  have success : (twoAccounts.transfer ⟨payerOwner,.user⟩ payerCard shopCard 0).1 = .success := by
    decide +kernel
  obtain ⟨next,events,made⟩ := faithful.1.mp success
  obtain ⟨errorCode,failure,refused⟩ : ∃ errorCode, errorCode ≠ errorNone ∧
      validateAndExecutePayment (fun _ => 0) ⟨payerOwner,0,0⟩ payerCard shopCard 0 none
        twoAccountsHub = .ok (errorCode,twoAccountsHub,[]) :=
    payment_refused fun payable => by simpa using payable.positive
  rw [refused,Except.ok.injEq,Prod.mk.injEq] at made
  exact failure made.1

end Simulation

end Tonbankcard.ProtocolModel
