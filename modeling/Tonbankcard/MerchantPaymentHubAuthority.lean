import Tonbankcard.MerchantPaymentHub

/-! Who may take a balance down. The owner and lock maps are caches of what the resolver
and the account-locks contract pushed last, read off the journal of accepted messages; a
debit then traces back to those pushes. -/
namespace Tonbankcard.MerchantPaymentHub

open Ton

def ownerPush (resolver nft : Address) (entry : Entry) : Option Address :=
  match entry.input.message with
  | .resolveNFTOwner nftAddress owner =>
    if nftAddress = nft ∧ entry.input.context.sender = resolver then some owner else none
  | _ => none

def lockPush (locks nft : Address) (entry : Entry) : Option LockState :=
  match entry.input.message with
  | .applyAccountLock nftAddress lockState =>
    if nftAddress = nft ∧ entry.input.context.sender = locks then some lockState else none
  | _ => none

theorem ownerPush_some (pushed : ownerPush resolver nft entry = some owner) :
    entry.input.message = .resolveNFTOwner nft owner ∧ entry.input.context.sender = resolver := by
  unfold ownerPush at pushed
  split at pushed
  · rename_i nftAddress found asked
    obtain ⟨⟨rfl,sender⟩,same⟩ := Option.ite_none_right_eq_some.mp pushed
    exact ⟨Option.some.inj same ▸ asked,sender⟩
  · contradiction

/-- The owner most recently pushed by the resolver; journals are newest first. -/
def pushedOwner (resolver nft : Address) (entries : List Entry) : Option Address :=
  entries.findSome? (ownerPush resolver nft)

/-- The lock state most recently pushed by the account-locks contract. -/
def pushedLock (locks nft : Address) (entries : List Entry) : Option LockState :=
  entries.findSome? (lockPush locks nft)

theorem pushedOwner_cons (resolver nft : Address) (entry : Entry) (past : List Entry) :
    pushedOwner resolver nft (entry :: past) =
      (ownerPush resolver nft entry).or (pushedOwner resolver nft past) := by
  unfold pushedOwner
  rw [List.findSome?_cons]
  cases ownerPush resolver nft entry <;> rfl

theorem pushedLock_cons (locks nft : Address) (entry : Entry) (past : List Entry) :
    pushedLock locks nft (entry :: past) =
      (lockPush locks nft entry).or (pushedLock locks nft past) := by
  unfold pushedLock
  rw [List.findSome?_cons]
  cases lockPush locks nft entry <;> rfl

/-- The caches agree with the pushes, and the trusted peers never change. -/
structure Cached (locks resolver : Address) (entries : List Entry) (s : State) : Prop where
  resolverPeer : s.nftResolver = resolver
  locksPeer : s.accountLocksContract = locks
  owners : ∀ nft, s.nftOwners.get nft = pushedOwner resolver nft entries
  lockStates : ∀ nft, s.accountLocks.get nft = pushedLock locks nft entries

theorem effect_peers {hash : Cell → Int} {env : Context} {self next : State}
    (effect : Effect hash env self msg next actions) :
    next.nftResolver = self.nftResolver ∧
      next.accountLocksContract = self.accountLocksContract := by
  cases effect <;> exact ⟨rfl,rfl⟩

/-- Only an accepted push of the resolver writes the owner map. -/
theorem effect_owners {hash : Cell → Int} {d : Delivery Message} {self next : State}
    (effect : Effect hash d.context self d.message next actions) (nft : Address) :
    next.nftOwners.get nft =
      (ownerPush self.nftResolver nft ⟨self,d,next,actions⟩).or (self.nftOwners.get nft) := by
  obtain ⟨context,msg,commits⟩ := d
  cases effect with
  | resolved authorized =>
    change context.sender = self.nftResolver at authorized
    simp only [State.register,FiniteMap.get_set,ownerPush,authorized,and_true,eq_comm (a := nft)]
    split <;> rfl
  | _ => rfl

theorem effect_lockStates {hash : Cell → Int} {d : Delivery Message} {self next : State}
    (effect : Effect hash d.context self d.message next actions) (nft : Address) :
    next.accountLocks.get nft =
      (lockPush self.accountLocksContract nft ⟨self,d,next,actions⟩).or
        (self.accountLocks.get nft) := by
  obtain ⟨context,msg,commits⟩ := d
  cases effect with
  | locked authorized =>
    change context.sender = self.accountLocksContract at authorized
    simp only [FiniteMap.get_set,lockPush,authorized,and_true,eq_comm (a := nft)]
    split <;> rfl
  | _ => rfl

theorem cached_step {hash : Cell → Int} {d : Delivery Message} {s next : State}
    (valid : Cached locks resolver past s)
    (effect : Effect hash d.context s d.message next actions) :
    Cached locks resolver (⟨s,d,next,actions⟩ :: past) next := by
  obtain ⟨keepsResolver,keepsLocks⟩ := effect_peers effect
  constructor
  · exact keepsResolver.trans valid.resolverPeer
  · exact keepsLocks.trans valid.locksPeer
  · intro nft
    rw [effect_owners effect,valid.resolverPeer,valid.owners,pushedOwner_cons]
  · intro nft
    rw [effect_lockStates effect,valid.locksPeer,valid.lockStates,pushedLock_cons]

theorem run_cached (hash : Cell → Int) (deployer locks resolver settlement : Address)
    (deliveries : List (Delivery Message)) :
    Cached locks resolver (journal hash (init deployer locks resolver settlement) deliveries)
      (run hash (init deployer locks resolver settlement) deliveries) := by
  refine deliver_invariant (Cached locks resolver) ?_ ?_ deliveries
  · constructor <;> simp [init,pushedOwner,pushedLock]
  · intro past s d next actions valid accepted
    exact cached_step valid (receive_effect accepted)

/-- Every message kind other than a payment request and a deposit. -/
def isAdministrative : Message → Bool
  | .merchantPaymentRequest .. => false
  | .tbcDeposit .. => false
  | _ => true

def isRejection : Action Body → Bool
  | .send parameters =>
    match parameters.body with
    | .merchantPaymentResponse success _ => !success
    | _ => false
  | .emit _ => false

theorem administrative_balances {hash : Cell → Int} {env : Context} {self next : State}
    (effect : Effect hash env self msg next actions) (administrative : isAdministrative msg = true) :
    next.accountBalances = self.accountBalances := by
  cases effect <;> first | rfl | contradiction

theorem rejection_balances {hash : Cell → Int} {env : Context} {self next : State}
    (effect : Effect hash env self msg next actions)
    (rejection : actions.any isRejection = true) :
    next.accountBalances = self.accountBalances := by
  cases effect with
  | paid => simp [isRejection,response] at rejection
  | deposited => simp [isRejection] at rejection
  | _ => rfl

/-- A payment as a change of one balance; paying oneself changes none. -/
theorem pay_getBalance (self : State) (payerNft merchantNft : Address) (amountTbc : Int)
    (other : Address) : (self.pay payerNft merchantNft amountTbc).getBalance other =
      self.getBalance other - (if other = payerNft then amountTbc else 0) +
        (if other = merchantNft then amountTbc else 0) := by
  change FiniteMap.amount _ _ = self.accountBalances.amount other - _ + _
  simp only [State.pay,FiniteMap.amount_set]
  change (if other = merchantNft then (if merchantNft = payerNft then
    self.accountBalances.amount payerNft - amountTbc else _) + _ else
    if other = payerNft then self.accountBalances.amount payerNft - amountTbc else _) = _
  split
  next merchant =>
    subst merchant
    split
    next payer => subst payer; rfl
    next => omega
  next =>
    split
    next payer => subst payer; omega
    next => omega

/-- The authority behind a debit of `nft`, in terms of what peers pushed before it. -/
structure DebitAuthority (locks resolver : Address) (entries : List Entry) (s next : State)
    (d : Delivery Message) (nft merchant : Address) (amount : Int) (payload : Option Cell) :
    Prop where
  request : d.message = .merchantPaymentRequest nft merchant amount payload
  owner : pushedOwner resolver nft entries = some d.context.sender
  active : s.getAccountState nft = accountStateActive
  unlocked : isLocked ((pushedLock locks nft entries).getD defaultLockState) = false
  apart : merchant ≠ nft
  registered : ∃ state, s.accountStates.get merchant = some state ∧ state ≠ accountStateClosed
  positive : 0 < amount
  debited : next.getBalance nft = s.getBalance nft - amount
  credited : next.getBalance merchant = s.getBalance merchant + amount
  others : ∀ other, other ≠ nft → other ≠ merchant → next.getBalance other = s.getBalance other

theorem effect_debit {hash : Cell → Int} {d : Delivery Message} {s next : State}
    (valid : Cached locks resolver entries s)
    (effect : Effect hash d.context s d.message next actions)
    (decrease : next.getBalance nft < s.getBalance nft) :
    ∃ merchant amount payload,
      DebitAuthority locks resolver entries s next d nft merchant amount payload := by
  obtain ⟨context,msg,commits⟩ := d
  cases effect with
  | @paid payerNft merchantNft amountTbc payload payable =>
    have balance := pay_getBalance s payerNft merchantNft amountTbc
    have positive := payable.positive
    have payer : nft = payerNft := by
      by_contra different
      have changed := balance nft
      rw [if_neg different] at changed
      split at changed <;> omega
    subst payer
    have apart : merchantNft ≠ nft := by
      intro same
      have unchanged := balance nft
      rw [if_pos rfl,if_pos same.symm] at unchanged
      omega
    obtain ⟨state,registered,receives⟩ := payable.registered
    refine ⟨merchantNft,amountTbc,payload,
      { request := rfl
        owner := valid.owners nft ▸ payable.owner
        active := ?_
        unlocked := ?_
        apart
        registered := ⟨state,registered,?_⟩
        positive
        debited := ?_
        credited := ?_
        others := ?_ }⟩
    · simpa [canSend] using payable.active
    · rw [← valid.lockStates]
      simpa [canSendWithLocks,State.getLockState] using payable.unlocked
    · simpa [canReceive] using receives
    · simpa [Ne.symm apart] using balance nft
    · simpa [apart] using balance merchantNft
    · intro other notPayer notMerchant
      simpa [notPayer,notMerchant] using balance other
  | @deposited amountTbc nftAddress depositId _ positive =>
    change FiniteMap.amount (State.deposit ..).accountBalances nft < s.accountBalances.amount nft
      at decrease
    rw [State.deposit,FiniteMap.amount_set] at decrease
    split at decrease
    · rename_i same
      subst same
      change s.accountBalances.amount nft + amountTbc < _ at decrease
      omega
    · omega
  | _ => exact absurd decrease (lt_irrefl _)

/-- Debit authority: after every past run and for every next message, a balance goes down
only in a payment that its latest pushed owner requested from an active unlocked account,
and exactly the merchant gains what the payer loses; rejections and administrative
messages change no balance. -/
theorem debit_authority (hash : Cell → Int) (deployer locks resolver settlement : Address)
    (past : List (Delivery Message)) (d : Delivery Message) :
    let start := init deployer locks resolver settlement
    let entries := journal hash start past
    let s := run hash start past
    let next := run hash start (d :: past)
    (∀ nft, next.getBalance nft < s.getBalance nft → ∃ merchant amount payload,
      DebitAuthority locks resolver entries s next d nft merchant amount payload) ∧
    (∀ after actions, deliver (receive hash) s d = some (after,actions) →
      actions.any isRejection = true → next.accountBalances = s.accountBalances) ∧
    (isAdministrative d.message = true → next.accountBalances = s.accountBalances) := by
  intro start entries s next
  have valid : Cached locks resolver entries s :=
    run_cached hash deployer locks resolver settlement past
  cases outcome : deliver (receive hash) s d with
  | none =>
    have same : next = s := Journal.run_refused outcome
    rw [same]
    exact ⟨fun nft decrease => absurd decrease (lt_irrefl _),fun _ _ _ _ => rfl,fun _ => rfl⟩
  | some result =>
    obtain ⟨after,actions⟩ := result
    have reached : next = after := Journal.run_accepted outcome
    have effect := receive_effect (deliver_received outcome)
    rw [reached]
    refine ⟨fun nft decrease => effect_debit valid effect decrease,?_,?_⟩
    · intro same others accepted rejection
      obtain ⟨rfl,rfl⟩ := Prod.mk.inj (Option.some.inj accepted)
      exact rejection_balances effect rejection
    · exact administrative_balances effect

end Tonbankcard.MerchantPaymentHub
