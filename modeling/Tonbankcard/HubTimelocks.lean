import Tonbankcard.MerchantPaymentHub
import Tonbankcard.PaymentHub
import Tonbankcard.Timelock

/-! The timelocks of the two payment hubs: the admin transfer that both have, and the whitelist of
the merchant hub beside it. Each pending slot is backed by the history of its own steps. -/
namespace Tonbankcard

open Ton Timelock

namespace PaymentHub

def transferMove : Message → Move Address
  | .proposeAdminTransfer newAdmin => .propose newAdmin
  | .executeAdminTransfer => .execute
  | .cancelAdminTransfer => .cancel
  | _ => .none

/-- A transaction as a step of the admin transfer. -/
def transferStep (entry : Entry) : Step Address Address where
  sender := entry.input.context.sender
  now := entry.input.context.now
  move := transferMove entry.input.message

def State.transferSlot (self : State) : Slot Address :=
  ⟨self.pendingAdmin,self.pendingAdminExecutableAt⟩

/-- The pending transfer is the latest step of the transfer, a proposal of the admin in force. -/
def TransferBacked (past : List Entry) (s : State) : Prop :=
  s.transferSlot.Backed adminTransferDelay (· = s.admin) (past.map transferStep)

section Steps
variable {self next : State} {d : Delivery Message} {past : List Entry}

theorem effect_transferBacked (backed : TransferBacked past self)
    (effect : Effect d.context self d.message next) :
    TransferBacked (⟨self,d,next,actions⟩ :: past) next := by
  obtain ⟨env,msg,commits⟩ := d
  cases effect with
  | adminProposed authorized fits => exact backed_proposed env.sender _ authorized
  | adminExecuted pending elapsed => exact backed_empty
  | adminCancelled authorized pending => exact backed_empty
  | _ => exact backed.later rfl

theorem effect_succession (backed : TransferBacked past self)
    (effect : Effect d.context self d.message next) (changed : next.admin ≠ self.admin) :
    Succession adminTransferDelay (past.map transferStep)
      (transferStep ⟨self,d,next,actions⟩) self.admin next.admin := by
  obtain ⟨env,msg,commits⟩ := d
  cases effect with
  | adminExecuted pending elapsed => exact ⟨rfl,rfl,backed.ripe pending elapsed⟩
  | _ => exact absurd rfl changed

end Steps

theorem run_transferBacked (hash : String → Int) (deployerAddress : Address)
    (deliveries : List (Delivery Message)) :
    TransferBacked (journal hash (init deployerAddress) deliveries)
      (run hash (init deployerAddress) deliveries) := by
  refine deliver_invariant TransferBacked ?_ ?_ deliveries
  · exact backed_empty
  · intro past s d next actions backed accepted
    exact effect_transferBacked backed (receive_effect accepted)

end PaymentHub

namespace MerchantPaymentHub

def transferMove : Message → Move Address
  | .merchantProposeAdminTransfer newAdmin => .propose newAdmin
  | .merchantExecuteAdminTransfer => .execute
  | .merchantCancelAdminTransfer => .cancel
  | _ => .none

def whitelistMove : Message → Move Address
  | .proposeWhitelistCollection collectionAddress => .propose collectionAddress
  | .executeWhitelistCollection => .execute
  | .cancelWhitelistCollection => .cancel
  | _ => .none

/-- A transaction as a step behind one of the two timelocks. -/
def timelockStep (move : Message → Move Address) (entry : Entry) : Step Address Address where
  sender := entry.input.context.sender
  now := entry.input.context.now
  move := move entry.input.message

def State.transferSlot (self : State) : Slot Address :=
  ⟨self.pendingAdmin,self.pendingAdminExecutableAt⟩

def State.whitelistSlot (self : State) : Slot Address :=
  ⟨self.pendingWhitelistCollection,self.pendingWhitelistExecutableAt⟩

structure TimelocksBacked (past : List Entry) (s : State) : Prop where
  transfer : s.transferSlot.Backed merchantAdminTransferDelay (· = s.admin)
    (past.map (timelockStep transferMove))
  whitelist : s.whitelistSlot.Backed merchantWhitelistTimelockDelay (fun _ => True)
    (past.map (timelockStep whitelistMove))

/-- A collection is admitted by the admin in force, who carries out the latest proposal. -/
structure Admission (past : List Entry) (entry : Entry) (collection : Address) : Prop where
  executed : entry.input.message = .executeWhitelistCollection
  admin : entry.input.context.sender = entry.before.admin
  proposed : ∃ proposal, Standing (past.map (timelockStep whitelistMove)) collection proposal ∧
    proposal.now + merchantWhitelistTimelockDelay ≤ entry.input.context.now

/-- What one transaction may do to the admin, the whitelist and the two slots. -/
structure TimelockStep (past : List Entry) (entry : Entry) : Prop where
  succession : entry.after.admin ≠ entry.before.admin →
    Succession merchantAdminTransferDelay (past.map (timelockStep transferMove))
      (timelockStep transferMove entry) entry.before.admin entry.after.admin
  admission : ∀ collection, entry.before.whitelistedCollections.get collection = none →
    entry.after.whitelistedCollections.get collection ≠ none → Admission past entry collection
  kept : ∀ collection, entry.before.whitelistedCollections.get collection ≠ none →
    entry.after.whitelistedCollections.get collection ≠ none
  transferFrame : transferMove entry.input.message ≠ .none →
    entry.after.whitelistSlot = entry.before.whitelistSlot
  whitelistFrame : whitelistMove entry.input.message ≠ .none →
    entry.after.transferSlot = entry.before.transferSlot

section Steps
variable {hash : Cell → Int} {self next : State} {d : Delivery Message} {past : List Entry}

theorem effect_timelocksBacked (backed : TimelocksBacked past self)
    (effect : Effect hash d.context self d.message next actions) :
    TimelocksBacked (⟨self,d,next,actions⟩ :: past) next := by
  obtain ⟨env,msg,commits⟩ := d
  obtain ⟨transfer,whitelist⟩ := backed
  cases effect with
  | whitelistProposed authorized fits =>
    exact ⟨transfer.later rfl,backed_proposed env.sender _ trivial⟩
  | whitelistExecuted authorized pending elapsed => exact ⟨transfer.later rfl,backed_empty⟩
  | whitelistCancelled authorized pending => exact ⟨transfer.later rfl,backed_empty⟩
  | adminProposed authorized fits =>
    exact ⟨backed_proposed env.sender _ authorized,whitelist.later rfl⟩
  | adminExecuted pending elapsed => exact ⟨backed_empty,whitelist.later rfl⟩
  | adminCancelled authorized pending => exact ⟨backed_empty,whitelist.later rfl⟩
  | _ => exact ⟨transfer.later rfl,whitelist.later rfl⟩

theorem effect_timelockStep (backed : TimelocksBacked past self)
    (effect : Effect hash d.context self d.message next actions) :
    TimelockStep past ⟨self,d,next,actions⟩ := by
  obtain ⟨env,msg,commits⟩ := d
  obtain ⟨transfer,whitelist⟩ := backed
  cases effect with
  | whitelistExecuted authorized pending elapsed =>
    refine ⟨fun changed => absurd rfl changed,?_,?_,nofun,fun _ => rfl⟩
    · intro collection absent stored
      change FiniteMap.get (FiniteMap.set _ _ _) _ ≠ none at stored
      rw [FiniteMap.get_set] at stored
      split at stored
      next same =>
        subst same
        obtain ⟨proposal,standing,-,ripe⟩ := whitelist.ripe pending elapsed
        exact ⟨rfl,authorized,proposal,standing,ripe⟩
      next => exact absurd absent stored
    · intro collection stored
      change FiniteMap.get (FiniteMap.set _ _ _) _ ≠ none
      rw [FiniteMap.get_set]
      split
      · nofun
      · exact stored
  | whitelistProposed authorized fits =>
    refine ⟨fun changed => absurd rfl changed,?_,fun _ => id,nofun,fun _ => rfl⟩
    exact fun _ absent stored => absurd absent stored
  | whitelistCancelled authorized pending =>
    refine ⟨fun changed => absurd rfl changed,?_,fun _ => id,nofun,fun _ => rfl⟩
    exact fun _ absent stored => absurd absent stored
  | adminExecuted pending elapsed =>
    refine ⟨fun _ => ⟨rfl,rfl,transfer.ripe pending elapsed⟩,?_,fun _ => id,fun _ => rfl,nofun⟩
    exact fun _ absent stored => absurd absent stored
  | adminProposed authorized fits =>
    refine ⟨fun changed => absurd rfl changed,?_,fun _ => id,fun _ => rfl,nofun⟩
    exact fun _ absent stored => absurd absent stored
  | adminCancelled authorized pending =>
    refine ⟨fun changed => absurd rfl changed,?_,fun _ => id,fun _ => rfl,nofun⟩
    exact fun _ absent stored => absurd absent stored
  | _ =>
    refine ⟨fun changed => absurd rfl changed,?_,fun _ => id,fun _ => rfl,fun _ => rfl⟩
    exact fun _ absent stored => absurd absent stored

end Steps

theorem run_timelocksBacked (hash : Cell → Int)
    (deployerAddress accountLocksContract nftResolver tbcSettlement : Address)
    (deliveries : List (Delivery Message)) :
    TimelocksBacked
      (journal hash (init deployerAddress accountLocksContract nftResolver tbcSettlement) deliveries)
      (run hash (init deployerAddress accountLocksContract nftResolver tbcSettlement)
        deliveries) := by
  refine deliver_invariant TimelocksBacked ?_ ?_ deliveries
  · exact ⟨backed_empty,backed_empty⟩
  · intro past s d next actions backed accepted
    exact effect_timelocksBacked backed (receive_effect accepted)

theorem entry_timelockStep {hash : Cell → Int}
    {deployerAddress accountLocksContract nftResolver tbcSettlement : Address}
    {deliveries : List (Delivery Message)} {older : List Entry}
    (suffix : entry :: older <:+ journal hash
      (init deployerAddress accountLocksContract nftResolver tbcSettlement) deliveries) :
    TimelockStep older entry := by
  obtain ⟨past,-,rfl,before,accepted⟩ := Journal.suffix_origin suffix
  have backed := run_timelocksBacked hash deployerAddress accountLocksContract nftResolver
    tbcSettlement past
  rw [run,← before] at backed
  exact effect_timelockStep backed (receive_effect (deliver_received accepted))

end MerchantPaymentHub

/-- In every run of any messages the admin of either hub, and the whitelist of the merchant hub,
change only by the execution of the latest proposal, a whole delay after it. -/
theorem hub_timelocks (payloadHash : String → Int) (cellHash : Cell → Int)
    (deployerAddress accountLocksContract nftResolver tbcSettlement : Address)
    (payments : List (Delivery PaymentHub.Message))
    (merchants : List (Delivery MerchantPaymentHub.Message)) :
    (∀ entry older,
      entry :: older <:+ PaymentHub.journal payloadHash (PaymentHub.init deployerAddress) payments →
      entry.after.admin ≠ entry.before.admin →
      Succession PaymentHub.adminTransferDelay (older.map PaymentHub.transferStep)
        (PaymentHub.transferStep entry) entry.before.admin entry.after.admin) ∧
    (∀ entry older,
      entry :: older <:+ MerchantPaymentHub.journal cellHash
        (MerchantPaymentHub.init deployerAddress accountLocksContract nftResolver tbcSettlement)
        merchants →
      MerchantPaymentHub.TimelockStep older entry) ∧
    ∀ past collection, past <:+ merchants →
      (MerchantPaymentHub.run cellHash
        (MerchantPaymentHub.init deployerAddress accountLocksContract nftResolver tbcSettlement)
        past).whitelistedCollections.get collection ≠ none →
      (MerchantPaymentHub.run cellHash
        (MerchantPaymentHub.init deployerAddress accountLocksContract nftResolver tbcSettlement)
        merchants).whitelistedCollections.get collection ≠ none := by
  refine ⟨?_,fun entry older => MerchantPaymentHub.entry_timelockStep,?_⟩
  · intro entry older suffix changed
    obtain ⟨past,-,rfl,before,accepted⟩ := Journal.suffix_origin suffix
    have backed := PaymentHub.run_transferBacked payloadHash deployerAddress past
    rw [PaymentHub.run,← before] at backed
    have effect := PaymentHub.receive_effect (deliver_received accepted)
    exact PaymentHub.effect_succession backed effect changed
  · intro past collection earlier
    refine Journal.persists_entries (fun s : MerchantPaymentHub.State =>
      s.whitelistedCollections.get collection ≠ none) earlier ?_
    intro entry member
    obtain ⟨later,older,whole⟩ := List.append_of_mem member
    exact (MerchantPaymentHub.entry_timelockStep ⟨later,whole.symm⟩).kept collection

end Tonbankcard
