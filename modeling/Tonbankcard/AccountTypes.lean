import Mathlib.Data.Int.Notation

/-! Account states and lock states shared by the payment contracts. -/
namespace Tonbankcard

def accountStateActive : Int := 0
def accountStateFrozen : Int := 1
def accountStateClosed : Int := 3

def canSend (state : Int) : Bool := state == accountStateActive
def canReceive (state : Int) : Bool := state != accountStateClosed

structure LockState where
  fraudLocked : Bool
  collateralLocked : Bool
  deriving DecidableEq, Repr

def isLocked (lockState : LockState) : Bool := lockState.fraudLocked || lockState.collateralLocked
def canSendWithLocks (lockState : LockState) : Bool := !isLocked lockState

/-- What an account is in until a lock is applied. -/
def defaultLockState : LockState := ⟨false,false⟩

end Tonbankcard
