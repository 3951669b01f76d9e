import Shentu.Lib.Bytes
import Shentu.Lib.Coins
import Shentu.Lib.Runs
import Shentu.Lib.Table

/-!
Operators of the oracle module and the withdrawal of their collateral. A withdrawal is
stored under a key that begins with the little-endian bytes of the block at which it is
due, and the begin blocker pays the withdrawals in the range of keys up to the bytes of
the current height. The rewards that operators earn with responses to tasks are given by
an event here.
-/

namespace Shentu.Oracle

open Lib

variable {σ : Type}

/-- An address is its bytes, which are a part of the keys in the store. -/
abbrev Address := List Byte

inductive Err
  | noOperatorFound | operatorAlreadyExists | noTotalCollateralFound | noEnoughTotalCollateral
  | noEnoughCollateral | invalidPoolParams | invalidCoins
  | taskNotExists | taskNotClosed | taskClosed | taskFailed | duplicateResponse | invalidScore
  | unqualifiedOperator | notExpired | notFinished | notCreator
  /-- An error of the supply keeper. -/
  | external
  deriving DecidableEq

inductive Fault
  | error (e : Err)
  /-- A difference of coins, or a single coin, with a negative amount. -/
  | negativeCoinAmount
  | divisionByZero
  /-- The first coin of an empty list. -/
  | indexOutOfRange
  /-- A number that does not fit into 64 bits. -/
  | outOfBounds
  /-- A returned error that the begin blocker turns into a panic. -/
  | ofError (e : Err)
  deriving DecidableEq

/-- The transfers to and from the account of the module, and the bond denomination. -/
structure Keepers (σ : Type) where
  bondDenom : Denom
  sendCoinsFromAccountToModule : σ → Address → Coins → Option σ
  sendCoinsFromModuleToAccount : σ → Address → Coins → Option σ

structure LockedPoolParams where
  lockedInBlocks : Int
  minimumCollateral : Int
  deriving DecidableEq

def LockedPoolParams.validate (p : LockedPoolParams) : Prop :=
  0 ≤ p.lockedInBlocks ∧ 0 ≤ p.minimumCollateral

instance (p : LockedPoolParams) : Decidable p.validate := by
  unfold LockedPoolParams.validate
  infer_instance

structure Operator where
  address : Address
  proposer : Address
  collateral : Coins
  accumulatedRewards : Coins
  name : String
  deriving DecidableEq

structure Withdraw where
  address : Address
  amount : Coins
  dueBlock : Int
  deriving DecidableEq

def withdrawStoreKeyPrefix : List Byte := [2]

/-- A signed number of 64 bits from its value, and its bits as an unsigned one. -/
def int64 (x : Int) : Int := Int.bmod x (2 ^ 64)

def uint64 (x : Int) : Nat := (x % 2 ^ 64).toNat

/-- The bytes of a block height in a key. -/
def heightBytes (height : Int) : List Byte := littleEndian 8 (uint64 height)

def withdrawStoreKey (address : Address) (dueBlock : Int) : List Byte :=
  withdrawStoreKeyPrefix ++ heightBytes dueBlock ++ address

def Withdraw.storeKey (w : Withdraw) : List Byte := withdrawStoreKey w.address w.dueBlock

structure State (σ : Type) where
  height : Nat
  poolParams : LockedPoolParams
  operators : Table Operator.address
  withdraws : Table Withdraw.storeKey
  totalCollateral : Option Coins
  world : σ

namespace State

variable (k : Keepers σ)

def isBelowMinCollateral (s : State σ) (currentCollateral : Coins) : Prop :=
  currentCollateral.amountOf k.bondDenom < s.poolParams.minimumCollateral

instance (k : Keepers σ) (s : State σ) (currentCollateral : Coins) :
    Decidable (s.isBelowMinCollateral k currentCollateral) := by
  unfold isBelowMinCollateral
  infer_instance

variable (s : State σ)

def addTotalCollateral (increment : Coins) : Except Fault (State σ) := do
  let currentCollateral ← orFail s.totalCollateral (.error .noTotalCollateralFound)
  return { s with totalCollateral := some (currentCollateral.add increment) }

def reduceTotalCollateral (decrement : Coins) : Except Fault (State σ) := do
  let currentCollateral ← orFail s.totalCollateral (.error .noTotalCollateralFound)
  let currentCollateral ← orFail (currentCollateral.sub decrement) .negativeCoinAmount
  failIf (Coins.isAnyNegative currentCollateral = true) (.error .noEnoughTotalCollateral)
  return { s with totalCollateral := some currentCollateral }

/-- The block at which a withdrawal that is created now is due. -/
def dueBlock : Int := int64 (s.height + s.poolParams.lockedInBlocks)

variable (address : Address)

def newWithdraw (amount : Coins) : Withdraw where
  address := address
  amount := amount
  dueBlock := s.dueBlock

def createWithdraw (amount : Coins) : State σ :=
  { s with withdraws := s.withdraws.set (s.newWithdraw address amount) }

def createOperator (s : State σ) (address : Address) (collateral : Coins)
    (proposer : Address) (name : String) : Except Fault (State σ) := do
  failIf ((s.operators.get address).isSome = true) (.error .operatorAlreadyExists)
  failIf (s.isBelowMinCollateral k collateral) (.error .noEnoughCollateral)
  let s := { s with operators := s.operators.set ⟨address, proposer, collateral, [], name⟩ }
  let s ← s.addTotalCollateral collateral
  let world ← orFail (k.sendCoinsFromAccountToModule s.world address collateral) (.error .external)
  return { s with world := world }

/-- The collateral is withdrawn and the rewards are paid at once. -/
def removeOperator (s : State σ) (address : Address) : Except Fault (State σ) := do
  let operator ← orFail (s.operators.get address) (.error .noOperatorFound)
  let s ← s.reduceTotalCollateral operator.collateral
  let s := s.createWithdraw operator.address operator.collateral
  let world ← orFail (k.sendCoinsFromModuleToAccount s.world address operator.accumulatedRewards)
    (.error .external)
  return { s with world := world, operators := s.operators.delete address }

def addCollateral (s : State σ) (address : Address) (increment : Coins) :
    Except Fault (State σ) := do
  let operator ← orFail (s.operators.get address) (.error .noOperatorFound)
  let operator := { operator with collateral := operator.collateral.add increment }
  let s := { s with operators := s.operators.set operator }
  let s ← s.addTotalCollateral increment
  let world ← orFail (k.sendCoinsFromAccountToModule s.world address increment) (.error .external)
  return { s with world := world }

def reduceCollateral (s : State σ) (address : Address) (decrement : Coins) :
    Except Fault (State σ) := do
  let operator ← orFail (s.operators.get address) (.error .noOperatorFound)
  let collateral ← orFail (operator.collateral.sub decrement) .negativeCoinAmount
  failIf (s.isBelowMinCollateral k collateral) (.error .noEnoughCollateral)
  let operator := { operator with collateral := collateral }
  let s := { s with operators := s.operators.set operator }
  let s ← s.reduceTotalCollateral decrement
  return s.createWithdraw operator.address decrement

def addReward (increment : Coins) : Except Fault (State σ) := do
  let operator ← orFail (s.operators.get address) (.error .noOperatorFound)
  let operator := { operator with accumulatedRewards := operator.accumulatedRewards.add increment }
  return { s with operators := s.operators.set operator }

def withdrawAllReward (s : State σ) (address : Address) : Except Fault (State σ) := do
  let operator ← orFail (s.operators.get address) (.error .noOperatorFound)
  let world ← orFail (k.sendCoinsFromModuleToAccount s.world address operator.accumulatedRewards)
    (.error .external)
  return { s with
    world := world
    operators := s.operators.set { operator with accumulatedRewards := [] } }

/-- The withdrawals in the range that starts with the prefix of their keys and ends after the
bytes of the height. -/
def matureWithdraws : List Withdraw :=
  s.withdraws.rows.filter (fun w => withdrawStoreKeyPrefix ≤ w.storeKey ∧
    beforeEnd w.storeKey (prefixEndBytes (withdrawStoreKeyPrefix ++ heightBytes s.height)))

/-- Pay one withdrawal and delete it. -/
def finalizeWithdraw (s : State σ) (w : Withdraw) : Except Fault (State σ) := do
  let world ← orFail (k.sendCoinsFromModuleToAccount s.world w.address w.amount)
    (.ofError .external)
  return { s with world := world, withdraws := s.withdraws.delete w.storeKey }

def finalizeMatureWithdraws (s : State σ) : Except Fault (State σ) :=
  s.matureWithdraws.foldlM (finalizeWithdraw k) s

end State

inductive Msg
  | createOperator (address : Address) (collateral : Coins) (proposer : Address) (name : String)
  | removeOperator (address : Address)
  | addCollateral (address : Address) (increment : Coins)
  | reduceCollateral (address : Address) (decrement : Coins)
  | withdrawReward (address : Address)

def failNegative (coins : Coins) : Except Fault Unit :=
  failIf (Coins.isAnyNegative coins = true) (.error .invalidCoins)

/-- The checks of a message before it is handled: coins may be in any order, and zero. -/
def Msg.validateBasic : Msg → Except Fault Unit
  | .createOperator _ collateral _ _ => failNegative collateral
  | .addCollateral _ increment => failNegative increment
  | .reduceCollateral _ decrement => failNegative decrement
  | .removeOperator _ | .withdrawReward _ => .ok ()

variable (k : Keepers σ)

variable (s : State σ)

def handleMsg : Msg → Except Fault (State σ)
  | .createOperator address collateral proposer name =>
    s.createOperator k address collateral proposer name
  | .removeOperator address => s.removeOperator k address
  | .addCollateral address increment => s.addCollateral k address increment
  | .reduceCollateral address decrement => s.reduceCollateral k address decrement
  | .withdrawReward address => s.withdrawAllReward k address

def deliverTx (msg : Msg) : Except Fault (State σ) := do
  msg.validateBasic
  handleMsg k s msg

/-- What happens on the chain as far as the module can see it: the next block, messages, rewards
for responses to tasks, a change of the parameters and changes of the rest of the world. -/
inductive Event (σ : Type)
  | beginBlock
  | tx (msg : Msg)
  | reward (address : Address) (increment : Coins)
  | setPoolParams (p : LockedPoolParams)
  | outside (world : σ)

/-- What fails leaves the state as it was. -/
def orUnchanged : Except Fault (State σ) → State σ
  | .ok s' => s'
  | .error _ => s

/-- A panic of the begin blocker stops the chain. -/
def exec : Event σ → Except Fault (State σ)
  | .beginBlock => State.finalizeMatureWithdraws k { s with height := s.height + 1 }
  | .tx msg => .ok (orUnchanged s (deliverTx k s msg))
  | .reward address increment => .ok (orUnchanged s (s.addReward address increment))
  | .setPoolParams p => .ok (if p.validate then { s with poolParams := p } else s)
  | .outside world => .ok { s with world := world }

def run (events : List (Event σ)) : Except Fault (State σ) :=
  events.foldlM (exec k) s

/-- What is seen of the collateral: coins that are put in, and withdrawals that are created and
paid, with the height at which they are. -/
inductive Entry
  | putIn (address : Address) (coins : Coins)
  | created (height : Nat) (w : Withdraw)
  | paid (height : Nat) (w : Withdraw)
  deriving DecidableEq

/-- The entries of a message that succeeds. -/
def msgEntries : Msg → List Entry
  | .createOperator address collateral _ _ => [.putIn address collateral]
  | .addCollateral address increment => [.putIn address increment]
  | .reduceCollateral address decrement => [.created s.height (s.newWithdraw address decrement)]
  | .removeOperator address =>
    (s.operators.get address).toList.map
      (fun operator => .created s.height (s.newWithdraw operator.address operator.collateral))
  | .withdrawReward _ => []

def entries : Event σ → List Entry
  | .beginBlock => { s with height := s.height + 1 }.matureWithdraws.map (.paid (s.height + 1))
  | .tx msg =>
    match deliverTx k s msg with
    | .ok _ => msgEntries s msg
    | .error _ => []
  | _ => []

/-- The entries of a run. -/
def log (events : List (Event σ)) : List Entry :=
  observations (entries k) (exec k) s events

/-- A world without balances: every transfer of valid coins succeeds. -/
def openKeepers : Keepers Unit where
  bondDenom := "uctk"
  sendCoinsFromAccountToModule _ _ coins := if Coins.isValid coins then some () else none
  sendCoinsFromModuleToAccount _ _ coins := if Coins.isValid coins then some () else none

/-- An oracle without operators at a height, with a lock of some blocks. -/
def State.start (height : Nat) (lockedInBlocks : Int) : State Unit where
  height := height
  poolParams := ⟨lockedInBlocks, 0⟩
  operators := Table.empty
  withdraws := Table.empty
  totalCollateral := some []
  world := ()

end Shentu.Oracle
