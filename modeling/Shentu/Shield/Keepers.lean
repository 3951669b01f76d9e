import Shentu.Shield.Types
import Shentu.Lib.Runs

/-!
What the shield module expects of the other modules: the staking keeper, the
supply keeper and the account keeper, as functions on an abstract state of the
rest of the chain. Nothing is assumed about them here.
-/

namespace Shentu

open Lib

inductive BondStatus
  | unbonded | unbonding | bonded
  deriving DecidableEq

structure Delegation where
  delegatorAddress : AccAddress
  validatorAddress : ValAddress
  shares : Int
  deriving DecidableEq

structure Validator where
  operatorAddress : ValAddress
  jailed : Bool
  status : BondStatus
  tokens : Int
  delegatorShares : Int
  minSelfDelegation : Int
  deriving DecidableEq

structure UnbondingDelegationEntry where
  completionTime : Time
  balance : Int
  deriving DecidableEq

structure UnbondingDelegation where
  delegatorAddress : AccAddress
  validatorAddress : ValAddress
  entries : List UnbondingDelegationEntry
  deriving DecidableEq

structure DVPair where
  delegatorAddress : AccAddress
  validatorAddress : ValAddress
  deriving DecidableEq

inductive ModuleName
  | shield | gov | bondedPool | notBondedPool
  deriving DecidableEq

/-- The keepers the shield keeper is built from. A function that can return an
error without writing returns an option. The two hook functions stand for the
hooks of the modules that are called before the shield module. -/
structure Keepers (σ : Type) where
  bondDenom : Denom
  getAllDelegatorDelegations : σ → AccAddress → List Delegation
  getDelegation : σ → AccAddress → ValAddress → Option Delegation
  setDelegation : σ → Delegation → σ
  removeDelegation : σ → Delegation → σ
  getValidator : σ → ValAddress → Option Validator
  setValidator : σ → Validator → σ
  deleteValidatorByPowerIndex : σ → Validator → σ
  removeValidator : σ → ValAddress → σ
  removeValidatorTokensAndShares : σ → Validator → Int → σ × Validator × Int
  beforeDelegationSharesModified : σ → AccAddress → ValAddress → σ
  beforeDelegationRemoved : σ → AccAddress → ValAddress → σ
  afterDelegationModified : σ → AccAddress → ValAddress → σ
  getAllUnbondingDelegations : σ → AccAddress → List UnbondingDelegation
  getUnbondingDelegation : σ → AccAddress → ValAddress → Option UnbondingDelegation
  setUnbondingDelegation : σ → UnbondingDelegation → σ
  removeUnbondingDelegation : σ → UnbondingDelegation → σ
  getUBDQueueTimeSlice : σ → Time → List DVPair
  setUBDQueueTimeSlice : σ → Time → List DVPair → σ
  removeUBDQueue : σ → Time → σ
  insertUBDQueue : σ → UnbondingDelegation → Time → σ
  /-- The time slices of the unbonding queue until and including a time. -/
  ubdQueueIterator : σ → Time → List (Slice DVPair)
  /-- The account keeper's part of an undelegation: a vesting account tracks it. -/
  trackUndelegation : σ → AccAddress → Coins → Option σ
  sendCoinsFromAccountToModule : σ → AccAddress → ModuleName → Coins → Option σ
  sendCoinsFromModuleToAccount : σ → ModuleName → AccAddress → Coins → Option σ
  sendCoinsFromModuleToModule : σ → ModuleName → ModuleName → Coins → Option σ
  burnCoins : σ → ModuleName → Coins → Option σ

/-- Keepers of a world without stake, which nothing changes and which sends no coins. -/
def idleKeepers (σ : Type) : Keepers σ where
  bondDenom := microCTKDenom
  getAllDelegatorDelegations _ _ := []
  getDelegation _ _ _ := none
  setDelegation w _ := w
  removeDelegation w _ := w
  getValidator _ _ := none
  setValidator w _ := w
  deleteValidatorByPowerIndex w _ := w
  removeValidator w _ := w
  removeValidatorTokensAndShares w v _ := (w, v, 0)
  beforeDelegationSharesModified w _ _ := w
  beforeDelegationRemoved w _ _ := w
  afterDelegationModified w _ _ := w
  getAllUnbondingDelegations _ _ := []
  getUnbondingDelegation _ _ _ := none
  setUnbondingDelegation w _ := w
  removeUnbondingDelegation w _ := w
  getUBDQueueTimeSlice _ _ := []
  setUBDQueueTimeSlice w _ _ := w
  removeUBDQueue w _ := w
  insertUBDQueue w _ _ := w
  ubdQueueIterator _ _ := []
  trackUndelegation _ _ _ := none
  sendCoinsFromAccountToModule _ _ _ _ := none
  sendCoinsFromModuleToAccount _ _ _ _ := none
  sendCoinsFromModuleToModule _ _ _ _ := none
  burnCoins _ _ _ := none

/-- The token value of delegation shares at the validator's exchange rate. -/
def Validator.tokensFromShares (v : Validator) (shares : Int) : Except Fault Int :=
  decQuo (Dec.mulInt shares v.tokens) v.delegatorShares

/-- The shares of a token amount, an error when the validator holds no tokens. -/
def Validator.sharesFromTokens (v : Validator) (amount : Int) : Except Fault Int := do
  failIf (v.tokens = 0) (.error .external)
  return Dec.quoInt (Dec.mulInt v.delegatorShares amount) v.tokens

/-- The truncated token value of all delegations of an address. -/
def totalStaked {σ : Type} (k : Keepers σ) (w : σ) (addr : AccAddress) : Except Fault Int :=
  (k.getAllDelegatorDelegations w addr).foldlM (fun total del => do
    let val ← orFail (k.getValidator w del.validatorAddress) (.panic .validatorNotFound)
    let tokens ← val.tokensFromShares del.shares
    return total + Dec.truncateInt tokens) 0

end Shentu
