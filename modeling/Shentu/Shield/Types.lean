import Shentu.Lib.DecCoins
import Shentu.Lib.TimeQueue

/-!
The stored data of the shield module. The store is grouped in books by what is
updated together: collateral of the providers, cover sold to purchasers, service
fees and stakes. Amounts are integers, decimal rates and fees are in units of
the eighteenth digit, and times are nanoseconds since the zero time of the host
language. Addresses are their bytes read as a number, so that the store order of
addresses is the order of numbers.
-/

namespace Shentu

open Lib

abbrev AccAddress := Nat
abbrev ValAddress := Nat
abbrev Time := Int
abbrev Duration := Int

/-- Errors that a message handler or a keeper function returns. -/
inductive Err
  | notShieldAdmin | noShield | emptySponsor | noPoolFound | invalidPoolID | insufficientStaking
  | poolAlreadyPaused | poolAlreadyActive | poolInactive | purchaseMissingDescription
  | notEnoughShield | purchaseNotFound | providerNotFound | notEnoughCollateral
  | reimbursementNotFound | invalidBeneficiary | notPayoutTime | overWithdraw
  | sponsorAlreadyExists | collateralBadDenom | poolShieldExceedsLimit | purchaseTooSmall
  | notEnoughStaked | invalidCoins
  | insufficientFunds | insufficientShield | afterProtectionEndTime | unknownProposal
  | alreadyActiveProposal
  /-- An error of a keeper outside the shield and gov modules. -/
  | external
  deriving DecidableEq

/-- Conditions under which the code panics. -/
inductive Panic
  | divisionByZero | negativeCoin | negativeDecCoins | invalidDecCoins
  | providerNotFound | validatorNotFound | delegationNotFound | withdrawFailed
  | notEnoughWithdraws | notEnoughUnbondings | unbondingNotFound | unbondingEntryNotFound
  | notBackedByStaking | secureSurpassesCollateral | indexOutOfRange
  | inexactWithdrawPayout | inexactUnbondingPayout | notEnoughPayout | poolNotFound
  | proposalNotFound
  /-- A returned error that the caller turns into a panic. -/
  | ofError (e : Err)
  deriving DecidableEq

inductive Fault
  | error (e : Err)
  | panic (p : Panic)
  deriving DecidableEq

/-- The block header fields that the modules read. -/
structure Ctx where
  blockTime : Time
  blockHeight : Nat
  deriving DecidableEq

structure MixedCoins where
  native : Coins
  foreign : Coins
  deriving DecidableEq

structure MixedDecCoins where
  native : DecCoins
  foreign : DecCoins

structure Pool where
  id : Nat
  description : String
  sponsor : String
  sponsorAddress : AccAddress
  shieldLimit : Int
  active : Bool
  shield : Int
  deriving DecidableEq

structure Provider where
  address : AccAddress
  delegationBonded : Int
  collateral : Int
  withdrawing : Int
  rewards : MixedDecCoins

structure Purchase where
  purchaseID : Nat
  protectionEndTime : Time
  deletionTime : Time
  description : String
  shield : Int
  serviceFees : MixedDecCoins

structure PurchaseList where
  poolID : Nat
  purchaser : AccAddress
  entries : List Purchase

structure PoolPurchaser where
  poolID : Nat
  purchaser : AccAddress
  deriving DecidableEq

structure Withdraw where
  address : AccAddress
  amount : Int
  completionTime : Time
  deriving DecidableEq

structure ShieldStaking where
  poolID : Nat
  purchaser : AccAddress
  amount : Int
  withdrawRequested : Int
  deriving DecidableEq

structure OriginalStaking where
  purchaseID : Nat
  amount : Int
  deriving DecidableEq

structure Reimbursement where
  amount : Coins
  beneficiary : AccAddress
  payoutTime : Time
  deriving DecidableEq

structure ProposalIDReimbursementPair where
  proposalID : Nat
  reimbursement : Reimbursement
  deriving DecidableEq

structure PoolParams where
  protectionPeriod : Duration
  shieldFeesRate : Int
  withdrawPeriod : Duration
  poolShieldLimit : Int
  minShieldPurchase : Coins

structure ClaimProposalParams where
  payoutPeriod : Duration
  minDeposit : Coins
  depositRate : Int

/-- What `validatePoolParams` accepts. -/
def PoolParams.validate (p : PoolParams) : Prop :=
  0 < p.protectionPeriod ∧ 0 ≤ p.shieldFeesRate ∧ p.shieldFeesRate ≤ Dec.one ∧
    0 < p.withdrawPeriod ∧ 0 ≤ p.poolShieldLimit ∧ p.poolShieldLimit ≤ Dec.one ∧
    Coins.isValid p.minShieldPurchase

instance (p : PoolParams) : Decidable p.validate := by
  unfold PoolParams.validate
  infer_instance

structure ShieldParams where
  admin : AccAddress
  pool : PoolParams
  claimProposal : ClaimProposalParams
  shieldStakingRate : Int

/-- What the validators of the parameter table accept, as far as the model reads it. -/
def ShieldParams.validate (p : ShieldParams) : Prop :=
  p.pool.validate ∧ 0 < p.shieldStakingRate

instance (p : ShieldParams) : Decidable p.validate := by
  unfold ShieldParams.validate
  infer_instance

/-- The key of what belongs to one purchaser of one pool. -/
abbrev PoolKey := Nat ×ₗ Nat

def poolKey (poolID : Nat) (purchaser : AccAddress) : PoolKey := toLex (poolID, purchaser)

lemma poolKey_inj {poolID poolID' : Nat} {purchaser purchaser' : AccAddress} :
    poolKey poolID purchaser = poolKey poolID' purchaser' ↔
      poolID = poolID' ∧ purchaser = purchaser' := by
  rw [poolKey, poolKey, toLex_inj, Prod.mk.injEq]

def PurchaseList.key (l : PurchaseList) : PoolKey := poolKey l.poolID l.purchaser

def ShieldStaking.key (s : ShieldStaking) : PoolKey := poolKey s.poolID s.purchaser

/-- Providers, their collateral and what they are withdrawing. -/
structure CollateralBook where
  providers : Table Provider.address
  withdrawQueue : TimeQueue Withdraw
  totalCollateral : Int
  totalWithdrawing : Int

/-- Pools and the shield sold from them. -/
structure CoverBook where
  pools : Table Pool.id
  nextPoolID : Nat
  nextPurchaseID : Nat
  purchaseLists : Table PurchaseList.key
  purchaseQueue : TimeQueue PoolPurchaser
  totalShield : Int
  totalClaimed : Int

structure FeeBook where
  serviceFees : MixedDecCoins
  remainingServiceFees : MixedDecCoins
  blockServiceFees : MixedDecCoins
  lastUpdateTime : Option Time

structure StakeBook where
  globalStakingPool : Int
  stakeForShields : Table ShieldStaking.key
  originalStakings : Table OriginalStaking.purchaseID

/-- The store of the shield module together with the state `world` of every
module that is reached through a keeper. -/
structure ShieldState (σ : Type) where
  params : ShieldParams
  collateral : CollateralBook
  cover : CoverBook
  fees : FeeBook
  stakes : StakeBook
  reimbursements : Table ProposalIDReimbursementPair.proposalID
  world : σ

namespace MixedDecCoins

def empty : MixedDecCoins := ⟨DecCoins.empty, DecCoins.empty⟩

def ofNative (native : DecCoins) : MixedDecCoins := ⟨native, DecCoins.empty⟩

def add (a b : MixedDecCoins) : MixedDecCoins :=
  ⟨a.native.add b.native, a.foreign.add b.foreign⟩

def sub (a b : MixedDecCoins) : Except Fault MixedDecCoins :=
  match a.native.sub b.native, a.foreign.sub b.foreign with
  | some native, some foreign => .ok ⟨native, foreign⟩
  | _, _ => .error (.panic .negativeDecCoins)

def mulDec (a : MixedDecCoins) (d : Int) : MixedDecCoins :=
  ⟨a.native.mulDec d, a.foreign.mulDec d⟩

def quoDec (a : MixedDecCoins) (d : Int) : Except Fault MixedDecCoins :=
  if d = 0 then .error (.panic .divisionByZero)
  else .ok ⟨a.native.quoDec d, a.foreign.quoDec d⟩

end MixedDecCoins

namespace CollateralBook

def empty : CollateralBook := ⟨Table.empty, Table.empty, 0, 0⟩

variable (b : CollateralBook)

def getProvider (addr : AccAddress) : Option Provider := b.providers.get addr

def setProvider (p : Provider) : CollateralBook :=
  { b with providers := b.providers.set p }

def getAllProviders : List Provider := b.providers.rows

end CollateralBook

namespace CoverBook

variable (b : CoverBook)

def getPool (id : Nat) : Option Pool := b.pools.get id

def setPool (p : Pool) : CoverBook := { b with pools := b.pools.set p }

def getPurchaseList (poolID : Nat) (purchaser : AccAddress) : Option PurchaseList :=
  b.purchaseLists.get (poolKey poolID purchaser)

def setPurchaseList (l : PurchaseList) : CoverBook :=
  { b with purchaseLists := b.purchaseLists.set l }

/-- All purchases of all purchase lists. -/
def getAllPurchases : List Purchase := b.purchaseLists.rows.flatMap (·.entries)

lemma getPurchaseList_eq_some {b : CoverBook} {poolID : Nat} {purchaser : AccAddress}
    {l : PurchaseList} (h : b.getPurchaseList poolID purchaser = some l) :
    l.poolID = poolID ∧ l.purchaser = purchaser ∧ b.purchaseLists.get l.key = some l := by
  have hkey : l.key = poolKey poolID purchaser := Table.key_of_get h
  obtain ⟨hpool, hpurchaser⟩ := poolKey_inj.mp hkey
  exact ⟨hpool, hpurchaser, hkey ▸ h⟩

end CoverBook

/-- The first entry of a purchase list with a purchase ID. -/
def PurchaseList.getPurchase (l : PurchaseList) (purchaseID : Nat) : Option Purchase :=
  l.entries.find? (fun e => e.purchaseID = purchaseID)

namespace StakeBook

def getOriginalStaking (b : StakeBook) (purchaseID : Nat) : Int :=
  b.originalStakings.valueAt OriginalStaking.amount purchaseID

def getStakeForShield (b : StakeBook) (poolID : Nat) (purchaser : AccAddress) :
    Option ShieldStaking :=
  b.stakeForShields.get (poolKey poolID purchaser)

lemma getStakeForShield_eq_some {b : StakeBook} {poolID : Nat} {purchaser : AccAddress}
    {staked : ShieldStaking} (h : b.getStakeForShield poolID purchaser = some staked) :
    staked.poolID = poolID ∧ staked.purchaser = purchaser ∧
      b.stakeForShields.get staked.key = some staked := by
  have hkey : staked.key = poolKey poolID purchaser := Table.key_of_get h
  obtain ⟨hpool, hpurchaser⟩ := poolKey_inj.mp hkey
  exact ⟨hpool, hpurchaser, hkey ▸ h⟩

end StakeBook

/-- The state that the default genesis gives: no providers, pools, purchases or fees. -/
def ShieldState.empty {σ : Type} (params : ShieldParams) (world : σ) : ShieldState σ where
  params := params
  collateral := CollateralBook.empty
  cover := { pools := Table.empty, nextPoolID := 1, nextPurchaseID := 1,
             purchaseLists := Table.empty,
             purchaseQueue := Table.empty, totalShield := 0, totalClaimed := 0 }
  fees := { serviceFees := MixedDecCoins.empty, remainingServiceFees := MixedDecCoins.empty,
            blockServiceFees := MixedDecCoins.empty, lastUpdateTime := none }
  stakes := { globalStakingPool := 0, stakeForShields := Table.empty,
              originalStakings := Table.empty }
  reimbursements := Table.empty
  world := world

/-- The quotient of two decimals, which panics for a zero divisor. -/
def decQuo (a b : Int) : Except Fault Int :=
  if b = 0 then .error (.panic .divisionByZero) else .ok (Dec.quo a b)

/-- A coin set of one amount, which panics for a negative amount. -/
def newCoins (d : Denom) (a : Int) : Except Fault Coins :=
  if a < 0 then .error (.panic .negativeCoin) else .ok (Coins.ofAmount d a)

/-- The decimal coins of a coin list, which panics when the list is no valid coin set. -/
def newDecCoinsFromCoins (cs : Coins) : Except Fault DecCoins :=
  match DecCoins.ofCoins cs with
  | some a => .ok a
  | none => .error (.panic .invalidDecCoins)

/-- The difference of two times as a duration, which saturates at 64 bits. -/
def timeSub (a b : Time) : Duration := max (-2 ^ 63) (min (2 ^ 63 - 1) (a - b))

def update1Height : Nat := 100

def update2Height : Nat := 100

def microCTKDenom : Denom := "uctk"

end Shentu
