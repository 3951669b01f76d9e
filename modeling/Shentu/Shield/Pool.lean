import Shentu.Shield.Purchase
import Shentu.Shield.Withdraw

/-!
Pools, which the admin creates and updates, and what is paid out of the module
account: the rewards of providers and the reimbursements of claims.
-/

namespace Shentu

open Lib

variable {σ : Type}

/-- The first pool of a sponsor. A pool with ID zero is taken for none. -/
def getPoolBySponsor (b : CoverBook) (sponsor : String) : Option Pool :=
  (b.pools.rows.find? (fun p => p.sponsor = sponsor)).filter (fun p => p.id ≠ 0)

/-- Store a new pool without shield under the next pool ID. -/
def CoverBook.addPool (b : CoverBook) (description sponsor : String) (sponsorAddr : AccAddress)
    (shieldLimit : Int) : CoverBook :=
  { b.setPool ⟨b.nextPoolID, description, sponsor, sponsorAddr, shieldLimit, true, 0⟩ with
    nextPoolID := b.nextPoolID + 1 }

variable (k : Keepers σ)

def createPool (ctx : Ctx) (s : ShieldState σ) (creator : AccAddress)
    (shield : Coins) (serviceFees : MixedCoins) (sponsor : String) (sponsorAddr : AccAddress)
    (description : String) (shieldLimit : Int) : Except Fault (ShieldState σ) := do
  failIf (creator ≠ s.params.admin) (.error .notShieldAdmin)
  failIf ((getPoolBySponsor s.cover sponsor).isSome = true) (.error .sponsorAlreadyExists)
  let poolID := s.cover.nextPoolID
  let s := { s with cover := s.cover.addPool description sponsor sponsorAddr shieldLimit }
  (purchaseShieldWith k ctx s poolID shield "shield for sponsor" creator serviceFees.native
    []).commit

variable (s : ShieldState σ)

/-- Service fees that are added without a purchase. No coins are moved. -/
def addFeesWithoutPurchase (serviceFees : Coins) : Except Fault (ShieldState σ) :=
  if Coins.isZero serviceFees = false then do
    let fees ← newDecCoinsFromCoins serviceFees
    return { s with fees := s.fees.addServiceFees fees }
  else .ok s

def updatePool (ctx : Ctx) (s : ShieldState σ) (poolID : Nat)
    (description : String) (updater : AccAddress) (shield : Coins) (serviceFees : MixedCoins)
    (shieldLimit : Int) : Except Fault (ShieldState σ) := do
  failIf (updater ≠ s.params.admin) (.error .notShieldAdmin)
  let pool ← orFail (s.cover.getPool poolID) (.error .noPoolFound)
  let s := { s with cover := s.cover.setPool { pool with
    description := if description ≠ "" then description else pool.description
    shieldLimit := if shieldLimit ≠ 0 then shieldLimit else pool.shieldLimit } }
  if Coins.isZero shield = false then
    (purchaseShieldWith k ctx s poolID shield "shield for sponsor" updater serviceFees.native
      []).commit
  else addFeesWithoutPurchase s serviceFees.native

variable (updater : AccAddress)

/-- `PausePool` and `ResumePool`, for the state of the pool that is wanted. -/
def setPoolActive (id : Nat) (active : Bool) (already : Err) : Except Fault (ShieldState σ) := do
  failIf (updater ≠ s.params.admin) (.error .notShieldAdmin)
  let pool ← orFail (s.cover.getPool id) (.error .noPoolFound)
  failIf (pool.active = active) (.error already)
  return { s with cover := s.cover.setPool { pool with active := active } }

def pausePool (id : Nat) : Except Fault (ShieldState σ) :=
  setPoolActive s updater id false .poolAlreadyPaused

def resumePool (id : Nat) : Except Fault (ShieldState σ) :=
  setPoolActive s updater id true .poolAlreadyActive

def updateSponsor (poolID : Nat) (newSponsor : String)
    (newSponsorAddr updater : AccAddress) : Except Fault (ShieldState σ) := do
  failIf (updater ≠ s.params.admin) (.error .notShieldAdmin)
  let pool ← orFail (s.cover.getPool poolID) (.error .noPoolFound)
  let pool := { pool with sponsor := newSponsor, sponsorAddress := newSponsorAddr }
  return { s with cover := s.cover.setPool pool }

def getRewards (b : CollateralBook) (addr : AccAddress) : MixedDecCoins :=
  match b.getProvider addr with
  | some provider => provider.rewards
  | none => MixedDecCoins.empty

def setRewards (b : CollateralBook) (addr : AccAddress) (earnings : MixedDecCoins) :
    CollateralBook :=
  b.setProvider { (b.getProvider addr).getD (Provider.new addr) with rewards := earnings }

/-- Pay the whole part of a provider's rewards; the change goes back to the service fees. -/
def payoutNativeRewards (s : ShieldState σ) (addr : AccAddress) : Except Fault (ShieldState σ) :=
  let rewards := getRewards s.collateral addr
  let (ctkRewards, change) := rewards.native.truncateDecimal
  if Coins.isZero ctkRewards = true then .ok s
  else do
    let remaining := s.fees.remainingServiceFees
    let world ← orFail (k.sendCoinsFromModuleToAccount s.world .shield addr ctkRewards)
      (.error .external)
    return { s with
      collateral := setRewards s.collateral addr { rewards with native := DecCoins.empty }
      fees := { s.fees with
        remainingServiceFees := { remaining with native := remaining.native.add change } }
      world := world }

def withdrawReimbursement (ctx : Ctx) (s : ShieldState σ) (proposalID : Nat)
    (beneficiary : AccAddress) : Except Fault (ShieldState σ) := do
  let pair ← orFail (s.reimbursements.get proposalID) (.error .reimbursementNotFound)
  let reimbursement := pair.reimbursement
  failIf (reimbursement.beneficiary ≠ beneficiary) (.error .invalidBeneficiary)
  failIf (ctx.blockTime < reimbursement.payoutTime) (.error .notPayoutTime)
  let world ← orFail
    (k.sendCoinsFromModuleToAccount s.world .shield beneficiary reimbursement.amount)
    (.error .notPayoutTime)
  return { s with reimbursements := s.reimbursements.delete proposalID, world := world }

end Shentu
