import Shentu.Shield.Purchase
import Shentu.Shield.Withdraw

/-!
The shield end blocker: expired purchases stop paying fees and are removed, the
stakes of some of them are processed, the fees of the block are distributed to the
providers, completed withdrawals are released and empty pools are closed.
-/

namespace Shentu

open Lib

variable {σ : Type}

structure PPPTriplet where
  poolID : Nat
  purchaseID : Nat
  purchaser : AccAddress
  deriving DecidableEq

/-- What the loop over the expiring purchases has computed: the cover book without the new
total, the totals that are stored after the loop, the fees earned in this block and the
stakes to be processed. -/
structure ExpiryLoop where
  cover : CoverBook
  totalServiceFees : MixedDecCoins
  totalShield : Int
  serviceFees : MixedDecCoins
  stakeForShieldUpdateList : List PPPTriplet

/-- Take a pool and purchaser pair out of a slice of the purchase queue. -/
def dequeuePurchase (q : TimeQueue PoolPurchaser) (pair : PoolPurchaser) (timestamp : Time) :
    TimeQueue PoolPurchaser :=
  let timeSlice := q.slice timestamp
  if timeSlice.any (fun p => p = pair) then
    if 1 < timeSlice.length then
      q.setSlice timestamp (timeSlice.eraseP (fun p => p = pair))
    else q.removeSlice timestamp
  else q

/-- The end of the fees of an expired purchase: what it earned since the last update is due
in this block, and the purchase no longer counts in the total. -/
def settleFees (stakes : StakeBook) (params : PoolParams) (lastUpdateTime : Time)
    (pair : PoolPurchaser) (loop : ExpiryLoop) (entry : Purchase) :
    Except Fault (ExpiryLoop × Purchase) :=
  if lastUpdateTime < entry.protectionEndTime ∧
      entry.serviceFees.native.isAllPositive = true then do
    let share ← decQuo (Dec.ofInt (timeSub entry.protectionEndTime lastUpdateTime))
      (Dec.ofInt params.protectionPeriod)
    let totalServiceFees ← loop.totalServiceFees.sub entry.serviceFees
    let updates :=
      if stakes.getOriginalStaking entry.purchaseID ≠ 0 then
        loop.stakeForShieldUpdateList ++ [⟨pair.poolID, entry.purchaseID, pair.purchaser⟩]
      else loop.stakeForShieldUpdateList
    return ({ loop with
      serviceFees := loop.serviceFees.add (entry.serviceFees.mulDec share)
      totalServiceFees := totalServiceFees
      stakeForShieldUpdateList := updates }, { entry with serviceFees := MixedDecCoins.empty })
  else .ok (loop, entry)

/-- The removal of a purchase whose deletion time has passed, none if it is removed. -/
def removeDeleted (ctx : Ctx) (pair : PoolPurchaser) (loop : ExpiryLoop) (entry : Purchase) :
    Except Fault (ExpiryLoop × Option Purchase) :=
  if entry.deletionTime < ctx.blockTime then do
    let pool ← orFail (loop.cover.getPool pair.poolID) (.panic .poolNotFound)
    let cover := { loop.cover with
      purchaseQueue := dequeuePurchase loop.cover.purchaseQueue pair entry.protectionEndTime }
    return ({ loop with
      cover := cover.setPool { pool with shield := pool.shield - entry.shield }
      totalShield := loop.totalShield - entry.shield }, none)
  else .ok (loop, some entry)

/-- One purchase in the loop, with what of it stays in its list. -/
def processEntry (stakes : StakeBook) (params : PoolParams) (ctx : Ctx) (lastUpdateTime : Time)
    (pair : PoolPurchaser) (loop : ExpiryLoop) (entry : Purchase) :
    Except Fault (ExpiryLoop × Option Purchase) :=
  if update2Height ≤ ctx.blockHeight ∧ ctx.blockTime < entry.protectionEndTime then
    .ok (loop, some entry)
  else do
    let (loop, entry) ← settleFees stakes params lastUpdateTime pair loop entry
    removeDeleted ctx pair loop entry

/-- The entries of one purchase list, with the entries that stay. -/
def processEntries (stakes : StakeBook) (params : PoolParams) (ctx : Ctx) (lastUpdateTime : Time)
    (pair : PoolPurchaser) : List Purchase → ExpiryLoop → Except Fault (ExpiryLoop × List Purchase)
  | [], loop => .ok (loop, [])
  | entry :: entries, loop => do
    let (loop, kept) ← processEntry stakes params ctx lastUpdateTime pair loop entry
    let (loop, rest) ← processEntries stakes params ctx lastUpdateTime pair entries loop
    return (loop, kept.toList ++ rest)

/-- One pair of the purchase queue. The list is written back after its entries, and deleted if
none is left. -/
def processList (stakes : StakeBook) (params : PoolParams) (ctx : Ctx) (lastUpdateTime : Time)
    (loop : ExpiryLoop) (pair : PoolPurchaser) : Except Fault ExpiryLoop :=
  match loop.cover.getPurchaseList pair.poolID pair.purchaser with
  | none => .ok loop
  | some l => do
    let (loop, entries) ← processEntries stakes params ctx lastUpdateTime pair l.entries loop
    let purchaseLists :=
      if entries = [] then loop.cover.purchaseLists.delete l.key
      else loop.cover.purchaseLists.set { l with entries := entries }
    return { loop with cover := { loop.cover with purchaseLists := purchaseLists } }

/-- Distribute the fees of the block to the providers in proportion to their collateral, with
what remains of the service fees. -/
def distributeFees (bondDenom : Denom) (totalCollateral : Int) (serviceFees : DecCoins) :
    List Provider → CollateralBook → DecCoins → Except Fault (CollateralBook × DecCoins)
  | [], b, remaining => .ok (b, remaining)
  | provider :: providers, b, remaining => do
    failIf (totalCollateral = 0) (.panic .divisionByZero)
    let share := serviceFees.mulDec
      (Dec.quoInt (Dec.ofInt provider.collateral) totalCollateral)
    let nativeFees :=
      if remaining.amountOf bondDenom < share.amountOf bondDenom then remaining else share
    let b := b.setProvider { provider with
      rewards := provider.rewards.add (MixedDecCoins.ofNative nativeFees) }
    let remaining ← orFail (remaining.sub nativeFees) (.panic .negativeDecCoins)
    distributeFees bondDenom totalCollateral serviceFees providers b remaining

/-- The fees that the unexpired purchases earn in this block, limited by what remains. -/
def blockFees (k : Keepers σ) (params : PoolParams) (ctx : Ctx) (lastUpdateTime : Time)
    (loop : ExpiryLoop) (remaining : MixedDecCoins) : Except Fault MixedDecCoins := do
  let running ← (loop.totalServiceFees.mulDec
    (Dec.ofInt (timeSub ctx.blockTime lastUpdateTime))).quoDec (Dec.ofInt params.protectionPeriod)
  let serviceFees := loop.serviceFees.add running
  if remaining.native.amountOf k.bondDenom < serviceFees.native.amountOf k.bondDenom then
    return { serviceFees with native := remaining.native }
  else return serviceFees

/-- The loop over all pairs of the purchase queue that expire by the block time. -/
def expireLoop (ctx : Ctx) (s : ShieldState σ) (lastUpdateTime : Time) : Except Fault ExpiryLoop :=
  (s.cover.purchaseQueue.dueBy ctx.blockTime).foldlM
    (processList s.stakes s.params.pool ctx lastUpdateTime)
    { cover := s.cover, totalServiceFees := s.fees.serviceFees,
      totalShield := s.cover.totalShield, serviceFees := MixedDecCoins.empty,
      stakeForShieldUpdateList := [] }

/-- The state with the totals of the loop stored. -/
def storeExpired (s : ShieldState σ) (loop : ExpiryLoop) : ShieldState σ :=
  { s with
    cover := { loop.cover with totalShield := loop.totalShield }
    fees := { s.fees with serviceFees := loop.totalServiceFees } }

/-- The fees of the block are distributed, and the last update time is set. -/
def distributeBlock (k : Keepers σ) (ctx : Ctx) (lastUpdateTime : Time) (loop : ExpiryLoop)
    (s : ShieldState σ) : Except Fault (ShieldState σ) := do
  let remaining := s.fees.remainingServiceFees
  let serviceFees ← blockFees k s.params.pool ctx lastUpdateTime loop remaining
  let blockServiceFees := s.fees.blockServiceFees
  let serviceFees := serviceFees.add blockServiceFees
  let (collateral, native) ← distributeFees k.bondDenom s.collateral.totalCollateral
    serviceFees.native s.collateral.getAllProviders s.collateral remaining.native
  return { s with
    collateral := collateral
    fees := { s.fees with
      remainingServiceFees := { remaining with native := native.add blockServiceFees.native }
      blockServiceFees := MixedDecCoins.empty
      lastUpdateTime := some ctx.blockTime } }

def removeExpiredPurchasesAndDistributeFees (k : Keepers σ) (ctx : Ctx) (s : ShieldState σ) :
    Except Fault (ShieldState σ) :=
  match s.fees.started with
  | none => .ok s
  | some lastUpdateTime => do
    let loop ← expireLoop ctx s lastUpdateTime
    let s ← loop.stakeForShieldUpdateList.foldlM
      (fun s ppp => processStakeForShieldExpiration k ctx s ppp.poolID ppp.purchaseID ppp.purchaser)
      (storeExpired s loop)
    distributeBlock k ctx lastUpdateTime loop s

/-- Close the pools without shield whose limit is not positive. -/
def closePools (b : CoverBook) : CoverBook :=
  { b with pools := b.pools.rows.foldl (fun pools pool =>
      if pool.shield ≤ 0 ∧ pool.shieldLimit ≤ 0 then pools.delete pool.id else pools) b.pools }

/-- The end blocker of the shield module. -/
def endBlocker (k : Keepers σ) (ctx : Ctx) (s : ShieldState σ) : Except Fault (ShieldState σ) := do
  let s ← removeExpiredPurchasesAndDistributeFees k ctx s
  let collateral ← s.collateral.dequeueCompletedWithdrawQueue ctx
  return { s with collateral := collateral, cover := closePools s.cover }

end Shentu
