import Shentu.Shield.DelayWithdraws

/-!
Unbonding delegations of a provider, their delay, and the securing of one
provider's collateral for a claim. Collateral is secured by delaying the
withdrawals, and the unbondings behind them, that would complete before the end
of the lock.
-/

namespace Shentu

open Lib

variable {σ : Type}

structure UnbondingInfo where
  delegator : AccAddress
  validator : ValAddress
  completionTime : Time

variable (k : Keepers σ)

variable (world : σ)

variable (provider : AccAddress)

def computeTotalUnbondingAmount : Int :=
  ((k.getAllUnbondingDelegations world provider).map
    (fun ubd => (ubd.entries.map (·.balance)).sum)).sum

def getUnbondingsByProviderMaturingByTime (time : Time) : List UnbondingInfo :=
  (k.ubdQueueIterator world time).flatMap (fun slice =>
    (slice.entries.filter (fun dv => dv.delegatorAddress = provider)).map
      (fun dv => ⟨dv.delegatorAddress, dv.validatorAddress, slice.time⟩))

/-- Each validator is counted once, and the entries of one unbonding delegation are read
until the first one that is not mature. -/
def computeUnbondingAmountByTime (time : Time) : Int :=
  let dvPairs := getUnbondingsByProviderMaturingByTime k world provider time
  ((dvPairs.map (·.validator)).eraseDups.map (fun valAddr =>
    match k.getUnbondingDelegation world provider valAddr with
    | none => 0
    | some ubd => ((ubd.entries.takeWhile (fun e => e.completionTime ≤ time)).map (·.balance)).sum
  )).sum

/-- Move an entry back past the entries that complete earlier. -/
def sinkEntry (e : UnbondingDelegationEntry) :
    List UnbondingDelegationEntry → List UnbondingDelegationEntry
  | [] => [e]
  | x :: xs => if x.completionTime < e.completionTime then x :: sinkEntry e xs else e :: x :: xs

/-- Delay the first entry that completes at `time`, and return its balance with the entries. -/
def delayEntry (time delayedTime : Time) :
    List UnbondingDelegationEntry → Option (Int × List UnbondingDelegationEntry)
  | [] => none
  | e :: es =>
    if e.completionTime = time then
      some (e.balance, sinkEntry { e with completionTime := delayedTime } es)
    else (delayEntry time delayedTime es).map (fun (balance, es) => (balance, e :: es))

/-- Take one pair of the provider and the validator out of a slice of the unbonding queue. -/
def unqueueUnbonding (ubd : UnbondingInfo) : σ :=
  let timeSlice := k.getUBDQueueTimeSlice world ubd.completionTime
  if 1 < timeSlice.length then
    k.setUBDQueueTimeSlice world ubd.completionTime
      (timeSlice.reverse.eraseP (fun dv =>
        dv.delegatorAddress = provider && dv.validatorAddress = ubd.validator)).reverse
  else k.removeUBDQueue world ubd.completionTime

def delayUnbondingLoop (k : Keepers σ) (provider : AccAddress) (delayedTime : Time) :
    List UnbondingInfo → Int → σ → Except Fault (Int × σ)
  | [], remaining, world => .ok (remaining, world)
  | ubd :: ubds, remaining, world =>
    if 0 < remaining then do
      let world := unqueueUnbonding k world provider ubd
      let unbondingDels ← orFail (k.getUnbondingDelegation world provider ubd.validator)
        (.panic .unbondingNotFound)
      let (amount, entries) ← orFail
        (delayEntry ubd.completionTime delayedTime unbondingDels.entries)
        (.panic .unbondingEntryNotFound)
      let unbondingDels := { unbondingDels with entries := entries }
      let world := k.insertUBDQueue world unbondingDels delayedTime
      let world := k.setUnbondingDelegation world unbondingDels
      delayUnbondingLoop k provider delayedTime ubds (remaining - amount) world
    else .ok (remaining, world)

def delayUnbonding (amount : Int) (delayedTime : Time) : Except Fault σ := do
  let ubds := getUnbondingsByProviderMaturingByTime k world provider delayedTime
  let (remaining, world) ← delayUnbondingLoop k provider delayedTime ubds.reverse amount world
  failIf (0 < remaining) (.panic .notEnoughUnbondings)
  return world

/-- Bonded delegation and unbondings that are not completed by a time. -/
def availableDelegationByEndTime (provider : Provider) (endTime : Time) : Int :=
  provider.delegationBonded + (computeTotalUnbondingAmount k world provider.address -
    computeUnbondingAmountByTime k world provider.address endTime)

def secureFromProvider (ctx : Ctx) (b : CollateralBook) (world : σ)
    (provider : Provider) (amount : Int) (duration : Duration) :
    Except Fault (CollateralBook × σ) :=
  if amount ≤ provider.collateral - provider.withdrawing ∧ amount ≤ provider.delegationBonded then
    .ok (b, world)
  else do
    let endTime := ctx.blockTime + duration
    let availableCollateral :=
      provider.collateral - b.computeWithdrawAmountByTime provider.address endTime
    let availableDelegation := availableDelegationByEndTime k world provider endTime
    failIf (¬ availableCollateral ≤ availableDelegation) (.panic .notBackedByStaking)
    if availableCollateral < amount then do
      let b ← b.delayWithdraws provider.address (amount - availableCollateral) endTime
      if availableDelegation < amount then do
        let world ← delayUnbonding k world provider.address (amount - availableDelegation) endTime
        return (b, world)
      else return (b, world)
    else return (b, world)

/-- The collateral side of securing: either nothing is delayed because enough collateral
stays without it, or withdrawals are delayed to the end of the lock. -/
lemma secureFromProvider_cases {k : Keepers σ} {ctx : Ctx} {b b' : CollateralBook}
    {world world' : σ} {provider : Provider} {amount : Int} {duration : Duration}
    (h : secureFromProvider k ctx b world provider amount duration = .ok (b', world')) :
    (b' = b ∧ (amount ≤ provider.collateral - provider.withdrawing ∨
        amount ≤ provider.collateral -
          b.computeWithdrawAmountByTime provider.address (ctx.blockTime + duration))) ∨
      b.delayWithdraws provider.address
        (amount - (provider.collateral -
          b.computeWithdrawAmountByTime provider.address (ctx.blockTime + duration)))
        (ctx.blockTime + duration) = .ok b' := by
  unfold secureFromProvider at h
  split at h
  · rename_i hlenient
    cases h
    exact .inl ⟨rfl, .inl hlenient.1⟩
  · simp only [run_eq_ok] at h
    obtain ⟨-, h⟩ := h
    split at h
    · obtain ⟨b1, hdelay, h⟩ := bind_eq_ok.mp h
      split at h
      · obtain ⟨world1, -, h⟩ := bind_eq_ok.mp h
        cases h
        exact .inr hdelay
      · cases h
        exact .inr hdelay
    · rename_i henough
      cases h
      exact .inl ⟨rfl, .inr (not_lt.mp henough)⟩

end Shentu
