import Shentu.Shield.Keepers

/-!
Purchases of shield. A purchase is paid with service fees, or with a stake that is
held until the purchase expires. At the expiry the stake is refunded, and unless
its owner has asked for it back it is used for a new purchase. An error of that
renewal is discarded by its caller and nothing is rolled back, so a purchase
returns the state it has written up to its error.
-/

namespace Shentu

open Lib

variable {σ α : Type}

/-- The state a function has written when it returns, and what it returns. -/
abbrev Written (σ α : Type) := ShieldState σ × Except Fault α

/-- The result for a transaction: the writes count if there is no fault. -/
def Written.commit (r : Written σ α) : Except Fault (ShieldState σ) := r.2.map (fun _ => r.1)

/-- The result for a caller that discards the returned error: the writes count either way. -/
def Written.ignoreError (r : Written σ α) : Except Fault (ShieldState σ) :=
  match r.2 with
  | .error (.panic p) => .error (.panic p)
  | _ => .ok r.1

namespace FeeBook

/-- The last update time, unless it is not set or the zero time. -/
def started (b : FeeBook) : Option Time := b.lastUpdateTime.filter (fun t => t ≠ 0)

/-- Set the last update time if there is none. -/
def start (ctx : Ctx) (b : FeeBook) : FeeBook :=
  if b.started = none then { b with lastUpdateTime := some ctx.blockTime } else b

/-- Add to the service fees and to the remaining service fees. -/
def addServiceFees (b : FeeBook) (fees : DecCoins) : FeeBook :=
  { b with
    serviceFees := b.serviceFees.add (MixedDecCoins.ofNative fees)
    remainingServiceFees := b.remainingServiceFees.add (MixedDecCoins.ofNative fees) }

end FeeBook

namespace StakeBook

variable (b : StakeBook)

def newStaking (poolID : Nat) (purchaser : AccAddress) (stakingAmt : Int) : ShieldStaking :=
  match b.getStakeForShield poolID purchaser with
  | none => ⟨poolID, purchaser, stakingAmt, 0⟩
  | some sFS => { sFS with amount := sFS.amount + stakingAmt }

/-- The records of a new stake. -/
def add (poolID : Nat) (purchaser : AccAddress) (purchaseID : Nat)
    (stakingAmt : Int) : StakeBook where
  globalStakingPool := b.globalStakingPool + stakingAmt
  stakeForShields := b.stakeForShields.set (b.newStaking poolID purchaser stakingAmt)
  originalStakings := b.originalStakings.set ⟨purchaseID, stakingAmt⟩

/-- The records after the stake of a purchase is refunded. -/
def release (staked : ShieldStaking) (purchaseID : Nat) (amount : Int) : StakeBook where
  globalStakingPool := b.globalStakingPool - amount
  stakeForShields :=
    if staked.amount - amount = 0 then b.stakeForShields.delete staked.key
    else b.stakeForShields.set { staked with
      amount := staked.amount - amount
      withdrawRequested := staked.withdrawRequested - min staked.withdrawRequested amount }
  originalStakings := b.originalStakings.delete purchaseID

/-- The records after the owner of a stake has asked for an amount of it. -/
def request (sp : ShieldStaking) (requested : Int) : StakeBook :=
  { b with stakeForShields := b.stakeForShields.set { sp with withdrawRequested := requested } }

end StakeBook

/-- A purchase whose protection starts now; it is deleted once its protection has ended. -/
def Purchase.new (ctx : Ctx) (params : PoolParams) (purchaseID : Nat) (description : String)
    (shield : Int) (fees : DecCoins) : Purchase where
  purchaseID := purchaseID
  protectionEndTime := ctx.blockTime + params.protectionPeriod
  deletionTime := ctx.blockTime + params.protectionPeriod
  description := description
  shield := shield
  serviceFees := MixedDecCoins.ofNative fees

namespace CoverBook

variable (b : CoverBook)

/-- The book with the next purchase ID taken. -/
def takePurchaseID : CoverBook := { b with nextPurchaseID := b.nextPurchaseID + 1 }

/-- The purchase list of a purchaser with one more purchase. -/
def extendedList (poolID : Nat) (purchaser : AccAddress) (purchase : Purchase) : PurchaseList :=
  match b.getPurchaseList poolID purchaser with
  | none => ⟨poolID, purchaser, [purchase]⟩
  | some l => { l with entries := l.entries ++ [purchase] }

def addPurchase (poolID : Nat) (purchaser : AccAddress) (purchase : Purchase) : CoverBook :=
  b.setPurchaseList (b.extendedList poolID purchaser purchase)

def insertExpiringPurchaseQueue (poolID : Nat) (purchaser : AccAddress)
    (endTime : Time) : CoverBook :=
  { b with purchaseQueue := b.purchaseQueue.insert endTime ⟨poolID, purchaser⟩ }

/-- Raise the total and the pool's shield, list the purchase and queue its expiry. -/
def sell (pool : Pool) (purchaser : AccAddress) (purchase : Purchase) : CoverBook :=
  let b := { b with totalShield := b.totalShield + purchase.shield }
  let b := b.setPool { pool with shield := pool.shield + purchase.shield }
  let b := b.addPurchase pool.id purchaser purchase
  b.insertExpiringPurchaseQueue pool.id purchaser purchase.protectionEndTime

end CoverBook

/-- The checks of a purchase, which write nothing. -/
def checkPurchase (k : Keepers σ) (s : ShieldState σ) (poolID : Nat)
    (shield serviceFees stakingCoins : Coins) : Except Fault Pool := do
  let pool ← orFail (s.cover.getPool poolID) (.error .noPoolFound)
  failIf (pool.active = false) (.error .poolInactive)
  failIf (shield = []) (.error .noShield)
  failIf (serviceFees = [] ∧ stakingCoins = []) (.error .noShield)
  let shieldAmt := shield.amountOf k.bondDenom
  let available :=
    s.collateral.totalCollateral - s.collateral.totalWithdrawing - s.cover.totalClaimed
  failIf (available < s.cover.totalShield + shieldAmt) (.error .notEnoughCollateral)
  let maxShield := min pool.shieldLimit
    (Dec.truncateInt (Dec.mul (Dec.ofInt available) s.params.pool.poolShieldLimit))
  failIf (maxShield < shieldAmt + pool.shield) (.error .poolShieldExceedsLimit)
  return pool

def addStaking (k : Keepers σ) (s : ShieldState σ) (poolID : Nat) (purchaser : AccAddress)
    (purchaseID : Nat) (stakingAmt : Int) : Except Fault (ShieldState σ) := do
  let stakingCoins ← newCoins k.bondDenom stakingAmt
  let world ← orFail (k.sendCoinsFromAccountToModule s.world purchaser .shield stakingCoins)
    (.error .external)
  return { s with stakes := s.stakes.add poolID purchaser purchaseID stakingAmt, world := world }

/-- The payment of a purchase: service fees if there are any, and a stake otherwise. -/
def payPurchase (k : Keepers σ) (s : ShieldState σ) (poolID : Nat) (purchaser : AccAddress)
    (purchaseID : Nat) (serviceFees stakingCoins : Coins) : Except Fault (ShieldState σ) :=
  if serviceFees ≠ [] then do
    let world ← orFail (k.sendCoinsFromAccountToModule s.world purchaser .shield serviceFees)
      (.error .external)
    let fees ← newDecCoinsFromCoins serviceFees
    return { s with fees := s.fees.addServiceFees fees, world := world }
  else addStaking k s poolID purchaser purchaseID (stakingCoins.amountOf k.bondDenom)

/-- The writes of a purchase that has passed its checks and has its ID. -/
def recordPurchase (k : Keepers σ) (ctx : Ctx) (s : ShieldState σ) (pool : Pool)
    (purchaseID : Nat) (shield : Coins) (description : String) (purchaser : AccAddress)
    (serviceFees stakingCoins : Coins) : Except Fault (ShieldState σ × Purchase) := do
  let s ← payPurchase k s pool.id purchaser purchaseID serviceFees stakingCoins
  let fees ← newDecCoinsFromCoins serviceFees
  let purchase := Purchase.new ctx s.params.pool purchaseID description
    (shield.amountOf k.bondDenom) fees
  return ({ s with cover := s.cover.sell pool purchaser purchase, fees := s.fees.start ctx },
    purchase)

/-- The state with the next purchase ID taken. -/
def takePurchaseID (s : ShieldState σ) : ShieldState σ :=
  { s with cover := s.cover.takePurchaseID }

/-- The unexported `purchaseShield`, with given service fees and stake. The purchase ID stays
taken when the payment fails. -/
def purchaseShieldWith (k : Keepers σ) (ctx : Ctx) (s : ShieldState σ) (poolID : Nat)
    (shield : Coins) (description : String) (purchaser : AccAddress)
    (serviceFees stakingCoins : Coins) : Written σ Purchase :=
  match checkPurchase k s poolID shield serviceFees stakingCoins with
  | .error f => (s, .error f)
  | .ok pool =>
    match recordPurchase k ctx (takePurchaseID s) pool s.cover.nextPurchaseID shield description
        purchaser serviceFees stakingCoins with
    | .error f => (takePurchaseID s, .error f)
    | .ok (s', purchase) => (s', .ok purchase)

/-- What a purchase of shield costs, as a fee or as a stake. -/
def purchasePrice (k : Keepers σ) (params : ShieldParams) (shield : Coins) (staking : Bool) : Int :=
  let shieldAmt := shield.amountOf k.bondDenom
  if staking then Dec.truncateInt (Dec.mulInt params.shieldStakingRate shieldAmt)
  else Dec.truncateInt (Dec.mul (Dec.ofInt shieldAmt) params.pool.shieldFeesRate)

/-- The exported `PurchaseShield`, at the standard rate. -/
def purchaseShield (k : Keepers σ) (ctx : Ctx) (s : ShieldState σ) (poolID : Nat)
    (shield : Coins) (description : String) (purchaser : AccAddress) (staking : Bool) :
    Written σ Purchase :=
  if Coins.isAnyGT s.params.pool.minShieldPurchase shield then
    (s, .error (.error .purchaseTooSmall))
  else
    match newCoins k.bondDenom (purchasePrice k s.params shield staking) with
    | .error f => (s, .error f)
    | .ok price =>
      if staking then purchaseShieldWith k ctx s poolID shield description purchaser [] price
      else purchaseShieldWith k ctx s poolID shield description purchaser price []

def unstakeFromShield (s : ShieldState σ) (poolID : Nat) (purchaser : AccAddress)
    (amount : Int) : Except Fault (ShieldState σ) := do
  let sp ← orFail (s.stakes.getStakeForShield poolID purchaser) (.error .purchaseNotFound)
  failIf (sp.amount < sp.withdrawRequested + amount) (.error .notEnoughStaked)
  return { s with stakes := s.stakes.request sp (sp.withdrawRequested + amount) }

def fundShieldBlockRewards (k : Keepers σ) (s : ShieldState σ) (amount : Coins)
    (sender : AccAddress) : Except Fault (ShieldState σ) := do
  let world ← orFail (k.sendCoinsFromAccountToModule s.world sender .shield amount)
    (.error .external)
  let rewards ← newDecCoinsFromCoins amount
  return { s with
    fees := { s.fees with
      blockServiceFees := s.fees.blockServiceFees.add (MixedDecCoins.ofNative rewards) }
    world := world }

/-- The purchase that renews a refunded stake of `amount`. -/
def renewStake (k : Keepers σ) (ctx : Ctx) (s : ShieldState σ) (poolID purchaseID : Nat)
    (purchaser : AccAddress) (amount : Int) : Except Fault (ShieldState σ) := do
  let renewShield ← decQuo (Dec.ofInt amount) s.params.shieldStakingRate
  let renewShieldInt := Dec.truncateInt renewShield
  let renewCoins ← newCoins k.bondDenom renewShieldInt
  if renewShieldInt = 0 then return s
  else
    (purchaseShield k ctx s poolID renewCoins
      ("renewed from PurchaseID " ++ toString purchaseID) purchaser true).ignoreError

/-- The refund of the stake of an expired purchase. A failed transfer is not noticed. -/
def refundStake (k : Keepers σ) (s : ShieldState σ) (staked : ShieldStaking) (purchaseID : Nat)
    (purchaser : AccAddress) (amount : Int) : Except Fault (ShieldState σ) := do
  let refundCoins ← newCoins k.bondDenom amount
  return { s with
    stakes := s.stakes.release staked purchaseID amount
    world := (k.sendCoinsFromModuleToAccount s.world .shield purchaser refundCoins).getD s.world }

def processStakeForShieldExpiration (k : Keepers σ) (ctx : Ctx) (s : ShieldState σ)
    (poolID purchaseID : Nat) (purchaser : AccAddress) : Except Fault (ShieldState σ) :=
  match s.stakes.getStakeForShield poolID purchaser with
  | none => .ok s
  | some staked =>
    let amount := s.stakes.getOriginalStaking purchaseID
    if amount = 0 then .ok s
    else do
      let s ← refundStake k s staked purchaseID purchaser amount
      -- A stake that is asked back in full is not renewed, and one that is asked back in
      -- part is renewed in full.
      if max (amount - staked.withdrawRequested) 0 = 0 then return s
      else renewStake k ctx s poolID purchaseID purchaser amount

variable {s s' : ShieldState σ} {k : Keepers σ} {poolID : Nat} {serviceFees stakingCoins : Coins}
  {purchaser : AccAddress}

lemma Written.commit_eq_ok {r : Written σ α} : r.commit = .ok s ↔ r.1 = s ∧ ∃ a, r.2 = .ok a := by
  obtain ⟨s0, r0⟩ := r
  cases r0 <;> simp [Written.commit, Except.map]

lemma Written.ignoreError_eq_ok {r : Written σ α} (h : r.ignoreError = .ok s) : r.1 = s := by
  unfold Written.ignoreError at h
  split at h
  · cases h
  · cases h
    rfl

lemma newCoins_eq_ok {d : Denom} {a : Int} {cs : Coins} :
    newCoins d a = .ok cs ↔ 0 ≤ a ∧ Coins.ofAmount d a = cs := by
  unfold newCoins
  split
  · simp only [reduceCtorEq, false_iff]
    omega
  · rename_i hnonneg
    simp [not_lt.mp hnonneg]

lemma newDecCoinsFromCoins_eq_ok {cs : Coins} {a : DecCoins} :
    newDecCoinsFromCoins cs = .ok a ↔ DecCoins.ofCoins cs = some a := by
  unfold newDecCoinsFromCoins
  cases DecCoins.ofCoins cs <;> simp

variable {shield : Coins}

lemma checkPurchase_cases {pool : Pool}
    (h : checkPurchase k s poolID shield serviceFees stakingCoins = .ok pool) :
    s.cover.getPool poolID = some pool ∧ (serviceFees = [] → stakingCoins ≠ []) ∧
      s.cover.totalShield + shield.amountOf k.bondDenom ≤
        s.collateral.totalCollateral - s.collateral.totalWithdrawing - s.cover.totalClaimed := by
  simp only [checkPurchase, run_eq_ok] at h
  obtain ⟨p, hp, -, -, hpaid, hcovered, -, rfl⟩ := h
  exact ⟨hp, fun hfees hstake => hpaid ⟨hfees, hstake⟩, not_lt.mp hcovered⟩

variable {purchaseID : Nat}

lemma addStaking_cases {stakingAmt : Int}
    (h : addStaking k s poolID purchaser purchaseID stakingAmt = .ok s') :
    ∃ world, 0 ≤ stakingAmt ∧
      k.sendCoinsFromAccountToModule s.world purchaser .shield
        (Coins.ofAmount k.bondDenom stakingAmt) = some world ∧
      s' = { s with
        stakes := s.stakes.add poolID purchaser purchaseID stakingAmt, world := world } := by
  simp only [addStaking, run_eq_ok, newCoins_eq_ok] at h
  obtain ⟨coins, ⟨hnonneg, rfl⟩, world, hsend, rfl⟩ := h
  exact ⟨world, hnonneg, hsend, rfl⟩

lemma payPurchase_cases
    (h : payPurchase k s poolID purchaser purchaseID serviceFees stakingCoins = .ok s') :
    (serviceFees ≠ [] ∧ ∃ world fees,
      k.sendCoinsFromAccountToModule s.world purchaser .shield serviceFees = some world ∧
      DecCoins.ofCoins serviceFees = some fees ∧
      s' = { s with fees := s.fees.addServiceFees fees, world := world }) ∨
    (serviceFees = [] ∧ addStaking k s poolID purchaser purchaseID
      (stakingCoins.amountOf k.bondDenom) = .ok s') := by
  unfold payPurchase at h
  split at h
  · rename_i hne
    simp only [run_eq_ok, newDecCoinsFromCoins_eq_ok] at h
    obtain ⟨world, hsend, fees, hfees, rfl⟩ := h
    exact .inl ⟨hne, world, fees, hsend, hfees, rfl⟩
  · rename_i hempty
    exact .inr ⟨not_not.mp hempty, h⟩

/-- A purchase fails without writes or with its ID taken, or it is paid and recorded. -/
lemma purchaseShieldWith_cases {ctx : Ctx} {description : String} {r : Except Fault Purchase}
    (h : purchaseShieldWith k ctx s poolID shield description purchaser serviceFees stakingCoins =
      (s', r)) :
    ((∃ f, r = .error f) ∧ (s' = s ∨ s' = takePurchaseID s)) ∨
    ∃ pool s1 fees,
      checkPurchase k s poolID shield serviceFees stakingCoins = .ok pool ∧
      payPurchase k (takePurchaseID s) pool.id purchaser s.cover.nextPurchaseID serviceFees
        stakingCoins = .ok s1 ∧
      DecCoins.ofCoins serviceFees = some fees ∧
      r = .ok (Purchase.new ctx s1.params.pool s.cover.nextPurchaseID description
        (shield.amountOf k.bondDenom) fees) ∧
      s' = { s1 with
        cover := s1.cover.sell pool purchaser (Purchase.new ctx s1.params.pool
          s.cover.nextPurchaseID description (shield.amountOf k.bondDenom) fees)
        fees := s1.fees.start ctx } := by
  unfold purchaseShieldWith at h
  split at h
  · cases h
    exact .inl ⟨⟨_, rfl⟩, .inl rfl⟩
  · rename_i pool hcheck
    split at h
    · cases h
      exact .inl ⟨⟨_, rfl⟩, .inr rfl⟩
    · rename_i s2 purchase hrecord
      cases h
      simp only [recordPurchase, run_eq_ok, newDecCoinsFromCoins_eq_ok] at hrecord
      obtain ⟨s1, hpay, fees, hfees, heq⟩ := hrecord
      cases heq
      exact .inr ⟨pool, s1, fees, hcheck, hpay, hfees, rfl, rfl⟩

/-- A staking purchase takes at most its ID, or its price is staked and it is recorded. -/
lemma purchaseShield_staked {ctx : Ctx} {description : String} {r : Except Fault Purchase}
    (h : purchaseShield k ctx s poolID shield description purchaser true = (s', r)) :
    s' = s ∨ s' = takePurchaseID s ∨
    ∃ pool world e, pool.id = poolID ∧ 0 < purchasePrice k s.params shield true ∧
      k.sendCoinsFromAccountToModule s.world purchaser .shield
        (Coins.ofAmount k.bondDenom (purchasePrice k s.params shield true)) = some world ∧
      s' = { s with
        cover := s.cover.takePurchaseID.sell pool purchaser e
        fees := s.fees.start ctx
        stakes := s.stakes.add poolID purchaser s.cover.nextPurchaseID
          (purchasePrice k s.params shield true)
        world := world } := by
  unfold purchaseShield at h
  split at h
  · cases h
    exact .inl rfl
  · split at h
    · cases h
      exact .inl rfl
    · rename_i price hprice
      obtain ⟨hnonneg, rfl⟩ := newCoins_eq_ok.mp hprice
      rw [if_pos rfl] at h
      rcases purchaseShieldWith_cases h with
        ⟨-, rfl | rfl⟩ | ⟨pool, s1, fees, hcheck, hpay, -, -, rfl⟩
      · exact .inl rfl
      · exact .inr (.inl rfl)
      · obtain ⟨hpool, hpaid, -⟩ := checkPurchase_cases hcheck
        obtain rfl : pool.id = poolID := Table.key_of_get hpool
        rcases payPurchase_cases hpay with ⟨hne, -⟩ | ⟨-, hadd⟩
        · exact absurd rfl hne
        · obtain ⟨world, hstake, hsend, rfl⟩ := addStaking_cases hadd
          rw [Coins.amountOf_ofAmount_self] at hstake hsend ⊢
          refine .inr (.inr ⟨pool, world, _, rfl, lt_of_le_of_ne hstake ?_, hsend, rfl⟩)
          -- A stake of zero has no coins, and a purchase needs some.
          intro hzero
          exact hpaid rfl (by rw [← hzero]; rfl)

/-- The state after the refund of a stake. -/
def ShieldState.refunded (k : Keepers σ) (s : ShieldState σ) (staked : ShieldStaking)
    (purchaseID : Nat) (purchaser : AccAddress) : ShieldState σ :=
  let amount := s.stakes.getOriginalStaking purchaseID
  { s with
    stakes := s.stakes.release staked purchaseID amount
    world := (k.sendCoinsFromModuleToAccount s.world .shield purchaser
      (Coins.ofAmount k.bondDenom amount)).getD s.world }

/-- The shield that a renewed stake buys. -/
def renewedShield (params : ShieldParams) (amount : Int) : Int :=
  Dec.truncateInt (Dec.quo (Dec.ofInt amount) params.shieldStakingRate)

/-- A stake stays, or it is refunded, and then it may be renewed by a purchase. -/
lemma processStakeForShieldExpiration_cases {ctx : Ctx}
    (h : processStakeForShieldExpiration k ctx s poolID purchaseID purchaser = .ok s') :
    (s' = s ∧ (s.stakes.getStakeForShield poolID purchaser = none ∨
      s.stakes.getOriginalStaking purchaseID = 0)) ∨
    ∃ staked, s.stakes.getStakeForShield poolID purchaser = some staked ∧
      0 < s.stakes.getOriginalStaking purchaseID ∧
      (s' = s.refunded k staked purchaseID purchaser ∨
        staked.withdrawRequested < s.stakes.getOriginalStaking purchaseID ∧
        ∃ description, s' = (purchaseShield k ctx (s.refunded k staked purchaseID purchaser) poolID
          (Coins.ofAmount k.bondDenom
            (renewedShield s.params (s.stakes.getOriginalStaking purchaseID)))
          description purchaser true).1) := by
  unfold processStakeForShieldExpiration at h
  split at h
  · rename_i hnone
    cases h
    exact .inl ⟨rfl, .inl hnone⟩
  · rename_i staked hstaked
    dsimp only at h
    split at h
    · rename_i hzero
      cases h
      exact .inl ⟨rfl, .inr hzero⟩
    · rename_i hamount
      simp only [refundStake, run_eq_ok, newCoins_eq_ok] at h
      obtain ⟨s1, ⟨coins, ⟨hnonneg, rfl⟩, rfl⟩, h⟩ := h
      refine .inr ⟨staked, hstaked, lt_of_le_of_ne hnonneg (Ne.symm hamount), ?_⟩
      split at h
      · cases h
        exact .inl rfl
      · simp only [renewStake, decQuo, bind_eq_ok, newCoins_eq_ok] at h
        obtain ⟨shield, hshield, coins, ⟨-, rfl⟩, h⟩ := h
        split at hshield
        · cases hshield
        · cases hshield
          split at h
          · cases h
            exact .inl rfl
          · exact .inr ⟨by omega, _, (Written.ignoreError_eq_ok h).symm⟩

end Shentu
