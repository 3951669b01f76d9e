import Shentu.Shield.CollateralPayout

/-!
The payout of a claim. The loss is split over the providers in proportion to
their collateral; each provider's part is taken from its delegations and
unbonding delegations and sent to the shield module account, and a reimbursement
is stored for the beneficiary. Undelegating calls the staking hooks, so a payout
can force withdrawals of the provider it is taken from.
-/

namespace Shentu

open Lib CollateralBook

variable {σ : Type}

/-- A returned error that the caller does not expect is a panic. -/
def orPanic {α : Type} : Except Fault α → Except Fault α
  | .error (.error e) => .error (.panic (.ofError e))
  | r => r

@[simp] lemma orPanic_eq_ok {α : Type} {r : Except Fault α} {a : α} :
    orPanic r = .ok a ↔ r = .ok a := by
  cases r with
  | ok b => rfl
  | error f => cases f <;> simp [orPanic]

def undelegateFromAccountToShieldModule (k : Keepers σ) (world : σ) (senderModule : ModuleName)
    (delAddr : AccAddress) (amt : Coins) : Except Fault σ := do
  let world ← orFail (k.trackUndelegation world delAddr amt) (.error .external)
  orFail (k.sendCoinsFromModuleToModule world senderModule .shield amt)
    (.panic (.ofError .external))

/-- A self-delegation that falls below the validator's minimum jails the validator. -/
def jailBelowMinSelfDelegation (k : Keepers σ) (world : σ) (valAddr : ValAddress)
    (validator : Validator) (delegation : Delegation) : Except Fault (σ × Validator) :=
  if delegation.delegatorAddress = validator.operatorAddress ∧ validator.jailed = false then do
    let tokens ← validator.tokensFromShares delegation.shares
    if Dec.truncateInt tokens < validator.minSelfDelegation then do
      let validator := { validator with jailed := true }
      let world := k.setValidator world validator
      let world := k.deleteValidatorByPowerIndex world validator
      let validator ← orFail (k.getValidator world valAddr) (.panic .validatorNotFound)
      return (world, validator)
    else return (world, validator)
  else .ok (world, validator)

/-- Store a delegation whose shares have changed, or remove it when none are left. The hook of
the shield module runs before a removal and after an update. -/
def updateDelegationRecord (k : Keepers σ) (params : PoolParams) (ctx : Ctx) (b : CollateralBook)
    (world : σ) (delegation : Delegation) : Except Fault (CollateralBook × σ) :=
  let delAddr := delegation.delegatorAddress
  let valAddr := delegation.validatorAddress
  if delegation.shares = 0 then do
    let world := k.beforeDelegationRemoved world delAddr valAddr
    let b ← b.removeDelegation k params ctx world delAddr valAddr
    return (b, k.removeDelegation world delegation)
  else do
    let world := k.setDelegation world delegation
    let world := k.afterDelegationModified world delAddr valAddr
    let b ← b.updateDelegationAmount k params ctx world delAddr
    return (b, world)

def undelegateShares (k : Keepers σ) (params : PoolParams) (ctx : Ctx) (b : CollateralBook)
    (world : σ) (delAddr : AccAddress) (valAddr : ValAddress) (shares : Int) :
    Except Fault (CollateralBook × σ) := do
  let delegation ← orFail (k.getDelegation world delAddr valAddr) (.panic .delegationNotFound)
  let world := k.beforeDelegationSharesModified world delAddr valAddr
  let validator ← orFail (k.getValidator world valAddr) (.panic .validatorNotFound)
  let delegation := { delegation with shares := delegation.shares - shares }
  let (world, validator) ← jailBelowMinSelfDelegation k world valAddr validator delegation
  let (b, world) ← updateDelegationRecord k params ctx b world delegation
  let (world, validator, amount) := k.removeValidatorTokensAndShares world validator shares
  let world :=
    if validator.delegatorShares = 0 ∧ validator.status = .unbonded then
      k.removeValidator world validator.operatorAddress
    else world
  let coins ← newCoins k.bondDenom amount
  let srcPool := if validator.status = .bonded then ModuleName.bondedPool else .notBondedPool
  let world ← orPanic (undelegateFromAccountToShieldModule k world srcPool delAddr coins)
  return (b, world)

/-- The loop of `payFromDelegation`; the last delegation pays all that remains. -/
def payFromDelegationLoop (k : Keepers σ) (params : PoolParams) (ctx : Ctx) (payoutRatio : Int) :
    List Delegation → Int → CollateralBook → σ → Except Fault (CollateralBook × σ)
  | [], _, b, world => .ok (b, world)
  | del :: dels, remaining, b, world =>
    if 0 < remaining then do
      let val ← orFail (k.getValidator world del.validatorAddress) (.panic .validatorNotFound)
      let tokens ← val.tokensFromShares del.shares
      let delAmount := Dec.truncateInt tokens
      let share := min (Dec.truncateInt (Dec.mulInt payoutRatio delAmount)) remaining
      let ubdAmount :=
        if dels.isEmpty then remaining
        else if share < remaining ∧ share < delAmount then share + 1
        else share
      let ubdShares ← orPanic (val.sharesFromTokens ubdAmount)
      let (b, world) ← undelegateShares k params ctx b world del.delegatorAddress
        del.validatorAddress ubdShares
      payFromDelegationLoop k params ctx payoutRatio dels (remaining - ubdAmount) b world
    else .ok (b, world)

def payFromDelegation (k : Keepers σ) (params : PoolParams) (ctx : Ctx) (b : CollateralBook)
    (world : σ) (delAddr : AccAddress) (payout : Int) : Except Fault (CollateralBook × σ) := do
  let provider ← orFail (b.getProvider delAddr) (.panic (.ofError .providerNotFound))
  let payoutRatio ← decQuo (Dec.ofInt payout) (Dec.ofInt provider.delegationBonded)
  payFromDelegationLoop k params ctx payoutRatio (k.getAllDelegatorDelegations world delAddr)
    payout b world

/-- One entry of an unbonding delegation. -/
structure UnbondingPart where
  delegatorAddress : AccAddress
  validatorAddress : ValAddress
  entry : UnbondingDelegationEntry

/-- The unbonding entries of an address, latest completion first. -/
def getSortedUnbondingDelegations (k : Keepers σ) (world : σ) (delAddr : AccAddress) :
    List UnbondingPart :=
  let parts := (k.getAllUnbondingDelegations world delAddr).flatMap (fun ubd =>
    ubd.entries.map (fun e => ⟨ubd.delegatorAddress, ubd.validatorAddress, e⟩))
  parts.insertionSort (fun x y => y.entry.completionTime ≤ x.entry.completionTime)

/-- Pay from one unbonding entry: an entry that is paid out entirely leaves the unbonding
delegation and its slice of the unbonding queue. -/
def reduceUnbonding (k : Keepers σ) (world : σ) (unbonding : UnbondingDelegation)
    (ubd : UnbondingPart) (payout : Int) : σ :=
  let same := fun e : UnbondingDelegationEntry =>
    decide (e.balance = ubd.entry.balance) && decide (e.completionTime = ubd.entry.completionTime)
  if unbonding.entries.any same then
    if ubd.entry.balance = payout then
      let timeSlice := k.getUBDQueueTimeSlice world ubd.entry.completionTime
      let pair := fun dv : DVPair => decide (dv.delegatorAddress = ubd.delegatorAddress) &&
        decide (dv.validatorAddress = ubd.validatorAddress)
      let world :=
        if 1 < timeSlice.length then
          if timeSlice.any pair then
            k.setUBDQueueTimeSlice world ubd.entry.completionTime (timeSlice.eraseP pair)
          else world
        else k.removeUBDQueue world ubd.entry.completionTime
      let entries := unbonding.entries.eraseP same
      if entries.isEmpty then
        k.removeUnbondingDelegation world { unbonding with entries := entries }
      else k.setUnbondingDelegation world { unbonding with entries := entries }
    else
      k.setUnbondingDelegation world { unbonding with
        entries := updateFirst same (fun e => { e with balance := e.balance - payout })
          unbonding.entries }
  else world

def payFromUnbondings (k : Keepers σ) (world : σ) (ubd : UnbondingPart) (payout : Int) :
    Except Fault σ := do
  let unbonding ← orFail
    (k.getUnbondingDelegation world ubd.delegatorAddress ubd.validatorAddress)
    (.panic .unbondingNotFound)
  let world := reduceUnbonding k world unbonding ubd payout
  let payoutCoins ← newCoins k.bondDenom payout
  orPanic (undelegateFromAccountToShieldModule k world .notBondedPool ubd.delegatorAddress
    payoutCoins)

def payFromUnbondingsLoop (k : Keepers σ) :
    List UnbondingPart → Int → Int → σ → Except Fault (Int × σ)
  | [], _, payout, world => .ok (payout, world)
  | ubd :: ubds, uncoveredPurchase, payout, world =>
    if 0 < payout then
      let remainingUbd := max (ubd.entry.balance - uncoveredPurchase) 0
      let uncoveredPurchase := max (uncoveredPurchase - ubd.entry.balance) 0
      if remainingUbd = 0 then payFromUnbondingsLoop k ubds uncoveredPurchase payout world
      else do
        let payoutFromThisUbd := min payout remainingUbd
        let world ← payFromUnbondings k world ubd payoutFromThisUbd
        payFromUnbondingsLoop k ubds uncoveredPurchase (payout - payoutFromThisUbd) world
    else .ok (payout, world)

/-- The part of a payout that comes from unbonding delegations, which has to be made exactly. -/
def makePayoutFromUnbondings (k : Keepers σ) (world : σ) (addr : AccAddress)
    (uncoveredPurchase payout : Int) : Except Fault σ :=
  if payout = 0 then .ok world
  else do
    let ubds := getSortedUnbondingDelegations k world addr
    let (unpaid, world) ← payFromUnbondingsLoop k ubds uncoveredPurchase payout world
    failIf (unpaid ≠ 0) (.panic .inexactUnbondingPayout)
    return world

/-- The part of a payout that comes from delegations. -/
def makePayoutFromDelegations (k : Keepers σ) (params : PoolParams) (ctx : Ctx)
    (b : CollateralBook) (world : σ) (addr : AccAddress) (payout : Int) :
    Except Fault (CollateralBook × σ) :=
  if 0 < payout then payFromDelegation k params ctx b world addr payout else .ok (b, world)

def makePayoutByProviderDelegations (k : Keepers σ) (params : PoolParams) (ctx : Ctx)
    (b : CollateralBook) (world : σ) (providerAddr : AccAddress) (purchased payout : Int) :
    Except Fault (CollateralBook × σ) := do
  let provider ← orFail (b.getProvider providerAddr) (.error .providerNotFound)
  let (payoutFromDelegation, uncoveredPurchase) :=
    CollateralBook.splitPayout provider.delegationBonded purchased payout
  let payoutFromUnbonding := payout - payoutFromDelegation
  let (b, world) ← makePayoutFromDelegations k params ctx b world provider.address
    payoutFromDelegation
  let world ← makePayoutFromUnbondings k world provider.address uncoveredPurchase
    payoutFromUnbonding
  return (b, world)

/-- The purchased amount a provider keeps backing and the part of the payout it makes, from
its collateral and what is left to be backed and paid. -/
def reimbursementShare (purchaseRatio payoutRatio collateral totalPurchased totalPayout : Int) :
    Int × Int :=
  let purchased := min (Dec.truncateInt (Dec.mul (Dec.ofInt collateral) purchaseRatio))
    totalPurchased
  let payout := min (Dec.truncateInt (Dec.mul (Dec.ofInt collateral) payoutRatio)) totalPayout
  let purchased :=
    if purchased < totalPurchased ∧ payout + purchased < collateral then purchased + 1
    else purchased
  let payout :=
    if payout < totalPayout ∧ payout + purchased < collateral then payout + 1 else payout
  (purchased, payout)

/-- The loop over the providers of `createReimbursement`; it returns what is left to be paid. -/
def payProviders (k : Keepers σ) (params : PoolParams) (ctx : Ctx)
    (purchaseRatio payoutRatio : Int) :
    List Provider → Int → Int → CollateralBook → σ → Except Fault (Int × CollateralBook × σ)
  | [], _, totalPayout, b, world => .ok (totalPayout, b, world)
  | provider :: providers, totalPurchased, totalPayout, b, world =>
    if 0 < totalPayout then do
      let (purchased, payout) := reimbursementShare purchaseRatio payoutRatio
        provider.collateral totalPurchased totalPayout
      let b ← orPanic (b.updateProviderCollateralForPayout provider.address purchased payout)
      let (b, world) ← orPanic (makePayoutByProviderDelegations k params ctx b world
        provider.address purchased payout)
      payProviders k params ctx purchaseRatio payoutRatio providers
        (totalPurchased - purchased) (totalPayout - payout) b world
    else .ok (totalPayout, b, world)

def createReimbursement (k : Keepers σ) (ctx : Ctx) (s : ShieldState σ) (proposalID : Nat)
    (amount : Coins) (beneficiary : AccAddress) : Except Fault (ShieldState σ) := do
  let totalCollateral := s.collateral.totalCollateral
  let totalPayout := amount.amountOf k.bondDenom
  let purchaseRatio ← decQuo (Dec.ofInt s.cover.totalShield) (Dec.ofInt totalCollateral)
  let payoutRatio ← decQuo (Dec.ofInt totalPayout) (Dec.ofInt totalCollateral)
  let (unpaid, collateral, world) ← payProviders k s.params.pool ctx purchaseRatio payoutRatio
    s.collateral.getAllProviders s.cover.totalShield totalPayout s.collateral s.world
  failIf (0 < unpaid) (.panic .notEnoughPayout)
  let reimbursement : Reimbursement :=
    ⟨amount, beneficiary, ctx.blockTime + s.params.claimProposal.payoutPeriod⟩
  return { s with
    collateral := { collateral with totalCollateral := totalCollateral - totalPayout }
    cover := { s.cover with totalClaimed := s.cover.totalClaimed - totalPayout }
    reimbursements := s.reimbursements.set ⟨proposalID, reimbursement⟩
    world := world }

variable {k : Keepers σ} {ctx : Ctx} {params : PoolParams} {payoutRatio : Int}
  {b b' : CollateralBook} {world world' : σ}

lemma createReimbursement_cases {s s' : ShieldState σ}
    {proposalID : Nat} {amount : Coins} {beneficiary : AccAddress}
    (h : createReimbursement k ctx s proposalID amount beneficiary = .ok s') :
    ∃ b world, s' = { s with
      collateral := b
      cover := { s.cover with
        totalClaimed := s.cover.totalClaimed - amount.amountOf k.bondDenom }
      reimbursements := s.reimbursements.set ⟨proposalID, ⟨amount, beneficiary,
        ctx.blockTime + s.params.claimProposal.payoutPeriod⟩⟩
      world := world } := by
  simp only [createReimbursement, run_eq_ok] at h
  obtain ⟨_, -, _, -, _, -, -, rfl⟩ := h
  exact ⟨_, _, rfl⟩

lemma orPanic_ne_error {α : Type} (r : Except Fault α) (e : Err) :
    orPanic r ≠ .error (.error e) := by
  intro h
  cases r with
  | ok a => cases h
  | error f => cases f <;> cases h

private lemma decQuo_ne_error (a b : Int) (e : Err) : decQuo a b ≠ .error (.error e) := by
  unfold decQuo
  split <;> simp

lemma payProviders_ne_error {purchaseRatio : Int} (e : Err) (providers : List Provider)
    (totalPurchased totalPayout : Int) (b : CollateralBook) (world : σ) :
    payProviders k params ctx purchaseRatio payoutRatio providers totalPurchased totalPayout b
      world ≠ .error (.error e) := by
  induction providers generalizing totalPurchased totalPayout b world with
  | nil => simp [payProviders]
  | cons provider providers ih =>
    unfold payProviders
    split
    · intro h
      rcases bind_eq_error.mp h with h | ⟨b1, -, h⟩
      · exact orPanic_ne_error _ e h
      · rcases bind_eq_error.mp h with h | ⟨⟨b2, world2⟩, -, h⟩
        · exact orPanic_ne_error _ e h
        · exact ih _ _ _ _ h
    · simp

lemma createReimbursement_ne_error {s : ShieldState σ}
    {proposalID : Nat} {amount : Coins} {beneficiary : AccAddress} (e : Err) :
    createReimbursement k ctx s proposalID amount beneficiary ≠ .error (.error e) := by
  intro h
  rcases bind_eq_error.mp h with h | ⟨purchaseRatio, -, h⟩
  · exact decQuo_ne_error _ _ e h
  · rcases bind_eq_error.mp h with h | ⟨payoutRatio, -, h⟩
    · exact decQuo_ne_error _ _ e h
    · rcases bind_eq_error.mp h with h | ⟨⟨unpaid, collateral, world⟩, -, h⟩
      · exact payProviders_ne_error e _ _ _ _ _ h
      · rcases bind_eq_error.mp h with h | ⟨-, -, h⟩
        · unfold failIf at h
          split at h <;> cases h
        · cases h

/-- One staking hook: the delegations of some address change and the book follows. -/
def DelegationChange (params : PoolParams) (ctx : Ctx) (b b' : CollateralBook) : Prop :=
  ∃ delAddr stakedAmt,
    b.updateProviderForDelegationChanges params ctx delAddr stakedAmt = .ok b'

/-- Any number of staking hooks in one block. -/
def DelegationChanges (params : PoolParams) (ctx : Ctx) : CollateralBook → CollateralBook → Prop :=
  Relation.ReflTransGen (DelegationChange params ctx)

lemma updateDelegationRecord_change {delegation : Delegation}
    (h : updateDelegationRecord k params ctx b world delegation = .ok (b', world')) :
    DelegationChange params ctx b b' := by
  unfold updateDelegationRecord at h
  split at h
  · simp only [run_eq_ok] at h
    obtain ⟨b1, hremove, heq⟩ := h
    cases heq
    exact ⟨_, removeDelegation_cases hremove⟩
  · simp only [run_eq_ok] at h
    obtain ⟨b1, hupdate, heq⟩ := h
    cases heq
    exact ⟨_, updateDelegationAmount_cases hupdate⟩

lemma undelegateShares_change {delAddr : AccAddress} {valAddr : ValAddress} {shares : Int}
    (h : undelegateShares k params ctx b world delAddr valAddr shares = .ok (b', world')) :
    DelegationChange params ctx b b' := by
  simp only [undelegateShares, run_eq_ok] at h
  obtain ⟨_, -, _, -, _, -, ⟨b1, world1⟩, hrecord, _, -, _, -, heq⟩ := h
  cases heq
  exact updateDelegationRecord_change hrecord

lemma payFromDelegationLoop_changes (dels : List Delegation) {remaining : Int}
    (h : payFromDelegationLoop k params ctx payoutRatio dels remaining b world = .ok (b', world')) :
    DelegationChanges params ctx b b' := by
  induction dels generalizing remaining b world with
  | nil =>
    cases h
    exact .refl
  | cons del dels ih =>
    unfold payFromDelegationLoop at h
    split at h
    · simp only [bind_eq_ok] at h
      obtain ⟨val, -, tokens, -, ubdShares, -, ⟨b1, world1⟩, hstep, h⟩ := h
      exact (ih h).head (undelegateShares_change hstep)
    · cases h
      exact .refl

/-- The collateral book changes only through the staking hooks while a provider's part is
taken from its delegations. -/
lemma makePayoutByProviderDelegations_changes
      {addr : AccAddress} {purchased payout : Int}
    (h : makePayoutByProviderDelegations k params ctx b world addr purchased payout =
      .ok (b', world')) : DelegationChanges params ctx b b' := by
  simp only [makePayoutByProviderDelegations, run_eq_ok] at h
  obtain ⟨_, -, ⟨b1, world1⟩, hdel, _, -, heq⟩ := h
  cases heq
  unfold makePayoutFromDelegations at hdel
  split at hdel
  · simp only [payFromDelegation, bind_eq_ok] at hdel
    obtain ⟨_, -, _, -, hloop⟩ := hdel
    exact payFromDelegationLoop_changes _ hloop
  · cases hdel
    exact .refl

lemma reimbursementShare_bounds {purchaseRatio collateral totalPurchased totalPayout : Int}
    (hpurchase : 0 ≤ purchaseRatio) (hratio : 0 ≤ payoutRatio)
    (hcollateral : 0 ≤ collateral) (hpurchased : 0 ≤ totalPurchased) (hpayout : 0 ≤ totalPayout) :
    0 ≤ (reimbursementShare purchaseRatio payoutRatio collateral totalPurchased totalPayout).1 ∧
      (reimbursementShare purchaseRatio payoutRatio collateral totalPurchased totalPayout).1 ≤
        totalPurchased ∧
      0 ≤ (reimbursementShare purchaseRatio payoutRatio collateral totalPurchased totalPayout).2 ∧
      (reimbursementShare purchaseRatio payoutRatio collateral totalPurchased totalPayout).2 ≤
        totalPayout := by
  have hofInt := Dec.ofInt_nonneg hcollateral
  have hp := Dec.truncateInt_nonneg (Dec.mul_nonneg hofInt hpurchase)
  have hq := Dec.truncateInt_nonneg (Dec.mul_nonneg hofInt hratio)
  unfold reimbursementShare
  dsimp only
  split_ifs <;> omega

end Shentu
