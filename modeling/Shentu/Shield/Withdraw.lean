import Shentu.Shield.Keepers

/-!
Providers and the withdraw queue: deposits and withdrawals of collateral, the
delegation hooks that force a withdrawal, the release of completed withdrawals
and the delay of withdrawals for a claim.
-/

namespace Shentu

open Lib Table

namespace Provider

def new (addr : AccAddress) : Provider :=
  { address := addr, delegationBonded := 0, collateral := 0, withdrawing := 0,
    rewards := MixedDecCoins.empty }

end Provider

namespace CollateralBook

variable {σ : Type}

def insertWithdrawQueue (b : CollateralBook) (w : Withdraw) : CollateralBook :=
  { b with withdrawQueue := b.withdrawQueue.insert w.completionTime w }

def addProvider (k : Keepers σ) (world : σ) (b : CollateralBook) (addr : AccAddress) :
    Except Fault (Provider × CollateralBook) := do
  let bonded ← totalStaked k world addr
  let provider := { Provider.new addr with delegationBonded := bonded }
  return (provider, b.setProvider provider)

def depositCollateral (k : Keepers σ) (world : σ) (b : CollateralBook) (addr : AccAddress)
    (amount : Int) : Except Fault CollateralBook := do
  let (provider, b) ← match b.getProvider addr with
    | some provider => pure (provider, b)
    | none => addProvider k world b addr
  failIf (provider.delegationBonded < provider.collateral + amount - provider.withdrawing)
    (.error .insufficientStaking)
  let b := b.setProvider { provider with collateral := provider.collateral + amount }
  return { b with totalCollateral := b.totalCollateral + amount }

def withdrawCollateral (params : PoolParams) (ctx : Ctx) (b : CollateralBook)
    (addr : AccAddress) (amount : Int) : Except Fault CollateralBook :=
  if amount = 0 then .ok b
  else do
    let provider ← orFail (b.getProvider addr) (.error .providerNotFound)
    failIf (provider.collateral - provider.withdrawing < amount) (.error .overWithdraw)
    let completionTime := ctx.blockTime + params.withdrawPeriod
    let b := b.insertWithdrawQueue ⟨addr, amount, completionTime⟩
    let b := b.setProvider { provider with withdrawing := provider.withdrawing + amount }
    return { b with totalWithdrawing := b.totalWithdrawing + amount }

def updateProviderForDelegationChanges (params : PoolParams) (ctx : Ctx) (b : CollateralBook)
    (delAddr : AccAddress) (stakedAmt : Int) : Except Fault CollateralBook :=
  match b.getProvider delAddr with
  | none => .ok b
  | some provider =>
    let b := b.setProvider { provider with delegationBonded := stakedAmt }
    let withdrawAmount := provider.collateral - provider.withdrawing - stakedAmt
    if 0 < withdrawAmount then
      -- A withdrawal that fails here is a panic and not an error.
      match withdrawCollateral params ctx b delAddr withdrawAmount with
      | .ok b => .ok b
      | .error _ => .error (.panic .withdrawFailed)
    else .ok b

def updateDelegationAmount (k : Keepers σ) (params : PoolParams) (ctx : Ctx) (world : σ)
    (b : CollateralBook) (delAddr : AccAddress) : Except Fault CollateralBook :=
  match b.getProvider delAddr with
  | none => .ok b
  | some _ => do
    let totalStakedAmount ← totalStaked k world delAddr
    updateProviderForDelegationChanges params ctx b delAddr totalStakedAmount

def removeDelegation (k : Keepers σ) (params : PoolParams) (ctx : Ctx) (world : σ)
    (b : CollateralBook) (delAddr : AccAddress) (valAddr : ValAddress) :
    Except Fault CollateralBook :=
  match b.getProvider delAddr with
  | none => .ok b
  | some provider => do
    let delegation ← orFail (k.getDelegation world delAddr valAddr) (.panic .delegationNotFound)
    let validator ← orFail (k.getValidator world valAddr) (.panic .validatorNotFound)
    let tokens ← validator.tokensFromShares delegation.shares
    let deltaAmount := Dec.truncateInt tokens
    updateProviderForDelegationChanges params ctx b delAddr
      (provider.delegationBonded - deltaAmount)

def completeWithdraw (b : CollateralBook) (w : Withdraw) : Except Fault CollateralBook := do
  let provider ← orFail (b.getProvider w.address) (.panic .providerNotFound)
  let b := b.setProvider { provider with
    collateral := provider.collateral - w.amount
    withdrawing := provider.withdrawing - w.amount }
  return { b with
    totalCollateral := b.totalCollateral - w.amount
    totalWithdrawing := b.totalWithdrawing - w.amount }

def dequeueCompletedWithdrawQueue (ctx : Ctx) (b : CollateralBook) :
    Except Fault CollateralBook :=
  let withdraws := b.withdrawQueue.dueBy ctx.blockTime
  withdraws.foldlM completeWithdraw
    { b with withdrawQueue := b.withdrawQueue.dropUpTo ctx.blockTime }

/-- The withdraws of a provider that complete until and including a time, oldest slice first. -/
def withdrawsByTime (b : CollateralBook) (provider : AccAddress) (time : Time) : List Withdraw :=
  (b.withdrawQueue.dueBy time).filter (fun w => w.address = provider)

def computeWithdrawAmountByTime (b : CollateralBook) (provider : AccAddress) (time : Time) : Int :=
  ((b.withdrawsByTime provider time).map Withdraw.amount).sum

/-- Take the withdraw `w` of `provider` out of its slice. A slice of one entry is removed
without a look at the entry; in a longer one the last entry with the same address and
amount is taken. -/
def unqueue (provider : AccAddress) (q : TimeQueue Withdraw) (w : Withdraw) :
    TimeQueue Withdraw :=
  let timeSlice := q.slice w.completionTime
  if 1 < timeSlice.length then
    q.setSlice w.completionTime
      (timeSlice.reverse.eraseP (fun e => e.address = provider && e.amount = w.amount)).reverse
  else q.removeSlice w.completionTime

/-- The loop of `delayWithdraws` over the candidates, latest first, with what remains to
be delayed. -/
def delayLoop (provider : AccAddress) (delayedTime : Time) :
    List Withdraw → Int → TimeQueue Withdraw → Int × TimeQueue Withdraw
  | [], remaining, q => (remaining, q)
  | w :: ws, remaining, q =>
    if 0 < remaining then
      delayLoop provider delayedTime ws (remaining - w.amount)
        ((unqueue provider q w).insert delayedTime { w with completionTime := delayedTime })
    else (remaining, q)

def delayWithdraws (b : CollateralBook) (provider : AccAddress) (amount : Int)
    (delayedTime : Time) : Except Fault CollateralBook := do
  let withdraws := b.withdrawsByTime provider delayedTime
  let (remaining, queue) := delayLoop provider delayedTime withdraws.reverse amount b.withdrawQueue
  failIf (0 < remaining) (.panic .notEnoughWithdraws)
  return { b with withdrawQueue := queue }

/-- The provider a deposit starts from: the stored one, or a new one without collateral. -/
def IsProviderOf (b : CollateralBook) (addr : AccAddress) (p : Provider) : Prop :=
  b.getProvider addr = some p ∨
    b.getProvider addr = none ∧ ∃ bonded, p = { Provider.new addr with delegationBonded := bonded }

variable {b b' : CollateralBook} {addr delAddr : AccAddress} {k : Keepers σ} {world : σ}
  {amount : Int} {params : PoolParams} {ctx : Ctx}

lemma IsProviderOf.address {p : Provider} (h : b.IsProviderOf addr p) : p.address = addr := by
  rcases h with h | ⟨-, bonded, rfl⟩
  · exact key_of_get h
  · rfl

lemma IsProviderOf.valueAt {p : Provider} (h : b.IsProviderOf addr p) {f : Provider → Int}
    (hf : ∀ bonded, f { Provider.new addr with delegationBonded := bonded } = 0) :
    b.providers.valueAt f addr = f p := by
  rcases h with h | ⟨hnone, bonded, rfl⟩
  · exact valueAt_of_get h f
  · rw [valueAt_of_get_none hnone, hf]

lemma depositCollateral_cases (h : depositCollateral k world b addr amount = .ok b') :
    ∃ p, b.IsProviderOf addr p ∧ ¬ p.delegationBonded < p.collateral + amount - p.withdrawing ∧
      b' = { b with
        providers := b.providers.set { p with collateral := p.collateral + amount }
        totalCollateral := b.totalCollateral + amount } := by
  unfold depositCollateral at h
  cases hg : b.getProvider addr with
  | some p =>
    simp only [hg, run_eq_ok, exists_eq_left'] at h
    exact ⟨p, .inl hg, h.1, h.2.symm⟩
  | none =>
    simp only [hg, addProvider, run_eq_ok] at h
    obtain ⟨⟨p, b1⟩, ⟨bonded, -, heq⟩, hnot, hb'⟩ := h
    cases heq
    refine ⟨_, .inr ⟨hg, bonded, rfl⟩, hnot, ?_⟩
    rw [← hb']
    simp only [setProvider, set_set]

lemma withdrawCollateral_cases (h : withdrawCollateral params ctx b addr amount = .ok b') :
    (amount = 0 ∧ b' = b) ∨
      ∃ p, b.getProvider addr = some p ∧ amount ≤ p.collateral - p.withdrawing ∧
        b' = { b with
          providers := b.providers.set { p with withdrawing := p.withdrawing + amount }
          withdrawQueue := b.withdrawQueue.insert (ctx.blockTime + params.withdrawPeriod)
            ⟨addr, amount, ctx.blockTime + params.withdrawPeriod⟩
          totalWithdrawing := b.totalWithdrawing + amount } := by
  unfold withdrawCollateral at h
  split at h
  · rename_i hzero
    cases h
    exact .inl ⟨hzero, rfl⟩
  · simp only [run_eq_ok] at h
    obtain ⟨p, hp, hle, rfl⟩ := h
    exact .inr ⟨p, hp, not_lt.mp hle, rfl⟩

lemma updateProviderForDelegationChanges_cases {stakedAmt : Int}
    (h : updateProviderForDelegationChanges params ctx b delAddr stakedAmt = .ok b') :
    b' = b ∨
      ∃ p, b.getProvider delAddr = some p ∧
        (p.collateral - p.withdrawing - stakedAmt ≤ 0 ∧
            b' = b.setProvider { p with delegationBonded := stakedAmt } ∨
          0 < p.collateral - p.withdrawing - stakedAmt ∧ withdrawCollateral params ctx
            (b.setProvider { p with delegationBonded := stakedAmt }) delAddr
            (p.collateral - p.withdrawing - stakedAmt) = .ok b') := by
  unfold updateProviderForDelegationChanges at h
  split at h
  · cases h
    exact .inl rfl
  · rename_i p hp
    refine .inr ⟨p, hp, ?_⟩
    dsimp only at h
    split at h
    · rename_i hpos
      split at h
      · rename_i b1 hw
        cases h
        exact .inr ⟨hpos, hw⟩
      · cases h
    · rename_i hpos
      cases h
      exact .inl ⟨not_lt.mp hpos, rfl⟩

lemma updateDelegationAmount_cases
    (h : updateDelegationAmount k params ctx world b delAddr = .ok b') :
    ∃ stakedAmt, updateProviderForDelegationChanges params ctx b delAddr stakedAmt = .ok b' := by
  unfold updateDelegationAmount at h
  split at h
  · rename_i hnone
    cases h
    exact ⟨0, by simp [updateProviderForDelegationChanges, hnone]⟩
  · obtain ⟨stakedAmt, -, h⟩ := bind_eq_ok.mp h
    exact ⟨stakedAmt, h⟩

lemma removeDelegation_cases {valAddr : ValAddress}
    (h : removeDelegation k params ctx world b delAddr valAddr = .ok b') :
    ∃ stakedAmt, updateProviderForDelegationChanges params ctx b delAddr stakedAmt = .ok b' := by
  unfold removeDelegation at h
  split at h
  · rename_i hnone
    cases h
    exact ⟨0, by simp [updateProviderForDelegationChanges, hnone]⟩
  · simp only [bind_eq_ok] at h
    obtain ⟨_, -, _, -, _, -, h⟩ := h
    exact ⟨_, h⟩

lemma completeWithdraw_cases {w : Withdraw} (h : completeWithdraw b w = .ok b') :
    ∃ p, b.getProvider w.address = some p ∧
      b' = { b with
        providers := b.providers.set { p with
          collateral := p.collateral - w.amount
          withdrawing := p.withdrawing - w.amount }
        totalCollateral := b.totalCollateral - w.amount
        totalWithdrawing := b.totalWithdrawing - w.amount } := by
  simp only [completeWithdraw, run_eq_ok] at h
  obtain ⟨p, hp, rfl⟩ := h
  exact ⟨p, hp, rfl⟩

lemma delayWithdraws_cases {provider : AccAddress}
    {delayedTime : Time} (h : delayWithdraws b provider amount delayedTime = .ok b') :
    ∃ remaining queue, delayLoop provider delayedTime
        (b.withdrawsByTime provider delayedTime).reverse amount b.withdrawQueue =
          (remaining, queue) ∧
      remaining ≤ 0 ∧ b' = { b with withdrawQueue := queue } := by
  simp only [delayWithdraws, run_eq_ok] at h
  exact ⟨_, _, rfl, not_lt.mp h.1, h.2.symm⟩

end CollateralBook

end Shentu
