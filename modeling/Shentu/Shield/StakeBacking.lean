import Shentu.Shield.ProviderRuns

/-!
Collateral is backed by recorded stake: what a provider has as collateral and is not
withdrawing is not more than its recorded bonded amount. Deposits check this, the delegation
hooks restore it by withdrawing the difference, and a payout takes from the free collateral
only, with any number of hooks in between.
-/

namespace Shentu

open Lib CollateralBook Table Dec

variable {σ : Type}

/-- The recorded stake of a provider covers its free collateral. -/
def Provider.Covered (p : Provider) : Prop := p.collateral - p.withdrawing ≤ p.delegationBonded

instance (p : Provider) : Decidable p.Covered :=
  inferInstanceAs (Decidable (p.collateral - p.withdrawing ≤ p.delegationBonded))

def StakeBacked (b : CollateralBook) : Prop := ∀ p ∈ b.providers.rows, p.Covered

instance (b : CollateralBook) : Decidable (StakeBacked b) :=
  inferInstanceAs (Decidable (∀ p ∈ b.providers.rows, p.Covered))

namespace StakeBacked

variable {b b' : CollateralBook}

lemma get (h : StakeBacked b) {a : AccAddress} {p : Provider} (hp : b.getProvider a = some p) :
    p.Covered :=
  h p (mem_of_get hp)

lemma set (h : StakeBacked b) {p : Provider} (hp : p.Covered) (queue : TimeQueue Withdraw)
    (totalCollateral totalWithdrawing : Int) :
    StakeBacked { providers := b.providers.set p, withdrawQueue := queue,
                  totalCollateral := totalCollateral, totalWithdrawing := totalWithdrawing } := by
  exact forall_mem_set hp h

variable {k : Keepers σ} {addr : AccAddress} {params : PoolParams} {ctx : Ctx}

lemma depositCollateral (h : StakeBacked b) {world : σ} {amount : Int}
    (hstep : b.depositCollateral k world addr amount = .ok b') : StakeBacked b' := by
  obtain ⟨p, -, hcheck, rfl⟩ := depositCollateral_cases hstep
  refine h.set ?_ _ _ _
  simp only [Provider.Covered]
  omega

lemma withdrawCollateral (h : StakeBacked b) {amount : Int} (hamount : 0 ≤ amount)
    (hstep : b.withdrawCollateral params ctx addr amount = .ok b') : StakeBacked b' := by
  rcases withdrawCollateral_cases hstep with ⟨-, rfl⟩ | ⟨p, hp, -, rfl⟩
  · exact h
  · have hcovered := h.get hp
    refine h.set ?_ _ _ _
    simp only [Provider.Covered] at hcovered ⊢
    omega

/-- A hook records any stake and withdraws what it does not cover. -/
lemma delegationChange (h : StakeBacked b)
    (hstep : DelegationChange params ctx b b') : StakeBacked b' := by
  obtain ⟨delAddr, stakedAmt, hstep⟩ := hstep
  rcases updateProviderForDelegationChanges_cases hstep with
    rfl | ⟨p, hp, ⟨hcovered, rfl⟩ | ⟨hpos, hwithdraw⟩⟩
  · exact h
  · refine h.set ?_ _ _ _
    simp only [Provider.Covered]
    omega
  · have haddr : p.address = delAddr := key_of_get hp
    rcases withdrawCollateral_cases hwithdraw with ⟨hzero, -⟩ | ⟨q, hq, -, rfl⟩
    · omega
    · -- The provider that is withdrawn from is the one just written.
      have hself : (b.setProvider { p with delegationBonded := stakedAmt }).getProvider delAddr =
          some { p with delegationBonded := stakedAmt } := by
        rw [← haddr]
        exact get_set_self _ _
      cases hself.symm.trans hq
      intro r hr
      rcases mem_set.mp hr with rfl | ⟨hr, hne⟩
      · simp only [Provider.Covered]
        omega
      · rcases mem_set.mp hr with rfl | ⟨hr, -⟩
        · exact absurd rfl hne
        · exact h r hr

lemma delegationChanges (h : StakeBacked b)
    (hstep : DelegationChanges params ctx b b') : StakeBacked b' :=
  reflTransGen_invariant (fun _ _ hb hchange => hb.delegationChange hchange) hstep h

lemma dequeueCompletedWithdrawQueue (h : StakeBacked b)
    (hstep : b.dequeueCompletedWithdrawQueue ctx = .ok b') : StakeBacked b' := by
  have hdue : StakeBacked { b with withdrawQueue := b.withdrawQueue.dropUpTo ctx.blockTime } := h
  refine foldlM_invariant ?_ hdue hstep
  intro w _ b1 b2 hb hw
  obtain ⟨p, hp, rfl⟩ := completeWithdraw_cases hw
  have hcovered := hb.get hp
  refine hb.set ?_ _ _ _
  simp only [Provider.Covered] at hcovered ⊢
  omega

lemma updateProviderCollateralForPayout (h : StakeBacked b)
    {purchased payout : Int} (hpayout : 0 ≤ payout)
    (hstep : b.updateProviderCollateralForPayout addr purchased payout = .ok b') :
    StakeBacked b' := by
  simp only [CollateralBook.updateProviderCollateralForPayout, run_eq_ok] at hstep
  obtain ⟨p, hp, -, rfl⟩ := hstep
  have hcovered := h.get hp
  refine h.set ?_ _ _ _
  -- What is taken from the free collateral is not negative.
  simp only [Provider.Covered, CollateralBook.splitPayout] at hcovered ⊢
  split_ifs <;> dsimp only <;> omega

lemma reimbursementShare_payout_nonneg {purchaseRatio payoutRatio collateral totalPurchased
    totalPayout : Int} (hratio : 0 ≤ payoutRatio) (hcollateral : 0 ≤ collateral)
    (hpayout : 0 ≤ totalPayout) :
    0 ≤ (reimbursementShare purchaseRatio payoutRatio collateral totalPurchased totalPayout).2 := by
  have hshare := truncateInt_nonneg (Dec.mul_nonneg (ofInt_nonneg hcollateral) hratio)
  unfold reimbursementShare
  dsimp only
  split_ifs <;> omega

/-- The loop over the providers, whose parts are fixed before it starts. -/
lemma payProviders
    {purchaseRatio payoutRatio : Int} {providers : List Provider}
    (hproviders : ∀ p ∈ providers, 0 ≤ p.collateral) {totalPurchased totalPayout unpaid : Int}
    (hratio : 0 < totalPayout → 0 ≤ payoutRatio) {world world' : σ} (h : StakeBacked b)
    (hstep : payProviders k params ctx purchaseRatio payoutRatio providers totalPurchased
      totalPayout b world = .ok (unpaid, b', world')) : StakeBacked b' := by
  induction providers generalizing totalPurchased totalPayout b world with
  | nil =>
    cases hstep
    exact h
  | cons p ps ih =>
    unfold Shentu.payProviders at hstep
    split at hstep
    · rename_i hpos
      simp only [bind_eq_ok, orPanic_eq_ok] at hstep
      obtain ⟨b1, hupdate, ⟨b2, world2⟩, hmake, hrest⟩ := hstep
      have hb1 := h.updateProviderCollateralForPayout
        (reimbursementShare_payout_nonneg (hratio hpos) (hproviders p List.mem_cons_self)
          hpos.le) hupdate
      have hb2 := hb1.delegationChanges (makePayoutByProviderDelegations_changes hmake)
      exact ih (fun q hq => hproviders q (List.mem_cons_of_mem p hq)) (fun _ => hratio hpos) hb2
        hrest
    · cases hstep
      exact h

lemma createReimbursement {s s' : ShieldState σ}
    {proposalID : Nat} {amount : Coins} {beneficiary : AccAddress} (h : StakeBacked s.collateral)
    (hproviders : ∀ p ∈ s.collateral.providers.rows, 0 ≤ p.collateral)
    (htotal : 0 ≤ s.collateral.totalCollateral)
    (hstep : createReimbursement k ctx s proposalID amount beneficiary = .ok s') :
    StakeBacked s'.collateral := by
  simp only [Shentu.createReimbursement, run_eq_ok, decQuo] at hstep
  obtain ⟨purchaseRatio, -, payoutRatio, hratio, ⟨unpaid, b1, world1⟩, hpay, -, rfl⟩ := hstep
  have hb1 : StakeBacked b1 := by
    refine h.payProviders hproviders ?_ hpay
    intro hpos
    split at hratio
    · cases hratio
    · cases hratio
      exact quo_nonneg (ofInt_nonneg hpos.le) (ofInt_nonneg htotal)
  exact hb1

end StakeBacked

/-- One successful call of a function that writes the providers. The amount of a withdrawal is
checked by the message and by the hook. -/
inductive BackingStep (k : Keepers σ) : ShieldState σ → ShieldState σ → Prop
  | depositCollateral {s : ShieldState σ} {addr : AccAddress} {amount : Int}
      {b : CollateralBook} : s.collateral.depositCollateral k s.world addr amount = .ok b →
      BackingStep k s { s with collateral := b }
  | withdrawCollateral {s : ShieldState σ} {ctx : Ctx} {addr : AccAddress} {amount : Int}
      {b : CollateralBook} : 0 ≤ amount →
      s.collateral.withdrawCollateral s.params.pool ctx addr amount = .ok b →
      BackingStep k s { s with collateral := b }
  | dequeueCompletedWithdrawQueue {s : ShieldState σ} {ctx : Ctx} {b : CollateralBook} :
      s.collateral.dequeueCompletedWithdrawQueue ctx = .ok b →
      BackingStep k s { s with collateral := b }
  | updateDelegationAmount {s : ShieldState σ} {ctx : Ctx} {delAddr : AccAddress}
      {b : CollateralBook} :
      s.collateral.updateDelegationAmount k s.params.pool ctx s.world delAddr = .ok b →
      BackingStep k s { s with collateral := b }
  | removeDelegation {s : ShieldState σ} {ctx : Ctx} {delAddr : AccAddress} {valAddr : ValAddress}
      {b : CollateralBook} :
      s.collateral.removeDelegation k s.params.pool ctx s.world delAddr valAddr = .ok b →
      BackingStep k s { s with collateral := b }
  | createReimbursement {s s' : ShieldState σ} {ctx : Ctx} {proposalID : Nat} {amount : Coins}
      {beneficiary : AccAddress} :
      createReimbursement k ctx s proposalID amount beneficiary = .ok s' → BackingStep k s s'

/-- Every function that writes the providers keeps all of them backed by recorded stake, if no
provider has negative collateral and the total is not negative. -/
theorem stakeBacked_step {k : Keepers σ} {s s' : ShieldState σ} (h : StakeBacked s.collateral)
    (hproviders : ∀ p ∈ s.collateral.providers.rows, 0 ≤ p.collateral)
    (htotal : 0 ≤ s.collateral.totalCollateral) (hstep : BackingStep k s s') :
    StakeBacked s'.collateral := by
  cases hstep with
  | depositCollateral hdeposit => exact h.depositCollateral hdeposit
  | withdrawCollateral hamount hwithdraw => exact h.withdrawCollateral hamount hwithdraw
  | dequeueCompletedWithdrawQueue hdequeue => exact h.dequeueCompletedWithdrawQueue hdequeue
  | updateDelegationAmount hhook =>
    exact h.delegationChange ⟨_, updateDelegationAmount_cases hhook⟩
  | removeDelegation hhook =>
    exact h.delegationChange ⟨_, removeDelegation_cases hhook⟩
  | createReimbursement hreimburse => exact h.createReimbursement hproviders htotal hreimburse

/-- A claim of 20 is paid from a provider with 50 of its 100 in the withdraw queue; the
undelegation calls the hook in the middle of the payout. -/
theorem stakeBacked_of_payout : ∃ s', BackingStep ledgerKeepers
    (oneProvider 100 50 40 (oneWithdraw 5 ⟨1, 50, 5⟩)) s' ∧
      s'.collateral.totalCollateral = 80 ∧ StakeBacked s'.collateral := by
  obtain ⟨s', hs', htotal⟩ : ∃ s, createReimbursement ledgerKeepers ⟨4, 200⟩ (oneProvider 100 50 40
        (oneWithdraw 5 ⟨1, 50, 5⟩)) 1 [⟨microCTKDenom, 20⟩] 2 = .ok s ∧
      s.collateral.totalCollateral = 80 := by
    decide +kernel
  have hstep := BackingStep.createReimbursement hs'
  exact ⟨s', hstep, htotal,
    stakeBacked_step (by decide +kernel) (by decide +kernel) (by decide +kernel) hstep⟩

/-- Providers with the given stake, collateral and withdrawing amounts. -/
def backedProviders (rows : List (Int × Int × Int)) (totalCollateral : Int) : ShieldState Ledger :=
  let state := ShieldState.empty shortPeriodParams Ledger.funded
  let providers := rows.zipIdx.map (fun r => { Provider.new r.2 with
    delegationBonded := r.1.1, collateral := r.1.2.1, withdrawing := r.1.2.2 })
  { state with
    collateral := { state.collateral with
      providers := providers.foldl Table.set Table.empty
      totalCollateral
      totalWithdrawing := (providers.map Provider.withdrawing).sum } }

/-- Without any one of the conditions the stake can fail to cover the free collateral after one
step: a payout gives to a provider with negative collateral, or to one with much collateral if
the total is negative, and a negative withdrawal frees collateral. -/
theorem stakeBacked_not_kept :
    (∃ s s' : ShieldState Ledger, StakeBacked s.collateral ∧ 0 ≤ s.collateral.totalCollateral ∧
      BackingStep ledgerKeepers s s' ∧ ¬ StakeBacked s'.collateral) ∧
    (∃ s s' : ShieldState Ledger, StakeBacked s.collateral ∧
      (∀ p ∈ s.collateral.providers.rows, 0 ≤ p.collateral) ∧
      BackingStep ledgerKeepers s s' ∧ ¬ StakeBacked s'.collateral) ∧
    ∃ (s : ShieldState Ledger) (b : CollateralBook), StakeBacked s.collateral ∧
      (∀ p ∈ s.collateral.providers.rows, 0 ≤ p.collateral) ∧ 0 ≤ s.collateral.totalCollateral ∧
      s.collateral.withdrawCollateral s.params.pool ⟨4, 200⟩ 0 (-10) = .ok b ∧ ¬ StakeBacked b := by
  refine ⟨?_, ?_, ?_⟩
  · obtain ⟨s', hs', hnot⟩ : ∃ s, createReimbursement ledgerKeepers ⟨4, 200⟩
          (backedProviders [(20, -10, -30), (100, 20, 0)] 10) 1 [⟨microCTKDenom, 10⟩] 2 = .ok s ∧
        ¬ StakeBacked s.collateral := by
      decide +kernel
    exact ⟨_, s', by decide +kernel, by decide +kernel, .createReimbursement hs', hnot⟩
  · obtain ⟨s', hs', hnot⟩ : ∃ s, createReimbursement ledgerKeepers ⟨4, 200⟩
          (backedProviders [(4, 4, 0), (1, 1, 0), (1, 1, 0)] (-2)) 1
          [⟨microCTKDenom, 1⟩] 2 = .ok s ∧
        ¬ StakeBacked s.collateral := by
      decide +kernel
    exact ⟨_, s', by decide +kernel, by decide +kernel, .createReimbursement hs', hnot⟩
  · obtain ⟨b, hb, hnot⟩ : ∃ b, (backedProviders [(20, 20, 0)] 20).collateral.withdrawCollateral
          shortPeriodParams.pool ⟨4, 200⟩ 0 (-10) = .ok b ∧ ¬ StakeBacked b := by
      decide +kernel
    exact ⟨backedProviders [(20, 20, 0)] 20, b, by decide +kernel, by decide +kernel,
      by decide +kernel, hb, hnot⟩

end Shentu
