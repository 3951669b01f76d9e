import Shentu.Shield.Payout
import Shentu.Shield.Unbonding

/-!
The provider invariant. The totals are the sums over the providers, a provider's
withdrawing amount is what it has in the withdraw queue, and it withdraws no more
than its collateral. The invariant is kept by every function that writes the
collateral book; the two loops that write it provider by provider, the release of
completed withdrawals and the payout of a claim, need it in a form that says what
is in flight.
-/

namespace Shentu

open Lib Table CollateralBook List

variable {σ : Type}

/-- The relations between the providers, the totals and the withdraw queue. -/
structure ProviderRelations (b : CollateralBook) : Prop where
  collateral : b.totalCollateral = b.providers.total Provider.collateral
  withdrawing : b.totalWithdrawing = b.providers.total Provider.withdrawing
  queued : ∀ p ∈ b.providers.rows, p.withdrawing = queuedBy p.address b.withdrawQueue.entries
  bounds : ∀ p ∈ b.providers.rows, 0 ≤ p.withdrawing ∧ p.withdrawing ≤ p.collateral

/-- The withdraw queue as the code builds it: filed by completion time, without negative
amounts and without amounts of addresses that are no providers. -/
structure QueueSound (b : CollateralBook) : Prop where
  filed : QueueFiled b.withdrawQueue
  nonneg : ∀ w ∈ b.withdrawQueue.entries, 0 ≤ w.amount
  owned : ∀ a, b.getProvider a = none → queuedBy a b.withdrawQueue.entries = 0

/-- The invariant inside a loop: the collaterals add up to `sum`, and the withdraws in
`pending` are out of the queue but not yet taken from their providers. -/
structure Backed (sum : Int) (pending : List Withdraw) (b : CollateralBook) : Prop where
  filed : QueueFiled b.withdrawQueue
  nonneg : ∀ w ∈ pending ++ b.withdrawQueue.entries, 0 ≤ w.amount
  collateral : b.providers.total Provider.collateral = sum
  withdrawing : b.totalWithdrawing = b.providers.total Provider.withdrawing
  queued : ∀ a, b.providers.valueAt Provider.withdrawing a =
    queuedBy a (pending ++ b.withdrawQueue.entries)
  bounds : ∀ p ∈ b.providers.rows, 0 ≤ p.withdrawing ∧ p.withdrawing ≤ p.collateral

lemma backed_of_relations {b : CollateralBook} (h : ProviderRelations b) (hq : QueueSound b) :
    Backed b.totalCollateral [] b := by
  refine ⟨hq.filed, hq.nonneg, h.collateral.symm, h.withdrawing, ?_, h.bounds⟩
  intro a
  cases hg : b.providers.get a with
  | none => exact (valueAt_of_get_none hg _).trans (hq.owned a hg).symm
  | some p =>
    rw [valueAt_of_get hg, h.queued p (mem_of_get hg), key_of_get hg]
    rfl

namespace Backed

variable {sum : Int} {pending : List Withdraw} {b b' : CollateralBook}

lemma relations (h : Backed b.totalCollateral [] b) : ProviderRelations b := by
  refine ⟨h.collateral.symm, h.withdrawing, ?_, h.bounds⟩
  intro p hp
  have hqueued := h.queued p.address
  rwa [valueAt_of_get (get_of_mem hp)] at hqueued

lemma sum_nonneg (h : Backed sum pending b) : 0 ≤ sum := by
  rw [← h.collateral]
  refine List.sum_nonneg (forall_mem_map.mpr ?_)
  intro p hp
  have := h.bounds p hp
  omega

variable {addr : AccAddress} {amount : Int} {params : PoolParams} {ctx : Ctx}

/-- The write of one provider, with what it does to the sums and to the queue. -/
lemma setProvider (h : Backed sum pending b) {p : Provider}
    (hp : b.IsProviderOf addr p) (p' : Provider) (haddr : p'.address = addr)
    (queue : TimeQueue Withdraw) (pending' : List Withdraw)
    (totalCollateral totalWithdrawing : Int) {sum' : Int}
    (hsum : sum' = sum + (p'.collateral - p.collateral)) (hfiled : QueueFiled queue)
    (hnonneg : ∀ w ∈ pending' ++ queue.entries, 0 ≤ w.amount)
    (hwithdrawing : totalWithdrawing = b.totalWithdrawing + (p'.withdrawing - p.withdrawing))
    (hqueued : ∀ a, queuedBy a (pending' ++ queue.entries) =
      queuedBy a (pending ++ b.withdrawQueue.entries) +
        if a = addr then p'.withdrawing - p.withdrawing else 0)
    (hbounds : 0 ≤ p'.withdrawing ∧ p'.withdrawing ≤ p'.collateral) :
    Backed sum' pending'
      { providers := b.providers.set p', withdrawQueue := queue,
        totalCollateral := totalCollateral, totalWithdrawing := totalWithdrawing } := by
  have hc := hp.valueAt (f := Provider.collateral) (fun _ => rfl)
  have hw := hp.valueAt (f := Provider.withdrawing) (fun _ => rfl)
  refine ⟨hfiled, hnonneg, ?_, ?_, ?_, ?_⟩
  · change (b.providers.set p').total Provider.collateral = _
    rw [total_set, haddr, hc, h.collateral, hsum]
    omega
  · change totalWithdrawing = (b.providers.set p').total Provider.withdrawing
    rw [total_set, haddr, hw, hwithdrawing, h.withdrawing]
    omega
  · intro a
    change (b.providers.set p').valueAt Provider.withdrawing a =
      queuedBy a (pending' ++ queue.entries)
    rw [valueAt_set, haddr]
    have hold := h.queued a
    have hnew := hqueued a
    split
    · rename_i ha
      rw [if_pos ha] at hnew
      rw [ha, hw] at hold
      rw [hnew, ha, ← hold]
      omega
    · rename_i ha
      rw [if_neg ha] at hnew
      omega
  · exact forall_mem_set hbounds h.bounds

lemma bounds_of_isProviderOf (h : Backed sum pending b) {p : Provider}
    (hp : b.IsProviderOf addr p) : 0 ≤ p.withdrawing ∧ p.withdrawing ≤ p.collateral := by
  rcases hp with hp | ⟨-, bonded, rfl⟩
  · exact h.bounds p (mem_of_get hp)
  · exact ⟨le_rfl, le_rfl⟩

lemma depositCollateral (h : Backed sum pending b) {k : Keepers σ} {world : σ}
    (hamount : 0 ≤ amount) (hstep : b.depositCollateral k world addr amount = .ok b') :
    Backed (sum + amount) pending b' ∧ b'.totalCollateral = b.totalCollateral + amount := by
  obtain ⟨p, hp, -, rfl⟩ := depositCollateral_cases hstep
  have hbounds := h.bounds_of_isProviderOf hp
  refine ⟨?_, rfl⟩
  exact h.setProvider hp { p with collateral := p.collateral + amount } hp.address
    b.withdrawQueue pending _ _ (by dsimp only; omega) h.filed h.nonneg (by dsimp only; omega)
    (by intro a; dsimp only; split <;> omega) (by dsimp only; omega)

lemma withdrawCollateral (h : Backed sum [] b) (hamount : 0 ≤ amount)
    (hstep : b.withdrawCollateral params ctx addr amount = .ok b') :
    Backed sum [] b' ∧ b'.totalCollateral = b.totalCollateral := by
  rcases withdrawCollateral_cases hstep with ⟨-, rfl⟩ | ⟨p, hp, hle, rfl⟩
  · exact ⟨h, rfl⟩
  · have hbounds := h.bounds p (mem_of_get hp)
    have haddr : p.address = addr := key_of_get hp
    have hperm := TimeQueue.entries_insert_perm b.withdrawQueue
      (ctx.blockTime + params.withdrawPeriod)
      ⟨addr, amount, ctx.blockTime + params.withdrawPeriod⟩
    refine ⟨?_, rfl⟩
    refine h.setProvider (.inl hp) { p with withdrawing := p.withdrawing + amount } haddr
      _ [] _ _ (by dsimp only; omega) (TimeQueue.Filed.insert h.filed rfl) ?_
      (by dsimp only; omega) ?_ (by dsimp only; omega)
    · intro w hw
      rcases mem_cons.mp (hperm.mem_iff.mp hw) with rfl | hw
      · exact hamount
      · exact h.nonneg w hw
    · intro a
      rw [nil_append, nil_append]
      unfold queuedBy
      rw [amountWhere_perm hperm, amountWhere_cons]
      simp only [decide_eq_true_eq, eq_comm (a := addr) (b := a)]
      split <;> omega

lemma delegationChange (h : Backed sum [] b) (hstep : DelegationChange params ctx b b') :
    Backed sum [] b' ∧ b'.totalCollateral = b.totalCollateral := by
  obtain ⟨delAddr, stakedAmt, hstep⟩ := hstep
  rcases updateProviderForDelegationChanges_cases hstep with rfl | ⟨p, hp, hcases⟩
  · exact ⟨h, rfl⟩
  · have hbounds := h.bounds p (mem_of_get hp)
    have hbonded : Backed sum [] (b.setProvider { p with delegationBonded := stakedAmt }) :=
      h.setProvider (.inl hp) { p with delegationBonded := stakedAmt }
        (key_of_get hp : p.address = delAddr) b.withdrawQueue [] _ _ (by dsimp only; omega)
        h.filed h.nonneg (by dsimp only; omega) (by intro a; dsimp only; split <;> omega)
        hbounds
    rcases hcases with ⟨-, rfl⟩ | ⟨hpos, hw⟩
    · exact ⟨hbonded, rfl⟩
    · obtain ⟨hb', htotal⟩ := hbonded.withdrawCollateral hpos.le hw
      exact ⟨hb', htotal⟩

lemma delegationChanges (h : Backed sum [] b)
    (hstep : DelegationChanges params ctx b b') : Backed sum [] b' := by
  induction hstep with
  | refl => exact h
  | tail _ hlast ih => exact (ih.delegationChange hlast).1

lemma completeWithdraw (w : Withdraw) (h : Backed sum (w :: pending) b)
    (hstep : b.completeWithdraw w = .ok b') :
    Backed (sum - w.amount) pending b' ∧ b'.totalCollateral = b.totalCollateral - w.amount := by
  obtain ⟨p, hp, rfl⟩ := completeWithdraw_cases hstep
  have hbounds := h.bounds p (mem_of_get hp)
  have haddr : p.address = w.address := key_of_get hp
  have hrest : ∀ v ∈ pending ++ b.withdrawQueue.entries, 0 ≤ v.amount :=
    fun v hv => h.nonneg v (mem_cons_of_mem w hv)
  -- What the provider still has queued after this withdraw is not negative.
  have hleft : w.amount ≤ p.withdrawing := by
    have hqueued := h.queued w.address
    rw [valueAt_of_get hp, cons_append] at hqueued
    unfold queuedBy at hqueued
    rw [amountWhere_cons, if_pos (by simp)] at hqueued
    have := amountWhere_nonneg (c := fun b _ => decide (b = w.address)) hrest
    omega
  refine ⟨?_, rfl⟩
  refine h.setProvider (.inl hp) { p with
      collateral := p.collateral - w.amount
      withdrawing := p.withdrawing - w.amount } haddr
    b.withdrawQueue pending _ _ (by dsimp only; omega) h.filed hrest (by dsimp only; omega) ?_
    (by dsimp only; omega)
  intro a
  rw [cons_append]
  unfold queuedBy
  rw [amountWhere_cons]
  simp only [decide_eq_true_eq, eq_comm (a := w.address) (b := a)]
  split <;> omega

lemma completeWithdraws (ws : List Withdraw) (h : Backed b.totalCollateral ws b)
    (hstep : ws.foldlM CollateralBook.completeWithdraw b = .ok b') :
    Backed b'.totalCollateral [] b' := by
  induction ws generalizing b with
  | nil =>
    rw [foldlM_nil, pure_eq_ok] at hstep
    rwa [← hstep]
  | cons w ws ih =>
    obtain ⟨b1, hw, hrest⟩ := foldlM_cons_eq_ok.mp hstep
    obtain ⟨hb1, htotal⟩ := h.completeWithdraw w hw
    rw [← htotal] at hb1
    exact ih hb1 hrest

lemma dequeueCompletedWithdrawQueue (h : Backed b.totalCollateral [] b)
    (hstep : b.dequeueCompletedWithdrawQueue ctx = .ok b') : Backed b'.totalCollateral [] b' := by
  have hperm := TimeQueue.entries_perm_dueBy b.withdrawQueue ctx.blockTime
  have hpending : Backed b.totalCollateral (b.withdrawQueue.dueBy ctx.blockTime)
      { b with withdrawQueue := b.withdrawQueue.dropUpTo ctx.blockTime } := by
    refine ⟨TimeQueue.Filed.dropUpTo h.filed _, ?_, h.collateral, h.withdrawing, ?_, h.bounds⟩
    · intro w hw
      exact h.nonneg w (hperm.mem_iff.mpr hw)
    · intro a
      rw [h.queued a]
      exact amountWhere_perm hperm
  exact completeWithdraws _ hpending hstep

lemma delayWithdraws (h : Backed sum [] b) {provider : AccAddress}
    {delayedTime : Time} (hstep : b.delayWithdraws provider amount delayedTime = .ok b') :
    Backed sum [] b' ∧ b'.totalCollateral = b.totalCollateral := by
  obtain ⟨delayed, left, others, queue, rfl, hfiled, -, hold, hnew, -, -, -⟩ :=
    delayWithdraws_spec h.filed hstep
  refine ⟨⟨hfiled, ?_, h.collateral, h.withdrawing, ?_, h.bounds⟩, rfl⟩
  · intro w hw
    rcases mem_append.mp (hnew.mem_iff.mp hw) with hw | hw
    · obtain ⟨v, hv, rfl⟩ := mem_map.mp hw
      exact h.nonneg v (hold.mem_iff.mpr (mem_append_left _ hv))
    · exact h.nonneg w (hold.mem_iff.mpr (mem_append_right _ hw))
  · intro a
    rw [h.queued a]
    change amountWhere _ b.withdrawQueue.entries = amountWhere _ queue.entries
    rw [amountWhere_perm hold, amountWhere_perm hnew, amountWhere_append, amountWhere_append]
    simp [amountWhere, Function.comp_def]

/-- A payout from one provider lowers the sum of the collaterals by the payout. -/
lemma updateProviderCollateralForPayout (h : Backed sum [] b)
    {purchased payout : Int} (hpurchased : 0 ≤ purchased) (hpayout : 0 ≤ payout)
    (hstep : b.updateProviderCollateralForPayout addr purchased payout = .ok b') :
    Backed (sum - payout) [] b' := by
  obtain ⟨p, x, queue, kept, cut, hp, hx, hxle, hfree, rfl, hfiled, hold, hnew, hcut, -, hpaid⟩ :=
    updateProviderCollateralForPayout_spec h.filed h.nonneg
      (fun p hp => (h.bounds p (mem_of_get hp)).2) hpurchased hpayout hstep
  have hbounds := h.bounds p (mem_of_get hp)
  have hcutnonneg : ∀ w ∈ cut, w.address = addr ∧ 0 ≤ w.amount := by
    intro w hw
    obtain ⟨v, hv, haddr, -, hpos, -⟩ := hcut w hw
    exact ⟨haddr.trans (by simpa using (mem_filter.mp hv).2), hpos⟩
  have hothers : ∀ a, a ≠ addr → ∀ ws : List Withdraw, (∀ w ∈ ws, w.address = addr) →
      queuedBy a ws = 0 := by
    intro a hne ws hws
    refine sum_eq_zero (forall_mem_map.mpr ?_)
    intro w hw
    simp [hws w hw, Ne.symm hne]
  have hown : ∀ w ∈ b.getWithdrawsByProvider addr, w.address = addr := by
    intro w hw
    simpa using (mem_filter.mp hw).2
  -- The payout from withdrawals is taken from what the provider has queued.
  have hcutsum : queuedBy addr cut = queuedBy addr (b.getWithdrawsByProvider addr) - x :=
    hpaid (fun b _ => decide (b = addr)) (by simp)
  have hxw : x ≤ p.withdrawing := by
    have hqueued := h.queued addr
    rw [valueAt_of_get hp, nil_append] at hqueued
    have hsplit : queuedBy addr b.withdrawQueue.entries =
        queuedBy addr (b.getWithdrawsByProvider addr) + queuedBy addr kept := by
      unfold queuedBy
      rw [amountWhere_perm hold, amountWhere_append]
    have hcut0 : 0 ≤ queuedBy addr cut :=
      amountWhere_nonneg (fun w hw => (hcutnonneg w hw).2)
    have hkept0 : 0 ≤ queuedBy addr kept :=
      amountWhere_nonneg (fun w hw => h.nonneg w (hold.mem_iff.mpr (mem_append_right _ hw)))
    omega
  refine h.setProvider (.inl hp) { p with
      collateral := p.collateral - payout
      withdrawing := p.withdrawing - x } (key_of_get hp : p.address = addr)
    queue [] _ _ (by dsimp only; omega) hfiled ?_ (by dsimp only; omega) ?_ (by dsimp only; omega)
  · intro w hw
    rcases mem_append.mp (hnew.mem_iff.mp hw) with hw | hw
    · exact (hcutnonneg w hw).2
    · exact h.nonneg w (hold.mem_iff.mpr (mem_append_right _ hw))
  · intro a
    have hnewsum : queuedBy a queue.entries = queuedBy a cut + queuedBy a kept := by
      unfold queuedBy
      rw [amountWhere_perm hnew, amountWhere_append]
    have holdsum : queuedBy a b.withdrawQueue.entries =
        queuedBy a (b.getWithdrawsByProvider addr) + queuedBy a kept := by
      unfold queuedBy
      rw [amountWhere_perm hold, amountWhere_append]
    rw [nil_append, nil_append, hnewsum, holdsum]
    split
    · rename_i ha
      rw [ha, hcutsum]
      dsimp only
      omega
    · rename_i ha
      rw [hothers a ha cut (fun w hw => (hcutnonneg w hw).1), hothers a ha _ hown]
      omega

/-- The loop over the providers lowers the sum of the collaterals by what it pays. -/
lemma payProviders {k : Keepers σ}
    {purchaseRatio payoutRatio : Int} (hpurchase : 0 ≤ purchaseRatio) (hratio : 0 ≤ payoutRatio)
    (providers : List Provider) (hproviders : ∀ p ∈ providers, 0 ≤ p.collateral)
    {totalPurchased totalPayout unpaid : Int} (hpurchased : 0 ≤ totalPurchased)
    (hpayout : 0 ≤ totalPayout) {world world' : σ} (h : Backed sum [] b)
    (hstep : payProviders k params ctx purchaseRatio payoutRatio providers totalPurchased
      totalPayout b world = .ok (unpaid, b', world')) :
    Backed (sum - (totalPayout - unpaid)) [] b' ∧ 0 ≤ unpaid := by
  induction providers generalizing totalPurchased totalPayout sum b world with
  | nil =>
    cases hstep
    rw [sub_self, sub_zero]
    exact ⟨h, hpayout⟩
  | cons p ps ih =>
    unfold Shentu.payProviders at hstep
    split at hstep
    · simp only [bind_eq_ok, orPanic_eq_ok] at hstep
      obtain ⟨b1, hupdate, ⟨b2, world2⟩, hmake, hrest⟩ := hstep
      obtain ⟨hs1, hs2, hs3, hs4⟩ := reimbursementShare_bounds hpurchase hratio
        (hproviders p mem_cons_self) hpurchased hpayout
      have hb1 := h.updateProviderCollateralForPayout hs1 hs3 hupdate
      have hb2 := hb1.delegationChanges (makePayoutByProviderDelegations_changes hmake)
      obtain ⟨hb', hunpaid⟩ := ih (fun q hq => hproviders q (mem_cons_of_mem p hq))
        (by omega) (by omega) hb2 hrest
      refine ⟨?_, hunpaid⟩
      convert hb' using 1
      omega
    · cases hstep
      rw [sub_self, sub_zero]
      exact ⟨h, hpayout⟩

end Backed

/-- The provider relations survive a reimbursement, as long as sold shield is not negative. -/
lemma Backed.createReimbursement {k : Keepers σ} {ctx : Ctx} {s s' : ShieldState σ}
    {proposalID : Nat} {amount : Coins} {beneficiary : AccAddress}
    (h : Backed s.collateral.totalCollateral [] s.collateral) (hshield : 0 ≤ s.cover.totalShield)
    (hamount : 0 ≤ amount.amountOf k.bondDenom)
    (hstep : createReimbursement k ctx s proposalID amount beneficiary = .ok s') :
    Backed s'.collateral.totalCollateral [] s'.collateral := by
  simp only [Shentu.createReimbursement, run_eq_ok, decQuo] at hstep
  obtain ⟨purchaseRatio, hpurchase, payoutRatio, hratio, ⟨unpaid, b1, world1⟩, hpay, hunpaid,
    rfl⟩ := hstep
  have hsum : 0 ≤ s.collateral.totalCollateral := h.sum_nonneg
  have hnonneg : ∀ {x r : Int}, 0 ≤ x → (if Dec.ofInt s.collateral.totalCollateral = 0 then
        (.error (.panic .divisionByZero) : Except Fault Int)
      else .ok (Dec.quo (Dec.ofInt x) (Dec.ofInt s.collateral.totalCollateral))) = .ok r →
      0 ≤ r := by
    intro x r hx hr
    split at hr
    · cases hr
    · cases hr
      exact Dec.quo_nonneg (Dec.ofInt_nonneg hx) (Dec.ofInt_nonneg hsum)
  have hproviders : ∀ p ∈ s.collateral.getAllProviders, 0 ≤ p.collateral := by
    intro p hp
    have := h.bounds p hp
    omega
  obtain ⟨hb1, hunpaid0⟩ := h.payProviders (hnonneg hshield hpurchase) (hnonneg hamount hratio) _
    hproviders hshield hamount hpay
  refine ⟨hb1.filed, hb1.nonneg, ?_, hb1.withdrawing, hb1.queued, hb1.bounds⟩
  change b1.providers.total Provider.collateral = _
  rw [hb1.collateral]
  dsimp only
  have hzero : ¬ 0 < unpaid := hunpaid
  omega

end Shentu
