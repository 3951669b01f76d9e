import Shentu.Shield.CollateralPayout

/-!
The exact payout from one provider's collateral. What is free beyond the provider's share of the
purchased shield pays first. Laid end to end from the latest backwards, the provider's withdrawals
then cover what is still uncovered of that share, and the payout takes the window behind it.
-/

namespace Shentu

open Lib List

namespace CollateralBook

lemma splitPayout_eq (free purchased : Int) {payout : Int} (hpayout : 0 ≤ payout) :
    payout - (splitPayout free purchased payout).1 = max 0 (payout - max 0 (free - purchased)) ∧
      (splitPayout free purchased payout).2 = max 0 (purchased - free) := by
  unfold splitPayout
  split_ifs <;> dsimp only <;> omega

/-- A provider's withdraws, the latest first. -/
def latestWithdraws (b : CollateralBook) (addr : AccAddress) : List Withdraw :=
  (b.getWithdrawsByProvider addr).reverse

lemma address_of_mem_latestWithdraws {b : CollateralBook} {addr : AccAddress} {w : Withdraw}
    (hw : w ∈ b.latestWithdraws addr) : w.address = addr :=
  of_decide_eq_true (mem_filter.mp (mem_reverse.mp hw)).2

lemma latestWithdraws_pairwise {b : CollateralBook} (hq : QueueFiled b.withdrawQueue)
    (addr : AccAddress) :
    (b.latestWithdraws addr).Pairwise (fun w v => v.completionTime ≤ w.completionTime) := by
  unfold latestWithdraws
  rw [pairwise_reverse]
  exact (TimeQueue.Filed.pairwise_entries hq).filter _

lemma sum_latestWithdraws (b : CollateralBook) (addr : AccAddress) :
    ((b.latestWithdraws addr).map Withdraw.amount).sum =
      queuedBy addr b.withdrawQueue.entries := by
  have hsum : ∀ ws : List Withdraw,
      ((ws.filter (fun w => decide (w.address = addr))).map Withdraw.amount).sum =
        queuedBy addr ws := by
    intro ws
    induction ws with
    | nil => rfl
    | cons w ws ih =>
      rw [queuedBy, amountWhere_cons, filter_cons]
      split
      · rw [map_cons, sum_cons, ih, queuedBy]
      · rw [ih, queuedBy, zero_add]
  rw [← hsum]
  exact ((reverse_perm _).map _).sum_eq

/-- The payout from one provider does not panic where the collateral covers the purchased shield
and the payout. It uses free collateral first, and takes the rest out of the provider's
withdrawals from the latest backwards: the `i` latest give what they have beyond the uncovered
part of the purchased shield, until the payout is made. -/
theorem collateralPayout_exact {b : CollateralBook} {p : Provider} {purchased payout : Int}
    (hq : QueueFiled b.withdrawQueue)
    (hpos : ∀ w ∈ b.getWithdrawsByProvider p.address, 0 ≤ w.amount)
    (hp : b.getProvider p.address = some p)
    (hqueued : p.withdrawing = queuedBy p.address b.withdrawQueue.entries)
    (hpayout : 0 ≤ payout) (hcover : purchased + payout ≤ p.collateral) :
    let free := p.collateral - p.withdrawing
    let uncovered := max 0 (purchased - free)
    let x := max 0 (payout - max 0 (free - purchased))
    let latest := b.latestWithdraws p.address
    ∃ queue taken,
      b.updateProviderCollateralForPayout p.address purchased payout = .ok
        { b with
          providers := b.providers.set { p with
            collateral := p.collateral - payout
            withdrawing := p.withdrawing - x }
          withdrawQueue := queue
          totalWithdrawing := b.totalWithdrawing - x } ∧
      QueueFiled queue ∧ p.withdrawing - x = queuedBy p.address queue.entries ∧
      latest.Pairwise (fun w v => v.completionTime ≤ w.completionTime) ∧
      taken.length = latest.length ∧
      (∀ i, (taken.take i).sum =
        min x (max 0 (((latest.take i).map Withdraw.amount).sum - uncovered))) ∧
      (ownWithdraws p.address queue).Perm ((latest.zip taken).flatMap afterCut) ∧
      ∀ t, othersAt p.address queue t = othersAt p.address b.withdrawQueue t := by
  intro free uncovered x latest
  have hx : 0 ≤ x := le_max_left _ _
  have huncovered : 0 ≤ uncovered := le_max_left _ _
  obtain ⟨hsplit₁, hsplit₂⟩ := splitPayout_eq free purchased hpayout
  have hlatest : ∀ w ∈ latest, 0 ≤ w.amount := fun w hw => hpos w (mem_reverse.mp hw)
  have hamounts : ∀ a ∈ latest.map Withdraw.amount, 0 ≤ a := forall_mem_map.mpr hlatest
  obtain ⟨-, -, hamount⟩ := cutWithdraws_spec huncovered hx hlatest
  have hkept : b.withdrawQueue.entries.Perm
      (latest ++ b.withdrawQueue.entries.filter (fun w => !decide (w.address = p.address))) :=
    (filter_append_perm _ _).symm.trans ((reverse_perm _).symm.append_right _)
  obtain ⟨hfiled, hunpaid, hcut, hothers⟩ := payoutLoop_spec latest uncovered x b.withdrawQueue _
    hq hkept (fun w hw => address_of_mem_latestWithdraws hw) huncovered hx
  -- The withdrawals reach as far as the window does, so nothing stays unpaid.
  have hpaid : (windowParts uncovered x (latest.map Withdraw.amount)).sum = x := by
    rw [sum_windowParts huncovered hx hamounts, sum_latestWithdraws, ← hqueued]
    omega
  rw [hpaid, sub_self] at hunpaid
  have hown : (ownWithdraws p.address (payoutLoop latest uncovered x b.withdrawQueue).2).Perm
      (cutWithdraws uncovered x latest) := by
    have hfilter := hcut.filter (fun w => decide (w.address = p.address))
    have hall : (cutWithdraws uncovered x latest).filter
        (fun w => decide (w.address = p.address)) = cutWithdraws uncovered x latest := by
      apply filter_eq_self.mpr
      intro w' hw'
      obtain ⟨w, hw, x, rfl⟩ := mem_cutWindow hw'
      have howner : w.address = p.address := address_of_mem_latestWithdraws hw
      exact decide_eq_true howner
    rw [filter_append, hall, filter_filter] at hfilter
    simpa [ownWithdraws] using hfilter
  refine ⟨(payoutLoop latest uncovered x b.withdrawQueue).2,
    windowParts uncovered x (latest.map Withdraw.amount), ?_, hfiled, ?_,
    latestWithdraws_pairwise hq p.address, ?_, ?_, hown, hothers⟩
  · simp only [updateProviderCollateralForPayout, run_eq_ok]
    refine ⟨p, hp, ?_, ?_⟩
    · rw [hsplit₁, hsplit₂]
      exact not_not.mpr hunpaid
    · rw [hsplit₁, hsplit₂]
      rfl
  · rw [hqueued]
    unfold queuedBy
    rw [amountWhere_perm hkept, amountWhere_perm hcut, amountWhere_append, amountWhere_append,
      hamount _ (fun w hw => decide_eq_true (address_of_mem_latestWithdraws hw)), hpaid]
    omega
  · rw [length_windowParts, length_map]
  · intro i
    rw [sum_take_windowParts huncovered hx hamounts, map_take]

/-- A provider with two withdraws of the same amount, due at different times, and one of
another provider. -/
def twoWithdraws : CollateralBook where
  providers := Table.empty.set { Provider.new 1 with collateral := 12, withdrawing := 10 }
  withdrawQueue := TimeQueue.insertAll Table.empty
    [(10, ⟨1, 5, 10⟩), (20, ⟨1, 5, 20⟩), (20, ⟨2, 7, 20⟩)]
  totalCollateral := 12
  totalWithdrawing := 10

/-- Four units are purchased and six are paid: two of the purchased ones are covered by the later
withdraw, which pays three; the earlier one pays the other three. -/
theorem collateralPayout_exact_two :
    QueueFiled twoWithdraws.withdrawQueue ∧ ∃ queue taken,
      (twoWithdraws.updateProviderCollateralForPayout 1 4 6).toOption.map withdrawQueue =
        some queue ∧
      queuedBy 1 queue.entries = 4 ∧ (taken.take 1).sum = 3 ∧ (taken.take 2).sum = 6 ∧
      (ownWithdraws 1 queue).Perm (([⟨1, 5, 20⟩, ⟨1, 5, 10⟩].zip taken).flatMap afterCut) ∧
      othersAt 1 queue 20 = [⟨2, 7, 20⟩] := by
  have hq : QueueFiled twoWithdraws.withdrawQueue := by
    unfold QueueFiled TimeQueue.Filed
    decide
  obtain ⟨queue, taken, hok, -, hleft, -, -, htaken, hown, hothers⟩ :=
    collateralPayout_exact (b := twoWithdraws)
      (p := { Provider.new 1 with collateral := 12, withdrawing := 10 }) hq (by decide) rfl
      (by decide) (show (0 : Int) ≤ 6 by decide) (show (4 : Int) + 6 ≤ 12 by decide)
  refine ⟨hq, queue, taken, ?_, hleft.symm, htaken 1, htaken 2, hown, hothers 20⟩
  have hresult := congrArg (fun r => r.toOption.map withdrawQueue) hok
  exact hresult

end CollateralBook

end Shentu
