import Shentu.Lib.TidyCoins
import Shentu.Oracle.Solvency

/-!
The stored total of the collateral. The messages of operators change it together with the
collateral of one operator, so it stays the sum of all collateral, and every operator keeps the
minimum in the bond denomination.
-/

namespace Shentu.Oracle

open Lib Coins Table

variable {σ : Type} {k : Keepers σ} {s s' : State σ}

/-- The stored total is the sum of all collateral, and no collateral is below the minimum. All
of them are valid coins. -/
structure TotalsAgree (k : Keepers σ) (s : State σ) : Prop where
  total : ∃ total, s.totalCollateral = some total ∧ Coins.isValid total ∧
    ∀ d, total.amountOf d = s.operators.total (fun o => o.collateral.amountOf d)
  valid : ∀ o ∈ s.operators.rows, Coins.isValid o.collateral
  minimum : ∀ o ∈ s.operators.rows, s.poolParams.minimumCollateral ≤
    o.collateral.amountOf k.bondDenom

lemma TotalsAgree.set (h : TotalsAgree k s) {o : Operator} {total' : Coins}
    (hparams : s'.poolParams = s.poolParams) (hoperators : s'.operators = s.operators.set o)
    (htotal' : s'.totalCollateral = some total') (hvalid' : Coins.isValid total')
    (hvalid : Coins.isValid o.collateral)
    (hminimum : s.poolParams.minimumCollateral ≤ o.collateral.amountOf k.bondDenom)
    (hsum : ∀ d, total'.amountOf d = s.operators.total (fun o => o.collateral.amountOf d) +
      o.collateral.amountOf d - s.operators.valueAt (fun o => o.collateral.amountOf d) o.address) :
    TotalsAgree k s' := by
  refine ⟨⟨total', htotal', hvalid', ?_⟩, ?_, ?_⟩
  · intro d
    rw [hsum, hoperators, total_set]
    ring
  · rw [hoperators]
    intro o' ho'
    rcases mem_set.mp ho' with rfl | ⟨ho', -⟩
    · exact hvalid
    · exact h.valid o' ho'
  · rw [hoperators, hparams]
    exact forall_mem_set hminimum h.minimum

/-- Every message of an operator keeps the total and the minimum. -/
lemma deliverTx_totals (hk : TakesValid k) (h : TotalsAgree k s) {msg : Msg}
    (hs : deliverTx k s msg = .ok s') : TotalsAgree k s' := by
  obtain ⟨total, htotal, htotalValid, hsum⟩ := h.total
  obtain ⟨_, hbasic, hs⟩ := bind_eq_ok.mp hs
  cases msg with
  | createOperator address collateral proposer name =>
    obtain ⟨_, world, ht, hnew, hmin, hsend, rfl⟩ := createOperator_cases hs
    cases htotal.symm.trans ht
    have hcoins : Coins.isValid collateral := hk hsend
    refine h.set (o := ⟨address, proposer, collateral, [], name⟩) rfl rfl rfl
      (isValid_add htotalValid hcoins) hcoins (not_lt.mp hmin) ?_
    intro d
    rw [amountOf_add htotalValid hcoins, hsum, valueAt_of_get_none hnew, sub_zero]
  | removeOperator address =>
    obtain ⟨o, _, rest, world, ht, hrest, hget, -, rfl⟩ := removeOperator_cases hs
    cases htotal.symm.trans ht
    have ho := h.valid o (mem_of_get hget)
    refine ⟨⟨rest, rfl, isValid_sub htotalValid ho hrest, ?_⟩, ?_, ?_⟩
    · intro d
      rw [amountOf_sub_of_isSorted htotalValid.1 ho.1 hrest, hsum]
      rw [total_delete, valueAt_of_get hget]
    · exact fun o' ho' => h.valid o' (mem_delete.mp ho').1
    · exact fun o' ho' => h.minimum o' (mem_delete.mp ho').1
  | addCollateral address increment =>
    obtain ⟨o, _, world, ht, hget, hsend, rfl⟩ := addCollateral_cases hs
    cases htotal.symm.trans ht
    have hcoins : Coins.isValid increment := hk hsend
    have ho := h.valid o (mem_of_get hget)
    refine h.set (o := { o with collateral := o.collateral.add increment }) rfl rfl rfl
      (isValid_add htotalValid hcoins) (isValid_add ho hcoins) ?_ ?_
    · rw [amountOf_add ho hcoins]
      exact (h.minimum o (mem_of_get hget)).trans
        (le_add_of_nonneg_right (amountOf_nonneg_of_isValid hcoins _))
    · intro d
      rw [amountOf_add htotalValid hcoins, hsum, amountOf_add ho hcoins,
        valueAt_of_get ((get_address hget).symm ▸ hget)]
      ring
  | reduceCollateral address decrement =>
    obtain ⟨o, collateral, _, rest, ht, hrest, hget, hsub, hmin, rfl⟩ := reduceCollateral_cases hs
    cases htotal.symm.trans ht
    have hcoins : Coins.nonneg decrement := nonneg_iff.mpr (failIf_eq_ok.mp hbasic)
    have ho := h.valid o (mem_of_get hget)
    have hrestValid := isValid_sub_of_nonneg htotalValid hcoins hrest
    have hvalid := isValid_sub_of_nonneg ho hcoins hsub
    refine h.set (o := { o with collateral := collateral }) rfl rfl rfl hrestValid hvalid
      (not_lt.mp hmin) ?_
    intro d
    rw [← hsum, valueAt_of_get ((get_address hget).symm ▸ hget),
      amountOf_eq_sumOf hrestValid.1, amountOf_eq_sumOf hvalid.1,
      amountOf_eq_sumOf htotalValid.1, amountOf_eq_sumOf ho.1, sumOf_sub hrest,
      sumOf_sub hsub]
    ring
  | withdrawReward address =>
    simp only [handleMsg, State.withdrawAllReward, run_eq_ok] at hs
    obtain ⟨o, hget, world, -, rfl⟩ := hs
    have hmem := mem_of_get hget
    refine h.set (o := { o with accumulatedRewards := [] }) rfl rfl htotal htotalValid
      (h.valid o hmem) (h.minimum o hmem) ?_
    intro d
    rw [hsum, valueAt_of_get ((get_address hget).symm ▸ hget)]
    exact (add_sub_cancel_right _ _).symm

/-- The total covers what any operator holds. -/
lemma TotalsAgree.reduceTotalCollateral_succeeds (h : TotalsAgree k s) {o : Operator}
    (ho : o ∈ s.operators.rows) {amount : Coins} (hamount : Coins.Tidy amount)
    (hheld : ∀ d, amount.amountOf d ≤ o.collateral.amountOf d) :
    ∃ s', s.reduceTotalCollateral amount = .ok s' := by
  obtain ⟨total, htotal, hvalid, hsum⟩ := h.total
  have hcovers : ∀ d, amount.amountOf d ≤ total.amountOf d := by
    intro d
    rw [hsum]
    refine (hheld d).trans (List.single_le_sum ?_ _ (List.mem_map_of_mem ho))
    exact List.forall_mem_map.mpr
      (fun o' ho' => amountOf_nonneg_of_isValid (h.valid o' ho') d)
  obtain ⟨rest, hrest⟩ := exists_sub hvalid.1 hamount.1 hcovers
  simp only [State.reduceTotalCollateral, run_eq_ok]
  exact ⟨_, total, htotal, rest, hrest, nonneg_iff.mp (nonneg_sub hrest), rfl⟩

/-- Any messages of operators that succeed keep the stored total equal to the sum of all
collateral and all collateral at the minimum, and the total can be reduced by what any operator
holds. -/
theorem totals_of_run (hk : TakesValid k) (h : TotalsAgree k s) {msgs : List Msg}
    (hrun : msgs.foldlM (deliverTx k) s = .ok s') :
    TotalsAgree k s' ∧ ∀ o ∈ s'.operators.rows, ∀ amount, Coins.Tidy amount →
      (∀ d, amount.amountOf d ≤ o.collateral.amountOf d) →
      ∃ s'', s'.reduceTotalCollateral amount = .ok s'' := by
  have hend := foldlM_invariant (P := TotalsAgree k)
    (fun _ _ _ _ h hs => deliverTx_totals hk h hs) h hrun
  exact ⟨hend, fun o ho amount hamount hheld =>
    hend.reduceTotalCollateral_succeeds ho hamount hheld⟩

lemma takesValid_openKeepers : TakesValid openKeepers :=
  fun h => (Option.ite_none_right_eq_some.mp h).1

/-- An operator puts in 100 in two denominations and takes 10 of them out, with the coins in any
order. -/
theorem totals_of_unordered_reduction :
    ∃ s, [Msg.createOperator [1] [⟨"aaa", 100⟩, ⟨"uctk", 100⟩] [1] "",
        .reduceCollateral [1] [⟨"uctk", 10⟩, ⟨"aaa", 0⟩]].foldlM (deliverTx openKeepers)
          (State.start 100 30) = .ok s ∧ TotalsAgree openKeepers s := by
  obtain ⟨s, hs⟩ : ∃ a, [Msg.createOperator [1] [⟨"aaa", 100⟩, ⟨"uctk", 100⟩] [1] "",
        .reduceCollateral [1] [⟨"uctk", 10⟩, ⟨"aaa", 0⟩]].foldlM (deliverTx openKeepers)
        (State.start 100 30) = .ok a := by
    decide +kernel
  have hstart : TotalsAgree openKeepers (State.start 100 30) :=
    ⟨⟨[], rfl, by decide, fun _ => rfl⟩, by simp [State.start], by simp [State.start]⟩
  exact ⟨s, hs, (totals_of_run takesValid_openKeepers hstart hs).1⟩

end Shentu.Oracle
