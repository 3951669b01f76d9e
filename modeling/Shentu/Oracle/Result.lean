import Shentu.Oracle.EndBlocker

/-!
The result of an aggregation, compared with what it is meant to be: the lowest score if the
operators that gave it hold a third of the collateral, and otherwise the average of the scores,
weighted with the collateral. The code adds a parameter to the average, and where the lowest score
is meant it stores the collateral behind it.
-/

namespace Shentu.Oracle

open Lib List Table Int

variable {σ : Type}

variable (s : State σ)

/-- The collateral that a response is counted with, which is none if its operator is not found. -/
def countedCollateral (r : Response) : Int :=
  (s.getCollateralAmount r.operator).toOption.getD 0

variable (rs : List Response)

def totalCollateralOf : Int := (rs.map (countedCollateral s)).sum

/-- The collateral behind the lowest score. -/
def minScoreCollateralOf : Int :=
  (rs.map (fun r => if r.score = minScore then countedCollateral s r else 0)).sum

def weightedScores : Int :=
  (rs.map (fun r => r.score * countedCollateral s r)).sum

/-- A score is on the side of a result. -/
def Agrees (p : TaskParams) (result score : Int) : Prop :=
  if result = minScore then score = minScore
  else if result < p.thresholdScore then score < p.thresholdScore
  else p.thresholdScore ≤ score

/-- A task is aggregated to the result that its responses ask for, and the bounty then goes to
operators whose answers agree with it. -/
def AggregatesRight (c : TaskState σ) (contract function : List Byte) (t : Task) : Prop :=
  ∃ c' t', c.aggregate contract function = .ok c' ∧ c'.getTask contract function = some t' ∧
    (minScore ≤ t'.result ∧ t'.result ≤ maxScore) ∧
    (totalCollateralOf c.toState t.responses ≤ minScoreCollateralOf c.toState t.responses * 3 →
      t'.result = minScore) ∧
    (minScoreCollateralOf c.toState t.responses * 3 < totalCollateralOf c.toState t.responses →
      t'.result = (weightedScores c.toState t.responses).tdiv
        (totalCollateralOf c.toState t.responses)) ∧
    ∀ c'', c'.distributeBounty t' = .ok c'' → ∀ a, c''.operators.get a ≠ c'.operators.get a →
      ∃ r ∈ t'.responses, r.operator = a ∧ Agrees c.taskParams t'.result r.score

/-- The parameter that the sum starts from does not change the truncated average. -/
def AverageKept (start weighted total : Int) : Prop :=
  weighted % total + start < total ∧
    (0 ≤ weighted % total + start ∨ weighted < total ∧ -total < weighted + start)

instance (start weighted total : Int) : Decidable (AverageKept start weighted total) :=
  inferInstanceAs (Decidable (_ ∧ (_ ∨ _ ∧ _)))

lemma ediv_eq_zero_iff {x total : Int} (htotal : 0 < total) :
    x / total = 0 ↔ 0 ≤ x ∧ x < total := by
  constructor
  · intro h
    have hsplit := emod_add_mul_ediv x total
    rw [h, mul_zero, add_zero] at hsplit
    exact ⟨hsplit ▸ emod_nonneg x htotal.ne', hsplit ▸ emod_lt_of_pos x htotal⟩
  · rintro ⟨hnonneg, hlt⟩
    exact ediv_eq_zero_of_lt hnonneg hlt

lemma averageKept_iff {start weighted total : Int} (hweighted : 0 ≤ weighted) (htotal : 0 < total)
    : (start + weighted).tdiv total = weighted.tdiv total ↔ AverageKept start weighted total := by
  have hsplit := emod_add_mul_ediv weighted total
  have hmod := emod_nonneg weighted htotal.ne'
  have hquo : 0 ≤ weighted / total := ediv_nonneg hweighted htotal.le
  have hmul : 0 ≤ total * (weighted / total) := mul_nonneg htotal.le hquo
  have hzero := ediv_eq_zero_iff htotal (x := weighted)
  rw [tdiv_eq_ediv_of_nonneg hweighted]
  rcases le_or_gt 0 (start + weighted) with hpos | hneg
  · have hshift : (start + weighted) / total = (weighted % total + start) / total +
        weighted / total := by
      rw [← add_mul_ediv_left _ _ htotal.ne']
      congr 1
      omega
    rw [tdiv_eq_ediv_of_nonneg hpos, hshift, add_eq_right, ediv_eq_zero_iff htotal]
    constructor
    · exact fun h => ⟨h.2, .inl h.1⟩
    · rintro ⟨hlt, hle | ⟨hsmall, -⟩⟩
      · exact ⟨hle, hlt⟩
      · have hnone := hzero.mpr ⟨hweighted, hsmall⟩
        rw [hnone, mul_zero] at hsplit
        exact ⟨by omega, hlt⟩
  · have hneg' : (start + weighted).tdiv total = -((-(start + weighted)) / total) := by
      rw [← tdiv_eq_ediv_of_nonneg (by omega), Int.neg_tdiv, neg_neg]
    have hnonneg : 0 ≤ (-(start + weighted)) / total := ediv_nonneg (by omega) htotal.le
    have hboth : -((-(start + weighted)) / total) = weighted / total ↔
        (-(start + weighted)) / total = 0 ∧ weighted / total = 0 := by omega
    rw [hneg', hboth, ediv_eq_zero_iff htotal, hzero]
    constructor
    · rintro ⟨⟨-, hsum⟩, -, hsmall⟩
      exact ⟨by omega, .inr ⟨hsmall, by omega⟩⟩
    · rintro ⟨-, hle | ⟨hsmall, hsum⟩⟩
      · omega
      · exact ⟨⟨by omega, by omega⟩, hweighted, hsmall⟩

section Sums

variable {s : State σ} {acc acc' : Aggregation}

lemma countResponse_sums {r : Response} (h : countResponse s acc r = .ok acc') :
    acc'.result = acc.result + r.score * countedCollateral s r ∧
      acc'.totalCollateral = acc.totalCollateral + countedCollateral s r ∧
      acc'.minScoreCollateral = acc.minScoreCollateral +
        if r.score = minScore then countedCollateral s r else 0 := by
  simp only [countResponse, bind_eq_ok] at h
  obtain ⟨o, ho, h⟩ := h
  cases o with
  | none =>
    obtain ⟨e, herror⟩ := unlessError_eq_none.mp ho
    cases h
    simp [countedCollateral, herror, Except.toOption]
  | some amount =>
    have hamount : countedCollateral s r = amount := by
      simp [countedCollateral, unlessError_eq_some.mp ho, Except.toOption]
    cases h
    refine ⟨by rw [hamount], by rw [hamount], ?_⟩
    split <;> simp [hamount]

lemma countResponses_sums {rs : List Response} (h : rs.foldlM (countResponse s) acc = .ok acc') :
    acc'.result = acc.result + weightedScores s rs ∧
      acc'.totalCollateral = acc.totalCollateral + totalCollateralOf s rs ∧
      acc'.minScoreCollateral = acc.minScoreCollateral + minScoreCollateralOf s rs := by
  induction rs generalizing acc with
  | nil =>
    cases h
    simp [weightedScores, totalCollateralOf, minScoreCollateralOf]
  | cons r rs ih =>
    obtain ⟨acc1, hfirst, hrest⟩ := foldlM_cons_eq_ok.mp h
    obtain ⟨hresult, htotal, hmin⟩ := countResponse_sums hfirst
    obtain ⟨hresult', htotal', hmin'⟩ := ih hrest
    rw [hresult', htotal', hmin', hresult, htotal, hmin]
    simp only [weightedScores, totalCollateralOf, minScoreCollateralOf, map_cons,
      sum_cons, add_assoc, and_self]

lemma countedCollateral_nonneg (h : CollateralFilled s) (r : Response) :
    0 ≤ countedCollateral s r := by
  unfold countedCollateral
  cases hget : s.getCollateralAmount r.operator with
  | error f => simp [Except.toOption]
  | ok amount =>
    simp only [State.getCollateralAmount, run_eq_ok] at hget
    obtain ⟨o, ho, coin, hcoin, rfl⟩ := hget
    exact ((h o (mem_of_get ho)).1 coin (mem_of_head? hcoin)).le

lemma weightedScores_bounds (h : CollateralFilled s) {rs : List Response}
    (hscores : ∀ r ∈ rs, minScore ≤ r.score ∧ r.score ≤ maxScore) :
    0 ≤ weightedScores s rs ∧ weightedScores s rs ≤ maxScore * totalCollateralOf s rs := by
  unfold weightedScores totalCollateralOf
  rw [← sum_map_mul_left]
  constructor
  · refine sum_nonneg (forall_mem_map.mpr ?_)
    intro r hr
    exact mul_nonneg (hscores r hr).1 (countedCollateral_nonneg h r)
  · refine sum_le_sum ?_
    intro r hr
    exact mul_le_mul_of_nonneg_right (hscores r hr).2 (countedCollateral_nonneg h r)

end Sums

section Rewarded

variable {s s' : State σ} {sc : Scoring} {total : Int} {bounty : Coin} {a : Address}

/-- A payment changes the operator of a response that counts. -/
lemma payResponse_others {r r' : Response} (ha : sc.counts r = true → r.operator ≠ a)
    (h : payResponse sc total bounty s r = .ok (s', r')) :
    s'.operators.get a = s.operators.get a ∧ SameResponse r r' := by
  unfold payResponse at h
  split at h
  · rename_i hcounts
    obtain ⟨o, -, h⟩ := bind_eq_ok.mp h
    cases o with
    | none =>
      cases h
      exact ⟨rfl, rfl, rfl⟩
    | some collateral =>
      simp only [bind_eq_ok] at h
      obtain ⟨_, -, _, -, _, -, o', hreward, h⟩ := h
      cases o' with
      | none =>
        cases h
        exact ⟨rfl, rfl, rfl⟩
      | some s1 =>
        cases h
        have hadded := unlessError_eq_some.mp hreward
        simp only [State.addReward, run_eq_ok] at hadded
        obtain ⟨o, hget, rfl⟩ := hadded
        have hkey : o.address = r.operator := key_of_get hget
        refine ⟨get_set_of_ne _ ?_, rfl, rfl⟩
        exact (hkey.trans_ne (ha hcounts)).symm
  · cases h
    exact ⟨rfl, rfl, rfl⟩

lemma payResponses_others {rs rs' : List Response}
    (ha : ∀ r ∈ rs, sc.counts r = true → r.operator ≠ a)
    (h : payResponses sc total bounty s rs = .ok (s', rs')) :
    s'.operators.get a = s.operators.get a ∧ SameResponses rs rs' := by
  induction rs generalizing s rs' with
  | nil =>
    cases h
    exact ⟨rfl, List.Forall₂.nil⟩
  | cons r rs ih =>
    obtain ⟨hr, hrs⟩ := forall_mem_cons.mp ha
    simp only [payResponses, run_eq_ok, Prod.exists] at h
    obtain ⟨s1, r1, hfirst, s2, rs1, hrest, h⟩ := h
    cases h
    obtain ⟨hsame, hfirst⟩ := payResponse_others hr hfirst
    obtain ⟨hsame', hrest⟩ := ih hrs hrest
    exact ⟨hsame'.trans hsame, List.Forall₂.cons hfirst hrest⟩

/-- A distribution changes operators of responses that count. -/
lemma distributeBounty_others {c c' : TaskState σ} {t : Task}
    (ha : ∀ r ∈ t.responses, (scoring c.taskParams t).counts r = true → r.operator ≠ a)
    (h : c.distributeBounty t = .ok c') : c'.operators.get a = c.operators.get a := by
  have hsc := readsScore_scoring c.taskParams t
  simp only [TaskState.distributeBounty, bind_eq_ok, Prod.exists, pure_eq_ok] at h
  obtain ⟨total, -, _, -, s, rs, hpay, rfl⟩ := h
  have hloop := foldlM_invariant (P := fun acc : State σ × List Response =>
    acc.1.operators.get a = c.operators.get a ∧ SameResponses t.responses acc.2) ?_
    ⟨rfl, SameResponses.refl _⟩ hpay
  · exact hloop.1
  · rintro bounty - ⟨s1, rs1⟩ ⟨s2, rs2⟩ ⟨hsame, hrs⟩ hstep
    have ha1 : ∀ r ∈ rs1, (scoring c.taskParams t).counts r = true → r.operator ≠ a := by
      intro r hr hcounts
      obtain ⟨r0, hr0, hr'⟩ := hrs.mem hr
      exact hr'.1 ▸ ha r0 hr0 ((hsc.counts hr').symm.trans hcounts)
    obtain ⟨hsame', hrs'⟩ := payResponses_others ha1 hstep
    exact ⟨hsame'.trans hsame, hrs.trans hrs'⟩

lemma agrees_of_counts {p : TaskParams} {t : Task} {r : Response}
    (h : (scoring p t).counts r = true) : Agrees p t.result r.score := by
  unfold scoring at h
  unfold Agrees
  split at h
  · simpa [*] using h
  · split at h <;> simpa [*] using h

end Rewarded

section Result

variable {c : TaskState σ} {contract function : List Byte} {t : Task}

/-- What an aggregation stores. -/
lemma aggregate_stores (hget : c.getTask contract function = some t)
    (hpending : t.status = .pending) (hfilled : CollateralFilled c.toState) :
    ∃ acc c', t.responses.foldlM (countResponse c.toState)
        ⟨c.taskParams.aggregationResult, 0, 0, []⟩ = .ok acc ∧
      c.aggregate contract function = .ok c' ∧ c'.taskParams = c.taskParams ∧
      c'.getTask contract function = some (acc.close t) := by
  obtain ⟨o, ho⟩ := aggregate_succeeds hfilled contract function
  cases o with
  | none => exact absurd ho (aggregate_no_error hget hpending)
  | some c' =>
    have haggregate := unlessError_eq_some.mp ho
    have hstored := haggregate
    rw [aggregate_of_pending hget hpending, bind_eq_ok] at hstored
    obtain ⟨acc, hacc, hset⟩ := hstored
    cases hset
    refine ⟨acc, _, hacc, haggregate, rfl, ?_⟩
    obtain ⟨rs, hrs, heq⟩ := countResponse_fold hacc
    rw [nil_append] at heq
    have hkey : (acc.close t).storeKey = taskStoreKey contract function :=
      (close_closed (heq ▸ hrs)).storeKey.trans (key_of_get hget)
    rw [TaskState.getTask, ← hkey]
    exact get_set_self _ _

/-- The result is the right one if and only if less than a third of the collateral is behind the
lowest score and the parameter does not change the average. -/
theorem aggregatesRight_iff (hget : c.getTask contract function = some t)
    (hpending : t.status = .pending)
    (hscores : ∀ r ∈ t.responses, minScore ≤ r.score ∧ r.score ≤ maxScore)
    (hfilled : CollateralFilled c.toState) (hpos : 0 < totalCollateralOf c.toState t.responses) :
    AggregatesRight c contract function t ↔
      minScoreCollateralOf c.toState t.responses * 3 <
          totalCollateralOf c.toState t.responses ∧
        AverageKept c.taskParams.aggregationResult (weightedScores c.toState t.responses)
          (totalCollateralOf c.toState t.responses) := by
  obtain ⟨acc, c', hacc, haggregate, hparams, hstored⟩ :=
    aggregate_stores hget hpending hfilled
  obtain ⟨hresult, htotal, hmin⟩ := countResponses_sums hacc
  obtain ⟨hnonneg, hle⟩ := weightedScores_bounds hfilled hscores
  rw [zero_add] at htotal hmin
  rw [← averageKept_iff hnonneg hpos]
  have hclosed : (acc.close t).result = if totalCollateralOf c.toState t.responses ≤
          minScoreCollateralOf c.toState t.responses * 3 then
        minScoreCollateralOf c.toState t.responses
      else (c.taskParams.aggregationResult + weightedScores c.toState t.responses).tdiv
        (totalCollateralOf c.toState t.responses) := by
    unfold Aggregation.close
    rw [htotal, hmin, hresult, if_pos hpos]
    split <;> rfl
  constructor
  · rintro ⟨c₁, t', haggregate₁, hstored₁, -, hlow, haverage, -⟩
    cases haggregate.symm.trans haggregate₁
    cases hstored.symm.trans hstored₁
    rcases lt_or_ge (minScoreCollateralOf c.toState t.responses * 3)
      (totalCollateralOf c.toState t.responses) with hfew | hmany
    · rw [if_neg (not_le.mpr hfew)] at hclosed
      exact ⟨hfew, hclosed.symm.trans (haverage hfew)⟩
    · -- The collateral behind the lowest score is positive, and it is stored as the result.
      rw [if_pos hmany, hlow hmany] at hclosed
      unfold minScore at hclosed
      omega
  · rintro ⟨hfew, hsame⟩
    rw [if_neg (not_le.mpr hfew), hsame] at hclosed
    refine ⟨c', acc.close t, haggregate, hstored, ?_, fun hmany => absurd hmany (not_le.mpr hfew),
      fun _ => hclosed, ?_⟩
    · rw [hclosed, tdiv_eq_ediv_of_nonneg hnonneg]
      exact ⟨ediv_nonneg hnonneg hpos.le, Int.ediv_le_of_le_mul hpos hle⟩
    · intro c'' hpay a hchanged
      by_contra hnone
      push Not at hnone
      refine hchanged (distributeBounty_others ?_ hpay)
      intro r hr hcounts hop
      exact hnone r hr hop (hparams ▸ agrees_of_counts hcounts)

end Result

/-- Of 400 coins, 100 answer 0 and 300 answer 20: the result is 15. -/
theorem aggregatesRight_two_answers :
    ∃ c t, TaskState.run vaultKeepers vaultStart (twoAnswers [⟨"uctk", 100⟩]) = .ok c ∧
      c.getTask [7] [8] = some t ∧ AggregatesRight c [7] [8] t := by
  obtain ⟨c, hc, t, ht, hpending, hscores, hfilled, hpos, hfew, hkept⟩ :
      ∃ c, TaskState.run vaultKeepers vaultStart (twoAnswers [⟨"uctk", 100⟩]) = .ok c ∧
      ∃ t, c.getTask [7] [8] = some t ∧ t.status = .pending ∧
      (∀ r ∈ t.responses, minScore ≤ r.score ∧ r.score ≤ maxScore) ∧
      (∀ o ∈ c.operators.rows, (∀ coin ∈ o.collateral, 0 < coin.amount) ∧ o.collateral ≠ []) ∧
      0 < totalCollateralOf c.toState t.responses ∧
      minScoreCollateralOf c.toState t.responses * 3 < totalCollateralOf c.toState t.responses ∧
      AverageKept c.taskParams.aggregationResult (weightedScores c.toState t.responses)
        (totalCollateralOf c.toState t.responses) := by
    decide +kernel
  exact ⟨c, t, hc, ht, (aggregatesRight_iff ht hpending hscores hfilled hpos).mpr ⟨hfew, hkept⟩⟩

/-- Of 500 coins, 200 answer 0 and 300 answer 20: the result is 200, above the highest score, and
the bounty does not go to the operator that answered 0. -/
theorem aggregation_stores_collateral :
    ∃ c c', TaskState.run vaultKeepers vaultStart (twoAnswers [⟨"uctk", 200⟩]) = .ok c ∧
      c.aggregate [7] [8] = .ok c' ∧
      ∃ t', c'.getTask [7] [8] = some t' ∧ t'.result = 200 ∧ maxScore < t'.result ∧
        ∀ r ∈ t'.responses, (scoring c'.taskParams t').counts r = false := by
  simp only [exists_and_left]
  decide +kernel

end Shentu.Oracle
