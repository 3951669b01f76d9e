import Shentu.Oracle.PoolMoves
import Shentu.Oracle.SolventRuns

/-!
When the end blocker of the oracle module returns. Its divisors are the distance of a score
from the end of the scale plus a parameter, and the weight of an operator is the first coin of
the collateral. Both may be missing under parameters that pass validation, so that the chain
stops: an operator without coins, or an answer at an end of the scale with no parameter added.
-/

namespace Shentu.Oracle

open Lib Table Coins

variable {σ : Type} {k : Keepers σ}

/-- Every operator has coins, all of positive amount. -/
def CollateralFilled (s : State σ) : Prop :=
  ∀ o ∈ s.operators.rows, Coins.pos o.collateral ∧ o.collateral ≠ []

/-- The divisors that the response of a task meets are not zero. -/
def DivisorsNonzero (p : TaskParams) (r : Response) : Prop :=
  (r.score < p.thresholdScore → r.score + p.epsilon1 ≠ 0) ∧
    (p.thresholdScore ≤ r.score → maxScore - r.score + p.epsilon2 ≠ 0)

instance (p : TaskParams) (r : Response) : Decidable (DivisorsNonzero p r) := by
  unfold DivisorsNonzero
  infer_instance

/-- The responses to the pending tasks on a list meet no divisor that is zero. -/
def DueDivisible (c : TaskState σ) (ids : List TaskID) : Prop :=
  ∀ id ∈ ids, ∀ t ∈ c.getTask id.contract id.function, t.status = .pending →
    ∀ r ∈ t.responses, DivisorsNonzero c.taskParams r

instance (c : TaskState σ) (ids : List TaskID) : Decidable (DueDivisible c ids) := by
  unfold DueDivisible
  infer_instance

/-- A message leaves an operator with coins, and an end blocker meets no divisor that is zero. -/
def KeepsDivisible (c : TaskState σ) : Action σ → Prop
  | .tx (.createOperator _ collateral _ _) =>
    0 < c.poolParams.minimumCollateral ∨ collateral ≠ []
  | .tx (.reduceCollateral address decrement) => 0 < c.poolParams.minimumCollateral ∨
      ∀ o ∈ c.operators.get address, o.collateral.sub decrement ≠ some []
  | .endBlock => DueDivisible c (c.getClosingTaskIDs c.height)
  | _ => True

instance (c : TaskState σ) (a : Action σ) : Decidable (KeepsDivisible c a) := by
  unfold KeepsDivisible
  induction a using Action.casesOn with
  | tx msg => induction msg using OracleMsg.casesOn <;> infer_instance
  | _ => infer_instance

section Collateral

variable {s s' : State σ}

lemma ne_nil_of_not_below {coins : Coins} (hmin : 0 < s.poolParams.minimumCollateral)
    (h : ¬ s.isBelowMinCollateral k coins) : coins ≠ [] := by
  rintro rfl
  exact h hmin

lemma RewardsOnly.filled (h : RewardsOnly s s') (hs : CollateralFilled s) :
    CollateralFilled s' := by
  intro o' ho'
  obtain ⟨o, ho, heq⟩ := h.mem ho'
  rw [heq]
  exact hs o ho

lemma getCollateralAmount_succeeds (h : CollateralFilled s) (a : Address) :
    ∃ o, unlessError (s.getCollateralAmount a) = .ok o := by
  cases hget : s.operators.get a with
  | none =>
    refine ⟨none, unlessError_eq_none.mpr ⟨.noOperatorFound, ?_⟩⟩
    simp [State.getCollateralAmount, hget, orFail, bind, Except.bind]
  | some o =>
    obtain ⟨coin, rest, hcoins⟩ := List.exists_cons_of_ne_nil (h o (mem_of_get hget)).2
    refine ⟨some coin.amount, unlessError_eq_some.mpr ?_⟩
    simp only [State.getCollateralAmount, run_eq_ok]
    exact ⟨o, hget, coin, by rw [hcoins]; rfl, rfl⟩

end Collateral

section Actions

variable {c c' : TaskState σ} {a : Action σ}

lemma Written.filled (hk : TakesValid k) (h : CollateralFilled c.toState) (ha : KeepsDivisible c a)
    {o : Operator} (ho : Written k c a o) : Coins.pos o.collateral ∧ o.collateral ≠ [] := by
  cases ho with
  | create hsend hmin =>
    exact ⟨pos_of_isValid (hk hsend), ha.elim (fun hpos => ne_nil_of_not_below hpos hmin) id⟩
  | add ho hsend =>
    obtain ⟨hpos, hne⟩ := h _ (mem_of_get ho)
    have hcoins := pos_of_isValid (hk hsend)
    exact ⟨pos_add hpos hcoins, add_ne_nil hpos hne hcoins⟩
  | reduce ho hsub hmin =>
    refine ⟨pos_sub hsub, ?_⟩
    rcases ha with hpos | hcoins
    · exact ne_nil_of_not_below hpos hmin
    · rintro rfl
      exact hcoins _ ho hsub
  | withdrawReward ho =>
    have hfilled := h _ (mem_of_get ho)
    exact hfilled

lemma exec_filled (hk : TakesValid k) (h : CollateralFilled c.toState) (ha : KeepsDivisible c a)
    (hexec : c.exec k a = .ok c') : CollateralFilled c'.toState := by
  refine reflTransGen_invariant ?_ (exec_poolMoves hexec) h
  intro s s' hs hmove
  cases hmove with
  | rows hoperators => exact fun o ho => (hoperators o ho).elim (hs o) (Written.filled hk h ha)
  | credit honly => exact honly.filled hs

end Actions

section Success

variable {s : State σ} {p : TaskParams}

lemma countResponse_succeeds (h : CollateralFilled s) (acc : Aggregation) (r : Response) :
    ∃ acc', countResponse s acc r = .ok acc' := by
  obtain ⟨o, ho⟩ := getCollateralAmount_succeeds h r.operator
  cases o <;> simp [countResponse, ho]

variable {r : Response}

lemma weight_succeeds {t : Task} (hr : DivisorsNonzero p r)
    (hcounts : (scoring p t).counts r = true) (collateral : Int) :
    ∃ w, (scoring p t).weight r collateral = .ok w := by
  unfold scoring at hcounts ⊢
  split
  · exact ⟨collateral, rfl⟩
  · rename_i hzero
    rw [if_neg hzero] at hcounts
    split
    · rename_i hbelow
      rw [if_pos hbelow] at hcounts
      exact ⟨_, quo_eq_ok.mpr ⟨hr.1 (of_decide_eq_true hcounts), rfl⟩⟩
    · rename_i hbelow
      rw [if_neg hbelow] at hcounts
      exact ⟨_, quo_eq_ok.mpr ⟨hr.2 (of_decide_eq_true hcounts), rfl⟩⟩

lemma weightOf_succeeds {t : Task} (h : CollateralFilled s)
    (hr : DivisorsNonzero p r) : ∃ w, weightOf (scoring p t) s r = .ok w := by
  unfold weightOf
  cases hcounts : (scoring p t).counts r with
  | false => exact ⟨0, rfl⟩
  | true =>
    obtain ⟨o, ho⟩ := getCollateralAmount_succeeds h r.operator
    cases o with
    | none => exact ⟨0, by simp [ho]⟩
    | some collateral =>
      obtain ⟨w, hw⟩ := weight_succeeds hr hcounts collateral
      exact ⟨w, by simp [ho, hw]⟩

lemma totalValidTaskCollateral_succeeds {t : Task} (h : CollateralFilled s)
    (hrs : ∀ r ∈ t.responses, DivisorsNonzero p r) :
    ∃ total, totalValidTaskCollateral (scoring p t) s t = .ok total := by
  have hstep : ∀ r total, True → DivisorsNonzero p r →
      ∃ total', addValidCollateral (scoring p t) s total r = .ok total' ∧ True := by
    intro r total _ hr
    obtain ⟨w, hw⟩ := weightOf_succeeds (t := t) h hr
    exact ⟨total + w, by simp [addValidCollateral_eq, hw], trivial⟩
  obtain ⟨total, htotal, -⟩ := foldlM_succeeds hstep trivial (stepsMeet_of_forall _ 0 hrs)
  exact ⟨total, htotal⟩

variable {sc : Scoring} {total : Int} {bounty : Coin}

/-- A response with a weight is paid. -/
lemma payResponse_succeeds {w : Int} (hw : weightOf sc s r = .ok w)
    (hnonneg : 0 ≤ w) (htotal : 0 < total) (hbounty : 0 ≤ bounty.amount) :
    ∃ s' r', payResponse sc total bounty s r = .ok (s', r') := by
  have hshare : 0 ≤ (bounty.amount * w).tdiv total :=
    Int.tdiv_nonneg (mul_nonneg hbounty hnonneg) htotal.le
  unfold weightOf at hw
  cases hcounts : sc.counts r with
  | false => exact ⟨s, r, by simp [payResponse, hcounts]⟩
  | true =>
    simp only [hcounts, if_true, bind_eq_ok] at hw
    obtain ⟨o, ho, hw⟩ := hw
    cases o with
    | none => exact ⟨s, r, by simp [payResponse, hcounts, ho]⟩
    | some collateral =>
      have hamount : quo (bounty.amount * w) total = .ok ((bounty.amount * w).tdiv total) :=
        quo_eq_ok.mpr ⟨htotal.ne', rfl⟩
      have hoperator := unlessError_eq_some.mp ho
      simp only [State.getCollateralAmount, run_eq_ok] at hoperator
      obtain ⟨operator, hoperator, -⟩ := hoperator
      have hreward : ∀ coins, ∃ s', s.addReward r.operator coins = .ok s' := by
        intro coins
        simp only [State.addReward, run_eq_ok]
        exact ⟨_, operator, hoperator, rfl⟩
      let reward := Coins.ofAmount (sc.denom bounty) ((bounty.amount * w).tdiv total)
      obtain ⟨s', hs'⟩ := hreward reward
      refine ⟨s', { r with reward := reward }, ?_⟩
      simp only [payResponse, hcounts, if_true, bind_eq_ok]
      refine ⟨some collateral, ho, ?_⟩
      simp only [bind_eq_ok]
      exact ⟨w, hw, _, hamount, (), failIf_eq_ok.mpr (not_lt.mpr hshare), some s',
        unlessError_eq_some.mpr hs', rfl⟩

lemma payResponses_succeeds (hsc : ReadsScore sc) {rs : List Response} {ws : List Int}
    (hws : Weights sc s rs ws) (hnonneg : ∀ w ∈ ws, 0 ≤ w) (htotal : 0 < total)
    (hbounty : 0 ≤ bounty.amount) :
    ∃ s' rs', payResponses sc total bounty s rs = .ok (s', rs') := by
  induction rs generalizing s ws with
  | nil => exact ⟨s, [], rfl⟩
  | cons r rs ih =>
    cases hws with
    | cons hw hws =>
      obtain ⟨hw0, hnonneg⟩ := List.forall_mem_cons.mp hnonneg
      obtain ⟨s1, r1, hfirst⟩ := payResponse_succeeds hw hw0 htotal hbounty
      have honly := (payResponse_cases hw hfirst).1.rewardsOnly
      obtain ⟨s2, rs2, hrest⟩ :=
        ih (.congr hsc honly (.refl rs) hws) hnonneg
      exact ⟨s2, r1 :: rs2, by simp [payResponses, hfirst, hrest]⟩

lemma payBounty_succeeds (hsc : ReadsScore sc) {bounties : Coins} {rs : List Response}
    {ws : List Int} (hws : Weights sc s rs ws) (hnonneg : ∀ w ∈ ws, 0 ≤ w) (htotal : 0 < total)
    (hbounties : Coins.nonneg bounties) :
    ∃ s' rs', bounties.foldlM (payBounty sc total) (s, rs) = .ok (s', rs') := by
  induction bounties generalizing s rs with
  | nil => exact ⟨s, rs, rfl⟩
  | cons b bounties ih =>
    obtain ⟨hb, hbounties⟩ := List.forall_mem_cons.mp hbounties
    obtain ⟨s1, rs1, hfirst⟩ := payResponses_succeeds hsc hws hnonneg htotal hb
    obtain ⟨hpaid, hrs⟩ := payResponses_cases hsc hws hfirst
    obtain ⟨s2, rs2, hrest⟩ := ih (hws.congr hsc hpaid.rewardsOnly hrs) hbounties
    exact ⟨s2, rs2, foldlM_cons_eq_ok.mpr ⟨(s1, rs1), hfirst, hrest⟩⟩

end Success

section Close

variable {c : TaskState σ}

lemma aggregate_succeeds (h : CollateralFilled c.toState) (contract function : List Byte) :
    ∃ o, unlessError (c.aggregate contract function) = .ok o := by
  cases hget : c.getTask contract function with
  | none =>
    refine ⟨none, unlessError_eq_none.mpr ⟨.taskNotExists, ?_⟩⟩
    simp [TaskState.aggregate, hget, orFail, bind, Except.bind]
  | some t =>
    by_cases hpending : t.status = .pending
    · have hstep : ∀ (r : Response) acc, True → True →
          ∃ acc', countResponse c.toState acc r = .ok acc' ∧ True := by
        intro r acc _ _
        obtain ⟨acc', hcount⟩ := countResponse_succeeds h acc r
        exact ⟨acc', hcount, trivial⟩
      obtain ⟨acc, hacc, -⟩ := foldlM_succeeds hstep trivial
        (stepsMeet_of_forall _ _ (fun r (_ : r ∈ t.responses) => trivial))
      refine ⟨some (c.setTask (acc.close t)), unlessError_eq_some.mpr ?_⟩
      rw [aggregate_of_pending hget hpending, hacc]
      rfl
    · refine ⟨none, unlessError_eq_none.mpr ⟨.taskClosed, ?_⟩⟩
      simp [TaskState.aggregate, hget, orFail, failIf, hpending, bind, Except.bind]

lemma distributeBounty_succeeds (hc : OracleSound c) (hfilled : CollateralFilled c.toState)
    {t : Task} (ht : t ∈ c.tasks.rows) (hrs : ∀ r ∈ t.responses, DivisorsNonzero c.taskParams r) :
    ∃ o, unlessError (c.distributeBounty t) = .ok o := by
  obtain ⟨total, htotal⟩ := totalValidTaskCollateral_succeeds (t := t) hfilled hrs
  obtain ⟨ws, hws, rfl⟩ := totalValidTaskCollateral_eq htotal
  have hnonneg := weights_nonneg hc.tasks.params hc.amounts (hc.tasks.scores t ht) hws
  by_cases hzero : ws.sum = 0
  · refine ⟨none, unlessError_eq_none.mpr ⟨.taskFailed, ?_⟩⟩
    simp only [TaskState.distributeBounty, htotal]
    rw [hzero]
    rfl
  · have hpos : 0 < ws.sum := lt_of_le_of_ne (List.sum_nonneg hnonneg) (Ne.symm hzero)
    obtain ⟨s, rs, hpay⟩ := payBounty_succeeds (readsScore_scoring c.taskParams t) hws hnonneg hpos
      (nonneg_of_isValid (hc.tasks.bounty t ht))
    have hdistribute : ∃ c', c.distributeBounty t = .ok c' := by
      simp only [TaskState.distributeBounty, run_eq_ok, Prod.exists]
      exact ⟨_, ws.sum, htotal, hzero, s, rs, hpay, rfl⟩
    obtain ⟨c', hc'⟩ := hdistribute
    exact ⟨some c', unlessError_eq_some.mpr hc'⟩

lemma Closed.divisible {t t' : Task} (h : Closed t t') {p : TaskParams}
    (hrs : ∀ r ∈ t.responses, DivisorsNonzero p r) : ∀ r ∈ t'.responses, DivisorsNonzero p r := by
  intro r' hr'
  obtain ⟨r, hr, hsame⟩ := h.responses.mem hr'
  rw [DivisorsNonzero, hsame.2]
  exact hrs r hr

lemma closeTask_succeeds (hc : OracleSound c) (hfilled : CollateralFilled c.toState) {id : TaskID}
    (hdue : ∀ t ∈ c.getTask id.contract id.function, t.status = .pending →
      ∀ r ∈ t.responses, DivisorsNonzero c.taskParams r) : ∃ c', c.closeTask id = .ok c' := by
  obtain ⟨o, ho⟩ := aggregate_succeeds hfilled id.contract id.function
  cases o with
  | none => exact ⟨c, by simp [TaskState.closeTask, ho]⟩
  | some c1 =>
    obtain ⟨t, t1, hget, hpending, hclosed, rfl⟩ := aggregate_cases (unlessError_eq_some.mp ho)
    have ht := mem_of_get hget
    have hsound : OracleSound (c.setTask t1) :=
      ⟨hc.amounts, hc.tasks.set (hclosed.bounty ▸ hc.tasks.bounty t ht)
        (hclosed.scores (hc.tasks.scores t ht)) rfl rfl⟩
    obtain ⟨o, ho'⟩ := distributeBounty_succeeds hsound hfilled (t := t1)
      (mem_set.mpr (.inl rfl)) (hclosed.divisible (hdue t hget hpending))
    have hkey : t1.storeKey = taskStoreKey id.contract id.function :=
      hclosed.storeKey.trans (key_of_get hget)
    have hget1 : (c.setTask t1).getTask id.contract id.function = some t1 := by
      rw [TaskState.getTask, ← hkey]
      exact get_set_self _ _
    cases o with
    | none => exact ⟨c.setTask t1, by simp [TaskState.closeTask, ho, hget1, ho']⟩
    | some c2 => exact ⟨c2, by simp [TaskState.closeTask, ho, hget1, ho']⟩

lemma DueDivisible.closeTask {c' : TaskState σ} {ids : List TaskID} (h : DueDivisible c ids)
    {id : TaskID} (hclose : c.closeTask id = .ok c') : DueDivisible c' ids := by
  intro id' hid' t ht hpending
  obtain ⟨hget, hparams⟩ := pending_of_closeTask hclose ht hpending
  exact hparams ▸ h id' hid' t hget hpending

lemma endBlocker_succeeds (hc : OracleSound c) (hfilled : CollateralFilled c.toState)
    (hdue : DueDivisible c (c.getClosingTaskIDs c.height)) : ∃ c', c.endBlocker = .ok c' := by
  have hstep : ∀ (id : TaskID) (c1 : TaskState σ), (OracleSound c1 ∧ CollateralFilled c1.toState ∧
      DueDivisible c1 (c.getClosingTaskIDs c.height)) → id ∈ c.getClosingTaskIDs c.height →
      ∃ c2, c1.closeTask id = .ok c2 ∧ OracleSound c2 ∧ CollateralFilled c2.toState ∧
        DueDivisible c2 (c.getClosingTaskIDs c.height) := by
    rintro id c1 ⟨hc1, hfilled1, hdue1⟩ hid
    obtain ⟨c2, hclose⟩ := closeTask_succeeds hc1 hfilled1 (hdue1 id hid)
    refine ⟨c2, hclose, (@closeTask_covered σ (fun _ _ => 0) c1 c2 hc1 id hclose).1, ?_,
      hdue1.closeTask hclose⟩
    exact (closeTask_rewardsOnly hclose).filled hfilled1
  obtain ⟨c1, hfold, -⟩ := foldlM_succeeds hstep ⟨hc, hfilled, hdue⟩
    (stepsMeet_of_forall _ c (fun id hid => hid))
  simp [TaskState.endBlocker, hfold]

end Close

/-- In every run whose messages leave operators with coins and whose end blockers meet no divisor
that is zero, the end blocker returns. -/
theorem endBlocker_of_run (hk : TakesValid k) {height : Nat} {poolParams : LockedPoolParams}
    {taskParams : TaskParams} {world : σ} (hparams : taskParams.validate)
    {actions : List (Action σ)} {c : TaskState σ}
    (hmeet : StepsMeet KeepsDivisible (TaskState.exec k)
      (TaskState.start height poolParams taskParams world) actions)
    (hrun : TaskState.run k (TaskState.start height poolParams taskParams world) actions = .ok c)
    (hdue : KeepsDivisible c .endBlock) : ∃ c', c.endBlocker = .ok c' := by
  have hend : OracleSound c ∧ CollateralFilled c.toState := by
    refine foldlM_invariant_of_meets
      (P := fun c : TaskState σ => OracleSound c ∧ CollateralFilled c.toState) ?_
      ⟨OracleSound.start hparams, fun _ ho => absurd ho List.not_mem_nil⟩ hmeet hrun
    rintro a c₁ c₂ ⟨hc₁, hfilled⟩ ha hexec
    exact ⟨(@exec_covered σ k (fun _ _ => 0) hk c₁ c₂ a hc₁ hexec).1,
      exec_filled hk hfilled ha hexec⟩
  exact endBlocker_succeeds hend.1 hend.2 hdue

/-- Two operators, one of them with 300 coins, answer 0 and 20 to a task that closes in this
block. -/
def twoAnswers (collateral : Coins) : List (Action Coins) :=
  [.tx (.createOperator [1] collateral [1] "first"),
    .tx (.createOperator [2] [⟨"uctk", 300⟩] [2] "second"),
    .tx (.createTask [7] [8] [⟨"uctk", 70⟩] "" [3] 0 0),
    .tx (.taskResponse [7] [8] 0 [1]), .tx (.taskResponse [7] [8] 20 [2])]

/-- The answers are paid when a parameter is added to the score of zero. -/
theorem endBlocker_two_answers :
    ∃ c c', TaskState.run vaultKeepers vaultStart (twoAnswers [⟨"uctk", 100⟩]) = .ok c ∧
      c.endBlocker = .ok c' := by
  obtain ⟨c, hc, hdue⟩ : ∃ c, TaskState.run vaultKeepers vaultStart (twoAnswers [⟨"uctk", 100⟩]) =
        .ok c ∧ KeepsDivisible c .endBlock := by
    decide +kernel
  have hmeet : StepsMeet KeepsDivisible (TaskState.exec vaultKeepers) vaultStart
      (twoAnswers [⟨"uctk", 100⟩]) := by
    decide +kernel
  obtain ⟨c', hc'⟩ := endBlocker_of_run takesValid_vaultKeepers (by decide) hmeet hc hdue
  exact ⟨c, c', hc, hc'⟩

/-- An operator without coins under a minimum of zero, and a score of zero with no parameter added:
the parameters are valid, and the end blocker panics. -/
theorem endBlocker_panics : (LockedPoolParams.validate ⟨30, 0⟩ ∧
      ∃ c, TaskState.run vaultKeepers (TaskState.start 1 ⟨30, 0⟩ ⟨0, 0, 50, 50, 1, 100⟩ [])
        (twoAnswers []) = .ok c ∧ failure c.endBlocker = some .indexOutOfRange) ∧
    (TaskParams.validate ⟨0, 0, 50, 50, 0, 100⟩ ∧
      ∃ c, TaskState.run vaultKeepers (TaskState.start 1 ⟨30, 1⟩ ⟨0, 0, 50, 50, 0, 100⟩ [])
        (twoAnswers [⟨"uctk", 100⟩]) = .ok c ∧
        failure c.endBlocker = some .divisionByZero) := by
  have hindex : OkAnd (TaskState.run vaultKeepers
      (TaskState.start 1 ⟨30, 0⟩ ⟨0, 0, 50, 50, 1, 100⟩ []) (twoAnswers []))
      (fun c => failure c.endBlocker = some .indexOutOfRange) := by
    decide +kernel
  have hdivision : OkAnd (TaskState.run vaultKeepers
      (TaskState.start 1 ⟨30, 1⟩ ⟨0, 0, 50, 50, 0, 100⟩ []) (twoAnswers [⟨"uctk", 100⟩]))
      (fun c => failure c.endBlocker = some .divisionByZero) := by
    decide +kernel
  exact ⟨⟨by decide, hindex.exists⟩, by decide, hdivision.exists⟩

end Shentu.Oracle
