import Shentu.Lib.Dec
import Shentu.Oracle.Steps
import Shentu.Oracle.TaskSteps

/-!
The oracle module can pay what it owes. It owes the collateral and rewards of operators,
the withdrawals that are not yet paid and the bounties of pending tasks. Every message and
block changes the balance of the module by at least as much as what it owes, if no bounty
of several coins is divided for a result below the threshold: such a bounty is credited in
the denomination of its first coin only.
-/

namespace Shentu.Oracle

open Lib List Coins Table

variable {σ : Type}

/-- The supply keeper takes valid coins only. -/
def TakesValid (k : Keepers σ) : Prop :=
  ∀ {w w' : σ} {a : Address} {coins : Coins},
    k.sendCoinsFromAccountToModule w a coins = some w' → Coins.isValid coins

/-- The supply keeper moves exactly the coins it is asked to move, seen on the balance of the
account of the module. -/
structure ExactBank (k : Keepers σ) (balance : σ → Denom → Int) : Prop where
  takes : ∀ {w w' : σ} {a : Address} {coins : Coins},
    k.sendCoinsFromAccountToModule w a coins = some w' →
      ∀ d, balance w' d = balance w d + coins.sumOf d
  pays : ∀ {w w' : σ} {a : Address} {coins : Coins},
    k.sendCoinsFromModuleToAccount w a coins = some w' →
      ∀ d, balance w' d = balance w d - coins.sumOf d

/-- What is owed to operators. -/
def operatorsOwed (s : State σ) (d : Denom) : Int :=
  s.operators.total (fun o => o.collateral.sumOf d) + rewardsOf s d +
    s.withdraws.total (fun w => w.amount.sumOf d)

def Task.pendingBounty (d : Denom) (t : Task) : Int :=
  if t.status = .pending then t.bounty.sumOf d else 0

/-- All that the module owes in a denomination. -/
def owed (c : TaskState σ) (d : Denom) : Int :=
  operatorsOwed c.toState d + c.tasks.total (Task.pendingBounty d)

/-- The account of the module covers what the module owes. -/
def Solvent (balance : σ → Denom → Int) (c : TaskState σ) : Prop :=
  ∀ d, owed c d ≤ balance c.world d

/-- No stored amount of an operator or a withdrawal is negative. -/
structure AmountsNonneg (s : State σ) : Prop where
  operators : ∀ o ∈ s.operators.rows, Coins.nonneg o.collateral
  withdraws : ∀ w ∈ s.withdraws.rows, Coins.nonneg w.amount

/-- The stored tasks have valid bounties and scores, and the parameters are valid. -/
structure TasksSound (c : TaskState σ) : Prop where
  params : c.taskParams.validate
  bounty : ∀ t ∈ c.tasks.rows, Coins.isValid t.bounty
  scores : ∀ t ∈ c.tasks.rows, ∀ r ∈ t.responses, minScore ≤ r.score ∧ r.score ≤ maxScore

section Operators

variable {k : Keepers σ} {balance : σ → Denom → Int} {s s' : State σ} {address : Address}
  {coins : Coins}

/-- What the module has beyond what it owes to operators does not get less. -/
def OperatorsCovered (balance : σ → Denom → Int) (s s' : State σ) : Prop :=
  ∀ d, balance s.world d - operatorsOwed s d ≤ balance s'.world d - operatorsOwed s' d

lemma AmountsNonneg.set (h : AmountsNonneg s) {o : Operator} (ho : Coins.nonneg o.collateral)
    (hoperators : s'.operators = s.operators.set o) :
    ∀ o' ∈ s'.operators.rows, Coins.nonneg o'.collateral := by
  rw [hoperators]
  exact forall_mem_set ho h.operators

lemma AmountsNonneg.setWithdraw (h : AmountsNonneg s) {w : Withdraw}
    (hw : Coins.nonneg w.amount) (hwithdraws : s'.withdraws = s.withdraws.set w) :
    ∀ w' ∈ s'.withdraws.rows, Coins.nonneg w'.amount := by
  rw [hwithdraws]
  exact forall_mem_set hw h.withdraws

lemma total_set_withdraw_le (h : AmountsNonneg s) (w : Withdraw) (d : Denom) :
    (s.withdraws.set w).total (fun w => w.amount.sumOf d) ≤
      s.withdraws.total (fun w => w.amount.sumOf d) + w.amount.sumOf d := by
  rw [total_set]
  have hold : 0 ≤ s.withdraws.valueAt (fun w => w.amount.sumOf d) w.storeKey := by
    cases hget : s.withdraws.get w.storeKey with
    | none => rw [valueAt_of_get_none hget]
    | some w' =>
      rw [valueAt_of_get hget]
      exact sumOf_nonneg (h.withdraws w' (mem_of_get hget)) d
  omega

lemma createOperator_covered (hk : TakesValid k) (h : AmountsNonneg s) {proposer : Address}
    {name : String} (hs : s.createOperator k address coins proposer name = .ok s') :
    AmountsNonneg s' ∧ (ExactBank k balance → OperatorsCovered balance s s') := by
  obtain ⟨_, world, -, hnew, -, hsend, rfl⟩ := createOperator_cases hs
  have hvalid := hk hsend
  refine ⟨⟨h.set (nonneg_of_isValid hvalid) rfl, h.withdraws⟩, ?_⟩
  intro hbank d
  have hzero := valueAt_of_get_none hnew (fun o => o.collateral.sumOf d)
  have hzero' := valueAt_of_get_none hnew (fun o => o.accumulatedRewards.sumOf d)
  have hempty : Coins.sumOf [] d = 0 := rfl
  have hmoved := hbank.takes hsend d
  simp only [operatorsOwed, rewardsOf, total_set]
  rw [hzero, hzero', hempty]
  omega

lemma removeOperator_covered (h : AmountsNonneg s) (hs : s.removeOperator k address = .ok s') :
    AmountsNonneg s' ∧ (ExactBank k balance → OperatorsCovered balance s s') := by
  obtain ⟨o, _, _, world, -, -, hget, hsend, rfl⟩ := removeOperator_cases hs
  have ho := h.operators o (mem_of_get hget)
  refine ⟨⟨fun o' ho' => h.operators o' (mem_delete.mp ho').1, h.setWithdraw ho rfl⟩, ?_⟩
  intro hbank d
  have hmoved := hbank.pays hsend d
  have hwithdraws := total_set_withdraw_le h (s.newWithdraw o.address o.collateral) d
  have hcollateral := valueAt_of_get hget (fun o => o.collateral.sumOf d)
  have hrewards := valueAt_of_get hget (fun o => o.accumulatedRewards.sumOf d)
  simp only [operatorsOwed, rewardsOf, total_delete]
  dsimp only [State.createWithdraw, State.newWithdraw, State.dueBlock] at hmoved hwithdraws ⊢
  rw [hcollateral, hrewards]
  omega

lemma addCollateral_covered (hk : TakesValid k) (h : AmountsNonneg s)
    (hs : s.addCollateral k address coins = .ok s') :
    AmountsNonneg s' ∧ (ExactBank k balance → OperatorsCovered balance s s') := by
  obtain ⟨o, _, world, -, hget, hsend, rfl⟩ := addCollateral_cases hs
  have hvalid := hk hsend
  have haddress := get_address hget
  subst haddress
  have ho := h.operators o (mem_of_get hget)
  refine ⟨⟨h.set (nonneg_add ho (nonneg_of_isValid hvalid)) rfl, h.withdraws⟩, ?_⟩
  intro hbank d
  have hmoved := hbank.takes hsend d
  have hsum := sumOf_add o.collateral coins d
  simp only [operatorsOwed, rewardsOf, total_set, valueAt_of_get hget]
  omega

lemma reduceCollateral_covered (h : AmountsNonneg s) (hcoins : Coins.nonneg coins)
    (hs : s.reduceCollateral k address coins = .ok s') :
    AmountsNonneg s' ∧ (ExactBank k balance → OperatorsCovered balance s s') := by
  obtain ⟨o, collateral, _, _, -, -, hget, hsub, -, rfl⟩ := reduceCollateral_cases hs
  have haddress := get_address hget
  subst haddress
  refine ⟨⟨h.set (nonneg_sub hsub) rfl, h.setWithdraw hcoins rfl⟩, ?_⟩
  intro _ d
  have hsum := sumOf_sub hsub d
  have hwithdraws := total_set_withdraw_le h (s.newWithdraw o.address coins) d
  simp only [operatorsOwed, rewardsOf, State.createWithdraw, total_set _ { o with
    collateral := collateral }, valueAt_of_get hget]
  dsimp only [State.createWithdraw, State.newWithdraw, State.dueBlock] at hwithdraws ⊢
  omega

lemma withdrawAllReward_covered (h : AmountsNonneg s)
    (hs : s.withdrawAllReward k address = .ok s') :
    AmountsNonneg s' ∧ (ExactBank k balance → OperatorsCovered balance s s') := by
  simp only [State.withdrawAllReward, run_eq_ok] at hs
  obtain ⟨o, hget, world, hsend, rfl⟩ := hs
  have haddress := get_address hget
  subst haddress
  have ho := h.operators o (mem_of_get hget)
  refine ⟨⟨h.set (o := { o with accumulatedRewards := [] }) ho rfl, h.withdraws⟩, ?_⟩
  intro hbank d
  have hmoved := hbank.pays hsend d
  have hempty : Coins.sumOf [] d = 0 := rfl
  simp only [operatorsOwed, rewardsOf, total_set, valueAt_of_get hget]
  omega

lemma OperatorsCovered.trans {s1 s2 s3 : State σ} (h : OperatorsCovered balance s1 s2)
    (h' : OperatorsCovered balance s2 s3) : OperatorsCovered balance s1 s3 :=
  fun d => (h d).trans (h' d)

lemma finalizeWithdraw_covered (h : AmountsNonneg s) {w : Withdraw}
    (hw : s.withdraws.get w.storeKey = some w) (hs : s.finalizeWithdraw k w = .ok s') :
    AmountsNonneg s' ∧ (ExactBank k balance → OperatorsCovered balance s s') ∧
      s'.withdraws = s.withdraws.delete w.storeKey := by
  simp only [State.finalizeWithdraw, run_eq_ok] at hs
  obtain ⟨world, hsend, rfl⟩ := hs
  refine ⟨⟨h.operators, fun w' hw' => h.withdraws w' (mem_delete.mp hw').1⟩, ?_, rfl⟩
  intro hbank d
  have hmoved := hbank.pays hsend d
  have hamount := valueAt_of_get hw (fun w => w.amount.sumOf d)
  simp only [operatorsOwed, rewardsOf, total_delete]
  omega

lemma finalizeMatureWithdraws_covered (h : AmountsNonneg s)
    (hs : s.finalizeMatureWithdraws k = .ok s') :
    AmountsNonneg s' ∧ (ExactBank k balance → OperatorsCovered balance s s') := by
  refine foldlM_distinct (P := fun s1 => AmountsNonneg s1 ∧
      (ExactBank k balance → OperatorsCovered balance s s1))
    (Q := fun s1 w => s1.withdraws.get w.storeKey = some w) ?_ ⟨h, fun _ d => le_refl _⟩ ?_
    (s.withdraws.rows_nodup.filter _) hs
  · rintro w - s1 s2 ⟨h1, hcovered⟩ hw hs1
    obtain ⟨h2, hcovered2, hwithdraws⟩ := finalizeWithdraw_covered h1 hw hs1
    refine ⟨⟨h2, fun hbank => (hcovered hbank).trans (hcovered2 hbank)⟩, ?_⟩
    intro w' hne hw'
    rw [hwithdraws, get_delete_of_ne _ ?_]
    · exact hw'
    · intro hkey
      rw [hkey, hw] at hw'
      exact hne (Option.some.inj hw').symm
  · intro w hw
    exact Table.get_of_mem (List.mem_filter.mp hw).1

end Operators

section Rewards

variable {s s' : State σ}

lemma RewardsOnly.total_eq (h : RewardsOnly s s') (f : Operator → Int) :
    s'.operators.total (fun o => f o.withoutRewards) =
      s.operators.total (fun o => f o.withoutRewards) := by
  have hkey : ∀ o : Operator, o.withoutRewards.address = o.address := fun _ => rfl
  have hmap : s'.operators.map Operator.withoutRewards hkey =
      s.operators.map Operator.withoutRewards hkey := by
    refine ext_get ?_
    intro a
    rw [get_map, get_map, h.operators]
  have hrows : s'.operators.rows.map Operator.withoutRewards =
      s.operators.rows.map Operator.withoutRewards := congrArg Table.rows hmap
  have hsum := congrArg (fun os => (os.map f).sum) hrows
  simpa [Table.total, Function.comp_def] using hsum

lemma RewardsOnly.operatorsOwed_eq (h : RewardsOnly s s') (d : Denom) :
    operatorsOwed s' d = operatorsOwed s d + (rewardsOf s' d - rewardsOf s d) := by
  have hcollateral : s'.operators.total (fun o => o.collateral.sumOf d) =
      s.operators.total (fun o => o.collateral.sumOf d) :=
    h.total_eq (fun o => o.collateral.sumOf d)
  rw [operatorsOwed, operatorsOwed, hcollateral, h.withdraws]
  omega

lemma RewardsOnly.mem (h : RewardsOnly s s') {o' : Operator} (ho' : o' ∈ s'.operators.rows) :
    ∃ o ∈ s.operators.rows, o'.collateral = o.collateral := by
  have hget := h.operators o'.address
  rw [Table.get_of_mem ho', Option.map_some] at hget
  obtain ⟨o, ho, heq⟩ := Option.map_eq_some_iff.mp hget.symm
  have hcollateral := congrArg Operator.collateral heq
  exact ⟨o, mem_of_get ho, hcollateral.symm⟩

lemma RewardsOnly.amountsNonneg (h : RewardsOnly s s') (hs : AmountsNonneg s) :
    AmountsNonneg s' := by
  refine ⟨?_, h.withdraws ▸ hs.withdraws⟩
  intro o' ho'
  obtain ⟨o, ho, heq⟩ := h.mem ho'
  rw [heq]
  exact hs.operators o ho

lemma getCollateralAmount_nonneg (h : AmountsNonneg s) {a : Address} {amount : Int}
    (hget : s.getCollateralAmount a = .ok amount) : 0 ≤ amount := by
  simp only [State.getCollateralAmount, run_eq_ok] at hget
  obtain ⟨o, ho, coin, hcoin, rfl⟩ := hget
  exact h.operators o (mem_of_get ho) coin (mem_of_mem_head? hcoin)

lemma quo_nonneg {a b r : Int} (ha : 0 ≤ a) (hb : 0 ≤ b) (h : quo a b = .ok r) : 0 ≤ r := by
  obtain ⟨-, rfl⟩ := quo_eq_ok.mp h
  exact Int.tdiv_nonneg ha hb

variable {p : TaskParams} {t : Task} {ws : List Int}

/-- No response has a negative weight. -/
lemma weightOf_nonneg (hp : p.validate) (h : AmountsNonneg s)
    {r : Response} (hr : minScore ≤ r.score ∧ r.score ≤ maxScore) {w : Int}
    (hw : weightOf (scoring p t) s r = .ok w) : 0 ≤ w := by
  obtain ⟨-, -, -, hepsilon1, hepsilon2⟩ := hp
  have hamplifier : 0 ≤ amplifier := by decide
  simp only [minScore, maxScore] at hr
  simp only [weightOf] at hw
  split at hw
  · simp only [bind_eq_ok] at hw
    obtain ⟨o, hget, hw⟩ := hw
    cases o with
    | none => exact (pure_eq_ok.mp hw).le
    | some collateral =>
      have hcollateral := getCollateralAmount_nonneg h (unlessError_eq_some.mp hget)
      have hscaled := mul_nonneg hamplifier hcollateral
      simp only [scoring] at hw
      split at hw
      · exact (Except.ok.inj hw) ▸ hcollateral
      · split at hw
        · exact quo_nonneg hscaled (by omega) hw
        · exact quo_nonneg hscaled (by rw [maxScore]; omega) hw
  · exact (pure_eq_ok.mp hw).le

lemma weights_nonneg (hp : p.validate) (h : AmountsNonneg s)
    {rs : List Response} (hrs : ∀ r ∈ rs, minScore ≤ r.score ∧ r.score ≤ maxScore)
    (hws : Weights (scoring p t) s rs ws) : ∀ w ∈ ws, 0 ≤ w := by
  induction hws with
  | nil => exact fun w hw => absurd hw not_mem_nil
  | cons hw _ ih =>
    obtain ⟨hr, hrs⟩ := forall_mem_cons.mp hrs
    exact forall_mem_cons.mpr ⟨weightOf_nonneg hp h hr hw, ih hrs⟩

/-- A bounty that is credited in its own denominations: it is one coin, or no response is below
the threshold. -/
def BountyPayable (p : TaskParams) (t : Task) : Prop :=
  t.bounty.length ≤ 1 ∨ ∀ r ∈ t.responses, p.thresholdScore ≤ r.score

instance (p : TaskParams) (t : Task) : Decidable (BountyPayable p t) := by
  unfold BountyPayable
  infer_instance

/-- With responses above the threshold only, nothing counts for a result below it. -/
lemma weights_eq_zero {rs : List Response} (hzero : t.result ≠ minScore)
    (hbelow : t.result < p.thresholdScore) (hrs : ∀ r ∈ rs, p.thresholdScore ≤ r.score)
    (hws : Weights (scoring p t) s rs ws) : ws.sum = 0 := by
  induction hws with
  | nil => rfl
  | cons hw _ ih =>
    obtain ⟨hr, hrs⟩ := forall_mem_cons.mp hrs
    rw [weightOf, scoring, if_neg hzero, if_pos hbelow] at hw
    simp only [decide_eq_true_eq, if_neg (not_lt.mpr hr), pure_eq_ok] at hw
    rw [sum_cons, ← hw, ih hrs, zero_add]

lemma scoring_denom (h : BountyPayable p t) (hws : Weights (scoring p t) s t.responses ws)
    (hne : ws.sum ≠ 0) {b : Coin} (hb : b ∈ t.bounty) : (scoring p t).denom b = b.denom := by
  by_cases hzero : t.result = minScore
  · rw [scoring, if_pos hzero]
  · by_cases hbelow : t.result < p.thresholdScore
    · rcases h with hone | habove
      · rw [scoring, if_neg hzero, if_pos hbelow]
        match hbounty : t.bounty with
        | [] => simp [hbounty] at hb
        | [b'] =>
          rw [hbounty] at hb
          rw [mem_singleton.mp hb]
          rfl
        | b' :: b'' :: rest => simp [hbounty] at hone
      · exact absurd (weights_eq_zero hzero hbelow habove hws) hne
    · rw [scoring, if_neg hzero, if_neg hbelow]

lemma credited_le (hp : p.validate) (hs : AmountsNonneg s) (hbounty : Coins.isValid t.bounty)
    (hscores : ∀ r ∈ t.responses, minScore ≤ r.score ∧ r.score ≤ maxScore)
    (hpayable : BountyPayable p t) (h : Credited p s s' t) (d : Denom) :
    rewardsOf s' d ≤ rewardsOf s d + t.bounty.sumOf d := by
  obtain ⟨ws, hws, hne, hrewards⟩ := h.weights
  have hnonneg := weights_nonneg hp hs hscores hws
  have htotal : 0 < ws.sum := lt_of_le_of_ne (sum_nonneg hnonneg) (Ne.symm hne)
  rw [hrewards, Coins.sumOf]
  refine Int.add_le_add_left (sum_le_sum ?_) _
  intro b hb
  rw [scoring_denom hpayable hws hne hb]
  split
  · exact sum_tdiv_le (hbounty.2 b hb).le hnonneg htotal le_rfl
  · exact le_refl 0

end Rewards

end Shentu.Oracle
