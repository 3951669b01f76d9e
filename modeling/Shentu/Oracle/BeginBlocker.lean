import Shentu.Oracle.Maturity
import Shentu.Oracle.PoolMoves
import Shentu.Oracle.SolventRuns

/-!
When the begin blocker of the oracle module returns. It pays the withdrawals that are due, and a
payment that the bank refuses stops the chain. The bank takes sorted coins of positive amount
that the account covers. A reduction of collateral is stored as it stands in its message, where
amounts of zero and coins in any order are let through.
-/

namespace Shentu.Oracle

open Lib Coins List Option Table

variable {σ : Type} {k : Keepers σ} {balance : σ → Denom → Int}

/-- The supply keeper pays exactly the valid coins that the account of the module covers. -/
structure SupplyBank (k : Keepers σ) (balance : σ → Denom → Int) : Prop
    extends ExactBank k balance where
  accepts : ∀ (w : σ) (a : Address) (coins : Coins),
    (k.sendCoinsFromModuleToAccount w a coins).isSome = true ↔
      Coins.isValid coins ∧ ∀ c ∈ coins, c.amount ≤ balance w c.denom

/-- The stored collateral and withdrawals are valid coins, and no reward is negative. -/
structure AmountsPayable (s : State σ) : Prop where
  operators : ∀ o ∈ s.operators.rows, Coins.isValid o.collateral
  withdraws : ∀ w ∈ s.withdraws.rows, Coins.isValid w.amount
  rewards : RewardsNonneg s

/-- A reduction of collateral is made of valid coins. -/
def ReducesValid (_ : TaskState σ) : Action σ → Prop
  | .tx (.reduceCollateral _ decrement) => Coins.isValid decrement
  | _ => True

instance (c : TaskState σ) (a : Action σ) : Decidable (ReducesValid c a) := by
  unfold ReducesValid
  induction a using Action.casesOn with
  | tx msg => induction msg using OracleMsg.casesOn <;> infer_instance
  | _ => infer_instance

section Actions

variable {c c' : TaskState σ} {a : Action σ}

lemma Written.payable (hk : TakesValid k) (h : AmountsPayable c.toState) (ha : ReducesValid c a)
    {o : Operator} (ho : Written k c a o) :
    Coins.isValid o.collateral ∧ Coins.nonneg o.accumulatedRewards := by
  cases ho with
  | create hsend => exact ⟨hk hsend, fun _ hc => absurd hc not_mem_nil⟩
  | add ho hsend =>
    have hrewards := h.rewards _ (mem_of_get ho)
    exact ⟨isValid_add (h.operators _ (mem_of_get ho)) (hk hsend), hrewards⟩
  | reduce ho hsub =>
    have hrewards := h.rewards _ (mem_of_get ho)
    exact ⟨isValid_sub (h.operators _ (mem_of_get ho)) ha hsub, hrewards⟩
  | withdrawReward ho =>
    have hcollateral := h.operators _ (mem_of_get ho)
    exact ⟨hcollateral, fun _ hc => absurd hc not_mem_nil⟩

lemma Filed.payable (h : AmountsPayable c.toState) (ha : ReducesValid c a) {coins : Coins}
    (hcoins : Filed c a coins) : Coins.isValid coins := by
  cases hcoins with
  | remove ho => exact h.operators _ (mem_of_get ho)
  | reduce address decrement => exact ha

/-- Actions whose reductions of collateral are valid keep the stored amounts valid. -/
lemma exec_payable (hk : TakesValid k) (h : AmountsPayable c.toState) (ha : ReducesValid c a)
    (hexec : c.exec k a = .ok c') : AmountsPayable c'.toState := by
  refine reflTransGen_invariant ?_ (exec_poolMoves hexec) h
  intro s s' hs hmove
  cases hmove with
  | rows hoperators hwithdraws =>
    refine ⟨fun o ho => ?_, fun w hw => ?_, fun o ho => ?_⟩
    · exact (hoperators o ho).elim (hs.operators o) (fun hnew => (hnew.payable hk h ha).1)
    · exact (hwithdraws w hw).elim (hs.withdraws w) (Filed.payable h ha)
    · exact (hoperators o ho).elim (hs.rewards o) (fun hnew => (hnew.payable hk h ha).2)
  | credit honly hnonneg =>
    refine ⟨?_, fun w hw => hs.withdraws w (honly.withdraws ▸ hw), hnonneg hs.rewards⟩
    intro o' ho'
    obtain ⟨o, ho, heq⟩ := honly.mem ho'
    rw [heq]
    exact hs.operators o ho

end Actions

section Amounts

variable {s s' : State σ}

lemma finalizeWithdraw_payable (h : AmountsPayable s) {w : Withdraw}
    (hs : s.finalizeWithdraw k w = .ok s') : AmountsPayable s' := by
  simp only [State.finalizeWithdraw, run_eq_ok] at hs
  obtain ⟨world, -, rfl⟩ := hs
  exact ⟨h.operators, fun w' hw' => h.withdraws w' (mem_delete.mp hw').1, h.rewards⟩

lemma withdraw_le_owed (h : AmountsPayable s)
    (hw : s.withdraws.get w.storeKey = some w) (d : Denom) :
    w.amount.sumOf d ≤ operatorsOwed s d := by
  have hcollateral : 0 ≤ s.operators.total (fun o => o.collateral.sumOf d) :=
    total_nonneg
      (fun o ho => sumOf_nonneg (nonneg_of_isValid (h.operators o ho)) d)
  have hrewards : 0 ≤ rewardsOf s d :=
    total_nonneg (fun o ho => sumOf_nonneg (h.rewards o ho) d)
  have hothers : 0 ≤ (s.withdraws.delete w.storeKey).total (fun w => w.amount.sumOf d) := by
    refine total_nonneg ?_
    intro w' hw'
    exact sumOf_nonneg
      (nonneg_of_isValid (h.withdraws w' (mem_delete.mp hw').1)) d
  have hvalue := valueAt_of_get hw (fun w => w.amount.sumOf d)
  rw [total_delete, hvalue] at hothers
  simp only [operatorsOwed]
  omega

lemma AmountsPayable.nonneg (h : AmountsPayable s) : AmountsNonneg s :=
  ⟨fun o ho => nonneg_of_isValid (h.operators o ho),
    fun w hw => nonneg_of_isValid (h.withdraws w hw)⟩

lemma finalizeWithdraw_succeeds (hbank : SupplyBank k balance) (h : AmountsPayable s)
    (hcovered : ∀ d, operatorsOwed s d ≤ balance s.world d)
    (hw : s.withdraws.get w.storeKey = some w) : ∃ s', s.finalizeWithdraw k w = .ok s' := by
  have hvalid := h.withdraws w (mem_of_get hw)
  have haccepts : (k.sendCoinsFromModuleToAccount s.world w.address w.amount).isSome = true := by
    refine (hbank.accepts s.world w.address w.amount).mpr ⟨hvalid, ?_⟩
    intro c hc
    calc c.amount ≤ w.amount.sumOf c.denom :=
          amount_le_sumOf (nonneg_of_isValid hvalid) hc
      _ ≤ operatorsOwed s c.denom := withdraw_le_owed h hw c.denom
      _ ≤ balance s.world c.denom := hcovered c.denom
  obtain ⟨world, hsend⟩ := isSome_iff_exists.mp haccepts
  simp only [State.finalizeWithdraw, run_eq_ok]
  exact ⟨_, world, hsend, rfl⟩

/-- All withdrawals that are due are paid, one after the other. -/
lemma finalizeMatureWithdraws_succeeds (hbank : SupplyBank k balance) (h : AmountsPayable s)
    (hcovered : ∀ d, operatorsOwed s d ≤ balance s.world d) :
    ∃ s', s.finalizeMatureWithdraws k = .ok s' := by
  refine foldlM_distinct_succeeds
    (P := fun s => AmountsPayable s ∧ ∀ d, operatorsOwed s d ≤ balance s.world d)
    (Q := fun s w => s.withdraws.get w.storeKey = some w) ?_ ⟨h, hcovered⟩ ?_
    (s.withdraws.rows_nodup.filter _)
  · rintro w s1 ⟨h1, hcovered1⟩ hw
    obtain ⟨s2, hs2⟩ := finalizeWithdraw_succeeds hbank h1 hcovered1 hw
    obtain ⟨-, hstep, hwithdraws⟩ :=
      @finalizeWithdraw_covered σ k balance s1 s2 h1.nonneg w hw hs2
    refine ⟨s2, hs2, ⟨finalizeWithdraw_payable h1 hs2, ?_⟩, ?_⟩
    · intro d
      have hd := hstep hbank.toExactBank d
      have hd1 := hcovered1 d
      omega
    · intro w' hne hw'
      rw [hwithdraws, get_delete_of_ne _ ?_]
      · exact hw'
      · intro hkey
        rw [hkey, hw] at hw'
        exact hne (Option.some.inj hw').symm
  · intro w hw
    exact get_of_mem (List.mem_filter.mp hw).1

end Amounts

variable {c : TaskState σ}

lemma pendingBounties_nonneg (hc : TasksSound c) (d : Denom) :
    0 ≤ c.tasks.total (Task.pendingBounty d) := by
  refine total_nonneg ?_
  intro t ht
  unfold Task.pendingBounty
  split
  · exact sumOf_nonneg (nonneg_of_isValid (hc.bounty t ht)) d
  · exact le_refl 0

/-- What is kept along a run: the stored amounts are valid, and the account of the module covers
what the module owes. -/
structure PoolSound (balance : σ → Denom → Int) (c : TaskState σ) : Prop where
  sound : OracleSound c
  solvent : Solvent balance c
  payable : AmountsPayable c.toState

lemma PoolSound.start {height : Nat} {poolParams : LockedPoolParams} {taskParams : TaskParams}
    {world : σ} (hparams : taskParams.validate) (hworld : ∀ d, 0 ≤ balance world d) :
    PoolSound balance (TaskState.start height poolParams taskParams world) :=
  ⟨OracleSound.start hparams, hworld,
    ⟨fun _ ho => absurd ho not_mem_nil, fun _ hw => absurd hw not_mem_nil,
      fun _ ho => absurd ho not_mem_nil⟩⟩

lemma PoolSound.exec (hk : TakesValid k) (hbank : SupplyBank k balance) {c' : TaskState σ}
    {a : Action σ} (h : PoolSound balance c) (hreduces : ReducesValid c a)
    (hpays : PaysBounties c a) (hkept : AccountKept balance c a) (hexec : c.exec k a = .ok c') :
    PoolSound balance c' := by
  obtain ⟨hsound, hcovered⟩ := exec_covered hk h.sound hexec
  exact ⟨hsound, (hcovered hbank.toExactBank hpays hkept).solvent h.solvent,
    exec_payable hk h.payable hreduces hexec⟩

/-- The next begin blocker pays every withdrawal that is due. -/
lemma PoolSound.beginBlock (hbank : SupplyBank k balance)
    (h : PoolSound balance c) (blockTime : Int) :
    ∃ c', c.exec k (.beginBlock blockTime) = .ok c' := by
  have hcovered : ∀ d, operatorsOwed c.toState d ≤ balance c.world d := by
    intro d
    have hd := h.solvent d
    have htasks := pendingBounties_nonneg h.sound.tasks d
    simp only [owed] at hd
    omega
  obtain ⟨s, hs⟩ := finalizeMatureWithdraws_succeeds hbank
    (s := { c.toState with height := c.height + 1 })
    ⟨h.payable.operators, h.payable.withdraws, h.payable.rewards⟩ hcovered
  simp only [TaskState.exec, TaskState.beginBlocker, run_eq_ok]
  exact ⟨_, s, hs, rfl⟩

/-- In every run whose reductions of collateral are valid coins and whose end blockers find
bounties that can be credited, the next begin blocker pays every withdrawal that is due. -/
theorem beginBlocker_of_run (hk : TakesValid k) (hbank : SupplyBank k balance) {height : Nat}
    {poolParams : LockedPoolParams} {taskParams : TaskParams} {world : σ}
    (hparams : taskParams.validate) (hworld : ∀ d, 0 ≤ balance world d)
    {actions : List (Action σ)} {c : TaskState σ}
    (hreduces : StepsMeet ReducesValid (TaskState.exec k)
      (TaskState.start height poolParams taskParams world) actions)
    (hpays : StepsMeet PaysBounties (TaskState.exec k)
      (TaskState.start height poolParams taskParams world) actions)
    (hkept : StepsMeet (AccountKept balance) (TaskState.exec k)
      (TaskState.start height poolParams taskParams world) actions)
    (hrun : TaskState.run k (TaskState.start height poolParams taskParams world) actions = .ok c)
    (blockTime : Int) : ∃ c', c.exec k (.beginBlock blockTime) = .ok c' := by
  have hend : PoolSound balance c := by
    refine foldlM_invariant_of_meets (P := PoolSound balance) ?_ (.start hparams hworld)
      (hreduces.and (hpays.and hkept)) hrun
    rintro a c₁ c₂ hc₁ ⟨hreduces₁, hpays₁, hkept₁⟩ hexec
    exact hc₁.exec hk hbank hreduces₁ hpays₁ hkept₁ hexec
  exact hend.beginBlock hbank blockTime

/-- A world that is the balance of the module in every denomination. -/
def ledgerKeepers : Keepers (Denom → Int) where
  bondDenom := "uctk"
  sendCoinsFromAccountToModule w _ coins :=
    if Coins.isValid coins then some (fun d => w d + coins.sumOf d) else none
  sendCoinsFromModuleToAccount w _ coins :=
    if Coins.isValid coins ∧ ∀ c ∈ coins, c.amount ≤ w c.denom
    then some (fun d => w d - coins.sumOf d) else none

lemma takesValid_ledgerKeepers : TakesValid ledgerKeepers :=
  fun h => (ite_none_right_eq_some.mp h).1

lemma supplyBank_ledgerKeepers : SupplyBank ledgerKeepers (fun w d => w d) where
  takes h d := by
    obtain ⟨-, heq⟩ := ite_none_right_eq_some.mp h
    cases heq
    rfl
  pays h d := by
    obtain ⟨-, heq⟩ := ite_none_right_eq_some.mp h
    cases heq
    rfl
  accepts w a coins := by
    simp only [ledgerKeepers]
    split
    · rename_i h
      exact ⟨fun _ => h, fun _ => rfl⟩
    · rename_i h
      exact ⟨fun hsome => absurd hsome Bool.false_ne_true, fun hvalid => absurd hvalid h⟩

/-- An operator withdraws a part of the collateral, which is due in the next block. -/
def reducedCollateral (decrement : Coins) : List (Action (Denom → Int)) :=
  [.tx (.createOperator [1] [⟨"uctk", 100⟩] [1] "operator"),
    .tx (.reduceCollateral [1] decrement)]

def ledgerStart : TaskState (Denom → Int) :=
  TaskState.start 1 ⟨1, 1⟩ ⟨0, 0, 50, 50, 1, 100⟩ (fun _ => 0)

/-- A withdrawal of valid coins is paid in the next block. -/
theorem beginBlocker_pays_ten :
    ∃ c c', TaskState.run ledgerKeepers ledgerStart (reducedCollateral [⟨"uctk", 10⟩]) = .ok c ∧
      c.withdraws.rows.length = 1 ∧ c.exec ledgerKeepers (.beginBlock 0) = .ok c' := by
  obtain ⟨c, hc, hwithdraws⟩ : ∃ c, TaskState.run ledgerKeepers ledgerStart (reducedCollateral
        [⟨"uctk", 10⟩]) = .ok c ∧ c.withdraws.rows.length = 1 := by
    decide +kernel
  have hreduces : StepsMeet ReducesValid (TaskState.exec ledgerKeepers) ledgerStart
      (reducedCollateral [⟨"uctk", 10⟩]) := by
    decide +kernel
  have hpays : StepsMeet PaysBounties (TaskState.exec ledgerKeepers) ledgerStart
      (reducedCollateral [⟨"uctk", 10⟩]) := by
    decide +kernel
  obtain ⟨c', hc'⟩ := beginBlocker_of_run takesValid_ledgerKeepers supplyBank_ledgerKeepers
    (by decide) (fun d => le_refl 0) hreduces hpays
    ⟨trivial, fun _ _ => ⟨trivial, fun _ _ => trivial⟩⟩ hc 0
  exact ⟨c, c', hc, hwithdraws, hc'⟩

/-- A coin of amount zero passes the message and is refused by the bank in the next block. -/
theorem beginBlocker_panics : ∃ c, TaskState.run ledgerKeepers ledgerStart
        (reducedCollateral [⟨"atom", 0⟩, ⟨"uctk", 10⟩]) = .ok c ∧
      (∃ w ∈ c.withdraws.rows, w.amount = [⟨"atom", 0⟩, ⟨"uctk", 10⟩]) ∧
      failure (c.exec ledgerKeepers (.beginBlock 0)) = some (.ofError .external) := by
  have hrun : OkAnd (TaskState.run ledgerKeepers ledgerStart
      (reducedCollateral [⟨"atom", 0⟩, ⟨"uctk", 10⟩])) (fun c =>
        (∃ w ∈ c.withdraws.rows, w.amount = [⟨"atom", 0⟩, ⟨"uctk", 10⟩]) ∧
        failure (c.exec ledgerKeepers (.beginBlock 0)) = some (.ofError .external)) := by
    decide +kernel
  exact hrun.exists

end Shentu.Oracle
