import Shentu.Oracle.Steps
import Shentu.Oracle.TaskSteps

/-!
What an action of the oracle module does to operators and withdrawals. An action is a sequence
of moves: each keeps rows of the two stores and adds those that the action writes, or credits
rewards. An invariant of the rows is checked on what is written.
-/

namespace Shentu.Oracle

open Lib Relation

variable {σ : Type} {k : Keepers σ}

/-- No reward of an operator is negative. -/
def RewardsNonneg (s : State σ) : Prop :=
  ∀ o ∈ s.operators.rows, Coins.nonneg o.accumulatedRewards

section Rewards

variable {s s' : State σ} {sc : Scoring} {total : Int} {bounty : Coin}

lemma addReward_nonneg (h : RewardsNonneg s) {a : Address} {coins : Coins}
    (hcoins : Coins.nonneg coins) (hs : s.addReward a coins = .ok s') : RewardsNonneg s' := by
  simp only [State.addReward, run_eq_ok] at hs
  obtain ⟨o, hget, rfl⟩ := hs
  exact Table.forall_mem_set (Coins.nonneg_add (h o (Table.mem_of_get hget)) hcoins) h

lemma payResponse_nonneg (h : RewardsNonneg s) {r r' : Response}
    (hpay : payResponse sc total bounty s r = .ok (s', r')) : RewardsNonneg s' := by
  unfold payResponse at hpay
  cases hcounts : sc.counts r with
  | false =>
    simp only [hcounts, Bool.false_eq_true, if_false, pure_eq_ok] at hpay
    exact (Prod.mk.inj hpay).1 ▸ h
  | true =>
    simp only [hcounts, if_true, bind_eq_ok] at hpay
    obtain ⟨o, -, hpay⟩ := hpay
    cases o with
    | none => exact (Prod.mk.inj (pure_eq_ok.mp hpay)).1 ▸ h
    | some collateral =>
      simp only [run_eq_ok, not_lt] at hpay
      obtain ⟨w, -, amount, -, hamount, o', hreward, hpay⟩ := hpay
      cases o' with
      | none => exact (Prod.mk.inj (pure_eq_ok.mp hpay)).1 ▸ h
      | some s1 =>
        obtain ⟨rfl, -⟩ := Prod.mk.inj (pure_eq_ok.mp hpay)
        exact addReward_nonneg h (Coins.nonneg_ofAmount hamount) (unlessError_eq_some.mp hreward)

lemma payResponses_nonneg (h : RewardsNonneg s) {rs rs' : List Response}
    (hpay : payResponses sc total bounty s rs = .ok (s', rs')) : RewardsNonneg s' := by
  induction rs generalizing s rs' with
  | nil =>
    cases hpay
    exact h
  | cons r rs ih =>
    simp only [payResponses, run_eq_ok, Prod.exists] at hpay
    obtain ⟨s1, r1, hfirst, s2, rs1, hrest, hpay⟩ := hpay
    obtain ⟨rfl, -⟩ := Prod.mk.inj hpay
    exact ih (payResponse_nonneg h hfirst) hrest

lemma distributeBounty_nonneg {c c' : TaskState σ} (h : RewardsNonneg c.toState) {t : Task}
    (hdistribute : c.distributeBounty t = .ok c') : RewardsNonneg c'.toState := by
  simp only [TaskState.distributeBounty, run_eq_ok, Prod.exists] at hdistribute
  obtain ⟨total, -, -, s, rs, hpay, rfl⟩ := hdistribute
  refine foldlM_invariant (P := fun acc : State σ × List Response => RewardsNonneg acc.1) ?_ h hpay
  intro b _ acc acc' hacc hb
  exact payResponses_nonneg hacc hb

lemma closeTask_nonneg {c c' : TaskState σ} (h : RewardsNonneg c.toState) {id : TaskID}
    (hclose : c.closeTask id = .ok c') : RewardsNonneg c'.toState := by
  simp only [TaskState.closeTask, bind_eq_ok] at hclose
  obtain ⟨o, haggregate, hclose⟩ := hclose
  cases o with
  | none => exact pure_eq_ok.mp hclose ▸ h
  | some c1 =>
    obtain ⟨t, t1, -, -, -, rfl⟩ := aggregate_cases (unlessError_eq_some.mp haggregate)
    cases hget : (c.setTask t1).getTask id.contract id.function with
    | none =>
      simp only [hget, pure_eq_ok] at hclose
      exact hclose ▸ h
    | some t2 =>
      simp only [hget, bind_eq_ok] at hclose
      obtain ⟨o, hdistribute, hclose⟩ := hclose
      cases o with
      | none => exact pure_eq_ok.mp hclose ▸ h
      | some c2 =>
        obtain rfl := pure_eq_ok.mp hclose
        exact distributeBounty_nonneg (c := c.setTask t1) h (unlessError_eq_some.mp hdistribute)

end Rewards

/-- The operators that an action writes to the store, from those before it. -/
inductive Written (k : Keepers σ) (c : TaskState σ) : Action σ → Operator → Prop
  | create {address proposer : Address} {collateral : Coins} {name : String} {world : σ}
      (hsend : k.sendCoinsFromAccountToModule c.world address collateral = some world)
      (hmin : ¬ c.isBelowMinCollateral k collateral) :
      Written k c (.tx (.createOperator address collateral proposer name))
        ⟨address, proposer, collateral, [], name⟩
  | add {address : Address} {increment : Coins} {o : Operator} {world : σ}
      (ho : c.operators.get address = some o)
      (hsend : k.sendCoinsFromAccountToModule c.world address increment = some world) :
      Written k c (.tx (.addCollateral address increment))
        { o with collateral := o.collateral.add increment }
  | reduce {address : Address} {decrement collateral : Coins} {o : Operator}
      (ho : c.operators.get address = some o) (hsub : o.collateral.sub decrement = some collateral)
      (hmin : ¬ c.isBelowMinCollateral k collateral) :
      Written k c (.tx (.reduceCollateral address decrement)) { o with collateral := collateral }
  | withdrawReward {address : Address} {o : Operator} (ho : c.operators.get address = some o) :
      Written k c (.tx (.withdrawReward address)) { o with accumulatedRewards := [] }

/-- The amounts of the withdrawals that an action files. -/
inductive Filed (c : TaskState σ) : Action σ → Coins → Prop
  | remove {address proposer : Address} {o : Operator} (ho : c.operators.get address = some o) :
      Filed c (.tx (.removeOperator address proposer)) o.collateral
  | reduce (address : Address) (decrement : Coins) :
      Filed c (.tx (.reduceCollateral address decrement)) decrement

/-- The moves of an action that begins in a state. -/
inductive PoolMove (k : Keepers σ) (c : TaskState σ) (a : Action σ) (s s' : State σ) : Prop
  | rows (hoperators : ∀ o ∈ s'.operators.rows, o ∈ s.operators.rows ∨ Written k c a o)
      (hwithdraws : ∀ w ∈ s'.withdraws.rows, w ∈ s.withdraws.rows ∨ Filed c a w.amount)
  | credit (hs : RewardsOnly s s') (hnonneg : RewardsNonneg s → RewardsNonneg s')

lemma PoolMove.frame {c : TaskState σ} {a : Action σ} {s s' : State σ}
    (hoperators : s'.operators = s.operators) (hwithdraws : s'.withdraws = s.withdraws) :
    PoolMove k c a s s' :=
  .rows (fun _ ho => .inl (hoperators ▸ ho)) (fun _ hw => .inl (hwithdraws ▸ hw))

lemma deliver_poolMove {c c' : TaskState σ} {msg : OracleMsg} (h : c.deliver k msg = .ok c') :
    PoolMove k c (.tx msg) c.toState c'.toState := by
  simp only [TaskState.deliver, bind_eq_ok] at h
  obtain ⟨-, -, h⟩ := h
  cases msg with
  | createOperator address collateral proposer name =>
    obtain ⟨s, hs, rfl⟩ := withState_cases h
    obtain ⟨_, world, -, -, hmin, hsend, rfl⟩ := createOperator_cases hs
    exact .rows (Table.forall_mem_set (.inr (.create hsend hmin)) (fun _ => .inl)) (fun _ => .inl)
  | removeOperator address proposer =>
    obtain ⟨s, hs, rfl⟩ := withState_cases h
    obtain ⟨o, _, _, world, -, -, ho, -, rfl⟩ := removeOperator_cases hs
    exact .rows (fun _ ho' => .inl (Table.mem_delete.mp ho').1)
      (Table.forall_mem_set (.inr (.remove ho)) (fun _ => .inl))
  | addCollateral address increment =>
    obtain ⟨s, hs, rfl⟩ := withState_cases h
    obtain ⟨o, _, world, -, ho, hsend, rfl⟩ := addCollateral_cases hs
    exact .rows (Table.forall_mem_set (.inr (.add ho hsend)) (fun _ => .inl)) (fun _ => .inl)
  | reduceCollateral address decrement =>
    obtain ⟨s, hs, rfl⟩ := withState_cases h
    obtain ⟨o, collateral, _, _, -, -, ho, hsub, hmin, rfl⟩ := reduceCollateral_cases hs
    exact .rows (Table.forall_mem_set (.inr (.reduce ho hsub hmin)) (fun _ => .inl))
      (Table.forall_mem_set (.inr (.reduce address decrement)) (fun _ => .inl))
  | withdrawReward address =>
    obtain ⟨s, hs, rfl⟩ := withState_cases h
    simp only [State.withdrawAllReward, run_eq_ok] at hs
    obtain ⟨o, ho, world, -, rfl⟩ := hs
    exact .rows (Table.forall_mem_set (.inr (.withdrawReward ho)) (fun _ => .inl)) (fun _ => .inl)
  | createTask contract function bounty description creator wait validDuration =>
    obtain ⟨t, world, -, -, -, rfl⟩ := createTask_cases h
    exact .frame rfl rfl
  | taskResponse contract function score operator =>
    obtain ⟨t, -, -, -, -, rfl⟩ := respondToTask_cases h
    exact .frame rfl rfl
  | inquiryTask contract function txHash inquirer =>
    rw [inquireTask_cases h]
    exact .frame rfl rfl
  | deleteTask contract function force deleter =>
    obtain ⟨t, -, -, rfl⟩ := removeTask_cases h
    exact .frame rfl rfl

lemma closeTask_rewardsOnly {c c' : TaskState σ} {id : TaskID} (h : c.closeTask id = .ok c') :
    RewardsOnly c.toState c'.toState := by
  rcases closeTask_cases h with ⟨rfl, -⟩ | ⟨t, t', s, -, -, -, honly, rfl, -⟩
  · exact RewardsOnly.refl _
  · exact honly

/-- Every action is a sequence of moves. -/
lemma exec_poolMoves {c c' : TaskState σ} {a : Action σ} (h : c.exec k a = .ok c') :
    ReflTransGen (PoolMove k c a) c.toState c'.toState := by
  cases a with
  | beginBlock blockTime =>
    simp only [TaskState.exec, TaskState.beginBlocker, run_eq_ok] at h
    obtain ⟨s, hs, rfl⟩ := h
    have hframe : PoolMove k c (.beginBlock blockTime) c.toState
        { c.toState with height := c.height + 1 } := .frame rfl rfl
    refine foldlM_invariant (P := ReflTransGen (PoolMove k c (.beginBlock blockTime)) c.toState)
      ?_ (.single hframe) hs
    intro w _ s1 s2 h1 hw
    simp only [State.finalizeWithdraw, run_eq_ok] at hw
    obtain ⟨world, -, rfl⟩ := hw
    exact h1.tail (.rows (fun _ => .inl) (fun _ hw => .inl (Table.mem_delete.mp hw).1))
  | tx msg =>
    cases h
    cases hmsg : c.deliver k msg with
    | error f => exact .refl
    | ok c1 => exact .single (deliver_poolMove hmsg)
  | setPoolParams p =>
    cases h
    split
    · exact .single (.frame rfl rfl)
    · exact .refl
  | setTaskParams p =>
    cases h
    split <;> exact .refl
  | outside world =>
    cases h
    exact .single (.frame rfl rfl)
  | endBlock =>
    simp only [TaskState.exec, TaskState.endBlocker, run_eq_ok] at h
    obtain ⟨c1, hfold, rfl⟩ := h
    refine foldlM_invariant
      (P := fun c1 => ReflTransGen (PoolMove k c .endBlock) c.toState c1.toState)
      ?_ .refl hfold
    intro id _ c1 c2 h1 hclose
    exact h1.tail (.credit (closeTask_rewardsOnly hclose) (fun h => closeTask_nonneg h hclose))

end Shentu.Oracle
