import Shentu.Oracle.Steps
import Shentu.Oracle.TaskSteps

/-!
Who may change the record of an operator. Every message that changes a record names its
address, and all but one are signed by that address. A removal is signed by the proposer
that the message names, who need not be the proposer of the operator.
-/

namespace Shentu.Oracle

open Lib List Table

variable {σ : Type} {k : Keepers σ}

/-- The operator whose record a message can change. -/
def OracleMsg.operatorAddress : OracleMsg → Option Address
  | .createOperator address _ _ _ | .removeOperator address _ | .addCollateral address _
  | .reduceCollateral address _ | .withdrawReward address => some address
  | _ => none

section Frame

variable {s s' : State σ} {address : Address} {coins : Coins}

/-- The records of all other operators are as they were. -/
def OthersKept (address : Address) (s s' : State σ) : Prop :=
  ∀ a, a ≠ address → s'.operators.get a = s.operators.get a

lemma othersKept_set {o : Operator} (h : s'.operators = s.operators.set o)
    (haddress : o.address = address) : OthersKept address s s' := by
  intro a ha
  rw [h]
  exact get_set_of_ne _ (haddress ▸ ha)

lemma createOperator_othersKept {proposer : Address} {name : String}
    (h : s.createOperator k address coins proposer name = .ok s') : OthersKept address s s' := by
  obtain ⟨_, world, -, -, -, -, rfl⟩ := createOperator_cases h
  exact othersKept_set rfl rfl

lemma removeOperator_operators (h : s.removeOperator k address = .ok s') :
    (s.operators.get address).isSome = true ∧ s'.operators = s.operators.delete address := by
  obtain ⟨o, _, _, world, -, -, hget, -, rfl⟩ := removeOperator_cases h
  exact ⟨by simp [hget], rfl⟩

lemma addCollateral_othersKept (h : s.addCollateral k address coins = .ok s') :
    OthersKept address s s' := by
  obtain ⟨o, _, world, -, hget, -, rfl⟩ := addCollateral_cases h
  have haddress := get_address hget
  exact othersKept_set rfl haddress

lemma reduceCollateral_othersKept (h : s.reduceCollateral k address coins = .ok s') :
    OthersKept address s s' := by
  obtain ⟨o, collateral, _, _, -, -, hget, -, -, rfl⟩ := reduceCollateral_cases h
  have haddress := get_address hget
  exact othersKept_set rfl haddress

lemma withdrawAllReward_othersKept (h : s.withdrawAllReward k address = .ok s') :
    OthersKept address s s' := by
  simp only [State.withdrawAllReward, bind_eq_ok, orFail_eq_ok, pure_eq_ok] at h
  obtain ⟨o, hget, world, -, rfl⟩ := h
  have haddress := get_address hget
  exact othersKept_set rfl haddress

end Frame

variable {c c' : TaskState σ} {msg : OracleMsg}

/-- A message changes the record of the operator that it names and of no other. -/
lemma handle_operators (h : c.handle k msg = .ok c') {a : Address}
    (ha : msg.operatorAddress ≠ some a) : c'.operators.get a = c.operators.get a := by
  have hne : ∀ {address : Address}, some address ≠ some a → a ≠ address :=
    fun h heq => h (congrArg some heq.symm)
  cases msg with
  | createOperator address collateral proposer name =>
    obtain ⟨s, hs, rfl⟩ := withState_cases h
    exact createOperator_othersKept hs a (hne ha)
  | removeOperator address proposer =>
    obtain ⟨s, hs, rfl⟩ := withState_cases h
    have hoperators : s.operators = _ := (removeOperator_operators hs).2
    change s.operators.get a = _
    rw [hoperators]
    exact get_delete_of_ne _ (hne ha)
  | addCollateral address increment =>
    obtain ⟨s, hs, rfl⟩ := withState_cases h
    exact addCollateral_othersKept hs a (hne ha)
  | reduceCollateral address decrement =>
    obtain ⟨s, hs, rfl⟩ := withState_cases h
    exact reduceCollateral_othersKept hs a (hne ha)
  | withdrawReward address =>
    obtain ⟨s, hs, rfl⟩ := withState_cases h
    exact withdrawAllReward_othersKept hs a (hne ha)
  | createTask contract function bounty description creator wait validDuration =>
    obtain ⟨t, world, -, -, -, rfl⟩ := createTask_cases h
    rfl
  | taskResponse contract function score operator =>
    obtain ⟨t, -, -, -, -, rfl⟩ := respondToTask_cases h
    rfl
  | inquiryTask contract function txHash inquirer =>
    rw [inquireTask_cases h]
  | deleteTask contract function force deleter =>
    obtain ⟨t, -, -, rfl⟩ := removeTask_cases h
    rfl

/-- The record of an operator is changed, created or deleted only with the signature of the
operator or of the proposer in the record. -/
def OperatorAuthority (c c' : TaskState σ) (msg : OracleMsg) : Prop :=
  ∀ a, c'.operators.get a ≠ c.operators.get a →
    a ∈ msg.getSigners ∨ ∃ o ∈ c.operators.get a, o.proposer ∈ msg.getSigners

/-- A removal names the operator itself or its proposer as the proposer. -/
def RemovalAuthorised (c : TaskState σ) : OracleMsg → Prop
  | .removeOperator address proposer =>
    proposer = address ∨ ∃ o ∈ c.operators.get address, o.proposer = proposer
  | _ => True

/-- A message keeps to the authority over records exactly if it is no removal by a stranger. -/
theorem operatorAuthority_iff (h : c.deliver k msg = .ok c') :
    OperatorAuthority c c' msg ↔ RemovalAuthorised c msg := by
  simp only [TaskState.deliver, bind_eq_ok] at h
  obtain ⟨-, -, h⟩ := h
  have hnamed : ∀ a, c'.operators.get a ≠ c.operators.get a → msg.operatorAddress = some a := by
    intro a ha
    by_contra hother
    exact ha (handle_operators h hother)
  cases msg with
  | removeOperator address proposer =>
    obtain ⟨s, hs, rfl⟩ := withState_cases h
    obtain ⟨hsome, hoperators⟩ := removeOperator_operators hs
    constructor
    · intro hauthority
      have hchanged : s.operators.get address ≠ c.operators.get address := by
        rw [hoperators, get_delete_self]
        exact fun heq => by simp [← heq] at hsome
      rcases hauthority address hchanged with hsigner | ⟨o, ho, hsigner⟩
      · exact .inl (mem_singleton.mp hsigner).symm
      · exact .inr ⟨o, ho, mem_singleton.mp hsigner⟩
    · intro hauthorised a ha
      obtain rfl := Option.some.inj (hnamed a ha)
      rcases hauthorised with rfl | ⟨o, ho, rfl⟩
      · exact .inl (mem_singleton.mpr rfl)
      · exact .inr ⟨o, ho, mem_singleton.mpr rfl⟩
  | createOperator address collateral proposer name
  | addCollateral address increment
  | reduceCollateral address decrement
  | withdrawReward address =>
    refine ⟨fun _ => trivial, fun _ a ha => .inl ?_⟩
    obtain rfl := Option.some.inj (hnamed a ha)
    exact mem_singleton.mpr rfl
  | createTask contract function bounty description creator wait validDuration
  | taskResponse contract function score operator
  | inquiryTask contract function txHash inquirer
  | deleteTask contract function force deleter =>
    refine ⟨fun _ => trivial, fun _ a ha => ?_⟩
    cases hnamed a ha

/-- A module with one operator, whose proposer is another address. -/
def oneOperator : TaskState Unit :=
  let c := TaskState.start 1 ⟨30, 0⟩ ⟨0, 20, 50, 50, 1, 100⟩ ()
  c.orSame (c.deliver openKeepers (.createOperator [1] [⟨"uctk", 100⟩] [2] "operator"))

/-- The proposer of the operator removes it. -/
theorem operatorAuthority_of_proposer :
    ∃ c', oneOperator.deliver openKeepers (.removeOperator [1] [2]) = .ok c' ∧
      c'.operators.get [1] = none ∧
      OperatorAuthority oneOperator c' (.removeOperator [1] [2]) := by
  obtain ⟨c', hc', hremoved⟩ : ∃ c', oneOperator.deliver openKeepers (.removeOperator [1] [2]) = .ok
        c' ∧ c'.operators.get [1] = none := by
    decide +kernel
  obtain ⟨o, ho, hproposer⟩ : ∃ o, oneOperator.operators.get [1] = some o ∧ o.proposer = [2] := by
    decide +kernel
  exact ⟨c', hc', hremoved, (operatorAuthority_iff hc').mpr (.inr ⟨o, ho, hproposer⟩)⟩

/-- A stranger who names themselves as the proposer removes it as well. -/
theorem operator_removed_by_stranger :
    ∃ c', oneOperator.deliver openKeepers (.removeOperator [1] [9]) = .ok c' ∧
      ¬ OperatorAuthority oneOperator c' (.removeOperator [1] [9]) := by
  obtain ⟨c', hc', hremoved⟩ : ∃ c', oneOperator.deliver openKeepers (.removeOperator [1] [9]) = .ok
        c' ∧ c'.operators.get [1] = none := by
    decide +kernel
  obtain ⟨o, ho, hproposer⟩ : ∃ o, oneOperator.operators.get [1] = some o ∧ o.proposer = [2] := by
    decide +kernel
  refine ⟨c', hc', ?_⟩
  intro hauthority
  rcases hauthority [1] (by simp [hremoved, ho]) with hsigner | ⟨o', ho', hsigner⟩
  · exact absurd hsigner (by decide)
  · rw [ho] at ho'
    obtain rfl := Option.some.inj ho'
    rw [hproposer] at hsigner
    exact absurd hsigner (by decide)

end Shentu.Oracle
