import Shentu.Oracle.Solvency

/-!
The oracle module is solvent along every run. What the module has beyond what it owes does
not get less with any message, in any begin blocker, and in any end blocker that divides
bounties which can be credited in their own denominations.
-/

namespace Shentu.Oracle

open Lib Table Coins List Option

variable {σ : Type} {k : Keepers σ} {balance : σ → Denom → Int}

/-- What is kept along a run. -/
structure OracleSound (c : TaskState σ) : Prop where
  amounts : AmountsNonneg c.toState
  tasks : TasksSound c

/-- What the module has beyond what it owes does not get less. -/
def Covered (balance : σ → Denom → Int) (c c' : TaskState σ) : Prop :=
  ∀ d, balance c.world d - owed c d ≤ balance c'.world d - owed c' d

lemma Covered.trans {c1 c2 c3 : TaskState σ} (h : Covered balance c1 c2)
    (h' : Covered balance c2 c3) : Covered balance c1 c3 := fun d => (h d).trans (h' d)

lemma Covered.solvent {c c' : TaskState σ} (h : Covered balance c c')
    (hc : Solvent balance c) : Solvent balance c' := by
  intro d
  have hcovered := h d
  have howed := hc d
  omega

section Tasks

variable {c c' : TaskState σ}

lemma pendingBounty_nonneg {t : Task} (h : Coins.isValid t.bounty) (d : Denom) :
    0 ≤ t.pendingBounty d := by
  unfold Task.pendingBounty
  split
  · exact sumOf_nonneg (nonneg_of_isValid h) d
  · exact le_refl 0

lemma TasksSound.valueAt_nonneg (h : TasksSound c) (key : List Byte) (d : Denom) :
    0 ≤ c.tasks.valueAt (Task.pendingBounty d) key := by
  cases hget : c.tasks.get key with
  | none => rw [valueAt_of_get_none hget]
  | some t =>
    rw [valueAt_of_get hget]
    exact pendingBounty_nonneg (h.bounty t (mem_of_get hget)) d

lemma TasksSound.set (h : TasksSound c) {t : Task} (hbounty : Coins.isValid t.bounty)
    (hscores : ∀ r ∈ t.responses, minScore ≤ r.score ∧ r.score ≤ maxScore)
    (htasks : c'.tasks = c.tasks.set t) (hparams : c'.taskParams = c.taskParams) :
    TasksSound c' := by
  refine ⟨hparams ▸ h.params, ?_, ?_⟩
  · rw [htasks]
    intro t' ht'
    rcases mem_set.mp ht' with rfl | ⟨ht', -⟩
    · exact hbounty
    · exact h.bounty t' ht'
  · rw [htasks]
    exact forall_mem_set hscores h.scores

lemma withState_covered {s : State σ} (hc : OracleSound c)
    (h : AmountsNonneg s ∧ (ExactBank k balance → OperatorsCovered balance c.toState s)) :
    OracleSound { c with toState := s } ∧
      (ExactBank k balance → Covered balance c { c with toState := s }) := by
  refine ⟨⟨h.1, ⟨hc.tasks.params, hc.tasks.bounty, hc.tasks.scores⟩⟩, ?_⟩
  intro hbank d
  have hcovered := h.2 hbank d
  simp only [owed]
  omega

lemma createTask_covered (hk : TakesValid k) (hc : OracleSound c)
    {contract function : List Byte} {bounty : Coins} {description : String} {expiration : Int}
    {creator : Address} {waitingBlocks : Int}
    (h : c.createTask k contract function bounty description expiration creator waitingBlocks =
      .ok c') : OracleSound c' ∧ (ExactBank k balance → Covered balance c c') := by
  obtain ⟨t, world, rfl, -, hsend, rfl⟩ := createTask_cases h
  have hvalid := hk hsend
  refine ⟨⟨⟨hc.amounts.operators, hc.amounts.withdraws⟩, ?_⟩, ?_⟩
  · exact hc.tasks.set hvalid (fun r hr => absurd hr not_mem_nil) rfl rfl
  · intro hbank d
    have hmoved := hbank.takes hsend d
    have hold := hc.tasks.valueAt_nonneg (c.newTask contract function bounty description expiration
      creator waitingBlocks).storeKey d
    have hnew : (c.newTask contract function bounty description expiration creator
      waitingBlocks).pendingBounty d = bounty.sumOf d := if_pos rfl
    simp only [owed, operatorsOwed, rewardsOf, TaskState.setTask, TaskState.setClosingBlockStore,
      total_set, hnew]
    omega

lemma respondToTask_covered (hc : OracleSound c) {contract function : List Byte} {score : Int}
    {operator : Address} (h : c.respondToTask contract function score operator = .ok c') :
    OracleSound c' ∧ Covered balance c c' := by
  obtain ⟨t, hget, -, hmin, hmax, rfl⟩ := respondToTask_cases h
  have ht := mem_of_get hget
  have hkey : t.storeKey = taskStoreKey contract function := key_of_get hget
  refine ⟨⟨⟨hc.amounts.operators, hc.amounts.withdraws⟩, ?_⟩, ?_⟩
  · refine hc.tasks.set (t := { t with responses := t.responses ++ [newResponse score operator] })
      (hc.tasks.bounty t ht) ?_ rfl rfl
    intro r hr
    rcases mem_append.mp hr with hr | hr
    · exact hc.tasks.scores t ht r hr
    · rw [mem_singleton.mp hr]
      exact ⟨hmin, hmax⟩
  · intro d
    have hsame : (c.tasks.set
        { t with responses := t.responses ++ [newResponse score operator] }).total
          (Task.pendingBounty d) = c.tasks.total (Task.pendingBounty d) := by
      have hvalue : c.tasks.valueAt (Task.pendingBounty d) t.storeKey = t.pendingBounty d := by
        rw [hkey]
        exact valueAt_of_get hget _
      rw [total_set]
      change _ - c.tasks.valueAt (Task.pendingBounty d) t.storeKey + t.pendingBounty d = _
      omega
    simp only [owed, operatorsOwed, rewardsOf, TaskState.setTask, hsame]
    exact le_refl _

lemma removeTask_covered (hc : OracleSound c) {contract function : List Byte} {force : Bool}
    {creator : Address} (h : c.removeTask contract function force creator = .ok c') :
    OracleSound c' ∧ Covered balance c c' := by
  obtain ⟨t, -, -, rfl⟩ := removeTask_cases h
  refine ⟨⟨⟨hc.amounts.operators, hc.amounts.withdraws⟩, hc.tasks.params, ?_, ?_⟩, ?_⟩
  · exact fun t' ht' => hc.tasks.bounty t' (mem_delete.mp ht').1
  · exact fun t' ht' => hc.tasks.scores t' (mem_delete.mp ht').1
  · intro d
    have hold := hc.tasks.valueAt_nonneg t.storeKey d
    simp only [owed, operatorsOwed, rewardsOf, TaskState.deleteTask, total_delete]
    omega

/-- Every message that succeeds is covered. -/
lemma deliver_covered (hk : TakesValid k) (hc : OracleSound c) {msg : OracleMsg}
    (h : c.deliver k msg = .ok c') :
    OracleSound c' ∧ (ExactBank k balance → Covered balance c c') := by
  simp only [TaskState.deliver, bind_eq_ok] at h
  obtain ⟨_, hbasic, h⟩ := h
  cases msg with
  | createOperator address collateral proposer name =>
    obtain ⟨s, hs, rfl⟩ := withState_cases h
    exact withState_covered hc (createOperator_covered hk hc.amounts hs)
  | removeOperator address proposer =>
    obtain ⟨s, hs, rfl⟩ := withState_cases h
    exact withState_covered hc (removeOperator_covered hc.amounts hs)
  | addCollateral address increment =>
    obtain ⟨s, hs, rfl⟩ := withState_cases h
    exact withState_covered hc (addCollateral_covered hk hc.amounts hs)
  | reduceCollateral address decrement =>
    obtain ⟨s, hs, rfl⟩ := withState_cases h
    have hnonneg : Coins.nonneg decrement := nonneg_iff.mpr (failIf_eq_ok.mp hbasic)
    exact withState_covered hc (reduceCollateral_covered hc.amounts hnonneg hs)
  | withdrawReward address =>
    obtain ⟨s, hs, rfl⟩ := withState_cases h
    exact withState_covered hc (withdrawAllReward_covered hc.amounts hs)
  | createTask contract function bounty description creator wait validDuration =>
    exact createTask_covered hk hc h
  | taskResponse contract function score operator =>
    obtain ⟨hc', hcovered⟩ := respondToTask_covered hc h
    exact ⟨hc', fun _ => hcovered⟩
  | inquiryTask contract function txHash inquirer =>
    rw [inquireTask_cases h]
    exact ⟨hc, fun _ d => le_refl _⟩
  | deleteTask contract function force deleter =>
    obtain ⟨hc', hcovered⟩ := removeTask_covered hc h
    exact ⟨hc', fun _ => hcovered⟩

end Tasks

section EndBlock

variable {c c' : TaskState σ}

lemma Closed.payable {p : TaskParams} {t t' : Task} (h : Closed t t')
    (hp : BountyPayable p t) : BountyPayable p t' := by
  rcases hp with hone | habove
  · exact .inl (h.bounty ▸ hone)
  · refine .inr ?_
    intro r' hr'
    obtain ⟨r, hr, hsame⟩ := h.responses.mem hr'
    rw [hsame.2]
    exact habove r hr

lemma Closed.scores {t t' : Task} (h : Closed t t')
    (hscores : ∀ r ∈ t.responses, minScore ≤ r.score ∧ r.score ≤ maxScore) :
    ∀ r ∈ t'.responses, minScore ≤ r.score ∧ r.score ≤ maxScore := by
  intro r' hr'
  obtain ⟨r, hr, hsame⟩ := h.responses.mem hr'
  rw [hsame.2]
  exact hscores r hr

/-- The closing of a task gives away at most its bounty, if that can be credited. -/
lemma closeTask_covered (hc : OracleSound c) {id : TaskID} (h : c.closeTask id = .ok c') :
    OracleSound c' ∧ ((∀ t ∈ c.getTask id.contract id.function, t.status = .pending →
      BountyPayable c.taskParams t) → Covered balance c c') := by
  rcases closeTask_cases h with ⟨rfl, -⟩ | ⟨t, t', s, hget, hpending, hclosed, honly, rfl, hrewards⟩
  · exact ⟨hc, fun _ d => le_refl _⟩
  · have ht := mem_of_get hget
    have hbounty := hc.tasks.bounty t ht
    have hscores := hc.tasks.scores t ht
    refine ⟨⟨honly.amountsNonneg hc.amounts, ?_⟩, ?_⟩
    · exact hc.tasks.set (hclosed.bounty ▸ hbounty) (hclosed.scores hscores) rfl rfl
    · intro hpayable d
      have hcredit : rewardsOf s d ≤ rewardsOf c.toState d + t.bounty.sumOf d := by
        rcases hrewards with rfl | ⟨t1, hclosed1, hcredited⟩
        · have hnonneg := sumOf_nonneg (nonneg_of_isValid hbounty) d
          omega
        · have hle := credited_le hc.tasks.params hc.amounts (hclosed1.bounty ▸ hbounty)
            (hclosed1.scores hscores) (hclosed1.payable (hpayable t hget hpending)) hcredited d
          rwa [hclosed1.bounty] at hle
      have htasks : (c.tasks.set t').total (Task.pendingBounty d) =
          c.tasks.total (Task.pendingBounty d) - t.bounty.sumOf d := by
        have hvalue : c.tasks.valueAt (Task.pendingBounty d) t'.storeKey = t.bounty.sumOf d := by
          rw [hclosed.storeKey, valueAt_of_get (get_of_mem ht)]
          exact if_pos hpending
        have hnone : t'.pendingBounty d = 0 := if_neg hclosed.status
        rw [total_set, hvalue, hnone, add_zero]
      simp only [owed, honly.operatorsOwed_eq, htasks, honly.world]
      omega

/-- The pending tasks on the list of the block have bounties that can be credited. -/
def DuePayable (c : TaskState σ) (ids : List TaskID) : Prop :=
  ∀ id ∈ ids, ∀ t ∈ c.getTask id.contract id.function, t.status = .pending →
    BountyPayable c.taskParams t

instance (c : TaskState σ) (ids : List TaskID) : Decidable (DuePayable c ids) := by
  unfold DuePayable
  infer_instance

lemma DuePayable.closeTask {ids : List TaskID} (h : DuePayable c ids) {id : TaskID}
    (hclose : c.closeTask id = .ok c') : DuePayable c' ids := by
  intro id' hid' t ht hpending
  obtain ⟨hget, hparams⟩ := pending_of_closeTask hclose ht hpending
  exact hparams ▸ h id' hid' t hget hpending

lemma endBlocker_covered (hc : OracleSound c) (h : c.endBlocker = .ok c') :
    OracleSound c' ∧
      (DuePayable c (c.getClosingTaskIDs c.height) → Covered balance c c') := by
  simp only [TaskState.endBlocker, bind_eq_ok, pure_eq_ok] at h
  obtain ⟨c1, hfold, rfl⟩ := h
  have hloop : OracleSound c1 ∧ (DuePayable c (c.getClosingTaskIDs c.height) →
      Covered balance c c1 ∧ DuePayable c1 (c.getClosingTaskIDs c.height)) := by
    refine foldlM_invariant (P := fun c1 => OracleSound c1 ∧
      (DuePayable c (c.getClosingTaskIDs c.height) →
        Covered balance c c1 ∧ DuePayable c1 (c.getClosingTaskIDs c.height))) ?_
      ⟨hc, fun hdue => ⟨fun d => le_refl _, hdue⟩⟩ hfold
    rintro id hid c1 c2 ⟨hc1, hcovered⟩ hclose
    obtain ⟨hc2, hcovered2⟩ := closeTask_covered hc1 hclose
    refine ⟨hc2, fun hdue => ?_⟩
    obtain ⟨hcovered1, hdue1⟩ := hcovered hdue
    exact ⟨hcovered1.trans (hcovered2 (hdue1 id hid)), hdue1.closeTask hclose⟩
  obtain ⟨hc1, hcovered⟩ := hloop
  exact ⟨⟨hc1.amounts, hc1.tasks.params, hc1.tasks.bounty, hc1.tasks.scores⟩,
    fun hdue => (hcovered hdue).1⟩

end EndBlock

/-- Every end blocker finds bounties that can be credited. -/
def PaysBounties (c : TaskState σ) : Action σ → Prop
  | .endBlock => DuePayable c (c.getClosingTaskIDs c.height)
  | _ => True

instance (c : TaskState σ) (a : Action σ) : Decidable (PaysBounties c a) := by
  unfold PaysBounties
  induction a using Action.casesOn <;> infer_instance

/-- Other modules do not take coins from the account of the module. -/
def AccountKept (balance : σ → Denom → Int) (c : TaskState σ) : Action σ → Prop
  | .outside world => ∀ d, balance c.world d ≤ balance world d
  | _ => True

/-- Every action keeps what is stored sound, and is covered under its conditions. -/
lemma exec_covered (hk : TakesValid k) {c c' : TaskState σ} {a : Action σ}
    (hc : OracleSound c) (h : c.exec k a = .ok c') :
    OracleSound c' ∧ (ExactBank k balance → PaysBounties c a → AccountKept balance c a →
      Covered balance c c') := by
  cases a with
  | beginBlock blockTime =>
    simp only [TaskState.exec, TaskState.beginBlocker, bind_eq_ok, pure_eq_ok] at h
    obtain ⟨s, hs, rfl⟩ := h
    have hstart : AmountsNonneg { c.toState with height := c.height + 1 } :=
      ⟨hc.amounts.operators, hc.amounts.withdraws⟩
    obtain ⟨hamounts, hcovered⟩ := finalizeMatureWithdraws_covered hstart hs
    refine ⟨⟨hamounts, hc.tasks.params, hc.tasks.bounty, hc.tasks.scores⟩, ?_⟩
    intro hbank _ _ d
    have hpool := hcovered hbank d
    simp only [owed]
    simp only [operatorsOwed, rewardsOf] at hpool ⊢
    omega
  | tx msg =>
    cases h
    cases hmsg : c.deliver k msg with
    | error f => exact ⟨hc, fun _ _ _ d => le_refl _⟩
    | ok c1 =>
      obtain ⟨hc1, hcovered⟩ := deliver_covered hk hc hmsg
      exact ⟨hc1, fun hbank _ _ => hcovered hbank⟩
  | setPoolParams p =>
    cases h
    split
    · exact ⟨⟨⟨hc.amounts.operators, hc.amounts.withdraws⟩, hc.tasks.params, hc.tasks.bounty,
        hc.tasks.scores⟩, fun _ _ _ d => le_refl _⟩
    · exact ⟨hc, fun _ _ _ d => le_refl _⟩
  | setTaskParams p =>
    cases h
    split
    · rename_i hp
      exact ⟨⟨hc.amounts, hp, hc.tasks.bounty, hc.tasks.scores⟩, fun _ _ _ d => le_refl _⟩
    · exact ⟨hc, fun _ _ _ d => le_refl _⟩
  | outside world =>
    cases h
    refine ⟨⟨⟨hc.amounts.operators, hc.amounts.withdraws⟩, hc.tasks.params, hc.tasks.bounty,
      hc.tasks.scores⟩, ?_⟩
    intro _ _ hkept d
    have hmore := hkept d
    simp only [owed, operatorsOwed, rewardsOf]
    omega
  | endBlock =>
    obtain ⟨hc', hcovered⟩ := endBlocker_covered hc h
    exact ⟨hc', fun _ hpays _ => hcovered hpays⟩

lemma OracleSound.start {height : Nat} {poolParams : LockedPoolParams} {taskParams : TaskParams}
    {world : σ} (hparams : taskParams.validate) :
    OracleSound (TaskState.start height poolParams taskParams world) :=
  ⟨⟨fun _ ho => absurd ho not_mem_nil, fun _ hw => absurd hw not_mem_nil⟩, hparams,
    fun _ ht => absurd ht not_mem_nil, fun _ ht => absurd ht not_mem_nil⟩

/-- In every run whose end blockers find bounties that can be credited, the account of the module
covers what the module owes, and no stored task with such a bounty is credited more than it. -/
theorem solvent_of_run (hk : TakesValid k) (hbank : ExactBank k balance) {height : Nat}
    {poolParams : LockedPoolParams} {taskParams : TaskParams} {world : σ}
    (hparams : taskParams.validate)
    (hworld : ∀ d, 0 ≤ balance world d) {actions : List (Action σ)} {c : TaskState σ}
    (hpays : StepsMeet PaysBounties (TaskState.exec k)
      (TaskState.start height poolParams taskParams world) actions)
    (hkept : StepsMeet (AccountKept balance) (TaskState.exec k)
      (TaskState.start height poolParams taskParams world) actions)
    (hrun : TaskState.run k (TaskState.start height poolParams taskParams world) actions = .ok c) :
    Solvent balance c ∧
      ∀ t ∈ c.tasks.rows, BountyPayable c.taskParams t → ∀ c', c.distributeBounty t = .ok c' →
        ∀ d, rewardsOf c'.toState d ≤ rewardsOf c.toState d + t.bounty.sumOf d := by
  have hend : OracleSound c ∧ Solvent balance c := by
    refine foldlM_invariant_of_meets (P := fun c => OracleSound c ∧ Solvent balance c) ?_
      ⟨OracleSound.start hparams, hworld⟩ (hpays.and hkept) hrun
    rintro a c₁ c₂ ⟨hc₁, hsolvent⟩ ⟨hpays₁, hkept₁⟩ hexec
    obtain ⟨hc₂, hcovered⟩ := exec_covered hk hc₁ hexec
    exact ⟨hc₂, (hcovered hbank hpays₁ hkept₁).solvent hsolvent⟩
  refine ⟨hend.2, ?_⟩
  intro t ht hpayable c' hdistribute d
  obtain ⟨s, rs, -, -, hcredited, rfl⟩ := distributeBounty_cases hdistribute
  exact credited_le hend.1.tasks.params hend.1.amounts (hend.1.tasks.bounty t ht)
    (hend.1.tasks.scores t ht) hpayable hcredited d

/-- A world that is the balance of the module: senders have enough of every coin. -/
def vaultKeepers : Keepers Coins where
  bondDenom := "uctk"
  sendCoinsFromAccountToModule w _ coins := if Coins.isValid coins then some (w.add coins) else none
  sendCoinsFromModuleToAccount w _ coins := if Coins.isValid coins then w.sub coins else none

lemma takesValid_vaultKeepers : TakesValid vaultKeepers :=
  fun h => (ite_none_right_eq_some.mp h).1

lemma exactBank_vaultKeepers : ExactBank vaultKeepers Coins.sumOf := by
  refine ⟨?_, ?_⟩
  · intro w w' a coins h d
    obtain ⟨-, heq⟩ := ite_none_right_eq_some.mp h
    cases heq
    exact sumOf_add w coins d
  · intro w w' a coins h d
    obtain ⟨-, hsub⟩ := ite_none_right_eq_some.mp h
    exact sumOf_sub hsub d

/-- One operator answers a task with a score, and the task closes in the same block. -/
def answeredTask (bounty : Coins) (score : Int) : List (Action Coins) :=
  [.tx (.createOperator [1] [⟨"uctk", 100⟩] [1] "operator"),
    .tx (.createTask [7] [8] bounty "" [3] 0 0), .tx (.taskResponse [7] [8] score [1]), .endBlock]

lemma answeredTask_kept (bounty : Coins) (score : Int) (c : TaskState Coins) :
    StepsMeet (AccountKept Coins.sumOf) (TaskState.exec vaultKeepers) c
      (answeredTask bounty score) :=
  ⟨trivial, fun _ _ => ⟨trivial, fun _ _ => ⟨trivial, fun _ _ => ⟨trivial, fun _ _ => trivial⟩⟩⟩⟩

/-- The module before the task: threshold 50, and a window of no blocks. -/
def vaultStart : TaskState Coins := TaskState.start 1 ⟨30, 1⟩ ⟨0, 0, 50, 50, 1, 100⟩ []

/-- A bounty of one coin is paid in full. -/
theorem solvent_single_bounty :
    ∃ c, TaskState.run vaultKeepers vaultStart (answeredTask [⟨"atom", 70⟩] 10) = .ok c ∧
      rewardsOf c.toState "atom" = 70 ∧ Solvent Coins.sumOf c := by
  obtain ⟨c, hc, hrewards⟩ : ∃ c, TaskState.run vaultKeepers vaultStart (answeredTask [⟨"atom", 70⟩]
        10) = .ok c ∧ rewardsOf c.toState "atom" = 70 := by
    decide +kernel
  have hpays : StepsMeet PaysBounties (TaskState.exec vaultKeepers) vaultStart
      (answeredTask [⟨"atom", 70⟩] 10) := by
    decide +kernel
  exact ⟨c, hc, hrewards, (solvent_of_run takesValid_vaultKeepers exactBank_vaultKeepers
    (by decide) (fun d => le_refl 0) hpays (answeredTask_kept _ _ _) hc).1⟩

/-- A bounty of two coins is credited twice in the denomination of the first one. -/
theorem insolvent_two_coins :
    ∃ c, TaskState.run vaultKeepers vaultStart
        (answeredTask [⟨"atom", 70⟩, ⟨"uctk", 70⟩] 10) = .ok c ∧
      rewardsOf c.toState "atom" = 140 ∧ c.world.sumOf "atom" = 70 ∧ ¬ Solvent Coins.sumOf c := by
  obtain ⟨c, hc, hrewards, hworld, hless⟩ : ∃ c, TaskState.run vaultKeepers vaultStart (answeredTask
        [⟨"atom", 70⟩, ⟨"uctk", 70⟩] 10) = .ok c ∧ rewardsOf c.toState "atom" = 140 ∧
      c.world.sumOf "atom" = 70 ∧ c.world.sumOf "atom" < owed c "atom" := by
    decide +kernel
  exact ⟨c, hc, hrewards, hworld, fun hsolvent => absurd (hsolvent "atom") (not_le.mpr hless)⟩

end Shentu.Oracle
