import Shentu.Oracle.BeginBlocker

/-!
Withdrawals are paid on time. In every run of the module in which withdrawals are created in order,
the account of the module covers each of them when it is due, so that no begin blocker fails, and
each is paid at the first height at which it is due, once and not before.
-/

namespace Shentu.Oracle

open Lib Table Option

variable {σ : Type} {k : Keepers σ} {balance : σ → Denom → Int} {c c' : TaskState σ}

/-- The message about an operator or its collateral that a message is. -/
def OracleMsg.poolMsg : OracleMsg → Option Msg
  | .createOperator address collateral proposer name =>
    some (.createOperator address collateral proposer name)
  | .removeOperator address _ => some (.removeOperator address)
  | .addCollateral address increment => some (.addCollateral address increment)
  | .reduceCollateral address decrement => some (.reduceCollateral address decrement)
  | .withdrawReward address => some (.withdrawReward address)
  | _ => none

/-- What is seen of the collateral in an action. A payment is seen where the supply keeper makes
it. -/
def poolEntries (k : Keepers σ) (c : TaskState σ) : Action σ → List Entry
  | .beginBlock _ =>
    let s : State σ := { c.toState with height := c.height + 1 }
    observations (payEntries k) (State.finalizeWithdraw k) s s.matureWithdraws
  | .tx msg => msg.poolMsg.elim [] fun m => entries k c.toState (.tx m)
  | _ => []

def poolLog (k : Keepers σ) (c : TaskState σ) (actions : List (Action σ)) : List Entry :=
  observations (poolEntries k) (TaskState.exec k) c actions

/-- The withdrawal that an accepted message creates is in order, its place is free, and its amount
is a valid list of coins. -/
def CreatedInOrder (k : Keepers σ) (c : TaskState σ) : Action σ → Prop
  | .tx (.reduceCollateral address decrement) =>
    (∃ c', c.deliver k (.reduceCollateral address decrement) = .ok c') →
      InOrder c.height c.dueBlock ∧
        c.withdraws.get (withdrawStoreKey address c.dueBlock) = none ∧ Coins.isValid decrement
  | .tx (.removeOperator address proposer) =>
    (∃ c', c.deliver k (.removeOperator address proposer) = .ok c') →
      InOrder c.height c.dueBlock ∧ c.withdraws.get (withdrawStoreKey address c.dueBlock) = none
  | _ => True

instance (k : Keepers σ) (c : TaskState σ) (a : Action σ) : Decidable (CreatedInOrder k c a) := by
  unfold CreatedInOrder
  induction a using Action.casesOn with
  | tx msg => induction msg using OracleMsg.casesOn <;> infer_instance
  | _ => infer_instance

lemma deliver_poolMsg {msg : OracleMsg} {m : Msg} (h : msg.poolMsg = some m) :
    c.deliver k msg = c.withState (deliverTx k c.toState m) := by
  have hbind : ∀ (r : Except Fault Unit) (r' : Except Fault (State σ)),
      (r >>= fun _ => c.withState r') = c.withState (r >>= fun _ => r') := by
    intro r r'
    cases r <;> rfl
  cases msg <;> cases h <;> exact hbind _ _

/-- The other messages leave the operators and the withdrawals alone. -/
lemma deliver_not_poolMsg {msg : OracleMsg} (h : msg.poolMsg = none)
    (hdeliver : c.deliver k msg = .ok c') : Step k c.toState c'.toState [] := by
  simp only [TaskState.deliver, bind_eq_ok] at hdeliver
  obtain ⟨-, -, hhandle⟩ := hdeliver
  cases msg with
  | createOperator | removeOperator | addCollateral | reduceCollateral | withdrawReward => cases h
  | createTask =>
    obtain ⟨t, world, -, -, -, rfl⟩ := createTask_cases hhandle
    exact .other rfl rfl rfl
  | taskResponse =>
    obtain ⟨t, -, -, -, -, rfl⟩ := respondToTask_cases hhandle
    exact .other rfl rfl rfl
  | inquiryTask =>
    rw [inquireTask_cases hhandle]
    exact .other rfl rfl rfl
  | deleteTask =>
    obtain ⟨t, -, -, rfl⟩ := removeTask_cases hhandle
    exact .other rfl rfl rfl

lemma tx_poolStep (k : Keepers σ) (c : TaskState σ) (msg : OracleMsg) :
    Step k c.toState (c.orSame (c.deliver k msg)).toState (poolEntries k c (.tx msg)) := by
  change Step k _ _ (msg.poolMsg.elim [] fun m => entries k c.toState (.tx m))
  cases hpool : msg.poolMsg with
  | none =>
    cases hdeliver : c.deliver k msg with
    | error f => exact .other rfl rfl rfl
    | ok c₁ => exact deliver_not_poolMsg hpool hdeliver
  | some m =>
    rw [deliver_poolMsg hpool]
    dsimp only [Option.elim, entries]
    cases htx : deliverTx k c.toState m with
    | error f => exact .other rfl rfl rfl
    | ok s => exact deliverTx_step htx

lemma poolEntries_beginBlock {blockTime : Int} (h : c.exec k (.beginBlock blockTime) = .ok c') :
    exec k c.toState .beginBlock = .ok c'.toState ∧
      poolEntries k c (.beginBlock blockTime) = entries k c.toState .beginBlock := by
  simp only [TaskState.exec, TaskState.beginBlocker, run_eq_ok] at h
  obtain ⟨s, hs, rfl⟩ := h
  exact ⟨hs, payEntries_fold hs⟩

variable {a : Action σ}

/-- The withdrawals of an action that keeps the order. -/
lemma CreatedInOrder.created (h : CreatedInOrder k c a)
    (hexec : c.exec k a = .ok c') {height : Nat} {w : Withdraw}
    (hw : .created height w ∈ poolEntries k c a) :
    InOrder c.height w.dueBlock ∧ c.withdraws.get w.storeKey = none := by
  cases a with
  | beginBlock blockTime =>
    rw [(poolEntries_beginBlock hexec).2] at hw
    simp [entries] at hw
  | tx msg =>
    change .created height w ∈ msg.poolMsg.elim [] fun m => entries k c.toState (.tx m) at hw
    cases hpool : msg.poolMsg with
    | none =>
      rw [hpool] at hw
      cases hw
    | some m =>
      rw [hpool, Option.elim_some] at hw
      have haccepted : ∃ c', c.deliver k msg = .ok c' := by
        rw [deliver_poolMsg hpool]
        cases htx : deliverTx k c.toState m with
        | error f => simp [entries, htx] at hw
        | ok s => exact ⟨_, rfl⟩
      obtain ⟨address, amount, o, he, hget, -, rfl⟩ := created_cases hw
      rcases he with he | ⟨he, -⟩ <;> cases he <;> cases msg <;> cases hpool
      · obtain ⟨hin, hfree, -⟩ := h haccepted
        exact ⟨hin, hfree⟩
      · exact h haccepted
  | setPoolParams | setTaskParams | outside | endBlock => cases hw

lemma endBlock_rewardsOnly (h : c.exec k .endBlock = .ok c') :
    RewardsOnly c.toState c'.toState := by
  simp only [TaskState.exec, TaskState.endBlocker, run_eq_ok] at h
  obtain ⟨c₁, hfold, rfl⟩ := h
  have honly : RewardsOnly c.toState c₁.toState :=
    foldlM_invariant (P := fun c₁ : TaskState σ => RewardsOnly c.toState c₁.toState)
      (fun _ _ _ _ honly hclose => honly.trans (closeTask_rewardsOnly hclose)) (.refl _) hfold
  exact honly

/-- Every action that keeps the order follows the withdrawals under a key. -/
lemma Followed.exec {l : List Entry} {key : List Byte}
    {pending : Option (Nat × Withdraw)} (h : Followed c.toState l key pending)
    (horder : CreatedInOrder k c a) (hexec : c.exec k a = .ok c') :
    ∃ pending', Followed c'.toState (l ++ poolEntries k c a) key pending' := by
  cases a with
  | endBlock =>
    have honly := endBlock_rewardsOnly hexec
    exact ⟨pending, h.other rfl (by rw [honly.withdraws]) honly.height⟩
  | beginBlock blockTime =>
    have hcreated := @CreatedInOrder.created σ k c c' _ horder hexec
    obtain ⟨hblock, hentries⟩ := poolEntries_beginBlock hexec
    rw [hentries] at hcreated ⊢
    exact h.step (exec_step hblock) hcreated
  | tx msg =>
    cases hexec
    exact h.step (tx_poolStep k c msg) (horder.created rfl)
  | setPoolParams | setTaskParams =>
    cases hexec
    refine ⟨pending, h.other rfl ?_ ?_⟩ <;> split <;> rfl
  | outside =>
    cases hexec
    exact ⟨pending, h.other rfl rfl rfl⟩

/-- Every action that keeps the order leaves the module able to pay. -/
lemma PoolSound.exec_inOrder (hk : TakesValid k) (hbank : SupplyBank k balance)
    (h : PoolSound balance c) (horder : CreatedInOrder k c a) (hpays : PaysBounties c a)
    (hkept : AccountKept balance c a) (hexec : c.exec k a = .ok c') : PoolSound balance c' := by
  by_cases hreduces : ReducesValid c a
  · exact h.exec hk hbank hreduces hpays hkept hexec
  -- Coins that are not valid are in a message that is refused.
  cases a with
  | tx msg =>
    cases msg with
    | reduceCollateral address decrement =>
      cases hexec
      cases hdeliver : c.deliver k (.reduceCollateral address decrement) with
      | error f => exact h
      | ok c₁ => exact absurd (horder ⟨c₁, hdeliver⟩).2.2 hreduces
    | _ => exact absurd trivial hreduces
  | _ => exact absurd trivial hreduces

/-- In every run in which withdrawals are created in order, and whose end blockers find bounties
that can be credited, each withdrawal is paid at the first height at which it is due, once and not
before, and the next begin blocker does not fail. -/
theorem withdraws_paid_on_time (hk : TakesValid k) (hbank : SupplyBank k balance)
    {c₀ : TaskState σ} (hsound : PoolSound balance c₀) (hwithdraws : c₀.withdraws = Table.empty)
    {actions : List (Action σ)}
    (horder : StepsMeet (CreatedInOrder k) (TaskState.exec k) c₀ actions)
    (hpays : StepsMeet PaysBounties (TaskState.exec k) c₀ actions)
    (hkept : StepsMeet (AccountKept balance) (TaskState.exec k) c₀ actions)
    (hrun : TaskState.run k c₀ actions = .ok c) :
    (∀ key, PaidOnTime c.toState (poolLog k c₀ actions) key) ∧
      ∀ blockTime, ∃ c', c.exec k (.beginBlock blockTime) = .ok c' := by
  constructor
  · intro key
    have hstart : ∃ pending, Followed c₀.toState [] key pending := by
      refine ⟨none, rfl, ?_, fun _ _ heq => by cases heq⟩
      rw [hwithdraws]
      rfl
    obtain ⟨pending, hend⟩ := foldlM_observed
      (P := fun (c : TaskState σ) l => ∃ pending, Followed c.toState l key pending)
      (fun _ _ _ _ h horder hexec => h.elim fun _ hp => hp.exec horder hexec) hstart horder hrun
    exact ⟨pending, hend.read, hend.stored, fun created w heq => (hend.before created w heq).2.1⟩
  · have hend : PoolSound balance c := by
      refine foldlM_invariant_of_meets (P := PoolSound balance) ?_ hsound
        (horder.and (hpays.and hkept)) hrun
      rintro a c₁ c₂ hc₁ ⟨horder₁, hpays₁, hkept₁⟩ hexec
      exact hc₁.exec_inOrder hk hbank horder₁ hpays₁ hkept₁ hexec
    exact hend.beginBlock hbank

/-- A module at a height, with a lock of some blocks and without a minimum of collateral. -/
def lockedStart (height : Nat) (lockedInBlocks : Int) : TaskState (Denom → Int) :=
  TaskState.start height ⟨lockedInBlocks, 0⟩ ⟨0, 0, 50, 50, 1, 100⟩ (fun _ => 0)

/-- An operator withdraws 10 of 100, and blocks follow. -/
def lockedActions (blocks : Nat) : List (Action (Denom → Int)) :=
  reducedCollateral [⟨"uctk", 10⟩] ++ List.replicate blocks (.beginBlock 0)

/-- A withdrawal at height 100 with a lock of 30 blocks is paid at height 130. -/
theorem withdraw_paid_after_lock : .paid 130 ⟨[1], [⟨"uctk", 10⟩], 130⟩ ∈
        poolLog ledgerKeepers (lockedStart 100 30) (lockedActions 40) ∧
      ∃ c, TaskState.run ledgerKeepers (lockedStart 100 30) (lockedActions 40) = .ok c ∧
        ∀ key, PaidOnTime c.toState
          (poolLog ledgerKeepers (lockedStart 100 30) (lockedActions 40)) key := by
  refine ⟨by decide +kernel, ?_⟩
  obtain ⟨c, hc⟩ : ∃ c,
      TaskState.run ledgerKeepers (lockedStart 100 30) (lockedActions 40) = .ok c := by
    decide +kernel
  have horder : StepsMeet (CreatedInOrder ledgerKeepers) (TaskState.exec ledgerKeepers)
      (lockedStart 100 30) (lockedActions 40) := by
    decide +kernel
  have hpays : StepsMeet PaysBounties (TaskState.exec ledgerKeepers) (lockedStart 100 30)
      (lockedActions 40) := by
    decide +kernel
  have hkept : StepsMeet (AccountKept fun w d => w d) (TaskState.exec ledgerKeepers)
      (lockedStart 100 30) (lockedActions 40) := by
    refine (stepsMeet_of_forall (c := fun a : Action (Denom → Int) =>
      ∀ c, AccountKept (fun w d => w d) c a) _ _ ?_).mono fun c _ h => h c
    intro a ha
    rcases List.mem_append.mp ha with ha | ha
    · simp only [reducedCollateral, List.mem_cons, List.not_mem_nil, or_false] at ha
      rcases ha with rfl | rfl <;> exact fun _ => trivial
    · rw [List.eq_of_mem_replicate ha]
      exact fun _ => trivial
  exact ⟨c, hc, (withdraws_paid_on_time takesValid_ledgerKeepers supplyBank_ledgerKeepers
    (.start (by decide) fun _ => le_rfl) rfl horder hpays hkept hc).1⟩

/-- A withdrawal at height 254 with a lock of 2 blocks is paid at height 255, before it is due. -/
theorem withdraw_paid_early :
    ∃ c, TaskState.run ledgerKeepers (lockedStart 254 2) (lockedActions 1) = .ok c ∧
      c.height = 255 ∧ .paid 255 ⟨[1], [⟨"uctk", 10⟩], 256⟩ ∈
        poolLog ledgerKeepers (lockedStart 254 2) (lockedActions 1) ∧
      ¬ PaidOnTime c.toState (poolLog ledgerKeepers (lockedStart 254 2) (lockedActions 1))
        (withdrawStoreKey [1] 256) := by
  obtain ⟨c, hc, hheight⟩ : ∃ c, TaskState.run ledgerKeepers (lockedStart 254 2)
      (lockedActions 1) = .ok c ∧ c.height = 255 := by
    decide +kernel
  have hlog : .paid 255 ⟨[1], [⟨"uctk", 10⟩], 256⟩ ∈
      poolLog ledgerKeepers (lockedStart 254 2) (lockedActions 1) := by
    decide +kernel
  have hread : (under (withdrawStoreKey [1] 256)
      (poolLog ledgerKeepers (lockedStart 254 2) (lockedActions 1))).foldlM follow none = none := by
    decide +kernel
  refine ⟨c, hc, hheight, hlog, ?_⟩
  rintro ⟨pending, hpending, -⟩
  rw [hread] at hpending
  cases hpending

end Shentu.Oracle
