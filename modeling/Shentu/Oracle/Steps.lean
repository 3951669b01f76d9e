import Shentu.Oracle.Operators

/-!
What an event of the chain can do to the operators and the withdrawals of the oracle
module, together with what is seen of it. Invariants of the module are proved for these
steps.
-/

namespace Shentu.Oracle

open Lib List

variable {σ : Type}

/-- The begin blocker at a height pays a withdrawal with this due block. -/
def Matures (dueBlock : Int) (height : Nat) : Prop := heightBytes dueBlock ≤ heightBytes height

instance (dueBlock : Int) (height : Nat) : Decidable (Matures dueBlock height) := by
  unfold Matures
  infer_instance

/-- The range of keys up to a height is that of the due blocks whose bytes are not after those of
the height. -/
lemma matureWithdraws_eq (s : State σ) :
    s.matureWithdraws = s.withdraws.rows.filter (fun w => Matures w.dueBlock s.height) := by
  refine filter_congr ?_
  intro w _
  have hstart : withdrawStoreKeyPrefix ≤ w.storeKey := by
    rw [Withdraw.storeKey, withdrawStoreKey, append_assoc]
    exact le_append _ _
  have hrange := beforeEnd_field withdrawStoreKeyPrefix (heightBytes w.dueBlock)
    (heightBytes s.height) w.address (by simp [heightBytes])
  exact decide_eq_decide.mpr ⟨fun h => hrange.mp h.2, fun h => ⟨hstart, hrange.mpr h⟩⟩

/-- One event that does not fail, by the tables it changes. -/
inductive Step (k : Keepers σ) (s s' : State σ) : List Entry → Prop
  | create {o : Operator} {world : σ} (hnew : s.operators.get o.address = none)
      (hsend : k.sendCoinsFromAccountToModule s.world o.address o.collateral = some world)
      (hoperators : s'.operators = s.operators.set o) (hwithdraws : s'.withdraws = s.withdraws)
      (hheight : s'.height = s.height) : Step k s s' [.putIn o.address o.collateral]
  | add {o : Operator} {increment : Coins} {world : σ}
      (hget : s.operators.get o.address = some o)
      (hsend : k.sendCoinsFromAccountToModule s.world o.address increment = some world)
      (hoperators : s'.operators = s.operators.set
        { o with collateral := o.collateral.add increment })
      (hwithdraws : s'.withdraws = s.withdraws) (hheight : s'.height = s.height) :
      Step k s s' [.putIn o.address increment]
  | reduce {o : Operator} {decrement collateral : Coins}
      (hget : s.operators.get o.address = some o)
      (hsub : o.collateral.sub decrement = some collateral)
      (hoperators : s'.operators = s.operators.set { o with collateral := collateral })
      (hwithdraws : s'.withdraws = s.withdraws.set (s.newWithdraw o.address decrement))
      (hheight : s'.height = s.height) :
      Step k s s' [.created s.height (s.newWithdraw o.address decrement)]
  | remove {o : Operator} (hget : s.operators.get o.address = some o)
      (hoperators : s'.operators = s.operators.delete o.address)
      (hwithdraws : s'.withdraws = s.withdraws.set (s.newWithdraw o.address o.collateral))
      (hheight : s'.height = s.height) :
      Step k s s' [.created s.height (s.newWithdraw o.address o.collateral)]
  | reward {o : Operator} {rewards : Coins} (hget : s.operators.get o.address = some o)
      (hoperators : s'.operators = s.operators.set { o with accumulatedRewards := rewards })
      (hwithdraws : s'.withdraws = s.withdraws) (hheight : s'.height = s.height) : Step k s s' []
  | other (hoperators : s'.operators = s.operators) (hwithdraws : s'.withdraws = s.withdraws)
      (hheight : s'.height = s.height) : Step k s s' []
  | block (hoperators : s'.operators = s.operators)
      (hwithdraws : s'.withdraws =
        s.withdraws.filter (fun w => !decide (Matures w.dueBlock (s.height + 1))))
      (hheight : s'.height = s.height + 1) :
      Step k s s' ((s.withdraws.rows.filter
        (fun w => Matures w.dueBlock (s.height + 1))).map (.paid (s.height + 1)))

section Messages

variable {k : Keepers σ} {s s' : State σ} {address : Address} {coins : Coins}

lemma get_address {o : Operator} (h : s.operators.get address = some o) :
    o.address = address := Table.key_of_get h

lemma addTotalCollateral_cases (h : s.addTotalCollateral coins = .ok s') :
    ∃ total, s.totalCollateral = some total ∧
      s' = { s with totalCollateral := some (total.add coins) } := by
  simp only [State.addTotalCollateral, run_eq_ok] at h
  obtain ⟨total, htotal, rfl⟩ := h
  exact ⟨total, htotal, rfl⟩

lemma reduceTotalCollateral_cases (h : s.reduceTotalCollateral coins = .ok s') :
    ∃ total rest, s.totalCollateral = some total ∧ total.sub coins = some rest ∧
      s' = { s with totalCollateral := some rest } := by
  simp only [State.reduceTotalCollateral, run_eq_ok] at h
  obtain ⟨total, htotal, rest, hrest, -, -, rfl⟩ := h
  exact ⟨total, rest, htotal, hrest, rfl⟩

lemma createOperator_cases {proposer : Address} {name : String}
    (h : s.createOperator k address coins proposer name = .ok s') :
    ∃ total world, s.totalCollateral = some total ∧ s.operators.get address = none ∧
      ¬ s.isBelowMinCollateral k coins ∧
      k.sendCoinsFromAccountToModule s.world address coins = some world ∧ s' = { s with
        operators := s.operators.set ⟨address, proposer, coins, [], name⟩
        totalCollateral := some (total.add coins)
        world := world } := by
  simp only [State.createOperator, run_eq_ok] at h
  obtain ⟨hnew, hmin, s1, hadd, world, hsend, rfl⟩ := h
  obtain ⟨total, htotal, rfl⟩ := addTotalCollateral_cases hadd
  exact ⟨total, world, htotal, by simpa using hnew, hmin, hsend, rfl⟩

lemma removeOperator_cases (h : s.removeOperator k address = .ok s') :
    ∃ o total rest world, s.totalCollateral = some total ∧ total.sub o.collateral = some rest ∧
      s.operators.get address = some o ∧
      k.sendCoinsFromModuleToAccount s.world address o.accumulatedRewards = some world ∧
      s' = { s.createWithdraw o.address o.collateral with
        operators := s.operators.delete address
        totalCollateral := some rest
        world := world } := by
  simp only [State.removeOperator, run_eq_ok] at h
  obtain ⟨o, hget, s1, hreduce, world, hsend, rfl⟩ := h
  obtain ⟨total, rest, htotal, hrest, rfl⟩ := reduceTotalCollateral_cases hreduce
  exact ⟨o, total, rest, world, htotal, hrest, hget, hsend, rfl⟩

lemma addCollateral_cases (h : s.addCollateral k address coins = .ok s') :
    ∃ o total world, s.totalCollateral = some total ∧ s.operators.get address = some o ∧
      k.sendCoinsFromAccountToModule s.world address coins = some world ∧ s' = { s with
        operators := s.operators.set { o with collateral := o.collateral.add coins }
        totalCollateral := some (total.add coins)
        world := world } := by
  simp only [State.addCollateral, run_eq_ok] at h
  obtain ⟨o, hget, s1, hadd, world, hsend, rfl⟩ := h
  obtain ⟨total, htotal, rfl⟩ := addTotalCollateral_cases hadd
  exact ⟨o, total, world, htotal, hget, hsend, rfl⟩

lemma reduceCollateral_cases (h : s.reduceCollateral k address coins = .ok s') :
    ∃ o collateral total rest, s.totalCollateral = some total ∧ total.sub coins = some rest ∧
      s.operators.get address = some o ∧ o.collateral.sub coins = some collateral ∧
      ¬ s.isBelowMinCollateral k collateral ∧ s' = { s.createWithdraw o.address coins with
        operators := s.operators.set { o with collateral := collateral }
        totalCollateral := some rest } := by
  simp only [State.reduceCollateral, run_eq_ok] at h
  obtain ⟨o, hget, collateral, hsub, hmin, s1, hreduce, rfl⟩ := h
  obtain ⟨total, rest, htotal, hrest, rfl⟩ := reduceTotalCollateral_cases hreduce
  exact ⟨o, collateral, total, rest, htotal, hrest, hget, hsub, hmin, rfl⟩

lemma createOperator_step {proposer : Address} {name : String}
    (h : s.createOperator k address coins proposer name = .ok s') :
    Step k s s' [.putIn address coins] := by
  obtain ⟨_, world, -, hnew, -, hsend, rfl⟩ := createOperator_cases h
  exact @Step.create σ k s _ ⟨address, proposer, coins, [], name⟩ world hnew hsend rfl rfl rfl

lemma removeOperator_step (h : s.removeOperator k address = .ok s') :
    Step k s s' (msgEntries s (.removeOperator address)) := by
  obtain ⟨o, _, _, world, -, -, hget, -, rfl⟩ := removeOperator_cases h
  have haddress := get_address hget
  subst haddress
  rw [msgEntries, hget]
  exact .remove hget rfl rfl rfl

lemma addCollateral_step (h : s.addCollateral k address coins = .ok s') :
    Step k s s' [.putIn address coins] := by
  obtain ⟨o, _, world, -, hget, hsend, rfl⟩ := addCollateral_cases h
  have haddress := get_address hget
  subst haddress
  exact .add hget hsend rfl rfl rfl

lemma reduceCollateral_step (h : s.reduceCollateral k address coins = .ok s') :
    Step k s s' [.created s.height (s.newWithdraw address coins)] := by
  obtain ⟨o, collateral, _, _, -, -, hget, hsub, -, rfl⟩ := reduceCollateral_cases h
  have haddress := get_address hget
  subst haddress
  exact .reduce hget hsub rfl rfl rfl

lemma addReward_step (h : s.addReward address coins = .ok s') : Step k s s' [] := by
  simp only [State.addReward, run_eq_ok] at h
  obtain ⟨o, hget, rfl⟩ := h
  have haddress := get_address hget
  subst haddress
  exact .reward hget rfl rfl rfl

lemma withdrawAllReward_step (h : s.withdrawAllReward k address = .ok s') : Step k s s' [] := by
  simp only [State.withdrawAllReward, run_eq_ok] at h
  obtain ⟨o, hget, world, -, rfl⟩ := h
  have haddress := get_address hget
  subst haddress
  exact .reward hget rfl rfl rfl

lemma deliverTx_step {msg : Msg} (h : deliverTx k s msg = .ok s') :
    Step k s s' (msgEntries s msg) := by
  simp only [deliverTx, bind_eq_ok] at h
  obtain ⟨-, -, h⟩ := h
  cases msg with
  | createOperator address collateral proposer name => exact createOperator_step h
  | removeOperator address => exact removeOperator_step h
  | addCollateral address increment => exact addCollateral_step h
  | reduceCollateral address decrement => exact reduceCollateral_step h
  | withdrawReward address => exact withdrawAllReward_step h

end Messages

section Blocks

variable {k : Keepers σ} {s s' : State σ}

private lemma finalizeWithdraw_fold (ws : List Withdraw)
    (h : ws.foldlM (State.finalizeWithdraw k) s = .ok s') :
    s'.withdraws = ws.foldl (fun t w => t.delete w.storeKey) s.withdraws ∧
      s'.operators = s.operators ∧ s'.height = s.height := by
  induction ws generalizing s with
  | nil =>
    cases h
    exact ⟨rfl, rfl, rfl⟩
  | cons w ws ih =>
    obtain ⟨s1, hfirst, hrest⟩ := foldlM_cons_eq_ok.mp h
    simp only [State.finalizeWithdraw, run_eq_ok] at hfirst
    obtain ⟨world, -, rfl⟩ := hfirst
    exact ih hrest

/-- The payment of a withdrawal, as the supply keeper makes it. -/
def payEntries (k : Keepers σ) (s : State σ) (w : Withdraw) : List Entry :=
  match k.sendCoinsFromModuleToAccount s.world w.address w.amount with
  | some _ => [.paid s.height w]
  | none => []

/-- The withdrawals that a begin blocker reads off the store are those that it sends. -/
lemma payEntries_fold {ws : List Withdraw} (h : ws.foldlM (State.finalizeWithdraw k) s = .ok s') :
    observations (payEntries k) (State.finalizeWithdraw k) s ws = ws.map (.paid s.height) := by
  induction ws generalizing s with
  | nil => rfl
  | cons w ws ih =>
    obtain ⟨s1, hfirst, hrest⟩ := foldlM_cons_eq_ok.mp h
    rw [observations_cons hfirst, ih hrest]
    simp only [State.finalizeWithdraw, run_eq_ok] at hfirst
    obtain ⟨world, hsend, rfl⟩ := hfirst
    simp [payEntries, hsend]

lemma beginBlock_step (h : exec k s .beginBlock = .ok s') :
    Step k s s' (entries k s .beginBlock) := by
  obtain ⟨hwithdraws, hoperators, hheight⟩ := finalizeWithdraw_fold _ h
  rw [entries, matureWithdraws_eq]
  refine .block hoperators ?_ hheight
  rw [hwithdraws, matureWithdraws_eq, foldl_filter]
  exact s.withdraws.foldl_delete_eq_filter (fun w => decide (Matures w.dueBlock (s.height + 1)))

end Blocks

lemma exec_step {k : Keepers σ} {s s' : State σ} {e : Event σ} (h : exec k s e = .ok s') :
    Step k s s' (entries k s e) := by
  cases e with
  | beginBlock => exact beginBlock_step h
  | tx msg =>
    cases h
    rw [entries]
    cases htx : deliverTx k s msg with
    | error f => exact .other rfl rfl rfl
    | ok s1 => exact deliverTx_step htx
  | reward address increment =>
    cases h
    cases hreward : s.addReward address increment with
    | error f => exact .other rfl rfl rfl
    | ok s1 => exact addReward_step hreward
  | setPoolParams p =>
    cases h
    split <;> exact .other rfl rfl rfl
  | outside world =>
    cases h
    exact .other rfl rfl rfl

/-- A withdrawal is created by a message that reduces or removes the collateral of an operator. -/
lemma created_cases {k : Keepers σ} {s : State σ} {e : Event σ} {height : Nat} {w : Withdraw}
    (h : .created height w ∈ entries k s e) :
    ∃ address amount o, (e = .tx (.reduceCollateral address amount) ∨
      e = .tx (.removeOperator address) ∧ amount = o.collateral) ∧
      s.operators.get address = some o ∧ height = s.height ∧ w = s.newWithdraw address amount := by
  cases e with
  | beginBlock => simp [entries] at h
  | tx msg =>
    rw [entries] at h
    cases htx : deliverTx k s msg with
    | error f =>
      rw [htx] at h
      cases h
    | ok s1 =>
      rw [htx] at h
      simp only [deliverTx, bind_eq_ok] at htx
      obtain ⟨-, -, htx⟩ := htx
      cases msg with
      | reduceCollateral address decrement =>
        simp only [handleMsg, State.reduceCollateral, run_eq_ok] at htx
        obtain ⟨o, hget, -⟩ := htx
        obtain ⟨rfl, rfl⟩ := Entry.created.inj (mem_singleton.mp h)
        exact ⟨address, decrement, o, .inl rfl, hget, rfl, rfl⟩
      | removeOperator address =>
        obtain ⟨o, hget, heq⟩ := mem_map.mp h
        have hget' : s.operators.get address = some o := by simpa using hget
        obtain ⟨rfl, rfl⟩ := Entry.created.inj heq
        exact ⟨address, o.collateral, o, .inr ⟨rfl, rfl⟩, hget', rfl, by rw [get_address hget']⟩
      | createOperator address collateral proposer name => simp [msgEntries] at h
      | addCollateral address increment => simp [msgEntries] at h
      | withdrawReward address => cases h
  | reward | setPoolParams | outside => cases h

end Shentu.Oracle
