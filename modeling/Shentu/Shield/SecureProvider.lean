import Shentu.Shield.UnbondingDelay

/-!
What is secured from one provider for a claim. The collateral side always holds: withdrawals that
complete before the end of the lock leave at least the secured amount. The staking side holds just
when the delay of unbondings counts what it holds: the loop stops as soon as the balances it has
counted reach the amount, so they have to be held until the end of the lock by then.
-/

namespace Shentu

open Lib List CollateralBook

variable {σ : Type}

/-- The amount of one provider that completes before a time. -/
def queuedBefore (a : AccAddress) (t : Time) (ws : List Withdraw) : Int :=
  amountWhere (fun b s => b = a && decide (s < t)) ws

/-- The pairs of a provider in the unbonding queue until a time, the latest first. -/
def latestPairs (k : Keepers σ) (world : σ) (a : AccAddress) (t : Time) : List UnbondingInfo :=
  (getUnbondingsByProviderMaturingByTime k world a t).reverse

lemma delayPlan_moved_nonneg (delayedTime : Time) (is : List UnbondingInfo)
    {ps : List UnbondingPart} (hps : ∀ p ∈ ps, 0 ≤ p.balance) :
    ∀ x ∈ delayPlan delayedTime is ps, 0 ≤ x.2 := by
  induction is generalizing ps with
  | nil => simp [delayPlan]
  | cons i is ih =>
    unfold delayPlan
    cases hfind : ps.find? i.names with
    | none => simp
    | some p =>
      have hp : 0 ≤ p.balance := hps p (mem_of_find?_eq_some hfind)
      dsimp only
      split
      · exact forall_mem_cons.mpr ⟨le_rfl, ih hps⟩
      · exact forall_mem_cons.mpr ⟨hp, ih (fun q hq => hps q (mem_of_mem_eraseP hq))⟩

lemma sum_take_le_sum_take {l : List (Int × Int)} (hl : ∀ x ∈ l, 0 ≤ x.2) {n m : Nat}
    (hnm : n ≤ m) : ((l.take n).map Prod.snd).sum ≤ ((l.take m).map Prod.snd).sum := by
  obtain ⟨j, rfl⟩ := Nat.exists_eq_add_of_le hnm
  rw [take_add, map_append, sum_append]
  have hrest : 0 ≤ (((l.drop n).take j).map Prod.snd).sum := by
    apply sum_nonneg
    intro y hy
    obtain ⟨x, hx, rfl⟩ := mem_map.mp hy
    exact hl x (mem_of_mem_drop (mem_of_mem_take hx))
  omega

namespace UnbondingLaws

variable {k : Keepers σ}

lemma latestPairs_le (L : UnbondingLaws k) {w : σ} {a : AccAddress} {t : Time} :
    ∀ i ∈ latestPairs k w a t, i.completionTime ≤ t := by
  intro i hi
  unfold latestPairs getUnbondingsByProviderMaturingByTime at hi
  rw [mem_reverse, L.iterator, mem_flatMap] at hi
  obtain ⟨s, hs, hi⟩ := hi
  obtain ⟨dv, -, rfl⟩ := mem_map.mp hi
  exact of_decide_eq_true (mem_filter.mp hs).2

lemma latestPairs_pairwise (L : UnbondingLaws k) (w : σ) (a : AccAddress) (t : Time) :
    (latestPairs k w a t).Pairwise (fun i j => j.completionTime ≤ i.completionTime) := by
  unfold latestPairs getUnbondingsByProviderMaturingByTime
  rw [pairwise_reverse, L.iterator, pairwise_flatMap]
  constructor
  · intro s _
    rw [pairwise_map]
    exact pairwise_of_forall (fun _ _ => le_rfl)
  · have hsorted := (L.view w).queue.sorted.filter (fun s => decide (s.time ≤ t))
    refine hsorted.imp ?_
    intro s s' hlt i hi j hj
    obtain ⟨-, -, rfl⟩ := mem_map.mp hi
    obtain ⟨-, -, rfl⟩ := mem_map.mp hj
    exact le_of_lt hlt

lemma delayUnbonding_plan (L : UnbondingLaws k) {w w' : σ} {a : AccAddress} {amount : Int}
    {t : Time} (h : delayUnbonding k w a amount t = .ok w') :
    let plan := delayPlan t (latestPairs k w a t) ((L.view w).partsOf a)
    ∃ n, amount ≤ ((plan.take n).map Prod.fst).sum ∧
      (L.view w').heldUntil a t = (L.view w).heldUntil a t + ((plan.take n).map Prod.snd).sum ∧
      ∀ m < n, ((plan.take m).map Prod.fst).sum < amount := by
  simp only [delayUnbonding, run_eq_ok] at h
  obtain ⟨⟨remaining, w1⟩, hloop, hdone, rfl⟩ := h
  obtain ⟨n, hn, hheld, hbelow⟩ := L.delayUnbondingLoop_plan (L.latestPairs_pairwise w a t)
    L.latestPairs_le (fun _ _ => rfl) hloop
  dsimp only at hdone
  exact ⟨n, by omega, hheld, hbelow⟩

end UnbondingLaws

/-- The staking side of securing: either nothing is delayed, or unbondings are. -/
lemma secureFromProvider_world {k : Keepers σ} {ctx : Ctx} {b b' : CollateralBook}
    {world world' : σ} {p : Provider} {amount : Int} {duration : Duration}
    (h : secureFromProvider k ctx b world p amount duration = .ok (b', world')) :
    (world' = world ∧ (amount ≤ p.delegationBonded ∨
        amount ≤ availableDelegationByEndTime k world p (ctx.blockTime + duration))) ∨
      delayUnbonding k world p.address
        (amount - availableDelegationByEndTime k world p (ctx.blockTime + duration))
        (ctx.blockTime + duration) = .ok world' := by
  unfold secureFromProvider at h
  split at h
  · rename_i hlenient
    cases h
    exact .inl ⟨rfl, .inl hlenient.2⟩
  · simp only [run_eq_ok] at h
    obtain ⟨hbacked, h⟩ := h
    split at h
    · obtain ⟨b1, -, h⟩ := bind_eq_ok.mp h
      split at h
      · obtain ⟨world1, hdelay, h⟩ := bind_eq_ok.mp h
        cases h
        exact .inr hdelay
      · rename_i henough
        cases h
        exact .inl ⟨rfl, .inr (not_lt.mp henough)⟩
    · rename_i henough
      cases h
      exact .inl ⟨rfl, .inr ((not_lt.mp henough).trans (not_not.mp hbacked))⟩

/-- The collateral that is not withdrawn before the end of the lock is at least the amount. -/
lemma secureFromProvider_collateral {k : Keepers σ} {ctx : Ctx} {b b' : CollateralBook}
    {world world' : σ} {p : Provider} {amount : Int} {duration : Duration}
    (hq : QueueFiled b.withdrawQueue) (hpos : ∀ w ∈ b.withdrawQueue.entries, 0 ≤ w.amount)
    (hqueued : p.withdrawing = queuedBy p.address b.withdrawQueue.entries)
    (h : secureFromProvider k ctx b world p amount duration = .ok (b', world')) :
    amount ≤ p.collateral -
      queuedBefore p.address (ctx.blockTime + duration) b'.withdrawQueue.entries := by
  have hbefore : ∀ ws : List Withdraw, (∀ w ∈ ws, 0 ≤ w.amount) →
      queuedBefore p.address (ctx.blockTime + duration) ws ≤
        queuedByUntil p.address (ctx.blockTime + duration) ws := by
    intro ws hws
    apply amountWhere_mono hws
    intro w _ hw
    simp only [Bool.and_eq_true, decide_eq_true_eq] at hw ⊢
    exact ⟨hw.1, hw.2.le⟩
  rcases secureFromProvider_cases h with ⟨rfl, hfree | havailable⟩ | hdelay
  · have hle : queuedBefore p.address (ctx.blockTime + duration) b'.withdrawQueue.entries ≤
        queuedBy p.address b'.withdrawQueue.entries := by
      apply amountWhere_mono hpos
      intro w _ hw
      simp only [Bool.and_eq_true, decide_eq_true_eq] at hw ⊢
      exact hw.1
    omega
  · rw [computeWithdrawAmountByTime_eq hq] at havailable
    have hle := hbefore _ hpos
    omega
  · rw [computeWithdrawAmountByTime_eq hq] at hdelay
    obtain ⟨delayed, left, others, queue, rfl, -, -, hold, hnew, hdue, hamount, -⟩ :=
      delayWithdraws_spec hq hdelay
    have hrest := hbefore (left ++ others)
      (fun w hw => hpos w (hold.mem_iff.mpr (mem_append_right _ hw)))
    have hmoved : queuedBefore p.address (ctx.blockTime + duration)
        (delayed.map (fun w => { w with completionTime := ctx.blockTime + duration })) = 0 := by
      apply amountWhere_of_none
      intro w hw
      obtain ⟨v, -, rfl⟩ := mem_map.mp hw
      simp
    have hdelayed : queuedByUntil p.address (ctx.blockTime + duration) delayed =
        (delayed.map Withdraw.amount).sum := by
      apply amountWhere_of_all
      intro w hw
      simpa using hdue w hw
    have huntil : queuedByUntil p.address (ctx.blockTime + duration) b.withdrawQueue.entries =
        queuedByUntil p.address (ctx.blockTime + duration) delayed +
          queuedByUntil p.address (ctx.blockTime + duration) (left ++ others) := by
      unfold queuedByUntil
      rw [amountWhere_perm hold, amountWhere_append]
    have hafter : queuedBefore p.address (ctx.blockTime + duration) queue.entries =
        queuedBefore p.address (ctx.blockTime + duration)
            (delayed.map (fun w => { w with completionTime := ctx.blockTime + duration })) +
          queuedBefore p.address (ctx.blockTime + duration) (left ++ others) := by
      unfold queuedBefore
      rw [amountWhere_perm hnew, amountWhere_append]
    dsimp only
    omega

/-- The amount is secured: collateral of at least the amount is not withdrawn before the end of
the lock, and bonded or unbonding tokens of at least the amount stay until then. -/
def Secured (p : Provider) (amount : Int) (endTime : Time) (b : CollateralBook)
    (v : StakingView) : Prop :=
  amount ≤ p.collateral - queuedBefore p.address endTime b.withdrawQueue.entries ∧
    amount ≤ p.delegationBonded + v.heldUntil p.address endTime

/-- Wherever the balances of a first stretch of the pairs fill what is missing of the amount, the
ones among them that complete before the end of the lock fill what is not held until then. -/
def CountsWhatIsHeld (k : Keepers σ) (v : StakingView) (world : σ) (p : Provider) (amount : Int)
    (endTime : Time) : Prop :=
  let plan := delayPlan endTime (latestPairs k world p.address endTime) (v.partsOf p.address)
  ∀ n, amount ≤ availableDelegationByEndTime k world p endTime +
      ((plan.take n).map Prod.fst).sum →
    amount ≤ p.delegationBonded + v.heldUntil p.address endTime +
      ((plan.take n).map Prod.snd).sum

/-- Securing an amount from a provider secures it just when the unbondings it counts are those
that it holds. -/
theorem secureFromProvider_secured_iff {k : Keepers σ} (L : UnbondingLaws k) {ctx : Ctx}
    {b b' : CollateralBook} {world world' : σ} {p : Provider} {amount : Int} {duration : Duration}
    (hq : QueueFiled b.withdrawQueue) (hpos : ∀ w ∈ b.withdrawQueue.entries, 0 ≤ w.amount)
    (hqueued : p.withdrawing = queuedBy p.address b.withdrawQueue.entries)
    (hbalance : ∀ ubd ∈ (L.view world).partsOf p.address, 0 ≤ ubd.balance)
    (h : secureFromProvider k ctx b world p amount duration = .ok (b', world')) :
    Secured p amount (ctx.blockTime + duration) b' (L.view world') ↔
      CountsWhatIsHeld k (L.view world) world p amount (ctx.blockTime + duration) := by
  have hmoved := delayPlan_moved_nonneg (ctx.blockTime + duration)
    (latestPairs k world p.address (ctx.blockTime + duration)) hbalance
  unfold Secured
  rw [and_iff_right (secureFromProvider_collateral hq hpos hqueued h)]
  unfold CountsWhatIsHeld
  dsimp only
  rcases secureFromProvider_world h with ⟨rfl, hbonded | havailable⟩ | hdelay
  · have hheld := StakingView.heldUntil_nonneg hbalance (ctx.blockTime + duration)
    apply iff_of_true
    · omega
    · intro n _
      have hn := sum_take_le_sum_take hmoved (Nat.zero_le n)
      simp only [take_zero, map_nil, sum_nil] at hn
      omega
  · constructor
    · intro hsecured n _
      have hn := sum_take_le_sum_take hmoved (Nat.zero_le n)
      simp only [take_zero, map_nil, sum_nil] at hn
      omega
    · intro hcounts
      have hzero := hcounts 0
      simp only [take_zero, map_nil, sum_nil, add_zero] at hzero
      exact hzero havailable
  · -- The loop stops after the first stretch that fills what is missing.
    obtain ⟨n, hn, hheld, hbelow⟩ := L.delayUnbonding_plan hdelay
    rw [hheld]
    constructor
    · intro hsecured m hm
      have hnm : n ≤ m := by
        by_contra hlt
        have hless := hbelow m (not_le.mp hlt)
        omega
      have hle := sum_take_le_sum_take hmoved hnm
      omega
    · intro hcounts
      have hall := hcounts n (by omega)
      omega

instance (p : Provider) (amount : Int) (endTime : Time) (b : CollateralBook) (v : StakingView) :
    Decidable (Secured p amount endTime b v) := instDecidableAnd

def allWithdrawing : Provider :=
  { Provider.new 1 with collateral := 18, withdrawing := 18 }

def allWithdrawingBook : CollateralBook where
  providers := Table.empty.set allWithdrawing
  withdrawQueue := TimeQueue.insertAll Table.empty [(5, ⟨1, 3, 5⟩), (20, ⟨1, 15, 20⟩)]
  totalCollateral := 18
  totalWithdrawing := 18

/-- Entries of one validator, of which those at time 20 have been delayed to it before. -/
def delayedBefore (balances : List Int) : StakingView where
  records := Table.empty.set ⟨1, 100, ⟨5, 3⟩ :: balances.map (fun x => ⟨20, x⟩)⟩
  queue := TimeQueue.insertAll Table.empty
    ((5, ⟨1, 100⟩) :: balances.map (fun _ => (20, ⟨1, 100⟩)))
  notBonded := 18
  shield := 0
  hasAccount := fun _ => true

/-- With entries of ten and five units at the end of the lock, seventeen units are counted as
twice ten. The entry of three units that completes before is not delayed, and fifteen are held. -/
theorem secureFromProvider_countsTwice :
    QueueFiled allWithdrawingBook.withdrawQueue ∧ (delayedBefore [10, 5]).InStep ∧
      allWithdrawing.withdrawing = queuedBy 1 allWithdrawingBook.withdrawQueue.entries ∧
      17 ≤ allWithdrawing.collateral ∧
      ∃ result, secureFromProvider viewKeepers ⟨0, 0⟩ allWithdrawingBook (delayedBefore [10, 5])
          allWithdrawing 17 20 = .ok result ∧
        ¬Secured allWithdrawing 17 20 result.1 result.2 := by
  refine ⟨?_, by decide, by decide, by decide, ?_⟩
  · unfold QueueFiled TimeQueue.Filed
    decide
  · apply OkAnd.exists
    decide

/-- With one entry at the end of the lock its balance is counted once. -/
theorem secureFromProvider_secured_iff_once :
    CountsWhatIsHeld viewKeepers (delayedBefore [15]) (delayedBefore [15])
      allWithdrawing 17 20 := by
  have hq : QueueFiled allWithdrawingBook.withdrawQueue := by
    unfold QueueFiled TimeQueue.Filed
    decide
  obtain ⟨⟨b', v'⟩, hok, hsecured⟩ : ∃ result, secureFromProvider viewKeepers ⟨0, 0⟩
      allWithdrawingBook (delayedBefore [15]) allWithdrawing 17 20 = .ok result ∧
        Secured allWithdrawing 17 20 result.1 result.2 := by
    apply OkAnd.exists
    decide
  exact (secureFromProvider_secured_iff viewLaws hq (by decide) (by decide) (by decide) hok).mp
    hsecured

end Shentu
