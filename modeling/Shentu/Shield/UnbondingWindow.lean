import Shentu.Shield.UnbondingPayout
import Shentu.Shield.WithdrawWindow
import Shentu.Shield.WorldWrites
import Shentu.Shield.Ledger

/-!
The part of a payout that is taken from unbonding delegations. The entries are laid end to end
from the latest completion backwards; they cover first what the bonded delegation leaves uncovered
of the purchased shield, and the payout takes the window behind it.
-/

namespace Shentu

open Lib List UnbondingPart

variable {σ : Type}

namespace UnbondingLaws

variable {k : Keepers σ} (L : UnbondingLaws k)

/-- The loop pays the window out of the entries it goes over. -/
lemma payFromUnbondingsLoop_spec {a : AccAddress} (ubds : List UnbondingPart)
    (uncovered payout : Int) (w : σ) (others : List UnbondingPart)
    (hperm : (L.view w).parts.Perm (ubds ++ others))
    (howner : ∀ ubd ∈ ubds, ubd.delegatorAddress = a)
    (haccount : (L.view w).hasAccount a = true) (huncovered : 0 ≤ uncovered)
    (hpayout : 0 ≤ payout) (hbalance : ∀ ubd ∈ ubds, 0 ≤ ubd.balance)
    (hpool : (windowParts uncovered payout (ubds.map balance)).sum ≤
      (L.view w).notBonded) :
    ∃ w', payFromUnbondingsLoop k ubds uncovered payout w =
        .ok (payout - (windowParts uncovered payout (ubds.map balance)).sum, w') ∧
      (L.view w).OwnOnly a (L.view w') ∧
      (L.view w').parts.Perm
        (cutWindow balance reduced uncovered payout ubds ++ others) ∧
      (L.view w').notBonded = (L.view w).notBonded -
        (windowParts uncovered payout (ubds.map balance)).sum ∧
      (L.view w').shield = (L.view w).shield +
        (windowParts uncovered payout (ubds.map balance)).sum := by
  induction ubds generalizing uncovered payout w others with
  | nil =>
    refine ⟨w, ?_, StakingView.OwnOnly.refl a _, hperm, ?_, ?_⟩
    · rw [map_nil, windowParts, sum_nil, sub_zero]
      rfl
    · rw [map_nil, windowParts, sum_nil, sub_zero]
    · rw [map_nil, windowParts, sum_nil, add_zero]
  | cons ubd ubds ih =>
    obtain ⟨hown, howner⟩ := forall_mem_cons.mp howner
    obtain ⟨hubd, hbalance⟩ := forall_mem_cons.mp hbalance
    rw [map_cons, windowParts, sum_cons] at hpool
    rw [cutWindow_cons, map_cons, windowParts, sum_cons]
    unfold payFromUnbondingsLoop
    split
    · dsimp only
      split
      · -- The whole entry backs the purchase and stays as it is.
        rename_i hpaying hremaining
        have hskip : min payout (max (ubd.balance - uncovered) 0) = 0 := by
          have hzero : max (ubd.balance - uncovered) 0 = 0 := hremaining
          omega
        rw [hskip, sub_zero, zero_add] at hpool ⊢
        obtain ⟨w', hloop, hothers, hparts, hnotBonded, hshield⟩ :=
          ih (max (uncovered - ubd.balance) 0) payout w (ubd :: others)
            (hperm.trans perm_middle.symm) howner haccount (by omega) hpayout hbalance hpool
        rw [remainder_zero reduced_zero]
        exact ⟨w', hloop, hothers, hparts.trans perm_middle, hnotBonded, hshield⟩
      · rename_i hpaying hremaining
        have hpart : 0 < min payout (max (ubd.balance - uncovered) 0) := by
          have hpos : max (ubd.balance - uncovered) 0 ≠ 0 := hremaining
          omega
        have hrest : 0 ≤ (windowParts (max (uncovered - ubd.balance) 0)
            (payout - min payout (max (ubd.balance - uncovered) 0))
            (ubds.map balance)).sum := by
          rw [sum_windowParts (by omega) (by omega) (forall_mem_map.mpr hbalance)]
          omega
        rw [cons_append] at hperm
        obtain ⟨w1, hpay, hothers1, hparts1, hnotBonded1, hshield1⟩ := L.payFromUnbondings_spec
          hperm hpart (by omega) (by rw [hown]; exact haccount)
        rw [hown] at hothers1
        obtain ⟨w', hloop, hothers, hparts, hnotBonded, hshield⟩ :=
          ih (max (uncovered - ubd.balance) 0)
            (payout - min payout (max (ubd.balance - uncovered) 0)) w1
            (afterPayout (ubd, min payout (max (ubd.balance - uncovered) 0)) ++ others)
            (hparts1.trans (by
              rw [← append_assoc, ← append_assoc]
              exact perm_append_comm.append_right _))
            howner (by rw [hothers1.accounts]; exact haccount) (by omega) (by omega) hbalance
            (by omega)
        refine ⟨w', ?_, hothers1.trans hothers, ?_, by omega, by omega⟩
        · rw [← sub_sub]
          exact bind_eq_ok.mpr ⟨w1, hpay, hloop⟩
        · refine hparts.trans ?_
          rw [← append_assoc]
          exact perm_append_comm.append_right _
    · have hzero : payout = 0 := by omega
      subst hzero
      have hnone : min 0 (max (ubd.balance - uncovered) 0) = 0 := by omega
      rw [hnone, sub_zero, remainder_zero reduced_zero,
        cutWindow_zero reduced_zero, windowParts_zero, sum_replicate]
      exact ⟨w, by simp, StakingView.OwnOnly.refl a _, hperm, by simp, by simp⟩

/-- The payout from the unbondings of an address, with what is left of its entries. -/
lemma makePayoutFromUnbondings_spec {w : σ} {a : AccAddress} {uncovered x : Int}
    (hbalance : ∀ ubd ∈ (L.view w).partsOf a, 0 ≤ ubd.balance)
    (haccount : (L.view w).hasAccount a = true)
    (hpool : (((L.view w).partsOf a).map balance).sum ≤ (L.view w).notBonded)
    (huncovered : 0 ≤ uncovered) (hx : 0 ≤ x)
    (hcover : uncovered + x ≤ (((L.view w).partsOf a).map balance).sum ∨ x = 0) :
    let latest := getSortedUnbondingDelegations k w a
    ∃ w', makePayoutFromUnbondings k w a uncovered x = .ok w' ∧
      (windowParts uncovered x (latest.map balance)).sum = x ∧
      (L.view w).OwnOnly a (L.view w') ∧
      ((L.view w').partsOf a).Perm
        (cutWindow balance reduced uncovered x latest) ∧
      (L.view w').notBonded = (L.view w).notBonded - x ∧
      (L.view w').shield = (L.view w).shield + x := by
  intro latest
  have hlatest : latest.Perm ((L.view w).partsOf a) := L.getSortedUnbondingDelegations_perm w a
  have hnonneg : ∀ ubd ∈ latest, 0 ≤ ubd.balance :=
    fun ubd hubd => hbalance ubd (hlatest.mem_iff.mp hubd)
  have howner : ∀ ubd ∈ latest, ubd.delegatorAddress = a :=
    fun ubd hubd => of_decide_eq_true (mem_filter.mp (hlatest.mem_iff.mp hubd)).2
  have hbalances := forall_mem_map.mpr hnonneg
  have htotal : (latest.map balance).sum =
      (((L.view w).partsOf a).map balance).sum := (hlatest.map _).sum_eq
  have htotal0 : 0 ≤ (latest.map balance).sum := sum_nonneg hbalances
  have hsum : (windowParts uncovered x (latest.map balance)).sum = x := by
    rw [sum_windowParts huncovered hx hbalances]
    omega
  by_cases hzero : x = 0
  · subst hzero
    refine ⟨w, if_pos rfl, hsum, StakingView.OwnOnly.refl a _, ?_, (sub_zero _).symm,
      (add_zero _).symm⟩
    rw [cutWindow_zero reduced_zero]
    exact hlatest.symm
  · have hsplit : (L.view w).parts.Perm
        (latest ++ (L.view w).parts.filter (fun ubd => !decide (ubd.delegatorAddress = a))) :=
      (filter_append_perm _ _).symm.trans (hlatest.symm.append_right _)
    obtain ⟨w', hloop, hothers, hparts, hnotBonded, hshield⟩ := L.payFromUnbondingsLoop_spec
      latest uncovered x w _ hsplit howner haccount huncovered hx hnonneg (by omega)
    rw [hsum] at hnotBonded hshield
    rw [hsum, sub_self] at hloop
    refine ⟨w', ?_, hsum, hothers, ?_, hnotBonded, hshield⟩
    · unfold makePayoutFromUnbondings
      rw [if_neg hzero]
      simp only [run_eq_ok]
      exact ⟨_, hloop, not_not.mpr rfl, rfl⟩
    · have hfilter := hparts.filter (fun ubd => decide (ubd.delegatorAddress = a))
      have hall : (cutWindow balance reduced uncovered x latest).filter
          (fun ubd => decide (ubd.delegatorAddress = a)) =
            cutWindow balance reduced uncovered x latest := by
        apply filter_eq_self.mpr
        intro ubd' hubd'
        obtain ⟨ubd, hubd, y, rfl⟩ := mem_cutWindow hubd'
        exact decide_eq_true (howner ubd hubd)
      rw [filter_append, hall, filter_filter] at hfilter
      simpa [StakingView.partsOf] using hfilter

/-- The writes of a payout from delegations leave the unbonding delegations and their queue. -/
def KeepsUnbondings : Prop :=
  ∀ {w w' : σ}, DelegationWrite k w w' →
    (L.view w').records = (L.view w).records ∧ (L.view w').queue = (L.view w).queue

/-- The unbonding part of a payout finds the unbonding delegations and the queue that were there
before the delegation part. -/
lemma makePayoutFromDelegations_unbondings (hkeeps : L.KeepsUnbondings) {params : PoolParams}
    {ctx : Ctx} {b b' : CollateralBook} {w w' : σ} {a : AccAddress} {payout : Int}
    (h : makePayoutFromDelegations k params ctx b w a payout = .ok (b', w')) :
    (L.view w').records = (L.view w).records ∧ (L.view w').queue = (L.view w).queue ∧
      (L.view w').partsOf a = (L.view w).partsOf a ∧
      getSortedUnbondingDelegations k w' a = getSortedUnbondingDelegations k w a := by
  have hframe : (L.view w').records = (L.view w).records ∧
      (L.view w').queue = (L.view w).queue := by
    have hwrites := makePayoutFromDelegations_writes h
    clear h
    induction hwrites with
    | refl => exact ⟨rfl, rfl⟩
    | tail _ hwrite ih =>
      obtain ⟨hrecords, hqueue⟩ := hkeeps hwrite
      exact ⟨hrecords.trans ih.1, hqueue.trans ih.2⟩
  refine ⟨hframe.1, hframe.2, ?_, ?_⟩
  · unfold StakingView.partsOf StakingView.parts
    rw [hframe.1]
  · unfold getSortedUnbondingDelegations
    rw [L.getAll, L.getAll, hframe.1]

/-- The unbonding part of a provider's payout is made wherever the bonded delegation and the
unbondings cover the purchased shield and the payout. The `i` latest entries give what they have
beyond the uncovered part of the purchased shield, until the payout is made. Nothing else changes,
and a queue that was in step with the entries stays so. -/
theorem unbondingPayout_exact (params : PoolParams) (ctx : Ctx) {b b₁ : CollateralBook}
    {world world₁ : σ} {p : Provider} (purchased payout : Int)
    (hp : b.getProvider p.address = some p)
    (hdelegations : makePayoutFromDelegations k params ctx b world p.address
      (CollateralBook.splitPayout p.delegationBonded purchased payout).1 = .ok (b₁, world₁))
    (hbalance : ∀ ubd ∈ (L.view world₁).partsOf p.address, 0 ≤ ubd.balance)
    (haccount : (L.view world₁).hasAccount p.address = true)
    (hpool : (((L.view world₁).partsOf p.address).map balance).sum ≤
      (L.view world₁).notBonded)
    (hpayout : 0 ≤ payout)
    (hcover : purchased + payout ≤ p.delegationBonded +
      (((L.view world₁).partsOf p.address).map balance).sum) :
    let uncovered := max 0 (purchased - p.delegationBonded)
    let x := max 0 (payout - max 0 (p.delegationBonded - purchased))
    let latest := getSortedUnbondingDelegations k world₁ p.address
    ∃ world' taken,
      makePayoutByProviderDelegations k params ctx b world p.address purchased payout =
        .ok (b₁, world') ∧
      latest.Perm ((L.view world₁).partsOf p.address) ∧
      latest.Pairwise (fun ubd ubd' => ubd'.completionTime ≤ ubd.completionTime) ∧
      taken.length = latest.length ∧ taken.sum = x ∧
      (∀ i, (taken.take i).sum =
        min x (max 0 (((latest.take i).map balance).sum - uncovered))) ∧
      ((L.view world').partsOf p.address).Perm ((latest.zip taken).flatMap afterPayout) ∧
      (L.view world₁).OwnOnly p.address (L.view world') ∧
      (L.view world').notBonded = (L.view world₁).notBonded - x ∧
      (L.view world').shield = (L.view world₁).shield + x := by
  intro uncovered x latest
  have hx : 0 ≤ x := le_max_left _ _
  have huncovered : 0 ≤ uncovered := le_max_left _ _
  obtain ⟨hsplit₁, hsplit₂⟩ :=
    CollateralBook.splitPayout_eq p.delegationBonded purchased hpayout
  obtain ⟨world', hmake, hsum, hothers, hparts, hnotBonded, hshield⟩ :=
    L.makePayoutFromUnbondings_spec hbalance haccount hpool huncovered hx (by omega)
  refine ⟨world', windowParts uncovered x (latest.map balance), ?_,
    L.getSortedUnbondingDelegations_perm world₁ p.address,
    getSortedUnbondingDelegations_pairwise k world₁ p.address, ?_, hsum, ?_, hparts, hothers,
    hnotBonded, hshield⟩
  · simp only [makePayoutByProviderDelegations, run_eq_ok]
    refine ⟨p, hp, _, hdelegations, world', ?_, rfl⟩
    rw [hsplit₁, hsplit₂]
    exact hmake
  · rw [length_windowParts, length_map]
  · intro i
    have hbalances : ∀ y ∈ latest.map balance, 0 ≤ y := by
      refine forall_mem_map.mpr ?_
      intro ubd hubd
      exact hbalance ubd ((L.getSortedUnbondingDelegations_perm _ _).mem_iff.mp hubd)
    rw [sum_take_windowParts huncovered hx hbalances, map_take]

end UnbondingLaws

/-- The delegation part writes nothing of the small world but the coins of its pools. -/
lemma viewLaws_keepsUnbondings : viewLaws.KeepsUnbondings := by
  intro w w' hwrite
  cases hwrite with
  | track h | collect _ h =>
    simp only [viewKeepers, Option.ite_none_right_eq_some, Option.some.injEq] at h
    obtain ⟨-, rfl⟩ := h
    exact ⟨rfl, rfl⟩
  | _ => exact ⟨rfl, rfl⟩

/-- Three entries of one delegator, two of them with the same balance and time, and one entry of
another delegator in the same slice. -/
def threeUnbondings : StakingView where
  records := Table.empty.load
    [⟨1, 100, [⟨10, 4⟩, ⟨20, 4⟩]⟩, ⟨1, 101, [⟨20, 4⟩]⟩, ⟨2, 100, [⟨20, 7⟩]⟩]
  queue := TimeQueue.insertAll Table.empty
    [(10, ⟨1, 100⟩), (20, ⟨1, 100⟩), (20, ⟨2, 100⟩), (20, ⟨1, 101⟩)]
  notBonded := 19
  shield := 0
  hasAccount := fun _ => true

def threeBonded : Provider := { Provider.new 1 with delegationBonded := 3, collateral := 15 }

lemma threeUnbondings_inStep : threeUnbondings.InStep := by
  decide

/-- Five units are purchased and six are paid: two of the purchased ones are covered by the first
entry of the last slice, which pays two; the other one pays its four units and leaves. -/
theorem unbondingPayout_exact_three :
    ∃ (view : StakingView) (taken : List Int),
      makePayoutByProviderDelegations viewKeepers shortPeriodParams.pool ⟨0, 0⟩
          (CollateralBook.empty.setProvider threeBonded) threeUnbondings 1 5 6 =
        .ok (CollateralBook.empty.setProvider threeBonded, view) ∧
      (taken.take 1).sum = 2 ∧ (taken.take 2).sum = 6 ∧ taken.sum = 6 ∧
      view.InStep ∧ view.othersAt 1 20 = [⟨2, 100⟩] ∧
      view.records.get (DVPair.key ⟨2, 100⟩) = some ⟨2, 100, [⟨20, 7⟩]⟩ ∧
      view.notBonded = 13 ∧ view.shield = 6 := by
  obtain ⟨view, taken, hmake, -, -, -, hsum, htaken, -, hothers, hnotBonded, hshield⟩ :=
    viewLaws.unbondingPayout_exact shortPeriodParams.pool ⟨0, 0⟩
      (b := CollateralBook.empty.setProvider threeBonded) (p := threeBonded) 5 6 rfl
      (show makePayoutFromDelegations _ _ _ _ threeUnbondings _ _ = _ from rfl)
      (by decide) rfl (by decide) (by decide) (by decide)
  exact ⟨view, taken, hmake, htaken 1, htaken 2, hsum, hothers.inStep threeUnbondings_inStep,
    hothers.queue threeUnbondings_inStep 20, hothers.records ⟨2, 100⟩ (by decide), hnotBonded,
    hshield⟩

end Shentu
