import Shentu.ChainSteps
import Shentu.LedgerChain
import Shentu.Shield.Purchases

/-!
The IDs of the listed purchases are distinct and have been given out. A purchase
keeps its ID for life, and no ID is given out twice.
-/

namespace Shentu

open Lib List CoverBook

variable {σ : Type}

def purchaseIDs (xs : List (PoolPurchaser × Purchase)) : List Nat :=
  xs.map (fun x => x.2.purchaseID)

/-- The IDs of the purchases `xs` when `next` is the next ID. -/
structure FreshIDs (xs : List (PoolPurchaser × Purchase)) (next : Nat) : Prop where
  distinct : (purchaseIDs xs).Nodup
  below : ∀ id ∈ purchaseIDs xs, id < next

namespace FreshIDs

variable {xs ys rest : List (PoolPurchaser × Purchase)} {next : Nat} {pair pair' : PoolPurchaser}
  {e e' : Purchase}

lemma lt_next (h : FreshIDs xs next) {x : PoolPurchaser × Purchase} (hx : x ∈ xs) :
    x.2.purchaseID < next :=
  h.below _ (mem_map_of_mem hx)

lemma eq_of_id (h : FreshIDs xs next) {x y : PoolPurchaser × Purchase} (hx : x ∈ xs)
    (hy : y ∈ xs) (hid : x.2.purchaseID = y.2.purchaseID) : x = y :=
  inj_on_of_nodup_map h.distinct hx hy hid

lemma ne_of_rest (h : FreshIDs xs next) (hold : xs.Perm ((pair, e) :: rest))
    {y : PoolPurchaser × Purchase} (hy : y ∈ rest) : y.2.purchaseID ≠ e.purchaseID := by
  have hids : (purchaseIDs xs).Perm (e.purchaseID :: purchaseIDs rest) := hold.map _
  have hnot := (nodup_cons.mp (hids.nodup_iff.mp h.distinct)).1
  intro heq
  exact hnot (heq ▸ mem_map_of_mem hy)

lemma of_perm (h : FreshIDs xs next) (hperm : (purchaseIDs ys).Perm (purchaseIDs xs)) :
    FreshIDs ys next :=
  ⟨hperm.nodup_iff.mpr h.distinct, fun id hid => h.below id (hperm.mem_iff.mp hid)⟩

lemma mono (h : FreshIDs xs next) {next' : Nat} (hle : next ≤ next') : FreshIDs xs next' :=
  ⟨h.distinct, fun id hid => lt_of_lt_of_le (h.below id hid) hle⟩

lemma replace (h : FreshIDs xs next) (hold : xs.Perm ((pair, e) :: rest))
    (hnew : ys.Perm ((pair', e') :: rest)) (hid : e'.purchaseID = e.purchaseID) :
    FreshIDs ys next := by
  refine h.of_perm ?_
  have hold' : (purchaseIDs xs).Perm (e.purchaseID :: purchaseIDs rest) := hold.map _
  have hnew' : (purchaseIDs ys).Perm (e'.purchaseID :: purchaseIDs rest) := hnew.map _
  rw [hid] at hnew'
  exact hnew'.trans hold'.symm

lemma remove (h : FreshIDs xs next) (hold : xs.Perm ((pair, e) :: rest))
    (hnew : ys.Perm rest) : FreshIDs ys next := by
  have hold' : (purchaseIDs xs).Perm (e.purchaseID :: purchaseIDs rest) := hold.map _
  have hnew' : (purchaseIDs ys).Perm (purchaseIDs rest) := hnew.map _
  have hdistinct := hold'.nodup_iff.mp h.distinct
  refine ⟨hnew'.nodup_iff.mpr (nodup_cons.mp hdistinct).2, ?_⟩
  intro id hid
  exact h.below id (hold'.mem_iff.mpr (mem_cons_of_mem _ (hnew'.mem_iff.mp hid)))

lemma add (h : FreshIDs xs next) (hnew : ys.Perm ((pair, e) :: xs)) (hid : e.purchaseID = next) :
    FreshIDs ys (next + 1) := by
  have hnew' : (purchaseIDs ys).Perm (e.purchaseID :: purchaseIDs xs) := hnew.map _
  refine ⟨hnew'.nodup_iff.mpr (nodup_cons.mpr ⟨?_, h.distinct⟩), ?_⟩
  · intro hmem
    have hlt := h.below _ hmem
    omega
  · intro id hmem
    rcases mem_cons.mp (hnew'.mem_iff.mp hmem) with heq | hmem'
    · omega
    · have hlt := h.below id hmem'
      omega

end FreshIDs

/-- The purchase IDs of a cover book are distinct and below the next one. -/
abbrev CoverBook.FreshIDs (b : CoverBook) : Prop := Shentu.FreshIDs b.purchases b.nextPurchaseID

lemma ShieldState.purchases_sold (s : ShieldState σ) (ctx : Ctx) (pool : Pool)
    (purchaser : AccAddress) (description : String) (shieldAmt : Int) (fees : DecCoins) :
    (s.sold ctx pool purchaser description shieldAmt fees).purchases.Perm
      ((⟨pool.id, purchaser⟩, Purchase.new ctx s.params.pool s.cover.nextPurchaseID description
        shieldAmt fees) :: s.cover.purchases) :=
  purchases_sell s.cover.takePurchaseID pool purchaser _

lemma ShieldMove.freshIDs {k : Keepers σ} {rules : MoveRules} {ctx : Ctx} {s s' : ShieldState σ}
    (hmove : ShieldMove k rules ctx s s') (h : s.cover.FreshIDs) : s'.cover.FreshIDs := by
  cases hmove with
  | takeID => exact h.mono (Nat.le_succ _)
  | paid | staked => exact h.add (s.purchases_sold ctx _ _ _ _ _) rfl
  | settle hl he _ _ =>
    exact h.replace (heldPurchases_listed hl he) (heldPurchases_replace _ _ _ _ _) rfl
  | remove hl he _ _ =>
    exact h.remove (heldPurchases_listed hl he) (heldPurchases_remove _ _ _ _)
  | dropList hl he => exact h.of_perm ((heldPurchases_delete hl he).map _)
  | _ => exact h

/-- A step on a claim changes at most one purchase, in its shield and its deletion time. -/
structure ClaimStep (s s' : ShieldState σ) : Prop where
  next : s'.cover.nextPurchaseID = s.cover.nextPurchaseID
  queue : s'.cover.purchaseQueue = s.cover.purchaseQueue
  stakes : s'.stakes = s.stakes
  purchases : s'.cover.purchases = s.cover.purchases ∨ ∃ pair e shield time rest,
    s.cover.purchases.Perm ((pair, e) :: rest) ∧ s'.cover.purchases.Perm
      ((pair, { e with shield := shield, deletionTime := time }) :: rest)

variable {k : ChainKeepers σ} {rules : ChainRules σ} {c c' : Chain σ}

/-- A move of the chain is one of the shield module or a step on a claim. -/
lemma ChainMove.shieldMove_or_claimStep (hmove : ChainMove k rules c c') :
    ShieldMove k.toKeepers rules.toMoveRules c.ctx c.shield c'.shield ∨
      ClaimStep c.shield c'.shield := by
  cases hmove with
  | shield hshield => exact .inl hshield
  | submit _ _ _ _ _ _ _ _ _ hl he _ hsecure =>
    obtain ⟨pool, ratio, collateral, world, -, -, -, -, -, -, rfl⟩ :=
      secureCollaterals_cases hl he hsecure
    obtain ⟨-, -, hstored⟩ := getPurchaseList_eq_some hl
    obtain ⟨rest, hold, hnew⟩ := heldPurchases_edit hstored he _
    exact .inr ⟨rfl, rfl, rfl, .inr ⟨_, _, _, _, rest, hold, hnew⟩⟩
  | @reject g p claim _ _ _ _ _ =>
    obtain ⟨hnext, -, hqueue⟩ := rejectClaim_counters c.shield.cover claim.poolID
      p.proposerAddress claim.purchaseID (claim.loss.amountOf k.bondDenom)
    refine .inr ⟨hnext, hqueue, rfl, ?_⟩
    rcases purchases_rejectClaim c.shield.cover claim.poolID p.proposerAddress
      claim.purchaseID (claim.loss.amountOf k.bondDenom) with
      ⟨e, rest, -, -, hold, hnew⟩ | ⟨-, hsame⟩
    · exact .inr ⟨_, e, _, e.deletionTime, rest, hold, hnew⟩
    · exact .inl hsame
  | pay _ _ _ _ _ hpay =>
    obtain ⟨b, world, rfl⟩ := createReimbursement_cases hpay
    exact .inr ⟨rfl, rfl, rfl, .inl rfl⟩
  | _ => exact .inr ⟨rfl, rfl, rfl, .inl rfl⟩

lemma ChainMove.freshIDs (hmove : ChainMove k rules c c') (h : c.shield.cover.FreshIDs) :
    c'.shield.cover.FreshIDs := by
  rcases hmove.shieldMove_or_claimStep with hshield | hclaim
  · exact hshield.freshIDs h
  · rw [CoverBook.FreshIDs, hclaim.next]
    rcases hclaim.purchases with hsame | ⟨pair, e, shield, time, rest, hold, hnew⟩
    · rwa [hsame]
    · exact h.replace hold hnew rfl

/-- What is fixed when a purchase is made. -/
def bought (x : PoolPurchaser × Purchase) : PoolPurchaser × Nat × Time × String :=
  (x.1, x.2.purchaseID, x.2.protectionEndTime, x.2.description)

/-- A cover book and a later one: its purchases are new, or they were there before. -/
def CoverBook.After (b b' : CoverBook) : Prop :=
  b.nextPurchaseID ≤ b'.nextPurchaseID ∧ ∀ y ∈ b'.purchases,
    b.nextPurchaseID ≤ y.2.purchaseID ∨ bought y ∈ b.purchases.map bought

namespace CoverBook.After

variable {b b1 b' : CoverBook}

lemma of_subset (hnext : b'.nextPurchaseID = b.nextPurchaseID)
    (h : b'.purchases.map bought ⊆ b.purchases.map bought) : b.After b' :=
  ⟨hnext.ge, fun _ hy => .inr (h (mem_map_of_mem hy))⟩

lemma of_replace (hnext : b'.nextPurchaseID = b.nextPurchaseID) {pair : PoolPurchaser}
    {e e' : Purchase} {rest : List (PoolPurchaser × Purchase)}
    (hold : b.purchases.Perm ((pair, e) :: rest)) (hnew : b'.purchases.Perm ((pair, e') :: rest))
    (heq : bought (pair, e') = bought (pair, e)) : b.After b' := by
  have hnew' := hnew.map bought
  rw [map_cons, heq] at hnew'
  exact of_subset hnext (hnew'.trans (hold.map bought).symm).subset

lemma trans (h : b.After b1) (h' : b1.After b') : b.After b' := by
  refine ⟨h.1.trans h'.1, fun y hy => ?_⟩
  rcases h'.2 y hy with hnew | hold
  · exact .inl (h.1.trans hnew)
  · obtain ⟨z, hz, heq⟩ := mem_map.mp hold
    have hid : z.2.purchaseID = y.2.purchaseID := congrArg (fun t => t.2.1) heq
    rw [← heq, ← hid]
    exact h.2 z hz

end CoverBook.After

lemma ShieldMove.after {k : Keepers σ} {rules : MoveRules} {ctx : Ctx} {s s' : ShieldState σ}
    (hmove : ShieldMove k rules ctx s s') : s.cover.After s'.cover := by
  cases hmove with
  | takeID => exact ⟨Nat.le_succ _, fun _ hy => .inr (mem_map_of_mem hy)⟩
  | paid | staked =>
    refine ⟨Nat.le_succ _, fun y hy => ?_⟩
    rcases mem_cons.mp ((s.purchases_sold ctx _ _ _ _ _).mem_iff.mp hy) with rfl | hold
    · exact .inl le_rfl
    · exact .inr (mem_map_of_mem hold)
  | settle hl he _ _ =>
    exact .of_replace rfl (heldPurchases_listed hl he) (heldPurchases_replace _ _ _ _ _) rfl
  | remove hl he _ _ =>
    refine .of_subset rfl (map_subset _ fun y hy => (heldPurchases_listed hl he).mem_iff.mpr ?_)
    exact mem_cons_of_mem _ ((heldPurchases_remove _ _ _ _).mem_iff.mp hy)
  | dropList hl he => exact .of_subset rfl ((heldPurchases_delete hl he).map bought).subset
  | _ => exact .of_subset rfl (Subset.refl _)

lemma ChainMove.after (hmove : ChainMove k rules c c') :
    c.shield.cover.After c'.shield.cover := by
  rcases hmove.shieldMove_or_claimStep with hshield | hclaim
  · exact hshield.after
  · rcases hclaim.purchases with hsame | ⟨pair, e, shield, time, rest, hold, hnew⟩
    · exact .of_subset hclaim.next (hsame ▸ Subset.refl _)
    · exact .of_replace hclaim.next hold hnew rfl

/-- A purchase keeps its pool, its purchaser, its protection and its ID, and no ID that has been
given out comes back once its purchase is gone. -/
theorem purchases_liveOn_of_run {params : ShieldParams} (hparams : params.validate)
    {govParams : GovParams} {world : σ} {ctx : Ctx} {es es' : List (Event σ)}
    (hrun : run k (Chain.empty params govParams world ctx) es = .ok c)
    (hrun' : run k c es' = .ok c') : c.shield.cover.After c'.shield.cover := by
  have hsound := (run_invariant_any (P := fun _ => True) (fun _ _ _ _ => trivial)
    (.empty hparams govParams world ctx) trivial hrun).1
  exact (run_invariant_any (P := fun d => c.shield.cover.After d.shield.cover)
    (fun _ _ h hmove => h.trans hmove.after) hsound (.of_subset rfl (Subset.refl _)) hrun').2

/-- A claim of 20 lowers the shield of purchase 2, which stays what it is otherwise. -/
theorem purchases_liveOn_of_claim : ∃ c c' : Chain Ledger,
    run ledgerChainKeepers ledgerStart (txBlock 1 coverMsgs .pass).events = .ok c ∧
    run ledgerChainKeepers c (txBlock 1 [claimMsg 20 5] .pass).events = .ok c' ∧
    c'.shield.cover.purchases.map (·.2.shield) = [30, 10] ∧
    c.shield.cover.After c'.shield.cover := by
  obtain ⟨c, hc, c', hc', hshield⟩ : ∃ c : Chain Ledger,
      run ledgerChainKeepers ledgerStart (txBlock 1 coverMsgs .pass).events = .ok c ∧
      ∃ c', run ledgerChainKeepers c (txBlock 1 [claimMsg 20 5] .pass).events = .ok c' ∧
        c'.shield.cover.purchases.map (·.2.shield) = [30, 10] := by
    decide +kernel
  exact ⟨c, c', hc, hc', hshield, purchases_liveOn_of_run (by decide) hc hc'⟩

end Shentu
