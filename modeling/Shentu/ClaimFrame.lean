import Shentu.PurchaseIDs
import Shentu.KeptRecords

/-!
A claim changes one entry of the purchase lists. Over every run the purchase IDs are
unique and no stored list is empty, so the entry that the gov module has checked is the
entry that the shield module edits. Everything else of the cover, the fees, the stakes
and the providers is as before.
-/

namespace Shentu

open Lib List Table

variable {σ : Type}

/-- The purchase `id` of a pool and purchaser takes a loss and is kept until `lockEnd`; any other
purchase stays as it is. -/
def takeLossFrom (pair : PoolPurchaser) (id : Nat) (lossAmt : Int) (lockEnd : Time)
    (x : PoolPurchaser × Purchase) : PoolPurchaser × Purchase :=
  if x.1 = pair ∧ x.2.purchaseID = id then
    (pair, { x.2 with
      shield := x.2.shield - lossAmt
      deletionTime := max x.2.deletionTime lockEnd })
  else x

/-- A loss leaves one listed purchase, its pool and the total shield for the total claimed. No
other purchase or pool, no fee, stake or provider record changes. -/
structure OnlyLossTaken (s s' : ShieldState σ) (pair : PoolPurchaser) (id : Nat) (lossAmt : Int)
    (lockEnd : Time) : Prop where
  listed : ∃ e, (pair, e) ∈ s.cover.purchases ∧ e.purchaseID = id ∧ lossAmt ≤ e.shield
  purchases : s'.cover.purchases = s.cover.purchases.map (takeLossFrom pair id lossAmt lockEnd)
  pool : ∃ pool, s.cover.getPool pair.poolID = some pool ∧ lossAmt ≤ pool.shield
  pools : s'.cover.pools.rows = s.cover.pools.rows.map (fun pool =>
    if pool.id = pair.poolID then { pool with shield := pool.shield - lossAmt } else pool)
  totalShield : s'.cover.totalShield = s.cover.totalShield - lossAmt
  totalClaimed : s'.cover.totalClaimed = s.cover.totalClaimed + lossAmt
  purchaseQueue : s'.cover.purchaseQueue = s.cover.purchaseQueue
  fees : s'.fees = s.fees
  stakes : s'.stakes = s.stakes
  reimbursements : s'.reimbursements = s.reimbursements
  providers : s'.collateral.providers = s.collateral.providers

lemma secureLoop_providers {k : Keepers σ} {ctx : Ctx} {claimedRatio : Int} {duration : Duration}
    (providers : List Provider) {remaining : Int} {b b' : CollateralBook} {world world' : σ}
    (h : secureLoop k ctx claimedRatio duration providers remaining b world = .ok (b', world')) :
    b'.providers = b.providers := by
  induction providers generalizing remaining b world with
  | nil =>
    cases h
    rfl
  | cons p ps ih =>
    obtain ⟨⟨b1, world1⟩, hsecure, hrest⟩ := bind_eq_ok.mp h
    refine (ih hrest).trans ?_
    rcases secureFromProvider_cases hsecure with ⟨rfl, -⟩ | hdelay
    · rfl
    · obtain ⟨left, queue, -, -, rfl⟩ := CollateralBook.delayWithdraws_cases hdelay
      rfl

lemma Purchase.claim_eq (e : Purchase) (lossAmt : Int) (lockEnd : Time) : e.claim lossAmt lockEnd =
      { e with shield := e.shield - lossAmt, deletionTime := max e.deletionTime lockEnd } := by
  unfold Purchase.claim
  rw [max_def_lt]

variable {l : PurchaseList}

lemma held_edit_claim (hids : (l.entries.map Purchase.purchaseID).Nodup)
    (id : Nat) (lossAmt : Int) (lockEnd : Time) :
    (l.edit id (fun e => e.claim lossAmt lockEnd)).held =
      l.held.map (takeLossFrom l.pair id lossAmt lockEnd) := by
  have hedit := updateFirst_eq_map id (fun e => e.claim lossAmt lockEnd) hids
  unfold PurchaseList.held PurchaseList.edit
  rw [hedit, map_map, map_map]
  apply map_congr_left
  intro e _
  simp only [Function.comp_apply, takeLossFrom, Purchase.claim_eq, true_and]
  split <;> rfl

/-- The purchases after a loss is taken from one of them, in the order of the store. -/
lemma purchases_takeLoss {b : CoverBook} {pool : Pool} (hfresh : b.FreshIDs)
    (hl : b.purchaseLists.get l.key = some l) (id : Nat) (lossAmt : Int) (lockEnd : Time) :
    (b.takeLoss pool (l.edit id (fun e => e.claim lossAmt lockEnd)) lossAmt).purchases =
      b.purchases.map (takeLossFrom l.pair id lossAmt lockEnd) := by
  have hstored := mem_of_get hl
  have hids : (l.entries.map Purchase.purchaseID).Nodup := by
    have hsub : (purchaseIDs l.held).Sublist (purchaseIDs b.purchases) :=
      (sublist_flatten_of_mem (mem_map_of_mem hstored)).map _
    have hheld : purchaseIDs l.held = l.entries.map Purchase.purchaseID := by
      rw [purchaseIDs, PurchaseList.held, map_map]
      rfl
    rw [← hheld]
    exact hfresh.distinct.sublist hsub
  have hrows := rows_set_of_get hl (l.edit id (fun e => e.claim lossAmt lockEnd)) rfl
  unfold CoverBook.purchases heldPurchases CoverBook.takeLoss
  rw [hrows, flatMap_map, map_flatMap]
  apply flatMap_congr
  intro x hx
  by_cases hkey : x.key = l.key
  · obtain rfl := b.purchaseLists.key_inj_of_mem hx hstored hkey
    rw [if_pos rfl]
    exact held_edit_claim hids id lossAmt lockEnd
  · rw [if_neg hkey]
    have hother : x.pair ≠ l.pair := by
      intro heq
      obtain ⟨hpool, hpurchaser⟩ := PoolPurchaser.mk.inj heq
      exact hkey (poolKey_inj.mpr ⟨hpool, hpurchaser⟩)
    have hsame : x.held.map (takeLossFrom l.pair id lossAmt lockEnd) =
        x.held.map (fun y => y) := by
      apply map_congr_left
      intro y hy
      obtain ⟨e, -, rfl⟩ := mem_map.mp hy
      exact if_neg (fun hy => hother hy.1)
    rw [hsame, map_id']

/-- A secured claim takes its loss from the purchase it names and changes nothing else. -/
lemma secureCollaterals_onlyLossTaken {k : Keepers σ} {ctx : Ctx} {s s' : ShieldState σ}
    {poolID : Nat} {purchaser : AccAddress} {purchaseID : Nat} {loss : Coins} {duration : Duration}
    {e : Purchase} (hfresh : s.cover.FreshIDs)
    (hl : s.cover.getPurchaseList poolID purchaser = some l)
    (he : l.getPurchase purchaseID = some e)
    (h : secureCollaterals k ctx s poolID purchaser purchaseID loss duration = .ok s') :
    OnlyLossTaken s s' ⟨poolID, purchaser⟩ purchaseID (loss.amountOf k.bondDenom)
      (ctx.blockTime + duration) := by
  obtain ⟨pool, ratio, collateral, world, hpool, hshield, -, hloss, -, hloop, rfl⟩ :=
    secureCollaterals_cases hl he h
  have hfind : s.cover.findPurchase poolID purchaser purchaseID = some e := by
    rw [CoverBook.findPurchase, hl, Option.bind_some, he]
  obtain ⟨hlisted, hid⟩ := CoverBook.mem_purchases_of_find hfind
  obtain ⟨rfl, rfl, hstored⟩ := CoverBook.getPurchaseList_eq_some hl
  have hpoolID : pool.id = l.poolID := key_of_get hpool
  exact {
    listed := ⟨e, hlisted, hid, hloss⟩
    purchases := purchases_takeLoss hfresh hstored purchaseID _ _
    pool := ⟨pool, hpool, hshield⟩
    pools := by
      refine (rows_set_of_get hpool { pool with
        shield := pool.shield - loss.amountOf k.bondDenom } hpoolID).trans ?_
      apply map_congr_left
      intro pool' hpool'
      split
      · rename_i hsame
        obtain rfl := s.cover.pools.key_inj_of_mem hpool' (mem_of_get hpool)
          (hsame.trans hpoolID.symm)
        rfl
      · rfl
    totalShield := rfl
    totalClaimed := rfl
    purchaseQueue := rfl
    fees := rfl
    stakes := rfl
    reimbursements := rfl
    providers := secureLoop_providers _ hloop }

/-- In every run from an empty chain the purchase IDs are unique across all purchase lists and no
stored list is empty, and an accepted claim takes its loss from the entry it names, keeps it for
two voting periods and changes no other record. -/
theorem claim_takesOnlyItsPurchase {k : ChainKeepers σ} {params : ShieldParams}
    (hparams : params.validate) {govParams : GovParams} {world : σ} {ctx : Ctx}
    {es : List (Event σ)} {c : Chain σ}
    (hrun : run k (Chain.empty params govParams world ctx) es = .ok c) :
    (purchaseIDs c.shield.cover.purchases).Nodup ∧
      (∀ l ∈ c.shield.cover.purchaseLists.rows, l.entries ≠ []) ∧
      ∀ claim initialDeposit proposer c',
        deliverTx k c (.submitProposal (.shieldClaim claim) initialDeposit proposer) = .ok c' →
        OnlyLossTaken c.shield c'.shield ⟨claim.poolID, claim.proposer⟩ claim.purchaseID
          (claim.loss.amountOf k.bondDenom) (c.ctx.blockTime + 2 * c.gov.params.votingPeriod) := by
  have hfresh : c.shield.cover.FreshIDs := by
    have hstart : (Chain.empty params govParams world ctx).shield.cover.FreshIDs :=
      ⟨nodup_nil, by simp [purchaseIDs, CoverBook.purchases, heldPurchases, Chain.empty,
        ShieldState.empty, Table.empty]⟩
    exact (run_invariant_any (P := fun c => c.shield.cover.FreshIDs)
      (fun _ _ h hmove => hmove.freshIDs h) (ChainSound.empty hparams govParams world ctx) hstart
      hrun).2
  have hlists : c.shield.cover.NoEmptyList := by
    refine foldlM_invariant (P := fun c : Chain σ => c.shield.cover.NoEmptyList)
      (fun _ _ _ _ hl hstep => exec_noEmptyList hl hstep) ?_ hrun
    intro l hl
    cases hl
  refine ⟨hfresh.distinct, hlists, ?_⟩
  intro claim initialDeposit proposer c' h
  simp only [deliverTx, handleMsg, bind_eq_ok] at h
  obtain ⟨⟨⟩, -, h⟩ := h
  obtain ⟨c₁, s, l, e, hopened, hl, he, hsecure, rfl⟩ := submittedClaim_cases h
  have htaken := secureCollaterals_onlyLossTaken (hopened.cover ▸ hfresh) hl he hsecure
  rw [hopened.ctx, hopened.params, mul_comm] at htaken
  rw [hopened.shield] at htaken
  exact ⟨htaken.listed, htaken.purchases, htaken.pool, htaken.pools, htaken.totalShield,
    htaken.totalClaimed, htaken.purchaseQueue, htaken.fees, htaken.stakes, htaken.reimbursements,
    htaken.providers⟩

/-- Address 5 claims 20 from its purchase of 50; the purchase of the admin in the same pool stays
as it is. -/
theorem claim_takesOnlyItsPurchase_second : ∃ c c' : Chain Ledger,
      run ledgerChainKeepers ledgerStart (txBlock 1 coverMsgs .reject).events = .ok c ∧
      deliverTx ledgerChainKeepers c (claimMsg 20 5) = .ok c' ∧
      c.shield.cover.shieldOfPurchase 1 5 2 = 50 ∧
      OnlyLossTaken c.shield c'.shield ⟨1, 5⟩ 2 20 (1001 + 2 * 10) := by
  obtain ⟨c, hc, htime, hperiod, hshield, c', hc'⟩ : ∃ c, run ledgerChainKeepers ledgerStart
        (txBlock 1 coverMsgs .reject).events = .ok c ∧ c.ctx.blockTime = 1001 ∧
      c.gov.params.votingPeriod = 10 ∧ c.shield.cover.shieldOfPurchase 1 5 2 = 50 ∧
      ∃ a, deliverTx ledgerChainKeepers c (claimMsg 20 5) = .ok a := by
    decide +kernel
  obtain ⟨-, -, htaken⟩ := claim_takesOnlyItsPurchase shortPeriodParams_validate hc
  have hexact := htaken _ _ _ c' hc'
  rw [htime, hperiod] at hexact
  exact ⟨c, c', hc, hc', hshield, hexact⟩

end Shentu
