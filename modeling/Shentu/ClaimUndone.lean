import Shentu.ChainSteps
import Shentu.LedgerChain

/-!
What a claim takes at its submission and what its rejection gives back. A
submission moves the loss on all levels. A rejection looks the purchase up under
the address that submitted the claim, while the submission looked under the
address that the claim names, and it may no longer find the pool or the purchase;
then it gives the loss back on some levels only.
-/

namespace Shentu

open Lib

variable {σ : Type}

/-- What stays the same while a proposal is opened: the block, the parameters of the gov module
and the shield store. -/
structure OnlyOpened (c c' : Chain σ) : Prop where
  ctx : c'.ctx = c.ctx
  params : c'.gov.params = c.gov.params
  shield : c'.shield = { c.shield with world := c'.shield.world }

variable {c c' : Chain σ} {k : ChainKeepers σ} {initialDeposit : Coins}
  {claim : ShieldClaimProposal} {proposer : AccAddress}

lemma OnlyOpened.cover (h : OnlyOpened c c') : c'.shield.cover = c.shield.cover := by
  rw [h.shield]

lemma addDeposit_params {k : Keepers σ} {ctx : Ctx} {g g' : GovState} {world world' : σ} {id : Nat}
    {depositor : AccAddress} {amount : Coins}
    (h : g.addDeposit k ctx world id depositor amount = .ok (g', world')) :
    g'.params = g.params := by
  simp only [GovState.addDeposit, run_eq_ok] at h
  obtain ⟨p, -, -, world1, -, heq⟩ := h
  cases heq
  dsimp only [GovState.upsertDeposit]
  split <;> rfl

lemma openProposal_onlyOpened {p : Proposal} (h : openProposal k c p initialDeposit = .ok c') :
    OnlyOpened c c' := by
  unfold openProposal at h
  split at h
  · cases h
    exact ⟨rfl, rfl, rfl⟩
  · simp only [run_eq_ok] at h
    obtain ⟨⟨g, world⟩, hdeposit, rfl⟩ := h
    exact ⟨rfl, addDeposit_params hdeposit, rfl⟩

/-- An accepted claim is opened, which leaves the shield store as it was, and then secured for a
listed purchase. -/
lemma submittedClaim_cases
    (h : handleMsgSubmitProposal k c (.shieldClaim claim) initialDeposit proposer = .ok c') :
    ∃ (c1 : Chain σ) (s : ShieldState σ) (l : PurchaseList) (e : Purchase),
      OnlyOpened c c1 ∧ c1.shield.cover.getPurchaseList claim.poolID claim.proposer = some l ∧
      l.getPurchase claim.purchaseID = some e ∧
      secureCollaterals k.toKeepers c1.ctx c1.shield claim.poolID claim.proposer claim.purchaseID
        claim.loss (c1.gov.params.votingPeriod * 2) = .ok s ∧
      c' = { c1 with shield := s } := by
  simp only [handleMsgSubmitProposal, run_eq_ok] at h
  obtain ⟨-, ⟨⟩, hvalid, c1, hopen, hupdate⟩ := h
  have hopened : OnlyOpened c c1 := by
    have hframe := openProposal_onlyOpened hopen
    exact ⟨hframe.ctx, hframe.params, hframe.shield⟩
  obtain ⟨l, e, hl, he, -⟩ := validateClaim_cases hvalid
  obtain ⟨s, hsecure, rfl⟩ := updateAfterSubmitClaim_cases hupdate
  exact ⟨c1, s, l, e, hopened, hopened.cover ▸ hl, he, hsecure, rfl⟩

lemma submittedClaim_nextPurchaseID
    (h : exec k c (.action (.tx (.submitProposal (.shieldClaim claim) initialDeposit proposer))) =
      .ok c') : c'.shield.cover.nextPurchaseID = c.shield.cover.nextPurchaseID := by
  cases h
  cases htx : deliverTx k c (.submitProposal (.shieldClaim claim) initialDeposit proposer) with
  | error f => rfl
  | ok c2 =>
    simp only [deliverTx, bind_eq_ok, handleMsg] at htx
    obtain ⟨-, -, htx⟩ := htx
    obtain ⟨c1, s, l, e, hopened, hl, he, hsecure, rfl⟩ := submittedClaim_cases htx
    obtain ⟨pool, ratio, collateral, world, -, -, -, -, -, -, rfl⟩ :=
      secureCollaterals_cases hl he hsecure
    exact (congrArg CoverBook.nextPurchaseID hopened.cover :)

/-- The processing of a proposal that is rejected without veto undoes its claim if and only if
the loss is zero, or the pool and the purchase are still there and the claim was submitted by
the purchaser it names. -/
theorem rejectedClaim_undone_iff {k : ChainKeepers σ} {t : Tallies} {c c' : Chain σ} {id : Nat}
    {p : Proposal} {claim : ShieldClaimProposal} (hp : c.gov.getProposal id = some p)
    (hclaim : p.content = .shieldClaim claim) (hreject : t.verdict p = .reject)
    (h : processActiveProposal k t c id = .ok c') :
    LossMoved c.shield.cover c'.shield.cover claim.poolID claim.proposer claim.purchaseID
        (claim.loss.amountOf k.bondDenom) ↔
      claim.loss.amountOf k.bondDenom = 0 ∨
        ((c.shield.cover.getPool claim.poolID).isSome = true ∧
          p.proposerAddress = claim.proposer ∧
          (c.shield.cover.findPurchase claim.poolID claim.proposer claim.purchaseID).isSome =
            true) := by
  simp only [processActiveProposal, run_eq_ok, hp, Option.some.injEq, exists_eq_left', hreject] at h
  obtain ⟨gw, -, rfl⟩ := h
  rw [← rejectClaim_lossMoved_iff]
  simp only [finishProposal, updateAbstain, hclaim]
  rfl

/-- The events until the voting of a claim on purchase 2 has ended. -/
def claimEvents (loss : Int) (proposer : AccAddress) : List (Event Ledger) :=
  (txBlock 1 (coverMsgs ++ [claimMsg loss proposer]) .reject).events ++
    [.beginBlock 20, .endBlocker]

/-- Address 5 claims 20 from its own purchase and the certifiers reject the claim: the 20 are
given back on all levels. -/
theorem rejectedClaim_undone_own :
    ∃ c c' : Chain Ledger, run ledgerChainKeepers ledgerStart (claimEvents 20 5) = .ok c ∧
      processActiveProposal ledgerChainKeepers .reject c 1 = .ok c' ∧
      LossMoved c.shield.cover c'.shield.cover 1 5 2 20 := by
  obtain ⟨c, hc, ⟨p, hp, hclaim, hproposer, hverdict⟩, hpool, hpurchase, c', hc'⟩ :
      ∃ c, run ledgerChainKeepers ledgerStart (claimEvents 20 5) = .ok c ∧
      (∃ p, c.gov.getProposal 1 = some p ∧ p.content = .shieldClaim ⟨1, 1, 2, uctk 20, 5⟩ ∧
        p.proposerAddress = 5 ∧ Tallies.reject.verdict p = .reject) ∧
      (c.shield.cover.getPool 1).isSome = true ∧ (c.shield.cover.findPurchase 1 5 2).isSome = true ∧
      ∃ a, processActiveProposal ledgerChainKeepers .reject c 1 = .ok a := by
    decide +kernel
  have hundone := rejectedClaim_undone_iff hp hclaim hverdict hc'
  exact ⟨c, c', hc, hc', hundone.mpr (.inr ⟨hpool, hproposer, hpurchase⟩)⟩

/-- Address 6 claims 20 from the purchase of address 5. The rejection raises the total and the
pool by 20 and leaves the purchase as it was. -/
theorem rejectedClaim_partly_undone :
    ∃ c c' : Chain Ledger, run ledgerChainKeepers ledgerStart (claimEvents 20 6) = .ok c ∧
      (∃ p, c.gov.getProposal 1 = some p ∧ Tallies.reject.verdict p = .reject ∧
        p.content = .shieldClaim ⟨1, 1, 2, uctk 20, 5⟩) ∧
      processActiveProposal ledgerChainKeepers .reject c 1 = .ok c' ∧
      c'.shield.cover.totalShield = c.shield.cover.totalShield + 20 ∧
      c'.shield.cover.shieldOfPool 1 = c.shield.cover.shieldOfPool 1 + 20 ∧
      c'.shield.cover.shieldOfPurchase 1 5 2 = c.shield.cover.shieldOfPurchase 1 5 2 ∧
      ¬ LossMoved c.shield.cover c'.shield.cover 1 5 2 20 := by
  obtain ⟨c, hc, hproposal, c', hc', htotal, hpool, hpurchase⟩ :
      ∃ c, run ledgerChainKeepers ledgerStart (claimEvents 20 6) = .ok c ∧
      (∃ p, c.gov.getProposal 1 = some p ∧ Tallies.reject.verdict p = .reject ∧ p.content =
        .shieldClaim ⟨1, 1, 2, uctk 20, 5⟩) ∧
      ∃ c', processActiveProposal ledgerChainKeepers .reject c 1 = .ok c' ∧
      c'.shield.cover.totalShield = c.shield.cover.totalShield + 20 ∧
      c'.shield.cover.shieldOfPool 1 = c.shield.cover.shieldOfPool 1 + 20 ∧
      c'.shield.cover.shieldOfPurchase 1 5 2 = c.shield.cover.shieldOfPurchase 1 5 2 := by
    decide +kernel
  refine ⟨c, c', hc, hproposal, hc', htotal, hpool, hpurchase, ?_⟩
  intro hmoved
  have hgiven := hmoved.purchases 1 5 2
  rw [hpurchase, if_pos ⟨rfl, rfl, rfl⟩] at hgiven
  omega

end Shentu
