import Shentu.KeptRecords
import Shentu.TwoRounds

/-!
The life of a reimbursement. The record of a proposal is created by the only call of the
handler of its claim, with the loss and the proposer of the claim, and it stays as it is
until its beneficiary withdraws it, not before the payout time; then the recorded amount
is sent and the record is deleted.
-/

namespace Shentu

open Lib List

variable {σ : Type}

/-- What one event that adds `entries` to the trace does to the record of a proposal. -/
inductive RecordStep (k : ChainKeepers σ) (c : Chain σ) (e : Event σ) (c' : Chain σ)
    (entries : Trace) (id : Nat) : Prop
  | kept : c'.shield.reimbursements.get id = c.shield.reimbursements.get id →
      (∀ claim, .executed id (.shieldClaim claim) ∉ entries) → RecordStep k c e c' entries id
  | created {t : Tallies} {claim : ShieldClaimProposal} : e = .govEndBlocker t →
      .executed id (.shieldClaim claim) ∈ entries → claim.proposalID = id →
      c.shield.reimbursements.get id = none →
      c'.shield.reimbursements.get id = some (claimRecord c claim) →
      RecordStep k c e c' entries id
  | withdrawn {r : Reimbursement} {world : σ} :
      e = .action (.tx (.withdrawReimbursement id r.beneficiary)) →
      c.shield.reimbursements.get id = some ⟨id, r⟩ → r.payoutTime ≤ c.ctx.blockTime →
      k.sendCoinsFromModuleToAccount c.shield.world .shield r.beneficiary r.amount = some world →
      c' = { c with shield := { c.shield with
        reimbursements := c.shield.reimbursements.delete id, world := world } } →
      (∀ claim, .executed id (.shieldClaim claim) ∉ entries) → RecordStep k c e c' entries id

/-- Every stored record comes from the call of the handler of its proposal, a claim with the loss
and the proposer of the record. -/
def RecordsSound (c : Chain σ) (t : Trace) : Prop :=
  ∀ id pair, c.shield.reimbursements.get id = some pair →
    ∃ claim, .executed id (.shieldClaim claim) ∈ t ∧ pair.reimbursement.amount = claim.loss ∧
      pair.reimbursement.beneficiary = claim.proposer

section Trace

variable {k : ChainKeepers σ} {ct ct' : TracedChain σ}

lemma addDepositTraced_trace {k : Keepers σ} {ctx : Ctx} {g : GovState} {wt : σ × Trace} {id : Nat}
    {depositor : AccAddress} {amount : Coins} {gwt : GovState × σ × Trace}
    (h : g.addDepositTraced k ctx wt id depositor amount = .ok gwt) :
    gwt.2.2 = wt.2 ++ [.moved .deposited ⟨id, depositor, amount⟩] := by
  simp only [GovState.addDepositTraced, run_eq_ok] at h
  obtain ⟨_, -, rfl⟩ := h
  rfl

/-- Only the end blocker of the gov module calls handlers of proposals. -/
lemma execTraced_notExecuted {e : Event σ} (he : ∀ t, e ≠ .govEndBlocker t)
    (h : execTraced k ct e = .ok ct') :
    ∃ entries, ct'.2 = ct.2 ++ entries ∧ ∀ i content, .executed i content ∉ entries := by
  have hsame : ct'.2 = ct.2 → ∃ entries, ct'.2 = ct.2 ++ entries ∧
      ∀ i content, .executed i content ∉ entries := by
    intro heq
    exact ⟨[], by rw [heq, append_nil], fun _ _ hmem => by cases hmem⟩
  have hdeposit : ∀ d, ct'.2 = ct.2 ++ [.moved .deposited d] → ∃ entries, ct'.2 = ct.2 ++ entries ∧
      ∀ i content, .executed i content ∉ entries := by
    intro d heq
    refine ⟨_, heq, ?_⟩
    intro i content hmem
    cases mem_singleton.mp hmem
  cases hgov : e.isGov with
  | false => exact hsame (execTraced_trace_eq hgov h)
  | true =>
    unfold Event.isGov at hgov
    split at hgov
    · exact absurd rfl (he _)
    · dsimp only [execTraced] at h
      split at h
      · rename_i ct1 htx
        cases h
        simp only [deliverTxTraced, handleMsgTraced, submitProposalTraced, bind_eq_ok,
          pure_eq_ok] at htx
        obtain ⟨_, -, _, -, _, -, ⟨c1, t1⟩, hopen, c2, -, rfl⟩ := htx
        unfold openProposalTraced at hopen
        split at hopen
        · cases hopen
          exact hsame rfl
        · simp only [bind_eq_ok, pure_eq_ok] at hopen
          obtain ⟨gwt, hadd, heq⟩ := hopen
          cases heq
          exact hdeposit _ (addDepositTraced_trace hadd)
      · cases h
        exact hsame rfl
    · dsimp only [execTraced] at h
      split at h
      · rename_i ct1 htx
        cases h
        simp only [deliverTxTraced, handleMsgTraced, depositTraced, bind_eq_ok, pure_eq_ok] at htx
        obtain ⟨_, -, gwt, hadd, rfl⟩ := htx
        exact hdeposit _ (addDepositTraced_trace hadd)
      · cases h
        exact hsame rfl
    · cases hgov

/-- A handler in the trace of a sound store belongs to the stored proposal, and a claim carries the
ID of its proposal. -/
lemma StagesSound.executed_named {c : Chain σ} {t : Trace} (hsound : GovSound c.gov)
    (h : StagesSound c.gov t) {i : Nat} {claim : ShieldClaimProposal}
    (hmem : .executed i (.shieldClaim claim) ∈ t) : claim.proposalID = i := by
  obtain ⟨t1, t2, rfl⟩ := append_of_mem hmem
  obtain ⟨p, hp, hcontent, -⟩ := (h.executedOnce (c := c)).stored
  exact (hsound i).named p claim hp hcontent

lemma StagesSound.executed_once {c : Chain σ} {t entries : Trace}
    (h : StagesSound c.gov (t ++ entries)) {id : Nat} {content content' : Content}
    (hmem : .executed id content ∈ entries) : .executed id content' ∉ t := by
  obtain ⟨t1, t2, rfl⟩ := append_of_mem hmem
  rw [← append_assoc] at h
  intro hmem'
  exact (h.executedOnce (c := c)).before content' (mem_append_left _ hmem')

end Trace

section Steps

variable {k : ChainKeepers σ} {c c' : Chain σ} {t t' : Trace} {e : Event σ}

lemma execTraced_recordStep (hsound : GovSound c.gov) (hstages : StagesSound c.gov t)
    (hrecords : RecordsSound c t) (h : execTraced k (c, t) e = .ok (c', t')) :
    ∃ entries, t' = t ++ entries ∧ ∀ id, RecordStep k c e c' entries id := by
  have hone : runTraced k (c, t) [e] = .ok (c', t') := foldlM_cons_eq_ok.mpr ⟨_, h, rfl⟩
  obtain ⟨hsound', hstages'⟩ := runTraced_stages hsound hstages hone
  have hexec : exec k c e = .ok c' := by
    have herase := execTraced_erase k (c, t) e
    rw [h] at herase
    exact herase.symm
  by_cases he : ∃ tallies, e = .govEndBlocker tallies
  · obtain ⟨tallies, rfl⟩ := he
    have hend : govEndBlockerTraced k tallies (c, t) = .ok (c', t') := h
    obtain ⟨entries, hwritten⟩ := govEndBlockerTraced_records hend
    have htrace : t' = t ++ entries := hwritten.trace
    subst htrace
    refine ⟨entries, rfl, ?_⟩
    intro id
    rcases hwritten.records id with ⟨hsame, hnone⟩ | ⟨i, claim, hmem, hid, hstored⟩
    · refine .kept hsame ?_
      intro claim hmem
      exact hnone id claim hmem (hstages'.executed_named hsound' (mem_append_right _ hmem))
    · have hnamed := hstages'.executed_named hsound' (mem_append_right _ hmem)
      obtain rfl : i = id := hnamed.symm.trans hid
      refine .created rfl hmem hid ?_ hstored
      -- A record under the ID would come from an earlier call of the handler.
      cases hold : c.shield.reimbursements.get i with
      | none => rfl
      | some pair =>
        obtain ⟨claim', hmem', -, -⟩ := hrecords i pair hold
        exact absurd hmem' (hstages'.executed_once hmem)
  · have he' : ∀ tallies, e ≠ .govEndBlocker tallies := fun tallies ht => he ⟨tallies, ht⟩
    obtain ⟨entries, htrace, hnone⟩ := execTraced_notExecuted he' h
    refine ⟨entries, htrace, ?_⟩
    intro id
    rcases exec_records he' hexec with hkeeps | ⟨i, sender, s, rfl, hwithdraw, rfl⟩
    · exact .kept (by rw [hkeeps.reimbursements]) (fun claim => hnone id _)
    · obtain ⟨r, world, hstored, rfl, htime, hsend, rfl⟩ := withdrawReimbursement_cases hwithdraw
      by_cases hid : id = i
      · subst hid
        exact .withdrawn rfl hstored htime hsend rfl (fun claim => hnone id _)
      · exact .kept (Table.get_delete_of_ne _ hid) (fun claim => hnone id _)

lemma RecordsSound.step {entries : Trace} (h : RecordsSound c t)
    (hstep : ∀ id, RecordStep k c e c' entries id) : RecordsSound c' (t ++ entries) := by
  intro id pair hpair
  cases hstep id with
  | kept hsame _ =>
    obtain ⟨claim, hmem, hamount, hbeneficiary⟩ := h id pair (hsame.symm.trans hpair)
    exact ⟨claim, mem_append_left _ hmem, hamount, hbeneficiary⟩
  | @created tallies claim _ hmem _ _ hstored =>
    cases hstored.symm.trans hpair
    exact ⟨claim, mem_append_right _ hmem, rfl, rfl⟩
  | withdrawn _ _ _ _ hwithdrawn _ =>
    subst hwithdrawn
    cases (Table.get_delete_self c.shield.reimbursements id).symm.trans hpair

end Steps

/-- Every run from an empty chain has a trace of the calls of proposal handlers, in which the
handler of a proposal is called at most once. Each stored reimbursement comes from such a call for
the claim of its own proposal. Whatever the next event is, a record is kept as it is, created by
the call of the handler of its proposal where there was none, or deleted by a withdrawal of its
beneficiary, not before its payout time, that sends the recorded amount. -/
theorem reimbursements_of_run {k : ChainKeepers σ} {params : ShieldParams} {govParams : GovParams}
    {world : σ} {ctx : Ctx} {es : List (Event σ)} {c : Chain σ}
    (hrun : run k (Chain.empty params govParams world ctx) es = .ok c) :
    ∃ t, runTraced k (Chain.empty params govParams world ctx, []) es = .ok (c, t) ∧
      (∀ t₁ t₂ id content, t = t₁ ++ .executed id content :: t₂ →
        ExecutedOnce c t₁ t₂ id content) ∧
      RecordsSound c t ∧
      ∀ e c', exec k c e = .ok c' → ∃ entries,
        execTraced k (c, t) e = .ok (c', t ++ entries) ∧
          ∀ id, RecordStep k c e c' entries id := by
  obtain ⟨t, htraced⟩ := exists_trace (Chain.empty params govParams world ctx, []) hrun
  have hinv : GovSound c.gov ∧ StagesSound c.gov t ∧ RecordsSound c t := by
    refine foldlM_invariant (P := fun ct : TracedChain σ => GovSound ct.1.gov ∧
      StagesSound ct.1.gov ct.2 ∧ RecordsSound ct.1 ct.2) ?_ ?_ htraced
    · rintro e - ⟨c₁, t₁⟩ ⟨c₂, t₂⟩ ⟨hsound, hstages, hrecords⟩ hexec
      obtain ⟨hsound', hstages'⟩ := runTraced_stages hsound hstages
        (foldlM_cons_eq_ok.mpr ⟨_, hexec, rfl⟩ : runTraced k (c₁, t₁) [e] = .ok (c₂, t₂))
      obtain ⟨entries, rfl, hstep⟩ := execTraced_recordStep hsound hstages hrecords hexec
      exact ⟨hsound', hstages', hrecords.step hstep⟩
    · refine ⟨GovSound.empty govParams, StagesSound.empty govParams, ?_⟩
      intro id pair hpair
      cases hpair
  obtain ⟨hsound, hstages, hrecords⟩ := hinv
  refine ⟨t, htraced, ?_, hrecords, ?_⟩
  · rintro t₁ t₂ id content rfl
    exact hstages.executedOnce
  · intro e c' hexec
    obtain ⟨t', htraced'⟩ := exists_execTraced (c, t) hexec
    obtain ⟨entries, rfl, hstep⟩ := execTraced_recordStep hsound hstages hrecords htraced'
    exact ⟨entries, htraced', hstep⟩

/-- The claim of 20 is paid out at time 1021, and address 5 withdraws its reimbursement 100
later. -/
theorem reimbursements_of_withdrawal :
    ∃ (c c' : Chain Ledger) (entries : Trace),
      run ledgerChainKeepers ledgerStart (paidClaimEvents ++ [.beginBlock 100]) = .ok c ∧
      c.shield.reimbursements.get 1 = some ⟨1, ⟨uctk 20, 5, 1121⟩⟩ ∧ c.ctx.blockTime = 1121 ∧
      exec ledgerChainKeepers c (.action (.tx (.withdrawReimbursement 1 5))) = .ok c' ∧
      c'.shield.reimbursements.get 1 = none ∧
      RecordStep ledgerChainKeepers c (.action (.tx (.withdrawReimbursement 1 5)))
        c' entries 1 := by
  obtain ⟨c, hc, hstored, htime, c', hc', hdeleted⟩ : ∃ c, run ledgerChainKeepers ledgerStart
        (paidClaimEvents ++ [.beginBlock 100]) = .ok c ∧
      c.shield.reimbursements.get 1 = some ⟨1, ⟨uctk 20, 5, 1121⟩⟩ ∧ c.ctx.blockTime = 1121 ∧
      ∃ c', exec ledgerChainKeepers c (.action (.tx (.withdrawReimbursement 1 5))) = .ok c' ∧
      c'.shield.reimbursements.get 1 = none := by
    decide +kernel
  obtain ⟨t, -, -, -, hnext⟩ := reimbursements_of_run hc
  obtain ⟨entries, -, hstep⟩ := hnext _ c' hc'
  exact ⟨c, c', entries, hc, hstored, htime, hc', hdeleted, hstep 1⟩

end Shentu
