import Shentu.ClaimUndone
import Shentu.GovMoves
import Shentu.Shield.WithdrawTickets

/-!
What the events of the chain do to the stored reimbursements and to the purchase lists.
No event leaves an empty list behind. A reimbursement is stored when the handler of a
passed claim is called, which the trace of the gov module shows, and it is deleted by a
withdrawal; nothing else writes the table.
-/

namespace Shentu

open Lib List Written

variable {σ : Type}

section Messages

variable {k : ChainKeepers σ} {c c' : Chain σ}

/-- A withdrawal of collateral is put in the queue. -/
def QueuesWithdraw (k : Keepers σ) (ctx : Ctx) (s : ShieldState σ) (msg : Msg)
    (s' : ShieldState σ) : Prop :=
  ∃ sender collateral amount b, msg = .withdrawCollateral sender collateral ∧
    collateralAmount k collateral = .ok amount ∧
    s.collateral.withdrawCollateral s.params.pool ctx sender amount = .ok b ∧
    s' = { s with collateral := b }

/-- A shield message keeps the records and the withdraw queue, unless it withdraws collateral or
a reimbursement. -/
lemma handleShieldMsg_records {k : Keepers σ} {ctx : Ctx} {s s' : ShieldState σ} {msg : Msg}
    (h : handleShieldMsg k ctx s msg = .ok s') :
    KeepsQueue s s' ∨ QueuesWithdraw k ctx s msg s' ∨
      ∃ id sender, msg = .withdrawReimbursement id sender ∧
        withdrawReimbursement k ctx s id sender = .ok s' := by
  cases msg with
  | withdrawReimbursement proposalID sender => exact .inr (.inr ⟨proposalID, sender, rfl, h⟩)
  | createPool sender shield deposit sponsor sponsorAddr description shieldLimit =>
    simp only [handleShieldMsg, createPool, run_eq_ok] at h
    obtain ⟨-, -, h⟩ := h
    obtain ⟨rfl, -⟩ := commit_eq_ok.mp h
    have hadded : OnlySells s { s with
        cover := s.cover.addPool description sponsor sponsorAddr shieldLimit } :=
      ⟨⟨rfl, id⟩, rfl⟩
    exact .inl (hadded.trans (purchaseShieldWith_onlySells rfl)).keepsQueue
  | updatePool sender shield serviceFees poolID description shieldLimit =>
    simp only [handleShieldMsg, updatePool, run_eq_ok] at h
    obtain ⟨-, pool, -, h⟩ := h
    have hedited : ∀ pool', OnlySells s { s with cover := s.cover.setPool pool' } :=
      fun _ => ⟨⟨rfl, id⟩, rfl⟩
    split at h
    · obtain ⟨rfl, -⟩ := commit_eq_ok.mp h
      exact .inl ((hedited _).trans (purchaseShieldWith_onlySells rfl)).keepsQueue
    · unfold addFeesWithoutPurchase at h
      split at h
      · simp only [run_eq_ok] at h
        obtain ⟨fees, -, rfl⟩ := h
        exact .inl ⟨⟨rfl, id⟩, rfl⟩
      · cases h
        exact .inl ⟨⟨rfl, id⟩, rfl⟩
  | pausePool sender poolID =>
    simp only [handleShieldMsg, pausePool, setPoolActive, run_eq_ok] at h
    obtain ⟨-, pool, -, -, rfl⟩ := h
    exact .inl ⟨⟨rfl, id⟩, rfl⟩
  | resumePool sender poolID =>
    simp only [handleShieldMsg, resumePool, setPoolActive, run_eq_ok] at h
    obtain ⟨-, pool, -, -, rfl⟩ := h
    exact .inl ⟨⟨rfl, id⟩, rfl⟩
  | updateSponsor poolID sponsor sponsorAddr sender =>
    simp only [handleShieldMsg, updateSponsor, run_eq_ok] at h
    obtain ⟨-, pool, -, rfl⟩ := h
    exact .inl ⟨⟨rfl, id⟩, rfl⟩
  | depositCollateral sender collateral =>
    simp only [handleShieldMsg, run_eq_ok] at h
    obtain ⟨amount, -, b, hdeposit, rfl⟩ := h
    obtain ⟨p, -, -, rfl⟩ := CollateralBook.depositCollateral_cases hdeposit
    exact .inl ⟨⟨rfl, id⟩, rfl⟩
  | withdrawCollateral sender collateral =>
    simp only [handleShieldMsg, run_eq_ok] at h
    obtain ⟨amount, hamount, b, hwithdraw, rfl⟩ := h
    exact .inr (.inl ⟨sender, collateral, amount, b, rfl, hamount, hwithdraw, rfl⟩)
  | withdrawRewards sender =>
    simp only [handleShieldMsg, payoutNativeRewards] at h
    split at h
    · cases h
      exact .inl ⟨⟨rfl, id⟩, rfl⟩
    · simp only [run_eq_ok] at h
      obtain ⟨world, -, rfl⟩ := h
      exact .inl ⟨⟨rfl, id⟩, rfl⟩
  | purchaseShield | stakeForShield =>
    obtain ⟨rfl, -⟩ := commit_eq_ok.mp h
    exact .inl (purchaseShield_onlySells rfl).keepsQueue
  | unstakeFromShield poolID shield sender =>
    simp only [handleShieldMsg, unstakeFromShield, run_eq_ok] at h
    obtain ⟨sp, -, -, rfl⟩ := h
    exact .inl ⟨⟨rfl, id⟩, rfl⟩
  | submitProposal | deposit =>
    cases h
    exact .inl ⟨⟨rfl, id⟩, rfl⟩

/-- The reimbursement of a proposal is withdrawn by an address. -/
def WithdrawsRecord (k : ChainKeepers σ) (c : Chain σ) (e : Event σ) (c' : Chain σ) : Prop :=
  ∃ id sender s, e = .action (.tx (.withdrawReimbursement id sender)) ∧
    withdrawReimbursement k.toKeepers c.ctx c.shield id sender = .ok s ∧
    c' = { c with shield := s }

lemma handleMsgSubmitProposal_records {content : Content} {initialDeposit : Coins}
    {proposer : AccAddress}
    (h : handleMsgSubmitProposal k c content initialDeposit proposer = .ok c') :
    KeepsRecords c.shield c'.shield := by
  simp only [handleMsgSubmitProposal, run_eq_ok] at h
  obtain ⟨-, ⟨⟩, -, c1, hopen, hupdate⟩ := h
  have hopened : KeepsRecords c.shield c1.shield := by
    rw [(openProposal_onlyOpened hopen).shield]
    exact ⟨rfl, id⟩
  unfold updateAfterSubmitProposal at hupdate
  split at hupdate
  · simp only [run_eq_ok] at hupdate
    obtain ⟨s, hsecure, rfl⟩ := hupdate
    exact hopened.trans (secureCollaterals_keepsRecords hsecure)
  · cases hupdate
    exact hopened

lemma deliverTx_records {msg : Msg} (h : deliverTx k c msg = .ok c') :
    KeepsRecords c.shield c'.shield ∨ WithdrawsRecord k c (.action (.tx msg)) c' := by
  simp only [deliverTx, bind_eq_ok] at h
  obtain ⟨⟨⟩, -, h⟩ := h
  unfold handleMsg at h
  split at h
  · exact .inl (handleMsgSubmitProposal_records h)
  · simp only [handleMsgDeposit, run_eq_ok] at h
    obtain ⟨gw, -, rfl⟩ := h
    exact .inl ⟨rfl, id⟩
  · simp only [run_eq_ok] at h
    obtain ⟨s, hshield, rfl⟩ := h
    rcases handleShieldMsg_records hshield with hkeeps | ⟨_, _, _, _, -, -, -, rfl⟩ |
      ⟨id, sender, rfl, hwithdraw⟩
    · exact .inl hkeeps.toKeepsRecords
    · exact .inl ⟨rfl, id⟩
    · exact .inr ⟨id, sender, s, rfl, hwithdraw, rfl⟩

lemma exec_records {e : Event σ} (he : ∀ t, e ≠ .govEndBlocker t) (h : exec k c e = .ok c') :
    KeepsRecords c.shield c'.shield ∨ WithdrawsRecord k c e c' := by
  cases exec_executed h with
  | shieldEnd hend => exact .inl (endBlocker_keepsRecords hend)
  | govEnd => exact absurd rfl (he _)
  | tx htx => exact deliverTx_records htx
  | fund hfund =>
    simp only [fundShieldBlockRewards, run_eq_ok] at hfund
    obtain ⟨world, -, rewards, -, rfl⟩ := hfund
    exact .inl ⟨rfl, id⟩
  | _ => exact .inl ⟨rfl, id⟩

end Messages

section GovEndBlocker

variable {k : ChainKeepers σ} {t : Tallies} {ct ct' : TracedChain σ}

/-- What the handler of a claim stores. -/
def claimRecord (c : Chain σ) (claim : ShieldClaimProposal) : ProposalIDReimbursementPair :=
  ⟨claim.proposalID, ⟨claim.loss, claim.proposer,
    c.ctx.blockTime + c.shield.params.claimProposal.payoutPeriod⟩⟩

/-- What the end blocker of the gov module does to the records and to the queued withdrawals while
it adds `entries` to the trace: the handlers of the claims in `entries` are called. -/
structure RecordsWritten (ct ct' : TracedChain σ) (entries : Trace) : Prop where
  trace : ct'.2 = ct.2 ++ entries
  ctx : ct'.1.ctx = ct.1.ctx
  params : ct'.1.shield.params = ct.1.shield.params
  lists : ct.1.shield.cover.NoEmptyList → ct'.1.shield.cover.NoEmptyList
  payouts : ∀ rules : QueueRules, rules.pays → BookMoves ct.1.shield.params.pool ct.1.ctx rules
    ct.1.shield.collateral ct'.1.shield.collateral
  records : ∀ id,
    (ct'.1.shield.reimbursements.get id = ct.1.shield.reimbursements.get id ∧
      ∀ i claim, .executed i (.shieldClaim claim) ∈ entries → claim.proposalID ≠ id) ∨
    ∃ i claim, .executed i (.shieldClaim claim) ∈ entries ∧ claim.proposalID = id ∧
      ct'.1.shield.reimbursements.get id = some (claimRecord ct.1 claim)

namespace RecordsWritten

lemma of_keeps {entries : Trace} (htrace : ct'.2 = ct.2 ++ entries) (hctx : ct'.1.ctx = ct.1.ctx)
    (hparams : ct'.1.shield.params = ct.1.shield.params)
    (hkeeps : KeepsQueue ct.1.shield ct'.1.shield)
    (hnone : ∀ i claim, .executed i (.shieldClaim claim) ∉ entries) :
    RecordsWritten ct ct' entries where
  trace := htrace
  ctx := hctx
  params := hparams
  lists := hkeeps.lists
  payouts := fun _ _ => .single (.keep hkeeps.queue)
  records := by
    intro id
    refine .inl ⟨by rw [hkeeps.reimbursements], ?_⟩
    intro i claim hmem
    exact absurd hmem (hnone i claim)

lemma refl (ct : TracedChain σ) : RecordsWritten ct ct [] :=
  of_keeps (append_nil _).symm rfl rfl ⟨⟨rfl, id⟩, rfl⟩ (fun _ _ hmem => by cases hmem)

lemma trans {ct1 ct2 ct3 : TracedChain σ} {entries entries' : Trace}
    (h : RecordsWritten ct1 ct2 entries) (h' : RecordsWritten ct2 ct3 entries') :
    RecordsWritten ct1 ct3 (entries ++ entries') where
  trace := by rw [h'.trace, h.trace, append_assoc]
  ctx := h'.ctx.trans h.ctx
  params := h'.params.trans h.params
  lists := fun hlists => h'.lists (h.lists hlists)
  payouts := by
    intro rules hpays
    have hpayouts := h'.payouts rules hpays
    rw [h.ctx, h.params] at hpayouts
    exact (h.payouts rules hpays).trans hpayouts
  records := by
    intro id
    rcases h'.records id with ⟨hsame', hnone'⟩ | ⟨i, claim, hmem, hid, hstored⟩
    · rcases h.records id with ⟨hsame, hnone⟩ | ⟨i, claim, hmem, hid, hstored⟩
      · refine .inl ⟨hsame'.trans hsame, ?_⟩
        intro i claim hmem
        rcases mem_append.mp hmem with hmem | hmem
        · exact hnone i claim hmem
        · exact hnone' i claim hmem
      · exact .inr ⟨i, claim, mem_append_left _ hmem, hid, hsame'.trans hstored⟩
    · refine .inr ⟨i, claim, mem_append_right _ hmem, hid, hstored.trans ?_⟩
      rw [claimRecord, claimRecord, h.ctx, h.params]

end RecordsWritten

lemma entry_ne_executed (t : Tallies) (p : Proposal) (i : Nat) (content : Content) :
    .executed i content ≠ t.entry p := by
  unfold Tallies.entry
  split <;> simp

lemma executed_notMem_settlement (t : Tallies) (p : Proposal) (kind : DepositKind)
    (ds : List Deposit) (i : Nat) (content : Content) :
    .executed i content ∉ [t.entry p] ++ ds.map (GovEntry.moved kind) := by
  intro hmem
  rcases mem_append.mp hmem with hmem | hmem
  · exact entry_ne_executed t p i content (mem_singleton.mp hmem)
  · obtain ⟨d, -, hd⟩ := mem_map.mp hmem
    cases hd

/-- The handler of a passed proposal is called, and that of a claim stores its record. -/
lemma passProposalTraced_records {p : Proposal} (h : passProposalTraced k ct p = .ok ct') :
    RecordsWritten ct ct' [.executed p.proposalID p.content] := by
  simp only [passProposalTraced, passProposal, run_eq_ok] at h
  obtain ⟨c', ⟨result, hexecute, hfinish⟩, rfl⟩ := h
  unfold executeProposal at hexecute
  split at hexecute
  · rename_i claim hclaim
    split at hexecute
    · rename_i s hpaid
      cases hexecute
      cases hfinish
      obtain ⟨b, world, rfl⟩ := createReimbursement_cases hpaid
      refine ⟨rfl, rfl, rfl, id, fun _ hpays => createReimbursement_bookMoves hpays hpaid, ?_⟩
      intro id
      have hget : (ct.1.shield.reimbursements.set (claimRecord ct.1 claim)).get id =
          if id = claim.proposalID then some (claimRecord ct.1 claim)
          else ct.1.shield.reimbursements.get id := Table.get_set _ _ _
      rw [hclaim]
      by_cases hid : id = claim.proposalID
      · rw [if_pos hid] at hget
        exact .inr ⟨p.proposalID, claim, mem_singleton_self _, hid.symm, hget⟩
      · rw [if_neg hid] at hget
        refine .inl ⟨hget, ?_⟩
        intro i claim' hmem
        cases mem_singleton.mp hmem
        exact Ne.symm hid
    · rename_i e herror
      exact absurd herror (createReimbursement_ne_error e)
    · cases hexecute
  · rename_i hother
    have hnone : ∀ i claim, .executed i (.shieldClaim claim) ∉
        [GovEntry.executed p.proposalID p.content] := by
      intro i claim hmem
      have hcontent := (GovEntry.executed.inj (mem_singleton.mp hmem)).2
      exact hother claim hcontent.symm
    cases hexecute
    cases hrun : k.executeContent ct.1.shield.world p.content with
    | none | some =>
      rw [hrun] at hfinish
      cases hfinish
      exact .of_keeps rfl rfl rfl ⟨⟨rfl, id⟩, rfl⟩ hnone

lemma processActiveTraced_records {id : Nat} (h : processActiveTraced k t ct id = .ok ct') :
    ∃ entries, RecordsWritten ct ct' entries := by
  obtain ⟨c, trace⟩ := ct
  simp only [processActiveTraced, bind_eq_ok] at h
  obtain ⟨p, -, h⟩ := h
  split at h
  · cases h
    refine ⟨[t.entry p], RecordsWritten.of_keeps rfl rfl rfl ⟨⟨rfl, fun hlists => hlists⟩, rfl⟩ ?_⟩
    intro i claim hmem
    exact entry_ne_executed t p i _ (mem_singleton.mp hmem)
  · simp only [run_eq_ok] at h
    obtain ⟨⟨g, world, trace'⟩, hdelete, rfl⟩ := h
    obtain ⟨-, rfl, -⟩ := closeDeposits_settled hdelete
    have hkeeps : KeepsQueue c.shield (updateVeto k.toKeepers (c.withGov (g, world)) p).shield := by
      unfold updateVeto
      split <;> exact ⟨⟨rfl, fun hlists => hlists⟩, rfl⟩
    refine ⟨_, RecordsWritten.of_keeps (append_assoc _ _ _)
      (updateVeto_frame k.toKeepers (c.withGov (g, world)) p).ctx ?_ hkeeps
      (fun i claim => executed_notMem_settlement t p .burned _ i _)⟩
    dsimp only [finishProposal]
    unfold updateVeto
    split <;> rfl
  · simp only [run_eq_ok] at h
    obtain ⟨⟨g, world, trace'⟩, hrefund, rfl⟩ := h
    obtain ⟨-, rfl, -⟩ := closeDeposits_settled hrefund
    have hkeeps : KeepsQueue c.shield
        (updateAbstain k.toKeepers (c.withGov (g, world)) p).shield := by
      unfold updateAbstain
      split
      · exact ⟨⟨rfl, fun hlists => hlists.rejectClaim _ _ _ _⟩, rfl⟩
      · exact ⟨⟨rfl, fun hlists => hlists⟩, rfl⟩
    refine ⟨_, RecordsWritten.of_keeps (append_assoc _ _ _)
      (updateAbstain_frame k.toKeepers (c.withGov (g, world)) p).ctx ?_ hkeeps
      (fun i claim => executed_notMem_settlement t p .refunded _ i _)⟩
    dsimp only [finishProposal]
    unfold updateAbstain
    split <;> rfl
  · simp only [bind_eq_ok] at h
    obtain ⟨⟨g, world, trace'⟩, hrefund, hpass⟩ := h
    obtain ⟨-, rfl, -⟩ := closeDeposits_settled hrefund
    have hsettled : RecordsWritten (c, trace) (c.withGov (g, world), trace ++ [t.entry p] ++
        (c.gov.depositsOf id).map (.moved .refunded)) ([t.entry p] ++
          (c.gov.depositsOf id).map (.moved .refunded)) :=
      RecordsWritten.of_keeps (append_assoc _ _ _) rfl rfl ⟨⟨rfl, fun hlists => hlists⟩, rfl⟩
        (fun i claim => executed_notMem_settlement t p .refunded _ i _)
    exact ⟨_, hsettled.trans (passProposalTraced_records hpass)⟩

lemma processSecurityTraced_records {id : Nat} (h : processSecurityTraced k t ct id = .ok ct') :
    ∃ entries, RecordsWritten ct ct' entries := by
  obtain ⟨c, trace⟩ := ct
  have hcounted : ∀ pass, RecordsWritten (c, trace) (c, trace ++ [.securityTally id pass])
      [.securityTally id pass] := by
    intro pass
    refine .of_keeps rfl rfl rfl ⟨⟨rfl, fun hlists => hlists⟩, rfl⟩ ?_
    intro i claim hmem
    cases mem_singleton.mp hmem
  simp only [processSecurityTraced, bind_eq_ok] at h
  obtain ⟨p, -, h⟩ := h
  split at h
  · split at h
    · split at h
      · exact ⟨_, (hcounted _).trans (passProposalTraced_records h)⟩
      · cases h
        have hround := hcounted (t.security id)
        exact ⟨_, hround.trace, hround.ctx, hround.params, hround.lists, hround.payouts,
          hround.records⟩
    · cases h
      exact ⟨_, hcounted _⟩
  · cases h
    exact ⟨[], RecordsWritten.refl _⟩

/-- The removal of proposals without enough deposit calls no handler. -/
lemma removeInactiveTraced_trace {ids : List Nat} {gwt gwt' : GovState × σ × Trace}
    (h : ids.foldlM (GovState.removeInactiveTraced k.toKeepers) gwt = .ok gwt') :
    ∃ entries, gwt'.2.2 = gwt.2.2 ++ entries ∧ ∀ i content, .executed i content ∉ entries := by
  refine foldlM_invariant (P := fun gwt1 : GovState × σ × Trace => ∃ entries,
    gwt1.2.2 = gwt.2.2 ++ entries ∧ ∀ i content, .executed i content ∉ entries) ?_
    ⟨[], (append_nil _).symm, fun _ _ hmem => by cases hmem⟩ h
  rintro id - ⟨g1, w1, t1⟩ ⟨g2, w2, t2⟩ ⟨entries, htrace, hnone⟩ hstep
  simp only [GovState.removeInactiveTraced, bind_eq_ok] at hstep
  obtain ⟨g, -, hrefund⟩ := hstep
  obtain ⟨-, rfl, -⟩ := closeDeposits_settled hrefund
  dsimp only at htrace
  refine ⟨entries ++ (g.depositsOf id).map (.moved .refunded), ?_, ?_⟩
  · rw [htrace, append_assoc]
  · intro i content hmem
    rcases mem_append.mp hmem with hmem | hmem
    · exact hnone i content hmem
    · obtain ⟨d, -, hd⟩ := mem_map.mp hmem
      cases hd

/-- The end blocker of the gov module stores the records of the claims whose handlers it calls. -/
lemma govEndBlockerTraced_records (h : govEndBlockerTraced k t ct = .ok ct') :
    ∃ entries, RecordsWritten ct ct' entries := by
  obtain ⟨c, trace⟩ := ct
  simp only [govEndBlockerTraced, bind_eq_ok] at h
  obtain ⟨gwt, hremove, ct1, hactive, hsecurity⟩ := h
  have hremoved : ∃ entries,
      RecordsWritten (c, trace) (.withGov (c, trace) gwt) entries := by
    obtain ⟨entries, htrace, hnone⟩ := removeInactiveTraced_trace hremove
    exact ⟨entries, RecordsWritten.of_keeps htrace rfl rfl ⟨⟨rfl, fun hlists => hlists⟩, rfl⟩
      (fun i claim => hnone i _)⟩
  have hcounted : ∃ entries, RecordsWritten (c, trace) ct1 entries := by
    refine foldlM_invariant (P := fun ct2 => ∃ entries, RecordsWritten (c, trace) ct2 entries)
      ?_ hremoved hactive
    rintro id - ct2 ct3 ⟨entries, hwritten⟩ hstep
    obtain ⟨entries', hwritten'⟩ := processActiveTraced_records hstep
    exact ⟨_, hwritten.trans hwritten'⟩
  refine foldlM_invariant (P := fun ct2 => ∃ entries, RecordsWritten (c, trace) ct2 entries)
    ?_ hcounted hsecurity
  rintro id - ct2 ct3 ⟨entries, hwritten⟩ hstep
  obtain ⟨entries', hwritten'⟩ := processSecurityTraced_records hstep
  exact ⟨_, hwritten.trans hwritten'⟩

end GovEndBlocker

lemma exec_noEmptyList {k : ChainKeepers σ} {c c' : Chain σ} {e : Event σ}
    (hs : c.shield.cover.NoEmptyList) (h : exec k c e = .ok c') : c'.shield.cover.NoEmptyList := by
  by_cases he : ∃ t, e = .govEndBlocker t
  · obtain ⟨t, rfl⟩ := he
    obtain ⟨trace, htraced⟩ := exists_execTraced (c, []) h
    have hend : govEndBlockerTraced k t (c, []) = .ok (c', trace) := htraced
    obtain ⟨entries, hwritten⟩ := govEndBlockerTraced_records hend
    exact hwritten.lists hs
  · rcases exec_records (fun t ht => he ⟨t, ht⟩) h with hkeeps | ⟨id, sender, s, -, hwithdraw, rfl⟩
    · exact hkeeps.lists hs
    · obtain ⟨r, world, -, -, -, -, rfl⟩ := withdrawReimbursement_cases hwithdraw
      exact hs

end Shentu
