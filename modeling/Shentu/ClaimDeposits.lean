import Shentu.DepositsHeld

/-!
The deposit behind a claim. A submission is checked for an initial deposit that covers a part of
the loss. An ordinary account then pays it, and the record stays until the claim ends. A council
member skips the deposit period, and with it the payment.
-/

namespace Shentu

open Lib Table

variable {σ : Type} {k : ChainKeepers σ} {params : ClaimProposalParams} {d : Denom} {n id : Nat}
  {g g' : GovState} {p : Proposal} {c c' : Chain σ}

/-- A deposit is enough for a claim on a loss. -/
def DepositCovers (params : ClaimProposalParams) (d : Denom) (loss : Coins) (amount : Int) : Prop :=
  Dec.mul (Dec.ofInt (loss.amountOf d)) params.depositRate ≤ Dec.ofInt amount ∧
    params.minDeposit.amountOf d ≤ amount

instance (params : ClaimProposalParams) (d : Denom) (loss : Coins) (amount : Int) :
    Decidable (DepositCovers params d loss amount) :=
  inferInstanceAs (Decidable (_ ∧ _))

lemma DepositCovers.mono {loss : Coins} {a b : Int} (h : DepositCovers params d loss a)
    (hab : a ≤ b) : DepositCovers params d loss b :=
  ⟨h.1.trans (mul_le_mul_of_nonneg_right hab (by decide)), h.2.trans hab⟩

/-- The claims below an ID that are not from the council are covered by deposits until they end. -/
structure CoveredBelow (params : ClaimProposalParams) (d : Denom) (n : Nat) (g : GovState) :
    Prop where
  le_next : n ≤ g.nextProposalID
  valid : ∀ x ∈ g.deposits.rows, Coins.isValid x.amount
  covered : ∀ id p claim, id < n → g.getProposal id = some p → p.isFinal = false →
    p.content = .shieldClaim claim → p.isProposerCouncilMember = false →
    DepositCovers params d claim.loss (coinsOf (g.depositsOf id) d)

lemma inNextPeriod_council (ctx : Ctx) (votingPeriod : Duration) (p : Proposal) :
    (GovState.inNextPeriod ctx votingPeriod p).isProposerCouncilMember =
      p.isProposerCouncilMember := by
  unfold GovState.inNextPeriod
  split
  · rfl
  · split <;> rfl

namespace CoveredBelow

/-- The proposals live on, and the deposits of those that have not ended do not fall. -/
lemma change (h : CoveredBelow params d n g) (hlives : g.Later g')
    (hvalid : ∀ x ∈ g'.deposits.rows, Coins.isValid x.amount)
    (hdeposits : ∀ id q, g'.getProposal id = some q → q.isFinal = false →
      coinsOf (g.depositsOf id) d ≤ coinsOf (g'.depositsOf id) d) :
    CoveredBelow params d n g' := by
  refine ⟨h.le_next.trans hlives.1, hvalid, ?_⟩
  intro id q claim hid hq hlive hclaim hcouncil
  have hlived := hlives.2 id (hid.trans_le h.le_next)
  rw [hq] at hlived
  obtain ⟨p, hp, hlive', hlater⟩ := hlived.earlier hlive
  have hcontent : q.content = p.content := congrArg Prod.fst hlater.submission
  have hmember : q.isProposerCouncilMember = p.isProposerCouncilMember :=
    congrArg (fun t => t.2.2.1) hlater.submission
  exact (h.covered id p claim hid hp hlive' (hcontent ▸ hclaim)
    (hmember ▸ hcouncil)).mono (hdeposits id q hq hlive)

lemma close (h : CoveredBelow params d n g) (hlives : g.Later g') (hclose : Closing g g' id) :
    CoveredBelow params d n g' := by
  refine h.change hlives ?_ ?_
  · intro x hx
    rw [hclose.deposits] at hx
    exact h.valid x (mem_filter.mp hx).1
  · intro id' q hq hlive
    have hne : id' ≠ id := by
      rintro rfl
      rw [hclose.ended q hq] at hlive
      cases hlive
    have hof : g'.depositsOf id' = g.depositsOf id' := by
      rw [← depositsOf_settled g hne, GovState.depositsOf, hclose.deposits]
      rfl
    rw [hof]

end CoveredBelow

lemma GovMove.coveredBelow {rules : GovRules σ} {b b' : GovState × σ × Trace}
    (hmove : GovMove k rules b b') (h : CoveredBelow params d n b.1) :
    CoveredBelow params d n b'.1 := by
  have hlives := hmove.livesOn
  cases hmove with
  | other | count => exact h
  | submit | activate | nextRound | passEarly => exact h.change hlives h.valid fun _ _ _ _ => le_rfl
  | @deposit g w w' t p depositor amount hp hamount _ =>
    refine h.change hlives (upsertDeposit_valid h.valid hamount p.proposalID depositor) ?_
    intro id q _ _
    have hsum := coinsOf_upsertDeposit (g := g.setProposal { p with
      totalDeposit := p.totalDeposit.add amount }) h.valid hamount p.proposalID depositor id d
    have hnonneg := Coins.amountOf_nonneg_of_isValid hamount d
    have hof : (g.setProposal { p with
      totalDeposit := p.totalDeposit.add amount }).depositsOf id = g.depositsOf id := rfl
    rw [hof] at hsum
    dsimp only
    rw [hsum]
    split <;> omega
  | remove => exact h.close hlives (closing_removed _ _)
  | veto | reject => exact h.close hlives (closing_closedGov _ _ (.inr (.inr rfl)))
  | pass _ hstatus _ => exact h.close hlives (closing_closedGov _ _ (hstatus.imp_right .inl))

/-- No claim is submitted. -/
def noClaimRules : ChainRules σ := { ChainRules.any with loss := fun _ => False }

lemma ChainMove.openClaims_none (hmove : ChainMove k noClaimRules c c')
    (h : c.gov.openClaims.get id = none) : c'.gov.openClaims.get id = none := by
  have hended : ∀ i, (c.gov.openClaims.delete i).get id = none := by
    intro i
    by_cases hid : id = i
    · rw [hid, get_delete_self]
    · rw [get_delete_of_ne _ hid, h]
  cases hmove with
  | shield | tick => exact h
  | gov _ hclaims _ =>
    simp only [Chain.withGov, hclaims]
    exact h
  | submit _ _ _ _ _ _ _ _ hloss => exact hloss.elim
  | @nextRound g p _ hp hclaims =>
    have hne : id ≠ p.proposalID := by
      rintro rfl
      cases h.symm.trans hp
    rw [hclaims, get_set_of_ne _ (by rwa [inNextPeriod_proposalID]), h]
  | veto _ _ _ hclaims | reject _ _ _ hclaims _ | pay _ _ _ _ hclaims _ =>
    rw [hclaims]
    exact hended _

lemma exec_openClaims_none {e : Event σ} (hsound : ChainSound c)
    (he : SubmittedLoss k (fun _ => False) e) (hexec : exec k c e = .ok c')
    (h : c.gov.openClaims.get id = none) : c'.gov.openClaims.get id = none := by
  have hfree : PaymentsFree (noClaimRules (σ := σ)) :=
    ⟨fun _ => trivial, fun _ => trivial, fun _ _ => rfl⟩
  have hstep : ChainStep k noClaimRules c c' := exec_step (GovKeeps.const k) (fun _ => trivial)
    hsound.rate hsound.gov hsound.voted (hfree.eventAllowed he (fun _ _ _ _ _ _ => trivial)
      (fun _ _ _ _ _ _ _ _ _ _ => trivial)) hexec
  exact reflTransGen_invariant (P := fun c : Chain σ => c.gov.openClaims.get id = none)
    (fun _ _ hc hmove => hmove.openClaims_none hc) hstep.moves h

lemma openProposal_deposits {initialDeposit : Coins}
    (h : openProposal k c p initialDeposit = .ok c') :
    (p.isProposerCouncilMember = true ∧ c'.gov = c.gov.activateVotingPeriod c.ctx p) ∨
      ∀ id, c'.gov.depositsOf id =
        (c.gov.upsertDeposit p.proposalID p.proposerAddress initialDeposit).depositsOf id := by
  unfold openProposal at h
  split at h
  · rename_i hmember
    cases h
    exact .inl ⟨hmember, rfl⟩
  · simp only [GovState.addDeposit, run_eq_ok] at h
    obtain ⟨gw, ⟨q, -, _, -, world, -, rfl⟩, rfl⟩ := h
    refine .inr fun id => ?_
    dsimp only [Chain.withGov]
    split <;> rfl

/-- The claim of an ordinary account is covered by the deposit that it is submitted with. -/
lemma submitted_covered {claim claim' : ShieldClaimProposal} {initialDeposit : Coins}
    {proposer : AccAddress} (hsound : GovSound c.gov)
    (hdeposits : ∀ x ∈ c.gov.deposits.rows, Coins.isValid x.amount)
    (htx : deliverTx k c (.submitProposal (.shieldClaim claim) initialDeposit proposer) = .ok c')
    (hnew : c.gov.getProposal id = none) (hp : c'.gov.getProposal id = some p)
    (hclaim : p.content = .shieldClaim claim') (hcouncil : p.isProposerCouncilMember = false) :
    DepositCovers c.shield.params.claimProposal k.bondDenom claim'.loss
      (coinsOf (c'.gov.depositsOf id) k.bondDenom) := by
  simp only [deliverTx, Msg.validateBasic, handleMsg, handleMsgSubmitProposal, run_eq_ok,
    not_not] at htx
  obtain ⟨hvalid, -, ⟨⟩, hcheck, c1, hopen, hupdate⟩ := htx
  obtain ⟨s, -, rfl⟩ := updateAfterSubmitClaim_cases hupdate
  simp only [validateProposalByType, run_eq_ok, not_or, not_lt] at hcheck
  obtain ⟨⟨hrate, hmin⟩, -⟩ := hcheck
  have hcovers : DepositCovers c.shield.params.claimProposal k.bondDenom claim.loss
      (initialDeposit.amountOf k.bondDenom) := ⟨hrate, le_of_mul_le_mul_right hmin (by decide)⟩
  let p0 := (c.gov.newProposal c.ctx (.shieldClaim claim) proposer
    (k.isCouncilMember c.shield.world proposer)).1
  let g0 := (c.gov.newProposal c.ctx (.shieldClaim claim) proposer
    (k.isCouncilMember c.shield.world proposer)).2
  have hget0 : g0.getProposal p0.proposalID = some p0 := get_set_self _ _
  have hsound0 : GovSound g0 := hsound.newProposal _ _ _ _
  have hk : GovKeeps k (ChainRules.any (σ := σ)).measure := GovKeeps.const k
  obtain ⟨g, world, p', hc1, -, hopened⟩ :=
    openProposal_cases (c := { c with gov := g0 }) hk hsound0 hget0 rfl hopen
  have hid : id = c.gov.nextProposalID := by
    by_contra hne
    have hkept : c1.gov.getProposal id = c.gov.getProposal id := by
      rw [hc1]
      exact (hopened.only id hne).trans (get_set_of_ne _ hne)
    cases (hnew.symm.trans hkept.symm).trans hp
  subst hid
  have hsame : p' = p := by
    have hget : c1.gov.getProposal c.gov.nextProposalID = some p' := by
      rw [hc1]
      exact hopened.get
    exact Option.some.inj (hget.symm.trans hp)
  subst hsame
  cases hopened.content.symm.trans hclaim
  rcases openProposal_deposits hopen with ⟨hmember, hgov⟩ | hof
  · rw [hgov] at hp
    cases (activateVotingPeriod_get g0 c.ctx p0).symm.trans hp
    rw [inNextPeriod_council, hmember] at hcouncil
    cases hcouncil
  · refine hcovers.mono ?_
    rw [hof, coinsOf_upsertDeposit (g := g0) hdeposits hvalid,
      if_pos (show p0.proposalID = c.gov.nextProposalID from rfl)]
    refine le_add_of_nonneg_left (List.sum_nonneg (List.forall_mem_map.mpr ?_))
    intro x hx
    exact Coins.amountOf_nonneg_of_isValid (hdeposits x (List.mem_filter.mp hx).1) _

/-- Every event keeps the claims covered. -/
lemma exec_coveredBelow {e : Event σ} (hsound : ChainSound c) (hexec : exec k c e = .ok c')
    (h : CoveredBelow params k.bondDenom c.gov.nextProposalID c.gov)
    (hparams : c.shield.params.claimProposal = params) :
    CoveredBelow params k.bondDenom c'.gov.nextProposalID c'.gov := by
  obtain ⟨t, htraced⟩ := exists_execTraced (c, []) hexec
  have hmoves : GovMoves k ⟨fun _ _ => True, fun _ _ => True⟩ (c.gov, c.shield.world, [])
      (c'.gov, c'.shield.world, t) :=
    execTraced_moves ⟨fun _ => trivial, fun _ => trivial, fun _ => trivial, fun _ => trivial⟩
      hsound.gov ⟨fun _ _ _ => trivial, fun _ _ _ _ _ _ _ _ _ => trivial⟩ htraced
  have hbelow := reflTransGen_invariant
    (P := fun b : GovState × σ × Trace => CoveredBelow params k.bondDenom c.gov.nextProposalID b.1)
    (fun _ _ hb hmove => hmove.coveredBelow hb) hmoves h
  refine ⟨le_refl _, hbelow.valid, ?_⟩
  intro id p claim _ hp hlive hclaim hcouncil
  by_cases hold : id < c.gov.nextProposalID
  · exact hbelow.covered id p claim hold hp hlive hclaim hcouncil
  have hnew : c.gov.getProposal id = none := by
    cases hq : c.gov.getProposal id with
    | none => rfl
    | some q => exact absurd ((hsound.gov id).fresh q hq) hold
  have hnone : c.gov.openClaims.get id = none := by
    rw [GovState.openClaims_get, hnew]
    rfl
  have hcontent : p.content.isShieldClaim = true := isShieldClaim_of_eq hclaim
  have hopen : p.isOpen = true := by
    have hvoted := (hsound.exec hexec).voted id p hp hcontent
    cases hstatus : p.status <;> simp_all [Proposal.isOpen, Proposal.isFinal]
  have hnow : c'.gov.openClaims.get id = some p := openClaims_get_of_open hp hopen hcontent
  by_cases hother : SubmittedLoss k (fun _ => False) e
  · cases (exec_openClaims_none hsound hother hexec hnone).symm.trans hnow
  unfold SubmittedLoss at hother
  split at hother
  · cases exec_executed hexec with
    | tx htx => exact hparams ▸ submitted_covered hsound.gov h.valid htx hnew hp hclaim hcouncil
    | _ => cases hnew.symm.trans hp
  · exact absurd trivial hother

/-- In every reachable state the deposit records of a claim in a voting period cover it, unless a
council member submitted it. -/
theorem claimsCovered_of_run {params : ShieldParams} (hparams : params.validate)
    {govParams : GovParams} {world : σ} {ctx : Ctx} {es : List (Event σ)}
    (hrun : run k (Chain.empty params govParams world ctx) es = .ok c) {claim : ShieldClaimProposal}
    (hp : c.gov.getProposal id = some p) (hopen : p.isOpen = true)
    (hclaim : p.content = .shieldClaim claim) (hcouncil : p.isProposerCouncilMember = false) :
    DepositCovers params.claimProposal k.bondDenom claim.loss
      (coinsOf (c.gov.depositsOf id) k.bondDenom) := by
  have hkept := foldlM_invariant (P := fun c : Chain σ => ChainSound c ∧
    c.shield.params.claimProposal = params.claimProposal ∧
    CoveredBelow params.claimProposal k.bondDenom c.gov.nextProposalID c.gov) ?_
    ⟨ChainSound.empty hparams govParams world ctx, rfl, le_refl _, by simp [Chain.empty,
      GovState.empty], fun _ _ _ _ hp => by cases hp⟩ hrun
  · have hlive : p.isFinal = false := by
      rcases (isOpen_iff p).mp hopen with hstatus | hstatus <;> simp [Proposal.isFinal, hstatus]
    exact hkept.2.2.covered id p claim ((hkept.1.gov id).fresh p hp) hp hlive hclaim hcouncil
  · rintro e - c₁ c₂ ⟨hsound, hsame, hcovered⟩ hexec
    exact ⟨hsound.exec hexec, ((exec_step_any hsound hexec).moves.params.claimProposal).trans hsame,
      exec_coveredBelow hsound hexec hcovered hsame⟩

/-- A claim needs a tenth of the loss and at least 5. -/
def depositParams : ShieldParams :=
  { shortPeriodParams with
    claimProposal := { payoutPeriod := 100, minDeposit := uctk 5, depositRate := Dec.one / 10 } }

/-- The chain before its first block, under these parameters. -/
def coveredStart : Chain Ledger :=
  Chain.empty depositParams shortVotingParams Ledger.funded ⟨1000, 200⟩

/-- Address 5 claims 20 and offers a deposit of 6. -/
def coveredEvents : List (Event Ledger) :=
  (txBlock 1 (coverMsgs ++ [.submitProposal (.shieldClaim ⟨0, 1, 2, uctk 20, 5⟩) (uctk 6) 5])
    .reject).events

theorem claimsCovered_ordinary :
    ∃ c p, run ledgerChainKeepers coveredStart coveredEvents = .ok c ∧
      c.gov.getProposal 1 = some p ∧ p.isOpen = true ∧
      DepositCovers depositParams.claimProposal ledgerChainKeepers.bondDenom (uctk 20)
        (coinsOf (c.gov.depositsOf 1) ledgerChainKeepers.bondDenom) := by
  obtain ⟨c, hc, p, hp, hopen, hclaim, hcouncil⟩ : ∃ c, run ledgerChainKeepers coveredStart
        coveredEvents = .ok c ∧ ∃ p, c.gov.getProposal 1 = some p ∧ p.isOpen = true ∧
      p.content = .shieldClaim ⟨1, 1, 2, uctk 20, 5⟩ ∧ p.isProposerCouncilMember = false := by
    decide +kernel
  have hvalid : depositParams.validate := by decide +kernel
  have hstart := hc
  have hcovered := claimsCovered_of_run hvalid hstart hp hopen hclaim hcouncil
  exact ⟨c, p, hc, hp, hopen, hcovered⟩

/-- The same keepers where every account is a certifier. -/
def councilKeepers : ChainKeepers Ledger :=
  { ledgerChainKeepers with isCouncilMember := fun _ _ => true }

/-- A council member submits the same claim: it is voted on without any deposit. -/
theorem councilClaim_not_covered :
    ∃ c p, run councilKeepers coveredStart coveredEvents = .ok c ∧
      c.gov.getProposal 1 = some p ∧ p.isOpen = true ∧
      p.content = .shieldClaim ⟨1, 1, 2, uctk 20, 5⟩ ∧ c.gov.depositsOf 1 = [] ∧
      ¬ DepositCovers depositParams.claimProposal councilKeepers.bondDenom (uctk 20)
        (coinsOf (c.gov.depositsOf 1) councilKeepers.bondDenom) := by
  simp only [exists_and_left]
  decide +kernel

end Shentu
