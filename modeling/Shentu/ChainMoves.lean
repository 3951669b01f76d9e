import Shentu.Chain
import Shentu.Shield.ClaimRestore
import Shentu.Gov.Claims
import Shentu.Shield.Moves

/-!
What an event of the chain can do, as a sequence of small moves: the moves of the
shield module, the submission of a claim, its next round of voting and its end by
veto, rejection or payout. Everything else that the gov module does leaves the
open claims as they are.
-/

namespace Shentu

open Lib Table GovState

variable {σ : Type}

/-- What is allowed in a sequence of moves of the chain: besides the rules of the shield
module the losses that are claimed, the claims that are restored, and a measure of the rest
of the world that nothing outside the shield module changes. -/
structure ChainRules (σ : Type) extends MoveRules where
  loss : Int → Prop
  restored : CoverBook → Proposal → ShieldClaimProposal → Prop
  measure : σ → Int

/-- Everything is allowed. -/
def ChainRules.any : ChainRules σ :=
  { MoveRules.any with loss := fun _ => True, restored := fun _ _ _ => True, measure := fun _ => 0 }

/-- One small change of the chain. -/
inductive ChainMove (k : ChainKeepers σ) (rules : ChainRules σ) : Chain σ → Chain σ → Prop
  | shield {c : Chain σ} {s : ShieldState σ} :
      ShieldMove k.toKeepers rules.toMoveRules c.ctx c.shield s →
      ChainMove k rules c { c with shield := s }
  | tick {c : Chain σ} (elapsed : Nat) : ChainMove k rules c (beginBlock c elapsed)
  | gov {c : Chain σ} {g : GovState} {world : σ} :
      GovFrame c.gov g → g.openClaims = c.gov.openClaims →
      rules.measure world = rules.measure c.shield.world →
      ChainMove k rules c (c.withGov (g, world))
  | submit {c : Chain σ} {g : GovState} {p : Proposal} {claim : ShieldClaimProposal}
      {l : PurchaseList} {e : Purchase} {s : ShieldState σ} :
      GovFrame c.gov g → p.proposalID = c.gov.nextProposalID →
      p.proposalID < g.nextProposalID → c.gov.openClaims.get p.proposalID = none →
      g.openClaims = c.gov.openClaims.set p → p.content = .shieldClaim claim →
      claim.proposalID = p.proposalID → p.submitTime = c.ctx.blockTime →
      rules.loss (claim.loss.amountOf k.bondDenom) →
      c.shield.cover.getPurchaseList claim.poolID claim.proposer = some l →
      l.getPurchase claim.purchaseID = some e → c.ctx.blockTime ≤ e.protectionEndTime →
      secureCollaterals k.toKeepers c.ctx c.shield claim.poolID claim.proposer claim.purchaseID
        claim.loss (c.gov.params.votingPeriod * 2) = .ok s →
      ChainMove k rules c { c with gov := g, shield := s }
  | nextRound {c : Chain σ} {g : GovState} {p : Proposal} :
      GovFrame c.gov g → c.gov.openClaims.get p.proposalID = some p →
      g.openClaims =
        c.gov.openClaims.set (GovState.inNextPeriod c.ctx c.gov.params.votingPeriod p) →
      ChainMove k rules c { c with gov := g }
  | veto {c : Chain σ} {g : GovState} {p : Proposal} {claim : ShieldClaimProposal} :
      GovFrame c.gov g → c.gov.openClaims.get p.proposalID = some p →
      p.content = .shieldClaim claim → g.openClaims = c.gov.openClaims.delete p.proposalID →
      ChainMove k rules c { c with
        gov := g
        shield := { c.shield with
          cover := c.shield.cover.claimEnd (claim.loss.amountOf k.bondDenom) } }
  | reject {c : Chain σ} {g : GovState} {p : Proposal} {claim : ShieldClaimProposal} :
      GovFrame c.gov g → c.gov.openClaims.get p.proposalID = some p →
      p.content = .shieldClaim claim → g.openClaims = c.gov.openClaims.delete p.proposalID →
      rules.restored c.shield.cover p claim →
      ChainMove k rules c { c with
        gov := g
        shield := { c.shield with
          cover := c.shield.cover.rejectClaim claim.poolID p.proposerAddress claim.purchaseID
            (claim.loss.amountOf k.bondDenom) } }
  | pay {c : Chain σ} {g : GovState} {p : Proposal} {claim : ShieldClaimProposal}
      {s : ShieldState σ} :
      GovFrame c.gov g → c.gov.openClaims.get p.proposalID = some p →
      p.content = .shieldClaim claim → claim.proposalID = p.proposalID →
      g.openClaims = c.gov.openClaims.delete p.proposalID →
      createReimbursement k.toKeepers c.ctx c.shield claim.proposalID claim.loss claim.proposer =
        .ok s →
      ChainMove k rules c { c with gov := g, shield := s }

/-- Any number of small changes. -/
abbrev ChainMoves (k : ChainKeepers σ) (rules : ChainRules σ) : Chain σ → Chain σ → Prop :=
  Relation.ReflTransGen (ChainMove k rules)

variable {k : ChainKeepers σ} {rules : ChainRules σ}

lemma ShieldMoves.chainMoves {c : Chain σ}
    {s : ShieldState σ} (h : ShieldMoves k.toKeepers rules.toMoveRules c.ctx c.shield s) :
    ChainMoves k rules c { c with shield := s } := by
  induction h with
  | refl => exact .refl
  | @tail s1 s2 _ hmove ih => exact ih.tail (.shield (c := { c with shield := s1 }) hmove)

/-- What the processing of one proposal keeps besides the moves it makes. -/
structure GovStep (k : ChainKeepers σ) (rules : ChainRules σ) (c c' : Chain σ) : Prop where
  moves : ChainMoves k rules c c'
  sound : GovSound c'.gov
  voted : ClaimsVoted c.gov → ClaimsVoted c'.gov
  ctx : c'.ctx = c.ctx
  listing : SameListing c.shield.cover c'.shield.cover

lemma GovStep.refl {c : Chain σ} (hsound : GovSound c.gov) : GovStep k rules c c :=
  ⟨.refl, hsound, id, rfl, SameListing.refl _⟩

lemma GovStep.trans {c1 c2 c3 : Chain σ}
    (h : GovStep k rules c1 c2) (h' : GovStep k rules c2 c3) : GovStep k rules c1 c3 :=
  ⟨h.moves.trans h'.moves, h'.sound, fun hvoted => h'.voted (h.voted hvoted),
    h'.ctx.trans h.ctx, h.listing.trans h'.listing⟩

section Process

variable {k : ChainKeepers σ} {rules : ChainRules σ} {t : Tallies} {c c' : Chain σ} {id : Nat}
  {p : Proposal}

lemma isShieldClaim_cases (content : Content) :
    content.isShieldClaim = false ∨ ∃ claim, content = .shieldClaim claim := by
  cases content with
  | shieldClaim claim => exact .inr ⟨claim, rfl⟩
  | certifierUpdate | softwareUpgrade | other => exact .inl rfl

/-- The next round of voting. -/
lemma activate_step (hsound : GovSound c.gov) (hp : c.gov.getProposal p.proposalID = some p)
    (hstatus : p.status = .certifierVotingPeriod) :
    GovStep k rules c { c with gov := c.gov.activateVotingPeriod c.ctx p } ∧
      OnlyProposal p.proposalID c.gov (c.gov.activateVotingPeriod c.ctx p) := by
  have hopen : p.isOpen = true := by
    simp [Proposal.isOpen, hstatus]
  refine ⟨⟨.single ?_,
    hsound.activateVotingPeriod c.ctx hp (.inr hstatus), ?_, rfl, SameListing.refl _⟩, ?_⟩
  · rcases isShieldClaim_cases p.content with hother | ⟨claim, hclaim⟩
    · exact @ChainMove.gov _ k rules c _ c.shield.world ⟨rfl, le_refl _⟩
        (openClaims_activate_other c.ctx hp hother) rfl
    · have hcontent : p.content.isShieldClaim = true := by
        rw [hclaim]
        rfl
      exact .nextRound ⟨rfl, le_refl _⟩ (openClaims_get_of_open hp hopen hcontent)
        (openClaims_activate_claim c.ctx hcontent)
  · intro hvoted
    refine hvoted.set (fun _ hdeposit => ?_) rfl
    have hnext := inNextPeriod_isOpen c.ctx c.gov.params.votingPeriod p
    simp [Proposal.isOpen, hdeposit] at hnext
  · intro id' hne
    refine get_set_of_ne _ ?_
    rw [inNextPeriod_proposalID]
    exact hne

/-- The gov store after the end of a proposal. -/
abbrev closedGov (g : GovState) (p : Proposal) (status : ProposalStatus) : GovState :=
  { g with
    proposals := g.proposals.set { p with status := status }
    activeProposalQueue := g.activeProposalQueue.delete (queueKey p.votingEndTime p.proposalID) }

variable {status : ProposalStatus}

lemma openClaims_closedGov_claim (g : GovState)
    (hclosed : ({ p with status := status } : Proposal).isOpen = false) :
    (closedGov g p status).openClaims = g.openClaims.delete p.proposalID := by
  refine filter_set_of_neg _ ?_
  rw [Proposal.isOpenClaim, hclosed, Bool.false_and]

lemma openClaims_closedGov_other {g : GovState} (hp : g.getProposal p.proposalID = some p)
    (hcontent : p.content.isShieldClaim = false) (status : ProposalStatus) :
    (closedGov g p status).openClaims = g.openClaims := by
  refine openClaims_set_other (openClaims_get_of_content hp hcontent) ?_
  rw [Proposal.isOpenClaim, hcontent, Bool.and_false]

lemma onlyProposal_closedGov (g : GovState) (p : Proposal) (status : ProposalStatus) :
    OnlyProposal p.proposalID g (closedGov g p status) :=
  fun _ hne => get_set_of_ne _ hne

lemma close_step (hsound : GovSound c.gov) (hp : c.gov.getProposal p.proposalID = some p)
    (hopen : p.isOpen = true)
    (hclosed : ({ p with status := status } : Proposal).isOpen = false)
    (hfinal : status ≠ .depositPeriod) {s : ShieldState σ}
    (hlisting : SameListing c.shield.cover s.cover)
    (hmove : ChainMove k rules c { c with gov := closedGov c.gov p status, shield := s }) :
    GovStep k rules c { c with gov := closedGov c.gov p status, shield := s } :=
  ⟨.single hmove, hsound.close hp hopen hclosed hfinal,
    fun hvoted => hvoted.set (fun _ => hfinal) rfl, rfl, hlisting⟩

lemma withGov_step {deposits : Table Deposit.key} {world : σ} (hsound : GovSound c.gov)
    (hworld : rules.measure world = rules.measure c.shield.world) :
    GovStep k rules c (c.withGov ({ c.gov with deposits := deposits }, world)) :=
  ⟨.single (.gov ⟨rfl, le_refl _⟩ rfl hworld),
    hsound.setDeposits deposits, id, rfl, SameListing.refl _⟩

lemma createReimbursement_sameListing {ctx : Ctx} {s s' : ShieldState σ} {proposalID : Nat}
    {amount : Coins} {beneficiary : AccAddress}
    (h : createReimbursement k.toKeepers ctx s proposalID amount beneficiary = .ok s') :
    SameListing s.cover s'.cover := by
  obtain ⟨b, world, rfl⟩ := createReimbursement_cases h
  exact ⟨fun _ => rfl, fun _ _ _ => rfl⟩

/-- The end of a passed proposal. The handler of a claim succeeds or panics. -/
lemma passProposal_step (hk : GovKeeps k rules.measure) (hsound : GovSound c.gov)
    (hp : c.gov.getProposal p.proposalID = some p) (hopen : p.isOpen = true)
    (h : passProposal k c p = .ok c') :
    GovStep k rules c c' ∧ OnlyProposal p.proposalID c.gov c'.gov := by
  obtain ⟨result, hexecute, h⟩ := bind_eq_ok.mp h
  unfold executeProposal at hexecute
  split at hexecute
  · rename_i claim hclaim
    have hcontent : p.content.isShieldClaim = true := by
      rw [hclaim]
      rfl
    split at hexecute
    · rename_i s hpaid
      cases hexecute
      cases h
      refine ⟨close_step hsound hp hopen rfl (by decide) (createReimbursement_sameListing hpaid) ?_,
        onlyProposal_closedGov _ _ _⟩
      exact .pay ⟨rfl, le_refl _⟩ (openClaims_get_of_open hp hopen hcontent) hclaim
        ((hsound _).named p claim hp hclaim) (openClaims_closedGov_claim c.gov rfl) hpaid
    · rename_i e herror
      exact absurd herror (createReimbursement_ne_error e)
    · cases hexecute
  · rename_i content hother
    have hcontent : p.content.isShieldClaim = false :=
      (isShieldClaim_cases _).resolve_right fun ⟨claim, hclaim⟩ => hother claim hclaim
    cases hexecute
    cases hrun : k.executeContent c.shield.world p.content with
    | none =>
      rw [hrun] at h
      cases h
      refine ⟨close_step hsound hp hopen rfl (by decide) (.refl _) ?_, onlyProposal_closedGov _ _ _⟩
      exact @ChainMove.gov _ k rules c _ c.shield.world ⟨rfl, le_refl _⟩
        (openClaims_closedGov_other hp hcontent _) rfl
    | some world =>
      rw [hrun] at h
      cases h
      refine ⟨close_step hsound hp hopen rfl (by decide) (.refl _) ?_, onlyProposal_closedGov _ _ _⟩
      exact @ChainMove.gov _ k rules c _ world ⟨rfl, le_refl _⟩
        (openClaims_closedGov_other hp hcontent _) (hk.execute hrun)

lemma verdict_nextRound (h : t.verdict p = .nextRound) : p.status = .certifierVotingPeriod := by
  by_contra hstatus
  unfold Tallies.verdict at h
  rw [if_neg hstatus] at h
  split at h <;> cases h

lemma isShieldClaim_of_eq {claim : ShieldClaimProposal} (h : p.content = .shieldClaim claim) :
    p.content.isShieldClaim = true := by
  rw [h]
  rfl

lemma closeOther_step (hsound : GovSound c.gov) (hp : c.gov.getProposal p.proposalID = some p)
    (hopen : p.isOpen = true)
    (hclosed : ({ p with status := status } : Proposal).isOpen = false)
    (hfinal : status ≠ .depositPeriod) (hcontent : p.content.isShieldClaim = false) :
    GovStep k rules c { c with gov := closedGov c.gov p status } :=
  close_step hsound hp hopen hclosed hfinal (.refl _)
    (@ChainMove.gov _ k rules c _ c.shield.world ⟨rfl, le_refl _⟩
      (openClaims_closedGov_other hp hcontent status) rfl)

lemma updateVeto_step (hsound : GovSound c.gov) (hp : c.gov.getProposal p.proposalID = some p)
    (hopen : p.isOpen = true) :
    GovStep k rules c (finishProposal (updateVeto k.toKeepers c p) p .rejected) ∧
      OnlyProposal p.proposalID c.gov
        (finishProposal (updateVeto k.toKeepers c p) p .rejected).gov := by
  unfold updateVeto
  split
  · rename_i claim hclaim
    refine ⟨close_step hsound hp hopen rfl (by decide) ⟨fun _ => rfl, fun _ _ _ => rfl⟩ ?_,
      onlyProposal_closedGov _ _ _⟩
    exact .veto ⟨rfl, le_refl _⟩
      (openClaims_get_of_open hp hopen (isShieldClaim_of_eq hclaim)) hclaim
      (openClaims_closedGov_claim c.gov rfl)
  · rename_i hother
    exact ⟨closeOther_step hsound hp hopen rfl (by decide) ((isShieldClaim_cases _).resolve_right
      fun ⟨claim, hclaim⟩ => hother claim hclaim), onlyProposal_closedGov _ _ _⟩

lemma updateAbstain_step (hsound : GovSound c.gov) (hp : c.gov.getProposal p.proposalID = some p)
    (hopen : p.isOpen = true)
    (hrestored : ∀ claim, p.content = .shieldClaim claim → rules.restored c.shield.cover p claim) :
    GovStep k rules c (finishProposal (updateAbstain k.toKeepers c p) p .rejected) ∧
      OnlyProposal p.proposalID c.gov
        (finishProposal (updateAbstain k.toKeepers c p) p .rejected).gov := by
  unfold updateAbstain
  split
  · rename_i claim hclaim
    refine ⟨close_step hsound hp hopen rfl (by decide) (sameListing_rejectClaim _ _ _ _ _) ?_,
      onlyProposal_closedGov _ _ _⟩
    exact .reject ⟨rfl, le_refl _⟩
      (openClaims_get_of_open hp hopen (isShieldClaim_of_eq hclaim)) hclaim
      (openClaims_closedGov_claim c.gov rfl) (hrestored claim hclaim)
  · rename_i hother
    exact ⟨closeOther_step hsound hp hopen rfl (by decide) ((isShieldClaim_cases _).resolve_right
      fun ⟨claim, hclaim⟩ => hother claim hclaim), onlyProposal_closedGov _ _ _⟩

/-- One open proposal is counted. -/
lemma processActiveProposal_step (hk : GovKeeps k rules.measure) (hsound : GovSound c.gov)
    (hp : c.gov.getProposal id = some p) (hopen : p.isOpen = true)
    (hrestored : ∀ claim, p.content = .shieldClaim claim → t.verdict p = .reject →
      rules.restored c.shield.cover p claim)
    (h : processActiveProposal k t c id = .ok c') :
    GovStep k rules c c' ∧ OnlyProposal id c.gov c'.gov := by
  obtain rfl : p.proposalID = id := key_of_get hp
  simp only [processActiveProposal, run_eq_ok, hp, Option.some.injEq, exists_eq_left'] at h
  cases hverdict : t.verdict p with
  | nextRound =>
    rw [hverdict] at h
    cases h
    exact activate_step hsound hp (verdict_nextRound hverdict)
  | veto =>
    simp only [hverdict, run_eq_ok] at h
    obtain ⟨⟨g, world⟩, hdeposits, rfl⟩ := h
    obtain ⟨⟨deposits, rfl⟩, hworld⟩ := deleteDeposits_cases hk hdeposits
    have hfirst : GovStep k rules c (c.withGov ({ c.gov with deposits := deposits }, world)) :=
      withGov_step hsound hworld
    obtain ⟨hsecond, honly⟩ := updateVeto_step (k := k) hfirst.sound hp hopen
    exact ⟨hfirst.trans hsecond, honly⟩
  | reject =>
    simp only [hverdict, run_eq_ok] at h
    obtain ⟨⟨g, world⟩, hdeposits, rfl⟩ := h
    obtain ⟨⟨deposits, rfl⟩, hworld⟩ := refundDeposits_cases hk hdeposits
    have hfirst : GovStep k rules c (c.withGov ({ c.gov with deposits := deposits }, world)) :=
      withGov_step hsound hworld
    obtain ⟨hsecond, honly⟩ := updateAbstain_step (k := k) hfirst.sound hp hopen
      (fun claim hclaim => hrestored claim hclaim hverdict)
    exact ⟨hfirst.trans hsecond, honly⟩
  | pass =>
    simp only [hverdict, bind_eq_ok] at h
    obtain ⟨⟨g, world⟩, hdeposits, h⟩ := h
    obtain ⟨⟨deposits, rfl⟩, hworld⟩ := refundDeposits_cases hk hdeposits
    have hfirst : GovStep k rules c (c.withGov ({ c.gov with deposits := deposits }, world)) :=
      withGov_step hsound hworld
    obtain ⟨hsecond, honly⟩ := passProposal_step hk hfirst.sound hp hopen h
    exact ⟨hfirst.trans hsecond, honly⟩

lemma processSecurityVote_step (hk : GovKeeps k rules.measure) (hsound : GovSound c.gov)
    (hp : c.gov.getProposal id = some p) (hopen : p.isOpen = true)
    (h : processSecurityVote k t c id = .ok c') :
    GovStep k rules c c' ∧ OnlyProposal id c.gov c'.gov := by
  obtain rfl : p.proposalID = id := key_of_get hp
  simp only [processSecurityVote, run_eq_ok, hp, Option.some.injEq, exists_eq_left'] at h
  split at h
  · rename_i hpassed
    split at h
    · exact passProposal_step hk hsound hp hopen h
    · cases h
      exact activate_step hsound hp hpassed.1
  · cases h
    exact ⟨GovStep.refl hsound, fun _ _ => rfl⟩

end Process

section GovEndBlocker

variable {k : ChainKeepers σ} {rules : ChainRules σ} {t : Tallies} {c c' : Chain σ}

/-- The removal of proposals without enough deposit concerns no open claim. -/
lemma removeInactiveProposals_step (hk : GovKeeps k rules.measure) (hsound : GovSound c.gov)
    {g : GovState} {world : σ}
    (h : c.gov.removeInactiveProposals k.toKeepers c.ctx c.shield.world = .ok (g, world)) :
    GovStep k rules c (c.withGov (g, world)) ∧ g.openClaims = c.gov.openClaims := by
  have hinvariant : GovSound g ∧ (ClaimsVoted c.gov → ClaimsVoted g) ∧ GovFrame c.gov g ∧
      g.openClaims = c.gov.openClaims ∧
      rules.measure world = rules.measure c.shield.world := by
    refine foldlM_distinct
      (P := fun gw : GovState × σ => GovSound gw.1 ∧ (ClaimsVoted c.gov → ClaimsVoted gw.1) ∧
        GovFrame c.gov gw.1 ∧ gw.1.openClaims = c.gov.openClaims ∧
        rules.measure gw.2 = rules.measure c.shield.world)
      (Q := fun gw id => ∃ p, gw.1.getProposal id = some p ∧ p.status = .depositPeriod)
      ?_ ⟨hsound, id, ⟨rfl, le_refl _⟩, rfl, rfl⟩ ?_ (hsound.inactive_nodup _) h
    · rintro id - ⟨g1, w1⟩ ⟨g2, w2⟩ ⟨hsound1, hvoted1, hframe1, hclaims1, hw1⟩ ⟨p, hp, hstatus⟩
        hstep
      simp only [GovState.removeInactiveProposal, bind_eq_ok] at hstep
      obtain ⟨g3, hdelete, hrefund⟩ := hstep
      have hsound3 := hsound1.deleteProposalByProposalID hp hstatus hdelete
      obtain ⟨⟨deposits, rfl⟩, hw2⟩ := refundDeposits_cases hk hrefund
      simp only [GovState.deleteProposalByProposalID, run_eq_ok, hp, Option.some.injEq,
        exists_eq_left'] at hdelete
      subst hdelete
      refine ⟨⟨hsound3.setDeposits deposits, ?_, ⟨hframe1.params, hframe1.next⟩, ?_,
        hw2.trans hw1⟩, ?_⟩
      · intro hvoted id' q hq
        obtain ⟨hq', -⟩ := mem_delete.mp (mem_of_get hq)
        exact hvoted1 hvoted _ q (get_of_mem hq')
      · have hclosed : p.isOpen = false := by
          simp [Proposal.isOpen, hstatus]
        rw [← hclaims1]
        exact (filter_delete _ _ _).trans
          (delete_of_get_none (openClaims_get_of_not_open hp hclosed))
      · rintro id' hne ⟨p', hp', hstatus'⟩
        exact ⟨p', (get_delete_of_ne _ hne).trans hp', hstatus'⟩
    · intro id hid
      obtain ⟨time, -, hkey⟩ := mem_queueUntil.mp hid
      obtain ⟨p, hp, hstatus, -⟩ := (hsound id).inactive time hkey
      exact ⟨p, hp, hstatus⟩
  obtain ⟨hsound', hvoted, hframe, hclaims, hworld⟩ := hinvariant
  exact ⟨⟨.single (.gov hframe hclaims hworld), hsound', hvoted, rfl, SameListing.refl _⟩, hclaims⟩

/-- The rules allow the rejections of the claims that are due, whatever the other proposals of
the block do. -/
def RejectionsAllowed (rules : ChainRules σ) (t : Tallies) (c : Chain σ) : Prop :=
  ∀ b p claim, SameListing c.shield.cover b → p ∈ c.gov.openClaims.rows →
    p.votingEndTime ≤ c.ctx.blockTime → p.content = .shieldClaim claim →
    t.verdict p = .reject → rules.restored b p claim

/-- The loop over the proposals whose voting period has ended. -/
lemma processActiveProposals_step (hk : GovKeeps k rules.measure) (hsound : GovSound c.gov)
    (hallowed : RejectionsAllowed rules t c)
    (h : (GovState.queueUntil c.gov.activeProposalQueue c.ctx.blockTime).foldlM
      (processActiveProposal k t) c = .ok c') : GovStep k rules c c' := by
  refine foldlM_distinct (P := fun c1 => GovStep k rules c c1)
    (Q := fun c1 id => c1.gov.getProposal id = c.gov.getProposal id)
    ?_ (.refl hsound) (fun _ _ => rfl) (hsound.active_nodup _) h
  intro id hid c1 c2 hstep hsame hprocess
  obtain ⟨time, hdue, hkey⟩ := mem_queueUntil.mp hid
  obtain ⟨p, hp, hopen, rfl⟩ := (hsound id).active time hkey
  have hrestored : ∀ claim, p.content = .shieldClaim claim → t.verdict p = .reject →
      rules.restored c1.shield.cover p claim := by
    intro claim hclaim hverdict
    exact hallowed _ p claim hstep.listing
      (mem_of_get (openClaims_get_of_open hp hopen (isShieldClaim_of_eq hclaim)))
      hdue hclaim hverdict
  obtain ⟨hnext, honly⟩ := processActiveProposal_step hk hstep.sound (hsame.trans hp) hopen
    hrestored hprocess
  exact ⟨hstep.trans hnext, fun id' hne heq => (honly id' hne).trans heq⟩

lemma processSecurityVotes_step (hk : GovKeeps k rules.measure) (hsound : GovSound c.gov)
    {time : Time}
    (h : (GovState.queueUntil c.gov.activeProposalQueue time).foldlM
      (processSecurityVote k t) c = .ok c') : GovStep k rules c c' := by
  refine foldlM_distinct (P := fun c1 => GovStep k rules c c1)
    (Q := fun c1 id => c1.gov.getProposal id = c.gov.getProposal id)
    ?_ (.refl hsound) (fun _ _ => rfl) (hsound.active_nodup _) h
  intro id hid c1 c2 hstep hsame hprocess
  obtain ⟨time', -, hkey⟩ := mem_queueUntil.mp hid
  obtain ⟨p, hp, hopen, -⟩ := (hsound id).active time' hkey
  obtain ⟨hnext, honly⟩ := processSecurityVote_step hk hstep.sound (hsame.trans hp) hopen hprocess
  exact ⟨hstep.trans hnext, fun id' hne heq => (honly id' hne).trans heq⟩

lemma govEndBlocker_step (hk : GovKeeps k rules.measure) (hsound : GovSound c.gov)
    (hallowed : RejectionsAllowed rules t c) (h : govEndBlocker k t c = .ok c') :
    GovStep k rules c c' := by
  simp only [govEndBlocker, bind_eq_ok] at h
  obtain ⟨⟨g, world⟩, hremove, c2, hactive, hsecurity⟩ := h
  obtain ⟨hfirst, hclaims⟩ := removeInactiveProposals_step hk hsound hremove
  have hallowed' : RejectionsAllowed rules t (c.withGov (g, world)) := by
    intro b p claim hlisting hp
    exact hallowed b p claim hlisting (hclaims ▸ hp)
  have hsecond := processActiveProposals_step hk hfirst.sound hallowed' hactive
  exact hfirst.trans (hsecond.trans (processSecurityVotes_step hk hsecond.sound hsecurity))

end GovEndBlocker

end Shentu
