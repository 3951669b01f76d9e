import Shentu.ChainMoves

/-!
Every event of the chain is a sequence of small moves, under conditions on the
event and the state before it that say which moves are allowed. An invariant of
the moves is then an invariant of the runs whose events meet the conditions.
-/

namespace Shentu

open Lib CollateralBook Table

variable {σ : Type}

section Messages

variable {k : ChainKeepers σ} {rules : ChainRules σ} {c c' : Chain σ}

/-- The chain is left in a sound state by moves. -/
structure ChainStep (k : ChainKeepers σ) (rules : ChainRules σ) (c c' : Chain σ) : Prop where
  moves : ChainMoves k rules c c'
  sound : GovSound c'.gov
  voted : ClaimsVoted c'.gov

/-- A deposit goes to a proposal that is no claim, since no claim waits for deposits. -/
lemma handleMsgDeposit_step (hk : GovKeeps k rules.measure) (hsound : GovSound c.gov)
    (hvoted : ClaimsVoted c.gov) {id : Nat} {depositor : AccAddress} {amount : Coins}
    (h : handleMsgDeposit k c id depositor amount = .ok c') : ChainStep k rules c c' := by
  simp only [handleMsgDeposit, run_eq_ok] at h
  obtain ⟨⟨g, world⟩, hdeposit, rfl⟩ := h
  obtain ⟨hworld, p, p', hp, hstatus, hopened⟩ := addDeposit_cases hk hsound hdeposit
  have hother : p.content.isShieldClaim = false := by
    by_contra hclaim
    exact hvoted id p hp (Bool.eq_true_of_not_eq_false hclaim) hstatus
  obtain rfl : p.proposalID = id := key_of_get hp
  have honly : OnlyProposal p'.proposalID c.gov g := hopened.id ▸ hopened.only
  have hget : g.getProposal p'.proposalID = some p' := hopened.id ▸ hopened.get
  have hother' : p'.content.isShieldClaim = false := hopened.content ▸ hother
  have hclaims : g.openClaims = c.gov.openClaims := by
    refine honly.openClaims_eq hget ?_ ?_
    · rw [Proposal.isOpenClaim, hother', Bool.and_false]
    · rw [hopened.id]
      exact openClaims_get_of_content hp hother
  refine ⟨.single (.gov hopened.frame hclaims hworld),
    hopened.sound, honly.claimsVoted hget ?_ hvoted⟩
  intro hclaim
  rw [hother'] at hclaim
  cases hclaim

variable {initialDeposit : Coins}

lemma openProposal_cases (hk : GovKeeps k rules.measure) (hsound : GovSound c.gov) {p : Proposal}
    (hp : c.gov.getProposal p.proposalID = some p) (hstatus : p.status = .depositPeriod)
    (h : openProposal k c p initialDeposit = .ok c') :
    ∃ g world p', c' = c.withGov (g, world) ∧
      rules.measure world = rules.measure c.shield.world ∧ Opened c.gov g p p' := by
  unfold openProposal at h
  split at h
  · cases h
    exact ⟨_, c.shield.world, _, rfl, rfl, opened_activate hsound c.ctx hp hstatus⟩
  · simp only [run_eq_ok] at h
    obtain ⟨⟨g, world⟩, hdeposit, rfl⟩ := h
    obtain ⟨hworld, q, p', hq, -, hopened⟩ := addDeposit_cases hk hsound hdeposit
    cases hq.symm.trans hp
    exact ⟨g, world, p', rfl, hworld, hopened⟩

lemma validateClaim_cases {claim : ShieldClaimProposal}
    (h : validateProposalByType k c (.shieldClaim claim) initialDeposit = .ok ()) :
    ∃ l e, c.shield.cover.getPurchaseList claim.poolID claim.proposer = some l ∧
      l.getPurchase claim.purchaseID = some e ∧ c.ctx.blockTime ≤ e.protectionEndTime := by
  simp only [validateProposalByType, run_eq_ok] at h
  obtain ⟨-, l, hl, e, he, -, htime⟩ := h
  exact ⟨l, e, hl, he, not_lt.mp htime⟩

lemma updateAfterSubmitClaim_cases {claim : ShieldClaimProposal}
    (h : updateAfterSubmitProposal k c (.shieldClaim claim) = .ok c') :
    ∃ s, secureCollaterals k.toKeepers c.ctx c.shield claim.poolID claim.proposer claim.purchaseID
      claim.loss (c.gov.params.votingPeriod * 2) = .ok s ∧ c' = { c with shield := s } := by
  simp only [updateAfterSubmitProposal, run_eq_ok] at h
  obtain ⟨s, hsecure, rfl⟩ := h
  exact ⟨s, hsecure, rfl⟩

/-- A new proposal is stored and opened; the loss of a claim is taken. -/
lemma handleMsgSubmitProposal_step (hk : GovKeeps k rules.measure) (hsound : GovSound c.gov)
    (hvoted : ClaimsVoted c.gov) {content : Content} {proposer : AccAddress}
    (hloss : ∀ claim, content = .shieldClaim claim → rules.loss (claim.loss.amountOf k.bondDenom))
    (h : handleMsgSubmitProposal k c content initialDeposit proposer = .ok c') :
    ChainStep k rules c c' := by
  simp only [handleMsgSubmitProposal, run_eq_ok] at h
  obtain ⟨-, ⟨⟩, hvalid, c1, hopen, hupdate⟩ := h
  let p := (c.gov.newProposal c.ctx content proposer (k.isCouncilMember c.shield.world proposer)).1
  let g0 := (c.gov.newProposal c.ctx content proposer (k.isCouncilMember c.shield.world proposer)).2
  have hsound0 : GovSound g0 := hsound.newProposal _ _ _ _
  have hget0 : g0.getProposal p.proposalID = some p := get_set_self _ _
  obtain ⟨g, world, p', rfl, hworld, hopened⟩ := openProposal_cases (c := { c with gov := g0 })
    hk hsound0 hget0 rfl hopen
  have honly : OnlyProposal p'.proposalID c.gov g := by
    intro id hne
    rw [hopened.id] at hne
    exact (hopened.only id hne).trans (get_set_of_ne _ hne)
  have hget : g.getProposal p'.proposalID = some p' := hopened.id ▸ hopened.get
  have hid : p'.proposalID = c.gov.nextProposalID := hopened.id
  have hnone : c.gov.openClaims.get p'.proposalID = none := by
    rw [hid, GovState.openClaims_get, hsound.getProposal_next]
    rfl
  have hframe : GovFrame c.gov g :=
    ⟨hopened.frame.params, (Nat.le_succ _).trans hopened.frame.next⟩
  have hcontent : p'.content = content.withProposalID c.gov.nextProposalID := hopened.content
  have hother : p'.content.isShieldClaim = false → ChainStep k rules c (c.withGov (g, world)) := by
    intro hfalse
    have hclaims : g.openClaims = c.gov.openClaims := by
      refine honly.openClaims_eq hget ?_ hnone
      rw [Proposal.isOpenClaim, hfalse, Bool.and_false]
    refine ⟨Relation.ReflTransGen.single (.gov hframe hclaims hworld), hopened.sound,
      honly.claimsVoted hget ?_ hvoted⟩
    intro hclaim
    rw [hfalse] at hclaim
    cases hclaim
  cases content with
  | shieldClaim claim =>
    have hclaim : p'.content.isShieldClaim = true := by
      rw [hcontent]
      rfl
    have hisOpen : p'.isOpen = true := hopened.claim rfl
    have hclaims : g.openClaims = c.gov.openClaims.set p' := by
      refine honly.openClaims_set hget ?_
      rw [Proposal.isOpenClaim, hisOpen, hclaim]
      rfl
    obtain ⟨l, e, hl, he, htime⟩ := validateClaim_cases hvalid
    have hcontent' : p'.content =
        .shieldClaim { claim with proposalID := c.gov.nextProposalID } := hcontent
    obtain ⟨s, hsecure, rfl⟩ := updateAfterSubmitClaim_cases hupdate
    have hparams : g.params = c.gov.params := hframe.params
    refine ⟨?_, hopened.sound, honly.claimsVoted hget ?_ hvoted⟩
    · -- The deposit moves coins of the gov module, and then the claim is secured.
      refine (Relation.ReflTransGen.single (@ChainMove.gov _ k rules c c.gov world
        ⟨rfl, le_refl _⟩ rfl hworld)).tail ?_
      refine @ChainMove.submit _ k rules (c.withGov (c.gov, world)) g p' _ l e s hframe hid ?_
        hnone hclaims hcontent' hid.symm hopened.submitTime (hloss claim rfl) hl he htime ?_
      · rw [hid]
        exact hopened.frame.next
      · exact hparams ▸ hsecure
    · intro _ hdeposit
      simp [Proposal.isOpen, hdeposit] at hisOpen
  | certifierUpdate | softwareUpgrade | other =>
    cases hupdate
    exact hother (by rw [hcontent]; rfl)

end Messages

section Events

variable {k : ChainKeepers σ} {rules : ChainRules σ} {c c' : Chain σ}

/-- The rules allow the fees and the loss that a message brings. -/
def MsgAllowed (k : ChainKeepers σ) (rules : ChainRules σ) : Msg → Prop
  | .createPool _ _ deposit _ _ _ _ => rules.paid deposit.native
  | .updatePool _ shield serviceFees _ _ _ =>
    (Coins.isZero shield = false → rules.paid serviceFees.native) ∧
      (Coins.isZero shield = true → rules.booked serviceFees.native)
  | .submitProposal content _ _ =>
    ∀ claim, content = .shieldClaim claim → rules.loss (claim.loss.amountOf k.bondDenom)
  | _ => True

/-- The rules allow the releases of stakes that the expiry of purchases asks for. -/
def ReleasesAllowed (rules : ChainRules σ) (c : Chain σ) : Prop :=
  ∀ lastUpdateTime loop,
    LoopMoves c.shield.stakes c.shield.params.pool c.ctx lastUpdateTime
      (ExpiryLoop.start c.shield) loop →
    ∀ ppp ∈ loop.stakeForShieldUpdateList, rules.released ppp.purchaseID

/-- The rules allow what an event does in a state. -/
def EventAllowed (k : ChainKeepers σ) (rules : ChainRules σ) (c : Chain σ) : Event σ → Prop
  | .action (.tx msg) => MsgAllowed k rules msg
  | .action (.fundBlockRewards amount _) => rules.paid amount
  | .action (.outside world) => rules.measure world = rules.measure c.shield.world
  | .endBlocker => ReleasesAllowed rules c
  | .govEndBlocker t => RejectionsAllowed rules t c
  | _ => True

/-- The loss of a claim that an event submits meets a condition. -/
def SubmittedLoss (k : ChainKeepers σ) (P : Int → Prop) : Event σ → Prop
  | .action (.tx (.submitProposal (.shieldClaim claim) _ _)) => P (claim.loss.amountOf k.bondDenom)
  | _ => True

instance (k : ChainKeepers σ) (P : Int → Prop) [DecidablePred P] (e : Event σ) :
    Decidable (SubmittedLoss k P e) := by
  unfold SubmittedLoss
  split <;> infer_instance

/-- Rules that allow all payments and look at nothing outside the two modules. -/
structure PaymentsFree (rules : ChainRules σ) : Prop where
  paid : ∀ coins, rules.paid coins
  booked : ∀ coins, rules.booked coins
  measure : ∀ w w', rules.measure w = rules.measure w'

variable {e : Event σ} {s : ShieldState σ}

lemma PaymentsFree.eventAllowed (hfree : PaymentsFree rules)
    (hloss : SubmittedLoss k rules.loss e) (hreleases : e = .endBlocker → ReleasesAllowed rules c)
    (hrejections : ∀ t, e = .govEndBlocker t → RejectionsAllowed rules t c) :
    EventAllowed k rules c e := by
  cases e with
  | beginBlock elapsed => trivial
  | endBlocker => exact hreleases rfl
  | govEndBlocker t => exact hrejections t rfl
  | action a =>
    cases a with
    | tx msg =>
      cases msg with
      | createPool _ _ deposit _ _ _ _ => exact hfree.paid deposit.native
      | updatePool _ _ fees _ _ _ =>
        exact ⟨fun _ => hfree.paid fees.native, fun _ => hfree.booked fees.native⟩
      | submitProposal content _ _ =>
        rintro claim rfl
        exact hloss
      | _ => trivial
    | fundBlockRewards amount _ => exact hfree.paid amount
    | outside world => exact hfree.measure _ _
    | _ => trivial

/-- Each shield message is a sequence of moves. -/
lemma handleShieldMsg_moves {msg : Msg} (hrate : 0 < c.shield.params.shieldStakingRate)
    (hrule : ∀ a, rules.paid (Coins.ofAmount k.bondDenom a)) (hallowed : MsgAllowed k rules msg)
    (hvalid : msg.validateBasic = .ok ())
    (h : handleShieldMsg k.toKeepers c.ctx c.shield msg = .ok s) :
    ShieldMoves k.toKeepers rules.toMoveRules c.ctx c.shield s := by
  have hnonneg : ∀ {coins : Coins} {e : Err}, failInvalidCoins coins e = .ok () →
      0 ≤ coins.amountOf k.bondDenom := by
    intro coins e hcoins
    rw [failInvalidCoins, failIf_eq_ok, not_or, not_not] at hcoins
    exact Coins.amountOf_nonneg_of_isValid hcoins.1 _
  cases msg with
  | createPool sender shield deposit sponsor sponsorAddr description shieldLimit =>
    obtain ⟨-, -, hcoins⟩ := bind_eq_ok.mp hvalid
    exact createPool_moves (hnonneg hcoins) hallowed h
  | updatePool sender shield serviceFees poolID description shieldLimit =>
    simp only [Msg.validateBasic, run_eq_ok, not_not] at hvalid
    exact updatePool_moves (Coins.amountOf_nonneg_of_isValid hvalid.2 _) hallowed.1 hallowed.2 h
  | pausePool | resumePool => exact setPoolActive_moves h
  | updateSponsor poolID sponsor sponsorAddr sender => exact updateSponsor_moves h
  | depositCollateral sender collateral =>
    simp only [handleShieldMsg, collateralAmount, run_eq_ok] at h
    obtain ⟨amount, ⟨-, rfl⟩, b, hdeposit, rfl⟩ := h
    exact .single (.collateral (.deposit (hnonneg hvalid) hdeposit))
  | withdrawCollateral sender collateral =>
    simp only [handleShieldMsg, collateralAmount, run_eq_ok] at h
    obtain ⟨amount, ⟨-, rfl⟩, b, hwithdraw, rfl⟩ := h
    exact .single (.collateral (.withdraw (hnonneg hvalid) hwithdraw))
  | withdrawRewards sender => exact payoutNativeRewards_moves h
  | withdrawReimbursement proposalID sender => exact withdrawReimbursement_moves h
  | purchaseShield poolID shield description sender =>
    simp only [Msg.validateBasic, run_eq_ok] at hvalid
    obtain ⟨-, ⟨⟩, hcoins, -⟩ := hvalid
    obtain ⟨rfl, -⟩ := Written.commit_eq_ok.mp h
    exact purchaseShield_moves hrate (fun _ => hnonneg hcoins) hrule rfl
  | stakeForShield poolID shield description sender =>
    obtain ⟨rfl, -⟩ := Written.commit_eq_ok.mp h
    refine purchaseShield_moves hrate ?_ hrule rfl
    intro hfalse
    cases hfalse
  | unstakeFromShield poolID shield sender => exact unstakeFromShield_moves h
  | submitProposal | deposit =>
    cases h
    exact .refl

lemma deliverTx_step (hk : GovKeeps k rules.measure)
    (hrule : ∀ a, rules.paid (Coins.ofAmount k.bondDenom a))
    (hrate : 0 < c.shield.params.shieldStakingRate) (hsound : GovSound c.gov)
    (hvoted : ClaimsVoted c.gov) {msg : Msg} (hallowed : MsgAllowed k rules msg)
    (h : deliverTx k c msg = .ok c') : ChainStep k rules c c' := by
  simp only [deliverTx, bind_eq_ok] at h
  obtain ⟨⟨⟩, hvalid, h⟩ := h
  unfold handleMsg at h
  split at h
  · exact handleMsgSubmitProposal_step hk hsound hvoted hallowed h
  · exact handleMsgDeposit_step hk hsound hvoted h
  · simp only [run_eq_ok] at h
    obtain ⟨s, hshield, rfl⟩ := h
    exact ⟨(handleShieldMsg_moves hrate hrule hallowed hvalid hshield).chainMoves, hsound, hvoted⟩

/-- What an event does. A transaction or a hook that fails leaves the chain as it was. -/
inductive Executed (k : ChainKeepers σ) (c : Chain σ) : Event σ → Chain σ → Prop
  | failed {a : Action σ} : Executed k c (.action a) c
  | tick (elapsed : Nat) : Executed k c (.beginBlock elapsed) (beginBlock c elapsed)
  | tx {msg : Msg} {c' : Chain σ} :
      deliverTx k c msg = .ok c' → Executed k c (.action (.tx msg)) c'
  | hook {a : Action σ} {b : CollateralBook} :
      DelegationChange c.shield.params.pool c.ctx c.shield.collateral b →
      Executed k c (.action a) { c with shield := { c.shield with collateral := b } }
  | fund {amount : Coins} {sender : AccAddress} {s : ShieldState σ} :
      fundShieldBlockRewards k.toKeepers c.shield amount sender = .ok s →
      Executed k c (.action (.fundBlockRewards amount sender)) { c with shield := s }
  | outside (world : σ) :
      Executed k c (.action (.outside world)) { c with shield := { c.shield with world := world } }
  | shieldEnd {s : ShieldState σ} : endBlocker k.toKeepers c.ctx c.shield = .ok s →
      Executed k c .endBlocker { c with shield := s }
  | govEnd {t : Tallies} {c' : Chain σ} : govEndBlocker k t c = .ok c' →
      Executed k c (.govEndBlocker t) c'

lemma exec_executed (h : exec k c e = .ok c') : Executed k c e c' := by
  cases e with
  | beginBlock elapsed =>
    cases h
    exact .tick elapsed
  | endBlocker =>
    simp only [exec, run_eq_ok] at h
    obtain ⟨s, hend, rfl⟩ := h
    exact .shieldEnd hend
  | govEndBlocker t => exact .govEnd h
  | action a =>
    cases a with
    | tx msg =>
      cases h
      cases htx : deliverTx k c msg with
      | error f => exact .failed
      | ok c1 => exact .tx htx
    | delegationModified delAddr =>
      cases h
      cases hhook : c.shield.collateral.updateDelegationAmount k.toKeepers c.shield.params.pool
          c.ctx c.shield.world delAddr with
      | error f => exact .failed
      | ok b => exact .hook ⟨_, updateDelegationAmount_cases hhook⟩
    | delegationRemoved delAddr valAddr =>
      cases h
      cases hhook : c.shield.collateral.removeDelegation k.toKeepers c.shield.params.pool c.ctx
          c.shield.world delAddr valAddr with
      | error f => exact .failed
      | ok b => exact .hook ⟨_, removeDelegation_cases hhook⟩
    | fundBlockRewards amount sender =>
      simp only [exec, act, run_eq_ok, orPanic_eq_ok] at h
      obtain ⟨s, hfund, rfl⟩ := h
      exact .fund hfund
    | outside world =>
      cases h
      exact .outside world

/-- Every event is a sequence of moves that keeps the gov store sound. -/
lemma exec_step (hk : GovKeeps k rules.measure)
    (hrule : ∀ a, rules.paid (Coins.ofAmount k.bondDenom a))
    (hrate : 0 < c.shield.params.shieldStakingRate) (hsound : GovSound c.gov)
    (hvoted : ClaimsVoted c.gov) (hallowed : EventAllowed k rules c e)
    (h : exec k c e = .ok c') : ChainStep k rules c c' := by
  cases exec_executed h with
  | failed => exact ⟨.refl, hsound, hvoted⟩
  | tick elapsed => exact ⟨.single (.tick elapsed), hsound, hvoted⟩
  | tx htx => exact deliverTx_step hk hrule hrate hsound hvoted hallowed htx
  | hook hhook =>
    obtain ⟨delAddr, stakedAmt, hchange⟩ := hhook
    exact ⟨.single (.shield (.collateral (.delegation hchange))), hsound, hvoted⟩
  | fund hfund => exact ⟨(fundShieldBlockRewards_moves hallowed hfund).chainMoves, hsound, hvoted⟩
  | outside world =>
    exact ⟨.single
      (@ChainMove.gov _ k rules c c.gov world ⟨rfl, le_refl _⟩ rfl hallowed), hsound, hvoted⟩
  | shieldEnd hend =>
    exact ⟨(endBlocker_moves hrate hrule hallowed hend).chainMoves, hsound, hvoted⟩
  | govEnd hend =>
    have hstep := govEndBlocker_step hk hsound hallowed hend
    exact ⟨hstep.moves, hstep.sound, hstep.voted hvoted⟩

/-- The parameters of the shield module, apart from the staking rate. -/
structure SameParams (p p' : ShieldParams) : Prop where
  admin : p'.admin = p.admin
  pool : p'.pool = p.pool
  claimProposal : p'.claimProposal = p.claimProposal
  rate : 0 < p.shieldStakingRate → 0 < p'.shieldStakingRate

lemma SameParams.refl (p : ShieldParams) : SameParams p p := ⟨rfl, rfl, rfl, id⟩

lemma SameParams.trans {p1 p2 p3 : ShieldParams} (h : SameParams p1 p2) (h' : SameParams p2 p3) :
    SameParams p1 p3 :=
  ⟨h'.admin.trans h.admin, h'.pool.trans h.pool, h'.claimProposal.trans h.claimProposal,
    fun hrate => h'.rate (h.rate hrate)⟩

/-- Only the first update changes a parameter, the staking rate. -/
lemma ChainMove.params (h : ChainMove k rules c c') :
    SameParams c.shield.params c'.shield.params := by
  cases h with
  | shield hmove =>
    rw [ShieldMoves.params (.single hmove)]
    exact .refl _
  | tick elapsed =>
    unfold beginBlock
    dsimp only
    split
    · exact ⟨rfl, rfl, rfl, fun _ => show (0 : Int) < Dec.ofInt 2 by decide⟩
    · exact .refl _
  | gov _ _ _ => exact .refl _
  | submit _ _ _ _ _ _ _ _ _ hl he _ hsecure =>
    obtain ⟨_, _, _, _, -, -, -, -, -, -, rfl⟩ := secureCollaterals_cases hl he hsecure
    exact .refl _
  | nextRound | veto | reject => exact .refl _
  | pay _ _ _ _ _ hpay =>
    obtain ⟨b, world, rfl⟩ := createReimbursement_cases hpay
    exact .refl _

lemma ChainMoves.params (h : ChainMoves k rules c c') :
    SameParams c.shield.params c'.shield.params := by
  induction h with
  | refl => exact .refl _
  | tail _ hmove ih => exact ih.trans hmove.params

/-- What every run from an empty chain with accepted parameters keeps. -/
structure ChainSound (c : Chain σ) : Prop where
  gov : GovSound c.gov
  voted : ClaimsVoted c.gov
  pool : c.shield.params.pool.validate
  rate : 0 < c.shield.params.shieldStakingRate

lemma ChainSound.empty {params : ShieldParams} (hparams : params.validate) (govParams : GovParams)
    (world : σ) (ctx : Ctx) : ChainSound (Chain.empty params govParams world ctx) where
  gov := GovSound.empty govParams
  voted := by
    intro id p hp
    cases hp
  pool := hparams.1
  rate := hparams.2

lemma ChainSound.step (h : ChainSound c) (hstep : ChainStep k rules c c') : ChainSound c' := by
  have hparams := ChainMoves.params hstep.moves
  exact ⟨hstep.sound, hstep.voted, hparams.pool ▸ h.pool, hparams.rate h.rate⟩

lemma exec_step_any (h : ChainSound c) (hexec : exec k c e = .ok c') :
    ChainStep k ChainRules.any c c' := by
  have hfree : PaymentsFree (.any (σ := σ)) :=
    ⟨fun _ => trivial, fun _ => trivial, fun _ _ => rfl⟩
  refine exec_step (.const k) (fun _ => trivial) h.rate h.gov h.voted
    (hfree.eventAllowed ?_ ?_ ?_) hexec
  · unfold SubmittedLoss
    split <;> trivial
  · exact fun _ _ _ _ _ _ => trivial
  · exact fun _ _ _ _ _ _ _ _ _ _ => trivial

lemma ChainSound.exec (h : ChainSound c) (hexec : Shentu.exec k c e = .ok c') : ChainSound c' :=
  h.step (exec_step_any h hexec)

lemma run_invariant (rules : ChainRules σ) {P : Chain σ → Prop} {d : Chain σ → Event σ → Prop}
    (hk : GovKeeps k rules.measure) (hrule : ∀ a, rules.paid (Coins.ofAmount k.bondDenom a))
    (hmove : ∀ c c', P c → ChainMove k rules c c' → P c')
    (hallowed : ∀ c e, ChainSound c → P c → d c e → EventAllowed k rules c e)
    {es : List (Event σ)} (hsound : ChainSound c) (hP : P c) (hmeet : StepsMeet d (exec k) c es)
    (h : run k c es = .ok c') : ChainSound c' ∧ P c' := by
  refine foldlM_invariant_of_meets (P := fun c => ChainSound c ∧ P c) ?_ ⟨hsound, hP⟩ hmeet h
  rintro e c1 c2 ⟨hsound1, hP1⟩ hd hexec
  have hstep := exec_step hk hrule hsound1.rate hsound1.gov hsound1.voted
    (hallowed c1 e hsound1 hP1 hd) hexec
  exact ⟨hsound1.step hstep, reflTransGen_invariant hmove hstep.moves hP1⟩

lemma run_invariant_any {P : Chain σ → Prop}
    (hmove : ∀ c c', P c → ChainMove k ChainRules.any c c' → P c') {es : List (Event σ)}
    (hsound : ChainSound c) (hP : P c) (h : run k c es = .ok c') : ChainSound c' ∧ P c' := by
  refine foldlM_invariant (P := fun c => ChainSound c ∧ P c) ?_ ⟨hsound, hP⟩ h
  rintro e - c1 c2 ⟨hsound1, hP1⟩ hexec
  have hstep := exec_step_any hsound1 hexec
  exact ⟨hsound1.step hstep, reflTransGen_invariant hmove hstep.moves hP1⟩

end Events

end Shentu
