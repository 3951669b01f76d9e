import Shentu.GovSteps

/-!
The life of a proposal in every run. What was submitted stays as it is, the status only moves on,
the deposit is fixed once the voting has begun, and a proposal that has ended is not changed any
more. Only a proposal that waits for deposits is removed, and its ID is not used again.
-/

namespace Shentu

open Lib Table

variable {σ : Type} {k : ChainKeepers σ} {g : GovState} {p : Proposal} {status : ProposalStatus}

/-- The proposal has passed, failed or been rejected. -/
def Proposal.isFinal (p : Proposal) : Bool :=
  match p.status with
  | .passed | .failed | .rejected => true
  | _ => false

lemma InPeriod.isFinal (h : InPeriod g p status) (hstatus : status = .depositPeriod ∨
    status = .certifierVotingPeriod ∨ status = .validatorVotingPeriod) : p.isFinal = false := by
  rcases hstatus with rfl | rfl | rfl <;> simp [Proposal.isFinal, h.status]

lemma Counted.isFinal {pass : Bool} {entry : GovEntry} (h : Counted g p pass entry) :
    p.isFinal = false := by
  cases h with
  | security hp _ => exact hp.isFinal (.inr (.inl rfl))
  | stakeReject hp => exact hp.isFinal (.inr (.inr rfl))
  | stakePass hp => exact hp.isFinal (.inr (.inr rfl))

/-- How far a proposal has come. -/
def ProposalStatus.stage : ProposalStatus → Nat
  | .depositPeriod => 0
  | .certifierVotingPeriod => 1
  | .validatorVotingPeriod => 2
  | .passed | .rejected | .failed => 3

/-- What is fixed when a proposal is submitted. -/
def Proposal.submission (p : Proposal) : Content × AccAddress × Bool × Time :=
  (p.content, p.proposerAddress, p.isProposerCouncilMember, p.submitTime)

/-- A proposal and what is stored of it later. -/
structure Proposal.Later (p q : Proposal) : Prop where
  submission : q.submission = p.submission
  stage : p.status.stage ≤ q.status.stage
  deposit : 0 < p.status.stage → q.totalDeposit = p.totalDeposit
  final : p.isFinal = true → q = p

/-- What is stored under an ID and what is stored there later. -/
def LivesOn (o o' : Option Proposal) : Prop :=
  (o' = none ∧ ∀ p, o = some p → p.status.stage = 0) ∨
    ∃ p q, o = some p ∧ o' = some q ∧ p.Later q

/-- The proposals under the IDs given so far live on. -/
def GovState.Later (g g' : GovState) : Prop :=
  g.nextProposalID ≤ g'.nextProposalID ∧
    ∀ id < g.nextProposalID, LivesOn (g.getProposal id) (g'.getProposal id)

lemma LivesOn.refl (o : Option Proposal) : LivesOn o o := by
  cases o with
  | none => exact .inl ⟨rfl, nofun⟩
  | some p => exact .inr ⟨p, p, rfl, rfl, rfl, le_rfl, fun _ => rfl, fun _ => rfl⟩

/-- A proposal whose voting has begun is not removed. -/
lemma LivesOn.later {o' : Option Proposal} (h : LivesOn (some p) o') (hp : 0 < p.status.stage) :
    ∃ q, o' = some q ∧ p.Later q := by
  obtain ⟨-, hwaiting⟩ | ⟨_, q, heq, hq, hlater⟩ := h
  · exact absurd (hwaiting p rfl) hp.ne'
  · cases heq
    exact ⟨q, hq, hlater⟩

/-- A proposal that has not ended continues one that had not. -/
lemma LivesOn.earlier {o : Option Proposal} (h : LivesOn o (some p)) (hlive : p.isFinal = false) :
    ∃ q, o = some q ∧ q.isFinal = false ∧ q.Later p := by
  obtain ⟨hnone, -⟩ | ⟨q, _, hq, heq, hlater⟩ := h
  · cases hnone
  · cases heq
    refine ⟨q, hq, Bool.eq_false_iff.mpr fun hended => ?_, hlater⟩
    rw [hlater.final hended, hended] at hlive
    cases hlive

lemma LivesOn.trans {o o1 o' : Option Proposal} (h : LivesOn o o1) (h' : LivesOn o1 o') :
    LivesOn o o' := by
  obtain ⟨rfl, hwaiting⟩ | ⟨p, q, rfl, rfl, hlater⟩ := h
  · obtain ⟨hnone, -⟩ | ⟨_, _, hsome, -, -⟩ := h'
    · exact .inl ⟨hnone, hwaiting⟩
    · cases hsome
  · have hstage := hlater.stage
    obtain ⟨hnone, hwaiting⟩ | ⟨_, r, hsome, hr, hlater'⟩ := h'
    · refine .inl ⟨hnone, fun _ hp => ?_⟩
      cases hp
      exact Nat.le_zero.mp (hwaiting q rfl ▸ hstage)
    · cases hsome
      refine .inr ⟨p, r, rfl, hr, hlater'.submission.trans hlater.submission,
        hstage.trans hlater'.stage, ?_, ?_⟩
      · intro hvoted
        exact (hlater'.deposit (hvoted.trans_le hstage)).trans (hlater.deposit hvoted)
      · intro hfinal
        cases hlater.final hfinal
        exact hlater'.final hfinal

lemma later_inNextPeriod (ctx : Ctx) (votingPeriod : Duration) (hp : p.status.stage ≤ 1)
    (hlive : p.isFinal = false) : p.Later (GovState.inNextPeriod ctx votingPeriod p) := by
  have hended : ∀ q : Proposal, p.isFinal = true → q = p := by simp [hlive]
  unfold GovState.inNextPeriod
  dsimp only
  split
  · exact ⟨rfl, hp, fun _ => rfl, hended _⟩
  · split <;> exact ⟨rfl, hp.trans one_le_two, fun _ => rfl, hended _⟩

lemma later_closed (hlive : p.isFinal = false)
    (hstatus : status = .passed ∨ status = .failed ∨ status = .rejected) :
    p.Later { p with status := status } := by
  refine ⟨rfl, ?_, fun _ => rfl, by simp [hlive]⟩
  have hstage : status.stage = 3 := by rcases hstatus with rfl | rfl | rfl <;> rfl
  rw [hstage]
  cases p.status <;> decide

/-- A move changes at most one proposal, to a later record of it, or removes one that waits. -/
lemma GovMove.livesOn {rules : GovRules σ} {b b' : GovState × σ × Trace}
    (hmove : GovMove k rules b b') : b.1.Later b'.1 := by
  have hset : ∀ {p q : Proposal}, b.1.getProposal p.proposalID = some p →
      b'.1.proposals = b.1.proposals.set q → q.proposalID = p.proposalID → p.Later q →
      ∀ id < b.1.nextProposalID, LivesOn (b.1.getProposal id) (b'.1.getProposal id) := by
    intro p q hp heq hid hlater id _
    have hget : b'.1.getProposal id = if id = q.proposalID then some q else b.1.getProposal id := by
      rw [GovState.getProposal, heq, get_set]
      rfl
    rw [hget, hid]
    split
    · rename_i hown
      rw [hown, hp]
      exact .inr ⟨p, q, rfl, rfl, hlater⟩
    · exact .refl _
  cases hmove with
  | other _ | count _ => exact ⟨le_rfl, fun id _ => .refl _⟩
  | @submit g w t ctx content proposer isCouncilMember =>
    refine ⟨Nat.le_succ _, fun id hid => ?_⟩
    have hget : (g.newProposal ctx content proposer isCouncilMember).2.getProposal id =
        g.getProposal id := get_set_of_ne _ hid.ne
    rw [hget]
    exact .refl _
  | @deposit g w w' t p depositor amount hp _ _ =>
    have hlater : p.Later { p with totalDeposit := p.totalDeposit.add amount } := by
      refine ⟨rfl, le_rfl, ?_, ?_⟩
      · simp [hp.status, ProposalStatus.stage]
      · simp [hp.isFinal (.inl rfl)]
    exact ⟨le_rfl, hset hp.get rfl rfl hlater⟩
  | activate ctx hp =>
    exact ⟨le_rfl, hset hp.get rfl (inNextPeriod_proposalID _ _ _)
      (later_inNextPeriod _ _ (by rw [hp.status]; decide) (hp.isFinal (.inl rfl)))⟩
  | nextRound ctx hp =>
    exact ⟨le_rfl, hset hp.get rfl (inNextPeriod_proposalID _ _ _)
      (later_inNextPeriod _ _ (by rw [hp.status]; decide) (hp.isFinal (.inr (.inl rfl))))⟩
  | @remove g w w' t p hp _ =>
    refine ⟨le_rfl, fun id _ => ?_⟩
    have hget : ((g.removed p).settled p.proposalID).getProposal id =
        if id = p.proposalID then none else g.getProposal id := get_delete _ _ _
    rw [hget]
    split
    · rename_i hown
      refine .inl ⟨rfl, fun q hq => ?_⟩
      rw [hown, hp.get] at hq
      cases hq
      rw [hp.status]
      rfl
    · exact .refl _
  | veto hp _ =>
    exact ⟨le_rfl, hset hp.get rfl rfl
      (later_closed (hp.isFinal (.inr (.inr rfl))) (.inr (.inr rfl)))⟩
  | reject hp _ =>
    exact ⟨le_rfl, hset hp.inPeriod.1 rfl rfl (later_closed hp.isFinal (.inr (.inr rfl)))⟩
  | pass hp hstatus _ =>
    exact ⟨le_rfl, hset hp.inPeriod.1 rfl rfl
      (later_closed hp.isFinal (hstatus.imp_right .inl))⟩
  | passEarly hp _ hstatus _ =>
    exact ⟨le_rfl, hset hp.get rfl rfl
      (later_closed (hp.isFinal (.inr (.inl rfl))) (hstatus.imp_right .inl))⟩

/-- Nothing is asked of the other modules. -/
def freeRules : GovRules σ := ⟨fun _ _ => True, fun _ _ => True⟩

lemma freeRules_kept (k : ChainKeepers σ) : WorldKept k (freeRules (σ := σ)).other :=
  ⟨fun _ => trivial, fun _ => trivial, fun _ => trivial, fun _ => trivial⟩

lemma freeRules_allowed (k : ChainKeepers σ) (c : Chain σ) (e : Event σ) :
    GovAllowed k freeRules c e :=
  ⟨fun _ _ _ => trivial, fun _ _ _ _ _ _ _ _ _ => trivial⟩

variable {c c' : Chain σ} {es es' : List (Event σ)}

lemma exists_trace (ct : TracedChain σ)
    (hrun : run k ct.1 es = .ok c) : ∃ t, runTraced k ct es = .ok (c, t) := by
  rw [← runTraced_erase] at hrun
  cases htraced : runTraced k ct es with
  | error f =>
    rw [htraced] at hrun
    cases hrun
  | ok ct' =>
    rw [htraced] at hrun
    cases hrun
    exact ⟨ct'.2, rfl⟩

lemma run_govInvariant {P : GovState → Prop}
    (hmove : ∀ b b', GovSound b.1 → P b.1 → GovMove k freeRules b b' → P b'.1)
    (hsound : GovSound c.gov) (hP : P c.gov) (hrun : run k c es = .ok c') :
    GovSound c'.gov ∧ P c'.gov := by
  obtain ⟨t, htraced⟩ := exists_trace (c, []) hrun
  have hinv := runTraced_invariant freeRules (c, []) (C := fun _ => True) (d := fun _ _ => True)
    (P := fun b => P b.1) (freeRules_kept k) (fun _ _ _ _ _ => trivial) hmove
    (fun c e _ _ => freeRules_allowed k c e) hsound trivial hP
    (stepsMeet_of_forall _ _ (fun _ _ => trivial)) htraced
  exact ⟨hinv.1, hinv.2.2⟩

lemma run_livesOn (hsound : GovSound c.gov) (hrun : run k c es = .ok c') : c.gov.Later c'.gov := by
  refine (run_govInvariant (P := c.gov.Later) ?_ hsound ⟨le_rfl, fun id _ => .refl _⟩ hrun).2
  rintro b b' - ⟨hnext, hlive⟩ hmove
  obtain ⟨hnext', hlive'⟩ := hmove.livesOn
  exact ⟨hnext.trans hnext', fun id hid => (hlive id hid).trans (hlive' id (hid.trans_le hnext))⟩

/-- From every state of a run on, the proposals under the IDs given so far only move on. -/
theorem proposals_liveOn_of_run {params : ShieldParams} {govParams : GovParams} {world : σ}
    {ctx : Ctx} (hrun : run k (Chain.empty params govParams world ctx) es = .ok c)
    (hrun' : run k c es' = .ok c') : c.gov.Later c'.gov := by
  have hsound := (run_govInvariant (P := fun _ => True) (fun _ _ _ _ _ => trivial)
    (.empty govParams) trivial hrun).1
  exact run_livesOn hsound hrun'

/-- A claim of 20 is in the validators' round after one block and has passed after a second. -/
theorem proposals_liveOn_of_claim : ∃ c c' : Chain Ledger,
    run ledgerChainKeepers ledgerStart (txBlock 1 (coverMsgs ++ [claimMsg 20 5]) .pass).events =
      .ok c ∧ run ledgerChainKeepers c (txBlock 20 [] .pass).events = .ok c' ∧
    (c.gov.getProposal 1).map (·.status) = some .validatorVotingPeriod ∧
    (c'.gov.getProposal 1).map (·.status) = some .passed ∧
    LivesOn (c.gov.getProposal 1) (c'.gov.getProposal 1) := by
  obtain ⟨c, hc, hid, hp, c', hc', hq⟩ : ∃ c : Chain Ledger,
      run ledgerChainKeepers ledgerStart (txBlock 1 (coverMsgs ++ [claimMsg 20 5]) .pass).events =
        .ok c ∧ 1 < c.gov.nextProposalID ∧
      (c.gov.getProposal 1).map (·.status) = some .validatorVotingPeriod ∧
      ∃ c', run ledgerChainKeepers c (txBlock 20 [] .pass).events = .ok c' ∧
        (c'.gov.getProposal 1).map (·.status) = some .passed := by
    decide +kernel
  exact ⟨c, c', hc, hc', hp, hq, (proposals_liveOn_of_run hc hc').2 1 hid⟩

end Shentu
