import Shentu.ProposalLife

/-!
When the handler of a proposal is called. A software upgrade or a claim has to pass the
count of the certifiers and then the count of the stake, a certifier update one of the
two, and every other proposal the count of the stake. The handler is called once, and a
proposal that has ended is not changed any more.
-/

namespace Shentu

open Lib List Table

variable {σ : Type}

/-- Whether the entry is a count for a proposal or the call of its handler. -/
def GovEntry.votesOn (id : Nat) : GovEntry → Bool
  | .moved _ _ => false
  | .securityTally i _ | .stakeTally i _ | .executed i _ => decide (i = id)

/-- The counts for a proposal and the calls of its handler. -/
def history (id : Nat) (t : Trace) : Trace := t.filter (GovEntry.votesOn id)

lemma history_append (id : Nat) (t t' : Trace) :
    history id (t ++ t') = history id t ++ history id t' :=
  filter_append t t'

lemma history_moved (id : Nat) (kind : DepositKind) (ds : List Deposit) :
    history id (ds.map (.moved kind)) = [] := by
  refine filter_eq_nil_iff.mpr (forall_mem_map.mpr ?_)
  intro d _
  simp [GovEntry.votesOn]

variable {id : Nat} {e : GovEntry} {k : ChainKeepers σ} {es : List (Event σ)} {c : Chain σ}
  {content : Content}

lemma history_self (h : e.votesOn id = true) : history id [e] = [e] := by
  simp [history, h]

lemma history_other (h : e.votesOn id = false) : history id [e] = [] := by
  simp [history, h]

@[simp] lemma history_securityTally (id : Nat) (pass : Bool) :
    history id [.securityTally id pass] = [.securityTally id pass] :=
  history_self (by simp [GovEntry.votesOn])

@[simp] lemma history_stakeTally (id : Nat) (result : StakeTally) :
    history id [.stakeTally id result] = [.stakeTally id result] :=
  history_self (by simp [GovEntry.votesOn])

@[simp] lemma history_executed (id : Nat) (content : Content) :
    history id [.executed id content] = [.executed id content] :=
  history_self (by simp [GovEntry.votesOn])

/-- The handler of a proposal is not called. -/
def NotExecuted (id : Nat) (t : Trace) : Prop := ∀ content, .executed id content ∉ t

variable {t : Trace}

lemma NotExecuted.append {t' : Trace} (h : NotExecuted id t)
    (h' : NotExecuted id t') : NotExecuted id (t ++ t') := by
  intro content hmem
  rcases mem_append.mp hmem with hmem | hmem
  · exact h content hmem
  · exact h' content hmem

lemma notExecuted_nil (id : Nat) : NotExecuted id [] := fun _ hmem => by cases hmem

/-- A proposal has passed the counts that its content asks for, in their order. -/
def Tallied (id : Nat) : Content → Trace → Prop
  | .shieldClaim _, t | .softwareUpgrade _, t => ∃ t₁ t₂, t = t₁ ++ t₂ ∧
      .securityTally id true ∈ t₁ ∧ .stakeTally id .pass ∈ t₂
  | .certifierUpdate _, t => .securityTally id true ∈ t ∨ .stakeTally id .pass ∈ t
  | .other _, t => .stakeTally id .pass ∈ t

/-- A content that has to pass both rounds. -/
def Content.needsBothRounds : Content → Bool
  | .shieldClaim _ | .softwareUpgrade _ => true
  | _ => false

/-- What the history of a proposal is at each stage of its life. -/
def Stage (id : Nat) (o : Option Proposal) (h : Trace) : Prop :=
  match o with
  | none => h = []
  | some p =>
    match p.status with
    | .depositPeriod => h = []
    | .certifierVotingPeriod | .rejected => NotExecuted id h
    | .validatorVotingPeriod => NotExecuted id h ∧
        (p.content.needsBothRounds = true → .securityTally id true ∈ h)
    | .passed | .failed => ∃ h₁, h = h₁ ++ [.executed id p.content] ∧ NotExecuted id h₁ ∧
        Tallied id p.content h₁

/-- Every proposal is at a stage that its history allows. -/
def StagesSound (g : GovState) (t : Trace) : Prop :=
  ∀ id, Stage id (g.getProposal id) (history id t)

section Moves

variable {g g' : GovState} {t t' : Trace} {p p' : Proposal}

lemma StagesSound.notExecuted (h : StagesSound g t) (hp : g.getProposal p.proposalID = some p)
    (hopen : p.isOpen = true) : NotExecuted p.proposalID (history p.proposalID t) := by
  have hstage := h p.proposalID
  rw [hp] at hstage
  rcases (isOpen_iff p).mp hopen with hstatus | hstatus
  · simpa only [Stage, hstatus] using hstage
  · simp only [Stage, hstatus] at hstage
    exact hstage.1

variable {id id' : Nat} {pass : Bool} {entry : GovEntry}

lemma StagesSound.step (h : StagesSound g t) (honly : OnlyProposal id g g')
    (entries : Trace) (hown : ∀ id', id' ≠ id → history id' entries = [])
    (hstage : Stage id (g'.getProposal id) (history id t ++ history id entries)) :
    StagesSound g' (t ++ entries) := by
  intro id'
  rw [history_append]
  by_cases hid : id' = id
  · subst hid
    exact hstage
  · rw [hown id' hid, append_nil, honly id' hid]
    exact h id'

lemma Counted.votesOn (h : Counted g p pass entry) (id : Nat) :
    entry.votesOn id = decide (p.proposalID = id) := by
  cases h <;> rfl

lemma Counted.history_self (h : Counted g p pass entry) : history p.proposalID [entry] = [entry] :=
  Shentu.history_self (by rw [h.votesOn]; exact decide_eq_true rfl)

lemma Counted.history_ne (h : Counted g p pass entry)
    (hne : id ≠ p.proposalID) : history id [entry] = [] :=
  history_other (by rw [h.votesOn]; exact decide_eq_false hne.symm)

lemma Counted.notExecuted (h : Counted g p pass entry) : NotExecuted p.proposalID [entry] := by
  cases h <;> simp [NotExecuted]

lemma Counted.tallied (h : Counted g p true entry)
    (hstage : Stage p.proposalID (some p) t) : Tallied p.proposalID p.content (t ++ [entry]) := by
  cases h with
  | security hp hcert =>
    cases hcontent : p.content with
    | certifierUpdate certifierAlias => exact .inl (by simp)
    | _ =>
      rw [hcontent] at hcert
      cases hcert
  | stakePass hp =>
    simp only [Stage, hp.status] at hstage
    obtain ⟨-, hsecurity⟩ := hstage
    cases hcontent : p.content with
    | shieldClaim claim =>
      exact ⟨t, _, rfl, hsecurity (by rw [hcontent]; rfl), by simp⟩
    | softwareUpgrade plan =>
      exact ⟨t, _, rfl, hsecurity (by rw [hcontent]; rfl), by simp⟩
    | certifierUpdate certifierAlias => exact .inr (by simp)
    | other title =>
      show _ ∈ _
      simp

lemma activateVotingPeriod_get (g : GovState) (ctx : Ctx) (p : Proposal) :
    (g.activateVotingPeriod ctx p).getProposal p.proposalID =
      some (GovState.inNextPeriod ctx g.params.votingPeriod p) := by
  have hget := get_set_self g.proposals (GovState.inNextPeriod ctx g.params.votingPeriod p)
  rwa [inNextPeriod_proposalID] at hget

lemma StagesSound.setProposal (h : StagesSound g t) (hp : g.getProposal p'.proposalID = some p)
    (hstatus : p'.status = p.status) (hcontent : p'.content = p.content) :
    StagesSound (g.setProposal p') t := by
  intro id
  by_cases hid : id = p'.proposalID
  · subst hid
    have hstage := h p'.proposalID
    have hget : (g.setProposal p').getProposal p'.proposalID = some p' := get_set_self _ _
    rw [hp] at hstage
    rw [hget]
    simpa only [Stage, hstatus, hcontent] using hstage
  · have hget : (g.setProposal p').getProposal id = g.getProposal id := get_set_of_ne _ hid
    rw [hget]
    exact h id

/-- The first voting period of a proposal. -/
lemma StagesSound.activate (h : StagesSound g t) (hp : InPeriod g p .depositPeriod) (ctx : Ctx) :
    StagesSound (g.activateVotingPeriod ctx p) t := by
  have hnil : history p.proposalID t = [] := by
    have hstage := h p.proposalID
    rw [hp.get] at hstage
    simpa only [Stage, hp.status] using hstage
  have hstep := h.step (onlyProposal_activate g ctx p) [] (fun _ _ => rfl)
  rw [append_nil] at hstep
  refine hstep ?_
  rw [activateVotingPeriod_get, hnil]
  have hne : p.status ≠ .certifierVotingPeriod := by
    rw [hp.status]
    decide
  unfold GovState.inNextPeriod
  split
  · exact notExecuted_nil _
  · rename_i hsecond
    refine ⟨notExecuted_nil _, ?_⟩
    intro hboth
    exfalso
    refine hsecond ⟨?_, hne⟩
    unfold Proposal.hasSecurityVoting
    cases hcontent : p.content with
    | other title =>
      rw [hcontent] at hboth
      cases hboth
    | _ => rfl

lemma StagesSound.nextRound (h : StagesSound g t) (hp : InPeriod g p .certifierVotingPeriod)
    (ctx : Ctx) : StagesSound (g.activateVotingPeriod ctx p)
      (t ++ [.securityTally p.proposalID (!p.content.isCertifierUpdate)]) := by
  refine h.step (onlyProposal_activate g ctx p) _
    (fun _ hne => history_other (decide_eq_false hne.symm)) ?_
  have hnot := h.notExecuted hp.get (hp.isOpen (.inl rfl))
  rw [activateVotingPeriod_get, history_securityTally]
  simp only [Stage, nextRound_status ctx _ hp.status, inNextPeriod_content]
  refine ⟨hnot.append (by simp [NotExecuted]), ?_⟩
  intro hboth
  have hcert : p.content.isCertifierUpdate = false := by
    cases hcontent : p.content with
    | certifierUpdate certifierAlias =>
      rw [hcontent] at hboth
      cases hboth
    | _ => rfl
  rw [hcert]
  simp

lemma StagesSound.close (h : StagesSound g t) {status : ProposalStatus} (entries : Trace)
    (hproposals : g'.proposals = g.proposals.set { p with status := status })
    (hown : ∀ id', id' ≠ p.proposalID → history id' entries = [])
    (hstage : Stage p.proposalID (some { p with status := status })
      (history p.proposalID t ++ history p.proposalID entries)) :
    StagesSound g' (t ++ entries) := by
  have hget : ∀ id, g'.getProposal id = (g.proposals.set { p with status := status }).get id := by
    intro id
    rw [GovState.getProposal, hproposals]
  refine h.step (fun id hne => (hget id).trans (get_set_of_ne _ hne)) entries hown ?_
  rw [hget]
  have hself : (g.proposals.set { p with status := status }).get p.proposalID =
      some { p with status := status } := get_set_self _ _
  rw [hself]
  exact hstage

end Moves

lemma history_settlement (id : Nat) (e : GovEntry) (kind : DepositKind) (ds : List Deposit) :
    history id ([e] ++ ds.map (.moved kind)) = history id [e] := by
  rw [history_append, history_moved, append_nil]

lemma stage_executed {p : Proposal} {status : ProposalStatus}
    (hstatus : status = .passed ∨ status = .failed) (hnot : NotExecuted p.proposalID t)
    (htallied : Tallied p.proposalID p.content t) :
    Stage p.proposalID (some { p with status := status })
      (t ++ [.executed p.proposalID p.content]) := by
  rcases hstatus with rfl | rfl <;> exact ⟨t, rfl, hnot, htallied⟩

lemma GovMove.stagesSound {rules : GovRules σ}
    {b b' : GovState × σ × Trace} (hmove : GovMove k rules b b') (hsound : GovSound b.1)
    (h : StagesSound b.1 b.2.2) : StagesSound b'.1 b'.2.2 := by
  cases hmove with
  | other _ => exact h
  | @submit g w t ctx content proposer isCouncilMember =>
    have honly : OnlyProposal g.nextProposalID g
        (g.newProposal ctx content proposer isCouncilMember).2 :=
      fun _ hne => get_set_of_ne _ hne
    have hstep := h.step honly [] (fun _ _ => rfl)
    rw [append_nil] at hstep
    refine hstep ?_
    have hstage := h g.nextProposalID
    rw [hsound.getProposal_next] at hstage
    have hget : (g.newProposal ctx content proposer isCouncilMember).2.getProposal
        g.nextProposalID = some (g.newProposal ctx content proposer isCouncilMember).1 :=
      get_set_self _ _
    rw [hget, show history g.nextProposalID t = [] from hstage]
    exact rfl
  | @deposit g w w' t p depositor amount hp _ _ =>
    have hset : StagesSound (g.setProposal { p with
        totalDeposit := p.totalDeposit.add amount }) t := h.setProposal hp.get rfl rfl
    intro id
    rw [history_append, history_other rfl, append_nil]
    exact hset id
  | activate ctx hp => exact h.activate hp ctx
  | nextRound ctx hp => exact h.nextRound hp ctx
  | @count g w t p hp =>
    have hstage := h.notExecuted hp.get (hp.isOpen (.inl rfl))
    refine h.step (fun _ _ => rfl) _ (fun _ hne => history_other (decide_eq_false hne.symm)) ?_
    rw [hp.get, history_securityTally]
    simp only [Stage, hp.status]
    exact hstage.append (by simp [NotExecuted])
  | @remove g w w' t p hp _ =>
    have hstage := h p.proposalID
    rw [hp.get] at hstage
    simp only [Stage, hp.status] at hstage
    have honly : OnlyProposal p.proposalID g ((g.removed p).settled p.proposalID) :=
      fun _ hne => get_delete_of_ne _ hne
    refine h.step honly _ (fun id' _ => history_moved id' _ _) ?_
    have hget : ((g.removed p).settled p.proposalID).getProposal p.proposalID = none :=
      get_delete_self _ _
    rw [hget, history_moved, hstage]
    rfl
  | @veto g w w' t p hp _ =>
    have hnot := h.notExecuted hp.get (hp.isOpen (.inr rfl))
    rw [append_assoc]
    refine h.close _ rfl ?_ ?_
    · intro id' hne
      rw [history_settlement]
      exact history_other (decide_eq_false hne.symm)
    · rw [history_settlement, history_stakeTally]
      exact hnot.append (by simp [NotExecuted])
  | @reject g w w' t p entry hcounted _ =>
    have hnot := h.notExecuted hcounted.inPeriod.1 hcounted.inPeriod.2
    rw [append_assoc]
    refine h.close _ rfl ?_ ?_
    · intro id' hne
      rw [history_settlement]
      exact hcounted.history_ne hne
    · rw [history_settlement, hcounted.history_self]
      exact hnot.append hcounted.notExecuted
  | @pass g w w' t p entry status hcounted hstatus _ =>
    have hnot := h.notExecuted hcounted.inPeriod.1 hcounted.inPeriod.2
    have hstage := h p.proposalID
    rw [hcounted.inPeriod.1] at hstage
    rw [append_assoc, append_assoc]
    refine h.close _ rfl ?_ ?_
    · intro id' hne
      rw [history_append, history_append, history_moved, hcounted.history_ne hne,
        history_other (e := .executed _ _) (decide_eq_false hne.symm)]
      rfl
    · rw [history_append, history_append, history_moved, hcounted.history_self,
        history_executed, nil_append, ← append_assoc]
      exact stage_executed hstatus (hnot.append hcounted.notExecuted) (hcounted.tallied hstage)
  | @passEarly g w t p status hp hcert hstatus _ =>
    have hnot := h.notExecuted hp.get (hp.isOpen (.inl rfl))
    have hstage := h p.proposalID
    rw [hp.get] at hstage
    rw [append_assoc]
    refine h.close _ rfl ?_ ?_
    · intro id' hne
      rw [history_append, history_other (e := .securityTally _ _) (decide_eq_false hne.symm),
        history_other (e := .executed _ _) (decide_eq_false hne.symm)]
      rfl
    · rw [history_append, history_securityTally, history_executed, ← append_assoc]
      exact stage_executed hstatus (hnot.append (by simp [NotExecuted]))
        ((Counted.security hp hcert).tallied hstage)

lemma runTraced_stages {ct ct' : TracedChain σ}
    (hsound : GovSound ct.1.gov) (h : StagesSound ct.1.gov ct.2)
    (hrun : runTraced k ct es = .ok ct') : GovSound ct'.1.gov ∧ StagesSound ct'.1.gov ct'.2 := by
  have hinv := runTraced_invariant freeRules ct (C := fun _ => True) (d := fun _ _ => True)
    (P := fun b => StagesSound b.1 b.2.2) (freeRules_kept k) (fun _ _ _ _ _ => trivial)
    (fun _ _ hs hP hmove => hmove.stagesSound hs hP) (fun c e _ _ => freeRules_allowed k c e)
    hsound trivial h (stepsMeet_of_forall _ _ (fun _ _ => trivial)) hrun
  exact ⟨hinv.1, hinv.2.2⟩

lemma run_final {c' : Chain σ}
    (hsound : GovSound c.gov) {p : Proposal} (hp : c.gov.getProposal id = some p)
    (hfinal : p.isFinal = true) (hrun : run k c es = .ok c') : c'.gov.getProposal id = some p := by
  have hlive := (run_livesOn hsound hrun).2 id ((hsound id).fresh p hp)
  rw [hp] at hlive
  have hstage : 0 < p.status.stage := by
    cases hstatus : p.status <;> simp_all [Proposal.isFinal, ProposalStatus.stage]
  obtain ⟨q, hq, hlater⟩ := hlive.later hstage
  rw [hq, hlater.final hfinal]

/-- An execution in a trace comes after the counts it needs, and there is no other one. -/
structure ExecutedOnce (c : Chain σ) (t₁ t₂ : Trace) (id : Nat) (content : Content) : Prop where
  tallied : Tallied id content t₁
  before : NotExecuted id t₁
  after : NotExecuted id t₂
  stored : ∃ p, c.gov.getProposal id = some p ∧ p.content = content ∧
    (p.status = .passed ∨ p.status = .failed)

lemma mem_history (he : e ∈ history id t) : e ∈ t :=
  (mem_filter.mp he).1

lemma executed_mem_history (h : .executed id content ∈ t) : .executed id content ∈ history id t :=
  mem_filter.mpr ⟨h, decide_eq_true rfl⟩

lemma tallied_of_history (h : Tallied id content (history id t)) : Tallied id content t := by
  have hboth : (∃ t1 t2, history id t = t1 ++ t2 ∧ .securityTally id true ∈ t1 ∧
      .stakeTally id .pass ∈ t2) → ∃ t1 t2, t = t1 ++ t2 ∧ .securityTally id true ∈ t1 ∧
      .stakeTally id .pass ∈ t2 := by
    rintro ⟨h1, h2, heq, hsecurity, hstake⟩
    obtain ⟨t1, t2, rfl, rfl, rfl⟩ := filter_eq_append_iff.mp heq
    exact ⟨t1, t2, rfl, mem_history hsecurity, mem_history hstake⟩
  cases content with
  | shieldClaim | softwareUpgrade => exact hboth h
  | certifierUpdate certifierAlias => exact h.imp mem_history mem_history
  | other title => exact mem_history h

lemma eq_of_append_cons_eq_concat {α : Type} {l1 l2 h1 : List α} {x y : α}
    (heq : l1 ++ x :: l2 = h1 ++ [y]) (hx : x ∉ h1) : l1 = h1 ∧ x = y ∧ l2 = [] := by
  rcases eq_nil_or_concat l2 with rfl | ⟨l3, z, rfl⟩
  · obtain ⟨hinit, hlast⟩ := append_inj' heq rfl
    exact ⟨hinit, singleton_inj.mp hlast, rfl⟩
  · exfalso
    have hassoc : (l1 ++ x :: l3) ++ [z] = h1 ++ [y] := by
      rw [← heq]
      simp
    obtain ⟨rfl, -⟩ := append_inj' hassoc rfl
    exact hx (by simp)

lemma StagesSound.executedOnce {t1 t2 : Trace}
    (h : StagesSound c.gov (t1 ++ .executed id content :: t2)) :
    ExecutedOnce c t1 t2 id content := by
  have hstage := h id
  have hsplit : history id (t1 ++ .executed id content :: t2) =
      history id t1 ++ .executed id content :: history id t2 := by
    rw [history_append, ← singleton_append, history_append, history_executed]
    rfl
  rw [hsplit] at hstage
  have hexecuted : .executed id content ∈ history id t1 ++ .executed id content :: history id t2 :=
    by simp
  have hnone : ∀ {h1 : Trace}, NotExecuted id (history id h1) → NotExecuted id h1 :=
    fun hnot content' hmem => hnot content' (executed_mem_history hmem)
  -- Only the stages of a passed and a failed proposal have an execution in their history.
  have hpassed : ∀ p, c.gov.getProposal id = some p → (p.status = .passed ∨ p.status = .failed) →
      (∃ h1, history id t1 ++ .executed id content :: history id t2 =
        h1 ++ [.executed id p.content] ∧ NotExecuted id h1 ∧ Tallied id p.content h1) →
      ExecutedOnce c t1 t2 id content := by
    rintro p hp hstatus ⟨h1, heq, hnot, htallied⟩
    obtain ⟨rfl, hcontent, hnil⟩ := eq_of_append_cons_eq_concat heq (hnot content)
    cases hcontent
    refine ⟨tallied_of_history htallied, hnone hnot, hnone ?_, p, hp, rfl, hstatus⟩
    rw [hnil]
    exact notExecuted_nil id
  cases hp : c.gov.getProposal id with
  | none =>
    rw [hp] at hstage
    rw [show _ = [] from hstage] at hexecuted
    cases hexecuted
  | some p =>
    rw [hp] at hstage
    cases hstatus : p.status <;> simp only [Stage, hstatus] at hstage
    case depositPeriod =>
      rw [hstage] at hexecuted
      cases hexecuted
    case certifierVotingPeriod => exact absurd hexecuted (hstage content)
    case validatorVotingPeriod => exact absurd hexecuted (hstage.1 content)
    case passed => exact hpassed p hp (.inl hstatus) hstage
    case rejected => exact absurd hexecuted (hstage content)
    case failed => exact hpassed p hp (.inr hstatus) hstage

lemma StagesSound.empty (params : GovParams) : StagesSound (GovState.empty params) [] := by
  intro id
  rfl

/-- Every run from an empty chain has a trace in which each execution comes after the counts that
its content needs and is the only one for its proposal, and a proposal that has ended is the same
in every further run. -/
theorem twoRounds_of_run {k : ChainKeepers σ} {params : ShieldParams} {govParams : GovParams}
    {world : σ} {ctx : Ctx} {es : List (Event σ)} {c : Chain σ}
    (hrun : run k (Chain.empty params govParams world ctx) es = .ok c) :
    (∃ t, runTraced k (Chain.empty params govParams world ctx, []) es = .ok (c, t) ∧
      ∀ t₁ t₂ id content, t = t₁ ++ .executed id content :: t₂ →
        ExecutedOnce c t₁ t₂ id content) ∧
      ∀ id p es' c', c.gov.getProposal id = some p → p.isFinal = true → run k c es' = .ok c' →
        c'.gov.getProposal id = some p := by
  obtain ⟨t, htraced⟩ := exists_trace (.empty params govParams world ctx, []) hrun
  obtain ⟨hsound, hstages⟩ := runTraced_stages (.empty govParams) (.empty govParams) htraced
  refine ⟨⟨t, htraced, ?_⟩, ?_⟩
  · rintro t₁ t₂ id content rfl
    exact hstages.executedOnce
  · intro id p es' c' hp hfinal hrun'
    exact run_final hsound hp hfinal hrun'

/-- The events of a claim of 20 that passes the certifiers' round at once and the second round at
its end. -/
def paidClaimEvents : List (Event Ledger) :=
  (txBlock 1 (coverMsgs ++ [claimMsg 20 5]) .pass).events ++ (txBlock 20 [] .pass).events

/-- The claim is paid: its handler is called once, after both counts. -/
theorem twoRounds_of_paid_claim : ∃ (c : Chain Ledger) (t₁ : Trace) (content : Content),
      runTraced ledgerChainKeepers (ledgerStart, []) paidClaimEvents =
        .ok (c, t₁ ++ [.executed 1 content]) ∧ content.isShieldClaim = true ∧
      ExecutedOnce c t₁ [] 1 content := by
  obtain ⟨⟨c, t⟩, hc, rfl⟩ : ∃ ct, runTraced ledgerChainKeepers (ledgerStart, []) paidClaimEvents =
        .ok ct ∧
      ct.2 = [.moved .deposited ⟨1, 5, []⟩, .securityTally 1 true, .stakeTally 1 .pass, .moved
        .refunded ⟨1, 5, []⟩] ++ [.executed 1 (.shieldClaim ⟨1, 1, 2, uctk 20, 5⟩)] := by
    decide +kernel
  have hplain : run ledgerChainKeepers ledgerStart paidClaimEvents = .ok c := by
    rw [← runTraced_erase ledgerChainKeepers (ledgerStart, []), hc]
    rfl
  obtain ⟨⟨t, ht, hexecuted⟩, -⟩ := twoRounds_of_run hplain
  cases hc.symm.trans ht
  exact ⟨c, _, _, hc, rfl, hexecuted _ _ _ _ rfl⟩

end Shentu
