import Shentu.GovMoves

/-!
Every event of the traced chain is a sequence of moves of the gov module and changes
of the rest of the world. An invariant of the moves is then an invariant of the traced
runs, under conditions on the events that say what the other modules may do.
-/

namespace Shentu

open Lib Table GovState

variable {σ : Type}

section EndBlocker

variable {k : ChainKeepers σ} {rules : GovRules σ} {ct ct' : TracedChain σ} {tallies : Tallies}

lemma GovMoves.govSound {b b' : GovState × σ × Trace} (h : GovMoves k rules b b')
    (hsound : GovSound b.1) : GovSound b'.1 :=
  reflTransGen_invariant (P := fun b : GovState × σ × Trace => GovSound b.1)
    (fun _ _ hs hmove => hmove.govSound hs) h hsound

/-- The proposals in the certifiers' round are the same as before. -/
def RoundKept (g g' : GovState) : Prop :=
  ∀ id p, g'.getProposal id = some p → p.status = .certifierVotingPeriod →
    g.getProposal id = some p

lemma RoundKept.step {g g1 g2 : GovState} {id : Nat} (h : RoundKept g g1)
    (honly : OnlyProposal id g1 g2)
    (hleft : ∀ p, g2.getProposal id = some p → p.status ≠ .certifierVotingPeriod) :
    RoundKept g g2 := by
  intro id' p hp hstatus
  by_cases hid : id' = id
  · subst hid
    exact absurd hstatus (hleft p hp)
  · exact h id' p ((honly id' hid).symm.trans hp) hstatus

/-- The proposals without enough deposit are removed. -/
lemma removeInactiveTraced_steps (rules : GovRules σ) (ct : TracedChain σ)
    (hsound : GovSound ct.1.gov) {gwt : GovState × σ × Trace}
    (h : (GovState.queueUntil ct.1.gov.inactiveProposalQueue ct.1.ctx.blockTime).foldlM
      (GovState.removeInactiveTraced k.toKeepers) ct.book = .ok gwt) :
    TracedStep k rules ct (ct.withGov gwt) ∧ RoundKept ct.1.gov gwt.1 := by
  have hloop : GovMoves k rules ct.book gwt ∧ RoundKept ct.1.gov gwt.1 ∧
      ∀ d ∈ gwt.1.deposits.rows, d ∈ ct.1.gov.deposits.rows := by
    refine foldlM_distinct (P := fun b : GovState × σ × Trace => GovMoves k rules ct.book b ∧
        RoundKept ct.1.gov b.1 ∧ ∀ d ∈ b.1.deposits.rows, d ∈ ct.1.gov.deposits.rows)
      (Q := fun b id => b.1.getProposal id = ct.1.gov.getProposal id)
      ?_ ⟨.refl, fun _ _ hp _ => hp, fun _ hd => hd⟩ (fun _ _ => rfl)
      (hsound.inactive_nodup _) h
    rintro id hid ⟨g1, w1, t1⟩ ⟨g2, w2, t2⟩ ⟨hmoves, hround, hdeposits⟩ hsame hstep
    obtain ⟨time, -, hkey⟩ := mem_queueUntil.mp hid
    obtain ⟨p, hp, hstatus, -⟩ := (hsound id).inactive time hkey
    obtain rfl : p.proposalID = id := key_of_get hp
    obtain ⟨hmove, rfl⟩ := removeInactiveTraced_step rules ⟨hsame.trans hp, hstatus⟩ hstep
    have honly : OnlyProposal p.proposalID g1 ((g1.removed p).settled p.proposalID) :=
      fun _ hne => get_delete_of_ne _ hne
    refine ⟨⟨hmoves.tail hmove, hround.step honly ?_, fun d hd => hdeposits d (mem_settled hd)⟩,
      fun id' hne heq => (honly id' hne).trans heq⟩
    intro q hq
    cases (get_delete_self g1.proposals p.proposalID).symm.trans hq
  obtain ⟨hmoves, hround, hdeposits⟩ := hloop
  exact ⟨⟨hmoves, rfl, hdeposits⟩, hround⟩

/-- The proposals whose voting period has ended are counted. None of them is in the certifiers'
round afterwards. -/
lemma processActiveTraced_steps (hkept : WorldKept k rules.other) (hsound : GovSound ct.1.gov)
    (h : (GovState.queueUntil ct.1.gov.activeProposalQueue ct.1.ctx.blockTime).foldlM
      (processActiveTraced k tallies) ct = .ok ct') :
    TracedStep k rules ct ct' ∧ RoundKept ct.1.gov ct'.1.gov ∧
      ∀ p, InPeriod ct'.1.gov p .certifierVotingPeriod → ct.1.ctx.blockTime < p.votingEndTime := by
  have hloop := foldlM_distinct_each
    (P := fun ct1 => TracedStep k rules ct ct1 ∧ RoundKept ct.1.gov ct1.1.gov)
    (Q := fun ct1 id => ct1.1.gov.getProposal id = ct.1.gov.getProposal id)
    (R := fun ct1 id => ∀ p, ct1.1.gov.getProposal id = some p → p.status ≠ .certifierVotingPeriod)
    ?_ ⟨TracedStep.refl ct, fun _ _ hp _ => hp⟩ (fun _ _ => rfl) (hsound.active_nodup _) h
  · obtain ⟨⟨hstep, hround⟩, hleft⟩ := hloop
    refine ⟨hstep, hround, ?_⟩
    intro p hp
    by_contra hdue
    have hold := hround _ p hp.get hp.status
    have hqueued := (hsound p.proposalID).queued p hold (hp.isOpen (.inl rfl))
    exact hleft p.proposalID (mem_queueUntil.mpr ⟨_, not_lt.mp hdue, hqueued⟩) p hp.get
      hp.status
  · rintro id hid ct1 ct2 ⟨hstep, hround⟩ hsame hprocess
    obtain ⟨time, -, hkey⟩ := mem_queueUntil.mp hid
    obtain ⟨p, hp, hopen, -⟩ := (hsound id).active time hkey
    obtain rfl : p.proposalID = id := key_of_get hp
    obtain ⟨hnext, honly, hleft⟩ := processActiveTraced_step hkept (hsame.trans hp) hopen hprocess
    refine ⟨⟨hstep.trans hnext, hround.step honly hleft⟩, hleft, ?_⟩
    intro id' hne
    refine ⟨fun heq => (honly id' hne).trans heq, ?_⟩
    intro hold q hq
    exact hold q ((honly id' hne).symm.trans hq)

/-- A certifier update that passes before the end of the certifiers' round may stay unsettled. -/
def EarlyAllowed (rules : GovRules σ) (tallies : Tallies) (c : Chain σ) : Prop :=
  ∀ p, InPeriod c.gov p .certifierVotingPeriod → p.content.isCertifierUpdate = true →
    c.ctx.blockTime < p.votingEndTime → tallies.security p.proposalID = true →
    ∀ g : GovState, (∀ d ∈ g.deposits.rows, d ∈ c.gov.deposits.rows) →
      rules.unsettled g p.proposalID

/-- The rounds of the certifiers that pass are ended. -/
lemma processSecurityTraced_steps (hkept : WorldKept k rules.other) (hsound : GovSound ct.1.gov)
    {time : Time}
    (hearly : ∀ p, InPeriod ct.1.gov p .certifierVotingPeriod →
      p.content.isCertifierUpdate = true → tallies.security p.proposalID = true →
      ∀ g : GovState, (∀ d ∈ g.deposits.rows, d ∈ ct.1.gov.deposits.rows) →
        rules.unsettled g p.proposalID)
    (h : (GovState.queueUntil ct.1.gov.activeProposalQueue time).foldlM
      (processSecurityTraced k tallies) ct = .ok ct') : TracedStep k rules ct ct' := by
  refine foldlM_distinct (P := fun ct1 => TracedStep k rules ct ct1)
    (Q := fun ct1 id => ct1.1.gov.getProposal id = ct.1.gov.getProposal id)
    ?_ (.refl ct) (fun _ _ => rfl) (hsound.active_nodup _) h
  intro id hid ct1 ct2 hstep hsame hprocess
  obtain ⟨time', -, hkey⟩ := mem_queueUntil.mp hid
  obtain ⟨p, hp, -, -⟩ := (hsound id).active time' hkey
  obtain rfl : p.proposalID = id := key_of_get hp
  obtain ⟨hnext, honly⟩ := processSecurityTraced_step hkept (hsame.trans hp)
    (fun hstatus hcert hpass => hearly p ⟨hp, hstatus⟩ hcert hpass _ hstep.deposits) hprocess
  exact ⟨hstep.trans hnext, fun id' hne heq => (honly id' hne).trans heq⟩

/-- The end blocker of the gov module. -/
lemma govEndBlockerTraced_step (hkept : WorldKept k rules.other) (hsound : GovSound ct.1.gov)
    (hearly : EarlyAllowed rules tallies ct.1)
    (h : govEndBlockerTraced k tallies ct = .ok ct') : TracedStep k rules ct ct' := by
  obtain ⟨c, t⟩ := ct
  simp only [govEndBlockerTraced, bind_eq_ok] at h
  obtain ⟨gwt, hremove, ct2, hactive, hsecurity⟩ := h
  obtain ⟨hfirst, hround⟩ := removeInactiveTraced_steps rules (c, t) hsound hremove
  have hsound1 : GovSound (TracedChain.withGov (c, t) gwt).1.gov := hfirst.moves.govSound hsound
  obtain ⟨hsecond, hround2, hlater⟩ := processActiveTraced_steps hkept hsound1 hactive
  have hsound2 : GovSound ct2.1.gov := hsecond.moves.govSound hsound1
  have hboth := hfirst.trans hsecond
  refine hboth.trans (processSecurityTraced_steps hkept hsound2 ?_ hsecurity)
  intro p hp hcert hpass g hg
  have hold := hround _ p (hround2 _ p hp.get hp.status) hp.status
  exact hearly p ⟨hold, hp.status⟩ hcert (hlater p hp) hpass g
    (fun d hd => hboth.deposits d (hg d hd))

end EndBlocker

section Messages

variable {k : ChainKeepers σ} {rules : GovRules σ} {ct ct' : TracedChain σ}

/-- A deposit, and the first voting period when it is enough. -/
lemma addDepositTraced_moves {ctx : Ctx} {g : GovState} {w : σ} {t : Trace} {id : Nat}
    {depositor : AccAddress} {amount : Coins} {b : GovState × σ × Trace}
    (hvalid : Coins.isValid amount)
    (h : g.addDepositTraced k.toKeepers ctx (w, t) id depositor amount = .ok b) :
    GovMoves k rules (g, w, t) b := by
  simp only [GovState.addDepositTraced, GovState.addDeposit, run_eq_ok, not_or, not_not] at h
  obtain ⟨_, ⟨p, hp, ⟨hstatus, -⟩, w', hsend, rfl⟩, rfl⟩ := h
  obtain rfl : p.proposalID = id := key_of_get hp
  have hmove : GovMove k rules (g, w, t)
      ((g.setProposal { p with totalDeposit := p.totalDeposit.add amount }).upsertDeposit
        p.proposalID depositor amount, w',
        t ++ [.moved .deposited ⟨p.proposalID, depositor, amount⟩]) :=
    GovMove.deposit ⟨hp, hstatus⟩ hvalid hsend
  split
  · refine (Relation.ReflTransGen.single hmove).tail ?_
    exact .activate (p := { p with totalDeposit := p.totalDeposit.add amount }) ctx
      ⟨get_set_self _ _, hstatus⟩
  · exact Relation.ReflTransGen.single hmove

lemma openProposalTraced_moves {p : Proposal} {initialDeposit : Coins}
    (hp : InPeriod ct.1.gov p .depositPeriod) (hvalid : Coins.isValid initialDeposit)
    (h : openProposalTraced k ct p initialDeposit = .ok ct') :
    GovMoves k rules ct.book ct'.book := by
  unfold openProposalTraced at h
  split at h
  · cases h
    exact .single (.activate ct.1.ctx hp)
  · simp only [run_eq_ok] at h
    obtain ⟨b, hdeposit, rfl⟩ := h
    exact addDepositTraced_moves hvalid hdeposit

lemma submitProposalTraced_moves (hkept : WorldKept k rules.other) {content : Content}
    {initialDeposit : Coins} {proposer : AccAddress} (hvalid : Coins.isValid initialDeposit)
    (h : submitProposalTraced k ct content initialDeposit proposer = .ok ct') :
    GovMoves k rules ct.book ct'.book := by
  obtain ⟨c, t⟩ := ct
  simp only [submitProposalTraced, bind_eq_ok, pure_eq_ok] at h
  obtain ⟨_, -, _, -, ⟨c1, t1⟩, hopen, c2, hupdate, rfl⟩ := h
  have hsubmit : GovMove k rules (c.gov, c.shield.world, t) ((c.gov.newProposal c.ctx content
      proposer (k.isCouncilMember c.shield.world proposer)).2, c.shield.world, t) :=
    GovMove.submit c.ctx content proposer _
  have hstored : InPeriod
      (c.gov.newProposal c.ctx content proposer (k.isCouncilMember c.shield.world proposer)).2
      (c.gov.newProposal c.ctx content proposer (k.isCouncilMember c.shield.world proposer)).1
      .depositPeriod := ⟨get_set_self _ _, rfl⟩
  have hopened : GovMoves k rules _ (TracedChain.book (c1, t1)) :=
    openProposalTraced_moves hstored hvalid hopen
  refine ((Relation.ReflTransGen.single hsubmit).trans hopened).trans ?_
  unfold updateAfterSubmitProposal at hupdate
  split at hupdate
  · simp only [bind_eq_ok, pure_eq_ok] at hupdate
    obtain ⟨s, hsecure, rfl⟩ := hupdate
    exact Relation.ReflTransGen.single (GovMove.other (hkept.secure hsecure))
  · cases hupdate
    exact Relation.ReflTransGen.refl

end Messages

section Events

variable {k : ChainKeepers σ} {rules : GovRules σ} {ct ct' : TracedChain σ}

/-- The events in which the gov module acts. -/
def Event.isGov : Event σ → Bool
  | .govEndBlocker _ => true
  | .action (.tx (.submitProposal _ _ _)) => true
  | .action (.tx (.deposit _ _ _)) => true
  | _ => false

variable {e : Event σ}

lemma exec_gov_eq {c c' : Chain σ} (he : e.isGov = false)
    (h : exec k c e = .ok c') : c'.gov = c.gov := by
  cases exec_executed h with
  | govEnd => cases he
  | tx htx =>
    simp only [deliverTx, bind_eq_ok] at htx
    obtain ⟨_, -, hmsg⟩ := htx
    unfold handleMsg at hmsg
    split at hmsg
    · cases he
    · cases he
    · simp only [run_eq_ok] at hmsg
      obtain ⟨s, -, rfl⟩ := hmsg
      rfl
  | _ => rfl

/-- The rules allow what an event does in a state. -/
structure GovAllowed (k : ChainKeepers σ) (rules : GovRules σ) (c : Chain σ) (e : Event σ) :
    Prop where
  other : e.isGov = false → ∀ c', exec k c e = .ok c' → rules.other c.shield.world c'.shield.world
  early : ∀ t, e = .govEndBlocker t → EarlyAllowed rules t c

lemma execTraced_trace_eq (he : e.isGov = false)
    (h : execTraced k ct e = .ok ct') : ct'.2 = ct.2 := by
  have hother : ∀ {r : Except Fault (Chain σ)},
      (r >>= fun c => (pure (c, ct.2) : Except Fault (TracedChain σ))) = .ok ct' →
        ct'.2 = ct.2 := by
    intro r hr
    simp only [run_eq_ok] at hr
    obtain ⟨c, -, rfl⟩ := hr
    rfl
  cases e with
  | govEndBlocker t => cases he
  | action a =>
    cases a with
    | tx msg =>
      dsimp only [execTraced] at h
      cases htx : deliverTxTraced k ct msg with
      | error f =>
        rw [htx] at h
        cases h
        rfl
      | ok ct1 =>
        rw [htx] at h
        cases h
        simp only [deliverTxTraced, bind_eq_ok] at htx
        obtain ⟨_, -, hmsg⟩ := htx
        unfold handleMsgTraced at hmsg
        split at hmsg
        · cases he
        · cases he
        · exact hother hmsg
    | _ => exact hother h
  | _ => exact hother h

/-- Every event is a sequence of moves. -/
lemma execTraced_moves (hkept : WorldKept k rules.other) (hsound : GovSound ct.1.gov)
    (hallowed : GovAllowed k rules ct.1 e) (h : execTraced k ct e = .ok ct') :
    GovMoves k rules ct.book ct'.book := by
  cases he : e.isGov with
  | false =>
    have hexec : exec k ct.1 e = .ok ct'.1 := by
      rw [← execTraced_erase, h]
      rfl
    rw [TracedChain.book, TracedChain.book, exec_gov_eq he hexec, execTraced_trace_eq he h]
    exact .single (.other (hallowed.other he _ hexec))
  | true =>
    unfold Event.isGov at he
    split at he
    · exact (govEndBlockerTraced_step hkept hsound (hallowed.early _ rfl) h).moves
    · rename_i content initialDeposit proposer
      dsimp only [execTraced] at h
      cases htx : deliverTxTraced k ct (.submitProposal content initialDeposit proposer) with
      | error f =>
        rw [htx] at h
        cases h
        exact .refl
      | ok ct1 =>
        rw [htx] at h
        cases h
        simp only [deliverTxTraced, Msg.validateBasic, run_eq_ok, not_not] at htx
        exact submitProposalTraced_moves hkept htx.1 htx.2
    · rename_i proposalID depositor amount
      dsimp only [execTraced] at h
      cases htx : deliverTxTraced k ct (.deposit proposalID depositor amount) with
      | error f =>
        rw [htx] at h
        cases h
        exact .refl
      | ok ct1 =>
        rw [htx] at h
        cases h
        simp only [deliverTxTraced, Msg.validateBasic, run_eq_ok, not_not, handleMsgTraced,
          depositTraced] at htx
        obtain ⟨hvalid, b, hdeposit, rfl⟩ := htx
        exact addDepositTraced_moves hvalid hdeposit
    · cases he

/-- An invariant of the moves holds in every state of a traced run whose events are allowed. -/
lemma runTraced_invariant (rules : GovRules σ) (ct : TracedChain σ) {C : Chain σ → Prop}
    {P : GovState × σ × Trace → Prop} {d : Chain σ → Event σ → Prop}
    (hkept : WorldKept k rules.other) (hC : ∀ c e c', C c → exec k c e = .ok c' → C c')
    (hmove : ∀ b b', GovSound b.1 → P b → GovMove k rules b b' → P b')
    (hallowed : ∀ c e, C c → d c e → GovAllowed k rules c e) {es : List (Event σ)}
    (hsound : GovSound ct.1.gov) (hc : C ct.1) (hP : P ct.book)
    (hmeet : StepsMeet (fun ct e => d ct.1 e) (execTraced k) ct es)
    (h : runTraced k ct es = .ok ct') : GovSound ct'.1.gov ∧ C ct'.1 ∧ P ct'.book := by
  refine foldlM_invariant_of_meets
    (P := fun ct : TracedChain σ => GovSound ct.1.gov ∧ C ct.1 ∧ P ct.book) ?_ ⟨hsound, hc, hP⟩
    hmeet h
  rintro e ct1 ct2 ⟨hsound1, hc1, hP1⟩ hd hstep
  have hexec : exec k ct1.1 e = .ok ct2.1 := by
    rw [← execTraced_erase, hstep]
    rfl
  have hmoves := execTraced_moves hkept hsound1 (hallowed ct1.1 e hc1 hd) hstep
  have hboth := reflTransGen_invariant (P := fun b : GovState × σ × Trace => GovSound b.1 ∧ P b)
    (fun b b' hb hmove' => ⟨hmove'.govSound hb.1, hmove b b' hb.1 hb.2 hmove'⟩) hmoves
    ⟨hsound1, hP1⟩
  exact ⟨hboth.1, hC _ _ _ hc1 hexec, hboth.2⟩

end Events

end Shentu
