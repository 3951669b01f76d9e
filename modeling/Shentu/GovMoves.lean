import Shentu.GovTrace

/-!
What the gov module can do to its store, to the coins of its account and to the trace,
as small moves. One move takes a deposit, starts a voting period, makes a count, or
settles and ends one proposal. What the other modules do to the rest of the world is
kept as a relation, so that each result can say what it needs to know about it.
-/

namespace Shentu

open Lib Table

variable {σ : Type}

/-- What the moves may do outside the gov module: the changes of the rest of the world, and
the proposals that may be passed without a settlement of their deposits. -/
structure GovRules (σ : Type) where
  other : σ → σ → Prop
  unsettled : GovState → Nat → Prop

/-- The coins of some deposits are used one after the other. -/
def Uses (use : σ → Deposit → Option σ) (ds : List Deposit) (w w' : σ) : Prop :=
  ds.foldlM use w = some w'

abbrev refundUse (k : Keepers σ) (w : σ) (d : Deposit) : Option σ :=
  k.sendCoinsFromModuleToAccount w .gov d.depositor d.amount

abbrev burnUse (k : Keepers σ) (w : σ) (d : Deposit) : Option σ := k.burnCoins w .gov d.amount

namespace GovState

/-- The store without the deposits of a proposal. -/
def settled (g : GovState) (id : Nat) : GovState :=
  { g with deposits := g.deposits.filter (fun d => !decide (d.proposalID = id)) }

/-- The store without a proposal. -/
def removed (g : GovState) (p : Proposal) : GovState :=
  { g with
    proposals := g.proposals.delete p.proposalID
    inactiveProposalQueue :=
      g.inactiveProposalQueue.delete (queueKey p.depositEndTime p.proposalID)
    activeProposalQueue := g.activeProposalQueue.delete (queueKey p.votingEndTime p.proposalID) }

end GovState

/-- The proposal is stored and in the given period. -/
structure InPeriod (g : GovState) (p : Proposal) (status : ProposalStatus) : Prop where
  get : g.getProposal p.proposalID = some p
  status : p.status = status

/-- A count rejects or passes a proposal at the end of its voting period. -/
inductive Counted (g : GovState) (p : Proposal) : Bool → GovEntry → Prop
  | security {pass : Bool} : InPeriod g p .certifierVotingPeriod →
      p.content.isCertifierUpdate = pass → Counted g p pass (.securityTally p.proposalID pass)
  | stakeReject : InPeriod g p .validatorVotingPeriod →
      Counted g p false (.stakeTally p.proposalID .reject)
  | stakePass : InPeriod g p .validatorVotingPeriod →
      Counted g p true (.stakeTally p.proposalID .pass)

/-- One small change of the gov store, the world and the trace. -/
inductive GovMove (k : ChainKeepers σ) (rules : GovRules σ) :
    GovState × σ × Trace → GovState × σ × Trace → Prop
  | other {g : GovState} {w w' : σ} {t : Trace} : rules.other w w' →
      GovMove k rules (g, w, t) (g, w', t)
  | submit {g : GovState} {w : σ} {t : Trace} (ctx : Ctx) (content : Content)
      (proposer : AccAddress) (isCouncilMember : Bool) :
      GovMove k rules (g, w, t) ((g.newProposal ctx content proposer isCouncilMember).2, w, t)
  | deposit {g : GovState} {w w' : σ} {t : Trace} {p : Proposal} {depositor : AccAddress}
      {amount : Coins} : InPeriod g p .depositPeriod → Coins.isValid amount →
      k.sendCoinsFromAccountToModule w depositor .gov amount = some w' →
      GovMove k rules (g, w, t)
        ((g.setProposal { p with totalDeposit := p.totalDeposit.add amount }).upsertDeposit
          p.proposalID depositor amount, w',
          t ++ [.moved .deposited ⟨p.proposalID, depositor, amount⟩])
  | activate {g : GovState} {w : σ} {t : Trace} {p : Proposal} (ctx : Ctx) :
      InPeriod g p .depositPeriod →
      GovMove k rules (g, w, t) (g.activateVotingPeriod ctx p, w, t)
  | nextRound {g : GovState} {w : σ} {t : Trace} {p : Proposal} (ctx : Ctx) :
      InPeriod g p .certifierVotingPeriod →
      GovMove k rules (g, w, t) (g.activateVotingPeriod ctx p, w,
        t ++ [.securityTally p.proposalID (!p.content.isCertifierUpdate)])
  | count {g : GovState} {w : σ} {t : Trace} {p : Proposal} :
      InPeriod g p .certifierVotingPeriod →
      GovMove k rules (g, w, t) (g, w, t ++ [.securityTally p.proposalID false])
  | remove {g : GovState} {w w' : σ} {t : Trace} {p : Proposal} : InPeriod g p .depositPeriod →
      Uses (refundUse k.toKeepers) (g.depositsOf p.proposalID) w w' →
      GovMove k rules (g, w, t) ((g.removed p).settled p.proposalID, w',
        t ++ (g.depositsOf p.proposalID).map (.moved .refunded))
  | veto {g : GovState} {w w' : σ} {t : Trace} {p : Proposal} :
      InPeriod g p .validatorVotingPeriod →
      Uses (burnUse k.toKeepers) (g.depositsOf p.proposalID) w w' →
      GovMove k rules (g, w, t) (closedGov (g.settled p.proposalID) p .rejected, w',
        t ++ [.stakeTally p.proposalID .veto] ++
          (g.depositsOf p.proposalID).map (.moved .burned))
  | reject {g : GovState} {w w' : σ} {t : Trace} {p : Proposal} {entry : GovEntry} :
      Counted g p false entry →
      Uses (refundUse k.toKeepers) (g.depositsOf p.proposalID) w w' →
      GovMove k rules (g, w, t) (closedGov (g.settled p.proposalID) p .rejected, w',
        t ++ [entry] ++ (g.depositsOf p.proposalID).map (.moved .refunded))
  | pass {g : GovState} {w w' : σ} {t : Trace} {p : Proposal} {entry : GovEntry}
      {status : ProposalStatus} : Counted g p true entry → status = .passed ∨ status = .failed →
      Uses (refundUse k.toKeepers) (g.depositsOf p.proposalID) w w' →
      GovMove k rules (g, w, t) (closedGov (g.settled p.proposalID) p status, w',
        t ++ [entry] ++ (g.depositsOf p.proposalID).map (.moved .refunded) ++
          [.executed p.proposalID p.content])
  | passEarly {g : GovState} {w : σ} {t : Trace} {p : Proposal} {status : ProposalStatus} :
      InPeriod g p .certifierVotingPeriod → p.content.isCertifierUpdate = true →
      status = .passed ∨ status = .failed → rules.unsettled g p.proposalID →
      GovMove k rules (g, w, t) (closedGov g p status, w,
        t ++ [.securityTally p.proposalID true] ++ [.executed p.proposalID p.content])

/-- Any number of small changes. -/
abbrev GovMoves (k : ChainKeepers σ) (rules : GovRules σ) :
    GovState × σ × Trace → GovState × σ × Trace → Prop :=
  Relation.ReflTransGen (GovMove k rules)

/-- The state of a traced chain that the moves change. -/
def TracedChain.book (ct : TracedChain σ) : GovState × σ × Trace :=
  (ct.1.gov, ct.1.shield.world, ct.2)

variable {g : GovState} {p : Proposal} {status : ProposalStatus}

lemma InPeriod.isOpen (h : InPeriod g p status)
    (hstatus : status = .certifierVotingPeriod ∨ status = .validatorVotingPeriod) :
    p.isOpen = true :=
  (isOpen_iff p).mpr (h.status ▸ hstatus)

lemma Counted.inPeriod {pass : Bool} {entry : GovEntry}
    (h : Counted g p pass entry) : g.getProposal p.proposalID = some p ∧ p.isOpen = true := by
  cases h with
  | security hp _ => exact ⟨hp.get, hp.isOpen (.inl rfl)⟩
  | stakeReject hp => exact ⟨hp.get, hp.isOpen (.inr rfl)⟩
  | stakePass hp => exact ⟨hp.get, hp.isOpen (.inr rfl)⟩

lemma GovSound.closed (h : GovSound g)
    (hp : g.getProposal p.proposalID = some p) (hopen : p.isOpen = true)
    (hstatus : status = .passed ∨ status = .failed ∨ status = .rejected) :
    GovSound (closedGov g p status) := by
  refine h.close hp hopen ?_ ?_
  · rcases hstatus with rfl | rfl | rfl <;> rfl
  · rcases hstatus with rfl | rfl | rfl <;> decide

lemma GovSound.settledClosed (h : GovSound g)
    (hp : g.getProposal p.proposalID = some p) (hopen : p.isOpen = true)
    (hstatus : status = .passed ∨ status = .failed ∨ status = .rejected) :
    GovSound (closedGov (g.settled p.proposalID) p status) :=
  GovSound.closed (g := g.settled p.proposalID) (h.setDeposits _) hp hopen hstatus

/-- A move keeps the queues and the stored proposals together. -/
lemma GovMove.govSound {k : ChainKeepers σ} {rules : GovRules σ} {b b' : GovState × σ × Trace}
    (hmove : GovMove k rules b b') (h : GovSound b.1) : GovSound b'.1 := by
  cases hmove with
  | other _ => exact h
  | submit ctx content proposer isCouncilMember => exact h.newProposal _ _ _ _
  | @deposit g w w' t p depositor amount hp _ _ =>
    exact (h.setProposal (p := { p with totalDeposit := p.totalDeposit.add amount })
      hp.get rfl rfl rfl rfl).setDeposits _
  | activate ctx hp => exact h.activateVotingPeriod ctx hp.get (.inl hp.status)
  | nextRound ctx hp => exact h.activateVotingPeriod ctx hp.get (.inr hp.status)
  | count _ => exact h
  | @remove g w w' t p hp _ =>
    have hremoved : GovSound (g.removed p) := by
      refine h.deleteProposalByProposalID hp.get hp.status ?_
      simp only [GovState.deleteProposalByProposalID, hp.get]
      rfl
    exact hremoved.setDeposits _
  | veto hp _ =>
    exact h.settledClosed hp.get (hp.isOpen (.inr rfl)) (.inr (.inr rfl))
  | reject hcounted _ =>
    exact h.settledClosed hcounted.inPeriod.1 hcounted.inPeriod.2 (.inr (.inr rfl))
  | pass hcounted hstatus _ =>
    exact h.settledClosed hcounted.inPeriod.1 hcounted.inPeriod.2 (hstatus.imp_right .inl)
  | passEarly hp _ hstatus _ =>
    exact h.closed hp.get (hp.isOpen (.inl rfl)) (hstatus.imp_right .inl)

section Settlement

variable {k : ChainKeepers σ} {g g' : GovState} {w w' : σ} {t t' : Trace} {id : Nat}

private lemma closeDeposits_fold {kind : DepositKind} {use : σ → Deposit → Option σ}
    (ds : List Deposit)
    (h : ds.foldlM (fun (g, world) d => do
      let world ← orFail (tracedUse kind use world d) (.panic (.ofError .external))
      return ({ g with deposits := g.deposits.delete d.key }, world)) (g, w, t) =
        (.ok (g', w', t') : Except Fault _)) :
    g' = { g with deposits := ds.foldl (fun table d => table.delete d.key) g.deposits } ∧
      t' = t ++ ds.map (.moved kind) ∧ Uses use ds w w' := by
  induction ds generalizing g w t with
  | nil =>
    cases h
    exact ⟨rfl, (List.append_nil _).symm, rfl⟩
  | cons d ds ih =>
    obtain ⟨⟨g1, w1, t1⟩, hstep, hrest⟩ := foldlM_cons_eq_ok.mp h
    simp only [run_eq_ok, tracedUse, Option.map_eq_some_iff] at hstep
    obtain ⟨_, ⟨w2, huse, rfl⟩, heq⟩ := hstep
    cases heq
    obtain ⟨rfl, rfl, huses⟩ := ih hrest
    refine ⟨rfl, by simp, ?_⟩
    rw [Uses, List.foldlM_cons, huse]
    exact huses

/-- All deposits of a proposal are used and leave the store. -/
lemma closeDeposits_settled {kind : DepositKind} {use : σ → Deposit → Option σ}
    (h : g.closeDeposits (tracedUse kind use) (w, t) id = .ok (g', w', t')) :
    g' = g.settled id ∧ t' = t ++ (g.depositsOf id).map (.moved kind) ∧
      Uses use (g.depositsOf id) w w' := by
  obtain ⟨rfl, htrace, huses⟩ := closeDeposits_fold _ h
  refine ⟨?_, htrace, huses⟩
  have hsweep := foldl_delete_eq_filter g.deposits (fun d => decide (d.proposalID = id))
  rw [GovState.settled, GovState.depositsOf, List.foldl_filter, hsweep]

lemma mem_settled {d : Deposit} (h : d ∈ (g.settled id).deposits.rows) : d ∈ g.deposits.rows :=
  (mem_filter.mp h).1

end Settlement

/-- What is known about the effect of the other modules on the rest of the world. -/
structure WorldKept (k : ChainKeepers σ) (other : σ → σ → Prop) : Prop where
  refl : ∀ w, other w w
  execute : ∀ {w w' : σ} {content : Content}, k.executeContent w content = some w' → other w w'
  secure : ∀ {ctx : Ctx} {s s' : ShieldState σ} {poolID : Nat} {purchaser : AccAddress}
    {purchaseID : Nat} {loss : Coins} {duration : Duration},
    secureCollaterals k.toKeepers ctx s poolID purchaser purchaseID loss duration = .ok s' →
    other s.world s'.world
  pay : ∀ {ctx : Ctx} {s s' : ShieldState σ} {proposalID : Nat} {amount : Coins}
    {beneficiary : AccAddress},
    createReimbursement k.toKeepers ctx s proposalID amount beneficiary = .ok s' →
    other s.world s'.world

section Steps

variable {k : ChainKeepers σ} {rules : GovRules σ} {ct ct' : TracedChain σ} {p : Proposal}
  {g : GovState} {status : ProposalStatus}
  {tallies : Tallies}

/-- Moves that leave the block as it is and add no deposit. -/
structure TracedStep (k : ChainKeepers σ) (rules : GovRules σ) (ct ct' : TracedChain σ) : Prop where
  moves : GovMoves k rules ct.book ct'.book
  ctx : ct'.1.ctx = ct.1.ctx
  deposits : ∀ d ∈ ct'.1.gov.deposits.rows, d ∈ ct.1.gov.deposits.rows

lemma TracedStep.refl (ct : TracedChain σ) : TracedStep k rules ct ct :=
  ⟨.refl, rfl, fun _ hd => hd⟩

lemma TracedStep.trans {ct1 ct2 ct3 : TracedChain σ} (h : TracedStep k rules ct1 ct2)
    (h' : TracedStep k rules ct2 ct3) : TracedStep k rules ct1 ct3 :=
  ⟨h.moves.trans h'.moves, h'.ctx.trans h.ctx, fun d hd => h.deposits d (h'.deposits d hd)⟩

lemma passProposal_cases (hkept : WorldKept k rules.other) {c c' : Chain σ}
    (h : passProposal k c p = .ok c') :
    ∃ status, (status = .passed ∨ status = .failed) ∧ c'.gov = closedGov c.gov p status ∧
      rules.other c.shield.world c'.shield.world ∧ c'.ctx = c.ctx := by
  obtain ⟨result, hexecute, h⟩ := bind_eq_ok.mp h
  cases result with
  | none =>
    cases h
    exact ⟨.failed, .inr rfl, rfl, hkept.refl _, rfl⟩
  | some s =>
    cases h
    refine ⟨.passed, .inl rfl, rfl, ?_, rfl⟩
    unfold executeProposal at hexecute
    split at hexecute
    · split at hexecute
      · rename_i hpaid
        cases hexecute
        exact hkept.pay hpaid
      · cases hexecute
      · cases hexecute
    · simp only [Except.ok.injEq, Option.map_eq_some_iff] at hexecute
      obtain ⟨world, hworld, rfl⟩ := hexecute
      exact hkept.execute hworld

lemma onlyProposal_settled (g : GovState) (p : Proposal) (status : ProposalStatus) :
    OnlyProposal p.proposalID g (closedGov (g.settled p.proposalID) p status) :=
  fun _ hne => get_set_of_ne _ hne

lemma closedGov_status (hstatus : status ≠ .certifierVotingPeriod) {q : Proposal}
    (hq : (closedGov g p status).getProposal p.proposalID = some q) :
    q.status ≠ .certifierVotingPeriod := by
  have hget : (closedGov g p status).getProposal p.proposalID = some { p with status := status } :=
    get_set_self _ _
  cases hget.symm.trans hq
  exact hstatus

lemma finalStatus_ne (h : status = .passed ∨ status = .failed) :
    status ≠ .certifierVotingPeriod := by
  rcases h with rfl | rfl <;> decide

lemma nextRound_status (ctx : Ctx) (votingPeriod : Duration)
    (hstatus : p.status = .certifierVotingPeriod) :
    (GovState.inNextPeriod ctx votingPeriod p).status = .validatorVotingPeriod := by
  simp [GovState.inNextPeriod, hstatus]

lemma activateVotingPeriod_status (ctx : Ctx) (hstatus : p.status = .certifierVotingPeriod)
    {q : Proposal} (hq : (g.activateVotingPeriod ctx p).getProposal p.proposalID = some q) :
    q.status ≠ .certifierVotingPeriod := by
  have hget := get_set_self g.proposals (GovState.inNextPeriod ctx g.params.votingPeriod p)
  rw [inNextPeriod_proposalID] at hget
  cases hget.symm.trans hq
  rw [nextRound_status ctx _ hstatus]
  decide

lemma onlyProposal_activate (g : GovState) (ctx : Ctx) (p : Proposal) :
    OnlyProposal p.proposalID g (g.activateVotingPeriod ctx p) := by
  intro id hne
  refine get_set_of_ne _ ?_
  rwa [inNextPeriod_proposalID]

/-- What a count at the end of a voting period means. -/
lemma verdict_counted (t : Tallies) (hp : g.getProposal p.proposalID = some p)
    (hopen : p.isOpen = true) :
    match t.verdict p with
    | .nextRound => InPeriod g p .certifierVotingPeriod ∧
        t.entry p = .securityTally p.proposalID (!p.content.isCertifierUpdate)
    | .veto => InPeriod g p .validatorVotingPeriod ∧ t.entry p = .stakeTally p.proposalID .veto
    | .reject => Counted g p false (t.entry p)
    | .pass => Counted g p true (t.entry p) := by
  rcases (isOpen_iff p).mp hopen with hstatus | hstatus
  · have hround : InPeriod g p .certifierVotingPeriod := ⟨hp, hstatus⟩
    simp only [Tallies.verdict, Tallies.entry, if_pos hstatus]
    cases hpass : t.security p.proposalID <;> cases hcert : p.content.isCertifierUpdate
    · exact .security hround hcert
    · exact ⟨hround, rfl⟩
    · exact ⟨hround, rfl⟩
    · exact .security hround hcert
  · have hround : InPeriod g p .validatorVotingPeriod := ⟨hp, hstatus⟩
    have hne : p.status ≠ .certifierVotingPeriod := by
      rw [hstatus]
      decide
    simp only [Tallies.verdict, Tallies.entry, if_neg hne]
    cases hstake : t.stake p.proposalID with
    | pass => exact .stakePass hround
    | veto => exact ⟨hround, rfl⟩
    | reject => exact .stakeReject hround

lemma removeInactiveTraced_step (rules : GovRules σ) {g g' : GovState} {w w' : σ} {t t' : Trace}
    (hp : InPeriod g p .depositPeriod)
    (h : GovState.removeInactiveTraced k.toKeepers (g, w, t) p.proposalID = .ok (g', w', t')) :
    GovMove k rules (g, w, t) (g', w', t') ∧ g' = (g.removed p).settled p.proposalID := by
  simp only [GovState.removeInactiveTraced, GovState.deleteProposalByProposalID, hp.get, run_eq_ok,
    Option.some.injEq, exists_eq_left'] at h
  obtain ⟨rfl, rfl, huses⟩ := closeDeposits_settled h
  exact ⟨.remove hp huses, rfl⟩

/-- A passed proposal is closed after its settlement, and its handler changes the world. -/
lemma passProposalTraced_step (hkept : WorldKept k rules.other) {entry : GovEntry}
    {c : Chain σ} {t : Trace} {w w' : σ} (hcounted : Counted g p true entry)
    (huses : Uses (refundUse k.toKeepers) (g.depositsOf p.proposalID) w w')
    (hgov : c.gov = g.settled p.proposalID) (hworld : c.shield.world = w')
    (h : passProposalTraced k (c, t ++ [entry] ++
      (g.depositsOf p.proposalID).map (.moved .refunded)) p = .ok ct') :
    GovMoves k rules (g, w, t) ct'.book ∧ ct'.1.ctx = c.ctx ∧ ∃ status,
      (status = .passed ∨ status = .failed) ∧
        ct'.1.gov = closedGov (g.settled p.proposalID) p status := by
  simp only [passProposalTraced, run_eq_ok] at h
  obtain ⟨c', hpass, rfl⟩ := h
  obtain ⟨status, hstatus, hclosed, hother, hctx⟩ := passProposal_cases hkept hpass
  rw [hgov] at hclosed
  rw [hworld] at hother
  refine ⟨?_, hctx, status, hstatus, hclosed⟩
  refine (Relation.ReflTransGen.single (.pass hcounted hstatus huses)).tail ?_
  rw [TracedChain.book]
  rw [hclosed]
  exact .other hother

/-- The changes of the cover leave the gov store, the world and the block alone. -/
structure OnlyCover (c c' : Chain σ) : Prop where
  gov : c'.gov = c.gov
  world : c'.shield.world = c.shield.world
  ctx : c'.ctx = c.ctx

lemma updateVeto_frame (k : Keepers σ) (c : Chain σ) (p : Proposal) :
    OnlyCover c (updateVeto k c p) := by
  unfold updateVeto
  split <;> exact ⟨rfl, rfl, rfl⟩

lemma updateAbstain_frame (k : Keepers σ) (c : Chain σ) (p : Proposal) :
    OnlyCover c (updateAbstain k c p) := by
  unfold updateAbstain
  split <;> exact ⟨rfl, rfl, rfl⟩

/-- A rejected proposal is closed after its settlement. -/
lemma rejected_step {c c' : Chain σ} {t t' : Trace} {world : σ}
    (hmove : GovMove k rules (c.gov, c.shield.world, t)
      (closedGov (c.gov.settled p.proposalID) p .rejected, world, t'))
    (hcover : OnlyCover (c.withGov (c.gov.settled p.proposalID, world)) c') :
    TracedStep k rules (c, t) (finishProposal c' p .rejected, t') ∧
      OnlyProposal p.proposalID c.gov (finishProposal c' p .rejected).gov ∧
      ∀ q, (finishProposal c' p .rejected).gov.getProposal p.proposalID = some q →
        q.status ≠ .certifierVotingPeriod := by
  have hgov : (finishProposal c' p .rejected).gov =
      closedGov (c.gov.settled p.proposalID) p .rejected := by
    dsimp only [finishProposal]
    rw [hcover.gov]
    rfl
  rw [hgov]
  refine ⟨⟨.single ?_, hcover.ctx, ?_⟩, onlyProposal_settled _ _ _,
    fun q hq => closedGov_status (by decide) hq⟩
  · have hbook : TracedChain.book (finishProposal c' p .rejected, t') =
        (closedGov (c.gov.settled p.proposalID) p .rejected, world, t') := by
      rw [TracedChain.book, hgov]
      dsimp only [finishProposal]
      rw [hcover.world]
      rfl
    rw [hbook]
    exact hmove
  · rw [hgov]
    exact fun d hd => mem_settled hd

/-- One proposal at the end of its voting period. -/
lemma processActiveTraced_step (hkept : WorldKept k rules.other)
    (hp : ct.1.gov.getProposal p.proposalID = some p) (hopen : p.isOpen = true)
    (h : processActiveTraced k tallies ct p.proposalID = .ok ct') :
    TracedStep k rules ct ct' ∧ OnlyProposal p.proposalID ct.1.gov ct'.1.gov ∧
      ∀ q, ct'.1.gov.getProposal p.proposalID = some q → q.status ≠ .certifierVotingPeriod := by
  obtain ⟨c, t⟩ := ct
  have hcounted := verdict_counted tallies hp hopen
  simp only [processActiveTraced, run_eq_ok, hp, Option.some.injEq, exists_eq_left'] at h
  cases hverdict : tallies.verdict p with
  | nextRound =>
    simp only [hverdict] at h hcounted
    cases h
    obtain ⟨hround, hentry⟩ := hcounted
    refine ⟨⟨.single ?_, rfl, fun _ hd => hd⟩,
      onlyProposal_activate _ _ _, fun q hq => activateVotingPeriod_status _ hround.status hq⟩
    rw [hentry]
    exact .nextRound c.ctx hround
  | veto =>
    simp only [hverdict, run_eq_ok] at h hcounted
    obtain ⟨⟨g, world, trace⟩, hdelete, rfl⟩ := h
    obtain ⟨hround, hentry⟩ := hcounted
    obtain ⟨rfl, rfl, huses⟩ := closeDeposits_settled hdelete
    have hmove : GovMove k rules (c.gov, c.shield.world, t) (closedGov
        (c.gov.settled p.proposalID) p .rejected, world, t ++ [tallies.entry p] ++
          (c.gov.depositsOf p.proposalID).map (.moved .burned)) := by
      rw [hentry]
      exact .veto hround huses
    exact rejected_step hmove (updateVeto_frame _ _ _)
  | reject =>
    simp only [hverdict, run_eq_ok] at h hcounted
    obtain ⟨⟨g, world, trace⟩, hrefund, rfl⟩ := h
    obtain ⟨rfl, rfl, huses⟩ := closeDeposits_settled hrefund
    exact rejected_step (.reject hcounted huses) (updateAbstain_frame _ _ _)
  | pass =>
    simp only [hverdict, bind_eq_ok] at h hcounted
    obtain ⟨⟨g, world, trace⟩, hrefund, h⟩ := h
    obtain ⟨rfl, rfl, huses⟩ := closeDeposits_settled hrefund
    obtain ⟨hmoves, hctx, status, hstatus, hgov⟩ :=
      passProposalTraced_step hkept hcounted huses rfl rfl h
    refine ⟨⟨hmoves, hctx, ?_⟩, ?_, ?_⟩
    · rw [hgov]
      exact fun d hd => mem_settled hd
    · rw [hgov]
      exact onlyProposal_settled _ _ _
    · rw [hgov]
      exact fun q hq => closedGov_status (finalStatus_ne hstatus) hq

/-- One proposal in the certifiers' round before its end. -/
lemma processSecurityTraced_step (hkept : WorldKept k rules.other)
    (hp : ct.1.gov.getProposal p.proposalID = some p)
    (hearly : p.status = .certifierVotingPeriod → p.content.isCertifierUpdate = true →
      tallies.security p.proposalID = true → rules.unsettled ct.1.gov p.proposalID)
    (h : processSecurityTraced k tallies ct p.proposalID = .ok ct') :
    TracedStep k rules ct ct' ∧ OnlyProposal p.proposalID ct.1.gov ct'.1.gov := by
  obtain ⟨c, t⟩ := ct
  simp only [processSecurityTraced, run_eq_ok, hp, Option.some.injEq, exists_eq_left'] at h
  split at h
  · rename_i hstatus
    have hround : InPeriod c.gov p .certifierVotingPeriod := ⟨hp, hstatus⟩
    split at h
    · rename_i hpass
      split at h
      · rename_i hcert
        simp only [passProposalTraced, run_eq_ok] at h
        obtain ⟨c', hpassed, rfl⟩ := h
        obtain ⟨status, hfinal, hgov, hother, hctx⟩ := passProposal_cases hkept hpassed
        have hmove : GovMove k rules (c.gov, c.shield.world, t) (closedGov c.gov p status,
            c.shield.world, t ++ [.securityTally p.proposalID (tallies.security p.proposalID)] ++
              [.executed p.proposalID p.content]) := by
          rw [hpass]
          exact .passEarly hround hcert hfinal (hearly hstatus hcert hpass)
        refine ⟨⟨(Relation.ReflTransGen.single hmove).tail ?_, hctx, ?_⟩, ?_⟩
        · rw [TracedChain.book, hgov]
          exact .other hother
        · rw [hgov]
          exact fun d hd => hd
        · rw [hgov]
          exact onlyProposal_closedGov _ _ _
      · rename_i hcert
        cases h
        refine ⟨⟨Relation.ReflTransGen.single ?_, rfl, fun _ hd => hd⟩, onlyProposal_activate _ _ _⟩
        have hnext : GovMove k rules (c.gov, c.shield.world, t)
            (c.gov.activateVotingPeriod c.ctx p, c.shield.world,
              t ++ [.securityTally p.proposalID (!p.content.isCertifierUpdate)]) :=
          GovMove.nextRound c.ctx hround
        rw [Bool.eq_false_iff.mpr hcert] at hnext
        rw [TracedChain.book, hpass]
        exact hnext
    · rename_i hpass
      cases h
      refine ⟨⟨Relation.ReflTransGen.single ?_, rfl, fun _ hd => hd⟩, fun _ _ => rfl⟩
      rw [TracedChain.book, Bool.eq_false_iff.mpr hpass]
      exact .count hround
  · cases h
    exact ⟨TracedStep.refl _, fun _ _ => rfl⟩

end Steps

end Shentu
