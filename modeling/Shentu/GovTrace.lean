import Shentu.GovQueues

/-!
A trace of what the gov module does: the deposits it takes and gives back or burns,
the counts of votes it makes, and the proposal handlers it calls. The traced functions
are those of the end blocker and of the messages with an entry where the deposit, the
count or the call is made. The trace has no influence: without it the traced run is
the run.
-/

namespace Shentu

open Lib

variable {σ : Type}

inductive DepositKind
  | deposited | refunded | burned
  deriving DecidableEq

inductive GovEntry
  /-- Coins of a depositor are moved for a proposal. -/
  | moved (kind : DepositKind) (d : Deposit)
  | securityTally (id : Nat) (pass : Bool)
  | stakeTally (id : Nat) (result : StakeTally)
  /-- The handler of the content of a proposal is called. -/
  | executed (id : Nat) (content : Content)
  deriving DecidableEq

abbrev Trace := List GovEntry

/-- A use of the coins of a deposit that is written to the trace. -/
def tracedUse (kind : DepositKind) (use : σ → Deposit → Option σ) (wt : σ × Trace) (d : Deposit) :
    Option (σ × Trace) :=
  (use wt.1 d).map (fun world => (world, wt.2 ++ [.moved kind d]))

namespace GovState

def addDepositTraced (k : Keepers σ) (ctx : Ctx) (g : GovState) (wt : σ × Trace) (proposalID : Nat)
    (depositor : AccAddress) (amount : Coins) : Except Fault (GovState × σ × Trace) := do
  let (g, world) ← g.addDeposit k ctx wt.1 proposalID depositor amount
  return (g, world, wt.2 ++ [.moved .deposited ⟨proposalID, depositor, amount⟩])

def refundDepositsTraced (k : Keepers σ) (g : GovState) (wt : σ × Trace) (id : Nat) :
    Except Fault (GovState × σ × Trace) :=
  closeDeposits (tracedUse .refunded
    (fun world d => k.sendCoinsFromModuleToAccount world .gov d.depositor d.amount)) g wt id

def deleteDepositsTraced (k : Keepers σ) (g : GovState) (wt : σ × Trace) (id : Nat) :
    Except Fault (GovState × σ × Trace) :=
  closeDeposits (tracedUse .burned (fun world d => k.burnCoins world .gov d.amount)) g wt id

def removeInactiveTraced (k : Keepers σ) (gwt : GovState × σ × Trace) (id : Nat) :
    Except Fault (GovState × σ × Trace) := do
  let g ← gwt.1.deleteProposalByProposalID id
  refundDepositsTraced k g gwt.2 id

end GovState

/-- The count that the end of a voting period makes. -/
def Tallies.entry (t : Tallies) (p : Proposal) : GovEntry :=
  if p.status = .certifierVotingPeriod then .securityTally p.proposalID (t.security p.proposalID)
  else .stakeTally p.proposalID (t.stake p.proposalID)

/-- A chain and the trace of its gov module so far. -/
abbrev TracedChain (σ : Type) := Chain σ × Trace

def TracedChain.withGov (ct : TracedChain σ) (gwt : GovState × σ × Trace) : TracedChain σ :=
  (ct.1.withGov (gwt.1, gwt.2.1), gwt.2.2)

def passProposalTraced (k : ChainKeepers σ) (ct : TracedChain σ) (p : Proposal) :
    Except Fault (TracedChain σ) := do
  let c ← passProposal k ct.1 p
  return (c, ct.2 ++ [.executed p.proposalID p.content])

def processActiveTraced (k : ChainKeepers σ) (t : Tallies) (ct : TracedChain σ) (id : Nat) :
    Except Fault (TracedChain σ) := do
  let (c, trace) := ct
  let p ← orFail (c.gov.getProposal id) (.panic .proposalNotFound)
  let trace := trace ++ [t.entry p]
  match t.verdict p with
  | .nextRound => return ({ c with gov := c.gov.activateVotingPeriod c.ctx p }, trace)
  | .veto => do
    let (g, world, trace) ← c.gov.deleteDepositsTraced k.toKeepers (c.shield.world, trace) id
    return (finishProposal (updateVeto k.toKeepers (c.withGov (g, world)) p) p .rejected, trace)
  | .reject => do
    let (g, world, trace) ← c.gov.refundDepositsTraced k.toKeepers (c.shield.world, trace) id
    return (finishProposal (updateAbstain k.toKeepers (c.withGov (g, world)) p) p .rejected,
      trace)
  | .pass => do
    let (g, world, trace) ← c.gov.refundDepositsTraced k.toKeepers (c.shield.world, trace) id
    passProposalTraced k (c.withGov (g, world), trace) p

def processSecurityTraced (k : ChainKeepers σ) (t : Tallies) (ct : TracedChain σ) (id : Nat) :
    Except Fault (TracedChain σ) := do
  let (c, trace) := ct
  let p ← orFail (c.gov.getProposal id) (.panic .proposalNotFound)
  if p.status = .certifierVotingPeriod then
    let trace := trace ++ [.securityTally id (t.security id)]
    if t.security id = true then
      if p.content.isCertifierUpdate = true then passProposalTraced k (c, trace) p
      else return ({ c with gov := c.gov.activateVotingPeriod c.ctx p }, trace)
    else return (c, trace)
  else return (c, trace)

def govEndBlockerTraced (k : ChainKeepers σ) (t : Tallies) (ct : TracedChain σ) :
    Except Fault (TracedChain σ) := do
  let (c, trace) := ct
  let gwt ← (GovState.queueUntil c.gov.inactiveProposalQueue c.ctx.blockTime).foldlM
    (GovState.removeInactiveTraced k.toKeepers) (c.gov, c.shield.world, trace)
  let ct := TracedChain.withGov (c, trace) gwt
  let ct ← (GovState.queueUntil ct.1.gov.activeProposalQueue ct.1.ctx.blockTime).foldlM
    (processActiveTraced k t) ct
  (GovState.queueUntil ct.1.gov.activeProposalQueue maxTimestamp).foldlM
    (processSecurityTraced k t) ct

def openProposalTraced (k : ChainKeepers σ) (ct : TracedChain σ) (proposal : Proposal)
    (initialDeposit : Coins) : Except Fault (TracedChain σ) :=
  if proposal.isProposerCouncilMember = true then
    .ok ({ ct.1 with gov := ct.1.gov.activateVotingPeriod ct.1.ctx proposal }, ct.2)
  else do
    let gwt ← ct.1.gov.addDepositTraced k.toKeepers ct.1.ctx (ct.1.shield.world, ct.2)
      proposal.proposalID proposal.proposerAddress initialDeposit
    return ct.withGov gwt

def submitProposalTraced (k : ChainKeepers σ) (ct : TracedChain σ) (content : Content)
    (initialDeposit : Coins) (proposer : AccAddress) : Except Fault (TracedChain σ) := do
  let (c, trace) := ct
  let isCouncilMember := k.isCouncilMember c.shield.world proposer
  failIf (initialDeposit.amountOf microCTKDenom <
      c.gov.params.minInitialDeposit.amountOf microCTKDenom ∧ isCouncilMember = false)
    (.error .insufficientFunds)
  validateProposalByType k c content initialDeposit
  let (proposal, gov) := c.gov.newProposal c.ctx content proposer isCouncilMember
  let (c, trace) ← openProposalTraced k ({ c with gov := gov }, trace) proposal initialDeposit
  let c ← updateAfterSubmitProposal k c proposal.content
  return (c, trace)

def depositTraced (k : ChainKeepers σ) (ct : TracedChain σ) (proposalID : Nat)
    (depositor : AccAddress) (amount : Coins) : Except Fault (TracedChain σ) := do
  let gwt ← ct.1.gov.addDepositTraced k.toKeepers ct.1.ctx (ct.1.shield.world, ct.2) proposalID
    depositor amount
  return ct.withGov gwt

def handleMsgTraced (k : ChainKeepers σ) (ct : TracedChain σ) : Msg → Except Fault (TracedChain σ)
  | .submitProposal content initialDeposit proposer =>
    submitProposalTraced k ct content initialDeposit proposer
  | .deposit proposalID depositor amount => depositTraced k ct proposalID depositor amount
  | msg => do
    let c ← handleMsg k ct.1 msg
    return (c, ct.2)

def deliverTxTraced (k : ChainKeepers σ) (ct : TracedChain σ) (msg : Msg) :
    Except Fault (TracedChain σ) := do
  msg.validateBasic
  handleMsgTraced k ct msg

def execTraced (k : ChainKeepers σ) (ct : TracedChain σ) : Event σ → Except Fault (TracedChain σ)
  | .action (.tx msg) =>
    match deliverTxTraced k ct msg with
    | .ok ct' => .ok ct'
    | .error _ => .ok ct
  | .govEndBlocker t => govEndBlockerTraced k t ct
  | e => do
    let c ← exec k ct.1 e
    return (c, ct.2)

def runTraced (k : ChainKeepers σ) (ct : TracedChain σ) (es : List (Event σ)) :
    Except Fault (TracedChain σ) :=
  es.foldlM (execTraced k) ct

section Erasure

/-- A gov store and a world without the trace. -/
def untraced (gwt : GovState × σ × Trace) : GovState × σ := (gwt.1, gwt.2.1)

lemma addDepositTraced_erase (k : Keepers σ) (ctx : Ctx) (g : GovState) (wt : σ × Trace)
    (id : Nat) (depositor : AccAddress) (amount : Coins) :
    (g.addDepositTraced k ctx wt id depositor amount).map untraced =
      g.addDeposit k ctx wt.1 id depositor amount := by
  unfold GovState.addDepositTraced
  cases g.addDeposit k ctx wt.1 id depositor amount <;> rfl

lemma closeDeposits_erase (kind : DepositKind) (use : σ → Deposit → Option σ) (g : GovState)
    (wt : σ × Trace) (id : Nat) :
    (g.closeDeposits (tracedUse kind use) wt id).map untraced = g.closeDeposits use wt.1 id := by
  refine map_foldlM ?_ _ (g, wt)
  rintro ⟨g, world, trace⟩ d
  dsimp only [tracedUse, untraced]
  cases use world d <;> rfl

lemma removeInactiveTraced_erase (k : Keepers σ) (gwt : GovState × σ × Trace) (id : Nat) :
    (GovState.removeInactiveTraced k gwt id).map untraced =
      GovState.removeInactiveProposal k (untraced gwt) id := by
  exact bind_map_eq _ (fun g => closeDeposits_erase _ _ g gwt.2 id)

lemma passProposalTraced_erase (k : ChainKeepers σ) (ct : TracedChain σ) (p : Proposal) :
    (passProposalTraced k ct p).map Prod.fst = passProposal k ct.1 p := by
  unfold passProposalTraced
  cases passProposal k ct.1 p <;> rfl

lemma processActiveTraced_erase (k : ChainKeepers σ) (t : Tallies) (ct : TracedChain σ)
    (id : Nat) : (processActiveTraced k t ct id).map Prod.fst =
      processActiveProposal k t ct.1 id := by
  obtain ⟨c, trace⟩ := ct
  refine bind_map_eq _ ?_
  intro p
  cases t.verdict p with
  | nextRound => rfl
  | veto | reject =>
    refine map_bind_eq (closeDeposits_erase _ _ c.gov (c.shield.world, trace ++ [t.entry p]) id) ?_
    rintro ⟨g, world, trace'⟩
    rfl
  | pass =>
    refine map_bind_eq (closeDeposits_erase _ _ c.gov (c.shield.world, trace ++ [t.entry p]) id) ?_
    rintro ⟨g, world, trace'⟩
    exact passProposalTraced_erase k _ p

lemma processSecurityTraced_erase (k : ChainKeepers σ) (t : Tallies) (ct : TracedChain σ)
    (id : Nat) : (processSecurityTraced k t ct id).map Prod.fst =
      processSecurityVote k t ct.1 id := by
  obtain ⟨c, trace⟩ := ct
  refine bind_map_eq _ ?_
  intro p
  by_cases hstatus : p.status = .certifierVotingPeriod
  · by_cases hpass : t.security id = true
    · simp only [hstatus, hpass, if_true, and_self]
      split
      · exact passProposalTraced_erase k _ p
      · rfl
    · simp only [hstatus, hpass, Bool.false_eq_true, and_false, if_true, if_false]
      rfl
  · simp only [hstatus, false_and, if_false]
    rfl

lemma govEndBlockerTraced_erase (k : ChainKeepers σ) (t : Tallies) (ct : TracedChain σ) :
    (govEndBlockerTraced k t ct).map Prod.fst = govEndBlocker k t ct.1 := by
  obtain ⟨c, trace⟩ := ct
  refine map_bind_eq (map_foldlM (removeInactiveTraced_erase k.toKeepers) _ _) ?_
  rintro ⟨g, world, trace'⟩
  refine map_bind_eq (map_foldlM (processActiveTraced_erase k t) _ _) ?_
  rintro ⟨c', trace''⟩
  exact map_foldlM (processSecurityTraced_erase k t) _ _

lemma openProposalTraced_erase (k : ChainKeepers σ) (ct : TracedChain σ) (p : Proposal)
    (initialDeposit : Coins) : (openProposalTraced k ct p initialDeposit).map Prod.fst =
      openProposal k ct.1 p initialDeposit := by
  unfold openProposalTraced openProposal
  split
  · rfl
  · refine map_bind_eq (addDepositTraced_erase k.toKeepers ct.1.ctx ct.1.gov
      (ct.1.shield.world, ct.2) p.proposalID p.proposerAddress initialDeposit) ?_
    rintro ⟨g, world, trace⟩
    rfl

lemma submitProposalTraced_erase (k : ChainKeepers σ) (ct : TracedChain σ) (content : Content)
    (initialDeposit : Coins) (proposer : AccAddress) :
    (submitProposalTraced k ct content initialDeposit proposer).map Prod.fst =
      handleMsgSubmitProposal k ct.1 content initialDeposit proposer := by
  obtain ⟨c, trace⟩ := ct
  refine bind_map_eq _ (fun _ => bind_map_eq _ (fun _ => ?_))
  refine map_bind_eq (openProposalTraced_erase k _ _ initialDeposit) ?_
  rintro ⟨c', trace'⟩
  dsimp only
  cases updateAfterSubmitProposal k c' _ <;> rfl

lemma depositTraced_erase (k : ChainKeepers σ) (ct : TracedChain σ) (id : Nat)
    (depositor : AccAddress) (amount : Coins) :
    (depositTraced k ct id depositor amount).map Prod.fst =
      handleMsgDeposit k ct.1 id depositor amount := by
  refine map_bind_eq (addDepositTraced_erase k.toKeepers ct.1.ctx ct.1.gov
    (ct.1.shield.world, ct.2) id depositor amount) ?_
  rintro ⟨g, world, trace⟩
  rfl

lemma deliverTxTraced_erase (k : ChainKeepers σ) (ct : TracedChain σ) (msg : Msg) :
    (deliverTxTraced k ct msg).map Prod.fst = deliverTx k ct.1 msg := by
  refine bind_map_eq _ (fun _ => ?_)
  have hother : (handleMsg k ct.1 msg >>= fun c => (pure (c, ct.2) : Except Fault _)).map Prod.fst =
      handleMsg k ct.1 msg := by
    cases handleMsg k ct.1 msg <;> rfl
  cases msg with
  | submitProposal content initialDeposit proposer =>
    exact submitProposalTraced_erase k ct content initialDeposit proposer
  | deposit id depositor amount => exact depositTraced_erase k ct id depositor amount
  | _ => exact hother

lemma execTraced_erase (k : ChainKeepers σ) (ct : TracedChain σ) (e : Event σ) :
    (execTraced k ct e).map Prod.fst = exec k ct.1 e := by
  have hother : (exec k ct.1 e >>= fun c => (pure (c, ct.2) : Except Fault _)).map Prod.fst =
      exec k ct.1 e := by
    cases exec k ct.1 e <;> rfl
  cases e with
  | govEndBlocker t => exact govEndBlockerTraced_erase k t ct
  | action a =>
    cases a with
    | tx msg =>
      dsimp only [execTraced, exec, act]
      rw [← deliverTxTraced_erase]
      cases deliverTxTraced k ct msg <;> rfl
    | _ => exact hother
  | _ => exact hother

lemma exists_execTraced {k : ChainKeepers σ} (ct : TracedChain σ) {e : Event σ} {c : Chain σ}
    (h : exec k ct.1 e = .ok c) : ∃ t, execTraced k ct e = .ok (c, t) := by
  rw [← execTraced_erase] at h
  cases htraced : execTraced k ct e with
  | error f =>
    rw [htraced] at h
    cases h
  | ok ct' =>
    rw [htraced] at h
    cases h
    exact ⟨ct'.2, rfl⟩

lemma runTraced_erase (k : ChainKeepers σ) (ct : TracedChain σ) (es : List (Event σ)) :
    (runTraced k ct es).map Prod.fst = run k ct.1 es :=
  map_foldlM (execTraced_erase k) es ct

end Erasure

end Shentu
