import Shentu.Gov.Proposals
import Shentu.Shield.Claim
import Shentu.Shield.Payout

/-!
The gov module as far as it drives the shield module: the submission of a claim,
and the end blocker that counts the rounds of voting and ends a claim with a veto, a
rejection or a payout. The counting of the votes is not modelled; the result of
each count is an input.
-/

namespace Shentu

open Lib

variable {σ : Type}

/-- The shield and gov modules, the rest of the chain being the world of the shield state. -/
structure Chain (σ : Type) where
  ctx : Ctx
  shield : ShieldState σ
  gov : GovState

namespace Chain

def withGov (c : Chain σ) (gw : GovState × σ) : Chain σ :=
  { c with gov := gw.1, shield := { c.shield with world := gw.2 } }

def withCover (c : Chain σ) (cover : CoverBook) : Chain σ :=
  { c with shield := { c.shield with cover := cover } }

end Chain

/-- The result of a count of the stake votes. -/
inductive StakeTally
  | pass | veto | reject
  deriving DecidableEq

/-- The results of the counts in one block, by proposal. -/
structure Tallies where
  security : Nat → Bool
  stake : Nat → StakeTally

inductive Verdict
  | nextRound | pass | veto | reject
  deriving DecidableEq

/-- What a count means for a proposal. The certifiers' round ends the voting if it passes a
certifier update, or if it does not pass another proposal. -/
def Tallies.verdict (t : Tallies) (p : Proposal) : Verdict :=
  if p.status = .certifierVotingPeriod then
    if t.security p.proposalID = true then
      if p.content.isCertifierUpdate = true then .pass else .nextRound
    else if p.content.isCertifierUpdate = true then .nextRound else .reject
  else
    match t.stake p.proposalID with
    | .pass => .pass
    | .veto => .veto
    | .reject => .reject

/-- The checks of a proposal by its type. For a claim the purchase is looked up under the
proposer that the content names. -/
def validateProposalByType (k : ChainKeepers σ) (c : Chain σ) (content : Content)
    (initialDeposit : Coins) : Except Fault Unit :=
  match content with
  | .certifierUpdate certifierAlias =>
    failIf (certifierAlias ≠ "" ∧ k.hasCertifierAlias c.shield.world certifierAlias = true)
      (.error .external)
  | .softwareUpgrade plan => failIf (k.validatePlan c.shield.world plan = false) (.error .external)
  | .shieldClaim claim => do
    let params := c.shield.params.claimProposal
    let initialDepositAmount := Dec.ofInt (initialDeposit.amountOf k.bondDenom)
    let lossAmount := claim.loss.amountOf k.bondDenom
    let minDeposit := Dec.ofInt (params.minDeposit.amountOf k.bondDenom)
    failIf (initialDepositAmount < Dec.mul (Dec.ofInt lossAmount) params.depositRate ∨
      initialDepositAmount < minDeposit) (.error .insufficientFunds)
    let l ← orFail (c.shield.cover.getPurchaseList claim.poolID claim.proposer)
      (.error .purchaseNotFound)
    let purchase ← orFail (l.getPurchase claim.purchaseID) (.error .purchaseNotFound)
    failIf (¬ lossAmount ≤ purchase.shield) (.error .insufficientShield)
    failIf (purchase.protectionEndTime < c.ctx.blockTime) (.error .afterProtectionEndTime)
  | .other _ => .ok ()

/-- After its submission a claim takes the loss and locks collateral for two voting periods. -/
def updateAfterSubmitProposal (k : ChainKeepers σ) (c : Chain σ) (content : Content) :
    Except Fault (Chain σ) :=
  match content with
  | .shieldClaim claim => do
    let lockPeriod := c.gov.params.votingPeriod * 2
    let shield ← secureCollaterals k.toKeepers c.ctx c.shield claim.poolID claim.proposer
      claim.purchaseID claim.loss lockPeriod
    return { c with shield := shield }
  | _ => .ok c

/-- The first voting period of a council member's proposal, or the initial deposit of another
proposal. -/
def openProposal (k : ChainKeepers σ) (c : Chain σ) (proposal : Proposal)
    (initialDeposit : Coins) : Except Fault (Chain σ) :=
  if proposal.isProposerCouncilMember = true then
    .ok { c with gov := c.gov.activateVotingPeriod c.ctx proposal }
  else do
    let gw ← c.gov.addDeposit k.toKeepers c.ctx c.shield.world proposal.proposalID
      proposal.proposerAddress initialDeposit
    return c.withGov gw

def handleMsgSubmitProposal (k : ChainKeepers σ) (c : Chain σ) (content : Content)
    (initialDeposit : Coins) (proposer : AccAddress) : Except Fault (Chain σ) := do
  let isCouncilMember := k.isCouncilMember c.shield.world proposer
  failIf (initialDeposit.amountOf microCTKDenom <
      c.gov.params.minInitialDeposit.amountOf microCTKDenom ∧ isCouncilMember = false)
    (.error .insufficientFunds)
  validateProposalByType k c content initialDeposit
  let (proposal, gov) := c.gov.newProposal c.ctx content proposer isCouncilMember
  let c ← openProposal k { c with gov := gov } proposal initialDeposit
  updateAfterSubmitProposal k c proposal.content

def handleMsgDeposit (k : ChainKeepers σ) (c : Chain σ) (proposalID : Nat)
    (depositor : AccAddress) (amount : Coins) : Except Fault (Chain σ) := do
  let gw ← c.gov.addDeposit k.toKeepers c.ctx c.shield.world proposalID depositor amount
  return c.withGov gw

/-- A vetoed claim: the loss is no longer claimed, and stays taken from the purchase. -/
def updateVeto (k : Keepers σ) (c : Chain σ) (p : Proposal) : Chain σ :=
  match p.content with
  | .shieldClaim claim =>
    c.withCover (c.shield.cover.claimEnd (claim.loss.amountOf k.bondDenom))
  | _ => c

/-- A rejected claim. The purchase is looked up under the address that submitted the
proposal, and the error of the restore is ignored. -/
def updateAbstain (k : Keepers σ) (c : Chain σ) (p : Proposal) : Chain σ :=
  match p.content with
  | .shieldClaim claim =>
    let lossAmt := claim.loss.amountOf k.bondDenom
    let restored := c.shield.cover.restoreShield claim.poolID p.proposerAddress
      claim.purchaseID lossAmt
    c.withCover (restored.1.claimEnd lossAmt)
  | _ => c

/-- The handler of a passed proposal in a cache context: none if it returns an error. -/
def executeProposal (k : ChainKeepers σ) (ctx : Ctx) (s : ShieldState σ) (p : Proposal) :
    Except Fault (Option (ShieldState σ)) :=
  match p.content with
  | .shieldClaim claim =>
    match createReimbursement k.toKeepers ctx s claim.proposalID claim.loss claim.proposer with
    | .ok s' => .ok (some s')
    | .error (.error _) => .ok none
    | .error (.panic e) => .error (.panic e)
  | content => .ok ((k.executeContent s.world content).map (fun world => { s with world := world }))

/-- Store the final status of a proposal and take it out of the active queue. -/
def finishProposal (c : Chain σ) (p : Proposal) (status : ProposalStatus) : Chain σ :=
  { c with gov := { c.gov with
    proposals := c.gov.proposals.set { p with status := status }
    activeProposalQueue :=
      c.gov.activeProposalQueue.delete (queueKey p.votingEndTime p.proposalID) } }

/-- Run the handler of a passed proposal and store its final status. -/
def passProposal (k : ChainKeepers σ) (c : Chain σ) (p : Proposal) : Except Fault (Chain σ) := do
  match ← executeProposal k c.ctx c.shield p with
  | some shield => return finishProposal { c with shield := shield } p .passed
  | none => return finishProposal c p .failed

def processActiveProposal (k : ChainKeepers σ) (t : Tallies) (c : Chain σ) (id : Nat) :
    Except Fault (Chain σ) := do
  let p ← orFail (c.gov.getProposal id) (.panic .proposalNotFound)
  match t.verdict p with
  | .nextRound => return { c with gov := c.gov.activateVotingPeriod c.ctx p }
  | .veto => do
    let gw ← c.gov.deleteDepositsByProposalID k.toKeepers c.shield.world id
    return finishProposal (updateVeto k.toKeepers (c.withGov gw) p) p .rejected
  | .reject => do
    let gw ← c.gov.refundDepositsByProposalID k.toKeepers c.shield.world id
    return finishProposal (updateAbstain k.toKeepers (c.withGov gw) p) p .rejected
  | .pass => do
    let gw ← c.gov.refundDepositsByProposalID k.toKeepers c.shield.world id
    passProposal k (c.withGov gw) p

/-- A certifiers' round that passes ends before its voting period does. -/
def processSecurityVote (k : ChainKeepers σ) (t : Tallies) (c : Chain σ) (id : Nat) :
    Except Fault (Chain σ) := do
  let p ← orFail (c.gov.getProposal id) (.panic .proposalNotFound)
  if p.status = .certifierVotingPeriod ∧ t.security id = true then
    if p.content.isCertifierUpdate = true then passProposal k c p
    else return { c with gov := c.gov.activateVotingPeriod c.ctx p }
  else return c

/-- The last second of the year 9999. -/
def maxTimestamp : Time := (253402300799 + 62135596800) * 1000000000

def govEndBlocker (k : ChainKeepers σ) (t : Tallies) (c : Chain σ) : Except Fault (Chain σ) := do
  let gw ← c.gov.removeInactiveProposals k.toKeepers c.ctx c.shield.world
  let c := c.withGov gw
  let c ← (GovState.queueUntil c.gov.activeProposalQueue c.ctx.blockTime).foldlM
    (processActiveProposal k t) c
  (GovState.queueUntil c.gov.activeProposalQueue maxTimestamp).foldlM (processSecurityVote k t) c

end Shentu
