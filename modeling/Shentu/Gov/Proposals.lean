import Shentu.Shield.Keepers

/-!
Proposals of the gov module: their contents, deposits and voting periods. A
proposal with security voting has two rounds, first of the certifiers and then of
the validators, and the second round starts when the first one is counted.
-/

namespace Shentu

open Lib

variable {σ : Type}

/-- A claim. The proposer of the content is who bought the shield; the content is not
validated, and it can name another address than the one that submits it. -/
structure ShieldClaimProposal where
  proposalID : Nat
  poolID : Nat
  purchaseID : Nat
  loss : Coins
  proposer : AccAddress
  deriving DecidableEq

structure Plan where
  name : String
  time : Time
  height : Int
  deriving DecidableEq

inductive Content
  | shieldClaim (c : ShieldClaimProposal)
  | certifierUpdate (certifierAlias : String)
  | softwareUpgrade (plan : Plan)
  /-- A content without security voting. -/
  | other (title : String)
  deriving DecidableEq

inductive ProposalStatus
  | depositPeriod | certifierVotingPeriod | validatorVotingPeriod | passed | rejected | failed
  deriving DecidableEq

structure Proposal where
  proposalID : Nat
  content : Content
  status : ProposalStatus
  isProposerCouncilMember : Bool
  proposerAddress : AccAddress
  submitTime : Time
  depositEndTime : Time
  totalDeposit : Coins
  votingStartTime : Time
  votingEndTime : Time
  deriving DecidableEq

structure Deposit where
  proposalID : Nat
  depositor : AccAddress
  amount : Coins
  deriving DecidableEq

abbrev QueueKey := Int ×ₗ Nat

def queueKey (t : Time) (id : Nat) : QueueKey := toLex (t, id)

/-- A queue of proposal IDs in the order of a time. -/
abbrev ProposalQueue := Table (id : QueueKey → QueueKey)

def Deposit.key (d : Deposit) : Nat ×ₗ Nat := toLex (d.proposalID, d.depositor)

structure GovParams where
  minInitialDeposit : Coins
  minDeposit : Coins
  maxDepositPeriod : Duration
  votingPeriod : Duration

structure GovState where
  params : GovParams
  nextProposalID : Nat
  proposals : Table Proposal.proposalID
  inactiveProposalQueue : ProposalQueue
  activeProposalQueue : ProposalQueue
  deposits : Table Deposit.key

/-- The keepers of the shield module, and what the gov module expects in addition: who is a
validator or certifier, the checks of other proposal types, and their handlers. -/
structure ChainKeepers (σ : Type) extends Keepers σ where
  isCouncilMember : σ → AccAddress → Bool
  hasCertifierAlias : σ → String → Bool
  validatePlan : σ → Plan → Bool
  executeContent : σ → Content → Option σ

def Content.isShieldClaim : Content → Bool
  | .shieldClaim _ => true
  | _ => false

def Content.isCertifierUpdate : Content → Bool
  | .certifierUpdate _ => true
  | _ => false

/-- The content as it is stored: a claim is given the ID of its proposal. -/
def Content.withProposalID (id : Nat) : Content → Content
  | .shieldClaim c => .shieldClaim { c with proposalID := id }
  | c => c

def Proposal.hasSecurityVoting (p : Proposal) : Bool :=
  match p.content with
  | .other _ => false
  | _ => true

namespace GovState

def empty (params : GovParams) : GovState where
  params := params
  nextProposalID := 1
  proposals := Table.empty
  inactiveProposalQueue := Table.empty
  activeProposalQueue := Table.empty
  deposits := Table.empty

def getProposal (g : GovState) (id : Nat) : Option Proposal := g.proposals.get id

def setProposal (g : GovState) (p : Proposal) : GovState :=
  { g with proposals := g.proposals.set p }

/-- The IDs in a queue whose time is not after `t`. -/
def queueUntil (q : ProposalQueue) (t : Time) : List Nat :=
  (q.rows.filter (fun key => (ofLex key).1 ≤ t)).map (fun key => (ofLex key).2)

/-- The proposal in its next voting period: the certifiers' if it has security voting and is
not in it yet, the validators' otherwise. -/
def inNextPeriod (ctx : Ctx) (votingPeriod : Duration) (p : Proposal) : Proposal :=
  let p' := { p with
    votingStartTime := ctx.blockTime
    votingEndTime := ctx.blockTime + votingPeriod }
  if p.hasSecurityVoting ∧ p.status ≠ .certifierVotingPeriod then
    { p' with status := .certifierVotingPeriod }
  else if p.status = .certifierVotingPeriod then { p' with status := .validatorVotingPeriod }
  else { p' with status := .validatorVotingPeriod, depositEndTime := ctx.blockTime }

def activateVotingPeriod (ctx : Ctx) (g : GovState) (p : Proposal) : GovState :=
  let p' := inNextPeriod ctx g.params.votingPeriod p
  let active :=
    if p.status = .certifierVotingPeriod then
      g.activeProposalQueue.delete (queueKey p.votingEndTime p.proposalID)
    else g.activeProposalQueue
  { g with
    proposals := g.proposals.set p'
    inactiveProposalQueue :=
      g.inactiveProposalQueue.delete (queueKey p.depositEndTime p.proposalID)
    activeProposalQueue := active.set (queueKey p'.votingEndTime p.proposalID) }

def upsertDeposit (g : GovState) (proposalID : Nat) (depositor : AccAddress) (amount : Coins) :
    GovState :=
  let deposit : Deposit :=
    match g.deposits.get (toLex (proposalID, depositor)) with
    | some d => { d with amount := d.amount.add amount }
    | none => ⟨proposalID, depositor, amount⟩
  { g with deposits := g.deposits.set deposit }

/-- Deposits of a proposal that is no longer in its deposit period, or whose proposer is a
council member, are refused. A claim enters its voting period with any deposit. -/
def addDeposit (k : Keepers σ) (ctx : Ctx) (g : GovState) (world : σ) (proposalID : Nat)
    (depositor : AccAddress) (amount : Coins) : Except Fault (GovState × σ) := do
  let proposal ← orFail (g.getProposal proposalID) (.error .unknownProposal)
  failIf (proposal.status ≠ .depositPeriod ∨ proposal.isProposerCouncilMember = true)
    (.error .alreadyActiveProposal)
  let world ← orFail (k.sendCoinsFromAccountToModule world depositor .gov amount)
    (.error .external)
  let proposal := { proposal with totalDeposit := proposal.totalDeposit.add amount }
  let g := g.setProposal proposal
  let g :=
    if Coins.isAllGTE proposal.totalDeposit g.params.minDeposit = true ∨
        proposal.content.isShieldClaim = true then g.activateVotingPeriod ctx proposal
    else g
  return (g.upsertDeposit proposalID depositor amount, world)

/-- Store a new proposal in its deposit period. -/
def newProposal (ctx : Ctx) (g : GovState) (content : Content) (proposer : AccAddress)
    (isCouncilMember : Bool) : Proposal × GovState :=
  let id := g.nextProposalID
  let proposal : Proposal :=
    { proposalID := id, content := content.withProposalID id, status := .depositPeriod,
      isProposerCouncilMember := isCouncilMember, proposerAddress := proposer,
      submitTime := ctx.blockTime, depositEndTime := ctx.blockTime + g.params.maxDepositPeriod,
      totalDeposit := [], votingStartTime := 0, votingEndTime := 0 }
  (proposal,
    { g with
      proposals := g.proposals.set proposal
      inactiveProposalQueue :=
        g.inactiveProposalQueue.set (queueKey proposal.depositEndTime id)
      nextProposalID := id + 1 })

/-- The deposits of a proposal in the order of the store. -/
def depositsOf (g : GovState) (id : Nat) : List Deposit :=
  g.deposits.rows.filter (fun d => d.proposalID = id)

/-- Take every deposit of a proposal out of the store and do with its coins what `use` says. -/
def closeDeposits (use : σ → Deposit → Option σ) (g : GovState) (world : σ) (id : Nat) :
    Except Fault (GovState × σ) :=
  (g.depositsOf id).foldlM (fun (g, world) d => do
    let world ← orFail (use world d) (.panic (.ofError .external))
    return ({ g with deposits := g.deposits.delete d.key }, world)) (g, world)

def refundDepositsByProposalID (k : Keepers σ) (g : GovState) (world : σ) (id : Nat) :
    Except Fault (GovState × σ) :=
  closeDeposits (fun world d => k.sendCoinsFromModuleToAccount world .gov d.depositor d.amount)
    g world id

def deleteDepositsByProposalID (k : Keepers σ) (g : GovState) (world : σ) (id : Nat) :
    Except Fault (GovState × σ) :=
  closeDeposits (fun world d => k.burnCoins world .gov d.amount) g world id

def deleteProposalByProposalID (g : GovState) (id : Nat) : Except Fault GovState := do
  let p ← orFail (g.getProposal id) (.panic .proposalNotFound)
  return { g with
    proposals := g.proposals.delete id
    inactiveProposalQueue := g.inactiveProposalQueue.delete (queueKey p.depositEndTime id)
    activeProposalQueue := g.activeProposalQueue.delete (queueKey p.votingEndTime id) }

/-- One proposal whose deposit period has ended. -/
def removeInactiveProposal (k : Keepers σ) (gw : GovState × σ) (id : Nat) :
    Except Fault (GovState × σ) := do
  let g ← gw.1.deleteProposalByProposalID id
  refundDepositsByProposalID k g gw.2 id

def removeInactiveProposals (k : Keepers σ) (ctx : Ctx) (g : GovState) (world : σ) :
    Except Fault (GovState × σ) :=
  (queueUntil g.inactiveProposalQueue ctx.blockTime).foldlM (removeInactiveProposal k) (g, world)

end GovState

end Shentu
