import Shentu.Chain
import Shentu.Cert.Certifiers

/-!
Votes on the proposals of the gov module and the certifiers of the cert module. A vote
is checked when it is cast: in the certifiers' round it comes from a certifier, and in
the second round of a claim from a certified identity. The count of the certifiers'
round goes over the recorded votes, one head each. Certifiers come and go by proposals
that pass, at any moment of a voting round.
-/

namespace Shentu

open Lib

variable {σ : Type}

inductive VoteOption
  | empty | yes | abstain | no | noWithVeto
  deriving DecidableEq

def validVoteOption (option : VoteOption) : Bool := option ≠ .empty

structure Vote where
  proposalID : Nat
  voter : AccAddress
  option : VoteOption
  deriving DecidableEq

def Vote.key (v : Vote) : Nat ×ₗ Nat := toLex (v.proposalID, v.voter)

abbrev Votes := Table Vote.key

inductive VotingErr
  | unknownProposal | inactiveProposal | invalidVote
  deriving DecidableEq

/-- The chain with the votes and the certifiers. -/
structure VotingChain (σ : Type) where
  chain : Chain σ
  votes : Votes
  certifiers : CertifierBook

namespace VotingChain

variable (s : VotingChain σ)

def getProposal (id : Nat) : Option Proposal := s.chain.gov.getProposal id

def getVote (id : Nat) (voter : AccAddress) : Option Vote :=
  s.votes.get (toLex (id, voter))

/-- The votes on a proposal in the order of the store. -/
def getVotes (id : Nat) : List Vote :=
  s.votes.rows.filter (fun v => v.proposalID = id)

/-- Record a vote. A second vote of the same address takes the place of the first. -/
def addVote (isCertifiedIdentity : σ → AccAddress → Bool) (s : VotingChain σ) (proposalID : Nat)
    (voter : AccAddress) (option : VoteOption) : Except VotingErr (VotingChain σ) := do
  let proposal ← orFail (s.getProposal proposalID) .unknownProposal
  failIf (proposal.status ≠ .certifierVotingPeriod ∧ proposal.status ≠ .validatorVotingPeriod)
    .inactiveProposal
  failIf (validVoteOption option = false) .invalidVote
  failIf (proposal.status = .certifierVotingPeriod ∧ ¬ (option = .yes ∨ option = .no)) .invalidVote
  failIf (proposal.status = .certifierVotingPeriod ∧ s.certifiers.isCertifier voter = false)
    .invalidVote
  failIf (proposal.content.isShieldClaim = true ∧ proposal.status = .validatorVotingPeriod ∧
    isCertifiedIdentity s.chain.shield.world voter = false) .invalidVote
  return { s with votes := s.votes.set ⟨proposalID, voter, option⟩ }

end VotingChain

/-- The end of a voting period deletes the votes on the proposal if it enters its second
round, and the count of the stake deletes the votes that it reads. A proposal that ends with
the certifiers' round keeps its votes. -/
def votesDeleted (before after : Option Proposal) : Bool :=
  match before, after with
  | some p, some p' =>
    (p.status = .certifierVotingPeriod ∧ p'.status = .validatorVotingPeriod) ∨
      (p.status = .validatorVotingPeriod ∧ p'.status ≠ .validatorVotingPeriod)
  | _, _ => false

inductive VotingEvent (σ : Type)
  | chain (e : Event σ)
  | vote (proposalID : Nat) (voter : AccAddress) (option : VoteOption)
  /-- The handler of a certifier update that has passed. -/
  | certifierUpdate (p : CertifierUpdateProposal)

/-- An event of the chain deletes the votes that it has counted; a vote or an update that
fails changes nothing. -/
def VotingChain.exec (k : ChainKeepers σ) (isCertifiedIdentity : σ → AccAddress → Bool)
    (s : VotingChain σ) : VotingEvent σ → Except Fault (VotingChain σ)
  | .chain e => do
    let c ← Shentu.exec k s.chain e
    return { s with
      chain := c
      votes := s.votes.filter (fun v =>
        !votesDeleted (s.getProposal v.proposalID) (c.gov.getProposal v.proposalID)) }
  | .vote proposalID voter option =>
    match s.addVote isCertifiedIdentity proposalID voter option with
    | .ok s' => .ok s'
    | .error _ => .ok s
  | .certifierUpdate p =>
    match s.certifiers.handleCertifierUpdateProposal p with
    | .ok b => .ok { s with certifiers := b }
    | .error _ => .ok s

def VotingChain.run (k : ChainKeepers σ) (isCertifiedIdentity : σ → AccAddress → Bool)
    (s : VotingChain σ) (es : List (VotingEvent σ)) : Except Fault (VotingChain σ) :=
  es.foldlM (VotingChain.exec k isCertifiedIdentity) s

/-- The chain before its first block, without votes and with the given certifiers. -/
def VotingChain.start (c : Chain σ) (b : CertifierBook) : VotingChain σ := ⟨c, Table.empty, b⟩

structure TallyParams (α : Type) where
  quorum : α
  threshold : α
  veto : α

/-- The power that voted, in all and for each option. -/
structure TallyHelper (α : Type) where
  totalVotingPower : α
  tallyParams : TallyParams α
  results : VoteOption → α

def newResults {α : Type} [Zero α] : VoteOption → α := fun _ => 0

/-- The results with more power for one option. -/
def addPower {α : Type} [Add α] (results : VoteOption → α) (option : VoteOption) (power : α) :
    VoteOption → α :=
  fun o => if o = option then results o + power else results o

/-- One recorded vote in the count of heads. -/
def countHead (acc : (VoteOption → Int) × Int) (vote : Vote) : (VoteOption → Int) × Int :=
  if vote.option = .empty then acc
  else (addPower acc.1 vote.option (Dec.ofInt 1), acc.2 + Dec.ofInt 1)

def passAndVetoSecurityResult (nCertifiers : Nat) (th : TallyHelper Int) : Bool :=
  if nCertifiers = 0 then false
  else if Dec.quo th.totalVotingPower (Dec.ofInt nCertifiers) < th.tallyParams.quorum then false
  else if th.totalVotingPower = 0 then false
  else decide (th.tallyParams.threshold < Dec.quo (th.results .yes) th.totalVotingPower)

/-- What is counted in the certifiers' round. -/
def VotingChain.securityCount (s : VotingChain σ) (tp : TallyParams Int) (id : Nat) :
    TallyHelper Int :=
  let counts := (s.getVotes id).foldl countHead (newResults, 0)
  ⟨counts.2, tp, counts.1⟩

/-- The count of the certifiers' round: whether the proposal passes it, and whether that
ends the vote. -/
def VotingChain.securityTally (s : VotingChain σ) (tp : TallyParams Int) (p : Proposal) :
    Bool × Bool :=
  let pass := passAndVetoSecurityResult s.certifiers.certifiers.rows.length
    (s.securityCount tp p.proposalID)
  let isCert := p.content.isCertifierUpdate
  (pass, (pass && isCert) || (!pass && !isCert))

end Shentu
