import Shentu.Gov.Votes

/-!
The count of the validators' round. A voter that operates a bonded validator votes with
all shares of the validator that are not voted otherwise; any other voter votes with its
own delegations to bonded validators. The power for a claim is compared with what the
certified identities have bonded. The count is written over the arithmetic it is done in:
the decimals of the code, or exact fractions.
-/

namespace Shentu

open Lib

open Cert (CertificateType RequestContentType)

def Delegation.storeKey (d : Delegation) : Nat ×ₗ Nat :=
  toLex (d.delegatorAddress, d.validatorAddress)

def Validator.isBonded (v : Validator) : Bool := v.status = .bonded

def Validator.getBondedTokens (v : Validator) : Int := if v.isBonded = true then v.tokens else 0

/-- The validators and the delegations as the staking module keeps them at the end of a block:
the shares of a validator are those of its delegations, and a bonded one has tokens. -/
structure Staking where
  validators : Table Validator.operatorAddress
  delegations : Table Delegation.storeKey
  totalBondedTokens : Int
  shares_pos : ∀ d ∈ delegations.rows, 0 < d.shares
  bonded_pos : ∀ v ∈ validators.rows, v.isBonded = true → 0 < v.tokens ∧ 0 < v.delegatorShares
  delegated : ∀ v ∈ validators.rows, v.delegatorShares = delegations.total (fun d =>
    if d.validatorAddress = v.operatorAddress then d.shares else 0)

namespace Staking

def bondedValidators (s : Staking) : Table Validator.operatorAddress :=
  s.validators.filter Validator.isBonded

def isBondedOperator (s : Staking) (a : AccAddress) : Bool := (s.bondedValidators.get a).isSome

/-- The delegations that an iteration for an address goes over. The iteration for the empty
address goes over all of them. -/
def delegationsFrom (s : Staking) : Option AccAddress → List Delegation
  | some a => s.delegations.rows.filter (fun d => d.delegatorAddress = a)
  | none => s.delegations.rows

abbrev delegationsOf (s : Staking) (a : AccAddress) : List Delegation := s.delegationsFrom (some a)

end Staking

/-- How addresses are written and read. -/
structure AddressCodec where
  string : AccAddress → String
  fromBech32 : String → Option AccAddress
  fromBech32_string : ∀ a, fromBech32 (string a) = some a

structure Certificate where
  certificateType : CertificateType
  requestContentType : RequestContentType
  requestContent : String
  deriving DecidableEq

def isCertifiedIdentity (codec : AddressCodec) (certs : List Certificate) (a : AccAddress) : Bool :=
  certs.any (fun c => c.certificateType = .identity ∧ c.requestContentType = .address ∧
    c.requestContent = codec.string a)

/-- One address for each identity certificate, whatever it is about. A content that is no
address gives the empty one. -/
def getCertifiedIdentities (codec : AddressCodec) (certs : List Certificate) :
    List (Option AccAddress) :=
  (certs.filter (fun c => c.certificateType = .identity)).map
    (fun c => codec.fromBech32 c.requestContent)

/-- The arithmetic of a count: whole tokens, the tokens behind some of the shares of a validator,
the tokens cut to whole ones, and quotients. -/
structure StakeArith (α : Type) [Zero α] where
  ofInt : Int → α
  power : (shares delegatorShares tokens : Int) → α
  truncate : α → α
  quo : α → α → α
  power_zero : ∀ shares delegatorShares, power shares delegatorShares 0 = 0
  truncate_zero : truncate 0 = 0

/-- The decimals of the code. -/
def decimal : StakeArith Int where
  ofInt := Dec.ofInt
  power shares delegatorShares tokens := Dec.mulInt (Dec.quo shares delegatorShares) tokens
  truncate a := Dec.ofInt (Dec.truncateInt a)
  quo := Dec.quo
  power_zero _ _ := by simp [Dec.mulInt]
  truncate_zero := by decide

/-- Fractions of tokens, without rounding. -/
def exact : StakeArith ℚ where
  ofInt i := i
  power shares delegatorShares tokens := (shares : ℚ) / delegatorShares * tokens
  truncate a := a
  quo a b := a / b
  power_zero _ _ := by simp
  truncate_zero := rfl

structure ValidatorGovInfo where
  address : ValAddress
  bondedTokens : Int
  delegatorShares : Int
  delegatorDeductions : Int
  vote : VoteOption

/-- The power counted so far, for each option and in all. -/
structure Counts (α : Type) where
  results : VoteOption → α
  totalVotingPower : α

/-- A count in progress. -/
structure Counting (α : Type) where
  currValidators : Table ValidatorGovInfo.address
  counts : Counts α

section

variable {α : Type} [AddCommGroup α]

def Counts.add (c : Counts α) (option : VoteOption) (power : α) : Counts α :=
  ⟨addPower c.results option power, c.totalVotingPower + power⟩

def fetchBondedValidators (s : Staking) : Table ValidatorGovInfo.address :=
  s.bondedValidators.map (fun v => ⟨v.operatorAddress, v.getBondedTokens, v.delegatorShares, 0,
    .empty⟩) (fun _ => rfl)

/-- One delegation of a voter, deducted from the validator if that is bonded. -/
def delegationVoting (ar : StakeArith α) (option : VoteOption) (t : Counting α) (d : Delegation) :
    Counting α :=
  match t.currValidators.get d.validatorAddress with
  | some val =>
    { currValidators := t.currValidators.set
        { val with delegatorDeductions := val.delegatorDeductions + d.shares }
      counts := t.counts.add option (ar.power d.shares val.delegatorShares val.bondedTokens) }
  | none => t

def delegatorVoting (ar : StakeArith α) (s : Staking) (t : Counting α) (vote : Vote) : Counting α :=
  (s.delegationsOf vote.voter).foldl (delegationVoting ar vote.option) t

/-- The vote of a validator is recorded for later, that of a delegator is counted. -/
def countVote (ar : StakeArith α) (s : Staking) (t : Counting α) (vote : Vote) : Counting α :=
  match t.currValidators.get vote.voter with
  | some val =>
    { t with currValidators := t.currValidators.set { val with vote := vote.option } }
  | none => delegatorVoting ar s t vote

def countValidator (ar : StakeArith α) (c : Counts α) (val : ValidatorGovInfo) : Counts α :=
  if val.vote = .empty then c
  else c.add val.vote (ar.power (val.delegatorShares - val.delegatorDeductions)
    val.delegatorShares val.bondedTokens)

/-- The power behind the votes on a proposal. -/
def stakeCount (ar : StakeArith α) (s : Staking) (votes : List Vote) : Counts α :=
  let t := votes.foldl (countVote ar s) ⟨fetchBondedValidators s, newResults, 0⟩
  t.currValidators.rows.foldl (countValidator ar) t.counts

/-- What a delegation has bonded. -/
def bondedPower (ar : StakeArith α) (s : Staking) (d : Delegation) : α :=
  match s.validators.get d.validatorAddress with
  | some val => ar.power d.shares val.delegatorShares val.getBondedTokens
  | none => 0

def totalBondedByCertifiedIdentities (ar : StakeArith α) (codec : AddressCodec)
    (certs : List Certificate) (s : Staking) : α :=
  ((getCertifiedIdentities codec certs).map (fun identity =>
    ((s.delegationsFrom identity).map (fun d => ar.truncate (bondedPower ar s d))).sum)).sum

variable [LinearOrder α]

/-- Whether a proposal passes or is vetoed, when the power that voted is compared with
`totalBonded`. -/
def passAndVeto (ar : StakeArith α) (totalBonded : α) (th : TallyHelper α) : Bool × Bool :=
  if totalBonded = 0 then (false, false)
  else if ar.quo th.totalVotingPower totalBonded < th.tallyParams.quorum then (false, false)
  else if th.totalVotingPower - th.results .abstain = 0 then (false, false)
  else if th.tallyParams.veto < ar.quo (th.results .noWithVeto) th.totalVotingPower then
    (false, true)
  else if th.tallyParams.threshold <
      ar.quo (th.results .yes) (th.totalVotingPower - th.results .abstain) then (true, false)
  else (false, false)

def passAndVetoStakeResult (ar : StakeArith α) (totalBondedTokens : α) (th : TallyHelper α) :
    Bool × Bool :=
  passAndVeto ar totalBondedTokens th

def passAndVetoStakeResultForShieldClaim (ar : StakeArith α) (codec : AddressCodec)
    (certs : List Certificate) (s : Staking) (th : TallyHelper α) : Bool × Bool :=
  passAndVeto ar (totalBondedByCertifiedIdentities ar codec certs s) th

/-- The parameters of the count for a certifier update and for the other contents. -/
structure StakeTallyParams (α : Type) where
  defaultTally : TallyParams α
  certifierUpdateStakeVoteTally : TallyParams α

/-- The count of the validators' round: whether the proposal passes, whether it is vetoed, and
the power for each option. -/
def tally (ar : StakeArith α) (codec : AddressCodec) (certs : List Certificate) (s : Staking)
    (params : StakeTallyParams α) (votes : List Vote) (content : Content) :
    (Bool × Bool) × (VoteOption → α) :=
  let c := stakeCount ar s votes
  let tp :=
    if content.isCertifierUpdate = true then params.certifierUpdateStakeVoteTally
    else params.defaultTally
  let th : TallyHelper α := ⟨c.totalVotingPower, tp, c.results⟩
  (if content.isShieldClaim = true then
      passAndVetoStakeResultForShieldClaim ar codec certs s th
    else passAndVetoStakeResult ar (ar.ofInt s.totalBondedTokens) th, c.results)

end

end Shentu
