import Shentu.Gov.StakeCount
import Shentu.HeadCount

/-!
The count of the stake behind a claim, compared between two states of the staking module
in which the certified identities have bonded the same. If every voter is an identity at
the time of the count and none operates a bonded validator, the counted power is the same,
and it is not more than what the identities have bonded.
-/

namespace Shentu

open Lib List Dec

/-- What the checks of a vote and the store make sure of. -/
structure CastVotes (votes : List Vote) : Prop where
  distinct : (votes.map Vote.voter).Nodup
  valid : ∀ v ∈ votes, v.option ≠ .empty

section Votes

variable {σ : Type} {k : ChainKeepers σ} {isCertifiedIdentity : σ → AccAddress → Bool}
  {t : VotingChain σ} {es : List (VotingEvent σ)}

/-- The votes recorded on a proposal in any run are such. -/
lemma VotingChain.castVotes_of_run {c : Chain σ} {b : CertifierBook}
    (hrun : (start c b).run k isCertifiedIdentity es = .ok t) (id : Nat) :
    CastVotes (t.getVotes id) := by
  have hvalid : ∀ v ∈ t.votes.rows, v.option ≠ .empty := by
    refine foldlM_invariant (P := fun t : VotingChain σ => ∀ v ∈ t.votes.rows, v.option ≠ .empty)
      ?_ (fun v hv => by cases hv) hrun
    intro e _ t1 t2 h hexec
    cases e with
    | chain e =>
      simp only [exec, run_eq_ok] at hexec
      obtain ⟨c', -, rfl⟩ := hexec
      exact fun v hv => h v (Table.mem_filter.mp hv).1
    | vote id voter option =>
      simp only [exec] at hexec
      split at hexec
      · rename_i t3 hadd
        cases hexec
        simp only [addVote, run_eq_ok] at hadd
        obtain ⟨p, -, -, hoption, -, -, -, rfl⟩ := hadd
        intro v hv
        rcases Table.mem_set.mp hv with rfl | ⟨hold, -⟩
        · simpa [validVoteOption] using hoption
        · exact h v hold
      · cases hexec
        exact h
    | certifierUpdate p =>
      simp only [exec] at hexec
      split at hexec <;> cases hexec <;> exact h
  exact ⟨voters_nodup t id, fun v hv => hvalid v (mem_getVotes.mp hv).1⟩

/-- On every proposal of every run each address has one vote, no vote is empty, and a vote in
the certifiers' round says yes or no. A proposal in its deposit period has none. -/
theorem VotingChain.votes_of_run {params : ShieldParams} {govParams : GovParams} {world : σ}
    {ctx : Ctx} {certifiers : CertifierBook} (hrun : (start (Chain.empty params govParams world ctx)
      certifiers).run k isCertifiedIdentity es = .ok t) (id : Nat) : CastVotes (t.getVotes id) ∧
      ∀ v ∈ t.getVotes id, Voted t.chain.gov id (v.option = .yes ∨ v.option = .no) := by
  refine ⟨castVotes_of_run hrun id, fun v hv => ?_⟩
  obtain ⟨hmem, rfl⟩ := mem_getVotes.mp hv
  exact run_votesSound (GovSound.empty govParams) (fun v hv => by cases hv) hrun v hmem

theorem VotingChain.votes_of_upgradeVote : ∃ s : VotingChain Ledger,
    (start ledgerStart twoCertifiers).run ledgerChainKeepers (fun _ _ => false) upgradeVote =
      .ok s ∧ s.getVotes 1 = [⟨1, 1, .yes⟩] ∧ CastVotes (s.getVotes 1) := by
  obtain ⟨s, hs, hvotes⟩ : ∃ s, (start ledgerStart twoCertifiers).run ledgerChainKeepers
      (fun _ _ => false) upgradeVote = .ok s ∧ s.getVotes 1 = [⟨1, 1, .yes⟩] := by
    decide +kernel
  exact ⟨s, hs, hvotes, (votes_of_run hs 1).1⟩

end Votes

/-- A validator keeps its status and its tokens per share. -/
def SameRate : Option Validator → Option Validator → Prop
  | some v, some v' => v'.status = v.status ∧
      v.tokens * v'.delegatorShares = v'.tokens * v.delegatorShares
  | none, none => True
  | _, _ => False

/-- Only addresses that are not certified identities have changed what they have bonded. -/
structure SameCertifiedStake (codec : AddressCodec) (certs : List Certificate) (s s' : Staking) :
    Prop where
  validators : ∀ a, SameRate (s.validators.get a) (s'.validators.get a)
  delegations : ∀ a, isCertifiedIdentity codec certs a = true →
    s'.delegationsOf a = s.delegationsOf a

/-- Every voter is a certified identity and none operates a bonded validator. -/
def IdentitiesVote (codec : AddressCodec) (certs : List Certificate) (s : Staking)
    (votes : List Vote) : Prop :=
  ∀ v ∈ votes, isCertifiedIdentity codec certs v.voter = true ∧
    s.isBondedOperator v.voter = false

/-- What an identity certificate is about is a certified identity. -/
def IsListed (codec : AddressCodec) (certs : List Certificate) (i : Option AccAddress) : Prop :=
  ∃ a, i = some a ∧ isCertifiedIdentity codec certs a = true

/-- Every identity certificate is about the address of a certified identity. -/
def IdentitiesListed (codec : AddressCodec) (certs : List Certificate) : Prop :=
  ∀ i ∈ getCertifiedIdentities codec certs, IsListed codec certs i

variable {codec : AddressCodec} {certs : List Certificate} {s s' : Staking} {votes : List Vote}

lemma mem_bondedValidators {v : Validator} :
    v ∈ s.bondedValidators.rows ↔ v ∈ s.validators.rows ∧ v.isBonded = true :=
  Table.mem_filter

lemma bondedValidators_pos {v : Validator} (h : v ∈ s.bondedValidators.rows) :
    0 < v.tokens ∧ 0 < v.delegatorShares :=
  s.bonded_pos v (mem_bondedValidators.mp h).1 (mem_bondedValidators.mp h).2

lemma SameRate.cases {o o' : Option Validator} (h : SameRate o o') :
    (o = none ∧ o' = none) ∨ ∃ v v', o = some v ∧ o' = some v' ∧ v'.isBonded = v.isBonded ∧
      v.tokens * v'.delegatorShares = v'.tokens * v.delegatorShares := by
  cases o with
  | none =>
    cases o' with
    | none => exact .inl ⟨rfl, rfl⟩
    | some v' => cases h
  | some v =>
    cases o' with
    | none => cases h
    | some v' => exact .inr ⟨v, v', rfl, rfl, by simp [Validator.isBonded, h.1], h.2⟩

namespace SameCertifiedStake

lemma isBondedOperator (h : SameCertifiedStake codec certs s s') (a : AccAddress) :
    s'.isBondedOperator a = s.isBondedOperator a := by
  simp only [Staking.isBondedOperator, Staking.bondedValidators, Table.get_filter]
  rcases (h.validators a).cases with ⟨hget, hget'⟩ | ⟨v, v', hget, hget', hbonded, -⟩
  · rw [hget, hget']
  · rw [hget, hget', Option.filter_some, Option.filter_some, hbonded]
    split <;> rfl

lemma bondedPower (h : SameCertifiedStake codec certs s s') (d : Delegation) :
    Shentu.bondedPower exact s' d = Shentu.bondedPower exact s d := by
  unfold Shentu.bondedPower
  rcases (h.validators d.validatorAddress).cases with
    ⟨hget, hget'⟩ | ⟨v, v', hget, hget', hbonded, hcross⟩
  · rw [hget, hget']
  · rw [hget, hget']
    simp only [Validator.getBondedTokens, hbonded]
    by_cases hv : v.isBonded = true
    · have hpos := (s.bonded_pos v (Table.mem_of_get hget) hv).2
      have hpos' := (s'.bonded_pos v' (Table.mem_of_get hget') (hbonded.trans hv)).2
      have hne : (v.delegatorShares : ℚ) ≠ 0 := by exact_mod_cast hpos.ne'
      have hne' : (v'.delegatorShares : ℚ) ≠ 0 := by exact_mod_cast hpos'.ne'
      have hcrossℚ : (v.tokens : ℚ) * v'.delegatorShares = v'.tokens * v.delegatorShares := by
        exact_mod_cast hcross
      simp only [if_pos hv, exact]
      field_simp
      linear_combination (-(d.shares : ℚ)) * hcrossℚ
    · simp [hv, exact]

lemma bondedBy (h : SameCertifiedStake codec certs s s') (ds : List Delegation) :
    Shentu.bondedBy exact s' ds = Shentu.bondedBy exact s ds := by
  unfold Shentu.bondedBy
  rw [map_congr_left (fun d _ => h.bondedPower d)]

lemma stakeCount_at (h : SameCertifiedStake codec certs s s')
    (hvote : IdentitiesVote codec certs s votes) (o : Option VoteOption) :
    (stakeCount exact s' votes).at o = (stakeCount exact s votes).at o := by
  rw [stakeCount_delegators exact (fun v hv => (hvote v hv).2) o, stakeCount_delegators exact
      (fun v hv => (h.isBondedOperator v.voter).trans (hvote v hv).2) o]
  congr 1
  refine map_congr_left ?_
  intro v hv
  rw [h.bondedBy, h.delegations v.voter (hvote v hv).1]

lemma identitiesVote (h : SameCertifiedStake codec certs s s')
    (hvote : IdentitiesVote codec certs s votes) : IdentitiesVote codec certs s' votes :=
  fun v hv => ⟨(hvote v hv).1, (h.isBondedOperator v.voter).trans (hvote v hv).2⟩

lemma totalBonded (h : SameCertifiedStake codec certs s s')
    (hlisted : IdentitiesListed codec certs) :
    totalBondedByCertifiedIdentities exact codec certs s' =
      totalBondedByCertifiedIdentities exact codec certs s := by
  unfold totalBondedByCertifiedIdentities
  congr 1
  refine map_congr_left ?_
  intro i hi
  obtain ⟨a, rfl, ha⟩ := hlisted i hi
  have hdelegations : s'.delegationsFrom (some a) = s.delegationsFrom (some a) :=
    h.delegations a ha
  rw [hdelegations, map_congr_left (fun d _ => congrArg exact.truncate (h.bondedPower d))]

end SameCertifiedStake

/-- The tokens of the bonded validator of a delegation. -/
def tokensBehind (s : Staking) (d : Delegation) : Int :=
  match s.bondedValidators.get d.validatorAddress with
  | some v => v.tokens
  | none => 0

/-- The bonded power of a stored delegation in decimals: it is not negative, and it is off by at
most one unit for each token of the validator. -/
lemma bondedPower_decimal {d : Delegation} (hd : d ∈ s.delegations.rows) :
    0 ≤ bondedPower decimal s d ∧
      |((bondedPower decimal s d : Int) : ℚ) - Dec.one * bondedPower exact s d| ≤
        tokensBehind s d := by
  rw [bondedPower_eq, bondedPower_eq, tokensBehind]
  cases hget : s.bondedValidators.get d.validatorAddress with
  | none => simp
  | some v =>
    have hmem : v ∈ s.bondedValidators.rows := Table.mem_of_get hget
    obtain ⟨htokens, hshares⟩ := bondedValidators_pos hmem
    have hbonded : v.getBondedTokens = v.tokens :=
      if_pos (mem_bondedValidators.mp hmem).2
    have hd0 : 0 ≤ d.shares := (s.shares_pos d hd).le
    have htokensℚ : (0 : ℚ) ≤ v.tokens := by exact_mod_cast htokens.le
    refine ⟨Int.mul_nonneg (quo_nonneg hd0 hshares.le) (hbonded ▸ htokens.le), ?_⟩
    have hfactor : ((decimal.power d.shares v.delegatorShares v.getBondedTokens : Int) : ℚ) -
        Dec.one * exact.power d.shares v.delegatorShares v.getBondedTokens =
        ((Dec.quo d.shares v.delegatorShares : ℚ) -
          Dec.one * (d.shares / v.delegatorShares)) * v.tokens := by
      simp only [decimal, exact, Dec.mulInt, hbonded]
      push_cast
      ring
    rw [hfactor, abs_mul, abs_of_nonneg htokensℚ]
    exact mul_le_of_le_one_left htokensℚ (abs_quo_sub_le hd0 hshares)

lemma abs_sum_sub_le {β : Type} {l : List β} {f e : β → Int} {g : β → ℚ} {c : ℚ}
    (h : ∀ x ∈ l, |(f x : ℚ) - c * g x| ≤ e x) :
    |((l.map f).sum : ℚ) - c * (l.map g).sum| ≤ (l.map e).sum := by
  induction l with
  | nil => simp
  | cons x l ih =>
    have hx := h x mem_cons_self
    have hl := ih (fun y hy => h y (mem_cons_of_mem _ hy))
    simp only [map_cons, sum_cons, Int.cast_add, mul_add, add_sub_add_comm]
    exact (abs_add_le _ _).trans (add_le_add hx hl)

/-- The delegations of the voters. -/
def votersDelegations (s : Staking) (votes : List Vote) : List Delegation :=
  votes.flatMap (fun v => s.delegationsOf v.voter)

/-- What rounding can take from a count or add to it, in units of the last digit. -/
def countRounding (s : Staking) (votes : List Vote) : Int :=
  ((votersDelegations s votes).map (tokensBehind s)).sum

/-- When only identities vote, the decimal count is the exact one up to one unit for each token
of a validator, once for each delegation of a voter. -/
lemma stakeCount_decimal (hvote : IdentitiesVote codec certs s votes) (o : Option VoteOption) :
    |((stakeCount decimal s votes).at o : ℚ) - Dec.one * (stakeCount exact s votes).at o| ≤
      countRounding s votes := by
  have hop : ∀ v ∈ votes, s.isBondedOperator v.voter = false := fun v hv => (hvote v hv).2
  have hsum : countRounding s votes = (votes.map (fun v =>
      ((s.delegationsOf v.voter).map (tokensBehind s)).sum)).sum := by
    rw [countRounding, votersDelegations, map_flatMap, flatMap_def, sum_flatten, map_map]
    rfl
  rw [stakeCount_delegators decimal hop, stakeCount_delegators exact hop, hsum]
  refine abs_sum_sub_le ?_
  intro v hv
  have hdelegations : |((bondedBy decimal s (s.delegationsOf v.voter) : Int) : ℚ) -
      Dec.one * bondedBy exact s (s.delegationsOf v.voter)| ≤
        ((s.delegationsOf v.voter).map (tokensBehind s)).sum :=
    abs_sum_sub_le (fun d hd => (bondedPower_decimal (mem_filter.mp hd).1).2)
  split
  · exact hdelegations
  · simpa using (abs_nonneg _).trans hdelegations

/-- The whole tokens that an identity is taken to have bonded. -/
def wholeBonded (s : Staking) (i : Option AccAddress) : Int :=
  ((s.delegationsFrom i).map (fun d => decimal.truncate (bondedPower decimal s d))).sum

lemma mem_delegationsFrom {i : Option AccAddress} {d : Delegation}
    (h : d ∈ s.delegationsFrom i) : d ∈ s.delegations.rows := by
  cases i with
  | none => exact h
  | some a => exact (mem_filter.mp h).1

/-- What rounding can take from the total of the identities or add to it: each delegation is cut to
whole tokens. -/
def bondedRounding (codec : AddressCodec) (certs : List Certificate) (s : Staking) : Int :=
  ((getCertifiedIdentities codec certs).map (fun i =>
    ((s.delegationsFrom i).map (fun d => Dec.one + tokensBehind s d)).sum)).sum

lemma totalBonded_decimal (codec : AddressCodec) (certs : List Certificate) (s : Staking) :
    |((totalBondedByCertifiedIdentities decimal codec certs s : Int) : ℚ) -
      Dec.one * totalBondedByCertifiedIdentities exact codec certs s| ≤
        bondedRounding codec certs s := by
  refine abs_sum_sub_le fun i _ => abs_sum_sub_le fun d hd => ?_
  obtain ⟨hnonneg, hnear⟩ := bondedPower_decimal (mem_delegationsFrom hd)
  have hcut : |((decimal.truncate (bondedPower decimal s d) : Int) : ℚ) -
      bondedPower decimal s d| ≤ Dec.one := by
    have hle := truncateInt_mul_one_le hnonneg
    have hge := le_truncateInt_mul_one_add hnonneg
    have hint : |truncateInt (bondedPower decimal s d) * Dec.one - bondedPower decimal s d| ≤
        Dec.one := abs_le.mpr ⟨by omega, by omega⟩
    exact_mod_cast hint
  push_cast
  exact (abs_sub_le _ _ _).trans (add_le_add hcut hnear)

lemma wholeBonded_nonneg (s : Staking) (i : Option AccAddress) : 0 ≤ wholeBonded s i := by
  refine sum_nonneg (forall_mem_map.mpr ?_)
  intro d hd
  exact ofInt_nonneg (truncateInt_nonneg (bondedPower_decimal (mem_delegationsFrom hd)).1)

lemma bondedBy_le_wholeBonded (s : Staking) (a : AccAddress) :
    bondedBy decimal s (s.delegationsOf a) ≤
      wholeBonded s (some a) + Dec.ofInt (s.delegationsOf a).length := by
  have hall : ∀ ds : List Delegation, (∀ d ∈ ds, d ∈ s.delegations.rows) → bondedBy decimal s ds ≤
        (ds.map (fun d => decimal.truncate (bondedPower decimal s d))).sum +
          Dec.ofInt ds.length := by
    intro ds hds
    induction ds with
    | nil => simp [bondedBy, Dec.ofInt]
    | cons d ds ih =>
      have hd := le_truncateInt_mul_one_add (bondedPower_decimal (hds d mem_cons_self)).1
      have hrest := ih (fun d' hd' => hds d' (mem_cons_of_mem _ hd'))
      simp only [bondedBy, map_cons, sum_cons, length_cons, Nat.cast_add,
        Nat.cast_one, Dec.ofInt, decimal, Int.add_mul, Int.one_mul] at hd hrest ⊢
      omega
  exact hall _ (fun d hd => mem_delegationsFrom hd)

lemma mem_getCertifiedIdentities {a : AccAddress} (h : isCertifiedIdentity codec certs a = true) :
    some a ∈ getCertifiedIdentities codec certs := by
  simp only [isCertifiedIdentity, any_eq_true, decide_eq_true_eq] at h
  obtain ⟨c, hc, htype, -, hcontent⟩ := h
  refine mem_map.mpr ⟨c, mem_filter.mpr ⟨hc, decide_eq_true htype⟩, ?_⟩
  rw [hcontent, codec.fromBech32_string]

lemma sum_wholeBonded_le (hcast : CastVotes votes) (hvote : IdentitiesVote codec certs s votes) :
    (votes.map (fun v => wholeBonded s (some v.voter))).sum ≤
      totalBondedByCertifiedIdentities decimal codec certs s := by
  have hnodup : (votes.map (fun v => some v.voter)).Nodup := by
    have := hcast.distinct.map (Option.some_injective AccAddress)
    rwa [map_map] at this
  have hsubset : votes.map (fun v => some v.voter) ⊆ getCertifiedIdentities codec certs := by
    intro i hi
    obtain ⟨v, hv, rfl⟩ := mem_map.mp hi
    exact mem_getCertifiedIdentities (hvote v hv).1
  obtain ⟨l, hperm, hsublist⟩ := hnodup.subperm hsubset
  have hle : (l.map (wholeBonded s)).sum ≤
      ((getCertifiedIdentities codec certs).map (wholeBonded s)).sum := by
    refine (hsublist.map (wholeBonded s)).sum_le_sum (forall_mem_map.mpr ?_)
    intro i _
    exact wholeBonded_nonneg s i
  rw [(hperm.map (wholeBonded s)).sum_eq, map_map] at hle
  exact hle

/-- When only identities vote, not more is counted than they have bonded, up to one token for
each delegation of a voter. -/
lemma stakeCount_bounded (hcast : CastVotes votes) (hvote : IdentitiesVote codec certs s votes) :
    (stakeCount decimal s votes).totalVotingPower ≤
      totalBondedByCertifiedIdentities decimal codec certs s +
        Dec.ofInt (votersDelegations s votes).length := by
  have htotal := stakeCount_delegators decimal (fun v hv => (hvote v hv).2) none
  have hvoters : (votes.map (fun v => bondedBy decimal s (s.delegationsOf v.voter))).sum ≤
      (votes.map (fun v => wholeBonded s (some v.voter))).sum +
        Dec.ofInt (votersDelegations s votes).length := by
    clear htotal hcast hvote
    induction votes with
    | nil => simp [votersDelegations, Dec.ofInt]
    | cons v votes ih =>
      have hv := bondedBy_le_wholeBonded s v.voter
      simp only [votersDelegations, flatMap_cons, length_append, map_cons,
        sum_cons, Nat.cast_add, Dec.ofInt, Int.add_mul] at hv ih ⊢
      omega
  have hsum := sum_wholeBonded_le hcast hvote
  simp only [Counts.at, countsAt, if_true] at htotal
  rw [htotal]
  omega

section Rounding

variable (h : SameCertifiedStake codec certs s s')
include h

/-- The decimal counts of two states in which the identities have bonded the same. -/
lemma SameCertifiedStake.stakeCount_decimal (hvote : IdentitiesVote codec certs s votes)
    (o : Option VoteOption) :
    |(stakeCount decimal s' votes).at o - (stakeCount decimal s votes).at o| ≤
      countRounding s' votes + countRounding s votes := by
  have hnear := Shentu.stakeCount_decimal hvote o
  have hnear' := Shentu.stakeCount_decimal (h.identitiesVote hvote) o
  rw [h.stakeCount_at hvote, abs_sub_le_iff] at hnear'
  rw [abs_sub_le_iff] at hnear
  have hdiff : |((stakeCount decimal s' votes).at o : ℚ) - (stakeCount decimal s votes).at o| ≤
      countRounding s' votes + countRounding s votes :=
    abs_sub_le_iff.mpr ⟨by linarith, by linarith⟩
  exact_mod_cast hdiff

lemma SameCertifiedStake.totalBonded_decimal (hlisted : IdentitiesListed codec certs) :
    |totalBondedByCertifiedIdentities decimal codec certs s' -
      totalBondedByCertifiedIdentities decimal codec certs s| ≤
        bondedRounding codec certs s' + bondedRounding codec certs s := by
  have hnear := Shentu.totalBonded_decimal codec certs s
  have hnear' := Shentu.totalBonded_decimal codec certs s'
  rw [h.totalBonded hlisted, abs_sub_le_iff] at hnear'
  rw [abs_sub_le_iff] at hnear
  have hdiff : |((totalBondedByCertifiedIdentities decimal codec certs s' : Int) : ℚ) -
      totalBondedByCertifiedIdentities decimal codec certs s| ≤
        bondedRounding codec certs s' + bondedRounding codec certs s :=
    abs_sub_le_iff.mpr ⟨by linarith, by linarith⟩
  exact_mod_cast hdiff

end Rounding

end Shentu
