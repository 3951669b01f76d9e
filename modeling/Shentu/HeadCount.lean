import Shentu.Gov.Votes
import Shentu.TwoRounds

/-!
The heads that are counted in the certifiers' round. Every vote that is recorded on a
proposal in this round says yes or no and was cast by a certifier. The count goes over
the recorded votes only, so it agrees with the certifiers as long as none of those who
voted has been removed.
-/

namespace Shentu

open Lib List

variable {σ : Type}

/-- The proposal can have votes, and in the certifiers' round they are as `c` says. -/
def Voted (g : GovState) (id : Nat) (c : Prop) : Prop :=
  ∃ p, g.getProposal id = some p ∧ p.status ≠ .depositPeriod ∧
    (p.status = .certifierVotingPeriod → c)

/-- A proposal does not come back to its deposit period or to the certifiers' round. -/
lemma GovMove.voted {k : ChainKeepers σ} {rules : GovRules σ} {b b' : GovState × σ × Trace}
    (hmove : GovMove k rules b b') (hsound : GovSound b.1) {id : Nat} {c : Prop}
    (h : Voted b.1 id c) : Voted b'.1 id c := by
  obtain ⟨p, hp, hdeposit, hc⟩ := h
  have hlive := hmove.livesOn.2 id ((hsound id).fresh p hp)
  rw [hp] at hlive
  have hstage : 0 < p.status.stage := by
    cases hstatus : p.status <;> simp_all [ProposalStatus.stage]
  obtain ⟨q, hq, hlater⟩ := hlive.later hstage
  have hle := hlater.stage
  refine ⟨q, hq, ?_, ?_⟩
  · intro hstatus
    rw [hstatus] at hle
    exact absurd hle hstage.not_ge
  · intro hstatus
    apply hc
    rw [hstatus] at hle
    cases hp : p.status <;> simp_all [ProposalStatus.stage]

/-- Votes are about proposals that have left their deposit period, and those on a proposal in
the certifiers' round say yes or no. -/
def VotesSound (g : GovState) (votes : Votes) : Prop :=
  ∀ v ∈ votes.rows, Voted g v.proposalID (v.option = .yes ∨ v.option = .no)

namespace VotingChain

variable {k : ChainKeepers σ} {isCertifiedIdentity : σ → AccAddress → Bool} {s s' : VotingChain σ}

variable {id : Nat}

lemma addVote_cases {voter : AccAddress} {option : VoteOption}
    (h : s.addVote isCertifiedIdentity id voter option = .ok s') :
    Voted s.chain.gov id (option = .yes ∨ option = .no) ∧
      s' = { s with votes := s.votes.set ⟨id, voter, option⟩ } := by
  simp only [addVote, run_eq_ok] at h
  obtain ⟨p, hp, hstatus, -, hoption, -, -, rfl⟩ := h
  refine ⟨⟨p, hp, ?_, ?_⟩, rfl⟩
  · intro hdeposit
    simp [hdeposit] at hstatus
  · intro hround
    by_contra hne
    exact hoption ⟨hround, hne⟩

/-- The certifiers and the votes change independently of each other. -/
lemma exec_votesSound {e : VotingEvent σ} (hsound : GovSound s.chain.gov)
    (h : VotesSound s.chain.gov s.votes) (hexec : s.exec k isCertifiedIdentity e = .ok s') :
    GovSound s'.chain.gov ∧ VotesSound s'.chain.gov s'.votes := by
  cases e with
  | chain e =>
    simp only [exec, run_eq_ok] at hexec
    obtain ⟨c, hc, rfl⟩ := hexec
    have hrun : Shentu.run k s.chain [e] = .ok c := by
      simpa [Shentu.run] using hc
    refine ⟨(run_govInvariant (P := fun _ => True) (fun _ _ _ _ _ => trivial) hsound trivial
      hrun).1, ?_⟩
    intro v hv
    exact (run_govInvariant (P := fun g => Voted g v.proposalID (v.option = .yes ∨ v.option = .no))
      (fun _ _ hs hP hmove => hmove.voted hs hP) hsound (h v (Table.mem_filter.mp hv).1) hrun).2
  | vote id voter option =>
    simp only [exec] at hexec
    cases hadd : s.addVote isCertifiedIdentity id voter option with
    | error f =>
      rw [hadd] at hexec
      cases hexec
      exact ⟨hsound, h⟩
    | ok s1 =>
      rw [hadd] at hexec
      cases hexec
      obtain ⟨hvoted, rfl⟩ := addVote_cases hadd
      refine ⟨hsound, ?_⟩
      exact Table.forall_mem_set hvoted h
  | certifierUpdate p =>
    simp only [exec] at hexec
    split at hexec <;> cases hexec <;> exact ⟨hsound, h⟩

lemma run_votesSound {es : List (VotingEvent σ)} (hsound : GovSound s.chain.gov)
    (h : VotesSound s.chain.gov s.votes) (hrun : s.run k isCertifiedIdentity es = .ok s') :
    VotesSound s'.chain.gov s'.votes :=
  (foldlM_invariant
    (P := fun s : VotingChain σ => GovSound s.chain.gov ∧ VotesSound s.chain.gov s.votes)
    (fun _ _ _ _ hs hexec => exec_votesSound hs.1 hs.2 hexec) ⟨hsound, h⟩ hrun).2

/-- The certifiers with a recorded yes or no on the proposal. -/
def certifiersVoted (s : VotingChain σ) (id : Nat) : List Certifier :=
  s.certifiers.certifiers.rows.filter (fun c =>
    match s.getVote id c.address with
    | some v => v.option = .yes ∨ v.option = .no
    | none => false)

/-- The heads counted on a proposal are the certifiers that voted on it, so not more than
there are certifiers. -/
structure HeadsCounted (s : VotingChain σ) (tp : TallyParams Int) (id : Nat) : Prop where
  heads : (s.securityCount tp id).totalVotingPower = Dec.ofInt (s.certifiersVoted id).length
  bounded : (s.securityCount tp id).totalVotingPower ≤
    Dec.ofInt s.certifiers.certifiers.rows.length

lemma foldl_countHead (vs : List Vote) (h : ∀ v ∈ vs, v.option ≠ .empty)
    (acc : (VoteOption → Int) × Int) :
    (vs.foldl countHead acc).2 = acc.2 + Dec.ofInt vs.length := by
  induction vs generalizing acc with
  | nil => simp [Dec.ofInt]
  | cons v vs ih =>
    rw [foldl_cons, ih (fun w hw => h w (mem_cons_of_mem _ hw)), countHead,
      if_neg (h v mem_cons_self), length_cons]
    simp only [Dec.ofInt, Nat.cast_add, Nat.cast_one]
    ring

lemma mem_getVotes {v : Vote} : v ∈ s.getVotes id ↔ v ∈ s.votes.rows ∧ v.proposalID = id := by
  simp [getVotes]

lemma voters_nodup (s : VotingChain σ) (id : Nat) : ((s.getVotes id).map Vote.voter).Nodup := by
  refine List.Nodup.map_on ?_ (s.votes.rows_nodup.filter _)
  intro v hv w hw hvoter
  obtain ⟨hv, hvid⟩ := mem_getVotes.mp hv
  obtain ⟨hw, hwid⟩ := mem_getVotes.mp hw
  refine s.votes.key_inj_of_mem hv hw ?_
  rw [Vote.key, Vote.key, hvid, hwid, hvoter]

/-- The certifiers that voted are the voters that are certifiers. -/
lemma certifiersVoted_perm (h : ∀ v ∈ s.getVotes id, v.option = .yes ∨ v.option = .no) :
    ((s.certifiersVoted id).map Certifier.address).Perm
      (((s.getVotes id).map Vote.voter).filter s.certifiers.isCertifier) := by
  refine (perm_ext_iff_of_nodup ?_ ((voters_nodup s id).filter _)).mpr ?_
  · refine List.Nodup.map_on ?_ (s.certifiers.certifiers.rows_nodup.filter _)
    intro c hc d hd heq
    exact s.certifiers.certifiers.key_inj_of_mem (mem_filter.mp hc).1
      (mem_filter.mp hd).1 heq
  · intro address
    simp only [mem_map, mem_filter, certifiersVoted]
    constructor
    · rintro ⟨c, ⟨hc, hvote⟩, rfl⟩
      split at hvote
      · rename_i v hv
        have hkey : v.key = toLex (id, c.address) := Table.key_of_get hv
        have hid : v.proposalID = id := congrArg (fun key => (ofLex key).1) hkey
        have hvoter : v.voter = c.address := congrArg (fun key => (ofLex key).2) hkey
        refine ⟨⟨v, mem_getVotes.mpr ⟨Table.mem_of_get hv, hid⟩, hvoter⟩, ?_⟩
        rw [CertifierBook.isCertifier, Table.get_of_mem hc, Option.isSome_some]
      · cases hvote
    · rintro ⟨⟨v, hv, rfl⟩, hcertifier⟩
      obtain ⟨c, hc⟩ := Option.isSome_iff_exists.mp hcertifier
      have haddress : c.address = v.voter := Table.key_of_get hc
      obtain ⟨hmem, hid⟩ := mem_getVotes.mp hv
      have hget : s.getVote id c.address = some v := by
        rw [haddress, ← hid]
        exact Table.get_of_mem hmem
      refine ⟨c, ⟨Table.mem_of_get hc, ?_⟩, haddress⟩
      rw [hget]
      exact decide_eq_true (h v hv)

lemma headsCounted_iff (tp : TallyParams Int)
    (h : ∀ v ∈ s.getVotes id, v.option = .yes ∨ v.option = .no) :
    s.HeadsCounted tp id ↔ ∀ v ∈ s.getVotes id, s.certifiers.isCertifier v.voter = true := by
  have htotal : (s.securityCount tp id).totalVotingPower =
      Dec.ofInt ((s.getVotes id).map Vote.voter).length := by
    have hcount := foldl_countHead (s.getVotes id) (fun v hv => by
      rcases h v hv with hv | hv <;> rw [hv] <;> decide) (newResults, 0)
    rw [length_map]
    simpa [securityCount] using hcount
  have hlength : (s.certifiersVoted id).length =
      (((s.getVotes id).map Vote.voter).filter s.certifiers.isCertifier).length := by
    simpa using (certifiersVoted_perm h).length_eq
  have hall : (∀ v ∈ s.getVotes id, s.certifiers.isCertifier v.voter = true) ↔
      (((s.getVotes id).map Vote.voter).filter s.certifiers.isCertifier).length =
        ((s.getVotes id).map Vote.voter).length := by
    rw [length_filter_eq_length_iff]
    simp
  have hle : (s.certifiersVoted id).length ≤ s.certifiers.certifiers.rows.length :=
    length_filter_le _ _
  rw [hall]
  constructor
  · intro hcounted
    have hheads := hcounted.heads
    simp only [htotal, hlength, Dec.ofInt, Dec.one] at hheads
    omega
  · intro heq
    refine ⟨?_, ?_⟩ <;> simp only [htotal, Dec.ofInt, Dec.one] <;> omega

/-- In every state of every run, the heads counted on a proposal in the certifiers' round are
the certifiers that voted on it exactly if every address with a recorded vote is still a
certifier. -/
theorem headsCounted_of_run {params : ShieldParams} {govParams : GovParams} {world : σ}
    {ctx : Ctx} {certifiers : CertifierBook} {es : List (VotingEvent σ)}
    (hrun : (start (Chain.empty params govParams world ctx) certifiers).run k
      isCertifiedIdentity es = .ok s) (tp : TallyParams Int) {id : Nat} {p : Proposal}
    (hp : s.getProposal id = some p) (hround : p.status = .certifierVotingPeriod) :
    s.HeadsCounted tp id ↔ ∀ v ∈ s.getVotes id, s.certifiers.isCertifier v.voter = true := by
  have hvotes : VotesSound s.chain.gov s.votes :=
    run_votesSound (GovSound.empty govParams) (fun v hv => by cases hv) hrun
  refine headsCounted_iff tp ?_
  intro v hv
  obtain ⟨hmem, hid⟩ := mem_getVotes.mp hv
  obtain ⟨q, hq, -, hoption⟩ := hvotes v hmem
  rw [hid] at hq
  cases hq.symm.trans hp
  exact hoption hround

/-- Two certifiers. -/
def twoCertifiers : CertifierBook :=
  (CertifierBook.empty.setCertifier ⟨1, "", 1, ""⟩).setCertifier ⟨2, "", 2, ""⟩

/-- An upgrade is proposed, and the first certifier votes for it. -/
def upgradeVote : List (VotingEvent Ledger) :=
  [.chain (.action (.tx (.submitProposal (.softwareUpgrade ⟨"upgrade", 0, 500⟩) [] 3))),
    .vote 1 1 .yes]

/-- A quorum of a third and a threshold of one half. -/
def securityVoteTally : TallyParams Int :=
  ⟨334000000000000000, 500000000000000000, 334000000000000000⟩

/-- The run of a vote by one of two certifiers. -/
theorem headsCounted_of_vote : ∃ s : VotingChain Ledger,
    (start ledgerStart twoCertifiers).run ledgerChainKeepers (fun _ _ => false) upgradeVote =
      .ok s ∧ s.HeadsCounted securityVoteTally 1 := by
  obtain ⟨s, hs, ⟨p, hp, hstatus⟩, hvoters⟩ : ∃ s, (start ledgerStart twoCertifiers).run
        ledgerChainKeepers (fun _ _ => false) upgradeVote = .ok s ∧
      (∃ p, s.getProposal 1 = some p ∧ p.status = .certifierVotingPeriod) ∧
      ∀ v ∈ s.getVotes 1, s.certifiers.isCertifier v.voter = true := by
    decide +kernel
  exact ⟨s, hs, (headsCounted_of_run hs securityVoteTally hp hstatus).mpr hvoters⟩

/-- A certifier votes and is removed. The vote is counted: no certifier has voted, and the
proposal passes the certifiers' round. -/
theorem removed_certifier_counted : ∃ s : VotingChain Ledger, ∃ p : Proposal,
    (start ledgerStart twoCertifiers).run ledgerChainKeepers (fun _ _ => false)
      (upgradeVote ++ [.certifierUpdate ⟨1, "", 2, "", .remove⟩]) = .ok s ∧
    s.getProposal 1 = some p ∧ p.status = .certifierVotingPeriod ∧
    s.certifiersVoted 1 = [] ∧ s.securityTally securityVoteTally p = (true, false) ∧
    ¬ s.HeadsCounted securityVoteTally 1 := by
  obtain ⟨s, hs, hvoted, hcount, p, hp, hstatus, htally⟩ : ∃ s, (start ledgerStart
        twoCertifiers).run ledgerChainKeepers (fun _ _ => false) (upgradeVote ++ [.certifierUpdate
        ⟨1, "", 2, "", .remove⟩]) = .ok s ∧ s.certifiersVoted 1 = [] ∧
      (s.securityCount securityVoteTally 1).totalVotingPower = Dec.ofInt 1 ∧
      ∃ p, s.getProposal 1 = some p ∧ p.status = .certifierVotingPeriod ∧
      s.securityTally securityVoteTally p = (true, false) := by
    decide +kernel
  refine ⟨s, p, hs, hp, hstatus, hvoted, htally, ?_⟩
  intro hcounted
  have hheads := hcounted.heads
  rw [hcount, hvoted] at hheads
  exact absurd hheads (by decide)

end VotingChain

end Shentu
