import Shentu.Gov.EndBlocker

/-!
The claims that are being voted on. Every entry of the queue of active proposals
belongs to a stored proposal in a voting period, and every entry of the queue of
inactive ones to a stored proposal in its deposit period, so the end blocker takes
each open claim at most once and takes nothing that is closed.
-/

namespace Shentu

open Lib Table Proposal

variable {σ : Type}

/-- The proposal is in one of the two voting periods. -/
def Proposal.isOpen (p : Proposal) : Bool :=
  match p.status with
  | .certifierVotingPeriod | .validatorVotingPeriod => true
  | _ => false

def Proposal.isOpenClaim (p : Proposal) : Bool := p.isOpen && p.content.isShieldClaim

namespace GovState

/-- The claims in a voting period. -/
def openClaims (g : GovState) : Table Proposal.proposalID := g.proposals.filter isOpenClaim

lemma openClaims_get (g : GovState) (id : Nat) :
    g.openClaims.get id = (g.getProposal id).filter isOpenClaim :=
  get_filter _ _ _

lemma mem_queueUntil {q : ProposalQueue} {t : Time} {id : Nat} :
    id ∈ queueUntil q t ↔ ∃ t', t' ≤ t ∧ queueKey t' id ∈ q.rows := by
  simp only [queueUntil, List.mem_map, List.mem_filter, decide_eq_true_eq]
  constructor
  · rintro ⟨key, ⟨hkey, hle⟩, rfl⟩
    exact ⟨_, hle, hkey⟩
  · rintro ⟨t', hle, hkey⟩
    exact ⟨_, ⟨hkey, hle⟩, rfl⟩

lemma mem_queue_set {q : ProposalQueue} {a b : QueueKey} :
    a ∈ (q.set b).rows ↔ a = b ∨ a ∈ q.rows := by
  rw [mem_set]
  constructor
  · rintro (h | ⟨h, -⟩)
    · exact .inl h
    · exact .inr h
  · rintro (h | h)
    · exact .inl h
    · by_cases hab : a = b
      · exact .inl hab
      · exact .inr ⟨h, hab⟩

end GovState

section NextPeriod

variable (ctx : Ctx) (votingPeriod : Duration) (p : Proposal)

@[simp] lemma inNextPeriod_proposalID :
    (GovState.inNextPeriod ctx votingPeriod p).proposalID = p.proposalID := by
  unfold GovState.inNextPeriod
  split
  · rfl
  · split <;> rfl

@[simp] lemma inNextPeriod_content :
    (GovState.inNextPeriod ctx votingPeriod p).content = p.content := by
  unfold GovState.inNextPeriod
  split
  · rfl
  · split <;> rfl

@[simp] lemma inNextPeriod_isOpen : (GovState.inNextPeriod ctx votingPeriod p).isOpen = true := by
  unfold GovState.inNextPeriod
  split
  · rfl
  · split <;> rfl

end NextPeriod

lemma queueKey_inj {t t' : Time} {id id' : Nat} :
    queueKey t id = queueKey t' id' ↔ t = t' ∧ id = id' := by
  rw [queueKey, queueKey, toLex_inj, Prod.mk.injEq]

/-- The queues and the stored proposal of one ID belong together. -/
structure GovSoundAt (g : GovState) (id : Nat) : Prop where
  active : ∀ t, queueKey t id ∈ g.activeProposalQueue.rows →
    ∃ p, g.getProposal id = some p ∧ p.isOpen = true ∧ p.votingEndTime = t
  inactive : ∀ t, queueKey t id ∈ g.inactiveProposalQueue.rows →
    ∃ p, g.getProposal id = some p ∧ p.status = .depositPeriod ∧ p.depositEndTime = t
  queued : ∀ p, g.getProposal id = some p → p.isOpen = true →
    queueKey p.votingEndTime id ∈ g.activeProposalQueue.rows
  waiting : ∀ p, g.getProposal id = some p → p.status = .depositPeriod →
    queueKey p.depositEndTime id ∈ g.inactiveProposalQueue.rows
  fresh : ∀ p, g.getProposal id = some p → id < g.nextProposalID
  named : ∀ p claim, g.getProposal id = some p → p.content = .shieldClaim claim →
    claim.proposalID = id

/-- The queues and the stored proposals belong together. -/
def GovSound (g : GovState) : Prop := ∀ id, GovSoundAt g id

variable {g : GovState}

variable {g' : GovState}

lemma GovSoundAt.frame {id : Nat} (h : GovSoundAt g id)
    (hget : g'.getProposal id = g.getProposal id)
    (hactive : ∀ t, queueKey t id ∈ g'.activeProposalQueue.rows ↔
      queueKey t id ∈ g.activeProposalQueue.rows)
    (hinactive : ∀ t, queueKey t id ∈ g'.inactiveProposalQueue.rows ↔
      queueKey t id ∈ g.inactiveProposalQueue.rows)
    (hnext : g.nextProposalID ≤ g'.nextProposalID) : GovSoundAt g' id := by
  constructor
  · intro t ht
    rw [hget]
    exact h.active t ((hactive t).mp ht)
  · intro t ht
    rw [hget]
    exact h.inactive t ((hinactive t).mp ht)
  · intro p hp hopen
    rw [hget] at hp
    exact (hactive _).mpr (h.queued p hp hopen)
  · intro p hp hstatus
    rw [hget] at hp
    exact (hinactive _).mpr (h.waiting p hp hstatus)
  · intro p hp
    rw [hget] at hp
    exact lt_of_lt_of_le (h.fresh p hp) hnext
  · intro p claim hp
    rw [hget] at hp
    exact h.named p claim hp

namespace GovSound

variable {g : GovState} {p : Proposal}

lemma empty (params : GovParams) : GovSound (GovState.empty params) := by
  intro id
  constructor <;> simp [GovState.empty, GovState.getProposal]

lemma getProposal_next (h : GovSound g) : g.getProposal g.nextProposalID = none := by
  cases hp : g.getProposal g.nextProposalID with
  | none => rfl
  | some p => exact absurd ((h _).fresh p hp) (lt_irrefl _)

private lemma queueUntil_nodup_of {q : ProposalQueue}
    (hq : ∀ t t' id, queueKey t id ∈ q.rows → queueKey t' id ∈ q.rows → t = t') (t : Time) :
    (GovState.queueUntil q t).Nodup := by
  refine List.Nodup.map_on ?_ (q.rows_nodup.filter _)
  intro a ha b hb hid
  have ha' : queueKey (ofLex a).1 (ofLex a).2 ∈ q.rows := (List.mem_filter.mp ha).1
  have hb' : queueKey (ofLex b).1 (ofLex a).2 ∈ q.rows := hid ▸ (List.mem_filter.mp hb).1
  have htime := hq _ _ _ ha' hb'
  exact ofLex_inj.mp (Prod.ext htime hid)

lemma active_nodup (h : GovSound g) (t : Time) :
    (GovState.queueUntil g.activeProposalQueue t).Nodup := by
  refine queueUntil_nodup_of ?_ t
  intro t1 t2 id h1 h2
  obtain ⟨p, hp, -, rfl⟩ := (h id).active t1 h1
  obtain ⟨q, hq, -, rfl⟩ := (h id).active t2 h2
  rw [Option.some.inj (hp.symm.trans hq)]

lemma inactive_nodup (h : GovSound g) (t : Time) :
    (GovState.queueUntil g.inactiveProposalQueue t).Nodup := by
  refine queueUntil_nodup_of ?_ t
  intro t1 t2 id h1 h2
  obtain ⟨p, hp, -, rfl⟩ := (h id).inactive t1 h1
  obtain ⟨q, hq, -, rfl⟩ := (h id).inactive t2 h2
  rw [Option.some.inj (hp.symm.trans hq)]

/-- A stored proposal is rewritten without a change of its period. -/
lemma setProposal (h : GovSound g) {q : Proposal} (hq : g.getProposal p.proposalID = some q)
    (hstatus : p.status = q.status) (hvoting : p.votingEndTime = q.votingEndTime)
    (hdeposit : p.depositEndTime = q.depositEndTime) (hcontent : p.content = q.content) :
    GovSound (g.setProposal p) := by
  intro id
  by_cases hid : id = p.proposalID
  · subst hid
    have hopen : p.isOpen = q.isOpen := by
      unfold isOpen
      rw [hstatus]
    have hget : (g.setProposal p).getProposal p.proposalID = some p := get_set_self _ _
    constructor
    · intro t ht
      obtain ⟨p0, hp0, ho, hend⟩ := (h _).active t ht
      cases hp0.symm.trans hq
      exact ⟨p, hget, hopen.trans ho, hvoting.trans hend⟩
    · intro t ht
      obtain ⟨p0, hp0, hs, hend⟩ := (h _).inactive t ht
      cases hp0.symm.trans hq
      exact ⟨p, hget, hstatus.trans hs, hdeposit.trans hend⟩
    · intro p0 hp0 ho
      cases hp0.symm.trans hget
      rw [hvoting]
      exact (h _).queued q hq (hopen ▸ ho)
    · intro p0 hp0 hs
      cases hp0.symm.trans hget
      rw [hdeposit]
      exact (h _).waiting q hq (hstatus ▸ hs)
    · intro _ _
      exact (h _).fresh q hq
    · intro p0 claim hp0 hclaim
      cases hp0.symm.trans hget
      exact (h _).named q claim hq (hcontent ▸ hclaim)
  · exact (h id).frame (get_set_of_ne _ hid) (fun _ => Iff.rfl) (fun _ => Iff.rfl) (le_refl _)

/-- A stored proposal enters its next voting period. -/
lemma activateVotingPeriod (h : GovSound g) (ctx : Ctx) (hp : g.getProposal p.proposalID = some p)
    (hstatus : p.status = .depositPeriod ∨ p.status = .certifierVotingPeriod) :
    GovSound (g.activateVotingPeriod ctx p) := by
  let p' := GovState.inNextPeriod ctx g.params.votingPeriod p
  have hid' : p'.proposalID = p.proposalID := inNextPeriod_proposalID _ _ _
  intro id
  by_cases hid : id = p.proposalID
  · subst hid
    have hget : (g.activateVotingPeriod ctx p).getProposal p.proposalID = some p' := by
      rw [← hid']
      exact get_set_self _ _
    constructor
    · intro t ht
      rcases GovState.mem_queue_set.mp ht with hkey | hold
      · exact ⟨p', hget, inNextPeriod_isOpen _ _ _, (queueKey_inj.mp hkey).1.symm⟩
      · -- An older entry of the same proposal is the one that is removed.
        exfalso
        rcases hstatus with hdeposit | hcertifier
        · rw [if_neg (by rw [hdeposit]; decide)] at hold
          obtain ⟨p0, hp0, hopen, -⟩ := (h _).active t hold
          cases hp0.symm.trans hp
          simp [isOpen, hdeposit] at hopen
        · rw [if_pos hcertifier] at hold
          obtain ⟨hmem, hne⟩ := mem_delete.mp hold
          obtain ⟨p0, hp0, -, rfl⟩ := (h _).active t hmem
          cases hp0.symm.trans hp
          exact hne rfl
    · intro t ht
      obtain ⟨hmem, hne⟩ := mem_delete.mp ht
      obtain ⟨p0, hp0, -, rfl⟩ := (h _).inactive t hmem
      cases hp0.symm.trans hp
      exact absurd rfl hne
    · intro p0 hp0 _
      cases hp0.symm.trans hget
      exact GovState.mem_queue_set.mpr (.inl rfl)
    · intro p0 hp0 hdeposit
      cases hp0.symm.trans hget
      have hopen : p'.isOpen = true := inNextPeriod_isOpen _ _ _
      simp [isOpen, hdeposit] at hopen
    · intro _ _
      exact (h _).fresh p hp
    · intro p0 claim hp0 hclaim
      cases hp0.symm.trans hget
      exact (h _).named p claim hp ((inNextPeriod_content _ _ _).symm.trans hclaim)
  · have hne : ∀ t t', queueKey t id ≠ queueKey t' p.proposalID :=
      fun _ _ heq => hid (queueKey_inj.mp heq).2
    refine (h id).frame ?_ ?_ ?_ (le_refl _)
    · refine get_set_of_ne _ ?_
      rw [hid']
      exact hid
    · intro t
      simp only [GovState.activateVotingPeriod, GovState.mem_queue_set, hne, false_or]
      split
      · rw [mem_delete]
        exact and_iff_left (hne _ _)
      · rfl
    · intro t
      exact mem_delete.trans (and_iff_left (hne _ _))

/-- A new proposal is stored under the next ID. -/
lemma newProposal (h : GovSound g) (ctx : Ctx) (content : Content) (proposer : AccAddress)
    (isCouncilMember : Bool) : GovSound (g.newProposal ctx content proposer isCouncilMember).2 := by
  let p := (g.newProposal ctx content proposer isCouncilMember).1
  have hpid : p.proposalID = g.nextProposalID := rfl
  intro id
  by_cases hid : id = g.nextProposalID
  · subst hid
    have hget : (g.newProposal ctx content proposer isCouncilMember).2.getProposal
        g.nextProposalID = some p := by
      rw [← hpid]
      exact get_set_self _ _
    have hnone := h.getProposal_next
    constructor
    · intro t ht
      obtain ⟨p0, hp0, -⟩ := (h _).active t ht
      cases hp0.symm.trans hnone
    · intro t ht
      rcases GovState.mem_queue_set.mp ht with hkey | hold
      · exact ⟨p, hget, rfl, (queueKey_inj.mp hkey).1.symm⟩
      · obtain ⟨p0, hp0, -⟩ := (h _).inactive t hold
        cases hp0.symm.trans hnone
    · intro p0 hp0 hopen
      cases hp0.symm.trans hget
      cases hopen
    · intro p0 hp0 _
      cases hp0.symm.trans hget
      exact GovState.mem_queue_set.mpr (.inl rfl)
    · intro _ _
      exact Nat.lt_succ_self _
    · intro p0 claim hp0 hclaim
      cases hp0.symm.trans hget
      have hcontent : content.withProposalID g.nextProposalID = .shieldClaim claim := hclaim
      cases content <;> cases hcontent
      rfl
  · refine (h id).frame (get_set_of_ne _ hid) (fun _ => Iff.rfl) ?_ (Nat.le_succ _)
    intro t
    exact GovState.mem_queue_set.trans (or_iff_right (fun hkey => hid (queueKey_inj.mp hkey).2))

/-- An open proposal is closed and leaves the active queue. -/
lemma close (h : GovSound g) (hp : g.getProposal p.proposalID = some p)
    (hopen : p.isOpen = true) {status : ProposalStatus}
    (hclosed : ({ p with status := status } : Proposal).isOpen = false)
    (hfinal : status ≠ .depositPeriod) :
    GovSound { g with
      proposals := g.proposals.set { p with status := status }
      activeProposalQueue :=
        g.activeProposalQueue.delete (queueKey p.votingEndTime p.proposalID) } := by
  intro id
  by_cases hid : id = p.proposalID
  · subst hid
    have hget : (g.proposals.set { p with status := status }).get p.proposalID =
        some { p with status := status } := get_set_self _ _
    constructor
    · intro t ht
      obtain ⟨hmem, hne⟩ := mem_delete.mp ht
      obtain ⟨p0, hp0, -, rfl⟩ := (h _).active t hmem
      cases hp0.symm.trans hp
      exact absurd rfl hne
    · intro t ht
      obtain ⟨p0, hp0, hdeposit, -⟩ := (h _).inactive t ht
      cases hp0.symm.trans hp
      simp [isOpen, hdeposit] at hopen
    · intro p0 hp0 hopen'
      cases hp0.symm.trans hget
      rw [hclosed] at hopen'
      cases hopen'
    · intro p0 hp0 hdeposit
      cases hp0.symm.trans hget
      exact absurd hdeposit hfinal
    · intro _ _
      exact (h _).fresh p hp
    · intro p0 claim hp0 hclaim
      cases hp0.symm.trans hget
      exact (h _).named p claim hp hclaim
  · refine (h id).frame (get_set_of_ne _ hid) ?_ (fun _ => Iff.rfl) (le_refl _)
    intro t
    rw [mem_delete]
    exact and_iff_left (fun heq => hid (queueKey_inj.mp heq).2)

/-- A proposal in its deposit period is deleted. -/
lemma deleteProposalByProposalID (h : GovSound g) {g' : GovState} {id : Nat}
    (hp : g.getProposal id = some p) (hstatus : p.status = .depositPeriod)
    (hdelete : g.deleteProposalByProposalID id = .ok g') : GovSound g' := by
  simp only [GovState.deleteProposalByProposalID, run_eq_ok, hp, Option.some.injEq,
    exists_eq_left'] at hdelete
  subst hdelete
  intro id'
  by_cases hid : id' = id
  · subst hid
    have hget : (g.proposals.delete id').get id' = none := get_delete_self _ _
    constructor
    · intro t ht
      obtain ⟨hmem, -⟩ := mem_delete.mp ht
      obtain ⟨p0, hp0, hopen, -⟩ := (h _).active t hmem
      cases hp0.symm.trans hp
      simp [isOpen, hstatus] at hopen
    · intro t ht
      obtain ⟨hmem, hne⟩ := mem_delete.mp ht
      obtain ⟨p0, hp0, -, rfl⟩ := (h _).inactive t hmem
      cases hp0.symm.trans hp
      exact absurd rfl hne
    · intro p0 hp0
      cases hp0.symm.trans hget
    · intro p0 hp0
      cases hp0.symm.trans hget
    · intro p0 hp0
      cases hp0.symm.trans hget
    · intro p0 claim hp0
      cases hp0.symm.trans hget
  · have hne : ∀ t t', queueKey t id' ≠ queueKey t' id :=
      fun _ _ heq => hid (queueKey_inj.mp heq).2
    exact (h id').frame (get_delete_of_ne _ hid)
      (fun t => mem_delete.trans (and_iff_left (hne _ _)))
      (fun t => mem_delete.trans (and_iff_left (hne _ _))) (le_refl _)

end GovSound

lemma GovSound.setDeposits (h : GovSound g) (deposits : Table Deposit.key) :
    GovSound { g with deposits := deposits } :=
  fun id => (h id).frame rfl (fun _ => Iff.rfl) (fun _ => Iff.rfl) (le_refl _)

/-- The keepers behind proposals and deposits leave a measure of the world as it is. -/
structure GovKeeps (k : ChainKeepers σ) (measure : σ → Int) : Prop where
  deposit : ∀ {w w' : σ} {a : AccAddress} {coins : Coins},
    k.sendCoinsFromAccountToModule w a .gov coins = some w' → measure w' = measure w
  refund : ∀ {w w' : σ} {a : AccAddress} {coins : Coins},
    k.sendCoinsFromModuleToAccount w .gov a coins = some w' → measure w' = measure w
  burn : ∀ {w w' : σ} {coins : Coins}, k.burnCoins w .gov coins = some w' → measure w' = measure w
  execute : ∀ {w w' : σ} {content : Content},
    k.executeContent w content = some w' → measure w' = measure w

lemma GovKeeps.const (k : ChainKeepers σ) : GovKeeps k (fun _ => 0) :=
  ⟨fun _ => rfl, fun _ => rfl, fun _ => rfl, fun _ => rfl⟩

section Deposits

variable {k : ChainKeepers σ} {measure : σ → Int} {g g' : GovState} {w w' : σ} {id : Nat}

lemma closeDeposits_cases {use : σ → Deposit → Option σ}
    (huse : ∀ {w w' : σ} {d : Deposit}, use w d = some w' → measure w' = measure w)
    (h : g.closeDeposits use w id = .ok (g', w')) :
    (∃ deposits, g' = { g with deposits := deposits }) ∧ measure w' = measure w := by
  refine foldlM_invariant
    (P := fun gw : GovState × σ => (∃ deposits, gw.1 = { g with deposits := deposits }) ∧
      measure gw.2 = measure w) ?_ ⟨⟨g.deposits, rfl⟩, rfl⟩ h
  rintro d - ⟨g1, w1⟩ ⟨g2, w2⟩ ⟨⟨deposits, rfl⟩, hw1⟩ hstep
  simp only [run_eq_ok, Prod.mk.injEq] at hstep
  obtain ⟨w3, hw3, rfl, rfl⟩ := hstep
  exact ⟨⟨_, rfl⟩, (huse hw3).trans hw1⟩

lemma refundDeposits_cases (hk : GovKeeps k measure)
    (h : g.refundDepositsByProposalID k.toKeepers w id = .ok (g', w')) :
    (∃ deposits, g' = { g with deposits := deposits }) ∧ measure w' = measure w :=
  closeDeposits_cases (fun hsend => hk.refund hsend) h

lemma deleteDeposits_cases (hk : GovKeeps k measure)
    (h : g.deleteDepositsByProposalID k.toKeepers w id = .ok (g', w')) :
    (∃ deposits, g' = { g with deposits := deposits }) ∧ measure w' = measure w :=
  closeDeposits_cases (fun hburn => hk.burn hburn) h

end Deposits

/-- No claim waits for deposits. -/
def ClaimsVoted (g : GovState) : Prop :=
  ∀ id p, g.getProposal id = some p → p.content.isShieldClaim = true → p.status ≠ .depositPeriod

lemma ClaimsVoted.set (h : ClaimsVoted g) {p : Proposal}
    (hp : p.content.isShieldClaim = true → p.status ≠ .depositPeriod)
    (hg' : g'.proposals = g.proposals.set p) : ClaimsVoted g' := by
  intro id q hq
  rw [GovState.getProposal, hg', get_set] at hq
  split at hq
  · cases hq
    exact hp
  · exact h id q hq

section OpenClaims

variable {g g' : GovState} {p : Proposal}

lemma openClaims_set_other (hold : g.openClaims.get p.proposalID = none)
    (hp : p.isOpenClaim = false) :
    (g.proposals.set p).filter isOpenClaim = g.openClaims := by
  rw [filter_set_of_neg _ hp]
  exact delete_of_get_none hold

lemma openClaims_get_of_content {id : Nat} (hp : g.getProposal id = some p)
    (hcontent : p.content.isShieldClaim = false) : g.openClaims.get id = none := by
  rw [GovState.openClaims_get, hp, Option.filter_some, if_neg]
  simp [isOpenClaim, hcontent]

lemma openClaims_get_of_open {id : Nat} (hp : g.getProposal id = some p)
    (hopen : p.isOpen = true) (hcontent : p.content.isShieldClaim = true) :
    g.openClaims.get id = some p := by
  rw [GovState.openClaims_get, hp, Option.filter_some, if_pos]
  simp [isOpenClaim, hopen, hcontent]

lemma openClaims_get_of_not_open {id : Nat} (hp : g.getProposal id = some p)
    (hopen : p.isOpen = false) : g.openClaims.get id = none := by
  rw [GovState.openClaims_get, hp, Option.filter_some, if_neg]
  simp [isOpenClaim, hopen]

lemma openClaims_activate_other (ctx : Ctx)
    (hp : g.getProposal p.proposalID = some p) (hcontent : p.content.isShieldClaim = false) :
    (g.activateVotingPeriod ctx p).openClaims = g.openClaims := by
  refine openClaims_set_other ?_ ?_
  · rw [inNextPeriod_proposalID]
    exact openClaims_get_of_content hp hcontent
  · rw [isOpenClaim, inNextPeriod_content, hcontent, Bool.and_false]

lemma openClaims_activate_claim (ctx : Ctx) (hcontent : p.content.isShieldClaim = true) :
    (g.activateVotingPeriod ctx p).openClaims =
      g.openClaims.set (GovState.inNextPeriod ctx g.params.votingPeriod p) := by
  refine filter_set_of_pos _ ?_
  rw [isOpenClaim, inNextPeriod_content, inNextPeriod_isOpen, hcontent]
  rfl

/-- The proposals of other IDs are left alone. -/
def OnlyProposal (id : Nat) (g g' : GovState) : Prop :=
  ∀ id', id' ≠ id → g'.getProposal id' = g.getProposal id'

lemma OnlyProposal.openClaims_set
    (h : OnlyProposal p.proposalID g g') (hp : g'.getProposal p.proposalID = some p)
    (hclaim : p.isOpenClaim = true) : g'.openClaims = g.openClaims.set p := by
  refine ext_get ?_
  intro id
  rw [GovState.openClaims_get, get_set]
  split
  · rename_i hid
    rw [hid, hp, Option.filter_some, if_pos hclaim]
  · rename_i hid
    rw [h id hid, GovState.openClaims_get]

lemma OnlyProposal.openClaims_eq (h : OnlyProposal p.proposalID g g')
    (hp : g'.getProposal p.proposalID = some p)
    (hclaim : p.isOpenClaim = false) (hold : g.openClaims.get p.proposalID = none) :
    g'.openClaims = g.openClaims := by
  refine ext_get ?_
  intro id
  by_cases hid : id = p.proposalID
  · rw [hid, hold, GovState.openClaims_get, hp, Option.filter_some, if_neg (by simp [hclaim])]
  · rw [GovState.openClaims_get, GovState.openClaims_get, h id hid]

lemma OnlyProposal.claimsVoted (h : OnlyProposal p.proposalID g g')
    (hp : g'.getProposal p.proposalID = some p)
    (hstatus : p.content.isShieldClaim = true → p.status ≠ .depositPeriod)
    (hvoted : ClaimsVoted g) : ClaimsVoted g' := by
  intro id q hq
  by_cases hid : id = p.proposalID
  · rw [hid, hp] at hq
    cases hq
    exact hstatus
  · exact hvoted id q ((h id hid).symm.trans hq)

end OpenClaims

/-- The gov store keeps its parameters and does not go back in its proposal IDs. -/
structure GovFrame (g g' : GovState) : Prop where
  params : g'.params = g.params
  next : g.nextProposalID ≤ g'.nextProposalID

/-- What happens to a proposal in its deposit period when its voting may begin: the proposal
that is stored afterwards is the same one, and a claim is open. -/
structure Opened (g g' : GovState) (p p' : Proposal) : Prop where
  sound : GovSound g'
  frame : GovFrame g g'
  only : OnlyProposal p.proposalID g g'
  get : g'.getProposal p.proposalID = some p'
  id : p'.proposalID = p.proposalID
  content : p'.content = p.content
  submitTime : p'.submitTime = p.submitTime
  proposer : p'.proposerAddress = p.proposerAddress
  claim : p.content.isShieldClaim = true → p'.isOpen = true

@[simp] lemma inNextPeriod_submitTime (ctx : Ctx) (votingPeriod : Duration) (p : Proposal) :
    (GovState.inNextPeriod ctx votingPeriod p).submitTime = p.submitTime := by
  unfold GovState.inNextPeriod
  split
  · rfl
  · split <;> rfl

@[simp] lemma inNextPeriod_proposerAddress (ctx : Ctx) (votingPeriod : Duration) (p : Proposal) :
    (GovState.inNextPeriod ctx votingPeriod p).proposerAddress = p.proposerAddress := by
  unfold GovState.inNextPeriod
  split
  · rfl
  · split <;> rfl

lemma opened_activate (hsound : GovSound g) (ctx : Ctx) {p : Proposal}
    (hp : g.getProposal p.proposalID = some p) (hstatus : p.status = .depositPeriod) :
    Opened g (g.activateVotingPeriod ctx p) p
      (GovState.inNextPeriod ctx g.params.votingPeriod p) where
  sound := hsound.activateVotingPeriod ctx hp (.inl hstatus)
  frame := ⟨rfl, le_refl _⟩
  only := fun id hne => get_set_of_ne _ (by rwa [inNextPeriod_proposalID])
  get := by
    rw [← inNextPeriod_proposalID ctx g.params.votingPeriod p]
    exact get_set_self _ _
  id := inNextPeriod_proposalID _ _ _
  content := inNextPeriod_content _ _ _
  submitTime := inNextPeriod_submitTime _ _ _
  proposer := inNextPeriod_proposerAddress _ _ _
  claim := fun _ => inNextPeriod_isOpen _ _ _

/-- A deposit for a stored proposal in its deposit period. -/
lemma addDeposit_cases {k : ChainKeepers σ} {measure : σ → Int} (hk : GovKeeps k measure)
    {ctx : Ctx} {w w' : σ} {id : Nat} {depositor : AccAddress} {amount : Coins}
    (hsound : GovSound g) (h : g.addDeposit k.toKeepers ctx w id depositor amount = .ok (g', w')) :
    measure w' = measure w ∧ ∃ p p', g.getProposal id = some p ∧ p.status = .depositPeriod ∧
      Opened g g' p p' := by
  simp only [GovState.addDeposit, run_eq_ok, Prod.mk.injEq, not_or, not_not] at h
  obtain ⟨p, hp, ⟨hstatus, -⟩, w1, hsend, rfl, rfl⟩ := h
  refine ⟨hk.deposit hsend, p, ?_⟩
  obtain rfl : p.proposalID = id := key_of_get hp
  let p1 : Proposal := { p with totalDeposit := p.totalDeposit.add amount }
  have hsound1 : GovSound (g.setProposal p1) := hsound.setProposal hp rfl rfl rfl rfl
  have hget1 : (g.setProposal p1).getProposal p.proposalID = some p1 := get_set_self _ _
  split
  · have hopened := opened_activate hsound1 ctx (p := p1) hget1 hstatus
    refine ⟨GovState.inNextPeriod ctx g.params.votingPeriod p1, hp, hstatus, ?_⟩
    refine ⟨hopened.sound.setDeposits _, ⟨rfl, le_refl _⟩, ?_, hopened.get, hopened.id,
      hopened.content, hopened.submitTime, hopened.proposer, hopened.claim⟩
    intro id' hne
    exact (hopened.only id' hne).trans (get_set_of_ne _ hne)
  · rename_i hnot
    refine ⟨p1, hp, hstatus, ?_⟩
    refine ⟨hsound1.setDeposits _, ⟨rfl, le_refl _⟩, fun id' hne => get_set_of_ne _ hne,
      hget1, rfl, rfl, rfl, rfl, ?_⟩
    intro hclaim
    exact absurd (.inr hclaim) hnot

end Shentu
