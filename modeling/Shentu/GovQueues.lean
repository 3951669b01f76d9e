import Shentu.ChainSteps
import Shentu.LedgerChain

/-!
The queues of the gov module in every run. An ID stands in the queue of inactive
proposals once, at the end of its deposit period, while the stored proposal waits
for deposits, and in the queue of active proposals once, at the end of its current
voting period, while it is voted on. It stands nowhere else.
-/

namespace Shentu

open Lib List

variable {σ : Type}

lemma exec_govSound {k : ChainKeepers σ} {c c' : Chain σ} {e : Event σ} (hsound : GovSound c.gov)
    (hvoted : ClaimsVoted c.gov) (h : exec k c e = .ok c') :
    GovSound c'.gov ∧ ClaimsVoted c'.gov := by
  have hk : GovKeeps k (ChainRules.any (σ := σ)).measure := GovKeeps.const k
  cases exec_executed h with
  | govEnd hend =>
    have hstep := govEndBlocker_step hk hsound (fun _ _ _ _ _ _ _ _ => trivial) hend
    exact ⟨hstep.sound, hstep.voted hvoted⟩
  | tx htx =>
    simp only [deliverTx, bind_eq_ok] at htx
    obtain ⟨⟨⟩, -, hmsg⟩ := htx
    unfold handleMsg at hmsg
    split at hmsg
    · have hstep := handleMsgSubmitProposal_step hk hsound hvoted (fun _ _ => trivial) hmsg
      exact ⟨hstep.sound, hstep.voted⟩
    · have hstep := handleMsgDeposit_step hk hsound hvoted hmsg
      exact ⟨hstep.sound, hstep.voted⟩
    · simp only [bind_eq_ok, pure_eq_ok] at hmsg
      obtain ⟨s, -, rfl⟩ := hmsg
      exact ⟨hsound, hvoted⟩
  | _ => exact ⟨hsound, hvoted⟩

lemma run_govSound {k : ChainKeepers σ} {c c' : Chain σ} {es : List (Event σ)}
    (hsound : GovSound c.gov) (hvoted : ClaimsVoted c.gov) (hrun : run k c es = .ok c') :
    GovSound c'.gov ∧ ClaimsVoted c'.gov :=
  foldlM_invariant (P := fun c : Chain σ => GovSound c.gov ∧ ClaimsVoted c.gov)
    (fun _ _ _ _ h hexec => exec_govSound h.1 h.2 hexec) ⟨hsound, hvoted⟩ hrun

/-- The times at which an ID stands in a queue. -/
def queueTimes (q : ProposalQueue) (id : Nat) : List Time :=
  (q.rows.filter (fun key => (ofLex key).2 = id)).map (fun key => (ofLex key).1)

lemma mem_queueTimes {q : ProposalQueue} {id : Nat} {t : Time} :
    t ∈ queueTimes q id ↔ queueKey t id ∈ q.rows := by
  simp only [queueTimes, mem_map, mem_filter, decide_eq_true_eq]
  constructor
  · rintro ⟨key, ⟨hkey, rfl⟩, rfl⟩
    exact hkey
  · intro hkey
    exact ⟨_, ⟨hkey, rfl⟩, rfl⟩

lemma queueTimes_nodup (q : ProposalQueue) (id : Nat) : (queueTimes q id).Nodup := by
  refine List.Nodup.map_on ?_ (q.rows_nodup.filter _)
  intro a ha b hb htime
  have ha' : (ofLex a).2 = id := by simpa using (mem_filter.mp ha).2
  have hb' : (ofLex b).2 = id := by simpa using (mem_filter.mp hb).2
  exact ofLex_inj.mp (Prod.ext htime (ha'.trans hb'.symm))

lemma queueTimes_eq {q : ProposalQueue} {id : Nat} {expected : Option Time}
    (h : ∀ t, queueKey t id ∈ q.rows ↔ expected = some t) : queueTimes q id = expected.toList := by
  have hperm : (queueTimes q id).Perm expected.toList := by
    rw [perm_ext_iff_of_nodup (queueTimes_nodup q id) (by cases expected <;> simp)]
    intro t
    rw [mem_queueTimes, h t, Option.mem_toList]
  cases expected with
  | none => exact hperm.eq_nil
  | some t => exact perm_singleton.mp hperm

/-- The end of the deposit period of a proposal that waits for deposits. -/
def waitingUntil : Option Proposal → Option Time
  | some p => if p.status = .depositPeriod then some p.depositEndTime else none
  | none => none

/-- The end of the current voting period of a proposal that is voted on. -/
def votingUntil : Option Proposal → Option Time
  | some p =>
    if p.status = .certifierVotingPeriod ∨ p.status = .validatorVotingPeriod then
      some p.votingEndTime
    else none
  | none => none

lemma isOpen_iff (p : Proposal) : p.isOpen = true ↔
    p.status = .certifierVotingPeriod ∨ p.status = .validatorVotingPeriod := by
  cases hstatus : p.status <;> simp [Proposal.isOpen, hstatus]

lemma waitingUntil_eq_some {o : Option Proposal} {t : Time} : waitingUntil o = some t ↔
    ∃ p, o = some p ∧ p.status = .depositPeriod ∧ p.depositEndTime = t := by
  cases o <;> simp [waitingUntil]

lemma votingUntil_eq_some {o : Option Proposal} {t : Time} : votingUntil o = some t ↔
    ∃ p, o = some p ∧ p.isOpen = true ∧ p.votingEndTime = t := by
  cases o <;> simp [votingUntil, isOpen_iff]

lemma GovSoundAt.queueTimes {g : GovState} {id : Nat} (h : GovSoundAt g id) :
    queueTimes g.inactiveProposalQueue id = (waitingUntil (g.getProposal id)).toList ∧
      queueTimes g.activeProposalQueue id = (votingUntil (g.getProposal id)).toList := by
  refine ⟨queueTimes_eq ?_, queueTimes_eq ?_⟩
  · intro t
    rw [waitingUntil_eq_some]
    refine ⟨h.inactive t, ?_⟩
    rintro ⟨p, hp, hstatus, rfl⟩
    exact h.waiting p hp hstatus
  · intro t
    rw [votingUntil_eq_some]
    refine ⟨h.active t, ?_⟩
    rintro ⟨p, hp, hopen, rfl⟩
    exact h.queued p hp hopen

/-- In every state reached from an empty chain both queues hold every ID exactly as the stored
proposal asks for. An ID without a stored proposal, or with one that is finished, is in none. -/
theorem queues_of_run {k : ChainKeepers σ} {params : ShieldParams} {govParams : GovParams}
    {world : σ} {ctx : Ctx} {es : List (Event σ)} {c : Chain σ}
    (hrun : run k (Chain.empty params govParams world ctx) es = .ok c) (id : Nat) :
    queueTimes c.gov.inactiveProposalQueue id = (waitingUntil (c.gov.getProposal id)).toList ∧
      queueTimes c.gov.activeProposalQueue id = (votingUntil (c.gov.getProposal id)).toList := by
  have hvoted : ClaimsVoted (.empty govParams) := by
    intro id p hp
    cases hp
  exact ((run_govSound (.empty govParams) hvoted hrun).1 id).queueTimes

/-- A claim is submitted at 1001 and is active until 1011. The certifiers pass it at 1006, and it
is active until 1016. -/
theorem queues_of_run_claim :
    ∃ c c' : Chain Ledger, run ledgerChainKeepers ledgerStart
        (txBlock 1 (coverMsgs ++ [claimMsg 20 5]) .reject).events = .ok c ∧
      run ledgerChainKeepers ledgerStart
        ((txBlock 1 (coverMsgs ++ [claimMsg 20 5]) .reject).events ++
          (txBlock 5 [] .pass).events) = .ok c' ∧
      queueTimes c.gov.activeProposalQueue 1 = [1011] ∧
      queueTimes c'.gov.activeProposalQueue 1 = [1016] ∧
      queueTimes c'.gov.inactiveProposalQueue 1 = [] := by
  obtain ⟨c, hc, hactive⟩ : ∃ c, run ledgerChainKeepers ledgerStart (txBlock 1 (coverMsgs ++
        [claimMsg 20 5]) .reject).events = .ok c ∧
      votingUntil (c.gov.getProposal 1) = some 1011 := by
    decide +kernel
  have hrun' : OkAnd (run ledgerChainKeepers ledgerStart
      ((txBlock 1 (coverMsgs ++ [claimMsg 20 5]) .reject).events ++ (txBlock 5 [] .pass).events))
      (fun c => votingUntil (c.gov.getProposal 1) = some 1016 ∧
        waitingUntil (c.gov.getProposal 1) = none) := by
    decide +kernel
  obtain ⟨c', hc', hactive', hwaiting'⟩ := hrun'.exists
  have hqueues := queues_of_run hc 1
  have hqueues' := queues_of_run hc' 1
  rw [hactive] at hqueues
  rw [hactive', hwaiting'] at hqueues'
  exact ⟨c, c', hc, hc', hqueues.2, hqueues'.2, hqueues'.1⟩

end Shentu
