import Shentu.KeptRecords

/-!
The history of every withdrawal along a run of the chain. Between two end blockers of the
shield module a withdrawal may be delayed by claims and reduced by payouts; at an end
blocker it is released if its completion time has come, and stays as it is otherwise.
-/

namespace Shentu

open Lib Tickets List

variable {σ : Type}

/-- What an event may do to queued withdrawals. A claim that is submitted delays them to the end
of its lock, which lasts two voting periods. The end blocker of the gov module makes payouts. -/
def queueRules (c : Chain σ) (e : Event σ) : QueueRules where
  delayedTo t := t = c.ctx.blockTime + c.gov.params.votingPeriod * 2 ∧
    ∃ claim initialDeposit proposer,
      e = .action (.tx (.submitProposal (.shieldClaim claim) initialDeposit proposer))
  pays := ∃ tallies, e = .govEndBlocker tallies

section Events

variable {k : ChainKeepers σ} {c c' : Chain σ}

lemma handleMsgSubmitProposal_bookMoves {content : Content} {initialDeposit : Coins}
    {proposer : AccAddress}
    (h : handleMsgSubmitProposal k c content initialDeposit proposer = .ok c') :
    BookMoves c.shield.params.pool c.ctx
      (queueRules c (.action (.tx (.submitProposal content initialDeposit proposer))))
      c.shield.collateral c'.shield.collateral := by
  simp only [handleMsgSubmitProposal, run_eq_ok] at h
  obtain ⟨-, ⟨⟩, -, c1, hopen, hupdate⟩ := h
  have hopened := openProposal_onlyOpened hopen
  have hctx : c1.ctx = c.ctx := hopened.ctx
  have hparams : c1.gov.params = c.gov.params := hopened.params
  have hsame : c1.shield.collateral = c.shield.collateral := by
    rw [hopened.shield]
  cases content with
  | shieldClaim claim =>
    obtain ⟨s, hsecure, rfl⟩ := updateAfterSubmitClaim_cases hupdate
    rw [hctx, hparams] at hsecure
    rw [← hsame]
    exact secureCollaterals_bookMoves ⟨rfl, claim, initialDeposit, proposer, rfl⟩ hsecure
  | _ =>
    cases hupdate
    rw [hsame]

lemma deliverTx_bookMoves {msg : Msg} (h : deliverTx k c msg = .ok c') :
    BookMoves c.shield.params.pool c.ctx (queueRules c (.action (.tx msg)))
      c.shield.collateral c'.shield.collateral := by
  simp only [deliverTx, bind_eq_ok] at h
  obtain ⟨⟨⟩, hvalid, h⟩ := h
  unfold handleMsg at h
  split at h
  · exact handleMsgSubmitProposal_bookMoves h
  · simp only [handleMsgDeposit, run_eq_ok] at h
    obtain ⟨gw, -, rfl⟩ := h
    exact .refl
  · simp only [run_eq_ok] at h
    obtain ⟨s, hshield, rfl⟩ := h
    rcases handleShieldMsg_records hshield with hkeeps |
      ⟨sender, collateral, amount, b, rfl, hamount, hwithdraw, rfl⟩ | ⟨id, sender, -, hreimburse⟩
    · exact .single (.keep hkeeps.queue)
    · have hnonneg : 0 ≤ amount := by
        simp only [collateralAmount, run_eq_ok] at hamount
        rw [← hamount.2]
        simp only [Msg.validateBasic, failInvalidCoins, failIf_eq_ok, not_or, not_not] at hvalid
        exact Coins.amountOf_nonneg_of_isValid hvalid.1 _
      exact .single (.withdraw hnonneg hwithdraw)
    · obtain ⟨r, world, -, -, -, -, rfl⟩ := withdrawReimbursement_cases hreimburse
      exact .refl

lemma exec_bookMoves {e : Event σ} (he : e ≠ .endBlocker) (h : exec k c e = .ok c') :
    BookMoves c.shield.params.pool c.ctx (queueRules c e) c.shield.collateral
      c'.shield.collateral := by
  cases exec_executed h with
  | shieldEnd => exact absurd rfl he
  | @govEnd t _ hgov =>
    obtain ⟨trace, htraced⟩ := exists_execTraced (c, []) h
    have hend : govEndBlockerTraced k t (c, []) = .ok (c', trace) := htraced
    obtain ⟨entries, hwritten⟩ := govEndBlockerTraced_records hend
    exact hwritten.payouts _ ⟨t, rfl⟩
  | tx htx => exact deliverTx_bookMoves htx
  | hook hhook => exact hhook.bookMoves
  | fund hfund =>
    simp only [fundShieldBlockRewards, run_eq_ok] at hfund
    obtain ⟨world, -, rewards, -, rfl⟩ := hfund
    exact .refl
  | _ => exact .refl

end Events

/-- A state of the chain with the numbers of its open withdrawals. -/
structure WithdrawStage (σ : Type) where
  chain : Chain σ
  tickets : Tickets Withdraw

/-- The collateral book and the open withdrawals. -/
def WithdrawStage.open (s : WithdrawStage σ) : CollateralBook × Tickets Withdraw :=
  (s.chain.shield.collateral, s.tickets)

/-- What an event does to the open withdrawals. The tickets are the entries of the withdraw
queue. The end blocker of the shield module releases those whose completion time has come and
takes their amounts from the collateral and from the withdrawing amount of their providers. -/
structure WithdrawStep (k : ChainKeepers σ) (s : WithdrawStage σ) (e : Event σ)
    (s' : WithdrawStage σ) : Prop where
  exec : exec k s.chain e = .ok s'.chain
  sound : s'.tickets.Sound
  queue : s'.tickets.values.Perm s'.chain.shield.collateral.withdrawQueue.entries
  between : e ≠ .endBlocker → WithdrawMoves s.chain.shield.params.pool s.chain.ctx
    (queueRules s.chain e) s.open s'.open
  release : e = .endBlocker →
    s'.tickets = s.tickets.release (fun w => w.completionTime ≤ s.chain.ctx.blockTime)
  lowered : e = .endBlocker → ∀ a,
    s'.chain.shield.collateral.providers.valueAt Provider.collateral a =
        s.chain.shield.collateral.providers.valueAt Provider.collateral a -
          queuedByUntil a s.chain.ctx.blockTime s.tickets.values ∧
      s'.chain.shield.collateral.providers.valueAt Provider.withdrawing a =
        s.chain.shield.collateral.providers.valueAt Provider.withdrawing a -
          queuedByUntil a s.chain.ctx.blockTime s.tickets.values

/-- Events one after the other, each with the stage it leads to. -/
inductive WithdrawHistory (k : ChainKeepers σ) :
    WithdrawStage σ → List (Event σ × WithdrawStage σ) → Prop
  | nil {s : WithdrawStage σ} : WithdrawHistory k s []
  | cons {s s₁ : WithdrawStage σ} {e : Event σ} {hs : List (Event σ × WithdrawStage σ)} :
      WithdrawStep k s e s₁ → WithdrawHistory k s₁ hs → WithdrawHistory k s ((e, s₁) :: hs)

/-- A withdrawal is not open in any of the stages. -/
def Gone (i : Nat) (hs : List (Event σ × WithdrawStage σ)) : Prop :=
  ∀ es ∈ hs, i ∉ es.2.tickets.numbers

/-- What becomes of the withdrawal with number `i`, which is `w` now, along a history. -/
inductive Fate (i : Nat) : WithdrawStage σ → Withdraw → List (Event σ × WithdrawStage σ) → Prop
  /-- It is still open at the end of the history. -/
  | waiting {s : WithdrawStage σ} {w : Withdraw} : Fate i s w []
  /-- It stays open at an event that is no end blocker, delayed by a claim or reduced by payouts. -/
  | carried {s s₁ : WithdrawStage σ} {w w₁ : Withdraw} {e : Event σ}
      {hs : List (Event σ × WithdrawStage σ)} :
      e ≠ .endBlocker → (i, w₁) ∈ s₁.tickets.items →
      Relation.ReflTransGen (WithdrawChanged (queueRules s.chain e)) w w₁ →
      Fate i s₁ w₁ hs → Fate i s w ((e, s₁) :: hs)
  /-- An end blocker before its completion time leaves it as it is. -/
  | kept {s s₁ : WithdrawStage σ} {w : Withdraw} {hs : List (Event σ × WithdrawStage σ)} :
      s.chain.ctx.blockTime < w.completionTime → (i, w) ∈ s₁.tickets.items →
      Fate i s₁ w hs → Fate i s w ((.endBlocker, s₁) :: hs)
  /-- The first end blocker not before its completion time releases it for good. -/
  | released {s s₁ : WithdrawStage σ} {w : Withdraw} {hs : List (Event σ × WithdrawStage σ)} :
      w.completionTime ≤ s.chain.ctx.blockTime → Gone i ((.endBlocker, s₁) :: hs) →
      Fate i s w ((.endBlocker, s₁) :: hs)
  /-- Payouts at the end of a block use it up: the last one takes all that is left of it. -/
  | usedUp {s s₁ : WithdrawStage σ} {w : Withdraw} {tallies : Tallies}
      {hs : List (Event σ × WithdrawStage σ)} :
      UsedUpBy s.chain.shield.params.pool s.chain.ctx (queueRules s.chain (.govEndBlocker tallies))
        i w s.open s₁.open →
      Gone i ((.govEndBlocker tallies, s₁) :: hs) →
      Fate i s w ((.govEndBlocker tallies, s₁) :: hs)

section Histories

variable {k : ChainKeepers σ} {s s' : WithdrawStage σ} {i : Nat} {w : Withdraw}

variable {e : Event σ}

lemma WithdrawStep.gone (h : WithdrawStep k s e s') (hi : i < s.tickets.next)
    (hgone : i ∉ s.tickets.numbers) : i < s'.tickets.next ∧ i ∉ s'.tickets.numbers := by
  by_cases he : e = .endBlocker
  · rw [h.release he]
    exact ⟨hi, gone_release _ hgone⟩
  · exact WithdrawMoves.gone (h.between he) hi hgone

lemma WithdrawHistory.gone {hs : List (Event σ × WithdrawStage σ)} (h : WithdrawHistory k s hs)
    (hi : i < s.tickets.next) (hgone : i ∉ s.tickets.numbers) : Gone i hs := by
  induction h with
  | nil => exact fun _ hmem => absurd hmem not_mem_nil
  | cons hstep _ ih =>
    obtain ⟨hi1, hgone1⟩ := hstep.gone hi hgone
    exact forall_mem_cons.mpr ⟨hgone1, ih hi1 hgone1⟩

/-- Every open withdrawal has its fate along every history. -/
lemma WithdrawHistory.fate {hs : List (Event σ × WithdrawStage σ)} (h : WithdrawHistory k s hs)
    (hsound : s.tickets.Sound) (hi : (i, w) ∈ s.tickets.items) : Fate i s w hs := by
  induction h generalizing w with
  | nil => exact .waiting
  | @cons s s1 e hs hstep hrest ih =>
    have hbelow : i < s.tickets.next := hsound.below i (mem_numbers hi)
    have hgone : i ∉ s1.tickets.numbers → i < s1.tickets.next → Gone i ((e, s1) :: hs) := by
      intro hnot hnext
      exact forall_mem_cons.mpr ⟨hnot, hrest.gone hnext hnot⟩
    by_cases he : e = .endBlocker
    · subst he
      have hrelease := hstep.release rfl
      rcases mem_release_or_gone hsound hi
        (fun w => decide (w.completionTime ≤ s.chain.ctx.blockTime)) with ⟨hlater, hkept⟩ |
        ⟨hdue, hnot⟩
      · rw [← hrelease] at hkept
        exact .kept (by simpa using hlater) hkept (ih hstep.sound hkept)
      · rw [← hrelease] at hnot
        refine .released (by simpa using hdue) (hgone hnot ?_)
        rw [hrelease]
        exact hbelow
    · obtain ⟨hnext, ⟨w1, hi1, hchanged⟩ | ⟨hused, hnot⟩⟩ :=
        WithdrawMoves.ticket (hstep.between he) hsound hi
      · exact .carried he hi1 hchanged (ih hstep.sound hi1)
      · obtain ⟨tallies, rfl⟩ := hused.1
        exact .usedUp hused (hgone hnot hnext)

/-- The tickets are the entries of a queue in which every withdrawal is filed under its completion
time, and nothing of nothing waits in it. -/
structure WithdrawStage.Sound (s : WithdrawStage σ) : Prop where
  tickets : s.tickets.Sound
  filed : QueueFiled s.chain.shield.collateral.withdrawQueue
  queue : s.tickets.values.Perm s.chain.shield.collateral.withdrawQueue.entries
  pos : ∀ w ∈ s.tickets.values, 0 < w.amount

/-- Every event leads to a stage. -/
lemma WithdrawStage.Sound.exec (h : s.Sound) {c : Chain σ} (hexec : exec k s.chain e = .ok c) :
    ∃ T, WithdrawStep k s e ⟨c, T⟩ ∧ (⟨c, T⟩ : WithdrawStage σ).Sound := by
  by_cases he : e = .endBlocker
  · subst he
    have hend := hexec
    simp only [Shentu.exec, run_eq_ok] at hend
    obtain ⟨s1, hend, rfl⟩ := hend
    obtain ⟨hfiled, hentries, hlowered⟩ := endBlocker_releases hend h.filed
    let T := s.tickets.release (fun w => w.completionTime ≤ s.chain.ctx.blockTime)
    have hqueue : T.values.Perm s1.collateral.withdrawQueue.entries := by
      rw [values_release]
      exact (h.queue.filter _).trans hentries.symm
    have hsound := h.tickets.release (fun w => w.completionTime ≤ s.chain.ctx.blockTime)
    refine ⟨T, ⟨hexec, hsound, hqueue, fun hne => absurd rfl hne, fun _ => rfl, ?_⟩,
      hsound, hfiled, hqueue, ?_⟩
    · intro _ a
      rw [queuedByUntil, amountWhere_perm h.queue]
      exact hlowered a
    · intro w hw
      rw [values_release] at hw
      exact h.pos w (mem_of_mem_filter hw)
  · obtain ⟨hfiled, T, hmoves, hqueue⟩ := (exec_bookMoves he hexec).tickets h.filed h.pos h.queue
    have hsound := WithdrawMoves.sound hmoves h.tickets
    exact ⟨T, ⟨hexec, hsound, hqueue, fun _ => hmoves, fun heq => absurd heq he,
      fun heq => absurd heq he⟩, hsound, hfiled, hqueue, WithdrawMoves.pos hmoves h.pos⟩

lemma WithdrawStage.Sound.exists_history (h : s.Sound) {es : List (Event σ)} {c : Chain σ}
    (hrun : run k s.chain es = .ok c) : ∃ hs, hs.map Prod.fst = es ∧ WithdrawHistory k s hs := by
  induction es generalizing s with
  | nil => exact ⟨[], rfl, .nil⟩
  | cons e es ih =>
    obtain ⟨c1, hexec, hrest⟩ := foldlM_cons_eq_ok.mp hrun
    obtain ⟨T, hstep, hsound⟩ := h.exec hexec
    obtain ⟨hs, hevents, hhistory⟩ := ih (s := ⟨c1, T⟩) hsound hrest
    exact ⟨(e, ⟨c1, T⟩) :: hs, by rw [map_cons, hevents], WithdrawHistory.cons hstep hhistory⟩

lemma WithdrawHistory.drop {hs1 hs2 : List (Event σ × WithdrawStage σ)}
    (h : WithdrawHistory k s (hs1 ++ (e, s') :: hs2)) :
    s'.tickets.Sound ∧ WithdrawHistory k s' hs2 := by
  induction hs1 generalizing s with
  | nil =>
    cases h with
    | cons hstep hrest => exact ⟨hstep.sound, hrest⟩
  | cons es hs1 ih =>
    cases h with
    | cons _ hrest => exact ih hrest

/-- Every run has a history in which each withdrawal keeps its number from its creation on. It is
released once, by the first end blocker of the shield module that is not before its completion
time at that block, unless payouts use it up before. -/
theorem withdrawals_released_when_due {params : ShieldParams} {govParams : GovParams} {world : σ}
    {ctx : Ctx} {es : List (Event σ)} {c : Chain σ}
    (hrun : run k (Chain.empty params govParams world ctx) es = .ok c) :
    ∃ hs, hs.map Prod.fst = es ∧
      WithdrawHistory k ⟨Chain.empty params govParams world ctx, Tickets.empty⟩ hs ∧
      ∀ hs₁ e s hs₂, hs = hs₁ ++ (e, s) :: hs₂ →
        ∀ i w, (i, w) ∈ s.tickets.items → Fate i s w hs₂ := by
  have hsound : WithdrawStage.Sound ⟨Chain.empty params govParams world ctx, Tickets.empty⟩ := by
    refine ⟨Tickets.Sound.empty, ?_, List.Perm.nil, fun _ hw => absurd hw not_mem_nil⟩
    intro slice hslice
    exact absurd hslice not_mem_nil
  obtain ⟨hs, hevents, hhistory⟩ := hsound.exists_history hrun
  refine ⟨hs, hevents, hhistory, ?_⟩
  rintro hs₁ e s hs₂ rfl i w hi
  obtain ⟨hsound₁, hrest⟩ := hhistory.drop
  exact hrest.fate hsound₁ hi

end Histories

/-- Provider 1 withdraws 90 at time 1001, due at 1101. A claim at time 1086 delays it to 1106. -/
def delayedWithdrawal : List (Event Ledger) :=
  (txBlock 1 (coverMsgs ++ [.withdrawCollateral 1 (uctk 90)]) .reject).events ++
    (txBlock 85 [claimMsg 20 5] .reject).events ++ (txBlock 16 [] .reject).events

/-- The end blocker at time 1102 leaves the delayed withdrawal, the one at 1106 releases it. -/
theorem withdrawals_released_after_delay :
    ∃ c c' : Chain Ledger, run ledgerChainKeepers ledgerStart delayedWithdrawal = .ok c ∧
      c.ctx.blockTime = 1102 ∧ c.shield.collateral.withdrawQueue.entries = [⟨1, 90, 1106⟩] ∧
      c.shield.collateral.providers.valueAt Provider.collateral 1 = 100 ∧
      run ledgerChainKeepers ledgerStart (delayedWithdrawal ++ (txBlock 4 [] .reject).events) =
        .ok c' ∧
      c'.shield.collateral.withdrawQueue.entries = [] ∧
      c'.shield.collateral.providers.valueAt Provider.collateral 1 = 10 ∧
      ∃ hs, hs.map Prod.fst = delayedWithdrawal ++ (txBlock 4 [] .reject).events ∧
        WithdrawHistory ledgerChainKeepers ⟨ledgerStart, Tickets.empty⟩ hs ∧
        ∀ hs₁ e s hs₂, hs = hs₁ ++ (e, s) :: hs₂ →
          ∀ i w, (i, w) ∈ s.tickets.items → Fate i s w hs₂ := by
  obtain ⟨c, hc, htime, hwaiting, hfull⟩ : ∃ c, run ledgerChainKeepers ledgerStart delayedWithdrawal
        = .ok c ∧ c.ctx.blockTime = 1102 ∧
      c.shield.collateral.withdrawQueue.entries = [⟨1, 90, 1106⟩] ∧
      c.shield.collateral.providers.valueAt Provider.collateral 1 = 100 := by
    decide +kernel
  obtain ⟨c', hc', hempty, hlowered⟩ : ∃ c', run ledgerChainKeepers ledgerStart (delayedWithdrawal
        ++ (txBlock 4 [] .reject).events) = .ok c' ∧
      c'.shield.collateral.withdrawQueue.entries = [] ∧
      c'.shield.collateral.providers.valueAt Provider.collateral 1 = 10 := by
    decide +kernel
  exact ⟨c, c', hc, htime, hwaiting, hfull, hc', hempty, hlowered,
    withdrawals_released_when_due hc'⟩

end Shentu
