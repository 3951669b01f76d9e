import Shentu.Shield.ProviderInvariant
import Shentu.Shield.Ledger

/-!
Runs of the functions that write the collateral book, in any order and at any
block times, with any change of the other modules in between. The provider
relations are kept by every such run that starts with a sound withdraw queue and
without negative shield. Each of these conditions is needed: a state that lacks
one of them can lose the relations in one step.
-/

namespace Shentu

open Lib CollateralBook

variable {σ : Type}

/-- One successful call of a function that writes the collateral book, or a change of the
rest of the world. -/
inductive CollateralStep (k : Keepers σ) : ShieldState σ → ShieldState σ → Prop
  | deposit {s : ShieldState σ} {addr : AccAddress} {amount : Int} {b : CollateralBook} :
      0 < amount → s.collateral.depositCollateral k s.world addr amount = .ok b →
      CollateralStep k s { s with collateral := b }
  | withdraw {s : ShieldState σ} {ctx : Ctx} {addr : AccAddress} {amount : Int}
      {b : CollateralBook} :
      0 < amount → s.collateral.withdrawCollateral s.params.pool ctx addr amount = .ok b →
      CollateralStep k s { s with collateral := b }
  | delegationModified {s : ShieldState σ} {ctx : Ctx} {delAddr : AccAddress}
      {b : CollateralBook} :
      s.collateral.updateDelegationAmount k s.params.pool ctx s.world delAddr = .ok b →
      CollateralStep k s { s with collateral := b }
  | delegationRemoved {s : ShieldState σ} {ctx : Ctx} {delAddr : AccAddress}
      {valAddr : ValAddress} {b : CollateralBook} :
      s.collateral.removeDelegation k s.params.pool ctx s.world delAddr valAddr = .ok b →
      CollateralStep k s { s with collateral := b }
  | delayWithdraws {s : ShieldState σ} {provider : AccAddress} {amount : Int}
      {delayedTime : Time} {b : CollateralBook} :
      s.collateral.delayWithdraws provider amount delayedTime = .ok b →
      CollateralStep k s { s with collateral := b }
  | dequeue {s : ShieldState σ} {ctx : Ctx} {b : CollateralBook} :
      s.collateral.dequeueCompletedWithdrawQueue ctx = .ok b →
      CollateralStep k s { s with collateral := b }
  | reimburse {s s' : ShieldState σ} {ctx : Ctx} {proposalID : Nat} {amount : Coins}
      {beneficiary : AccAddress} :
      0 < amount.amountOf k.bondDenom →
      createReimbursement k ctx s proposalID amount beneficiary = .ok s' → CollateralStep k s s'
  | outside {s : ShieldState σ} (world : σ) : CollateralStep k s { s with world := world }

/-- What a run of collateral steps keeps. -/
def RunsSound (s : ShieldState σ) : Prop :=
  Backed s.collateral.totalCollateral [] s.collateral ∧ 0 ≤ s.cover.totalShield

lemma CollateralStep.sound {k : Keepers σ} {s s' : ShieldState σ} (hstep : CollateralStep k s s')
    (h : RunsSound s) : RunsSound s' := by
  obtain ⟨hb, hshield⟩ := h
  cases hstep with
  | deposit hamount hdeposit =>
    obtain ⟨hb', htotal⟩ := hb.depositCollateral hamount.le hdeposit
    exact ⟨htotal ▸ hb', hshield⟩
  | withdraw hamount hwithdraw =>
    obtain ⟨hb', htotal⟩ := hb.withdrawCollateral hamount.le hwithdraw
    exact ⟨htotal ▸ hb', hshield⟩
  | delegationModified hhook =>
    obtain ⟨hb', htotal⟩ :=
      hb.delegationChange ⟨_, updateDelegationAmount_cases hhook⟩
    exact ⟨htotal ▸ hb', hshield⟩
  | delegationRemoved hhook =>
    obtain ⟨hb', htotal⟩ :=
      hb.delegationChange ⟨_, removeDelegation_cases hhook⟩
    exact ⟨htotal ▸ hb', hshield⟩
  | delayWithdraws hdelay =>
    obtain ⟨hb', htotal⟩ := hb.delayWithdraws hdelay
    exact ⟨htotal ▸ hb', hshield⟩
  | dequeue hdequeue => exact ⟨hb.dequeueCompletedWithdrawQueue hdequeue, hshield⟩
  | reimburse hamount hreimburse =>
    refine ⟨hb.createReimbursement hshield hamount.le hreimburse, ?_⟩
    obtain ⟨b, world, rfl⟩ := createReimbursement_cases hreimburse
    exact hshield
  | outside world => exact ⟨hb, hshield⟩

/-- The provider relations are kept by every run that starts with a sound withdraw queue and
without negative shield. -/
theorem providerRelations_of_run {k : Keepers σ} {s s' : ShieldState σ}
    (hrel : ProviderRelations s.collateral) (hqueue : QueueSound s.collateral)
    (hshield : 0 ≤ s.cover.totalShield) (hrun : Relation.ReflTransGen (CollateralStep k) s s') :
    ProviderRelations s'.collateral := by
  have hsound : RunsSound s' := by
    induction hrun with
    | refl => exact ⟨backed_of_relations hrel hqueue, hshield⟩
    | tail _ hlast ih => exact hlast.sound ih
  exact hsound.1.relations

instance (b : CollateralBook) : Decidable (ProviderRelations b) :=
  decidable_of_iff
    (b.totalCollateral = b.providers.total Provider.collateral ∧
      b.totalWithdrawing = b.providers.total Provider.withdrawing ∧
      (∀ p ∈ b.providers.rows, p.withdrawing = queuedBy p.address b.withdrawQueue.entries) ∧
      ∀ p ∈ b.providers.rows, 0 ≤ p.withdrawing ∧ p.withdrawing ≤ p.collateral)
    ⟨fun ⟨h₁, h₂, h₃, h₄⟩ => ⟨h₁, h₂, h₃, h₄⟩, fun ⟨h₁, h₂, h₃, h₄⟩ => ⟨h₁, h₂, h₃, h₄⟩⟩

/-- A state with the one provider 1 and a withdraw queue of the given slices. -/
def oneProvider (collateral withdrawing totalShield : Int) (queue : TimeQueue Withdraw) :
    ShieldState Ledger :=
  let provider : Provider :=
    { Provider.new 1 with
      delegationBonded := 100, collateral := collateral, withdrawing := withdrawing }
  let state := ShieldState.empty shortPeriodParams Ledger.funded
  { state with
    collateral := { providers := ⟨[provider], by simp⟩, withdrawQueue := queue,
                    totalCollateral := collateral, totalWithdrawing := withdrawing }
    cover := { state.cover with totalShield := totalShield } }

/-- A queue of one withdraw in the slice of a time. -/
def oneWithdraw (time : Time) (w : Withdraw) : TimeQueue Withdraw := ⟨[⟨time, [w]⟩], by simp⟩

lemma queueSound_oneWithdraw (collateral withdrawing totalShield : Int) :
    QueueSound (oneProvider collateral withdrawing totalShield
      (oneWithdraw 5 ⟨1, 50, 5⟩)).collateral := by
  refine ⟨by simp [oneProvider, oneWithdraw, QueueFiled, TimeQueue.Filed],
    by simp [oneProvider, oneWithdraw, TimeQueue.entries], ?_⟩
  intro a hnone
  have hne : a ≠ 1 := by
    rintro rfl
    simp [oneProvider, CollateralBook.getProvider, Table.get, Provider.new] at hnone
  simp [oneProvider, oneWithdraw, TimeQueue.entries, queuedBy, Ne.symm hne]

/-- A claim of 20 is paid while 50 of the 100 are being withdrawn, and then the withdrawal
completes: both the payout and the release leave the relations in place. -/
theorem providerRelations_payout_release :
    ∃ s', Relation.ReflTransGen (CollateralStep ledgerKeepers)
        (oneProvider 100 50 40 (oneWithdraw 5 ⟨1, 50, 5⟩)) s' ∧
      s'.collateral.totalCollateral = 40 ∧ ProviderRelations s'.collateral := by
  obtain ⟨s₁, hs₁, b, hb, htotal⟩ : ∃ s, createReimbursement ledgerKeepers ⟨4, 200⟩ (oneProvider 100
        50 40 (oneWithdraw 5 ⟨1, 50, 5⟩)) 1 [⟨microCTKDenom, 20⟩] 2 = .ok s ∧
      ∃ b, s.collateral.dequeueCompletedWithdrawQueue ⟨5, 201⟩ = .ok b ∧
      b.totalCollateral = 40 := by
    decide +kernel
  have hrun : Relation.ReflTransGen (CollateralStep ledgerKeepers)
      (oneProvider 100 50 40 (oneWithdraw 5 ⟨1, 50, 5⟩)) { s₁ with collateral := b } :=
    (Relation.ReflTransGen.single (.reimburse (by decide) hs₁)).tail (.dequeue hb)
  exact ⟨_, hrun, htotal, providerRelations_of_run (by decide +kernel)
    (queueSound_oneWithdraw 100 50 40) (by decide) hrun⟩

/-- Without any one of the conditions on the first state the relations can be lost in one
step: a payout with negative shield takes free collateral twice, a delay copies a withdraw
that lies in another slice, a release of one withdraw uncovers a negative one, and a first
deposit makes a provider of an address that already has something queued. -/
theorem providerRelations_not_kept :
    (∃ s s' : ShieldState Ledger, ProviderRelations s.collateral ∧ QueueSound s.collateral ∧
      CollateralStep ledgerKeepers s s' ∧ ¬ ProviderRelations s'.collateral) ∧
    (∃ s s' : ShieldState Ledger, ProviderRelations s.collateral ∧ 0 ≤ s.cover.totalShield ∧
      (∀ w ∈ s.collateral.withdrawQueue.entries, 0 ≤ w.amount ∧
        (s.collateral.getProvider w.address).isSome) ∧
      CollateralStep ledgerKeepers s s' ∧ ¬ ProviderRelations s'.collateral) ∧
    (∃ s s' : ShieldState Ledger, ProviderRelations s.collateral ∧ 0 ≤ s.cover.totalShield ∧
      QueueFiled s.collateral.withdrawQueue ∧
      (∀ w ∈ s.collateral.withdrawQueue.entries, (s.collateral.getProvider w.address).isSome) ∧
      CollateralStep ledgerKeepers s s' ∧ ¬ ProviderRelations s'.collateral) ∧
    (∃ s s' : ShieldState Ledger, ProviderRelations s.collateral ∧ 0 ≤ s.cover.totalShield ∧
      QueueFiled s.collateral.withdrawQueue ∧
      (∀ w ∈ s.collateral.withdrawQueue.entries, 0 ≤ w.amount) ∧
      CollateralStep ledgerKeepers s s' ∧ ¬ ProviderRelations s'.collateral) := by
  refine ⟨?_, ?_, ?_, ?_⟩
  · obtain ⟨s', hs', hnot⟩ : ∃ s, createReimbursement ledgerKeepers ⟨4, 200⟩ (oneProvider 100 50
          (-10) (oneWithdraw 5 ⟨1, 50, 5⟩)) 1 [⟨microCTKDenom, 55⟩] 2 = .ok s ∧
        ¬ ProviderRelations s.collateral := by
      decide +kernel
    exact ⟨_, s', by decide +kernel, queueSound_oneWithdraw 100 50 (-10),
      CollateralStep.reimburse (by decide) hs', hnot⟩
  · obtain ⟨b, hb, hnot⟩ : ∃ b, (oneProvider 100 50 0 (oneWithdraw 5 ⟨1, 50,
          7⟩)).collateral.delayWithdraws 1 10 20 = .ok b ∧ ¬ ProviderRelations b := by
      decide +kernel
    exact ⟨_, _, by decide +kernel, le_rfl, by decide +kernel, .delayWithdraws hb, hnot⟩
  · obtain ⟨b, hb, hnot⟩ : ∃ b, (oneProvider 60 50 0 ((oneWithdraw 5 ⟨1, 70, 5⟩).insert 9 ⟨1, -20,
          9⟩)).collateral.dequeueCompletedWithdrawQueue ⟨5, 200⟩ = .ok b ∧
        ¬ ProviderRelations b := by
      decide +kernel
    refine ⟨_, _, by decide +kernel, le_rfl, ?_, by decide +kernel, .dequeue hb, hnot⟩
    unfold QueueFiled TimeQueue.Filed
    decide +kernel
  · obtain ⟨b, hb, hnot⟩ : ∃ b, CollateralBook.depositCollateral ledgerKeepers (oneProvider 100 0 0
          (oneWithdraw 5 ⟨2, 30, 5⟩)).world (oneProvider 100 0 0 (oneWithdraw 5 ⟨2, 30,
          5⟩)).collateral 2 40 = .ok b ∧ ¬ ProviderRelations b := by
      decide +kernel
    refine ⟨oneProvider 100 0 0 (oneWithdraw 5 ⟨2, 30, 5⟩), _, by decide +kernel, le_rfl, ?_,
      by decide +kernel, .deposit (by decide : (0 : Int) < 40) hb, hnot⟩
    unfold QueueFiled TimeQueue.Filed
    decide +kernel

end Shentu
