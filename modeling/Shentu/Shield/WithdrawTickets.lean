import Shentu.Shield.StoredLists
import Shentu.Shield.Payout
import Shentu.Lib.Tickets

/-!
The identity of a withdrawal. The withdraw queue holds entries that can be equal, so a
withdrawal is followed through its history as a ticket: it is opened when it is put in the
queue, delays and payouts change it, a payout that uses it up closes it, and the end blocker
releases it. Each function of the shield module that writes the queue is shown to do one of
these things to the tickets.
-/

namespace Shentu

open Lib CollateralBook Relation Tickets Table List

variable {σ : Type}

/-- What may happen to queued withdrawals besides a new one: the times to which they may be
delayed, and whether payouts may be taken from them. -/
structure QueueRules where
  delayedTo : Time → Prop
  pays : Prop

/-- One change of the collateral book other than the release of completed withdrawals. -/
inductive BookMove (params : PoolParams) (ctx : Ctx) (rules : QueueRules) (b : CollateralBook) :
    CollateralBook → Prop
  | keep {b' : CollateralBook} : b'.withdrawQueue = b.withdrawQueue → BookMove params ctx rules b b'
  | withdraw {addr : AccAddress} {amount : Int} {b' : CollateralBook} : 0 ≤ amount →
      b.withdrawCollateral params ctx addr amount = .ok b' → BookMove params ctx rules b b'
  | delay {provider : AccAddress} {amount : Int} {t : Time} {b' : CollateralBook} :
      rules.delayedTo t → b.delayWithdraws provider amount t = .ok b' →
      BookMove params ctx rules b b'
  | payout {addr : AccAddress} {purchased payout : Int} {b' : CollateralBook} : rules.pays →
      b.updateProviderCollateralForPayout addr purchased payout = .ok b' →
      BookMove params ctx rules b b'

variable (params : PoolParams)

/-- Any number of changes. -/
abbrev BookMoves (ctx : Ctx) (rules : QueueRules) : CollateralBook → CollateralBook → Prop :=
  ReflTransGen (BookMove params ctx rules)

/-- What a delay to a time leaves of a withdrawal that it reaches or not. -/
def afterDelay (t : Time) (w : Withdraw) (delayed : Bool) : Option Withdraw :=
  some (if delayed then { w with completionTime := t } else w)

/-- What a part that is paid out leaves of a withdrawal. -/
def afterPart (w : Withdraw) (x : Int) : Option Withdraw :=
  if w.amount = x then none else some (reduced w x)

/-- A payout from a provider takes a part, or nothing, from each open withdrawal. The parts are
those of the provider's withdrawals, and they add up to what it takes from the withdrawing
amount. -/
structure TakesParts (b b' : CollateralBook) (addr : AccAddress) (T T' : Tickets Withdraw)
    (parts : List ((Nat × Withdraw) × Int)) : Prop where
  edited : Edited afterPart T T' parts
  bounds : ∀ part ∈ parts, 0 ≤ part.2 ∧ part.2 ≤ part.1.2.amount ∧
    (part.2 ≠ 0 → part.1.2.address = addr)
  total : (parts.map Prod.snd).sum = b.providers.valueAt Provider.withdrawing addr -
    b'.providers.valueAt Provider.withdrawing addr

/-- One change of the collateral book other than the release of completed withdrawals, with the
open withdrawals. A new one completes a withdraw period later. A delay sets a completion time that
is not earlier, and a payout takes parts. -/
inductive WithdrawMove (params : PoolParams) (ctx : Ctx) (rules : QueueRules) :
    CollateralBook × Tickets Withdraw → CollateralBook × Tickets Withdraw → Prop
  | keep {b b' : CollateralBook} {T : Tickets Withdraw} : b'.withdrawQueue = b.withdrawQueue →
      WithdrawMove params ctx rules (b, T) (b', T)
  | withdraw {b b' : CollateralBook} {T : Tickets Withdraw} {addr : AccAddress} {amount : Int} :
      0 < amount → b.withdrawCollateral params ctx addr amount = .ok b' →
      WithdrawMove params ctx rules (b, T)
        (b', T.opened ⟨addr, amount, ctx.blockTime + params.withdrawPeriod⟩)
  | delay {b b' : CollateralBook} {T T' : Tickets Withdraw} {provider : AccAddress} {amount : Int}
      {t : Time} {delays : List ((Nat × Withdraw) × Bool)} :
      rules.delayedTo t → b.delayWithdraws provider amount t = .ok b' →
      Edited (afterDelay t) T T' delays →
      (∀ delay ∈ delays, delay.2 = true → delay.1.2.completionTime ≤ t) →
      WithdrawMove params ctx rules (b, T) (b', T')
  | payout {b b' : CollateralBook} {T T' : Tickets Withdraw} {addr : AccAddress}
      {purchased payout : Int} {parts : List ((Nat × Withdraw) × Int)} :
      rules.pays → b.updateProviderCollateralForPayout addr purchased payout = .ok b' →
      TakesParts b b' addr T T' parts → WithdrawMove params ctx rules (b, T) (b', T')

/-- Any number of changes. -/
abbrev WithdrawMoves (ctx : Ctx) (rules : QueueRules) :
    CollateralBook × Tickets Withdraw → CollateralBook × Tickets Withdraw → Prop :=
  ReflTransGen (WithdrawMove params ctx rules)

/-- A withdrawal that stays open is delayed, or a part of it is paid out. -/
def WithdrawChanged (rules : QueueRules) (w w' : Withdraw) : Prop :=
  (∃ t, rules.delayedTo t ∧ w.completionTime ≤ t ∧ w' = { w with completionTime := t }) ∨
    (rules.pays ∧ ∃ x, 0 < x ∧ x < w.amount ∧ w' = reduced w x)

/-- One of the changes is a payout that takes all that is left of a withdrawal. -/
def UsedUpBy (ctx : Ctx) (rules : QueueRules) (i : Nat) (w : Withdraw)
    (bT bT' : CollateralBook × Tickets Withdraw) : Prop :=
  rules.pays ∧ ∃ b₁ b₂ T₁ T₂ addr purchased payout parts,
    WithdrawMoves params ctx rules bT (b₁, T₁) ∧
    b₁.updateProviderCollateralForPayout addr purchased payout = .ok b₂ ∧
    TakesParts b₁ b₂ addr T₁ T₂ parts ∧ WithdrawMoves params ctx rules (b₂, T₂) bT' ∧
    ∃ w₁, ReflTransGen (WithdrawChanged rules) w w₁ ∧ ((i, w₁), w₁.amount) ∈ parts

section Functions

variable {k : Keepers σ} {params : PoolParams} {ctx : Ctx} {rules : QueueRules}
  {b b' : CollateralBook} {world world' : σ}

lemma DelegationChange.bookMoves (h : DelegationChange params ctx b b') :
    BookMoves params ctx rules b b' := by
  obtain ⟨delAddr, stakedAmt, h⟩ := h
  rcases updateProviderForDelegationChanges_cases h with
    rfl | ⟨p, -, ⟨-, rfl⟩ | ⟨hpos, hwithdraw⟩⟩
  · exact ReflTransGen.refl
  · exact ReflTransGen.single (.keep rfl)
  · have hkeep : BookMove params ctx rules b
        (b.setProvider { p with delegationBonded := stakedAmt }) := BookMove.keep rfl
    exact (ReflTransGen.single hkeep).tail (.withdraw hpos.le hwithdraw)

lemma DelegationChanges.bookMoves (h : DelegationChanges params ctx b b') :
    BookMoves params ctx rules b b' := by
  induction h with
  | refl => exact .refl
  | tail _ hchange ih => exact ih.trans hchange.bookMoves

lemma secureLoop_bookMoves {claimedRatio : Int} {duration : Duration}
    (hdelay : rules.delayedTo (ctx.blockTime + duration)) (providers : List Provider)
    {remaining : Int}
    (h : secureLoop k ctx claimedRatio duration providers remaining b world = .ok (b', world')) :
    BookMoves params ctx rules b b' := by
  induction providers generalizing remaining b world with
  | nil =>
    cases h
    exact .refl
  | cons provider providers ih =>
    simp only [secureLoop, bind_eq_ok] at h
    obtain ⟨⟨b1, world1⟩, hsecure, h⟩ := h
    rcases secureFromProvider_cases hsecure with ⟨rfl, -⟩ | hdelayed
    · exact ih h
    · exact (ih h).head (.delay hdelay hdelayed)

lemma secureCollaterals_bookMoves {s s' : ShieldState σ} {poolID : Nat} {purchaser : AccAddress}
    {purchaseID : Nat} {loss : Coins} {duration : Duration}
    (hdelay : rules.delayedTo (ctx.blockTime + duration))
    (h : secureCollaterals k ctx s poolID purchaser purchaseID loss duration = .ok s') :
    BookMoves params ctx rules s.collateral s'.collateral := by
  simp only [secureCollaterals, run_eq_ok] at h
  obtain ⟨pool, -, -, -, l, -, e, -, -, ratio, -, ⟨b, world⟩, hloop, rfl⟩ := h
  exact secureLoop_bookMoves hdelay _ hloop

/-- A payout takes from the withdrawals of one provider after the other; the undelegations it
makes may force new withdrawals. -/
lemma payProviders_bookMoves (hpays : rules.pays) {purchaseRatio payoutRatio : Int}
    (providers : List Provider) {totalPurchased totalPayout unpaid : Int}
    (h : payProviders k params ctx purchaseRatio payoutRatio providers totalPurchased totalPayout b
      world = .ok (unpaid, b', world')) : BookMoves params ctx rules b b' := by
  induction providers generalizing totalPurchased totalPayout b world with
  | nil =>
    cases h
    exact .refl
  | cons provider providers ih =>
    unfold payProviders at h
    split at h
    · simp only [bind_eq_ok, orPanic_eq_ok] at h
      obtain ⟨b1, hpayout, ⟨b2, world2⟩, hdelegations, h⟩ := h
      have hchanges := makePayoutByProviderDelegations_changes hdelegations
      exact (hchanges.bookMoves.trans (ih h)).head (.payout hpays hpayout)
    · cases h
      exact .refl

lemma createReimbursement_bookMoves (hpays : rules.pays) {s s' : ShieldState σ}
    {proposalID : Nat} {amount : Coins} {beneficiary : AccAddress}
    (h : createReimbursement k ctx s proposalID amount beneficiary = .ok s') :
    BookMoves s.params.pool ctx rules s.collateral s'.collateral := by
  simp only [createReimbursement, run_eq_ok] at h
  obtain ⟨_, -, _, -, ⟨unpaid, b, world⟩, hpay, -, rfl⟩ := h
  exact (payProviders_bookMoves hpays _ hpay).tail (.keep rfl)

end Functions

section Tickets

variable {params : PoolParams} {ctx : Ctx} {rules : QueueRules} {b b' : CollateralBook}
  {T : Tickets Withdraw}

lemma payoutLoop_of_nonpos (ws : List Withdraw) (uncovered : Int) {payout : Int} (h : payout ≤ 0)
    (q : TimeQueue Withdraw) : CollateralBook.payoutLoop ws uncovered payout q = (payout, q) := by
  cases ws with
  | nil => rfl
  | cons w ws => exact if_neg (not_lt.mpr h)

lemma splitPayout_uncovered_nonneg (free purchased payout : Int) :
    0 ≤ (CollateralBook.splitPayout free purchased payout).2 := by
  unfold CollateralBook.splitPayout
  split_ifs <;> dsimp only <;> omega

lemma filterMap_afterPart {cuts : List (Withdraw × Int)} (h : ∀ cut ∈ cuts, 0 < cut.1.amount) :
    cuts.filterMap (fun cut => afterPart cut.1 cut.2) = cuts.flatMap afterCut := by
  rw [filterMap_eq_flatMap_toList]
  refine flatMap_congr fun cut hcut => ?_
  have hpos := h cut hcut
  unfold afterPart afterCut remainder
  by_cases hall : cut.1.amount = cut.2
  · rw [if_pos hall, if_pos ⟨hall ▸ hpos, hall⟩]
    rfl
  · rw [if_neg hall, if_neg fun h => hall h.2]
    rfl

/-- A payout that does not panic takes parts of the provider's withdrawals. -/
lemma updateProviderCollateralForPayout_parts {addr : AccAddress} {purchased payout : Int}
    (hq : QueueFiled b.withdrawQueue) (hpos : ∀ w ∈ b.withdrawQueue.entries, 0 < w.amount)
    (h : b.updateProviderCollateralForPayout addr purchased payout = .ok b')
    (hT : T.values.Perm b.withdrawQueue.entries) :
    QueueFiled b'.withdrawQueue ∧ ∃ T' parts, TakesParts b b' addr T T' parts ∧
      T'.values.Perm b'.withdrawQueue.entries := by
  simp only [CollateralBook.updateProviderCollateralForPayout, run_eq_ok, not_not] at h
  obtain ⟨p, hp, hunpaid, rfl⟩ := h
  have haddr : p.address = addr := key_of_get hp
  have huncovered := splitPayout_uncovered_nonneg (p.collateral - p.withdrawing) purchased payout
  have hx : 0 ≤ payout -
      (CollateralBook.splitPayout (p.collateral - p.withdrawing) purchased payout).1 := by
    by_contra hneg
    rw [payoutLoop_of_nonpos _ _ (not_le.mp hneg).le] at hunpaid
    exact hneg hunpaid.ge
  generalize (splitPayout (p.collateral - p.withdrawing) purchased payout).2 = uncovered at *
  generalize payout - (splitPayout (p.collateral - p.withdrawing) purchased payout).1 = x at *
  let ws := (b.getWithdrawsByProvider addr).reverse
  let xs := windowParts uncovered x (ws.map Withdraw.amount)
  obtain ⟨others, hkept⟩ : ∃ others, b.withdrawQueue.entries.Perm (ws ++ others) :=
    ⟨_, (filter_append_perm (fun w => decide (w.address = addr)) _).symm.trans
      ((reverse_perm _).symm.append_right _)⟩
  have hown : ∀ w ∈ ws, w.address = addr := by
    intro w hw
    simpa using (List.mem_filter.mp (mem_reverse.mp hw)).2
  have hpositive : ∀ w ∈ ws ++ others, 0 < w.amount := fun w hw => hpos w (hkept.mem_iff.mpr hw)
  obtain ⟨hfiled, hleft, hcut, -⟩ := payoutLoop_spec ws uncovered x _ others hq hkept hown
    huncovered hx
  have hlength : ws.length = xs.length := by rw [length_windowParts, length_map]
  have hbounds : ∀ cut ∈ ws.zip xs, 0 ≤ cut.2 ∧ cut.2 ≤ cut.1.amount := by
    intro cut hmem
    have hall := windowParts_bounds huncovered hx
      (forall_mem_map.mpr (fun w hw => (hpositive w (mem_append_left _ hw)).le))
    rw [zip_map_left] at hall
    exact hall (cut.1.amount, cut.2) (mem_map.mpr ⟨cut, hmem, rfl⟩)
  -- The other withdrawals lose nothing.
  let edits := ws.zip xs ++ others.map (fun w => (w, (0 : Int)))
  have hfst : edits.map Prod.fst = ws ++ others := by
    simp [edits, map_fst_zip hlength.le, Function.comp_def]
  have hafter : edits.filterMap (fun e => afterPart e.1 e.2) =
      cutWithdraws uncovered x ws ++ others := by
    rw [filterMap_afterPart fun cut hcut =>
      hpositive cut.1 (hfst ▸ mem_map.mpr ⟨cut, hcut, rfl⟩), flatMap_append, flatMap_map]
    have hothers : others.flatMap (fun w => afterCut (w, 0)) = others :=
      (flatMap_congr fun w _ => remainder_zero reduced_zero w).trans (flatMap_singleton' others)
    rw [hothers]
    rfl
  obtain ⟨T', parts, hedited, hparts, hvalues⟩ :=
    exists_edited afterPart (hT.trans (hfst ▸ hkept))
  refine ⟨hfiled, T', parts, ⟨hedited, ?_, ?_⟩, hvalues.trans (hafter ▸ hcut.symm)⟩
  · intro part hpart
    have hedit : (part.1.2, part.2) ∈ edits := hparts ▸ mem_map.mpr ⟨part, hpart, rfl⟩
    rcases mem_append.mp hedit with hcut | hother
    · exact ⟨(hbounds _ hcut).1, (hbounds _ hcut).2, fun _ => hown _ (of_mem_zip hcut).1⟩
    · obtain ⟨w, hw, heq⟩ := mem_map.mp hother
      obtain ⟨hw', hzero⟩ := Prod.mk.inj heq
      rw [← hw', ← hzero]
      exact ⟨le_rfl, (hpositive w (mem_append_right _ hw)).le, fun h => absurd rfl h⟩
  · have hsnd : parts.map Prod.snd = xs ++ others.map fun _ => 0 := by
      have hsame := congrArg (map Prod.snd) hparts
      rw [List.map_map] at hsame
      refine hsame.trans ?_
      simp [edits, map_snd_zip hlength.ge, Function.comp_def]
    have hset := valueAt_set b.providers { p with
      collateral := p.collateral - payout, withdrawing := p.withdrawing - x }
      Provider.withdrawing addr
    rw [if_pos haddr.symm] at hset
    rw [hsnd, sum_append, valueAt_of_get hp]
    refine Eq.trans ?_ (congrArg (p.withdrawing - ·) hset.symm)
    have htaken : x - xs.sum = 0 := hleft.symm.trans hunpaid
    have hnone : (others.map fun _ => (0 : Int)).sum = 0 := by simp
    dsimp only
    omega

/-- Every change of the book is a change of the open withdrawals. -/
lemma BookMove.tickets (h : BookMove params ctx rules b b') (hq : QueueFiled b.withdrawQueue)
    (hpos : ∀ w ∈ b.withdrawQueue.entries, 0 < w.amount)
    (hT : T.values.Perm b.withdrawQueue.entries) :
    QueueFiled b'.withdrawQueue ∧ ∃ T', WithdrawMoves params ctx rules (b, T) (b', T') ∧
      T'.values.Perm b'.withdrawQueue.entries := by
  cases h with
  | keep hsame => exact ⟨hsame ▸ hq, T, .single (.keep hsame), hsame ▸ hT⟩
  | @withdraw addr amount _ hnonneg hwithdraw =>
    by_cases hzero : amount = 0
    · subst hzero
      obtain rfl : b = b' := Except.ok.inj hwithdraw
      exact ⟨hq, T, .refl, hT⟩
    · have hmove : WithdrawMove params ctx rules (b, T) (b', _) := .withdraw (by omega) hwithdraw
      rcases withdrawCollateral_cases hwithdraw with ⟨hnone, -⟩ | ⟨p, -, -, rfl⟩
      · exact absurd hnone hzero
      · exact ⟨TimeQueue.Filed.insert hq rfl, _, .single hmove,
          (hT.cons _).trans (TimeQueue.entries_insert_perm _ _ _).symm⟩
  | @delay provider amount t _ hallowed hdelay =>
    obtain ⟨delayed, left, others, queue, hb', hfiled, -, hbefore, hafter, hmoved, -, -⟩ :=
      delayWithdraws_spec hq hdelay
    let edits := delayed.map (fun w => (w, true)) ++ (left ++ others).map (fun w => (w, false))
    have hfst : edits.map Prod.fst = delayed ++ (left ++ others) := by
      simp [edits, Function.comp_def]
    have hsome : edits.filterMap (fun e => afterDelay t e.1 e.2) =
        delayed.map (fun w => { w with completionTime := t }) ++ (left ++ others) := by
      simp [edits, afterDelay, filterMap_append, filterMap_map]
    obtain ⟨T', delays, hedited, hdelays, hvalues⟩ :=
      exists_edited (afterDelay t) (hT.trans (hfst ▸ hbefore))
    have hlater : ∀ delay ∈ delays, delay.2 = true → delay.1.2.completionTime ≤ t := by
      intro delay hmem hreached
      have hedit : (delay.1.2, delay.2) ∈ edits := hdelays ▸ mem_map.mpr ⟨delay, hmem, rfl⟩
      rw [hreached] at hedit
      exact (hmoved _ (by simpa [edits] using hedit)).2
    subst hb'
    exact ⟨hfiled, T', .single (.delay hallowed hdelay hedited hlater),
      hvalues.trans (hsome ▸ hafter.symm)⟩
  | payout hpays hpayout =>
    obtain ⟨hfiled, T', parts, hparts, hvalues⟩ :=
      updateProviderCollateralForPayout_parts hq hpos hpayout hT
    exact ⟨hfiled, T', .single (.payout hpays hpayout hparts), hvalues⟩

section Moves

variable {x y z : CollateralBook × Tickets Withdraw} {i : Nat} {w : Withdraw}

lemma WithdrawMove.sound (h : WithdrawMove params ctx rules x y) (hx : x.2.Sound) : y.2.Sound := by
  cases h with
  | keep => exact hx
  | withdraw => exact hx.opened _
  | delay _ _ hedited => exact hx.edited hedited
  | payout _ _ hparts => exact hx.edited hparts.edited

lemma WithdrawMove.next_le (h : WithdrawMove params ctx rules x y) : x.2.next ≤ y.2.next := by
  cases h with
  | keep => exact le_rfl
  | withdraw => exact Nat.le_succ _
  | delay _ _ hedited => exact hedited.next.ge
  | payout _ _ hparts => exact hparts.edited.next.ge

lemma WithdrawMove.gone (h : WithdrawMove params ctx rules x y) (hi : i < x.2.next)
    (hgone : i ∉ x.2.numbers) : i ∉ y.2.numbers := by
  cases h with
  | keep => exact hgone
  | withdraw => exact (gone_opened _ hi hgone).2
  | delay _ _ hedited => exact (hedited.gone hi hgone).2
  | payout _ _ hparts => exact (hparts.edited.gone hi hgone).2

lemma WithdrawMove.pos (h : WithdrawMove params ctx rules x y)
    (hpos : ∀ w ∈ x.2.values, 0 < w.amount) : ∀ w ∈ y.2.values, 0 < w.amount := by
  cases h with
  | keep => exact hpos
  | withdraw hamount => exact forall_mem_cons.mpr ⟨hamount, hpos⟩
  | delay _ _ hedited =>
    refine hedited.forall_values hpos ?_
    rintro ⟨⟨j, w⟩, delayed⟩ - hw w' hleft
    cases hleft
    cases delayed <;> exact hw
  | payout _ _ hparts =>
    refine hparts.edited.forall_values hpos ?_
    rintro part hpart - w' hleft
    have hbounds := hparts.bounds part hpart
    unfold afterPart at hleft
    split at hleft
    · cases hleft
    · cases hleft
      exact sub_pos.mpr (by omega)

/-- What one change does to an open withdrawal. -/
lemma WithdrawMove.ticket (h : WithdrawMove params ctx rules x y) (hx : x.2.Sound)
    (hi : (i, w) ∈ x.2.items) :
    (∃ w', (i, w') ∈ y.2.items ∧ ReflTransGen (WithdrawChanged rules) w w') ∨
      UsedUpBy params ctx rules i w x y ∧ i ∉ y.2.numbers := by
  cases h with
  | keep => exact .inl ⟨w, hi, .refl⟩
  | withdraw => exact .inl ⟨w, mem_cons_of_mem _ hi, .refl⟩
  | delay hallowed _ hedited hlater =>
    obtain ⟨delayed, hmem, hleft, -⟩ := hedited.ticket hx hi
    cases delayed with
    | false => exact .inl ⟨w, hleft w rfl, .refl⟩
    | true => exact .inl ⟨_, hleft _ rfl, .single (.inl ⟨_, hallowed, hlater _ hmem rfl, rfl⟩)⟩
  | @payout b b' T T' addr purchased amount parts hpays hpayout hparts =>
    obtain ⟨part, hmem, hleft, hgone⟩ := hparts.edited.ticket hx hi
    obtain ⟨hnonneg, hle, -⟩ := hparts.bounds _ hmem
    dsimp only at hnonneg hle
    by_cases hall : w.amount = part
    · subst hall
      exact .inr ⟨⟨hpays, b, b', T, T', addr, purchased, amount, parts, .refl, hpayout, hparts,
        .refl, w, .refl, hmem⟩, hgone (if_pos rfl)⟩
    · refine .inl ⟨reduced w part, hleft _ (if_neg hall), ?_⟩
      rcases hnonneg.eq_or_lt with hzero | hpart
      · rw [← hzero, reduced_zero]
      · exact .single (.inr ⟨hpays, part, hpart, by omega, rfl⟩)

lemma WithdrawMoves.sound (h : WithdrawMoves params ctx rules x y) (hx : x.2.Sound) : y.2.Sound :=
  reflTransGen_invariant (P := fun x : CollateralBook × Tickets Withdraw => x.2.Sound)
    (fun _ _ hs hmove => hmove.sound hs) h hx

lemma WithdrawMoves.pos (h : WithdrawMoves params ctx rules x y)
    (hpos : ∀ w ∈ x.2.values, 0 < w.amount) : ∀ w ∈ y.2.values, 0 < w.amount :=
  reflTransGen_invariant (P := fun x : CollateralBook × Tickets Withdraw =>
    ∀ w ∈ x.2.values, 0 < w.amount) (fun _ _ hpos hmove => hmove.pos hpos) h hpos

lemma WithdrawMoves.gone (h : WithdrawMoves params ctx rules x y) (hi : i < x.2.next)
    (hgone : i ∉ x.2.numbers) : i < y.2.next ∧ i ∉ y.2.numbers :=
  reflTransGen_invariant (P := fun x : CollateralBook × Tickets Withdraw =>
    i < x.2.next ∧ i ∉ x.2.numbers)
    (fun _ _ hx hmove => ⟨hx.1.trans_le hmove.next_le, hmove.gone hx.1 hx.2⟩) h ⟨hi, hgone⟩

/-- What the changes of an event do to an open withdrawal. -/
lemma WithdrawMoves.ticket (h : WithdrawMoves params ctx rules x y) (hx : x.2.Sound)
    (hi : (i, w) ∈ x.2.items) : i < y.2.next ∧
    ((∃ w', (i, w') ∈ y.2.items ∧ ReflTransGen (WithdrawChanged rules) w w') ∨
      UsedUpBy params ctx rules i w x y ∧ i ∉ y.2.numbers) := by
  induction h with
  | refl => exact ⟨hx.below i (mem_numbers hi), .inl ⟨w, hi, .refl⟩⟩
  | @tail y z hmoves hmove ih =>
    obtain ⟨hbelow, ⟨w', hi', hchanged⟩ | ⟨hused, hgone⟩⟩ := ih
    · refine ⟨hbelow.trans_le hmove.next_le, ?_⟩
      rcases hmove.ticket (WithdrawMoves.sound hmoves hx) hi' with
        ⟨w'', hi'', hchanged'⟩ | ⟨hused, hgone⟩
      · exact .inl ⟨w'', hi'', hchanged.trans hchanged'⟩
      · obtain ⟨hpays, b₁, b₂, T₁, T₂, addr, purchased, payout, parts, hbefore, hpayout, hparts,
          hafter, w₁, hchanged₁, hpart⟩ := hused
        exact .inr ⟨⟨hpays, b₁, b₂, T₁, T₂, addr, purchased, payout, parts, hmoves.trans hbefore,
          hpayout, hparts, hafter, w₁, hchanged.trans hchanged₁, hpart⟩, hgone⟩
    · obtain ⟨hpays, b₁, b₂, T₁, T₂, addr, purchased, payout, parts, hbefore, hpayout, hparts,
        hafter, hw₁⟩ := hused
      exact ⟨hbelow.trans_le hmove.next_le, .inr ⟨⟨hpays, b₁, b₂, T₁, T₂, addr, purchased, payout,
        parts, hbefore, hpayout, hparts, hafter.tail hmove, hw₁⟩, hmove.gone hbelow hgone⟩⟩

end Moves

lemma BookMoves.tickets (h : BookMoves params ctx rules b b') (hq : QueueFiled b.withdrawQueue)
    (hpos : ∀ w ∈ T.values, 0 < w.amount) (hT : T.values.Perm b.withdrawQueue.entries) :
    QueueFiled b'.withdrawQueue ∧ ∃ T', WithdrawMoves params ctx rules (b, T) (b', T') ∧
      T'.values.Perm b'.withdrawQueue.entries := by
  induction h with
  | refl => exact ⟨hq, T, .refl, hT⟩
  | tail _ hmove ih =>
    obtain ⟨hq₁, T₁, hmoves₁, hT₁⟩ := ih
    obtain ⟨hq₂, T₂, hmoves₂, hT₂⟩ := hmove.tickets hq₁
      (fun w hw => WithdrawMoves.pos hmoves₁ hpos w (hT₁.mem_iff.mpr hw)) hT₁
    exact ⟨hq₂, T₂, hmoves₁.trans hmoves₂, hT₂⟩

/-- Completed withdrawals are taken from what their providers have, each at its own provider. -/
lemma completeWithdraws_valueAt {ws : List Withdraw}
    (h : ws.foldlM CollateralBook.completeWithdraw b = .ok b') {f : Provider → Int}
    (hf : ∀ (p : Provider) (x : Int), f { p with
      collateral := p.collateral - x, withdrawing := p.withdrawing - x } = f p - x)
    (a : AccAddress) :
    b'.providers.valueAt f a = b.providers.valueAt f a - queuedBy a ws := by
  induction ws generalizing b with
  | nil =>
    cases h
    exact (sub_zero _).symm
  | cons w ws ih =>
    obtain ⟨b1, hcomplete, hrest⟩ := foldlM_cons_eq_ok.mp h
    obtain ⟨p, hp, rfl⟩ := completeWithdraw_cases hcomplete
    have haddr : p.address = w.address := key_of_get hp
    have hset : (b.providers.set { p with
        collateral := p.collateral - w.amount
        withdrawing := p.withdrawing - w.amount }).valueAt f a =
        b.providers.valueAt f a - if w.address = a then w.amount else 0 := by
      rw [valueAt_set, hf]
      rw [haddr]
      split_ifs with h1 h2 h2
      · rw [h1, valueAt_of_get hp]
      · exact absurd h1.symm h2
      · exact absurd h2.symm h1
      · rw [sub_zero]
    rw [ih hrest, hset, queuedBy, queuedBy, amountWhere_cons]
    simp only [decide_eq_true_eq]
    omega

/-- The end blocker releases the withdrawals whose completion time has come and no others, and
takes their amounts from their providers. -/
lemma endBlocker_releases {k : Keepers σ} {s s' : ShieldState σ}
    (h : endBlocker k ctx s = .ok s') (hq : QueueFiled s.collateral.withdrawQueue) :
    QueueFiled s'.collateral.withdrawQueue ∧
      s'.collateral.withdrawQueue.entries.Perm
        (s.collateral.withdrawQueue.entries.filter
          (fun w => !decide (w.completionTime ≤ ctx.blockTime))) ∧
      ∀ a, s'.collateral.providers.valueAt Provider.collateral a =
          s.collateral.providers.valueAt Provider.collateral a -
            queuedByUntil a ctx.blockTime s.collateral.withdrawQueue.entries ∧
        s'.collateral.providers.valueAt Provider.withdrawing a =
          s.collateral.providers.valueAt Provider.withdrawing a -
            queuedByUntil a ctx.blockTime s.collateral.withdrawQueue.entries := by
  obtain ⟨s1, b1, hsells, hrewards, hdequeue, -, -⟩ := endBlocker_cases h
  have hqueue1 : b1.withdrawQueue = s.collateral.withdrawQueue := by
    rw [hrewards.queue, hsells.collateral]
  have hdue := hq.dueBy_eq ctx.blockTime
  unfold CollateralBook.dequeueCompletedWithdrawQueue at hdequeue
  rw [hqueue1] at hdequeue
  have hqueue : s'.collateral.withdrawQueue =
      s.collateral.withdrawQueue.dropUpTo ctx.blockTime := by
    refine foldlM_invariant (P := fun b : CollateralBook => b.withdrawQueue =
      s.collateral.withdrawQueue.dropUpTo ctx.blockTime) ?_ rfl hdequeue
    intro w _ b2 b3 hb2 hcomplete
    obtain ⟨p, -, rfl⟩ := completeWithdraw_cases hcomplete
    exact hb2
  have hreleased : ∀ a, queuedBy a (s.collateral.withdrawQueue.dueBy ctx.blockTime) =
      queuedByUntil a ctx.blockTime s.collateral.withdrawQueue.entries := by
    intro a
    rw [hdue]
    exact amountWhere_filter (fun b _ => b = a) (fun _ t => t ≤ ctx.blockTime) _
  rw [hqueue]
  refine ⟨hq.dropUpTo _, ?_, ?_⟩
  · have hsplit := (TimeQueue.entries_perm_dueBy s.collateral.withdrawQueue ctx.blockTime).filter
      (fun w => !decide (w.completionTime ≤ ctx.blockTime))
    have hnone : (s.collateral.withdrawQueue.dueBy ctx.blockTime).filter
        (fun w => !decide (w.completionTime ≤ ctx.blockTime)) = [] := by
      rw [hdue, filter_filter]
      apply filter_eq_nil_iff.mpr
      intro w _
      simp
    have hall : (s.collateral.withdrawQueue.dropUpTo ctx.blockTime).entries.filter
        (fun w => !decide (w.completionTime ≤ ctx.blockTime)) =
          (s.collateral.withdrawQueue.dropUpTo ctx.blockTime).entries := by
      apply filter_eq_self.mpr
      intro w hw
      have hlater : ctx.blockTime < w.completionTime := hq.lt_due_of_mem_dropUpTo hw
      simpa using hlater
    rw [filter_append, hnone, hall, nil_append] at hsplit
    exact hsplit.symm
  · intro a
    have hcollateral := hrewards.collateral a
    have hwithdrawing := hrewards.withdrawing a
    rw [hsells.collateral] at hcollateral hwithdrawing
    constructor
    · rw [completeWithdraws_valueAt hdequeue (fun _ _ => rfl), hreleased]
      exact congrArg (· - _) hcollateral
    · rw [completeWithdraws_valueAt hdequeue (fun _ _ => rfl), hreleased]
      exact congrArg (· - _) hwithdrawing

end Tickets

end Shentu
