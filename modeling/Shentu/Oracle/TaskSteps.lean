import Shentu.Oracle.Tasks

/-!
What the messages about tasks and the end blocker can do. An aggregation closes a pending
task and keeps all that its responses say; a distribution of a bounty adds to the rewards of
operators and changes nothing else of them.
-/

namespace Shentu.Oracle

open Lib List Table

variable {σ : Type}

section Errors

variable {α : Type} {x : Except Fault α}

lemma unlessError_eq_some {a : α} : unlessError x = .ok (some a) ↔ x = .ok a := by
  rcases x with (e | _ | _) | a' <;> simp [unlessError]

lemma unlessError_eq_none : unlessError x = .ok none ↔ ∃ e, x = .error (.error e) := by
  rcases x with (e | _ | _) | a' <;> simp [unlessError]

lemma unlessError_eq_error {f : Fault} :
    unlessError x = .error f ↔ x = .error f ∧ ∀ e, f ≠ .error e := by
  rcases x with (e | _ | _) | a' <;> simp [unlessError]
  · rintro rfl
    simp
  all_goals
    rintro rfl
    simp

lemma quo_eq_ok {a b r : Int} : quo a b = .ok r ↔ b ≠ 0 ∧ a.tdiv b = r := by
  unfold quo
  split <;> simp_all

end Errors

/-- All of an operator but its rewards. -/
def Operator.withoutRewards (o : Operator) : Operator := { o with accumulatedRewards := [] }

/-- All rewards of operators in a denomination. -/
def rewardsOf (s : State σ) (d : Denom) : Int :=
  s.operators.total (fun o => o.accumulatedRewards.sumOf d)

/-- Nothing but rewards of operators differs. -/
structure RewardsOnly (s s' : State σ) : Prop where
  operators : ∀ a, (s'.operators.get a).map Operator.withoutRewards =
    (s.operators.get a).map Operator.withoutRewards
  rest : s' = { s with operators := s'.operators }

namespace RewardsOnly

variable {s s' s₁ s₂ s₃ : State σ}

lemma refl (s : State σ) : RewardsOnly s s := ⟨fun _ => rfl, rfl⟩

lemma trans (h : RewardsOnly s₁ s₂) (h' : RewardsOnly s₂ s₃) : RewardsOnly s₁ s₃ := by
  refine ⟨fun a => (h'.operators a).trans (h.operators a), ?_⟩
  rw [h'.rest, h.rest]

lemma withdraws (h : RewardsOnly s s') : s'.withdraws = s.withdraws := by
  rw [h.rest]

lemma world (h : RewardsOnly s s') : s'.world = s.world := by
  rw [h.rest]

lemma height (h : RewardsOnly s s') : s'.height = s.height := by
  rw [h.rest]

lemma getCollateralAmount (h : RewardsOnly s s') (a : Address) :
    s'.getCollateralAmount a = s.getCollateralAmount a := by
  have ho := h.operators a
  cases hget : s.operators.get a with
  | none =>
    have hget' : s'.operators.get a = none := by simpa [hget] using ho
    rw [State.getCollateralAmount, State.getCollateralAmount, hget, hget']
  | some o =>
    rw [hget] at ho
    obtain ⟨o', hget', heq⟩ := Option.map_eq_some_iff.mp ho
    have hcollateral : o'.collateral = o.collateral := by
      simpa [Operator.withoutRewards] using congrArg Operator.collateral heq
    rw [State.getCollateralAmount, State.getCollateralAmount, hget, hget']
    change (orFail o'.collateral.head? _ >>= _) = (orFail o.collateral.head? _ >>= _)
    rw [hcollateral]

end RewardsOnly

lemma addReward_cases {s s' : State σ} {a : Address} {coins : Coins}
    (h : s.addReward a coins = .ok s') :
    RewardsOnly s s' ∧ ∀ d, rewardsOf s' d = rewardsOf s d + coins.sumOf d := by
  simp only [State.addReward, run_eq_ok] at h
  obtain ⟨o, hget, rfl⟩ := h
  have haddress : o.address = a := key_of_get hget
  subst haddress
  refine ⟨⟨?_, rfl⟩, ?_⟩
  · intro a
    rw [get_set]
    split
    · rename_i ha
      rw [ha, hget]
      rfl
    · rfl
  · intro d
    rw [rewardsOf, total_set, valueAt_of_get hget]
    have hsum := Coins.sumOf_add o.accumulatedRewards coins d
    simp only [rewardsOf]
    omega

section Weights

variable {sc : Scoring} {s s' : State σ} {rs rs' : List Response}

/-- The weight of a response in the division of a bounty. -/
def weightOf (sc : Scoring) (s : State σ) (response : Response) : Except Fault Int := do
  if sc.counts response then
    match ← unlessError (s.getCollateralAmount response.operator) with
    | none => return 0
    | some collateral => sc.weight response collateral
  else return 0

lemma addValidCollateral_eq (sc : Scoring) (s : State σ) (total : Int) (r : Response) :
    addValidCollateral sc s total r = (weightOf sc s r >>= fun w => pure (total + w)) := by
  unfold addValidCollateral weightOf
  cases sc.counts r with
  | false => simp [pure, Except.pure, bind, Except.bind]
  | true =>
    cases unlessError (s.getCollateralAmount r.operator) with
    | error f => rfl
    | ok o =>
      cases o with
      | none => simp [pure, Except.pure, bind, Except.bind]
      | some collateral => rfl

/-- The weights of a list of responses. -/
def Weights (sc : Scoring) (s : State σ) (rs : List Response) (ws : List Int) : Prop :=
  List.Forall₂ (fun r w => weightOf sc s r = .ok w) rs ws

private lemma addValidCollateral_fold {total0 total : Int}
    (h : rs.foldlM (addValidCollateral sc s) total0 = .ok total) :
    ∃ ws, Weights sc s rs ws ∧ total = total0 + ws.sum := by
  induction rs generalizing total0 with
  | nil =>
    rw [foldlM_nil, pure_eq_ok] at h
    exact ⟨[], List.Forall₂.nil, by simp [h]⟩
  | cons r rs ih =>
    obtain ⟨total1, hfirst, hrest⟩ := foldlM_cons_eq_ok.mp h
    rw [addValidCollateral_eq] at hfirst
    simp only [run_eq_ok] at hfirst
    obtain ⟨w, hw, rfl⟩ := hfirst
    obtain ⟨ws, hws, rfl⟩ := ih hrest
    refine ⟨w :: ws, List.Forall₂.cons hw hws, ?_⟩
    rw [sum_cons, add_assoc]

lemma totalValidTaskCollateral_eq {task : Task} {total : Int}
    (h : totalValidTaskCollateral sc s task = .ok total) :
    ∃ ws, Weights sc s task.responses ws ∧ total = ws.sum := by
  obtain ⟨ws, hws, htotal⟩ := addValidCollateral_fold h
  exact ⟨ws, hws, by simpa using htotal⟩

/-- A response as it was, up to the weight and reward that are noted in it. -/
def SameResponse (r r' : Response) : Prop := r'.operator = r.operator ∧ r'.score = r.score

abbrev SameResponses := List.Forall₂ SameResponse

lemma SameResponses.refl (rs : List Response) : SameResponses rs rs :=
  forall₂_same.mpr (fun _ _ => ⟨rfl, rfl⟩)

lemma SameResponses.trans {rs1 rs2 rs3 : List Response} (h : SameResponses rs1 rs2)
    (h' : SameResponses rs2 rs3) : SameResponses rs1 rs3 := by
  induction h generalizing rs3 with
  | nil => exact h'
  | cons hr _ ih =>
    cases h' with
    | cons hr' hrs' => exact List.Forall₂.cons ⟨hr'.1.trans hr.1, hr'.2.trans hr.2⟩ (ih hrs')

lemma SameResponses.mem (h : SameResponses rs rs') {r' : Response} (hr' : r' ∈ rs') :
    ∃ r ∈ rs, SameResponse r r' := by
  induction h with
  | nil => cases hr'
  | @cons r _ rs _ hr _ ih =>
    rcases mem_cons.mp hr' with rfl | hr'
    · exact ⟨r, mem_cons_self, hr⟩
    · obtain ⟨r1, hr1, hsame⟩ := ih hr'
      exact ⟨r1, mem_cons_of_mem r hr1, hsame⟩

/-- A scoring reads the score of a response only. -/
structure ReadsScore (sc : Scoring) : Prop where
  counts : ∀ {r r'}, SameResponse r r' → sc.counts r' = sc.counts r
  weight : ∀ {r r'}, SameResponse r r' → sc.weight r' = sc.weight r

lemma readsScore_scoring (p : TaskParams) (task : Task) : ReadsScore (scoring p task) := by
  unfold scoring
  split
  · exact ⟨fun h => by simp [h.2], fun _ => rfl⟩
  · split
    · exact ⟨fun h => by simp [h.2], fun h => by simp [h.2]⟩
    · exact ⟨fun h => by simp [h.2], fun h => by simp [h.2]⟩

lemma weightOf_congr (hsc : ReadsScore sc) (hs : RewardsOnly s s') {r r' : Response}
    (hr : SameResponse r r') : weightOf sc s' r' = weightOf sc s r := by
  rw [weightOf, weightOf, hsc.counts hr, hsc.weight hr, hr.1, hs.getCollateralAmount]

lemma Weights.congr (hsc : ReadsScore sc) (hs : RewardsOnly s s')
    (hrs : SameResponses rs rs') {ws : List Int} (h : Weights sc s rs ws) :
    Weights sc s' rs' ws := by
  induction hrs generalizing ws with
  | nil =>
    cases h
    exact List.Forall₂.nil
  | cons hr hrs ih =>
    cases h with
    | cons hw hws => exact List.Forall₂.cons ((weightOf_congr hsc hs hr).trans hw) (ih hws)

end Weights

section Payment

variable {sc : Scoring} {s s' : State σ} {total : Int} {bounty : Coin} {rs rs' : List Response}

lemma sumOf_ofAmount (d d' : Denom) (a : Int) :
    (Coins.ofAmount d a).sumOf d' = if d = d' then a else 0 := by
  unfold Coins.ofAmount Coins.sumOf
  split
  · rename_i ha
    simp [ha]
  · simp

/-- The share of a weight in a coin of the bounty. -/
def shareOf (bounty : Coin) (total weight : Int) : Int := (bounty.amount * weight).tdiv total

/-- What one payment does: a share goes to the rewards. -/
structure Paid (sc : Scoring) (bounty : Coin) (s s' : State σ) (amount : Int) : Prop where
  rewardsOnly : RewardsOnly s s'
  rewards : ∀ d, rewardsOf s' d = rewardsOf s d + if sc.denom bounty = d then amount else 0

lemma Paid.none (sc : Scoring) (bounty : Coin) (s : State σ) : Paid sc bounty s s 0 :=
  ⟨RewardsOnly.refl s, fun d => by simp⟩

lemma Paid.trans {s₁ s₂ s₃ : State σ} {a b : Int} (h : Paid sc bounty s₁ s₂ a)
    (h' : Paid sc bounty s₂ s₃ b) : Paid sc bounty s₁ s₃ (a + b) := by
  refine ⟨h.rewardsOnly.trans h'.rewardsOnly, ?_⟩
  intro d
  rw [h'.rewards, h.rewards]
  split <;> omega

lemma payResponse_cases {r r' : Response} {w : Int} (hw : weightOf sc s r = .ok w)
    (h : payResponse sc total bounty s r = .ok (s', r')) :
    Paid sc bounty s s' (shareOf bounty total w) ∧ SameResponse r r' := by
  unfold payResponse at h
  unfold weightOf at hw
  have hnone : shareOf bounty total 0 = 0 := by simp [shareOf]
  cases hcounts : sc.counts r with
  | false =>
    simp only [hcounts, Bool.false_eq_true, if_false, pure_eq_ok] at h hw
    obtain ⟨rfl, rfl⟩ := Prod.mk.inj h
    rw [← hw, hnone]
    exact ⟨Paid.none sc bounty s, rfl, rfl⟩
  | true =>
    simp only [hcounts, if_true, bind_eq_ok] at h hw
    obtain ⟨o, hget, h⟩ := h
    obtain ⟨o', hget', hw⟩ := hw
    rw [hget] at hget'
    obtain rfl := Except.ok.inj hget'
    cases o with
    | none =>
      simp only [pure_eq_ok] at h hw
      obtain ⟨rfl, rfl⟩ := Prod.mk.inj h
      rw [← hw, hnone]
      exact ⟨Paid.none sc bounty s, rfl, rfl⟩
    | some collateral =>
      simp only [run_eq_ok, quo_eq_ok] at h hw
      obtain ⟨w', hw', amount, ⟨-, hamount⟩, -, o', hreward, h⟩ := h
      rw [hw] at hw'
      obtain rfl := Except.ok.inj hw'
      obtain rfl : shareOf bounty total w = amount := hamount
      cases o' with
      | none =>
        -- An operator that has a collateral is found.
        obtain ⟨e, herror⟩ := unlessError_eq_none.mp hreward
        have hoperator := unlessError_eq_some.mp hget
        simp only [State.getCollateralAmount, run_eq_ok] at hoperator
        obtain ⟨operator, hoperator, -⟩ := hoperator
        simp [State.addReward, hoperator, orFail, bind, Except.bind, pure, Except.pure] at herror
      | some s₁ =>
        simp only [pure_eq_ok] at h
        obtain ⟨rfl, rfl⟩ := Prod.mk.inj h
        obtain ⟨honly, hrewards⟩ := addReward_cases (unlessError_eq_some.mp hreward)
        refine ⟨⟨honly, ?_⟩, rfl, rfl⟩
        intro d
        rw [hrewards, sumOf_ofAmount]

lemma payResponses_cases {ws : List Int} (hsc : ReadsScore sc)
    (hws : Weights sc s rs ws) (h : payResponses sc total bounty s rs = .ok (s', rs')) :
    Paid sc bounty s s' (ws.map (shareOf bounty total)).sum ∧
      SameResponses rs rs' := by
  induction rs generalizing s rs' ws with
  | nil =>
    cases hws
    cases h
    exact ⟨Paid.none sc bounty _, List.Forall₂.nil⟩
  | cons r rs ih =>
    cases hws with
    | cons hw hws =>
      simp only [payResponses, run_eq_ok, Prod.exists] at h
      obtain ⟨s₁, r1, hfirst, s₂, rs1, hrest, h⟩ := h
      obtain ⟨rfl, rfl⟩ := Prod.mk.inj h
      obtain ⟨hpaid, hr⟩ := payResponse_cases hw hfirst
      have hws1 := Weights.congr hsc hpaid.rewardsOnly (SameResponses.refl rs) hws
      obtain ⟨hpaid', hrs⟩ := ih hws1 hrest
      exact ⟨hpaid.trans hpaid', List.Forall₂.cons hr hrs⟩

lemma payBounty_cases {bounties : Coins} {ws : List Int}
    (hsc : ReadsScore sc) (hws : Weights sc s rs ws)
    (h : bounties.foldlM (payBounty sc total) (s, rs) = .ok (s', rs')) :
    RewardsOnly s s' ∧ SameResponses rs rs' ∧
      ∀ d, rewardsOf s' d = rewardsOf s d + (bounties.map (fun b =>
        if sc.denom b = d then (ws.map (shareOf b total)).sum else 0)).sum := by
  induction bounties generalizing s rs with
  | nil =>
    cases h
    exact ⟨RewardsOnly.refl _, SameResponses.refl _, fun d => by simp⟩
  | cons b bounties ih =>
    obtain ⟨⟨s₁, rs1⟩, hfirst, hrest⟩ := foldlM_cons_eq_ok.mp h
    obtain ⟨hpaid, hrs⟩ := payResponses_cases hsc hws hfirst
    obtain ⟨honly, hrs', hrewards⟩ := ih (hws.congr hsc hpaid.rewardsOnly hrs) hrest
    refine ⟨hpaid.rewardsOnly.trans honly, SameResponses.trans hrs hrs', ?_⟩
    intro d
    rw [hrewards, hpaid.rewards, map_cons, sum_cons, add_assoc]

end Payment

/-- A task after its aggregation: only what the aggregation writes differs. -/
structure Closed (t t' : Task) : Prop where
  same : t' = { t with responses := t'.responses, result := t'.result, status := t'.status }
  status : t'.status ≠ .pending
  responses : SameResponses t.responses t'.responses

namespace Closed

variable {t t' : Task}

lemma storeKey (h : Closed t t') : t'.storeKey = t.storeKey := by
  rw [h.same]
  rfl

lemma bounty (h : Closed t t') : t'.bounty = t.bounty := by
  rw [h.same]

lemma closingBlock (h : Closed t t') : t'.closingBlock = t.closingBlock := by
  rw [h.same]

lemma setResponses (h : Closed t t') {rs : List Response} (hrs : SameResponses t'.responses rs) :
    Closed t { t' with responses := rs } := by
  refine ⟨?_, h.status, h.responses.trans hrs⟩
  conv_lhs => rw [h.same]


end Closed

section Aggregate

variable {c c' : TaskState σ} {s : State σ}

variable {acc : Aggregation}

lemma countResponse_cases {acc' : Aggregation} {r : Response}
    (h : countResponse s acc r = .ok acc') :
    ∃ r', SameResponse r r' ∧ acc'.responses = acc.responses ++ [r'] := by
  simp only [countResponse, bind_eq_ok] at h
  obtain ⟨o, -, h⟩ := h
  cases o with
  | none =>
    obtain rfl := pure_eq_ok.mp h
    exact ⟨r, ⟨rfl, rfl⟩, rfl⟩
  | some amount =>
    obtain rfl := pure_eq_ok.mp h
    exact ⟨{ r with weight := amount }, ⟨rfl, rfl⟩, rfl⟩

lemma countResponse_fails {r : Response} {f : Fault}
    (h : countResponse s acc r = .error f) (e : Err) : f ≠ .error e := by
  simp only [countResponse, bind_eq_error] at h
  rcases h with h | ⟨o, -, h⟩
  · exact (unlessError_eq_error.mp h).2 e
  · cases o <;> cases h

lemma countResponse_fold {rs : List Response} {acc' : Aggregation}
    (h : rs.foldlM (countResponse s) acc = .ok acc') :
    ∃ rs', SameResponses rs rs' ∧ acc'.responses = acc.responses ++ rs' := by
  induction rs generalizing acc with
  | nil =>
    cases h
    exact ⟨[], List.Forall₂.nil, (append_nil _).symm⟩
  | cons r rs ih =>
    obtain ⟨acc1, hfirst, hrest⟩ := foldlM_cons_eq_ok.mp h
    obtain ⟨r', hr, heq⟩ := countResponse_cases hfirst
    obtain ⟨rs', hrs, heq'⟩ := ih hrest
    refine ⟨r' :: rs', List.Forall₂.cons hr hrs, ?_⟩
    rw [heq', heq, append_assoc, singleton_append]

variable {t : Task}

lemma close_closed (h : SameResponses t.responses acc.responses) : Closed t (acc.close t) := by
  unfold Aggregation.close
  split
  · split
    · refine ⟨rfl, by simp, h.trans ?_⟩
      refine forall₂_map_right_iff.mpr (forall₂_same.mpr ?_)
      intro r _
      split <;> exact ⟨rfl, rfl⟩
    · exact ⟨rfl, by simp, h⟩
  · exact ⟨rfl, by simp, h⟩

lemma aggregate_of_pending {contract function : List Byte}
    (hget : c.getTask contract function = some t) (hpending : t.status = .pending) :
    c.aggregate contract function =
      (t.responses.foldlM (countResponse c.toState) ⟨c.taskParams.aggregationResult, 0, 0, []⟩ >>=
        fun acc => .ok (c.setTask (acc.close t))) := by
  have hopen : failIf (t.status ≠ .pending) (Fault.error .taskClosed) = .ok () := by
    simp [hpending]
  rw [TaskState.aggregate, hget]
  change (failIf (t.status ≠ .pending) (Fault.error .taskClosed) >>= _) = _
  rw [hopen]
  rfl

lemma aggregate_no_error {contract function : List Byte}
    (hget : c.getTask contract function = some t) (hpending : t.status = .pending) :
    unlessError (c.aggregate contract function) ≠ .ok none := by
  intro haggregate
  obtain ⟨e, herror⟩ := unlessError_eq_none.mp haggregate
  rw [aggregate_of_pending hget hpending] at herror
  rcases bind_eq_error.mp herror with herror | ⟨_, -, herror⟩
  · obtain ⟨acc, r, -, -, hfail⟩ := foldlM_fails (P := fun _ => True)
      (fun _ _ _ _ _ _ => trivial) trivial herror
    exact countResponse_fails hfail e rfl
  · cases herror

lemma aggregate_cases {contract function : List Byte} (h : c.aggregate contract function = .ok c') :
    ∃ t t', c.getTask contract function = some t ∧ t.status = .pending ∧ Closed t t' ∧
      c' = c.setTask t' := by
  simp only [TaskState.aggregate, run_eq_ok, not_not] at h
  obtain ⟨t, hget, hpending, acc, hfold, rfl⟩ := h
  obtain ⟨rs, hrs, heq⟩ := countResponse_fold hfold
  refine ⟨t, acc.close t, hget, hpending, close_closed ?_, rfl⟩
  rw [heq]
  exact hrs

/-- What a distribution credits, denomination by denomination. -/
structure Credited (p : TaskParams) (s s' : State σ) (t : Task) : Prop where
  weights : ∃ ws, Weights (scoring p t) s t.responses ws ∧ ws.sum ≠ 0 ∧
    ∀ d, rewardsOf s' d = rewardsOf s d + (t.bounty.map (fun b =>
      if (scoring p t).denom b = d then (ws.map (shareOf b ws.sum)).sum else 0)).sum

lemma distributeBounty_cases (h : c.distributeBounty t = .ok c') :
    ∃ s rs, RewardsOnly c.toState s ∧ SameResponses t.responses rs ∧
      Credited c.taskParams c.toState s t ∧
      c' = { c with toState := s }.setTask { t with responses := rs } := by
  simp only [TaskState.distributeBounty, run_eq_ok, Prod.exists] at h
  obtain ⟨total, htotal, hne, s, rs, hpay, rfl⟩ := h
  obtain ⟨ws, hws, rfl⟩ := totalValidTaskCollateral_eq htotal
  obtain ⟨honly, hrs, hrewards⟩ := payBounty_cases (readsScore_scoring _ _) hws hpay
  exact ⟨s, rs, honly, hrs, ⟨ws, hws, hne, hrewards⟩, rfl⟩

/-- The two things that can happen to a task on the list of a block. -/
lemma closeTask_cases {id : TaskID} (h : c.closeTask id = .ok c') :
    c' = c ∧ (∀ t ∈ c.getTask id.contract id.function, t.status ≠ .pending) ∨
      ∃ t t' s, c.getTask id.contract id.function = some t ∧ t.status = .pending ∧
        Closed t t' ∧ RewardsOnly c.toState s ∧
        c' = { c with toState := s, tasks := c.tasks.set t' } ∧
        (s = c.toState ∨ ∃ t1, Closed t t1 ∧ Credited c.taskParams c.toState s t1) := by
  simp only [TaskState.closeTask, bind_eq_ok] at h
  obtain ⟨o, haggregate, h⟩ := h
  cases o with
  | none =>
    obtain rfl := pure_eq_ok.mp h
    refine .inl ⟨rfl, ?_⟩
    intro t ht hpending
    exact aggregate_no_error ht hpending haggregate
  | some c1 =>
    obtain ⟨t, t1, hget, hpending, hclosed, rfl⟩ :=
      aggregate_cases (unlessError_eq_some.mp haggregate)
    have hkey : t.storeKey = taskStoreKey id.contract id.function := key_of_get hget
    have hget1 : (c.setTask t1).getTask id.contract id.function = some t1 := by
      rw [TaskState.getTask, ← hkey, ← hclosed.storeKey]
      exact get_set_self _ _
    simp only [hget1, bind_eq_ok] at h
    obtain ⟨o, hdistribute, h⟩ := h
    refine .inr ?_
    cases o with
    | none =>
      obtain rfl := pure_eq_ok.mp h
      exact ⟨t, t1, c.toState, hget, hpending, hclosed, RewardsOnly.refl _, rfl, .inl rfl⟩
    | some c2 =>
      obtain rfl := pure_eq_ok.mp h
      obtain ⟨s, rs, honly, hrs, hcredited, rfl⟩ :=
        distributeBounty_cases (unlessError_eq_some.mp hdistribute)
      refine ⟨t, { t1 with responses := rs }, s, hget, hpending, hclosed.setResponses hrs,
        honly, ?_, .inr ⟨t1, hclosed, hcredited⟩⟩
      simp only [TaskState.setTask]
      rw [Table.set_set]
      rfl

lemma pending_of_closeTask {id : TaskID} (h : c.closeTask id = .ok c')
    {contract' function' : List Byte} (ht : c'.getTask contract' function' = some t)
    (hpending : t.status = .pending) :
    c.getTask contract' function' = some t ∧ c'.taskParams = c.taskParams := by
  rcases closeTask_cases h with ⟨rfl, -⟩ | ⟨_, t', s, -, -, hclosed, -, rfl, -⟩
  · exact ⟨ht, rfl⟩
  · refine ⟨?_, rfl⟩
    have hget : (c.tasks.set t').get (taskStoreKey contract' function') = some t := ht
    rw [get_set] at hget
    split at hget
    · obtain rfl := Option.some.inj hget
      exact absurd hpending hclosed.status
    · exact hget

end Aggregate

section Messages

variable {k : Keepers σ} {c c' : TaskState σ} {contract function : List Byte}

/-- A new task takes the place of one that closes now or has closed. -/
lemma createTask_cases {bounty : Coins} {description : String} {expiration : Int}
    {creator : Address} {waitingBlocks : Int}
    (h : c.createTask k contract function bounty description expiration creator waitingBlocks =
      .ok c') :
    ∃ t world, t = c.newTask contract function bounty description expiration creator
        waitingBlocks ∧
      (∀ old ∈ c.getTask contract function, old.closingBlock ≤ c.height) ∧
      k.sendCoinsFromAccountToModule c.world creator bounty = some world ∧
      c' = { (c.setTask t).setClosingBlockStore t with world := world } := by
  cases hget : c.getTask contract function with
  | none =>
    simp only [TaskState.createTask, hget, TaskState.collectBounty, run_eq_ok] at h
    obtain ⟨_, rfl, world, hsend, rfl⟩ := h
    exact ⟨_, world, rfl, by simp, hsend, rfl⟩
  | some old =>
    simp only [TaskState.createTask, hget, TaskState.collectBounty, run_eq_ok, not_lt] at h
    obtain ⟨hclosed, _, rfl, world, hsend, rfl⟩ := h
    have hkey : old.storeKey = taskStoreKey contract function := key_of_get hget
    refine ⟨_, world, rfl, ?_, hsend, ?_⟩
    · rintro old' ⟨⟩
      exact hclosed
    · have hset : ∀ t : Task, t.storeKey = old.storeKey →
          (c.deleteTask old).setTask t = c.setTask t := by
        intro t ht
        simp only [TaskState.setTask, TaskState.deleteTask]
        rw [← ht, set_delete]
      rw [← hset (c.newTask contract function bounty description expiration creator
        waitingBlocks) hkey.symm]
      rfl

lemma removeTask_cases {force : Bool} {creator : Address}
    (h : c.removeTask contract function force creator = .ok c') :
    ∃ t, c.getTask contract function = some t ∧ t.closingBlock < c.height ∧
      c' = c.deleteTask t := by
  simp only [TaskState.removeTask, run_eq_ok, not_le] at h
  obtain ⟨t, hget, -, hclosed, -, rfl⟩ := h
  exact ⟨t, hget, hclosed, rfl⟩

lemma respondToTask_cases {score : Int} {operator : Address}
    (h : c.respondToTask contract function score operator = .ok c') :
    ∃ t, c.getTask contract function = some t ∧ (c.height : Int) ≤ t.closingBlock ∧
      minScore ≤ score ∧ score ≤ maxScore ∧
      c' = c.setTask { t with responses := t.responses ++ [newResponse score operator] } := by
  simp only [TaskState.respondToTask, TaskState.isValidResponse, run_eq_ok, not_or, not_lt] at h
  obtain ⟨-, t, hget, ⟨hopen, -, hscore⟩, rfl⟩ := h
  exact ⟨t, hget, hopen, hscore.1, hscore.2, rfl⟩

lemma inquireTask_cases (h : c.inquireTask contract function = .ok c') : c' = c := by
  simp only [TaskState.inquireTask, run_eq_ok] at h
  obtain ⟨-, -, -, -, rfl⟩ := h
  rfl

lemma withState_cases {r : Except Fault (State σ)} (h : c.withState r = .ok c') :
    ∃ s, r = .ok s ∧ c' = { c with toState := s } := by
  simp only [TaskState.withState, run_eq_ok] at h
  obtain ⟨s, hs, rfl⟩ := h
  exact ⟨s, hs, rfl⟩

end Messages

end Shentu.Oracle
