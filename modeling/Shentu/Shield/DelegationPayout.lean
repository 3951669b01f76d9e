import Shentu.Shield.Undelegation
import Shentu.Lib.Split

/-!
The part of a payout that is taken from delegations. Each delegation is asked for its part of the
payout in tokens; the request is turned into shares and the shares back into the tokens that the
validator gives for them. The requests add up to the payout, but the way through the shares can
lose a token where a validator has been slashed. The condition under which the payment is exact
is on the delegations and the validators before it.
-/

namespace Shentu

open Lib List

variable {σ : Type}

/-- What the loop over the delegations does for one of them once the amount is known. -/
def askDelegation (k : Keepers σ) (params : PoolParams) (ctx : Ctx) (s : CollateralBook × σ)
    (ask : Delegation × Int) : Except Fault (CollateralBook × σ) := do
  let val ← orFail (k.getValidator s.2 ask.1.validatorAddress) (.panic .validatorNotFound)
  let ubdShares ← orPanic (val.sharesFromTokens ask.2)
  undelegateShares k params ctx s.1 s.2 ask.1.delegatorAddress ask.1.validatorAddress ubdShares

/-- The amount that the loop asks a delegation for. -/
def ubdAmount (payoutRatio delAmount remaining : Int) (last : Bool) : Int :=
  let share := min (Dec.truncateInt (Dec.mulInt payoutRatio delAmount)) remaining
  if last then remaining else if share < remaining ∧ share < delAmount then share + 1 else share

lemma payFromDelegationLoop_cons {k : Keepers σ} {params : PoolParams} {ctx : Ctx}
    {payoutRatio remaining tokens : Int} {b : CollateralBook} {w : σ} {d : Delegation}
    {dels : List Delegation} {val : Validator} (hpos : 0 < remaining)
    (hget : k.getValidator w d.validatorAddress = some val)
    (htokens : val.tokensFromShares d.shares = .ok tokens) :
    payFromDelegationLoop k params ctx payoutRatio (d :: dels) remaining b w =
      (askDelegation k params ctx (b, w)
          (d, ubdAmount payoutRatio (Dec.truncateInt tokens) remaining dels.isEmpty) >>= fun s =>
        payFromDelegationLoop k params ctx payoutRatio dels (remaining -
          ubdAmount payoutRatio (Dec.truncateInt tokens) remaining dels.isEmpty) s.1 s.2) := by
  rw [payFromDelegationLoop, if_pos hpos]
  unfold askDelegation
  simp only [hget, orFail, bind_assoc]
  change (val.tokensFromShares d.shares >>= _) = _
  rw [htokens]
  rfl

namespace DelegationView

/-- The shares that a request is turned into. -/
def askShares (v : DelegationView) (ask : Delegation × Int) : Int :=
  Dec.sharesFor (v.validatorOf ask.1).delegatorShares (v.validatorOf ask.1).tokens ask.2

/-- The tokens that the validator gives for the shares of a request. -/
def askIssued (v : DelegationView) (ask : Delegation × Int) : Int :=
  Dec.redeemed (v.validatorOf ask.1).delegatorShares (v.validatorOf ask.1).tokens (v.askShares ask)

/-- What a list of requests does that are met one after the other. -/
structure AsksPaid (asks : List (Delegation × Int)) (v v' : DelegationView) : Prop where
  tokens : ∀ ask ∈ asks, (v.validatorOf ask.1).tokens ≠ 0
  own : ∀ ask ∈ asks, v'.delegations.get ask.1.key =
    if ask.1.shares - v.askShares ask = 0 then none
    else some { ask.1 with shares := ask.1.shares - v.askShares ask }
  others : ∀ key, (∀ ask ∈ asks, key ≠ ask.1.key) →
    v'.delegations.get key = v.delegations.get key
  coins : (∀ ask ∈ asks, v.askShares ask ≤ ask.1.shares) →
    v'.pooled .shield = v.pooled .shield + (asks.map v.askIssued).sum

lemma asks_congr {v v' : DelegationView} {ask : Delegation × Int}
    (h : v'.validatorOf ask.1 = v.validatorOf ask.1) :
    v'.askShares ask = v.askShares ask ∧ v'.askIssued ask = v.askIssued ask := by
  unfold askIssued askShares
  rw [h]
  exact ⟨rfl, rfl⟩

lemma pool_ne_shield (val : Validator) : val.pool ≠ .shield := by
  unfold Validator.pool
  split <;> simp

/-- One request after which the others are met. -/
lemma AsksPaid.cons {ask : Delegation × Int} {asks : List (Delegation × Int)}
    {v v1 v' : DelegationView} (hpending : v.Pending ((ask :: asks).map Prod.fst))
    (htokens : (v.validatorOf ask.1).tokens ≠ 0)
    (hstep : Undelegated ask.1 (v.askShares ask) v v1)
    (hmoved : v.askShares ask ≤ (v.validatorOf ask.1).delegatorShares →
      TokensMoved ask.1 (v.askShares ask) v v1)
    (h : AsksPaid asks v1 v') : AsksPaid (ask :: asks) v v' := by
  obtain ⟨hne, -⟩ := pairwise_cons.mp hpending.distinct
  have hne : ∀ other ∈ asks, other.1.validatorAddress ≠ ask.1.validatorAddress :=
    fun other hother => (hne other.1 (mem_map_of_mem hother)).symm
  have hkey : ∀ other ∈ asks, ask.1.key ≠ other.1.key := fun other hother heq =>
    hne other hother (Delegation.key_eq_iff.mp heq).2.symm
  have hsame : ∀ other ∈ asks, v1.validatorOf other.1 = v.validatorOf other.1 :=
    fun other hother => hstep.validatorOf (hne other hother)
  constructor
  · refine forall_mem_cons.mpr ⟨htokens, ?_⟩
    intro other hother
    rw [← hsame other hother]
    exact h.tokens other hother
  · refine forall_mem_cons.mpr ⟨?_, ?_⟩
    · rw [h.others ask.1.key hkey]
      exact hstep.get_self
    · intro other hother
      rw [← (asks_congr (hsame other hother)).1]
      exact h.own other hother
  · intro key hall
    obtain ⟨hfirst, hrest⟩ := forall_mem_cons.mp hall
    rw [h.others key hrest, hstep.get_other hfirst]
  · intro hfits
    obtain ⟨hfirst, hrest⟩ := forall_mem_cons.mp hfits
    have hown := (hpending.backed ask.1 mem_cons_self).held
    have hpooled := (hmoved (hfirst.trans hown)).pooled
    have hissued : asks.map v1.askIssued = asks.map v.askIssued :=
      map_congr_left (fun other hother => (asks_congr (hsame other hother)).2)
    rw [h.coins (fun other hother => by
      rw [(asks_congr (hsame other hother)).1]
      exact hrest other hother), hissued, hpooled, map_cons, sum_cons]
    unfold pay
    dsimp only
    rw [if_neg (pool_ne_shield _).symm, if_pos rfl, sub_zero, add_assoc]
    rfl

end DelegationView

namespace DelegationLaws

variable {k : Keepers σ} (L : DelegationLaws k) {params : PoolParams} {ctx : Ctx}
  {b b' : CollateralBook} {w w' : σ} {a : AccAddress}

lemma askDelegation_eq_ok {ask : Delegation × Int}
    (hfound : (L.view w).validators.get ask.1.validatorAddress =
      some ((L.view w).validatorOf ask.1)) :
    askDelegation k params ctx (b, w) ask = .ok (b', w') ↔
      ((L.view w).validatorOf ask.1).tokens ≠ 0 ∧
        undelegateShares k params ctx b w ask.1.delegatorAddress ask.1.validatorAddress
          ((L.view w).askShares ask) = .ok (b', w') := by
  simp only [askDelegation, bind_eq_ok, orFail_eq_ok, orPanic_eq_ok, L.getValidator,
    Validator.sharesFromTokens_eq_ok, hfound, Option.some.injEq, exists_eq_left']
  constructor
  · rintro ⟨shares, ⟨htokens, rfl⟩, h⟩
    exact ⟨htokens, h⟩
  · rintro ⟨htokens, h⟩
    exact ⟨_, ⟨htokens, rfl⟩, h⟩

lemma asksPaid_of_ok {asks : List (Delegation × Int)}
    (hpending : (L.view w).Pending (asks.map Prod.fst)) (hasks : ∀ ask ∈ asks, 0 ≤ ask.2)
    (h : asks.foldlM (askDelegation k params ctx) (b, w) = .ok (b', w')) :
    DelegationView.AsksPaid asks (L.view w) (L.view w') := by
  induction asks generalizing b w with
  | nil =>
    cases h
    exact ⟨by simp, by simp, fun _ _ => rfl, by simp⟩
  | cons ask asks ih =>
    obtain ⟨⟨b1, w1⟩, hfirst, hrest⟩ := foldlM_cons_eq_ok.mp h
    obtain ⟨hask, hasks⟩ := forall_mem_cons.mp hasks
    obtain ⟨hstored, hown⟩ := hpending.head
    obtain ⟨htokens, hfirst⟩ := (L.askDelegation_eq_ok hown.found).mp hfirst
    obtain ⟨hstep, hmoved⟩ := L.undelegateShares_view hstored hown.found hfirst
    have hshares := Dec.sharesFor_nonneg hown.total_pos.le hown.tokens hask
    exact DelegationView.AsksPaid.cons hpending htokens hstep (hmoved hshares)
      (ih (hpending.tail hstep) hasks hrest)

/-- Requests are met that the delegations have the shares for. -/
lemma asks_succeed (params : PoolParams) (ctx : Ctx) {asks : List (Delegation × Int)}
    {rest : List Delegation} (hv : (L.view w).Payable a (asks.map Prod.fst ++ rest))
    (hasks : ∀ ask ∈ asks, 0 ≤ ask.2 ∧ ((L.view w).validatorOf ask.1).tokens ≠ 0 ∧
      (L.view w).askShares ask ≤ ask.1.shares)
    (hcovered : ∀ p, b.getProvider a = some p →
      ((asks.map Prod.fst ++ rest).map (L.view w).valueOf).sum ≤ p.delegationBonded) :
    ∃ b' w', asks.foldlM (askDelegation k params ctx) (b, w) = .ok (b', w') := by
  induction asks generalizing b w with
  | nil => exact ⟨b, w, rfl⟩
  | cons ask asks ih =>
    obtain ⟨⟨hask, htokens, hfits⟩, hasks⟩ := forall_mem_cons.mp hasks
    obtain ⟨hstored, hown⟩ := hv.pending.head
    have hshares := Dec.sharesFor_nonneg hown.total_pos.le hown.tokens hask
    obtain ⟨b1, w1, hok, hv1, hcovered1⟩ :=
      L.undelegateShares_succeeds params ctx hv hshares hfits hcovered
    have hstep := (L.undelegateShares_view hstored hown.found hok).1
    obtain ⟨b', w', hrest⟩ := ih hv1 (by
      intro other hother
      have hne := (pairwise_cons.mp hv.distinct).1 other.1
        (mem_append_left _ (mem_map_of_mem hother))
      have hsame := hstep.validatorOf hne.symm
      rw [(DelegationView.asks_congr hsame).1, hsame]
      exact hasks other hother) hcovered1
    exact ⟨b', w', foldlM_cons_eq_ok.mpr
      ⟨(b1, w1), (L.askDelegation_eq_ok hown.found).mpr ⟨htokens, hok⟩, hrest⟩⟩

/-- The loop makes the requests that its ratio gives for the values before it. -/
lemma payFromDelegationLoop_eq {payoutRatio : Int} (hratio : 0 ≤ payoutRatio)
    (hone : payoutRatio ≤ Dec.one) {part : Delegation → Int} {dels : List Delegation}
    (hpending : (L.view w).Pending dels)
    (hpart : ∀ d ∈ dels, part d = Dec.raisedPart payoutRatio ((L.view w).valueOf d))
    (remaining : Int) :
    payFromDelegationLoop k params ctx payoutRatio dels remaining b w =
      (dels.zip (takeOrRest (dels.map part) remaining)).foldlM (askDelegation k params ctx)
        (b, w) := by
  induction dels generalizing remaining b w with
  | nil => rfl
  | cons d dels ih =>
    obtain ⟨hfirst, hpart⟩ := forall_mem_cons.mp hpart
    obtain ⟨hstored, hown⟩ := hpending.head
    obtain ⟨tokens, htokens, hvalue⟩ := tokensFromShares_value hown.total_pos.ne' d.shares
    have hvalue : Dec.truncateInt tokens = (L.view w).valueOf d := hvalue
    rw [map_cons, takeOrRest]
    split
    · rename_i hpos
      have hget := (L.getValidator w d.validatorAddress).trans hown.found
      have hamount : ubdAmount payoutRatio (Dec.truncateInt tokens) remaining dels.isEmpty =
          if (dels.map part).isEmpty then remaining else min remaining (part d) := by
        rw [isEmpty_map, hfirst, hvalue, ← Dec.raise_eq_min hratio hone hown.value_nonneg]
        rfl
      rw [payFromDelegationLoop_cons hpos hget htokens, hamount, zip_cons_cons,
        foldlM_cons]
      generalize hask : askDelegation k params ctx (b, w) _ = result
      cases result with
      | error f => rfl
      | ok s =>
        obtain ⟨b1, w1⟩ := s
        have hok := ((L.askDelegation_eq_ok hown.found).mp hask).2
        have hstep := (L.undelegateShares_view hstored hown.found hok).1
        apply ih (hpending.tail hstep)
        intro e he
        have hne := (pairwise_cons.mp hpending.distinct).1 e he
        rw [hpart e he, DelegationView.valueOf, DelegationView.valueOf, hstep.validatorOf hne.symm]
    · rename_i hpos
      rw [payFromDelegationLoop, if_neg hpos]
      rfl

end DelegationLaws

end Shentu
