import Shentu.Shield.DelegationPayout
import Shentu.Shield.Ledger

/-!
When a payout from the delegations of a provider is exact. The requests always add up to the
payout. A delegation may give less than it is asked for, since a request is turned into shares by
truncation and the shares into tokens by another; and the last delegation is asked for all that
is left, which can be more than it is worth.
-/

namespace Shentu

open Lib DelegationView Dec List Option

variable {σ : Type}

/-- A validator gives an amount exactly for shares of a delegation: it holds tokens, the
delegation has the shares of the amount, and what the truncation to shares leaves over is at most
half of the last digit. -/
structure Validator.PaysOut (val : Validator) (shares amount : Int) : Prop where
  tokens : val.tokens ≠ 0
  shares : val.delegatorShares * amount < (shares + 1) * val.tokens
  rest : 2 * Dec.one * (val.delegatorShares * amount % val.tokens) ≤ val.delegatorShares

instance (val : Validator) (shares amount : Int) : Decidable (val.PaysOut shares amount) :=
  decidable_of_iff (val.tokens ≠ 0 ∧ val.delegatorShares * amount < (shares + 1) * val.tokens ∧
      2 * Dec.one * (val.delegatorShares * amount % val.tokens) ≤ val.delegatorShares)
    ⟨fun h => ⟨h.1, h.2.1, h.2.2⟩, fun h => ⟨h.tokens, h.shares, h.rest⟩⟩

namespace DelegationView

variable (v : DelegationView)

variable (a : AccAddress)

/-- The part of a payout that a delegation of the address is asked for, as long as some of the
payout remains. -/
def partOf (payout : Int) (d : Delegation) : Int :=
  Dec.raisedPart (Dec.quo (Dec.ofInt payout) (Dec.ofInt ((v.delegationsOf a).map v.valueOf).sum))
    (v.valueOf d)

/-- The requests of a payout to the delegations of an address. -/
def asks (payout : Int) : List (Delegation × Int) :=
  (v.delegationsOf a).zip (takeOrRest ((v.delegationsOf a).map (v.partOf a payout)) payout)

/-- Every delegation that is reached before the parts add up to the payout can give what is left
of it then, up to its own part, exactly; the last one has to be worth all that is left. -/
def PayableExactly (payout : Int) : Prop :=
  ∀ before d after, v.delegationsOf a = before ++ d :: after →
    let left := payout - (before.map (v.partOf a payout)).sum
    let amount := if after.isEmpty then left else min left (v.partOf a payout d)
    0 < left → amount ≤ v.valueOf d ∧ (v.validatorOf d).PaysOut d.shares amount

lemma payableExactly_iff {v : DelegationView} {a : AccAddress} {payout : Int}
    (hpart : ∀ d ∈ v.delegationsOf a, 0 ≤ v.partOf a payout d) :
    v.PayableExactly a payout ↔
      ∀ ask ∈ v.asks a payout, ask.2 ≤ v.valueOf ask.1 ∧
        (v.validatorOf ask.1).PaysOut ask.1.shares ask.2 := by
  have hsplit := forall_zip_takeOrRest
    (Q := fun d amount => amount ≤ v.valueOf d ∧ (v.validatorOf d).PaysOut d.shares amount)
    hpart payout
  unfold PayableExactly asks
  rw [hsplit]
  simp only [Int.sub_pos]

lemma delegationsOf_distinct :
    (v.delegationsOf a).Pairwise (fun d e => d.validatorAddress ≠ e.validatorAddress) := by
  have hsorted := v.delegations.sorted.filter (fun d => decide (d.delegatorAddress = a))
  refine hsorted.imp_of_mem ?_
  intro d e hd he hlt heq
  have hdel : d.delegatorAddress = e.delegatorAddress :=
    (mem_delegationsOf.mp hd).2.trans (mem_delegationsOf.mp he).2.symm
  exact hlt.ne (Delegation.key_eq_iff.mpr ⟨hdel, heq⟩)

end DelegationView

/-- A payout from the delegations of an address is exact: it is made by requests that are at most
the values of the delegations and add up to the payout, no shares become negative, and the coins
that the shield module gets are the payout. -/
def PaysExactly {k : Keepers σ} (L : DelegationLaws k) (params : PoolParams) (ctx : Ctx)
    (b : CollateralBook) (w : σ) (a : AccAddress) (payout : Int) : Prop :=
  ∃ b' w', payFromDelegation k params ctx b w a payout = .ok (b', w') ∧
    ((L.view w).asks a payout).foldlM (askDelegation k params ctx) (b, w) = .ok (b', w') ∧
    (∀ ask ∈ (L.view w).asks a payout, ask.2 ≤ (L.view w).valueOf ask.1) ∧
    (((L.view w).asks a payout).map Prod.snd).sum = payout ∧
    (∀ d ∈ (L.view w').delegationsOf a, 0 ≤ d.shares) ∧
    (L.view w').pooled .shield = (L.view w).pooled .shield + payout

section Exact

variable {k : Keepers σ} {L : DelegationLaws k} {params : PoolParams} {ctx : Ctx}
  {b : CollateralBook} {w : σ} {a : AccAddress} {p : Provider} {payout : Int}

variable {v : DelegationView} {asks : List (Delegation × Int)}

/-- The requests are to the first delegations, and are not negative. -/
lemma DelegationView.asks_spec (hbacked : ∀ d ∈ v.delegationsOf a, v.Backed d) (hpos : 0 < payout)
    (hle : payout ≤ ((v.delegationsOf a).map v.valueOf).sum) :
    (∀ d ∈ v.delegationsOf a, 0 ≤ v.partOf a payout d) ∧
      (∀ ask ∈ v.asks a payout, ask.1 ∈ v.delegationsOf a ∧ 0 ≤ ask.2) ∧
      ((v.asks a payout).map Prod.snd).sum = payout := by
  have hratio := quo_nonneg (ofInt_nonneg hpos.le) (ofInt_nonneg (hpos.le.trans hle))
  have hpart : ∀ d ∈ v.delegationsOf a, 0 ≤ v.partOf a payout d :=
    fun d hd => (raisedPart_bounds hratio (hbacked d hd).value_nonneg).1
  refine ⟨hpart, ?_, ?_⟩
  · intro ask hask
    obtain ⟨hd, hamount⟩ := of_mem_zip hask
    exact ⟨hd, takeOrRest_nonneg (List.forall_mem_map.mpr hpart) payout _ hamount⟩
  · have hlen := length_takeOrRest_le ((v.delegationsOf a).map (v.partOf a payout)) payout
    rw [length_map] at hlen
    unfold DelegationView.asks
    rw [map_snd_zip hlen]
    refine takeOrRest_sum ?_ hpos.le
    intro hnil
    rw [map_eq_nil_iff.mp hnil, map_nil, sum_nil] at hle
    omega

/-- Requests that are all met give at most what is asked for, so they give the payout only if
each of them gives its amount. -/
lemma issued_eq_of_sum_eq
    (hbacked : ∀ ask ∈ asks, v.Backed ask.1 ∧ 0 ≤ ask.2 ∧ (v.validatorOf ask.1).tokens ≠ 0)
    (hsum : (asks.map v.askIssued).sum = (asks.map Prod.snd).sum) :
    ∀ ask ∈ asks, v.askIssued ask = ask.2 := by
  have hle : ∀ ask ∈ asks, v.askIssued ask ≤ ask.2 := by
    intro ask hask
    obtain ⟨hown, hnonneg, htokens⟩ := hbacked ask hask
    exact redeemed_sharesFor_le hown.total_pos (lt_of_le_of_ne hown.tokens htokens.symm) hnonneg
  intro ask hask
  by_contra hne
  have hlt := sum_lt_sum v.askIssued Prod.snd hle
    ⟨ask, hask, lt_of_le_of_ne (hle ask hask) hne⟩
  omega

/-- What the condition says of one request: the delegation has the shares, and the tokens come
back. -/
lemma paysOut_iff {ask : Delegation × Int} (hown : v.Backed ask.1) (hnonneg : 0 ≤ ask.2) :
    (v.validatorOf ask.1).PaysOut ask.1.shares ask.2 ↔
      (v.validatorOf ask.1).tokens ≠ 0 ∧ v.askShares ask ≤ ask.1.shares ∧
        v.askIssued ask = ask.2 := by
  have hpos (htokens : (v.validatorOf ask.1).tokens ≠ 0) : 0 < (v.validatorOf ask.1).tokens :=
    lt_of_le_of_ne hown.tokens htokens.symm
  constructor
  · rintro ⟨htokens, hshares, hrest⟩
    exact ⟨htokens, (sharesFor_le_iff hown.total_pos.le (hpos htokens) hnonneg).mpr hshares,
      (redeemed_sharesFor_eq_iff hown.total_pos (hpos htokens) hnonneg).mpr hrest⟩
  · rintro ⟨htokens, hshares, hissued⟩
    exact ⟨htokens, (sharesFor_le_iff hown.total_pos.le (hpos htokens) hnonneg).mp hshares,
      (redeemed_sharesFor_eq_iff hown.total_pos (hpos htokens) hnonneg).mp hissued⟩

lemma askShares_le_of_nonneg {v' : DelegationView} (hpaid : v.AsksPaid asks v')
    {ask : Delegation × Int} (hask : ask ∈ asks) (hdel : ask.1.delegatorAddress = a)
    (hnonneg : ∀ d ∈ v'.delegationsOf a, 0 ≤ d.shares) : v.askShares ask ≤ ask.1.shares := by
  by_contra hmore
  have hown := hpaid.own ask hask
  rw [if_neg (by omega)] at hown
  have hstored := hnonneg _ (mem_delegationsOf.mpr ⟨Table.mem_of_get hown, hdel⟩)
  dsimp only at hstored
  omega

lemma shares_nonneg_of_asksPaid {v' : DelegationView}
    (hbacked : ∀ d ∈ v.delegationsOf a, v.Backed d) (hpaid : v.AsksPaid asks v')
    (hfits : ∀ ask ∈ asks, v.askShares ask ≤ ask.1.shares) :
    ∀ d ∈ v'.delegationsOf a, 0 ≤ d.shares := by
  intro d hd
  obtain ⟨hmem, hdel⟩ := mem_delegationsOf.mp hd
  have hget := Table.get_of_mem hmem
  by_cases hasked : ∃ ask ∈ asks, d.key = ask.1.key
  · obtain ⟨ask, hask, hkey⟩ := hasked
    rw [hkey, hpaid.own ask hask] at hget
    split at hget
    · cases hget
    · cases hget
      exact Int.sub_nonneg_of_le (hfits ask hask)
  · rw [hpaid.others d.key (fun ask hask hkey => hasked ⟨ask, hask, hkey⟩)] at hget
    exact (hbacked d (mem_delegationsOf.mpr ⟨Table.mem_of_get hget, hdel⟩)).shares.le

/-- The payout is made by its requests. -/
lemma payFromDelegation_eq_asks (hp : b.getProvider a = some p)
    (hbonded : p.delegationBonded = (((L.view w).delegationsOf a).map (L.view w).valueOf).sum)
    (hpending : (L.view w).Pending ((L.view w).delegationsOf a)) (hpos : 0 < payout)
    (hle : payout ≤ p.delegationBonded) :
    payFromDelegation k params ctx b w a payout =
      ((L.view w).asks a payout).foldlM (askDelegation k params ctx) (b, w) := by
  have hratio := quo_nonneg (ofInt_nonneg hpos.le) (ofInt_nonneg (hpos.le.trans hle))
  have hone := quo_ofInt_le_one hpos.le (hpos.trans_le hle) hle
  have hquo : decQuo (Dec.ofInt payout) (Dec.ofInt p.delegationBonded) =
      .ok (Dec.quo (Dec.ofInt payout) (Dec.ofInt p.delegationBonded)) :=
    if_neg (Int.mul_pos (hpos.trans_le hle) (by decide)).ne'
  unfold payFromDelegation
  rw [hp, L.getAll]
  change (decQuo (Dec.ofInt payout) (Dec.ofInt p.delegationBonded) >>= _) = _
  rw [hquo]
  apply L.payFromDelegationLoop_eq hratio hone hpending
  intro d hd
  rw [hbonded]
  rfl

/-- A payout from the delegations of a provider is exact if and only if every delegation that is
reached is worth what it is asked for and can give it exactly. The delegations are backed by
their validators, the pools hold the tokens of the validators and the provider has an account, as
the staking and account modules keep it; the bonded amount of the provider is the value of its
delegations. -/
theorem payFromDelegation_exact_iff (hp : b.getProvider a = some p)
    (hbonded : p.delegationBonded = (((L.view w).delegationsOf a).map (L.view w).valueOf).sum)
    (hbacked : ∀ d ∈ (L.view w).delegationsOf a, (L.view w).Backed d)
    (haccount : (L.view w).hasAccount a = true)
    (hpools : ∀ m, (L.view w).tokensIn ((L.view w).delegationsOf a) m ≤ (L.view w).pooled m)
    (hpos : 0 < payout) (hle : payout ≤ p.delegationBonded) :
    PaysExactly L params ctx b w a payout ↔ (L.view w).PayableExactly a payout := by
  have hpayable : (L.view w).Payable a ((L.view w).delegationsOf a) :=
    ⟨hbacked, fun _ hd => hd, delegationsOf_distinct _ a, haccount, hpools⟩
  obtain ⟨hpart, hasks, hsum⟩ := asks_spec hbacked hpos (hbonded ▸ hle)
  obtain ⟨rest, hlist⟩ : ∃ rest, (L.view w).delegationsOf a =
      ((L.view w).asks a payout).map Prod.fst ++ rest := exists_append_zip _ _
  have hpending := (hlist ▸ hpayable.pending).of_append rest
  have hpaid {b' : CollateralBook} {w' : σ} (hfold : ((L.view w).asks a payout).foldlM
      (askDelegation k params ctx) (b, w) = .ok (b', w')) :=
    L.asksPaid_of_ok hpending (fun ask hask => (hasks ask hask).2) hfold
  rw [payableExactly_iff hpart]
  constructor
  · rintro ⟨b', w', -, hfold, hvalues, -, hshares, hcoins⟩ ask hask
    have hpaid := hpaid hfold
    have hfits : ∀ ask ∈ (L.view w).asks a payout, (L.view w).askShares ask ≤ ask.1.shares := by
      intro ask hask
      exact askShares_le_of_nonneg hpaid hask
        (mem_delegationsOf.mp (hasks ask hask).1).2 hshares
    have htotal := hpaid.coins hfits
    have hissued := issued_eq_of_sum_eq
      (fun ask hask => ⟨hbacked _ (hasks ask hask).1, (hasks ask hask).2, hpaid.tokens ask hask⟩)
      (show _ = _ by omega)
    obtain ⟨hd, hnonneg⟩ := hasks ask hask
    exact ⟨hvalues ask hask, (paysOut_iff (hbacked _ hd) hnonneg).mpr
      ⟨hpaid.tokens ask hask, hfits ask hask, hissued ask hask⟩⟩
  · intro hall
    have hcan : ∀ ask ∈ (L.view w).asks a payout, ((L.view w).validatorOf ask.1).tokens ≠ 0 ∧
        (L.view w).askShares ask ≤ ask.1.shares ∧ (L.view w).askIssued ask = ask.2 := by
      intro ask hask
      obtain ⟨hd, hnonneg⟩ := hasks ask hask
      exact (paysOut_iff (hbacked _ hd) hnonneg).mp (hall ask hask).2
    obtain ⟨b', w', hfold⟩ := L.asks_succeed params ctx (hlist ▸ hpayable)
      (fun ask hask => ⟨(hasks ask hask).2, (hcan ask hask).1, (hcan ask hask).2.1⟩)
      (b := b) (fun p' hp' => by
        cases hp.symm.trans hp'
        rw [← hlist, hbonded])
    have hpaid := hpaid hfold
    have hfits : ∀ ask ∈ (L.view w).asks a payout, (L.view w).askShares ask ≤ ask.1.shares :=
      fun ask hask => (hcan ask hask).2.1
    refine ⟨b', w', ?_, hfold, fun ask hask => (hall ask hask).1, hsum, ?_, ?_⟩
    · rw [payFromDelegation_eq_asks hp hbonded hpayable.pending hpos hle]
      exact hfold
    · exact shares_nonneg_of_asksPaid hbacked hpaid hfits
    · rw [hpaid.coins hfits, map_congr_left (fun ask hask => (hcan ask hask).2.2), hsum]

end Exact

/-- Keepers of a small world with delegations, validators and pools. -/
def delegationKeepers : Keepers DelegationView :=
  { idleKeepers DelegationView with
    getAllDelegatorDelegations v a := v.delegationsOf a
    getDelegation v a valAddr := v.delegations.get (DVPair.key ⟨a, valAddr⟩)
    setDelegation v d := { v with delegations := v.delegations.set d }
    removeDelegation v d := { v with delegations := v.delegations.delete d.key }
    getValidator v valAddr := v.validators.get valAddr
    setValidator v val := { v with validators := v.validators.set val }
    removeValidator v valAddr := { v with validators := v.validators.delete valAddr }
    removeValidatorTokensAndShares v val shares :=
      ({ v with validators := v.validators.set (val.removeDelShares shares).1 },
        val.removeDelShares shares)
    trackUndelegation v a _ := if v.hasAccount a then some v else none
    sendCoinsFromModuleToModule v m m' coins :=
      if m' = .shield ∧ coins.amountOf microCTKDenom ≤ v.pooled m then
        some (v.pay m (coins.amountOf microCTKDenom))
      else none }

/-- The small world keeps the laws, seen as it is. -/
def delegationViewLaws : DelegationLaws delegationKeepers where
  view := id
  getAll _ _ := rfl
  getDelegation _ _ _ := rfl
  setDelegation _ _ := rfl
  removeDelegation _ _ := rfl
  getValidator _ _ := rfl
  setValidator _ _ := rfl
  deleteIndex _ _ := rfl
  removeValidator _ _ := rfl
  removeShares v val shares :=
    ⟨rfl, oneValidator_set v (val.removeDelShares shares).1⟩
  removedShares _ _ _ _ _ := ⟨rfl, rfl⟩
  beforeModified _ _ _ := rfl
  beforeRemoved _ _ _ := rfl
  afterModified _ _ _ := rfl
  track v a coins v' h := by
    cases (ite_none_right_eq_some.mp h).2
    rfl
  tracks v _ _ haccount _ := isSome_iff_exists.mpr ⟨v, if_pos haccount⟩
  send v m x v' _ h := by
    obtain ⟨-, heq⟩ := ite_none_right_eq_some.mp h
    cases heq
    exact congrArg (v.pay m) (Coins.amountOf_ofAmount_self microCTKDenom x)
  sends v m x _ hx := by
    have hamount : (Coins.ofAmount microCTKDenom x).amountOf microCTKDenom = x :=
      Coins.amountOf_ofAmount_self _ x
    exact isSome_iff_exists.mpr ⟨_, if_pos ⟨rfl, hamount.trans_le hx⟩⟩

/-- One provider with all shares of two bonded validators, the second of which holds the given
tokens for its ten shares. -/
def slashedWorld (tokens : Int) : DelegationView where
  delegations := (Table.empty.set ⟨1, 100, Dec.ofInt 10⟩).set ⟨1, 200, Dec.ofInt 10⟩
  validators := (Table.empty.set ⟨100, false, .bonded, 10, Dec.ofInt 10, 1⟩).set
    ⟨200, false, .bonded, tokens, Dec.ofInt 10, 1⟩
  pooled m := if m = .bondedPool then 10 + tokens else 0
  hasAccount a := a == 1

/-- The book of the provider, with no more collateral than it has bonded. -/
def slashedBook (bonded : Int) : CollateralBook :=
  CollateralBook.empty.setProvider { Provider.new 1 with
    delegationBonded := bonded, collateral := bonded }

/-- Out of 19 bonded tokens 13 are to be paid. The second validator is asked for 6 of its 9
tokens, which are 6.666666666666666666 shares, and gives 5 for them. -/
theorem payFromDelegation_slashed_inexact : 0 < (13 : Int) ∧ (13 : Int) ≤ 19 ∧
      (((slashedWorld 9).delegationsOf 1).map (slashedWorld 9).valueOf).sum = 19 ∧
      OkAnd (payFromDelegation delegationKeepers shortPeriodParams.pool ⟨0, 1⟩ (slashedBook 19)
        (slashedWorld 9) 1 13) (fun r => r.2.pooled .shield = 12) ∧
      ¬ PaysExactly delegationViewLaws shortPeriodParams.pool ⟨0, 1⟩ (slashedBook 19)
        (slashedWorld 9) 1 13 := by
  have hrun : OkAnd (payFromDelegation delegationKeepers shortPeriodParams.pool ⟨0, 1⟩
      (slashedBook 19) (slashedWorld 9) 1 13) (fun r => r.2.pooled .shield = 12) := by
    decide +kernel
  refine ⟨by decide, by decide, by decide +kernel, hrun, ?_⟩
  rintro ⟨b', w', hok, -, -, -, -, hcoins⟩
  rw [hok] at hrun
  have hstart : (slashedWorld 9).pooled .shield = 0 := by decide
  have hpaid : w'.pooled .shield = 12 := hrun
  have hcoins : w'.pooled .shield = (slashedWorld 9).pooled .shield + 13 := hcoins
  omega

/-- With 5 tokens for ten shares the second validator gives what it is asked for. -/
theorem payFromDelegation_exact_at_half :
    PaysExactly delegationViewLaws shortPeriodParams.pool ⟨0, 1⟩ (slashedBook 15)
      (slashedWorld 5) 1 8 := by
  have hpart : ∀ d ∈ (slashedWorld 5).delegationsOf 1, 0 ≤ (slashedWorld 5).partOf 1 8 d := by
    decide +kernel
  have hexact : (slashedWorld 5).PayableExactly 1 8 :=
    (payableExactly_iff hpart).mpr (by decide +kernel)
  have hpools : ∀ m, (slashedWorld 5).tokensIn ((slashedWorld 5).delegationsOf 1) m ≤
      (slashedWorld 5).pooled m := by
    intro m
    cases m <;> decide +kernel
  exact (payFromDelegation_exact_iff (L := delegationViewLaws) rfl (by decide +kernel)
    (by decide +kernel) (by decide) hpools (by decide) (by decide +kernel)).mpr hexact

end Shentu
