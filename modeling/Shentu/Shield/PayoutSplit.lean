import Shentu.Shield.Payout
import Shentu.Shield.Ledger

/-!
The split of a claim over the providers. Every provider is asked for its
proportional part of the sold shield, which it keeps backing, and of the loss,
which it pays. Both parts are truncated, and both are raised by one unit where
there is room, the part to be backed first. What the providers can pay in this way
may fall short of the loss, and then the payout panics.
-/

namespace Shentu

open Lib List Dec

variable {σ : Type}

/-- The purchased amounts and payouts that the loop of `createReimbursement` assigns to
providers with the given collaterals. -/
def payoutShares (purchaseRatio payoutRatio : Int) : List Int → Int → Int → List (Int × Int)
  | [], _, _ => []
  | c :: cs, totalPurchased, totalPayout =>
    if 0 < totalPayout then
      let share := reimbursementShare purchaseRatio payoutRatio c totalPurchased totalPayout
      share :: payoutShares purchaseRatio payoutRatio cs (totalPurchased - share.1)
        (totalPayout - share.2)
    else []

/-- What is left unpaid by the loop over the providers is what its shares leave. -/
lemma payProviders_unpaid {k : Keepers σ} {params : PoolParams} {ctx : Ctx}
    {purchaseRatio payoutRatio : Int} (providers : List Provider)
    {totalPurchased totalPayout unpaid : Int} {b b' : CollateralBook} {world world' : σ}
    (h : payProviders k params ctx purchaseRatio payoutRatio providers totalPurchased totalPayout
      b world = .ok (unpaid, b', world')) :
    unpaid = totalPayout - ((payoutShares purchaseRatio payoutRatio
      (providers.map Provider.collateral) totalPurchased totalPayout).map Prod.snd).sum := by
  induction providers generalizing totalPurchased totalPayout b world with
  | nil =>
    cases h
    simp [payoutShares]
  | cons p ps ih =>
    unfold payProviders at h
    rw [map_cons, payoutShares]
    split at h
    · rename_i hpos
      simp only [bind_eq_ok, orPanic_eq_ok] at h
      obtain ⟨b1, -, ⟨b2, world2⟩, -, h⟩ := h
      rw [if_pos hpos, map_cons, sum_cons, ih h]
      omega
    · rename_i hpos
      cases h
      simp [hpos]

/-- The truncated part of a provider's collateral that a ratio gives. -/
def proportionalPart (ratio collateral : Int) : Int :=
  Dec.truncateInt (Dec.mul (Dec.ofInt collateral) ratio)

/-- What a provider backs of the sold shield while there is any left: its part, and one more
if the two parts leave room. -/
def backedPart (purchaseRatio payoutRatio c : Int) : Int :=
  if proportionalPart payoutRatio c + proportionalPart purchaseRatio c < c then
    proportionalPart purchaseRatio c + 1
  else proportionalPart purchaseRatio c

/-- A provider pays one unit more than its part if two units are free beside the two parts,
or if the sold shield runs out before its backed part is full. -/
def CanPayOneMore (purchaseRatio payoutRatio totalShield c backed : Int) : Prop :=
  proportionalPart payoutRatio c + proportionalPart purchaseRatio c + 2 ≤ c ∨
    0 < backedPart purchaseRatio payoutRatio c ∧
      totalShield < backed + backedPart purchaseRatio payoutRatio c

instance (purchaseRatio payoutRatio totalShield c backed : Int) :
    Decidable (CanPayOneMore purchaseRatio payoutRatio totalShield c backed) :=
  inferInstanceAs (Decidable (_ ∨ _))

/-- What the providers can pay, when the providers before them back `backed`. -/
def payableBy (purchaseRatio payoutRatio totalShield : Int) : List Int → Int → Int
  | [], _ => 0
  | c :: cs, backed =>
    proportionalPart payoutRatio c +
      (if CanPayOneMore purchaseRatio payoutRatio totalShield c backed then 1 else 0) +
      payableBy purchaseRatio payoutRatio totalShield cs
        (backed + backedPart purchaseRatio payoutRatio c)

variable (collaterals : List Int)

/-- What the providers can pay of a loss. -/
def payoutRoom (totalShield amount : Int) : Int :=
  payableBy (Dec.quo (Dec.ofInt totalShield) (Dec.ofInt collaterals.sum))
    (Dec.quo (Dec.ofInt amount) (Dec.ofInt collaterals.sum)) totalShield collaterals 0

/-- The shares of a payout stay within each provider's collateral and add up to the amount. -/
def ExactPayout (totalShield amount : Int) : Prop :=
  let shares := payoutShares (Dec.quo (Dec.ofInt totalShield) (Dec.ofInt collaterals.sum))
    (Dec.quo (Dec.ofInt amount) (Dec.ofInt collaterals.sum)) collaterals totalShield amount
  (∀ x ∈ collaterals.zip shares, 0 ≤ x.2.2 ∧ x.2.1 + x.2.2 ≤ x.1) ∧
    (shares.map Prod.snd).sum = amount

instance (collaterals : List Int) (totalShield amount : Int) :
    Decidable (ExactPayout collaterals totalShield amount) :=
  inferInstanceAs (Decidable (_ ∧ _))

section Shares

variable {purchaseRatio payoutRatio : Int} (hpurchase : 0 ≤ purchaseRatio)
  (hpayout : 0 ≤ payoutRatio) (hratios : purchaseRatio + payoutRatio ≤ Dec.one)

include hpurchase hpayout hratios

/-- The two parts of a provider fit into its collateral. -/
lemma proportionalPart_add_le {c : Int} (hc : 0 ≤ c) :
    0 ≤ proportionalPart purchaseRatio c ∧ 0 ≤ proportionalPart payoutRatio c ∧
      proportionalPart payoutRatio c + proportionalPart purchaseRatio c ≤ c := by
  unfold proportionalPart
  rw [ofInt_mul_of_nonneg hc hpurchase, ofInt_mul_of_nonneg hc hpayout]
  have hp : 0 ≤ c * purchaseRatio := Int.mul_nonneg hc hpurchase
  have hq : 0 ≤ c * payoutRatio := Int.mul_nonneg hc hpayout
  refine ⟨truncateInt_nonneg hp, truncateInt_nonneg hq, ?_⟩
  refine Int.le_of_mul_le_mul_right (a := Dec.one) ?_ (by decide)
  have hp' := truncateInt_mul_one_le hp
  have hq' := truncateInt_mul_one_le hq
  calc (Dec.truncateInt (c * payoutRatio) + Dec.truncateInt (c * purchaseRatio)) * Dec.one
      = Dec.truncateInt (c * payoutRatio) * Dec.one +
          Dec.truncateInt (c * purchaseRatio) * Dec.one := by ring
    _ ≤ c * payoutRatio + c * purchaseRatio := by omega
    _ = c * (purchaseRatio + payoutRatio) := by ring
    _ ≤ c * Dec.one := Int.mul_le_mul_of_nonneg_left hratios hc

lemma reimbursementShare_in_range (totalPurchased totalPayout : Int) {c : Int} (hc : 0 ≤ c) :
    (reimbursementShare purchaseRatio payoutRatio c totalPurchased totalPayout).1 +
      (reimbursementShare purchaseRatio payoutRatio c totalPurchased totalPayout).2 ≤ c := by
  have hparts := proportionalPart_add_le hpurchase hpayout hratios hc
  unfold proportionalPart at hparts
  unfold reimbursementShare
  dsimp only
  split_ifs <;> omega

/-- With shield left after the providers before, and more to pay than the provider's part, the
provider backs as much as it can and pays its part or one more. -/
lemma reimbursementShare_eq {c totalShield backed totalPayout : Int} (hc : 0 ≤ c)
    (hpart : proportionalPart payoutRatio c < totalPayout) :
    reimbursementShare purchaseRatio payoutRatio c (max (totalShield - backed) 0) totalPayout =
      (min (backedPart purchaseRatio payoutRatio c) (max (totalShield - backed) 0),
        proportionalPart payoutRatio c +
          if CanPayOneMore purchaseRatio payoutRatio totalShield c backed then 1 else 0) := by
  have hparts := proportionalPart_add_le hpurchase hpayout hratios hc
  have hneed : backedPart purchaseRatio payoutRatio c =
      if proportionalPart payoutRatio c + proportionalPart purchaseRatio c < c then
        proportionalPart purchaseRatio c + 1
      else proportionalPart purchaseRatio c := rfl
  have hmore : CanPayOneMore purchaseRatio payoutRatio totalShield c backed ↔
      proportionalPart payoutRatio c + proportionalPart purchaseRatio c + 2 ≤ c ∨
        0 < backedPart purchaseRatio payoutRatio c ∧
          totalShield < backed + backedPart purchaseRatio payoutRatio c := Iff.rfl
  have hleft : (max (totalShield - backed) 0 < backedPart purchaseRatio payoutRatio c) ↔
      0 < backedPart purchaseRatio payoutRatio c ∧
        totalShield < backed + backedPart purchaseRatio payoutRatio c := by
    omega
  rw [← hleft] at hmore
  unfold reimbursementShare
  simp only [← proportionalPart.eq_def, min_eq_left hpart.le, hmore]
  generalize max (totalShield - backed) 0 = left
  generalize proportionalPart payoutRatio c = a at *
  generalize proportionalPart purchaseRatio c = b at *
  generalize backedPart purchaseRatio payoutRatio c = need at *
  have hbacked : (if min b left < left ∧ a + min b left < c then min b left + 1 else min b left) =
      min need left := by
    split_ifs at hneed ⊢ <;> omega
  rw [hbacked]
  refine Prod.ext rfl ?_
  split_ifs at hneed ⊢ <;> omega

lemma payableBy_nonneg (totalShield : Int) (cs : List Int) (hcs : ∀ c ∈ cs, 0 ≤ c)
    (backed : Int) : 0 ≤ payableBy purchaseRatio payoutRatio totalShield cs backed := by
  induction cs generalizing backed with
  | nil => exact le_rfl
  | cons c cs ih =>
    have hparts := proportionalPart_add_le hpurchase hpayout hratios (hcs c mem_cons_self)
    have hrest := ih (fun d hd => hcs d (mem_cons_of_mem c hd))
      (backed + backedPart purchaseRatio payoutRatio c)
    unfold payableBy
    split_ifs <;> omega

/-- The loop pays all it is asked for, or all that the providers can pay. -/
lemma payoutShares_sum (totalShield : Int) (cs : List Int) (hcs : ∀ c ∈ cs, 0 ≤ c)
    (backed : Int) {totalPayout : Int} (hpay : 0 ≤ totalPayout) :
    ((payoutShares purchaseRatio payoutRatio cs (max (totalShield - backed) 0)
      totalPayout).map Prod.snd).sum =
        min totalPayout (payableBy purchaseRatio payoutRatio totalShield cs backed) := by
  induction cs generalizing backed totalPayout with
  | nil => simp [payoutShares, payableBy, hpay]
  | cons c cs ih =>
    have hc : 0 ≤ c := hcs c mem_cons_self
    have hrest : ∀ d ∈ cs, 0 ≤ d := fun d hd => hcs d (mem_cons_of_mem c hd)
    have hparts := proportionalPart_add_le hpurchase hpayout hratios hc
    have hroom := payableBy_nonneg hpurchase hpayout hratios totalShield cs hrest
      (backed + backedPart purchaseRatio payoutRatio c)
    unfold payoutShares payableBy
    split
    · rw [map_cons, sum_cons]
      by_cases hlast : totalPayout ≤ proportionalPart payoutRatio c
      · -- The provider's part covers all that is left, and the loop stops.
        have hall : (reimbursementShare purchaseRatio payoutRatio c
            (max (totalShield - backed) 0) totalPayout).2 = totalPayout := by
          unfold proportionalPart at hlast
          unfold reimbursementShare
          dsimp only
          split_ifs <;> omega
        have hstop : ∀ p : Int, payoutShares purchaseRatio payoutRatio cs p 0 = [] := by
          intro p
          cases cs <;> simp [payoutShares]
        rw [hall, sub_self, hstop, map_nil, sum_nil]
        split_ifs <;> omega
      · have hneed : 0 ≤ backedPart purchaseRatio payoutRatio c := by
          unfold backedPart
          split_ifs <;> omega
        rw [reimbursementShare_eq hpurchase hpayout hratios hc (not_le.mp hlast)]
        have hnext : max (totalShield - backed) 0 -
            min (backedPart purchaseRatio payoutRatio c) (max (totalShield - backed) 0) =
            max (totalShield - (backed + backedPart purchaseRatio payoutRatio c)) 0 := by
          omega
        rw [hnext, ih hrest _ (by split_ifs <;> omega)]
        split_ifs <;> omega
    · have hzero : totalPayout = 0 := by omega
      rw [hzero, map_nil, sum_nil]
      split_ifs <;> omega

lemma payoutShares_in_range (cs : List Int) (hcs : ∀ c ∈ cs, 0 ≤ c)
    {totalPurchased totalPayout : Int} (htp : 0 ≤ totalPurchased) (hpay : 0 ≤ totalPayout) :
    ∀ x ∈ cs.zip (payoutShares purchaseRatio payoutRatio cs totalPurchased totalPayout),
      0 ≤ x.2.2 ∧ x.2.1 + x.2.2 ≤ x.1 := by
  induction cs generalizing totalPurchased totalPayout with
  | nil => simp
  | cons c cs ih =>
    have hc : 0 ≤ c := hcs c mem_cons_self
    unfold payoutShares
    split
    · obtain ⟨h1, h2, h3, h4⟩ := reimbursementShare_bounds hpurchase hpayout hc htp hpay
      intro x hx
      rcases mem_cons.mp hx with rfl | hx
      · exact ⟨h3, reimbursementShare_in_range hpurchase hpayout hratios _ _ hc⟩
      · exact ih (fun d hd => hcs d (mem_cons_of_mem c hd)) (by omega) (by omega) x hx
    · simp

end Shares

/-- The loop over the providers of a reimbursement, with the ratios that the code computes. -/
def reimbursementLoop (k : Keepers σ) (ctx : Ctx) (s : ShieldState σ) (amount : Int) :
    Except Fault (Int × CollateralBook × σ) :=
  payProviders k s.params.pool ctx
    (Dec.quo (Dec.ofInt s.cover.totalShield) (Dec.ofInt s.collateral.totalCollateral))
    (Dec.quo (Dec.ofInt amount) (Dec.ofInt s.collateral.totalCollateral))
    s.collateral.getAllProviders s.cover.totalShield amount s.collateral s.world

/-- Once the loop over the providers has ended, the reimbursement is created if nothing is left
unpaid, and otherwise the check after the loop panics. -/
lemma createReimbursement_of_loop {k : Keepers σ} {ctx : Ctx} {s : ShieldState σ} {coins : Coins}
    {r : Int × CollateralBook × σ} (proposalID : Nat) (beneficiary : AccAddress)
    (htotal : s.collateral.totalCollateral ≠ 0)
    (hloop : reimbursementLoop k ctx s (coins.amountOf k.bondDenom) = .ok r) :
    (∃ s', createReimbursement k ctx s proposalID coins beneficiary = .ok s') ↔ r.1 ≤ 0 := by
  have hne : Dec.ofInt s.collateral.totalCollateral ≠ 0 := Int.mul_ne_zero htotal (by decide)
  simp only [createReimbursement, decQuo, if_neg hne, run_eq_ok, Except.ok.injEq,
    exists_eq_left']
  rw [← not_lt]
  constructor
  · rintro ⟨s', r', hr', hunpaid, -⟩
    cases hr'.symm.trans hloop
    exact hunpaid
  · intro hunpaid
    exact ⟨_, r, hloop, hunpaid, rfl⟩

/-- A loss that the collateral covers beside the sold shield is split exactly if and only if
it is within what the providers can pay with their truncated and raised parts. Once all providers
have paid, the reimbursement is created in exactly these cases. -/
theorem exactPayout_iff {collaterals : List Int} {totalShield amount : Int}
    (hcollaterals : ∀ c ∈ collaterals, 0 ≤ c) (hpositive : 0 < collaterals.sum)
    (hshield : 0 ≤ totalShield) (hamount : 0 < amount)
    (hcovered : totalShield + amount ≤ collaterals.sum) :
    (ExactPayout collaterals totalShield amount ↔
      amount ≤ payoutRoom collaterals totalShield amount) ∧
    ∀ (k : Keepers σ) (ctx : Ctx) (s : ShieldState σ) (proposalID : Nat) (coins : Coins)
      (beneficiary : AccAddress), coins.amountOf k.bondDenom = amount →
      s.collateral.getAllProviders.map Provider.collateral = collaterals →
      s.collateral.totalCollateral = collaterals.sum → s.cover.totalShield = totalShield →
      (∃ r, reimbursementLoop k ctx s amount = .ok r) →
      ((∃ s', createReimbursement k ctx s proposalID coins beneficiary = .ok s') ↔
        ExactPayout collaterals totalShield amount) := by
  have hofInt : ∀ {x : Int}, 0 ≤ x → 0 ≤ Dec.quo (Dec.ofInt x) (Dec.ofInt collaterals.sum) :=
    fun hx => quo_nonneg (ofInt_nonneg hx) (ofInt_nonneg hpositive.le)
  have hratios : Dec.quo (Dec.ofInt totalShield) (Dec.ofInt collaterals.sum) +
      Dec.quo (Dec.ofInt amount) (Dec.ofInt collaterals.sum) ≤ Dec.one := by
    refine quo_add_quo_le_one (ofInt_nonneg hshield) (ofInt_nonneg hamount.le)
      (Int.mul_pos hpositive (by decide)) ?_
    unfold Dec.ofInt
    rw [← Int.add_mul]
    exact Int.mul_le_mul_of_nonneg_right hcovered (by decide)
  have hsum := payoutShares_sum (hofInt hshield) (hofInt hamount.le) hratios totalShield
    collaterals hcollaterals 0 hamount.le
  rw [sub_zero, max_eq_left hshield] at hsum
  have hrange := payoutShares_in_range (hofInt hshield) (hofInt hamount.le) hratios
    collaterals hcollaterals hshield hamount.le
  have hexact : ExactPayout collaterals totalShield amount ↔
      amount ≤ payoutRoom collaterals totalShield amount := by
    unfold ExactPayout payoutRoom
    dsimp only
    rw [hsum, min_eq_left_iff]
    exact and_iff_right hrange
  refine ⟨hexact, ?_⟩
  rintro k ctx s proposalID coins beneficiary rfl rfl htotal rfl ⟨⟨unpaid, b', world'⟩, hloop⟩
  have hunpaid := payProviders_unpaid _ hloop
  rw [htotal, hsum] at hunpaid
  rw [createReimbursement_of_loop proposalID beneficiary (htotal ▸ hpositive.ne') hloop, hexact]
  unfold payoutRoom
  omega

theorem exactPayout_four_six : ExactPayout [4, 6] 5 5 :=
  (exactPayout_iff (σ := Ledger) (by decide) (by decide) (by decide) (by decide)
    (by decide)).1.mpr (by decide)

/-- Providers with the given collaterals, none of it withdrawing, in a world that can pay. -/
def providersWith (totalShield : Int) : ShieldState Ledger :=
  let state := ShieldState.empty shortPeriodParams Ledger.funded
  let providers := collaterals.zipIdx.map (fun (c, i) =>
    { Provider.new i with delegationBonded := 100, collateral := c })
  { state with
    collateral := { state.collateral with
      providers := providers.foldl Table.set Table.empty
      totalCollateral := collaterals.sum }
    cover := { state.cover with totalShield := totalShield } }

/-- Five providers of one unit each back the sold shield of five and leave the sixth, with
five units, to pay only three of the loss of five: the payout panics. -/
theorem exactPayout_falls_short :
    (∀ c ∈ [(1 : Int), 1, 1, 1, 1, 5], 0 ≤ c) ∧ [(1 : Int), 1, 1, 1, 1, 5].sum = 10 ∧
      (5 : Int) + 5 ≤ 10 ∧ ¬ ExactPayout [1, 1, 1, 1, 1, 5] 5 5 ∧
      (providersWith [1, 1, 1, 1, 1, 5] 5).collateral.getAllProviders.map Provider.collateral =
        [1, 1, 1, 1, 1, 5] ∧
      failure (createReimbursement ledgerKeepers ⟨50, 200⟩ (providersWith [1, 1, 1, 1, 1, 5] 5) 1
        [⟨microCTKDenom, 5⟩] 2) = some (.panic .notEnoughPayout) := by
  decide +kernel

end Shentu
