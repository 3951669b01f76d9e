import Shentu.Auth.VestingSteps

/-!
What holds of a vesting record in every denomination: the vested coins are not negative and within
the original vesting, and the delegated vesting coins are within what still vests. The handler of
an unlock compares whole coin lists and does not look at the signs of the amount, so it keeps this
only for valid amounts that release the delegated coins in all denominations or in none.
-/

namespace Shentu.Auth

open Lib Lib.Coins Bank Bank.Accounts Option List Coins Function

lemma creditCoin_spec {cs cs' : Coins} {d : Denom} {x : Int} (hcs : Tidy cs)
    (h : creditCoin cs d x = some cs') :
    Tidy cs' ∧ 0 ≤ x ∧ ∀ d', cs'.amountOf d' = cs.amountOf d' + if d = d' then x else 0 := by
  unfold creditCoin at h
  split at h
  · rename_i hzero
    cases h
    refine ⟨hcs, hzero.ge, ?_⟩
    intro d'
    simp [hzero]
  · split at h
    · cases h
    · rename_i hneg
      cases h
      have hcoin : Tidy [⟨d, x⟩] := .singleton (not_lt.mp hneg)
      refine ⟨hcs.add hcoin, not_lt.mp hneg, ?_⟩
      intro d'
      rw [hcs.amountOf_add hcoin, amountOf_singleton]

lemma debitCoin_spec {cs cs' : Coins} {d : Denom} {x : Int} (hcs : Tidy cs)
    (h : debitCoin cs d x = some cs') :
    Tidy cs' ∧ 0 ≤ x ∧ ∀ d', cs'.amountOf d' = cs.amountOf d' - if d = d' then x else 0 := by
  unfold debitCoin at h
  split at h
  · rename_i hzero
    cases h
    refine ⟨hcs, hzero.ge, ?_⟩
    intro d'
    simp [hzero]
  · split at h
    · cases h
    · rename_i hneg
      have hcoin : Tidy [⟨d, x⟩] := .singleton (not_lt.mp hneg)
      refine ⟨hcs.sub hcoin h, not_lt.mp hneg, ?_⟩
      intro d'
      rw [hcs.amountOf_sub hcoin h, amountOf_singleton]

/-- The invariant of a vesting record. -/
structure VestingSound (v : ManualVesting) : Prop where
  original : Tidy v.originalVesting
  free : Tidy v.delegatedFree
  delegated : Tidy v.delegatedVesting
  vested : Tidy v.vestedCoins
  vested_le : ∀ d, v.vestedCoins.amountOf d ≤ v.originalVesting.amountOf d
  delegated_le : ∀ d, v.delegatedVesting.amountOf d ≤
    v.originalVesting.amountOf d - v.vestedCoins.amountOf d

/-- What an action must not do to a vesting record: lower its vested coins. -/
def VestedGrows (v v' : ManualVesting) : Prop :=
  ∀ d, v.vestedCoins.amountOf d ≤ v'.vestedCoins.amountOf d

/-- The two records differ in the delegated coins only. -/
def SameVesting (v v' : ManualVesting) : Prop :=
  v'.originalVesting = v.originalVesting ∧ v'.vestedCoins = v.vestedCoins

/-- Everything that delegation tracking keeps, with the coins that vest. -/
structure Tracked (vesting : Coins) (v : ManualVesting) : Prop where
  free : Tidy v.delegatedFree
  delegated : Tidy v.delegatedVesting
  delegated_le : ∀ d, v.delegatedVesting.amountOf d ≤ vesting.amountOf d

variable {vesting amt : Coins} {v v' : ManualVesting} {accounts : Accounts}

lemma trackDelegationCoin_keeps {coins : Coins} {c : Coin} (hv : Tracked vesting v)
    (h : ManualVesting.trackDelegationCoin coins vesting v c = some v') :
    Tracked vesting v' ∧ SameVesting v v' := by
  unfold ManualVesting.trackDelegationCoin at h
  split at h
  · cases h
  · simp only [bind_eq_bind, bind_eq_some_iff] at h
    obtain ⟨dv, hdv, df, hdf, heq⟩ := h
    cases heq
    obtain ⟨hdvTidy, hx, hdvAmount⟩ := creditCoin_spec hv.delegated hdv
    obtain ⟨hdfTidy, -, -⟩ := creditCoin_spec hv.free hdf
    refine ⟨⟨hdfTidy, hdvTidy, ?_⟩, rfl, rfl⟩
    intro d
    have hle := hv.delegated_le d
    rw [hdvAmount d]
    split
    · rename_i hd
      unfold ManualVesting.delegatedFromVesting
      rw [hd]
      omega
    · omega

lemma amountOf_getVestingCoins (hv : VestingSound v) (h : v.getVestingCoins = some vesting)
    (d : Denom) : vesting.amountOf d = v.originalVesting.amountOf d - v.vestedCoins.amountOf d := by
  unfold ManualVesting.getVestingCoins ManualVesting.getVestedCoins at h
  split at h
  · rename_i hzero
    have hvested : v.vestedCoins.amountOf d = 0 := by
      rw [amountOf_eq_lookup hv.vested.1]
      unfold Coins.lookup
      split
      · rename_i c hc
        exact of_decide_eq_true (all_eq_true.mp hzero c (mem_of_find?_eq_some hc))
      · rfl
    rw [hv.original.amountOf_sub Tidy.nil h, hvested, amountOf_nil]
  · exact hv.original.amountOf_sub hv.vested h d

lemma tracked_of_sound (hv : VestingSound v)
    (h : ∀ d, vesting.amountOf d = v.originalVesting.amountOf d - v.vestedCoins.amountOf d) :
    Tracked vesting v := by
  refine ⟨hv.free, hv.delegated, ?_⟩
  intro d
  rw [h d]
  exact hv.delegated_le d

lemma sound_of_tracked (hv : VestingSound v)
    (h : ∀ d, vesting.amountOf d = v.originalVesting.amountOf d - v.vestedCoins.amountOf d)
    (hsame : SameVesting v v') (htracked : Tracked vesting v') : VestingSound v' := by
  obtain ⟨horiginal, hvested⟩ := hsame
  refine ⟨horiginal ▸ hv.original, htracked.free, htracked.delegated, hvested ▸ hv.vested, ?_, ?_⟩
  · rw [horiginal, hvested]
    exact hv.vested_le
  · intro d
    rw [horiginal, hvested, ← h d]
    exact htracked.delegated_le d

lemma trackDelegation_sound {coins : Coins} (hv : VestingSound v)
    (h : v.trackDelegation coins amt = some v') : VestingSound v' ∧ SameVesting v v' := by
  simp only [ManualVesting.trackDelegation, bind_eq_bind, bind_eq_some_iff] at h
  obtain ⟨vesting, hvesting, hfold⟩ := h
  have hamount := amountOf_getVestingCoins hv hvesting
  have hkept : Tracked vesting v' ∧ SameVesting v v' := by
    refine foldlM_some_invariant (P := fun w => Tracked vesting w ∧ SameVesting v w) ?_
      ⟨tracked_of_sound hv hamount, rfl, rfl⟩ hfold
    rintro c w w' ⟨hw, hsame⟩ hstep
    obtain ⟨hw', hsame'⟩ := trackDelegationCoin_keeps hw hstep
    exact ⟨hw', hsame'.1.trans hsame.1, hsame'.2.trans hsame.2⟩
  exact ⟨sound_of_tracked hv hamount hkept.2 hkept.1, hkept.2⟩

lemma trackUndelegationCoin_keeps {c : Coin} (hfree : Tidy v.delegatedFree)
    (hdelegated : Tidy v.delegatedVesting) (h : v.trackUndelegationCoin c = some v') :
    Tidy v'.delegatedFree ∧ Tidy v'.delegatedVesting ∧ SameVesting v v' ∧
      ∀ d, v'.delegatedVesting.amountOf d ≤ v.delegatedVesting.amountOf d := by
  unfold ManualVesting.trackUndelegationCoin at h
  split at h
  · cases h
  · simp only [bind_eq_bind, bind_eq_some_iff] at h
    obtain ⟨df, hdf, dv, hdv, heq⟩ := h
    cases heq
    obtain ⟨hdfTidy, -, -⟩ := debitCoin_spec hfree hdf
    obtain ⟨hdvTidy, hy, hamount⟩ := debitCoin_spec hdelegated hdv
    refine ⟨hdfTidy, hdvTidy, ⟨rfl, rfl⟩, ?_⟩
    intro d
    rw [hamount d]
    split
    · omega
    · omega

lemma trackUndelegation_keeps (hv : VestingSound v) (h : v.trackUndelegation amt = some v') :
    VestingSound v' ∧ SameVesting v v' ∧
      ∀ d, v'.delegatedVesting.amountOf d ≤ v.delegatedVesting.amountOf d := by
  have hkept : Tidy v'.delegatedFree ∧ Tidy v'.delegatedVesting ∧ SameVesting v v' ∧
      ∀ d, v'.delegatedVesting.amountOf d ≤ v.delegatedVesting.amountOf d := by
    refine foldlM_some_invariant (P := fun w => Tidy w.delegatedFree ∧ Tidy w.delegatedVesting ∧
      SameVesting v w ∧ ∀ d, w.delegatedVesting.amountOf d ≤ v.delegatedVesting.amountOf d) ?_
      ⟨hv.free, hv.delegated, ⟨rfl, rfl⟩, fun d => le_rfl⟩ h
    rintro c w w' ⟨hfree, hdelegated, hsame, hle⟩ hstep
    obtain ⟨hfree', hdelegated', hsame', hle'⟩ :=
      trackUndelegationCoin_keeps hfree hdelegated hstep
    refine ⟨hfree', hdelegated', ⟨hsame'.1.trans hsame.1, hsame'.2.trans hsame.2⟩, ?_⟩
    exact fun d => (hle' d).trans (hle d)
  obtain ⟨hfree, hdelegated, ⟨horiginal, hvested⟩, hle⟩ := hkept
  refine ⟨⟨horiginal ▸ hv.original, hfree, hdelegated, hvested ▸ hv.vested, ?_, ?_⟩,
    ⟨horiginal, hvested⟩, hle⟩
  · rw [horiginal, hvested]
    exact hv.vested_le
  · intro d
    rw [horiginal, hvested]
    exact (hle d).trans (hv.delegated_le d)

/-- An unlock releases the delegated coins as it should: none of them is above what vests after it,
or the whole list is. -/
def UnlockFits (v : ManualVesting) (amount : Coins) : Prop :=
  (∀ c ∈ v.delegatedVesting, c.amount + (v.vestedCoins.add amount).amountOf c.denom ≤
    v.originalVesting.amountOf c.denom) ∨
  ∃ vesting ∈ v.originalVesting.sub (v.vestedCoins.add amount),
    v.delegatedVesting.isAllGT vesting = true

/-- The amount of delegated coins, free or not. -/
def delegatedAmount (v : ManualVesting) (d : Denom) : Int :=
  v.delegatedFree.amountOf d + v.delegatedVesting.amountOf d

lemma releaseDelegated_spec (horiginal : Tidy v.originalVesting)
    (hvested : Tidy v.vestedCoins) (hfree : Tidy v.delegatedFree)
    (hdelegated : Tidy v.delegatedVesting) (h : v.releaseDelegated = some v') :
    SameVesting v v' ∧ Tidy v'.delegatedFree ∧ Tidy v'.delegatedVesting ∧
      (∀ d, delegatedAmount v' d = delegatedAmount v d) ∧
      ∃ vesting, v.originalVesting.sub v.vestedCoins = some vesting ∧
        if v.delegatedVesting.isAllGT vesting = true then
          ∀ d, v'.delegatedVesting.amountOf d = vesting.amountOf d
        else v'.delegatedVesting = v.delegatedVesting := by
  simp only [ManualVesting.releaseDelegated, bind_eq_bind, bind_eq_some_iff] at h
  obtain ⟨vesting, hvesting, h⟩ := h
  have hvestingTidy := horiginal.sub hvested hvesting
  split at h
  · rename_i hall
    simp only [bind_eq_some_iff] at h
    obtain ⟨unlocked, hunlocked, rest, hrest, heq⟩ := h
    cases heq
    have hunlockedTidy := hdelegated.sub hvestingTidy hunlocked
    have hrestAmount : ∀ d, rest.amountOf d = vesting.amountOf d := by
      intro d
      rw [hdelegated.amountOf_sub hunlockedTidy hrest, hdelegated.amountOf_sub hvestingTidy
        hunlocked]
      omega
    refine ⟨⟨rfl, rfl⟩, hfree.add hunlockedTidy, hdelegated.sub hunlockedTidy hrest, ?_,
      vesting, hvesting, ?_⟩
    · intro d
      unfold delegatedAmount
      rw [hfree.amountOf_add hunlockedTidy, hrestAmount d,
        hdelegated.amountOf_sub hvestingTidy hunlocked]
      omega
    · rw [if_pos hall]
      exact hrestAmount
  · rename_i hall
    cases h
    refine ⟨⟨rfl, rfl⟩, hfree, hdelegated, fun _ => rfl, vesting, hvesting, ?_⟩
    rw [if_neg hall]

lemma unlock_sound {height : Nat} {amount : Coins} (hv : VestingSound v)
    (hheight : update1Height ≤ height) (hvalid : amount.isValid) (hfits : UnlockFits v amount)
    (h : v.unlock height amount = .ok v') :
    VestingSound v' ∧ VestedGrows v v' ∧ ∀ d, delegatedAmount v' d = delegatedAmount v d := by
  simp only [ManualVesting.unlock, bind_eq_ok, if_pos hheight, orFail_eq_ok] at h
  obtain ⟨_, -, hrelease⟩ := h
  have hamount := Tidy.of_isValid hvalid
  have hvestedTidy := hv.vested.add hamount
  obtain ⟨⟨horiginal, hvested⟩, hfree, hdelegated, hsum, vesting, hvesting, hcases⟩ :=
    releaseDelegated_spec (v := { v with vestedCoins := v.vestedCoins.add amount }) hv.original
      hvestedTidy hv.free hv.delegated hrelease
  dsimp only at horiginal hvested hvesting hcases
  have hvestingTidy := hv.original.sub hvestedTidy hvesting
  have hrest : ∀ d, vesting.amountOf d =
      v.originalVesting.amountOf d - (v.vestedCoins.add amount).amountOf d :=
    fun d => hv.original.amountOf_sub hvestedTidy hvesting d
  have hgrows : ∀ d, v.vestedCoins.amountOf d ≤ (v.vestedCoins.add amount).amountOf d := by
    intro d
    rw [hv.vested.amountOf_add hamount]
    have hnonneg := hamount.amountOf_nonneg d
    omega
  have hdelegated_le : ∀ d, v'.delegatedVesting.amountOf d ≤ vesting.amountOf d := by
    intro d
    split at hcases
    · exact (hcases d).le
    · rename_i hall
      rw [hcases]
      rcases hfits with hnone | ⟨vesting', hvesting', hall'⟩
      · by_cases hpos : 0 < v.delegatedVesting.amountOf d
        · obtain ⟨c, hc, hd, hcamount⟩ := hv.delegated.exists_mem hpos
          have hle := hnone c hc
          rw [hd] at hle
          rw [hrest d]
          omega
        · have hnonneg := hvestingTidy.amountOf_nonneg d
          omega
      · cases hvesting.symm.trans hvesting'
        exact absurd hall' hall
  refine ⟨⟨?_, hfree, hdelegated, ?_, ?_, ?_⟩, ?_, hsum⟩
  · exact horiginal ▸ hv.original
  · exact hvested ▸ hvestedTidy
  · intro d
    have hnonneg := hvestingTidy.amountOf_nonneg d
    rw [hrest d] at hnonneg
    rw [horiginal, hvested]
    omega
  · intro d
    rw [horiginal, hvested, ← hrest d]
    exact hdelegated_le d
  · intro d
    rw [hvested]
    exact hgrows d

/-- A payout takes coins of the denomination of all delegated vesting coins. -/
def PayoutFits (v : ManualVesting) (amt : Coins) : Prop :=
  ∀ c ∈ amt, ∀ c' ∈ v.delegatedVesting, c'.denom = c.denom

/-- If a payout unlocks everything that vests, it has taken all delegated vesting coins. -/
lemma delegated_all_taken {updated : ManualVesting} {drop : Coins}
    (hv : VestingSound v) (hfits : PayoutFits v amt)
    (htrack : v.trackUndelegation amt = some updated)
    (hvestingTidy : Tidy vesting)
    (hvesting : ∀ d, v.delegatedVesting.amountOf d ≤ vesting.amountOf d)
    (hdrop : v.delegatedVesting.sub updated.delegatedVesting = some drop)
    (hall : ¬ vesting.isAllGT drop = true) (d : Denom) :
    updated.delegatedVesting.amountOf d ≤ 0 := by
  obtain ⟨hupdated, -, hle⟩ := trackUndelegation_keeps hv htrack
  have hdropTidy := hv.delegated.sub hupdated.delegated hdrop
  have hdropAmount := hv.delegated.amountOf_sub hupdated.delegated hdrop
  by_contra hleft
  have hd := hle d
  have hvestingd := hvesting d
  obtain ⟨held, hheld, hheldDenom, -⟩ := hv.delegated.exists_mem (d := d) (by omega)
  have hne : drop ≠ [] := by
    rintro rfl
    cases vesting with
    | nil =>
      rw [amountOf_nil] at hvestingd
      omega
    | cons c cs => exact hall rfl
  have hamt : ∃ c0, c0 ∈ amt := by
    cases amt with
    | nil =>
      cases htrack
      obtain ⟨c, cs, rfl⟩ := exists_cons_of_ne_nil hne
      have hzero := hdropAmount c.denom
      rw [hdropTidy.amountOf_of_mem mem_cons_self] at hzero
      have hpos := pos_sub hdrop c mem_cons_self
      omega
    | cons c cs => exact ⟨c, mem_cons_self⟩
  obtain ⟨c0, hc0⟩ := hamt
  have hdenoms : ∀ c ∈ drop, c.denom = d := by
    intro c hc
    have hpos := pos_sub hdrop c hc
    have hamount := hdropAmount c.denom
    rw [hdropTidy.amountOf_of_mem hc] at hamount
    have hnonneg := hupdated.delegated.amountOf_nonneg c.denom
    obtain ⟨c', hc', hdenom, -⟩ := hv.delegated.exists_mem (d := c.denom) (by omega)
    rw [← hdenom, hfits c0 hc0 c' hc', ← hfits c0 hc0 held hheld, hheldDenom]
  obtain ⟨c, rfl⟩ := eq_singleton_of_denoms hdropTidy.1 hne hdenoms
  have hcd := hdenoms c mem_cons_self
  have hpos := pos_sub hdrop c mem_cons_self
  have hamount := hdropAmount d
  rw [← hcd, hdropTidy.amountOf_of_mem mem_cons_self, hcd] at hamount
  refine hall (isAllGT_singleton hpos.le ?_)
  rw [hcd]
  omega

lemma undelegateToShield_sound (hv : VestingSound v) (hfits : PayoutFits v amt)
    (h : v.undelegateToShield amt = some v') : VestingSound v' ∧ VestedGrows v v' := by
  simp only [ManualVesting.undelegateToShield, bind_eq_bind, bind_eq_some_iff] at h
  obtain ⟨updated, htrack, drop, hdrop, vesting, hvesting, heq⟩ := h
  obtain ⟨hupdated, ⟨horiginal, hvested⟩, hle⟩ := trackUndelegation_keeps hv htrack
  have hvestingTidy := hupdated.original.sub hupdated.vested hvesting
  have hvestingAmount := hupdated.original.amountOf_sub hupdated.vested hvesting
  have hdropTidy := hv.delegated.sub hupdated.delegated hdrop
  have hdropAmount := hv.delegated.amountOf_sub hupdated.delegated hdrop
  have hbefore : ∀ d, v.delegatedVesting.amountOf d ≤ vesting.amountOf d := by
    intro d
    rw [hvestingAmount d, horiginal, hvested]
    exact hv.delegated_le d
  -- what is unlocked is tidy, within what vests, and leaves room for what stays delegated
  have hunlock : ∃ unlocked, Tidy unlocked ∧ v' = { updated with
      vestedCoins := updated.vestedCoins.add unlocked } ∧ ∀ d,
      unlocked.amountOf d ≤ vesting.amountOf d ∧
      updated.delegatedVesting.amountOf d + unlocked.amountOf d ≤ vesting.amountOf d := by
    split at heq
    · cases heq
      refine ⟨drop, hdropTidy, rfl, ?_⟩
      intro d
      have hd := hdropAmount d
      have hled := hbefore d
      have hnonneg := hupdated.delegated.amountOf_nonneg d
      omega
    · rename_i hall
      cases heq
      refine ⟨vesting, hvestingTidy, rfl, ?_⟩
      intro d
      have htaken := delegated_all_taken hv hfits htrack hvestingTidy hbefore hdrop hall d
      omega
  obtain ⟨unlocked, hunlocked, rfl, hroom⟩ := hunlock
  have hadd := hupdated.vested.amountOf_add hunlocked
  refine ⟨⟨hupdated.original, hupdated.free, hupdated.delegated, hupdated.vested.add hunlocked,
    ?_, ?_⟩, ?_⟩
  · intro d
    have hrest := hvestingAmount d
    have hd := hroom d
    show (updated.vestedCoins.add unlocked).amountOf d ≤ updated.originalVesting.amountOf d
    rw [hadd d]
    omega
  · intro d
    have hrest := hvestingAmount d
    have hd := hroom d
    show updated.delegatedVesting.amountOf d ≤
      updated.originalVesting.amountOf d - (updated.vestedCoins.add unlocked).amountOf d
    rw [hadd d]
    omega
  · intro d
    have hnonneg := hunlocked.amountOf_nonneg d
    rw [hadd d, hvested]
    omega

/-- The condition on an action: an unlock after the first update has a valid amount and releases
the delegated coins as it should, a payout takes coins of the delegated denomination. -/
def VestingSafe (accounts : Accounts) : VestingAction → Prop
  | .unlock height msg => update1Height ≤ height ∧ msg.unlockAmount.isValid ∧
      ∀ v ∈ vestingOf accounts msg.account, UnlockFits v msg.unlockAmount
  | .payout _ _ delAddr amt => ∀ v ∈ vestingOf accounts delAddr, PayoutFits v amt
  | _ => True

instance (v : ManualVesting) (amount : Coins) : Decidable (UnlockFits v amount) :=
  inferInstanceAs (Decidable ((∀ c ∈ v.delegatedVesting, _) ∨ ∃ vesting ∈ Coins.sub _ _, _))

instance (v : ManualVesting) (amt : Coins) : Decidable (PayoutFits v amt) :=
  inferInstanceAs (Decidable (∀ c ∈ amt, ∀ c' ∈ v.delegatedVesting, c'.denom = c.denom))

instance (accounts : Accounts) : ∀ action, Decidable (VestingSafe accounts action)
  | .lockedSend _ | .delegate .. | .undelegate .. => isTrue trivial
  | .unlock _ msg => inferInstanceAs (Decidable (_ ∧ msg.unlockAmount.isValid ∧ ∀ v ∈ _, _))
  | .payout _ _ _ amt => inferInstanceAs (Decidable (∀ v ∈ _, PayoutFits v amt))

def AllSound (accounts : Accounts) : Prop := ∀ a, ∀ v ∈ vestingOf accounts a, VestingSound v

/-- What a move makes of a sound record, if it meets the condition. -/
lemma vestingMove_sound {action : VestingAction} (hsafe : VestingSafe accounts action)
    (hsound : ∀ v ∈ vestingOf accounts action.target, VestingSound v)
    (hmove : VestingMove action (vestingOf accounts action.target) v') :
    VestingSound v' ∧ ∀ v ∈ vestingOf accounts action.target, VestedGrows v v' ∧
      ∀ height msg, action = .unlock height msg →
        ∀ d, delegatedAmount v' d = delegatedAmount v d := by
  generalize hbefore : vestingOf accounts action.target = before at hmove hsound
  cases hmove with
  | created hvalid =>
    have hamount := Tidy.nil.add (Tidy.of_isValid hvalid)
    refine ⟨⟨hamount, Tidy.nil, Tidy.nil, Tidy.nil, ?_, ?_⟩, fun _ h => nomatch h⟩
    · exact fun d => hamount.amountOf_nonneg d
    · intro d
      have hnonneg := hamount.amountOf_nonneg d
      show 0 ≤ Coins.amountOf _ d - 0
      rw [sub_zero]
      exact hnonneg
  | @locked msg v hvalid =>
    have hv := hsound v rfl
    have hamount := Tidy.of_isValid hvalid
    have hadd := hv.original.amountOf_add hamount
    refine ⟨⟨hv.original.add hamount, hv.free, hv.delegated, hv.vested, ?_, ?_⟩, ?_⟩
    · intro d
      have hle := hv.vested_le d
      have hnonneg := hamount.amountOf_nonneg d
      show v.vestedCoins.amountOf d ≤ (v.originalVesting.add msg.amount).amountOf d
      rw [hadd d]
      omega
    · intro d
      have hle := hv.delegated_le d
      have hnonneg := hamount.amountOf_nonneg d
      show v.delegatedVesting.amountOf d ≤
        (v.originalVesting.add msg.amount).amountOf d - v.vestedCoins.amountOf d
      rw [hadd d]
      omega
    · intro w hw
      cases hw
      exact ⟨fun _ => le_rfl, fun _ _ h => nomatch h⟩
  | @unlocked height msg v v' h =>
    obtain ⟨hheight, hvalid, hfits⟩ := hsafe
    obtain ⟨hv', hgrows, hsum⟩ := unlock_sound (hsound v rfl) hheight hvalid (hfits v hbefore) h
    refine ⟨hv', ?_⟩
    intro w hw
    cases hw
    exact ⟨hgrows, fun _ _ _ => hsum⟩
  | @delegated a m amt coins v v' h =>
    obtain ⟨hv', hsame⟩ := trackDelegation_sound (hsound v rfl) h
    refine ⟨hv', ?_⟩
    intro w hw
    cases hw
    exact ⟨fun d => (congrArg (fun cs => Coins.amountOf cs d) hsame.2).ge, fun _ _ h => nomatch h⟩
  | @undelegated m a amt v v' h =>
    obtain ⟨hv', hsame, -⟩ := trackUndelegation_keeps (hsound v rfl) h
    refine ⟨hv', ?_⟩
    intro w hw
    cases hw
    exact ⟨fun d => (congrArg (fun cs => Coins.amountOf cs d) hsame.2).ge, fun _ _ h => nomatch h⟩
  | @paid m sm a amt v v' h =>
    obtain ⟨hv', hgrows⟩ := undelegateToShield_sound (hsound v rfl) (hsafe v hbefore) h
    refine ⟨hv', ?_⟩
    intro w hw
    cases hw
    exact ⟨hgrows, fun _ _ h => nomatch h⟩

/-- The claims about one vesting record in all denominations. -/
def WithinVesting (v : ManualVesting) : Prop :=
  ∀ d, 0 ≤ v.vestedCoins.amountOf d ∧ v.vestedCoins.amountOf d ≤ v.originalVesting.amountOf d ∧
    v.delegatedVesting.amountOf d ≤ v.originalVesting.amountOf d - v.vestedCoins.amountOf d

/-- What a step does to a record that is there before it: it stays, its vested coins do not go down,
and an unlock moves its delegated coins only between the free and the vesting ones. -/
def StepKeeps (action : VestingAction) (accounts accounts' : Accounts) : Prop :=
  ∀ a, ∀ v ∈ vestingOf accounts a, ∃ v' ∈ vestingOf accounts' a, VestedGrows v v' ∧
    ∀ height msg, action = .unlock height msg → ∀ d, delegatedAmount v' d = delegatedAmount v d

lemma vestingStep_sound {bank : BankKeeper} {accounts' : Accounts} {action : VestingAction}
    (hsound : AllSound accounts) (hsafe : VestingSafe accounts action)
    (h : vestingStep bank accounts action = .ok accounts') :
    AllSound accounts' ∧ StepKeeps action accounts accounts' := by
  rcases vestingStep_moves h with hkept | ⟨v', hmove, hupdate⟩
  · constructor
    · intro a v hv
      rw [hkept] at hv
      exact hsound a v hv
    · intro a v hv
      exact ⟨v, hkept ▸ hv, fun _ => le_rfl, fun _ _ _ _ => rfl⟩
  · obtain ⟨hv', hkeeps⟩ := vestingMove_sound hsafe (hsound _) hmove
    constructor
    · intro a v hv
      rw [hupdate, update_apply] at hv
      split at hv
      · cases hv
        exact hv'
      · exact hsound a v hv
    · intro a v hv
      rw [hupdate]
      by_cases ha : a = action.target
      · subst ha
        refine ⟨v', ?_, hkeeps v hv⟩
        rw [update_self]
        rfl
      · refine ⟨v, ?_, fun _ => le_rfl, fun _ _ _ _ => rfl⟩
        rw [update_of_ne ha]
        exact hv

/-- In a run whose steps all meet the condition, every record is within its vesting in every state,
and every step keeps the records. -/
theorem vesting_run_keeps {bank : BankKeeper} {accounts before after : Accounts}
    {actions : List VestingAction} {action : VestingAction} (hsound : AllSound accounts)
    (hmeets : StepsMeet VestingSafe (vestingStep bank) accounts (actions ++ [action]))
    (hrun : actions.foldlM (vestingStep bank) accounts = .ok before)
    (hstep : vestingStep bank before action = .ok after) :
    (∀ a, ∀ v ∈ vestingOf before a, WithinVesting v) ∧
      (∀ a, ∀ v ∈ vestingOf after a, WithinVesting v) ∧ StepKeeps action before after := by
  have hwithin : ∀ {s : Accounts}, AllSound s → ∀ a, ∀ v ∈ vestingOf s a, WithinVesting v := by
    intro s hs a v hv d
    have hv := hs a v hv
    exact ⟨hv.vested.amountOf_nonneg d, hv.vested_le d, hv.delegated_le d⟩
  obtain ⟨hmeetsBefore, hmeetsLast⟩ := stepsMeet_append.mp hmeets
  have hbefore : AllSound before :=
    foldlM_invariant_of_meets (fun a s s' hs hsafe hs' => (vestingStep_sound hs hsafe hs').1) hsound
      hmeetsBefore hrun
  obtain ⟨hafter, hkeeps⟩ := vestingStep_sound hbefore (hmeetsLast before hrun).1 hstep
  exact ⟨hwithin hbefore, hwithin hafter, hkeeps⟩

lemma allSound_of_rows
    (h : ∀ acc ∈ accounts.rows, ∀ v ∈ acc.vesting, VestingSound v) : AllSound accounts := by
  intro a v hv
  obtain ⟨acc, hget, hacc⟩ := bind_eq_some_iff.mp hv
  exact h acc (Table.mem_of_get hget) v hacc

/-- One account with a thousand coins. -/
def senderAccounts : Accounts :=
  Table.empty.set { Account.new 1 with coins := .single microCTKDenom 1000 }

/-- A new vesting account gets a hundred coins, to be unlocked by a third account. -/
def lockHundred : VestingAction := .lockedSend ⟨1, 2, some 3, [⟨microCTKDenom, 100⟩]⟩

def unlockAmount (n : Int) : VestingAction := .unlock 100 ⟨3, 2, [⟨microCTKDenom, n⟩]⟩

theorem vesting_run_keeps_unlock :
    ∃ before after, [lockHundred].foldlM (vestingStep sdkBank) senderAccounts = .ok before ∧
      vestingStep sdkBank before (unlockAmount 40) = .ok after ∧
      (∃ v ∈ vestingOf after 2, v.vestedCoins = [⟨microCTKDenom, 40⟩]) ∧
      ((∀ a, ∀ v ∈ vestingOf before a, WithinVesting v) ∧
        (∀ a, ∀ v ∈ vestingOf after a, WithinVesting v) ∧
        StepKeeps (unlockAmount 40) before after) := by
  obtain ⟨before, hbefore, after, hafter, hvested⟩ : ∃ before,
      [lockHundred].foldlM (vestingStep sdkBank) senderAccounts = .ok before ∧ ∃ after,
        vestingStep sdkBank before (unlockAmount 40) = .ok after ∧
          ∃ v ∈ vestingOf after 2, v.vestedCoins = [⟨microCTKDenom, 40⟩] := by
    obtain ⟨before, hbefore, hrest⟩ := OkAnd.exists (show OkAnd
      ([lockHundred].foldlM (vestingStep sdkBank) senderAccounts) (fun before =>
        OkAnd (vestingStep sdkBank before (unlockAmount 40)) (fun after =>
          ∃ v ∈ vestingOf after 2, v.vestedCoins = [⟨microCTKDenom, 40⟩])) from by decide +kernel)
    exact ⟨before, hbefore, hrest.exists⟩
  refine ⟨before, after, hbefore, hafter, hvested, vesting_run_keeps ?_ ?_ hbefore hafter⟩
  · apply allSound_of_rows
    intro acc hacc v hv
    cases mem_singleton.mp hacc
    cases hv
  · decide +kernel

/-- A negative amount is accepted: the vested coins go down, below zero. -/
theorem vesting_run_not_negative :
    ∃ after, [lockHundred, unlockAmount (-10)].foldlM (vestingStep sdkBank) senderAccounts =
        .ok after ∧
      ∃ v ∈ vestingOf after 2, v.vestedCoins.amountOf microCTKDenom = -10 := by
  apply OkAnd.exists
  decide +kernel

end Shentu.Auth
