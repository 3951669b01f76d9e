import Shentu.Auth.VestingInvariant
import Shentu.Shield.Payout

/-!
What a payout unlocks. The coins that it takes from the delegated vesting coins of an account are
to be unlocked, as far as they still vest. The two amounts are compared as coin lists, and where the
comparison fails everything that vests is unlocked, in all denominations.
-/

namespace Shentu.Auth

open Lib Lib.Coins Bank Bank.Accounts Option List

variable {v v' : ManualVesting} {vesting drop : Coins} {bond : Denom} {x taken : Int}

/-- The part of an undelegated amount that comes out of the delegated vesting coins. -/
def takenFromVesting (v : ManualVesting) (bond : Denom) (x : Int) : Int :=
  min (v.delegatedVesting.amountOf bond) (x - min (v.delegatedFree.amountOf bond) x)

/-- A record unlocks what left its delegated vesting coins, as far as it still vests. -/
def UnlocksTaken (bond : Denom) (v v' : ManualVesting) : Prop :=
  v'.vestedCoins.amountOf bond = v.vestedCoins.amountOf bond +
      min (v.delegatedVesting.amountOf bond - v'.delegatedVesting.amountOf bond)
        (v.originalVesting.amountOf bond - v.vestedCoins.amountOf bond) ∧
    (∀ d, d ≠ bond → v'.vestedCoins.amountOf d = v.vestedCoins.amountOf d) ∧
    ∀ d, v'.vestedCoins.amountOf d ≤ v'.originalVesting.amountOf d

/-- A payout takes nothing or less than what vests, or no other denomination vests. -/
def UnlocksOneDenom (v : ManualVesting) (bond : Denom) (x : Int) : Prop :=
  takenFromVesting v bond x = 0 ∨
    takenFromVesting v bond x <
      v.originalVesting.amountOf bond - v.vestedCoins.amountOf bond ∨
    ∀ d, d ≠ bond → v.vestedCoins.amountOf d = v.originalVesting.amountOf d

lemma trackUndelegation_taken (hfree : Tidy v.delegatedFree) (hdelegated : Tidy v.delegatedVesting)
    (h : v.trackUndelegation [⟨bond, x⟩] = some v') :
    Tidy v'.delegatedVesting ∧ SameVesting v v' ∧ 0 ≤ takenFromVesting v bond x ∧
      ∀ d, v'.delegatedVesting.amountOf d = v.delegatedVesting.amountOf d -
        if bond = d then takenFromVesting v bond x else 0 := by
  have hcoin : v.trackUndelegationCoin ⟨bond, x⟩ = some v' := by
    simpa [ManualVesting.trackUndelegation] using h
  obtain ⟨-, htidy, hsame, -⟩ := trackUndelegationCoin_keeps hfree hdelegated hcoin
  unfold ManualVesting.trackUndelegationCoin at hcoin
  split at hcoin
  · cases hcoin
  · simp only [bind_eq_bind, bind_eq_some_iff] at hcoin
    obtain ⟨df, -, dv, hdv, heq⟩ := hcoin
    cases heq
    obtain ⟨-, hnonneg, hamount⟩ := debitCoin_spec hdelegated hdv
    exact ⟨htidy, hsame, hnonneg, hamount⟩

/-- The comparison of the lists, for a drop in one denomination. -/
lemma isAllGT_drop (htidy : Tidy drop) (hpos : pos drop)
    (hdrop : ∀ d, drop.amountOf d = if bond = d then taken else 0) :
    vesting.isAllGT drop = true ↔ vesting ≠ [] ∧ (taken = 0 ∨ taken < vesting.amountOf bond) := by
  have hmem : ∀ c ∈ drop, c.denom = bond ∧ c.amount = taken := by
    intro c hc
    have hamount := hdrop c.denom
    rw [htidy.amountOf_of_mem hc] at hamount
    have hcpos := hpos c hc
    split at hamount
    · rename_i heq
      exact ⟨heq.symm, hamount⟩
    · omega
  cases vesting with
  | nil => simp [isAllGT]
  | cons c0 cs0 =>
    by_cases hne : drop = []
    · subst hne
      have hzero := hdrop bond
      rw [amountOf_nil, if_pos rfl] at hzero
      simp [isAllGT, hzero.symm]
    · obtain ⟨c, rfl⟩ := eq_singleton_of_denoms htidy.1 hne (fun c hc => (hmem c hc).1)
      obtain ⟨hdenom, hamount⟩ := hmem c mem_cons_self
      have hcpos := hpos c mem_cons_self
      constructor
      · intro h
        have hlt : c.amount < amountOf (c0 :: cs0) c.denom := by
          simp only [isAllGT, all_cons, all_nil, Bool.and_true, Bool.and_eq_true,
            decide_eq_true_eq] at h
          exact h.2
        rw [hdenom, hamount] at hlt
        exact ⟨cons_ne_nil _ _, .inr hlt⟩
      · rintro ⟨-, hzero | hlt⟩
        · omega
        · apply isAllGT_singleton hcpos.le
          rwa [hdenom, hamount]

lemma undelegateToShield_iff (hfree : Tidy v.delegatedFree) (hdelegated : Tidy v.delegatedVesting)
    (horiginal : Tidy v.originalVesting) (hvested : Tidy v.vestedCoins)
    (hle : ∀ d, v.vestedCoins.amountOf d ≤ v.originalVesting.amountOf d)
    (h : v.undelegateToShield [⟨bond, x⟩] = some v') :
    UnlocksTaken bond v v' ↔ UnlocksOneDenom v bond x := by
  simp only [ManualVesting.undelegateToShield, bind_eq_bind, bind_eq_some_iff] at h
  obtain ⟨updated, htrack, drop, hdrop, vesting, hvesting, heq⟩ := h
  obtain ⟨hupdated, ⟨hsame, hsame'⟩, htaken, hamount⟩ :=
    trackUndelegation_taken hfree hdelegated htrack
  rw [hsame, hsame'] at hvesting
  have hrest := horiginal.amountOf_sub hvested hvesting
  have hrestTidy := horiginal.sub hvested hvesting
  have hdropTidy := hdelegated.sub hupdated hdrop
  have hdropAmount : ∀ d, drop.amountOf d = if bond = d then takenFromVesting v bond x else 0 := by
    intro d
    rw [hdelegated.amountOf_sub hupdated hdrop, hamount]
    omega
  have hall : vesting.isAllGT drop = true ↔ _ :=
    isAllGT_drop hdropTidy (pos_sub hdrop) hdropAmount
  have hbond := hamount bond
  have hleBond := hle bond
  rw [if_pos rfl] at hbond
  unfold UnlocksTaken UnlocksOneDenom
  simp only [Option.pure_def, Option.some.injEq] at heq
  subst heq
  by_cases hcompare : vesting.isAllGT drop = true
  · -- the drop is unlocked, and the comparison has shown that it still vests
    have hsmall := (hall.mp hcompare).2
    rw [hrest bond] at hsmall
    simp only [if_pos hcompare, hsame, hsame', hvested.amountOf_add hdropTidy, hdropAmount, hbond]
    refine iff_of_true ⟨by simp; omega, ?_, ?_⟩ (by tauto)
    · intro d hd
      simp [hd.symm]
    · intro d
      have hd := hle d
      split
      · rename_i heq
        subst heq
        omega
      · omega
  · -- everything that vests is unlocked
    simp only [if_neg hcompare, hsame, hsame', hvested.amountOf_add hrestTidy, hrest, hbond]
    rw [hall, not_and_or, not_not, not_or, hrest bond] at hcompare
    constructor
    · rintro ⟨-, hothers, -⟩
      refine .inr (.inr ?_)
      intro d hd
      have := hothers d hd
      omega
    · intro hone
      have hnone : ∀ d, d ≠ bond → v.vestedCoins.amountOf d = v.originalVesting.amountOf d := by
        rcases hcompare with hnil | ⟨hzero, hmany⟩
        · intro d _
          have hd := hrest d
          rw [hnil, amountOf_nil] at hd
          omega
        · exact (hone.resolve_left hzero).resolve_left hmany
      have hmin : v.originalVesting.amountOf bond - v.vestedCoins.amountOf bond ≤
          takenFromVesting v bond x := by
        rcases hcompare with hnil | ⟨-, hmany⟩
        · have hd := hrest bond
          rw [hnil, amountOf_nil] at hd
          omega
        · omega
      refine ⟨by omega, ?_, fun d => by omega⟩
      intro d hd
      have := hnone d hd
      omega

/-- A payout unlocks what it takes if and only if it leaves some of the bond denomination vesting,
takes nothing from it, or nothing else vests. -/
theorem payout_unlocks_iff {bank : BankKeeper} {accounts accounts' : Accounts}
    {senderModule shieldModule delAddr : Address} (hget : vestingOf accounts delAddr = some v)
    (hfree : Tidy v.delegatedFree) (hdelegated : Tidy v.delegatedVesting)
    (horiginal : Tidy v.originalVesting) (hvested : Tidy v.vestedCoins)
    (hle : ∀ d, v.vestedCoins.amountOf d ≤ v.originalVesting.amountOf d)
    (h : undelegateFromAccountToShieldModule bank accounts senderModule shieldModule delAddr
      [⟨bond, x⟩] = .ok accounts') :
    (∃ v', vestingOf accounts' delAddr = some v' ∧ UnlocksTaken bond v v') ↔
      UnlocksOneDenom v bond x := by
  simp only [undelegateFromAccountToShieldModule, run_eq_ok] at h
  obtain ⟨acc, hacc, acc', htrack, hsend⟩ := h
  have hvesting : acc.vesting = some v := (vestingOf_of_get hacc).symm.trans hget
  unfold trackVesting at htrack
  rw [hvesting] at htrack
  simp only [run_eq_ok] at htrack
  obtain ⟨v', hpaid, rfl⟩ := htrack
  have hafter : vestingOf accounts' delAddr = some v' := by
    rw [bank.vesting_send hsend, vestingOf_set, if_pos (Table.key_of_get hacc).symm]
  rw [← undelegateToShield_iff hfree hdelegated horiginal hvested hle hpaid]
  constructor
  · rintro ⟨v₁, hv₁, hunlocks⟩
    cases hafter.symm.trans hv₁
    exact hunlocks
  · exact fun hunlocks => ⟨v', hafter, hunlocks⟩

section Keepers

variable {σ : Type} {bank : BankKeeper} {k : Keepers σ} {accounts : σ → Accounts}
  {moduleAddress : ModuleName → Address}

/-- The account part of a payout. -/
def trackPayout (accounts : Accounts) (delAddr : Address) (amt : Coins) :
    Except AccountFault Accounts := do
  let acc ← orFail (accounts.get delAddr) .unknownAddress
  let acc ← trackVesting acc (fun v => v.undelegateToShield amt)
  return accounts.set acc

variable (bank k accounts moduleAddress) in
/-- The account and supply keepers of the shield module, over the accounts of a world. -/
structure OnAccounts : Prop where
  track : ∀ w a amt, (k.trackUndelegation w a amt).map accounts =
    (trackPayout (accounts w) a amt).toOption
  send : ∀ w m m' amt, (k.sendCoinsFromModuleToModule w m m' amt).map accounts =
    (bank.sendCoins (accounts w) (moduleAddress m) (moduleAddress m') amt).toOption

/-- What the shield module asks of its keepers for a payout is the payout from an account. -/
lemma OnAccounts.payout (h : OnAccounts bank k accounts moduleAddress) (w : σ) (m : ModuleName)
    (delAddr : AccAddress) (amt : Coins) :
    (Shentu.undelegateFromAccountToShieldModule k w m delAddr amt).toOption.map accounts =
      (undelegateFromAccountToShieldModule bank (accounts w) (moduleAddress m)
        (moduleAddress .shield) delAddr amt).toOption := by
  have hsplit : undelegateFromAccountToShieldModule bank (accounts w) (moduleAddress m)
      (moduleAddress .shield) delAddr amt = trackPayout (accounts w) delAddr amt >>= fun tracked =>
        bank.sendCoins tracked (moduleAddress m) (moduleAddress .shield) amt := by
    simp [undelegateFromAccountToShieldModule, trackPayout]
  have htrack := h.track w delAddr amt
  rw [hsplit]
  unfold Shentu.undelegateFromAccountToShieldModule
  cases hw : k.trackUndelegation w delAddr amt <;>
    cases ht : trackPayout (accounts w) delAddr amt <;> rw [hw, ht] at htrack <;> cases htrack
  · rfl
  · rename_i w1
    refine Eq.trans ?_ (h.send w1 m .shield amt)
    show (orFail _ _).toOption.map accounts = _
    cases k.sendCoinsFromModuleToModule w1 m .shield amt <;> rfl

end Keepers

/-- Keepers for a world that consists of the accounts. -/
def accountKeepers (bank : BankKeeper) (moduleAddress : ModuleName → Address) : Keepers Accounts :=
  { idleKeepers Accounts with
    trackUndelegation accounts a amt := (trackPayout accounts a amt).toOption
    sendCoinsFromModuleToModule accounts m m' amt :=
      (bank.sendCoins accounts (moduleAddress m) (moduleAddress m') amt).toOption }

lemma accountKeepers_onAccounts (bank : BankKeeper) (moduleAddress : ModuleName → Address) :
    OnAccounts bank (accountKeepers bank moduleAddress) id moduleAddress :=
  ⟨fun _ _ _ => Option.map_id', fun _ _ _ _ => Option.map_id'⟩

/-- An account where 50 atoms and 100 of the bond denomination vest, all of which is delegated. -/
def twoDenomVesting : ManualVesting :=
  ⟨[⟨"atom", 50⟩, ⟨microCTKDenom, 100⟩], [], [⟨microCTKDenom, 100⟩], [], 3⟩

/-- The account, and a staking pool that holds its delegation. -/
def twoDenomAccounts : Accounts :=
  (Table.empty.set { Account.new 2 with vesting := some twoDenomVesting }).set
    { Account.new 5 with coins := .single microCTKDenom 100 }

lemma twoDenomVesting_le (d : Denom) :
    twoDenomVesting.vestedCoins.amountOf d ≤ twoDenomVesting.originalVesting.amountOf d :=
  (Tidy.of_isValid (by decide)).amountOf_nonneg d

/-- A payout of 40 unlocks 40. -/
theorem payout_unlocks_forty :
    ∃ accounts', undelegateFromAccountToShieldModule sdkBank twoDenomAccounts 5 6 2
        [⟨microCTKDenom, 40⟩] = .ok accounts' ∧
      ∃ v', vestingOf accounts' 2 = some v' ∧ UnlocksTaken microCTKDenom twoDenomVesting v' := by
  obtain ⟨accounts', hok, -⟩ := OkAnd.exists (show OkAnd (undelegateFromAccountToShieldModule
    sdkBank twoDenomAccounts 5 6 2 [⟨microCTKDenom, 40⟩]) (fun _ => True) from by decide +kernel)
  refine ⟨accounts', hok, (payout_unlocks_iff (by decide +kernel) .nil (.of_isValid (by decide))
    (.of_isValid (by decide)) .nil twoDenomVesting_le hok).mpr ?_⟩
  exact .inr (.inl (by decide +kernel))

/-- A payout of all 100 unlocks the 50 atoms too. -/
theorem payout_unlocks_other_denom :
    ∃ accounts', undelegateFromAccountToShieldModule sdkBank twoDenomAccounts 5 6 2
        [⟨microCTKDenom, 100⟩] = .ok accounts' ∧
      ∃ v' ∈ vestingOf accounts' 2, v'.vestedCoins = [⟨"atom", 50⟩, ⟨microCTKDenom, 100⟩] := by
  apply OkAnd.exists
  decide +kernel

end Shentu.Auth
