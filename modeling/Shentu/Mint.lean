import Shentu.Lib.DecCoins
import Shentu.Lib.Runs

/-!
The mint module. The begin blocker mints the provision of a block and divides it: a part for the
community pool and a part for the shield rewards, by the shares of these pools in the staking
tokens, and the rest for the fee collector.
-/

namespace Shentu.Mint

open Lib Dec

variable {σ : Type}

inductive Fault
  | negativeCoinAmount
  | divisionByZero
  /-- An error of another keeper, on which the begin blocker panics. -/
  | external
  deriving DecidableEq

/-- What the begin blocker uses of the other modules. The recalculation of the minter gives the
coin of the block. -/
structure Keepers (σ : Type) where
  bondDenom : Denom
  nextProvision : σ → σ × Coin
  stakingTokenSupply : σ → Int
  communityPool : σ → DecCoins
  globalShieldStakingPool : σ → Int
  mintCoins : σ → Coins → Option σ
  addCollectedFees : σ → Coins → Option σ
  fundCommunityPool : σ → Coins → Option σ
  fundShieldBlockRewards : σ → Coins → Option σ

/-- The parts of a provision. -/
structure Parts where
  communityPool : Coins
  shieldRewards : Coins
  collectedFees : Coins
  deriving DecidableEq

variable (k : Keepers σ) (w : σ)

def quo (a b : Int) : Except Fault Int :=
  if b = 0 then .error .divisionByZero else .ok (Dec.quo a b)

def getCommunityPoolRatio : Except Fault Int :=
  match (k.communityPool w).coins.get k.bondDenom with
  | some coin => quo coin.amount (Dec.ofInt (k.stakingTokenSupply w))
  | none => .ok 0

def getShieldStakeForShieldPoolRatio : Except Fault Int :=
  quo (Dec.ofInt (k.globalShieldStakingPool w)) (Dec.ofInt (k.stakingTokenSupply w))

/-- The coin is kept when its amount is zero. -/
def getPoolMint (ratio : Int) (mintedCoin : Coin) : Except Fault Coins := do
  let amount := Dec.truncateInt (Dec.mulInt ratio mintedCoin.amount)
  failIf (amount < 0) .negativeCoinAmount
  return [⟨k.bondDenom, amount⟩]

def split (mintedCoin : Coin) : Except Fault Parts := do
  let communityPoolRatio ← getCommunityPoolRatio k w
  let communityPoolCoins ← getPoolMint k communityPoolRatio mintedCoin
  let shieldStakeForShieldPoolRatio ← getShieldStakeForShieldPoolRatio k w
  let sppCoins ← getPoolMint k shieldStakeForShieldPoolRatio mintedCoin
  let rest ← orFail ((Coins.ofAmount mintedCoin.denom mintedCoin.amount).sub communityPoolCoins)
    .negativeCoinAmount
  let collectedFeesCoins ← orFail (rest.sub sppCoins) .negativeCoinAmount
  return ⟨communityPoolCoins, sppCoins, collectedFeesCoins⟩

/-- Nothing is sent when the amount in the bond denomination is zero. -/
def sendUnlessZero (send : σ → Coins → Option σ) (w : σ) (amount : Coins) : Option σ :=
  if amount.amountOf k.bondDenom = 0 then some w else send w amount

def send (parts : Parts) : Except Fault σ := do
  let w ← orFail (k.addCollectedFees w parts.collectedFees) .external
  let w ← orFail (sendUnlessZero k k.fundCommunityPool w parts.communityPool) .external
  orFail (sendUnlessZero k k.fundShieldBlockRewards w parts.shieldRewards) .external

def beginBlocker : Except Fault σ := do
  let (w, mintedCoin) := k.nextProvision w
  failIf (mintedCoin.amount < 0) .negativeCoinAmount
  let w ← orFail (k.mintCoins w (Coins.ofAmount mintedCoin.denom mintedCoin.amount)) .external
  let parts ← split k w mintedCoin
  send k w parts

variable {k} {w}

lemma ofAmount_sub (d : Denom) {a b : Int} (h : b ≤ a) :
    (Coins.ofAmount d a).sub [⟨d, b⟩] = some (Coins.ofAmount d (a - b)) := by
  have hadd : (Coins.ofAmount d a).add [⟨d, -b⟩] = Coins.ofAmount d (a - b) := by
    by_cases ha : a = 0 <;> by_cases hab : a - b = 0 <;>
      simp_all [Coins.ofAmount, Coins.add, Coins.merge, sub_eq_add_neg]
  unfold Coins.sub Coins.negative
  rw [List.map_singleton, hadd]
  by_cases hab : a - b = 0 <;> simp_all [Coins.ofAmount, Coins.isAnyNegative]

/-- Shares of at most the whole take at most the whole of an amount. -/
lemma parts_le {r r' m : Int} (hr : 0 ≤ r) (hr' : 0 ≤ r') (hm : 0 ≤ m) (h : r + r' ≤ Dec.one) :
    Dec.truncateInt (Dec.mulInt r m) + Dec.truncateInt (Dec.mulInt r' m) ≤ m := by
  have hpart := truncateInt_mul_one_le (Int.mul_nonneg hr hm)
  have hpart' := truncateInt_mul_one_le (Int.mul_nonneg hr' hm)
  refine Int.le_of_mul_le_mul_right ?_ (show 0 < Dec.one by decide)
  calc (Dec.truncateInt (r * m) + Dec.truncateInt (r' * m)) * Dec.one
      = Dec.truncateInt (r * m) * Dec.one + Dec.truncateInt (r' * m) * Dec.one := by ring
    _ ≤ (r + r') * m := by linarith
    _ ≤ Dec.one * m := Int.mul_le_mul_of_nonneg_right h hm
    _ = m * Dec.one := by ring

lemma getCommunityPoolRatio_eq (hsupply : 0 < k.stakingTokenSupply w) :
    getCommunityPoolRatio k w = .ok (Dec.quo ((k.communityPool w).amountOf k.bondDenom)
      (Dec.ofInt (k.stakingTokenSupply w))) := by
  have hne : Dec.ofInt (k.stakingTokenSupply w) ≠ 0 := (Int.mul_pos hsupply (by decide)).ne'
  unfold getCommunityPoolRatio DecCoins.amountOf
  cases hget : (k.communityPool w).coins.get k.bondDenom with
  | some coin => exact (if_neg hne).trans (by rw [Table.valueAt_of_get hget])
  | none => rw [Table.valueAt_of_get_none hget, zero_quo]

lemma getPoolMint_eq {r : Int} {c : Coin} (hr : 0 ≤ r) (hc : 0 ≤ c.amount) :
    getPoolMint k r c = .ok [⟨k.bondDenom, Dec.truncateInt (Dec.mulInt r c.amount)⟩] := by
  simp only [getPoolMint, run_eq_ok, and_true]
  exact (truncateInt_nonneg (Int.mul_nonneg hr hc)).not_gt

/-- The begin blocker sends three parts that are not negative and sum up to the minted coin,
whenever the two pools hold no more than the staking tokens once the coin is minted. -/
theorem beginBlocker_splits {w₀ w₁ w : σ} {m : Int}
    (hnext : k.nextProvision w₀ = (w₁, ⟨k.bondDenom, m⟩)) (hm : 0 ≤ m)
    (hmint : k.mintCoins w₁ (Coins.ofAmount k.bondDenom m) = some w)
    (hsupply : 0 < k.stakingTokenSupply w)
    (hpool : 0 ≤ (k.communityPool w).amountOf k.bondDenom)
    (hshield : 0 ≤ k.globalShieldStakingPool w)
    (hsum : (k.communityPool w).amountOf k.bondDenom + Dec.ofInt (k.globalShieldStakingPool w) ≤
      Dec.ofInt (k.stakingTokenSupply w)) :
    ∃ x y z, 0 ≤ x ∧ 0 ≤ y ∧ 0 ≤ z ∧ x + y + z = m ∧ beginBlocker k w₀ =
      send k w ⟨[⟨k.bondDenom, x⟩], [⟨k.bondDenom, y⟩], Coins.ofAmount k.bondDenom z⟩ := by
  have hsupply' : 0 < Dec.ofInt (k.stakingTokenSupply w) := Int.mul_pos hsupply (by decide)
  have hr := quo_nonneg hpool hsupply'.le
  have hr' := quo_nonneg (ofInt_nonneg hshield) hsupply'.le
  have hle := parts_le hr hr' hm
    (quo_add_quo_le_one hpool (ofInt_nonneg hshield) hsupply' hsum)
  have hratio := getCommunityPoolRatio_eq hsupply
  have hratio' : getShieldStakeForShieldPoolRatio k w = .ok _ := if_neg hsupply'.ne'
  generalize Dec.quo _ _ = r at hratio hr hle
  generalize Dec.quo _ _ = r' at hratio' hr' hle
  have hx := truncateInt_nonneg (Int.mul_nonneg hr hm)
  have hy := truncateInt_nonneg (Int.mul_nonneg hr' hm)
  have hpart := getPoolMint_eq (k := k) (c := ⟨k.bondDenom, m⟩) hr hm
  have hpart' := getPoolMint_eq (k := k) (c := ⟨k.bondDenom, m⟩) hr' hm
  unfold Dec.mulInt at hle hpart hpart'
  generalize Dec.truncateInt (r * m) = x at *
  generalize Dec.truncateInt (r' * m) = y at *
  refine ⟨x, y, m - x - y, hx, hy, by omega, by ring, ?_⟩
  have hsplit : split k w ⟨k.bondDenom, m⟩ =
      .ok ⟨[⟨k.bondDenom, x⟩], [⟨k.bondDenom, y⟩], Coins.ofAmount k.bondDenom (m - x - y)⟩ := by
    simp only [split, run_eq_ok]
    exact ⟨r, hratio, _, hpart, r', hratio', _, hpart', _, ofAmount_sub _ (by omega), _,
      ofAmount_sub _ (by omega), rfl⟩
  unfold beginBlocker failIf
  rw [hnext]
  dsimp only
  rw [if_neg hm.not_gt, hmint]
  exact congrArg (fun parts => parts >>= send k w) hsplit

/-- Two pools with the whole supply share 7 coins. -/
def evenKeepers : Keepers Unit where
  bondDenom := "uctk"
  nextProvision w := (w, ⟨"uctk", 7⟩)
  stakingTokenSupply _ := 2
  communityPool _ := ⟨Table.empty.set ⟨"uctk", Dec.one⟩, by decide⟩
  globalShieldStakingPool _ := 1
  mintCoins w _ := some w
  addCollectedFees w _ := some w
  fundCommunityPool w _ := some w
  fundShieldBlockRewards w _ := some w

theorem beginBlocker_splits_seven :
    ∃ x y z : Int, 0 ≤ x ∧ 0 ≤ y ∧ 0 ≤ z ∧ x + y + z = 7 ∧ beginBlocker evenKeepers () =
      send evenKeepers () ⟨[⟨"uctk", x⟩], [⟨"uctk", y⟩], Coins.ofAmount "uctk" z⟩ :=
  beginBlocker_splits (k := evenKeepers) rfl (by decide) rfl (by decide) (by decide) (by decide)
    (by decide)

end Shentu.Mint
