import Shentu.Lib.Table
import Shentu.Lib.TidyCoins

/-!
The accounts of the auth module. A manual vesting account holds coins that its unlocker has not
released yet; what it can spend is computed from its coins, those that still vest and those it has
delegated. The four coin lists of its vesting record are not checked when they are stored, so they
are plain coin lists; the coins of an account are checked.
-/

namespace Shentu.Auth

open Lib

/-- The twenty bytes of an address, read as a number. -/
abbrev Address := Nat

structure ManualVesting where
  originalVesting : Coins
  delegatedFree : Coins
  delegatedVesting : Coins
  vestedCoins : Coins
  unlocker : Address
  deriving DecidableEq

structure Account where
  address : Address
  coins : Purse
  sequence : Nat
  /-- What a manual vesting account has in addition. -/
  vesting : Option ManualVesting
  deriving DecidableEq

def Account.new (a : Address) : Account := ⟨a, .empty, 0, none⟩

/-- Add a new coin to a list, unless it is zero. A negative coin is a panic. -/
def creditCoin (cs : Coins) (d : Denom) (amount : Int) : Option Coins :=
  if amount = 0 then some cs
  else if amount < 0 then none
  else some (cs.add [⟨d, amount⟩])

/-- Take a new coin from a list, unless it is zero. A negative coin or a negative difference is a
panic. -/
def debitCoin (cs : Coins) (d : Denom) (amount : Int) : Option Coins :=
  if amount = 0 then some cs
  else if amount < 0 then none
  else cs.sub [⟨d, amount⟩]

namespace ManualVesting

variable (v : ManualVesting)

def getVestedCoins : Coins :=
  if v.vestedCoins.isZero = true then [] else v.vestedCoins

/-- The coins that still vest. More vested coins than original ones are a panic. -/
def getVestingCoins : Option Coins := v.originalVesting.sub v.getVestedCoins

/-- The part of a delegated coin that is taken from the vesting coins. -/
def delegatedFromVesting (vestingCoins : Coins) (c : Coin) : Int :=
  min (max (vestingCoins.amountOf c.denom - v.delegatedVesting.amountOf c.denom) 0) c.amount

/-- Track one coin of a delegation from the coins of the account. -/
def trackDelegationCoin (coins vestingCoins : Coins) (v : ManualVesting) (c : Coin) :
    Option ManualVesting :=
  if c.amount = 0 ∨ coins.amountOf c.denom < c.amount then none
  else do
    let x := v.delegatedFromVesting vestingCoins c
    let delegatedVesting ← creditCoin v.delegatedVesting c.denom x
    let delegatedFree ← creditCoin v.delegatedFree c.denom (c.amount - x)
    return { v with delegatedVesting, delegatedFree }

def trackDelegation (coins : Coins) (v : ManualVesting) (amount : Coins) :
    Option ManualVesting := do
  let vestingCoins ← v.getVestingCoins
  amount.foldlM (trackDelegationCoin coins vestingCoins) v

/-- Track one coin of an undelegation: the coins that were free come back first. -/
def trackUndelegationCoin (c : Coin) : Option ManualVesting :=
  if c.amount = 0 then none
  else do
    let x := min (v.delegatedFree.amountOf c.denom) c.amount
    let y := min (v.delegatedVesting.amountOf c.denom) (c.amount - x)
    let delegatedFree ← debitCoin v.delegatedFree c.denom x
    let delegatedVesting ← debitCoin v.delegatedVesting c.denom y
    return { v with delegatedFree, delegatedVesting }

def trackUndelegation (amount : Coins) : Option ManualVesting :=
  amount.foldlM trackUndelegationCoin v

end ManualVesting

/-- The spendable amount of a coin of an account: delegations are taken from the vesting coins. -/
def spendableAmount (delegatedVesting vestingCoins : Coins) (c : Coin) : Int :=
  min (c.amount + delegatedVesting.amountOf c.denom - vestingCoins.amountOf c.denom) c.amount

/-- The spendable coins of a vesting account. A negative amount is a panic. -/
def spendableCoinsVestingAccount (coins : Purse) (delegatedVesting vestingCoins : Coins) :
    Option Purse :=
  coins.1.foldlM (fun spendable c =>
    if spendableAmount delegatedVesting vestingCoins c < 0 then none
    else some (spendable.add
      (.single c.denom (spendableAmount delegatedVesting vestingCoins c).toNat))) .empty

def Account.spendableCoins (acc : Account) : Option Purse :=
  match acc.vesting with
  | none => some acc.coins
  | some v => do
    let vestingCoins ← v.getVestingCoins
    spendableCoinsVestingAccount acc.coins v.delegatedVesting vestingCoins

end Shentu.Auth
