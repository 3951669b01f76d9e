import Shentu.Shield.Keepers

/-!
A small world for the shield module to run in, on which runs can be evaluated.
There is one bonded validator, with one share for each token, and every address
has one delegation to it. Balances are kept in the bond denomination only; nothing
is ever unbonding.
-/

namespace Shentu

open Lib Option

structure Ledger where
  staked : AccAddress → Int
  account : AccAddress → Int
  pooled : ModuleName → Int

namespace Ledger

def valAddr : ValAddress := 1000

def validator : Validator :=
  { operatorAddress := valAddr, jailed := false, status := .bonded, tokens := 1000000,
    delegatorShares := Dec.ofInt 1000000, minSelfDelegation := 1 }

def delegation (w : Ledger) (a : AccAddress) : Delegation := ⟨a, valAddr, Dec.ofInt (w.staked a)⟩

def setStaked (w : Ledger) (a : AccAddress) (x : Int) : Ledger :=
  { w with staked := Function.update w.staked a x }

def addAccount (w : Ledger) (a : AccAddress) (x : Int) : Ledger :=
  { w with account := Function.update w.account a (w.account a + x) }

def addPooled (w : Ledger) (m : ModuleName) (x : Int) : Ledger :=
  { w with pooled := Function.update w.pooled m (w.pooled m + x) }

/-- What a transfer of valid coins moves in the bond denomination. -/
def moved (cs : Coins) : Int := cs.amountOf microCTKDenom

def sendFromAccount (w : Ledger) (a : AccAddress) (m : ModuleName) (cs : Coins) : Option Ledger :=
  if Coins.isValid cs ∧ moved cs ≤ w.account a then
    some ((w.addAccount a (-moved cs)).addPooled m (moved cs))
  else none

def sendFromModule (w : Ledger) (m : ModuleName) (a : AccAddress) (cs : Coins) : Option Ledger :=
  if Coins.isValid cs ∧ moved cs ≤ w.pooled m then
    some ((w.addPooled m (-moved cs)).addAccount a (moved cs))
  else none

def sendBetweenModules (w : Ledger) (m m' : ModuleName) (cs : Coins) : Option Ledger :=
  if Coins.isValid cs ∧ moved cs ≤ w.pooled m then
    some ((w.addPooled m (-moved cs)).addPooled m' (moved cs))
  else none

def burn (w : Ledger) (m : ModuleName) (cs : Coins) : Option Ledger :=
  if Coins.isValid cs ∧ moved cs ≤ w.pooled m then some (w.addPooled m (-moved cs)) else none

/-- A world in which every address has 100 delegated and there is enough to pay. -/
def funded : Ledger :=
  { staked := fun _ => 100, account := fun _ => 1000, pooled := fun _ => 1000 }

lemma pooled_addPooled (w : Ledger) (m m' : ModuleName) (x : Int) :
    (w.addPooled m x).pooled m' = w.pooled m' + if m' = m then x else 0 := by
  by_cases h : m' = m
  · subst h
    simp [addPooled]
  · simp [addPooled, h]

variable {w w' : Ledger} {m : ModuleName} {cs : Coins}

lemma pooled_of_sendFromAccount {a : AccAddress} (h : w.sendFromAccount a m cs = some w')
    (m' : ModuleName) : w'.pooled m' = w.pooled m' + if m' = m then moved cs else 0 := by
  obtain ⟨-, heq⟩ := ite_none_right_eq_some.mp h
  cases heq
  exact pooled_addPooled _ m m' _

lemma pooled_of_sendFromModule {a : AccAddress} (h : w.sendFromModule m a cs = some w')
    (m' : ModuleName) : w'.pooled m' = w.pooled m' + if m' = m then -moved cs else 0 := by
  obtain ⟨-, heq⟩ := ite_none_right_eq_some.mp h
  cases heq
  exact pooled_addPooled _ m m' _

lemma pooled_of_sendBetweenModules {m1 m2 : ModuleName}
    (h : w.sendBetweenModules m1 m2 cs = some w') (m' : ModuleName) :
    w'.pooled m' = w.pooled m' + (if m' = m1 then -moved cs else 0) +
      if m' = m2 then moved cs else 0 := by
  obtain ⟨-, heq⟩ := ite_none_right_eq_some.mp h
  cases heq
  rw [pooled_addPooled, pooled_addPooled]

lemma pooled_of_burn (h : w.burn m cs = some w')
    (m' : ModuleName) : w'.pooled m' = w.pooled m' + if m' = m then -moved cs else 0 := by
  obtain ⟨-, heq⟩ := ite_none_right_eq_some.mp h
  cases heq
  exact pooled_addPooled _ m m' _

end Ledger

/-- Parameters with short periods, a fees rate of one tenth and no lower limits. -/
def shortPeriodParams : ShieldParams where
  admin := 7
  pool := { protectionPeriod := 100, shieldFeesRate := 100000000000000000, withdrawPeriod := 100,
            poolShieldLimit := Dec.one, minShieldPurchase := [] }
  claimProposal := { payoutPeriod := 100, minDeposit := [], depositRate := 0 }
  shieldStakingRate := Dec.ofInt 2

lemma shortPeriodParams_validate : shortPeriodParams.validate := by decide +kernel

/-- The keepers of the small world. -/
def ledgerKeepers : Keepers Ledger :=
  { idleKeepers Ledger with
    bondDenom := microCTKDenom
    getAllDelegatorDelegations w a := [w.delegation a]
    getDelegation w a v := if v = Ledger.valAddr then some (w.delegation a) else none
    setDelegation w d := w.setStaked d.delegatorAddress (Dec.truncateInt d.shares)
    removeDelegation w d := w.setStaked d.delegatorAddress 0
    getValidator _ v := if v = Ledger.valAddr then some Ledger.validator else none
    removeValidatorTokensAndShares w v shares := (w, v, Dec.truncateInt shares)
    trackUndelegation w _ _ := some w
    sendCoinsFromAccountToModule := Ledger.sendFromAccount
    sendCoinsFromModuleToAccount := Ledger.sendFromModule
    sendCoinsFromModuleToModule := Ledger.sendBetweenModules
    burnCoins := Ledger.burn }

end Shentu
