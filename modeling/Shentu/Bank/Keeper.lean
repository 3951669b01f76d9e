import Shentu.Auth.Account
import Shentu.Lib.Runs

/-!
The bank keeper, as far as vesting accounts depend on it: its functions are a parameter with laws
about the vesting records. A send leaves the records, and a delegation or undelegation is tracked by
the record of the delegator. The keeper of the SDK, in which coins leave an account only if it can
spend them and a delegation may also take coins that still vest, keeps the laws.
-/

namespace Shentu.Bank

open Lib Auth

abbrev Accounts := Table Account.address

inductive AccountFault
  | unknownAddress
  | invalidCoins
  | insufficientFunds
  | recipientIsUnlocker
  | missingUnlocker
  | notManualVesting
  | unlockerGiven
  | notUnlocker
  | aboveOriginalVesting
  | panic
  deriving DecidableEq

namespace Accounts

variable (accounts : Accounts)

variable (a : Address)

def accountOf : Account :=
  (accounts.get a).getD (Account.new a)

def setCoins (coins : Purse) : Accounts :=
  accounts.set { accounts.accountOf a with coins }

/-- The amount as the coins of an account, if it is a valid coin list. -/
def validCoins (amt : Coins) : Except AccountFault Purse :=
  if h : amt.isValid then .ok (.ofValid amt h) else .error .invalidCoins

def subtractCoins (amt : Coins) : Except AccountFault Accounts := do
  let amt ← validCoins amt
  let spendable ← orFail (accounts.accountOf a).spendableCoins .panic
  let _ ← orFail (spendable.sub amt) .insufficientFunds
  let coins ← orFail ((accounts.accountOf a).coins.sub amt) .panic
  return accounts.setCoins a coins

def addCoins (amt : Coins) : Except AccountFault Accounts := do
  let amt ← validCoins amt
  return accounts.setCoins a ((accounts.accountOf a).coins.add amt)

def sendCoins (fromAddr toAddr : Address) (amt : Coins) : Except AccountFault Accounts := do
  let accounts ← accounts.subtractCoins fromAddr amt
  accounts.addCoins toAddr amt

/-- Replace the vesting record of an account, if it has one. -/
def trackVesting (acc : Account) (track : ManualVesting → Option ManualVesting) :
    Except AccountFault Account :=
  match acc.vesting with
  | none => .ok acc
  | some v => do
    let v ← orFail (track v) .panic
    return { acc with vesting := some v }

def delegateCoins (delegator moduleAcc : Address) (amt : Coins) : Except AccountFault Accounts := do
  let acc ← orFail (accounts.get delegator) .unknownAddress
  let _ ← orFail (accounts.get moduleAcc) .unknownAddress
  let purse ← validCoins amt
  let coins ← orFail (acc.coins.sub purse) .insufficientFunds
  let acc ← trackVesting acc (fun v => v.trackDelegation acc.coins.1 amt)
  addCoins (accounts.set { acc with coins }) moduleAcc amt

def undelegateCoins (moduleAcc delegator : Address) (amt : Coins) :
    Except AccountFault Accounts := do
  let acc ← orFail (accounts.get delegator) .unknownAddress
  let source ← orFail (accounts.get moduleAcc) .unknownAddress
  let purse ← validCoins amt
  let _ ← orFail (source.coins.sub purse) .insufficientFunds
  let accounts ← accounts.subtractCoins moduleAcc amt
  let acc ← trackVesting acc (fun v => v.trackUndelegation amt)
  return accounts.set { acc with coins := acc.coins.add purse }

end Accounts

end Shentu.Bank

namespace Shentu.Auth

open Lib Bank Bank.Accounts Table

/-- The vesting record of an address. -/
def vestingOf (accounts : Accounts) (a : Address) : Option ManualVesting :=
  (accounts.get a).bind Account.vesting

lemma vestingOf_set (accounts : Accounts) (acc : Account) (a : Address) :
    vestingOf (accounts.set acc) a =
      if a = acc.address then acc.vesting else vestingOf accounts a := by
  unfold vestingOf
  rw [get_set]
  split <;> rfl

lemma vesting_accountOf (accounts : Accounts) (a : Address) :
    (accounts.accountOf a).vesting = vestingOf accounts a := by
  unfold accountOf vestingOf
  cases accounts.get a <;> rfl

lemma address_accountOf (accounts : Accounts) (a : Address) :
    (accounts.accountOf a).address = a := by
  unfold accountOf
  cases h : accounts.get a with
  | none => rfl
  | some acc => exact key_of_get h

lemma vestingOf_setCoins (accounts : Accounts) (a : Address) (coins : Purse) :
    vestingOf (accounts.setCoins a coins) = vestingOf accounts := by
  funext a'
  unfold setCoins
  rw [vestingOf_set]
  split
  · rename_i h
    rw [h]
    rw [vesting_accountOf, address_accountOf]
  · rfl

variable {accounts accounts' : Accounts} {a : Address} {amt : Coins}

lemma vestingOf_subtractCoins (h : accounts.subtractCoins a amt = .ok accounts') :
    vestingOf accounts' = vestingOf accounts := by
  simp only [subtractCoins, run_eq_ok] at h
  obtain ⟨purse, -, spendable, -, rest, -, coins, -, rfl⟩ := h
  exact vestingOf_setCoins accounts a coins

lemma vestingOf_addCoins
    (h : accounts.addCoins a amt = .ok accounts') : vestingOf accounts' = vestingOf accounts := by
  simp only [addCoins, run_eq_ok] at h
  obtain ⟨purse, -, rfl⟩ := h
  exact vestingOf_setCoins accounts a _

lemma vestingOf_sendCoins {b : Address} (h : accounts.sendCoins a b amt = .ok accounts') :
    vestingOf accounts' = vestingOf accounts := by
  simp only [sendCoins, bind_eq_ok] at h
  obtain ⟨between, hsub, hadd⟩ := h
  rw [vestingOf_addCoins hadd, vestingOf_subtractCoins hsub]

lemma vestingOf_of_get {acc : Account}
    (h : accounts.get a = some acc) : vestingOf accounts a = acc.vesting := by
  unfold vestingOf
  rw [h]
  rfl

lemma vestingOf_set_some (accounts : Accounts) (acc : Account) {v : ManualVesting}
    (hv : acc.vesting = some v) :
    vestingOf (accounts.set acc) =
      Function.update (vestingOf accounts) acc.address (some v) := by
  funext a
  rw [vestingOf_set, Function.update_apply, hv]

/-- Only the vesting record of an address may change, as the relation says. -/
def Tracks (r : ManualVesting → ManualVesting → Prop) (a : Address)
    (accounts accounts' : Accounts) : Prop :=
  vestingOf accounts' = vestingOf accounts ∨ ∃ v v', vestingOf accounts a = some v ∧ r v v' ∧
    vestingOf accounts' = Function.update (vestingOf accounts) a (some v')

/-- The step of a function that tracks a change of the delegated coins, where only coins have moved
since the account was read. -/
lemma trackVesting_moves {moved : Accounts} {acc acc' : Account} (coins : Purse)
    {track : ManualVesting → Option ManualVesting} (hget : accounts.get a = some acc)
    (hmoved : vestingOf moved = vestingOf accounts) (htrack : trackVesting acc track = .ok acc') :
    Tracks (fun v v' => track v = some v') a accounts (moved.set { acc' with coins }) := by
  have haddress : acc.address = a := key_of_get hget
  unfold trackVesting at htrack
  cases hv : acc.vesting with
  | none =>
    rw [hv] at htrack
    cases htrack
    left
    funext a'
    rw [vestingOf_set, hmoved]
    split
    · rename_i h
      have ha : a' = a := h.trans haddress
      rw [ha, vestingOf_of_get hget]
    · rfl
  | some v =>
    rw [hv] at htrack
    simp only [run_eq_ok] at htrack
    obtain ⟨v', hv', rfl⟩ := htrack
    right
    refine ⟨v, v', ?_, hv', ?_⟩
    · rw [vestingOf_of_get hget, hv]
    · rw [vestingOf_set_some moved _ rfl, hmoved]
      rw [haddress]

/-- The functions of the bank keeper and the laws about the vesting records. -/
structure BankKeeper where
  subtractCoins : Accounts → Address → Coins → Except AccountFault Accounts
  sendCoins : Accounts → Address → Address → Coins → Except AccountFault Accounts
  delegateCoins : Accounts → Address → Address → Coins → Except AccountFault Accounts
  undelegateCoins : Accounts → Address → Address → Coins → Except AccountFault Accounts
  vesting_subtract : ∀ {accounts accounts' a amt}, subtractCoins accounts a amt = .ok accounts' →
    vestingOf accounts' = vestingOf accounts
  vesting_send : ∀ {accounts accounts' a b amt}, sendCoins accounts a b amt = .ok accounts' →
    vestingOf accounts' = vestingOf accounts
  vesting_delegate : ∀ {accounts accounts' a m amt},
    delegateCoins accounts a m amt = .ok accounts' →
    Tracks (fun v v' => ∃ coins, v.trackDelegation coins amt = some v') a accounts accounts'
  vesting_undelegate : ∀ {accounts accounts' m a amt},
    undelegateCoins accounts m a amt = .ok accounts' →
    Tracks (fun v v' => v.trackUndelegation amt = some v') a accounts accounts'

/-- The bank keeper of the SDK. -/
def sdkBank : BankKeeper where
  subtractCoins := Accounts.subtractCoins
  sendCoins := Accounts.sendCoins
  delegateCoins := Accounts.delegateCoins
  undelegateCoins := Accounts.undelegateCoins
  vesting_subtract := vestingOf_subtractCoins
  vesting_send := vestingOf_sendCoins
  vesting_delegate := by
    intro accounts accounts' a m amt h
    simp only [Accounts.delegateCoins, run_eq_ok] at h
    obtain ⟨acc, hget, source, -, purse, -, coins, -, acc', htrack, hadd⟩ := h
    have hsame := vestingOf_addCoins hadd
    rcases trackVesting_moves coins hget rfl htrack with hkept | ⟨v, v', hv, hv', hupdate⟩
    · exact .inl (hsame.trans hkept)
    · exact .inr ⟨v, v', hv, ⟨_, hv'⟩, hsame.trans hupdate⟩
  vesting_undelegate := by
    intro accounts accounts' m a amt h
    simp only [Accounts.undelegateCoins, run_eq_ok] at h
    obtain ⟨acc, hget, source, -, purse, -, rest, -, between, hsub, acc', htrack, rfl⟩ := h
    exact trackVesting_moves _ hget (vestingOf_subtractCoins hsub) htrack

end Shentu.Auth
