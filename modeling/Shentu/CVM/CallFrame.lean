import Shentu.CVM.Word
import Shentu.Lib.Table
import Shentu.Lib.Runs

/-!
The accounts as the execution of a contract sees them. Every call has a frame of its own: what it
writes stays in the cache of the frame and is read through it, and it reaches the frame or the
store below only when the frame is synced. The operations on accounts are those of the host of the
interpreter.
-/

namespace Shentu.CVM

open Lib

/-- A contract that an account may create, by the hash of its code. -/
structure ContractMeta where
  codeHash : List Byte
  metadataHash : List Byte
  deriving DecidableEq

/-- An account as the interpreter sees it. The hash of the code is known only to the execution that
has created the contract. -/
structure Account where
  address : Address
  balance : Nat
  evmCode : Code
  wasmCode : Code
  codeHash : Option Word
  contractMeta : List ContractMeta
  isNative : Bool
  deriving DecidableEq

/-- The account that a creation starts with. -/
def Account.new (a : Address) : Account := ⟨a, 0, [], [], none, [], false⟩

variable (acc : Account)

def Account.code : Code := if acc.evmCode = [] then acc.wasmCode else acc.evmCode

def Account.addToBalance (amount : Nat) : Except Err Account :=
  if 2 ^ 64 ≤ acc.balance + amount then .error .integerOverflow
  else .ok { acc with balance := acc.balance + amount }

def Account.subtractFromBalance (amount : Nat) : Except Err Account :=
  if acc.balance < amount then .error .insufficientBalance
  else .ok { acc with balance := acc.balance - amount }

/-- What lies below a frame: the store, or the frame that has called. -/
structure Backend where
  account : Address → Option Account
  storage : Address → Word → Word
  addressed : ∀ {a acc}, account a = some acc → acc.address = a

/-- What a cache holds of an account that has been written: no account if it was removed, and the
slots written, the last one first. -/
structure Entry where
  address : Address
  account : Option Account
  storage : List (Word × Word)
  addressed : ∀ {acc}, account = some acc → acc.address = address
  deriving DecidableEq

/-- The entry of an account that has been updated. -/
def Entry.ofAccount (storage : List (Word × Word)) : Entry :=
  ⟨acc.address, some acc, storage, fun h => by cases h; rfl⟩

def Entry.ofRemoved (a : Address) (storage : List (Word × Word)) : Entry :=
  ⟨a, none, storage, nofun⟩

structure Cache where
  entries : Table Entry.address
  readonly : Bool

def Cache.new : Cache := ⟨Table.empty, false⟩

structure CallFrame where
  cache : Cache
  backend : Backend

namespace CallFrame

/-- A frame over a chain without accounts. -/
def blank : CallFrame := ⟨.new, fun _ => none, fun _ _ => 0, nofun⟩

variable (cf : CallFrame)

variable (a : Address)

def getAccount : Option Account :=
  match cf.cache.entries.get a with
  | some e => e.account
  | none => cf.backend.account a

lemma address_getAccount {cf : CallFrame} {a : Address} {acc : Account}
    (h : cf.getAccount a = some acc) : acc.address = a := by
  unfold getAccount at h
  split at h
  · rename_i e he
    exact (e.addressed h).trans (Table.key_of_get he)
  · exact cf.backend.addressed h

def getStorage (key : Word) : Word :=
  match cf.cache.entries.get a with
  | some e => (e.storage.lookup key).getD (cf.backend.storage a key)
  | none => cf.backend.storage a key

def setEntry (e : Entry) : CallFrame :=
  { cf with cache := { cf.cache with entries := cf.cache.entries.set e } }

/-- The slots of an account that the cache holds. -/
def written : List (Word × Word) :=
  match cf.cache.entries.get a with
  | some e => e.storage
  | none => []

/-- An account has been removed in this frame. -/
def removed : Bool :=
  match cf.cache.entries.get a with
  | some e => e.account.isNone
  | none => false

/-- The check before every write to an account. -/
def writable : Except Err Unit :=
  failIf (cf.cache.readonly = true ∨ cf.removed a = true) .illegalWrite

def updateAccount (acc : Account) : Except Err CallFrame := do
  cf.writable acc.address
  return cf.setEntry (.ofAccount acc (cf.written acc.address))

def removeAccount : Except Err CallFrame := do
  cf.writable a
  return cf.setEntry (.ofRemoved a (cf.written a))

def setStorage (key value : Word) : Except Err CallFrame := do
  cf.writable a
  let acc ← orFail (cf.getAccount a) .nonExistentAccount
  return cf.setEntry (.ofAccount acc ((key, value) :: cf.written a))

/-- What a frame above this one reads. -/
def view : Backend := ⟨cf.getAccount, cf.getStorage, cf.address_getAccount⟩

def newFrame : CallFrame := ⟨Cache.new, cf.view⟩

def syncEntry (e : Entry) : Except Err CallFrame :=
  match e.account with
  | none => cf.removeAccount e.address
  | some acc => do
    let cf ← cf.updateAccount acc
    e.storage.reverse.foldlM (fun cf slot => cf.setStorage e.address slot.1 slot.2) cf

/-- Write what a cache holds into the frame below it. A cache that is only read writes nothing. -/
def sync (cache : Cache) : Except Err CallFrame :=
  if cache.readonly then .ok cf else cache.entries.rows.foldlM syncEntry cf

section Native

variable (cf : CallFrame)

variable (a : Address)

def mustAccount : Except Err Account :=
  orFail (cf.getAccount a) .nonExistentAccount

def createAccount : Except Err CallFrame :=
  match cf.getAccount a with
  | some acc => .error (if acc.isNative then .reservedAddress else .duplicateAddress)
  | none => cf.updateAccount (.new a)

/-- Change the account at an address, which has to exist. -/
def updateWith (f : Account → Except Err Account) : Except Err CallFrame := do
  let acc ← cf.mustAccount a
  let acc ← f acc
  cf.updateAccount acc

def destroyAccount : Except Err CallFrame := do
  let _ ← cf.mustAccount a
  cf.removeAccount a

/-- Move an amount. The debit is kept if the credit fails: the frame ends with the error then. -/
def transfer (src dst : Address) (amount : Nat) : CallFrame × Option Err :=
  if amount = 0 then (cf, none)
  else
    match cf.updateWith src (·.subtractFromBalance amount) with
    | .error e => (cf, some e)
    | .ok debited =>
      match debited.updateWith dst (·.addToBalance amount) with
      | .error e => (debited, some e)
      | .ok credited => (credited, none)

/-- Set the code of a new contract. The contracts that its parent lists are the only ones it may
create, if it lists any. Burrow's look-up of the forebear of the parent is left out. -/
def initChildCode (permitted : Code → Address → List ContractMeta → Bool)
    (keccak256 : List Byte → Word) (cf : CallFrame) (a parent : Address) (code : Code) :
    Except Err CallFrame := do
  let acc ← cf.mustAccount a
  failIf (acc.evmCode ≠ [] ∨ acc.wasmCode ≠ []) .illegalWrite
  let ancestor ← cf.mustAccount parent
  failIf (ancestor.contractMeta ≠ [] ∧ permitted code a ancestor.contractMeta = false)
    .invalidContractCode
  cf.updateAccount { acc with evmCode := code, codeHash := some (keccak256 code) }

end Native

section Laws

variable {cf cf' : CallFrame} {a : Address} {acc : Account}

@[simp] lemma backend_setEntry (cf : CallFrame) (e : Entry) :
    (cf.setEntry e).backend = cf.backend := rfl

@[simp] lemma entries_setEntry (cf : CallFrame) (e : Entry) :
    (cf.setEntry e).cache.entries = cf.cache.entries.set e := rfl

lemma getAccount_setEntry (cf : CallFrame) (e : Entry) (a : Address) :
    (cf.setEntry e).getAccount a = if a = e.address then e.account else cf.getAccount a := by
  unfold getAccount
  rw [entries_setEntry, Table.get_set]
  by_cases h : a = e.address
  · rw [if_pos h, if_pos h]
  · rw [if_neg h, if_neg h, backend_setEntry]

lemma writable_eq_ok {u : Unit} :
    cf.writable a = .ok u ↔ ¬ (cf.cache.readonly = true ∨ cf.removed a = true) := by
  exact failIf_eq_ok

lemma updateAccount_eq_ok :
    cf.updateAccount acc = .ok cf' ↔ ¬ (cf.cache.readonly = true ∨ cf.removed acc.address = true) ∧
      cf' = cf.setEntry (.ofAccount acc (cf.written acc.address)) := by
  unfold updateAccount
  simp only [run_eq_ok, writable_eq_ok]
  exact and_congr_right' eq_comm

lemma getAccount_updateAccount (h : cf.updateAccount acc = .ok cf') (a : Address) :
    cf'.getAccount a = if a = acc.address then some acc else cf.getAccount a := by
  rw [(updateAccount_eq_ok.mp h).2, getAccount_setEntry]
  rfl

lemma createAccount_eq_ok :
    cf.createAccount a = .ok cf' ↔
      cf.getAccount a = none ∧ cf.updateAccount (.new a) = .ok cf' := by
  unfold createAccount
  cases cf.getAccount a with
  | none | some => simp

lemma getAccount_createAccount {b : Address} (h : cf.createAccount b = .ok cf') (a : Address) :
    cf'.getAccount a = if a = b then some (.new b) else cf.getAccount a :=
  getAccount_updateAccount (createAccount_eq_ok.mp h).2 a

end Laws

end CallFrame

end Shentu.CVM
