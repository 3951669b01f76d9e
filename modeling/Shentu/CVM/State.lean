import Shentu.Auth.Account
import Shentu.CVM.Frame

/-!
The store below the interpreter. Balances are coins of the accounts of the auth module, in one
denomination; code, lists of contracts and storage are in the store of the CVM module.
-/

namespace Shentu.CVM

open Lib

/-- The denomination of balances. -/
def microCTKDenom : Denom := "uctk"

inductive CVMCode
  | evm (code : Code)
  | ewasm (code : Code)
  deriving DecidableEq

structure CodeRecord where
  address : Address
  code : CVMCode
  deriving DecidableEq

structure AbiRecord where
  address : Address
  abi : List Byte
  deriving DecidableEq

structure MetaRecord where
  address : Address
  contractMeta : List ContractMeta
  deriving DecidableEq

structure Metadata where
  hash : List Byte
  metadata : List Byte
  deriving DecidableEq

structure StorageSlot where
  address : Address
  key : Word
  value : Word
  deriving DecidableEq

def StorageSlot.storeKey (slot : StorageSlot) : Nat ×ₗ Nat := toLex (slot.address, slot.key.toNat)

/-- The accounts, the store of the CVM module and the validators that are certified. -/
structure State where
  accounts : Table Auth.Account.address
  code : Table CodeRecord.address
  abi : Table AbiRecord.address
  addressMeta : Table MetaRecord.address
  storage : Table StorageSlot.storeKey
  metadata : Table Metadata.hash
  validators : Table Validator.pubKey

namespace State

variable (s : State)

variable (a : Address)

def evmCode : Code :=
  match s.code.get a with
  | some ⟨_, .evm code⟩ => code
  | _ => []

def wasmCode : Code :=
  match s.code.get a with
  | some ⟨_, .ewasm code⟩ => code
  | _ => []

def getAddressMeta : List ContractMeta :=
  match s.addressMeta.get a with
  | some r => r.contractMeta
  | none => []

def getAccount : Option Account :=
  (s.accounts.get a).map fun acc =>
    { address := a
      balance := (acc.coins.amount microCTKDenom).toNat
      evmCode := s.evmCode a
      wasmCode := s.wasmCode a
      codeHash := none
      contractMeta := s.getAddressMeta a
      isNative := false }

lemma address_getAccount {s : State} {a : Address} {acc : Account}
    (h : s.getAccount a = some acc) : acc.address = a := by
  obtain ⟨-, -, rfl⟩ := Option.map_eq_some_iff.mp h
  rfl

/-- The account at an address, or a new one. -/
def account : Auth.Account := (s.accounts.get a).getD (.new a)

/-- Write an account: its coins are replaced by its balance. A balance that is no signed number is
a panic. -/
def updateAccount (acc : Account) : Except Err State := do
  failIf (2 ^ 63 ≤ acc.balance) .panic
  let cvmCode := if acc.wasmCode ≠ [] then CVMCode.ewasm acc.wasmCode else .evm acc.evmCode
  return { s with
    accounts := s.accounts.set
      { s.account acc.address with coins := .single microCTKDenom acc.balance }
    code := s.code.set ⟨acc.address, cvmCode⟩
    addressMeta := s.addressMeta.set ⟨acc.address, acc.contractMeta⟩ }

/-- Remove the code of an account. Its coins and its storage stay. -/
def removeAccount : Except Err State := do
  failIf ((s.accounts.get a).isNone = true) .generic
  return { s with
    code := s.code.delete a
    abi := s.abi.delete a
    addressMeta := s.addressMeta.delete a }

def getStorage (key : Word) : Word :=
  match s.storage.get (toLex (a, key.toNat)) with
  | some slot => slot.value
  | none => 0

/-- Write a slot. A zero is not kept. -/
def setStorage (key value : Word) : State :=
  { s with storage :=
      if value = 0 then s.storage.delete (toLex (a, key.toNat))
      else s.storage.set ⟨a, key, value⟩ }

def setMetadata (hash metadata : List Byte) : State :=
  { s with metadata := s.metadata.set ⟨hash, metadata⟩ }

/-- What a frame on top of the store reads. -/
def view : Backend := ⟨s.getAccount, s.getStorage, s.address_getAccount⟩

def syncEntry (e : Entry) : Except Err State :=
  match e.account with
  | none => s.removeAccount e.address
  | some acc => do
    let s ← s.updateAccount acc
    return e.storage.reverse.foldl (fun s slot => s.setStorage e.address slot.1 slot.2) s

/-- Write what a cache holds. A cache that is only read writes nothing. -/
def sync (cache : Cache) : Except Err State :=
  if cache.readonly then .ok s else cache.entries.rows.foldlM syncEntry s

end State

end Shentu.CVM
