import Shentu.Lib.Table
import Shentu.Lib.Runs

/-!
What the cert module shares with the gov module: the certifiers, which come and go by proposals that
pass, and the types of the certificates. A certifier is stored under its address and, if it has an
alias, once more under that.
-/

namespace Shentu

open Lib

structure Certifier where
  address : Nat
  certifierAlias : String
  proposer : Nat
  description : String
  deriving DecidableEq

structure AliasRecord where
  certifierAlias : String
  certifier : Certifier
  deriving DecidableEq

structure CertifierBook where
  certifiers : Table Certifier.address
  aliases : Table AliasRecord.certifierAlias

inductive AddOrRemove
  | add | remove | other
  deriving DecidableEq

structure CertifierUpdateProposal where
  certifier : Nat
  certifierAlias : String
  proposer : Nat
  description : String
  addOrRemove : AddOrRemove

inductive CertifierErr
  | certifierAlreadyExists | repeatedAlias | onlyOneCertifier | certifierNotExists | addOrRemove
  deriving DecidableEq

namespace CertifierBook

def empty : CertifierBook := ⟨.empty, .empty⟩

variable (b : CertifierBook)

def isCertifier (address : Nat) : Bool := (b.certifiers.get address).isSome

def hasCertifierAlias (certifierAlias : String) : Bool :=
  certifierAlias = "" ∨ (b.aliases.get certifierAlias).isSome = true

def setCertifier (certifier : Certifier) : CertifierBook where
  certifiers := b.certifiers.set certifier
  aliases := if certifier.certifierAlias ≠ "" then
      b.aliases.set ⟨certifier.certifierAlias, certifier⟩
    else b.aliases

def deleteCertifier (address : Nat) : Except CertifierErr CertifierBook := do
  let certifier ← orFail (b.certifiers.get address) .certifierNotExists
  return ⟨b.certifiers.delete address, b.aliases.delete certifier.certifierAlias⟩

def handleCertifierUpdateProposal (p : CertifierUpdateProposal) :
    Except CertifierErr CertifierBook :=
  match p.addOrRemove with
  | .add => do
    failIf (b.isCertifier p.certifier = true) .certifierAlreadyExists
    failIf (p.certifierAlias ≠ "" ∧ b.hasCertifierAlias p.certifierAlias = true) .repeatedAlias
    return b.setCertifier ⟨p.certifier, p.certifierAlias, p.proposer, p.description⟩
  | .remove => do
    failIf (b.certifiers.rows.length = 1) .onlyOneCertifier
    b.deleteCertifier p.certifier
  | .other => .error .addOrRemove

end CertifierBook

namespace Cert

inductive CertificateType
  | nil | compilation | auditing | proof | oracleOperator | shieldPoolCreator | identity | general
  deriving DecidableEq

inductive RequestContentType
  | nil | sourceCodeHash | address | bytecodeHash | general
  deriving DecidableEq

end Cert

end Shentu
