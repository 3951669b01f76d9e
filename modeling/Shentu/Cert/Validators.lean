import Shentu.Cert.Certifiers
import Shentu.CVM.KeeperGas
import Shentu.CVM.ValidatorRuns

/-!
The records of certified validators over whole runs of the chain. A certifier certifies a validator
with a message, or a contract does so through the precompiled contract; a message removes the
record. The certifiers themselves change by proposals.
-/

namespace Shentu.Cert

open Lib CVM Table

/-- What staking and slashing know of a validator. -/
structure Signer where
  pubKey : List Byte
  jailed : Bool
  jailedUntil : Int
  tombstoned : Bool
  deriving DecidableEq

structure Chain extends CertifierBook where
  signers : Table Signer.pubKey
  cvm : State

inductive CertFault
  | certifier (e : CertifierErr)
  | unqualifiedCertifier
  | validatorCertified
  | validatorUncertified
  | tombstonedValidator
  | missingValidator
  | execution (e : Err)
  /-- The fuel of the evaluation does not last. -/
  | unfinished
  deriving DecidableEq

/-- Last second that a time can hold. -/
def maxTimestamp : Int := 253402300799

namespace Chain

def getValidator (c : Chain) (pubKey : List Byte) : Option Validator := c.cvm.validators.get pubKey

def updateCertifiers (c : Chain) (p : CertifierUpdateProposal) : Except CertFault Chain :=
  match c.handleCertifierUpdateProposal p with
  | .ok b => .ok { c with toCertifierBook := b }
  | .error e => .error (.certifier e)

def setValidator (c : Chain) (pubKey : List Byte) (certifier : Address) : Chain :=
  { c with cvm := { c.cvm with validators := c.cvm.validators.set ⟨pubKey, certifier⟩ } }

def deleteValidator (c : Chain) (pubKey : List Byte) : Chain :=
  { c with cvm := { c.cvm with validators := c.cvm.validators.delete pubKey } }

def certifyValidator (c : Chain) (pubKey : List Byte) (certifier : Address) :
    Except CertFault Chain := do
  failIf (c.isCertifier certifier = false) .unqualifiedCertifier
  failIf ((c.getValidator pubKey).isSome = true) .validatorCertified
  return c.setValidator pubKey certifier

/-- The validator is jailed for good. -/
def decertifyValidator (c : Chain) (pubKey : List Byte) (decertifier : Address) :
    Except CertFault Chain := do
  failIf (c.isCertifier decertifier = false) .unqualifiedCertifier
  let record ← orFail (c.getValidator pubKey) .validatorUncertified
  failIf (decertifier ≠ record.certifier ∧ c.isCertifier record.certifier = true)
    .unqualifiedCertifier
  let signer ← orFail (c.signers.get pubKey) .missingValidator
  failIf (signer.tombstoned = true) .tombstonedValidator
  return { c.deleteValidator pubKey with
    signers := c.signers.set
      { signer with jailed := true, jailedUntil := maxTimestamp, tombstoned := true } }

/-- The surroundings of an execution, in which the certifiers are those of the chain. -/
def host (c : Chain) (h : Host) : Host := { h with isCertifier := c.isCertifier }

def call (c : Chain) (h : Host) (meter : GasMeter) (gasRate fuel : Nat) (msg : CallMsg) :
    Except CertFault Chain := do
  let outcome ← orFail (keeperCall (c.host h) meter gasRate fuel c.cvm msg) .unfinished
  match outcome.result with
  | .ok (_, s) => return { c with cvm := s }
  | .error e => .error (.execution e)

end Chain

inductive CertAction
  | certify (pubKey : List Byte) (certifier : Address)
  | decertify (pubKey : List Byte) (decertifier : Address)
  | updateCertifier (p : CertifierUpdateProposal)
  /-- Staking and slashing change what they know of the validators. -/
  | staking (signers : Table Signer.pubKey)
  | call (h : Host) (meter : GasMeter) (gasRate fuel : Nat) (msg : CallMsg)

def certStep (c : Chain) : CertAction → Except CertFault Chain
  | .certify pubKey certifier => c.certifyValidator pubKey certifier
  | .decertify pubKey decertifier => c.decertifyValidator pubKey decertifier
  | .updateCertifier p => c.updateCertifiers p
  | .staking signers => .ok { c with signers }
  | .call h meter gasRate fuel msg => c.call h meter gasRate fuel msg

/-- The condition on an action: in an execution, whoever asks the precompiled contract to certify a
validator is a certifier, and the validator has no record. -/
def CertSafe (c : Chain) : CertAction → Prop
  | .call h meter gasRate fuel msg => CallCertifiesWell (c.host h) meter gasRate fuel c.cvm msg
  | _ => True

instance (c : Chain) : ∀ action, Decidable (CertSafe c action)
  | .certify .. | .decertify .. | .updateCertifier .. | .staking .. => isTrue trivial
  | .call .. => inferInstanceAs (Decidable (CallCertifiesWell ..))

/-- A certifier that may remove a record. -/
def MayDecertify (c : Chain) (decertifier : Address) (record : Validator) : Prop :=
  c.isCertifier decertifier = true ∧
    (decertifier = record.certifier ∨ c.isCertifier record.certifier = false)

/-- What an action may do to the records: write one for a certifier where there is none, and remove
one by a certifier that may do so. -/
structure RecordsKept (action : CertAction) (c c' : Chain) : Prop where
  written : ∀ pubKey record, c'.getValidator pubKey = some record →
    c.getValidator pubKey = some record ∨
      c.getValidator pubKey = none ∧ c.isCertifier record.certifier = true
  kept : ∀ pubKey record, c.getValidator pubKey = some record →
    c'.getValidator pubKey = some record ∨
      c'.getValidator pubKey = none ∧
        ∃ decertifier, action = .decertify pubKey decertifier ∧ MayDecertify c decertifier record

variable {action : CertAction} {c c' : Chain}

lemma recordsKept_of_grow (h : ValidatorsGrow c.isCertifier c.cvm.validators c'.cvm.validators) :
    RecordsKept action c c' := by
  constructor
  · intro pubKey record hrecord
    rcases (h pubKey).2 record hrecord with hold | hcertifier
    · exact .inl hold
    · cases hold : c.getValidator pubKey with
      | none => exact .inr ⟨rfl, hcertifier⟩
      | some old =>
        have hkept := (h pubKey).1 old hold
        cases hkept.symm.trans hrecord
        exact .inl rfl
  · intro pubKey record hrecord
    exact .inl ((h pubKey).1 record hrecord)

lemma decertifyValidator_kept {pubKey : List Byte} {decertifier : Address}
    (h : c.decertifyValidator pubKey decertifier = .ok c') :
    RecordsKept (.decertify pubKey decertifier) c c' := by
  simp only [Chain.decertifyValidator, bind_eq_ok, failIf_eq_ok, orFail_eq_ok, pure_eq_ok,
    Bool.not_eq_false, not_and, Bool.not_eq_true] at h
  obtain ⟨_, hdecertifier, record, hrecord, _, hallowed, signer, -, _, -, rfl⟩ := h
  have hself : (c.cvm.validators.delete pubKey).get pubKey = none :=
    get_delete_self c.cvm.validators pubKey
  have hother : ∀ key, key ≠ pubKey →
      (c.cvm.validators.delete pubKey).get key = c.cvm.validators.get key :=
    fun key hne => get_delete_of_ne c.cvm.validators hne
  constructor
  · intro key found hfound
    by_cases hkey : key = pubKey
    · subst hkey
      cases hself.symm.trans hfound
    · exact .inl ((hother key hkey).symm.trans hfound)
  · intro key found hfound
    by_cases hkey : key = pubKey
    · subst hkey
      cases hrecord.symm.trans hfound
      refine .inr ⟨hself, decertifier, rfl, hdecertifier, ?_⟩
      by_cases hown : decertifier = record.certifier
      · exact .inl hown
      · exact .inr (hallowed hown)
    · exact .inl ((hother key hkey).trans hfound)

lemma certStep_kept (hsafe : CertSafe c action)
    (h : certStep c action = .ok c') : RecordsKept action c c' := by
  cases action with
  | certify pubKey certifier =>
    simp only [certStep, Chain.certifyValidator, run_eq_ok, Bool.not_eq_false, Bool.not_eq_true,
      Option.isSome_eq_false_iff, Option.isNone_iff_eq_none] at h
    obtain ⟨hcertifier, hnone, rfl⟩ := h
    apply recordsKept_of_grow
    exact .set hnone hcertifier
  | decertify pubKey decertifier => exact decertifyValidator_kept h
  | updateCertifier p =>
    apply recordsKept_of_grow
    have hsame : c'.cvm = c.cvm := by
      simp only [certStep, Chain.updateCertifiers] at h
      split at h
      · cases h
        rfl
      · cases h
    rw [hsame]
    exact .refl _
  | staking signers =>
    cases h
    apply recordsKept_of_grow
    exact .refl _
  | call host meter gasRate fuel msg =>
    apply recordsKept_of_grow
    simp only [certStep, Chain.call, run_eq_ok] at h
    obtain ⟨outcome, houtcome, hresult⟩ := h
    split at hresult
    · rename_i output s hok
      cases hresult
      exact validators_keeperCall hsafe houtcome hok
    · cases hresult

/-- A record was written in a run: there was none before, and its certifier was a certifier. -/
def WrittenByCertifier (c : Chain) (actions : List CertAction) (record : Validator) : Prop :=
  ∃ before action rest c₁ c₂, actions = before ++ action :: rest ∧
    before.foldlM certStep c = .ok c₁ ∧ certStep c₁ action = .ok c₂ ∧
    c₁.getValidator record.pubKey = none ∧ c₂.getValidator record.pubKey = some record ∧
    c₁.isCertifier record.certifier = true

lemma WrittenByCertifier.cons {c1 : Chain} {actions : List CertAction}
    {record : Validator} (hstep : certStep c action = .ok c1)
    (h : WrittenByCertifier c1 actions record) :
    WrittenByCertifier c (action :: actions) record := by
  obtain ⟨before, written, rest, c2, c3, rfl, hbefore, hrest⟩ := h
  refine ⟨action :: before, written, rest, c2, c3, rfl, ?_, hrest⟩
  exact foldlM_cons_eq_ok.mpr ⟨c1, hstep, hbefore⟩

lemma record_written {actions : List CertAction}
    (hmeets : StepsMeet CertSafe certStep c actions) (hrun : actions.foldlM certStep c = .ok c')
    {record : Validator} (hrecord : c'.getValidator record.pubKey = some record) :
    c.getValidator record.pubKey = some record ∨ WrittenByCertifier c actions record := by
  induction actions generalizing c with
  | nil =>
    cases hrun
    exact .inl hrecord
  | cons action actions ih =>
    obtain ⟨c1, hstep, hrest⟩ := foldlM_cons_eq_ok.mp hrun
    obtain ⟨hsafe, hmeets⟩ := hmeets
    rcases ih (hmeets c1 hstep) hrest with hthere | hlater
    · rcases (certStep_kept hsafe hstep).written _ _ hthere with hold | ⟨hnone, hcertifier⟩
      · exact .inl hold
      · exact .inr ⟨[], action, actions, c, c1, rfl, rfl, hstep, hnone, hthere, hcertifier⟩
    · exact .inr (hlater.cons hstep)

/-- In a run whose executions certify well, every record was there at the start or was written for
an address that was a certifier then, and no step overwrites a record or removes one that it may
not remove. -/
theorem validator_records_sound {c c' : Chain} {actions : List CertAction}
    (hmeets : StepsMeet CertSafe certStep c actions) (hrun : actions.foldlM certStep c = .ok c') :
    (∀ pubKey record, c'.getValidator pubKey = some record →
      c.getValidator pubKey = some record ∨ WrittenByCertifier c actions record) ∧
    ∀ before action rest c₁ c₂, actions = before ++ action :: rest →
      before.foldlM certStep c = .ok c₁ → certStep c₁ action = .ok c₂ →
        RecordsKept action c₁ c₂ := by
  constructor
  · intro pubKey record hrecord
    have hkey : record.pubKey = pubKey := key_of_get hrecord
    subst hkey
    exact record_written hmeets hrun hrecord
  · rintro before action rest c₁ c₂ rfl hbefore hstep
    exact certStep_kept ((stepsMeet_append.mp hmeets).2 c₁ hbefore).1 hstep

/-- The code of a contract that asks to certify the validator with an empty key. -/
def certifyingCode : Code :=
  [0x60, 0x00, 0x60, 0x00, 0x60, 0x00, 0x60, 0x00, 0x60, 0x00, 0x60, 0x0C, 0x61, 0x27, 0x10, 0xF1,
    0x00]

/-- A chain with that contract at address 2, on which the given addresses are certifiers. -/
def certifyingChain (certifiers : List Address) : Chain where
  certifiers := certifiers.foldl (fun t a => t.set ⟨a, "", 0, ""⟩) .empty
  aliases := .empty
  signers := .empty
  cvm := contractState certifyingCode 0

/-- The first address calls the contract. -/
def callCertifying : CertAction := .call plainHost ⟨5000000, 0, false⟩ 1 12 (contractCall 0)

/-- A certifier certifies a validator and another certifier calls a contract: the contract, which is
no certifier, becomes the certifier of the record. -/
theorem validator_record_overwritten :
    ∃ c c', [CertAction.certify [] 3].foldlM certStep (certifyingChain [1, 3]) = .ok c ∧
      certStep c callCertifying = .ok c' ∧
      c.getValidator [] = some ⟨[], 3⟩ ∧ c'.getValidator [] = some ⟨[], 2⟩ ∧
      c.isCertifier 2 = false := by
  simp only [exists_and_left]
  decide +kernel

/-- A contract that is a certifier itself certifies a validator without a record. -/
theorem validator_records_sound_contract :
    ∃ c', [callCertifying].foldlM certStep (certifyingChain [1, 2]) = .ok c' ∧
      c'.getValidator [] = some ⟨[], 2⟩ ∧
      ((∀ pubKey record, c'.getValidator pubKey = some record →
        (certifyingChain [1, 2]).getValidator pubKey = some record ∨
          WrittenByCertifier (certifyingChain [1, 2]) [callCertifying] record) ∧
      ∀ before action rest c₁ c₂, [callCertifying] = before ++ action :: rest →
        before.foldlM certStep (certifyingChain [1, 2]) = .ok c₁ → certStep c₁ action = .ok c₂ →
          RecordsKept action c₁ c₂) := by
  obtain ⟨c', hc', hrecord⟩ : ∃ c', [callCertifying].foldlM certStep (certifyingChain [1, 2]) = .ok
        c' ∧ c'.getValidator [] = some ⟨[], 2⟩ := by
    decide +kernel
  exact ⟨c', hc', hrecord, validator_records_sound (by decide +kernel) hc'⟩

end Shentu.Cert
