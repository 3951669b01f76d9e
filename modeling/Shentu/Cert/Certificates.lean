import Shentu.Cert.Validators

/-!
The certificates. The key of a certificate has its type, a hash of what it certifies and an index,
so certificates of the same type whose hashes collide share the indices. A look-up scans the keys
with a type and a hash and compares the contents. The hash and the upper case of a name are any
functions.
-/

namespace Shentu.Cert

open Lib CVM

def CertificateType.bytes : CertificateType → List Byte
  | .nil => [0]
  | .compilation => [1]
  | .auditing => [2]
  | .proof => [3]
  | .oracleOperator => [4]
  | .shieldPoolCreator => [5]
  | .identity => [6]
  | .general => [7]

variable (upper : String → String)

def certificateTypeFromString (s : String) : CertificateType :=
  match upper s with
  | "COMPILATION" => .compilation
  | "AUDITING" => .auditing
  | "PROOF" => .proof
  | "ORACLEOPERATOR" => .oracleOperator
  | "SHIELDPOOLCREATOR" => .shieldPoolCreator
  | "IDENTITY" => .identity
  | "GENERAL" => .general
  | _ => .nil

def RequestContentType.bytes : RequestContentType → List Byte
  | .nil => [0]
  | .sourceCodeHash => [1]
  | .address => [2]
  | .bytecodeHash => [3]
  | .general => [4]

def requestContentTypeFromString (s : String) : RequestContentType :=
  match upper s with
  | "SOURCECODEHASH" => .sourceCodeHash
  | "ADDRESS" => .address
  | "BYTECODEHASH" => .bytecodeHash
  | "GENERAL" => .general
  | _ => .nil

structure RequestContent where
  requestContentType : RequestContentType
  requestContent : List Byte
  deriving DecidableEq

inductive CertificateFault
  | unqualifiedCertifier
  | unqualifiedRevoker
  | certificateNotExists
  | invalidRequestContentType
  | indexOverflow
  /-- The text of an ID is not in base sixteen. -/
  | panic
  /-- The search for an ID has not ended. -/
  | unfinished
  deriving DecidableEq

def newRequestContent (requestContentType : String)
    (requestContent : List Byte) : Except CertificateFault RequestContent :=
  match requestContentTypeFromString upper requestContentType with
  | .nil => .error .invalidRequestContentType
  | t => .ok ⟨t, requestContent⟩

/-- The text of an ID in base sixteen. -/
abbrev CertificateID := List Char

structure CompilationCertificateContent where
  compiler : String
  bytecodeHash : String
  deriving DecidableEq

structure Certificate where
  certID : CertificateID
  certType : CertificateType
  reqContent : RequestContent
  /-- What a compilation certificate has in addition. -/
  certContent : Option CompilationCertificateContent
  certDescription : String
  certCertifier : Address
  certTxHash : List Char
  deriving DecidableEq

def certificateStoreKeyPrefix : List Byte := [5]

def certificateStoreKey (bz : List Byte) : List Byte := certificateStoreKeyPrefix ++ bz

variable (sha224 : List Byte → List Byte)

variable (certType : CertificateType)

variable (content : RequestContent)

def certificateStoreContentKey : List Byte :=
  certificateStoreKeyPrefix ++ certType.bytes ++
    sha224 (content.requestContentType.bytes ++ content.requestContent)

/-- The bytes of an ID. -/
def certificateIDBytes (i : Byte) : List Byte :=
  certType.bytes ++ sha224 (content.requestContentType.bytes ++ content.requestContent) ++ [i]

def getCertificateID (i : Byte) : CertificateID :=
  hexEncode (certificateIDBytes sha224 certType content i)

/-- The key of a stored certificate. -/
def Certificate.storeKey (c : Certificate) : List Byte :=
  certificateStoreKey ((hexDecode c.certID).getD [])

structure CertificateStore where
  certifiers : Table Certifier.address
  certificates : Table Certificate.storeKey

namespace CertificateStore

variable (s : CertificateStore)

def isCertifier (a : Address) : Bool := (s.certifiers.get a).isSome

variable (id : CertificateID)

def getCertificateByID : Except CertificateFault Certificate := do
  let bz ← orFail (hexDecode id) .panic
  orFail (s.certificates.get (certificateStoreKey bz)) .certificateNotExists

/-- The rounds of the search for an unused ID, from an index on. The index is one byte. -/
def newCertificateIDLoop (sha224 : List Byte → List Byte) (s : CertificateStore)
    (certType : CertificateType) (content : RequestContent) :
    Nat → Byte → Option (Except CertificateFault CertificateID)
  | 0, _ => none
  | fuel + 1, i =>
    let certID := getCertificateID sha224 certType content i
    match s.getCertificateByID certID with
    | .error .certificateNotExists => some (.ok certID)
    | _ =>
      if i = 255 then some (.error .indexOverflow)
      else newCertificateIDLoop sha224 s certType content fuel (i + 1)

variable (sha224 : List Byte → List Byte)

def getNewCertificateID (s : CertificateStore)
    (certType : CertificateType) (content : RequestContent) :
    Except CertificateFault CertificateID := do
  let result ← orFail (newCertificateIDLoop sha224 s certType content 256 0) .unfinished
  result

/-- Issue a certificate in a transaction with the given hash. -/
def issueCertificate (s : CertificateStore) (c : Certificate)
    (txHash : List Byte) : Except CertificateFault (CertificateID × CertificateStore) := do
  failIf (s.isCertifier c.certCertifier = false) .unqualifiedCertifier
  let certID ← s.getNewCertificateID sha224 c.certType c.reqContent
  let c := { c with certID, certTxHash := hexEncode txHash }
  return (certID, { s with certificates := s.certificates.set c })

def deleteCertificate : Except CertificateFault CertificateStore := do
  let bz ← orFail (hexDecode id) .panic
  failIf ((s.certificates.get (certificateStoreKey bz)).isNone = true) .certificateNotExists
  return { s with certificates := s.certificates.delete (certificateStoreKey bz) }

/-- Revoke a certificate, of which only the ID counts. -/
def revokeCertificate (revoker : Address) : Except CertificateFault CertificateStore := do
  failIf (s.isCertifier revoker = false) .unqualifiedRevoker
  s.deleteCertificate id

/-- The certificates whose keys begin with the type and the hash, in the order of the keys. -/
def iterateCertificatesByContent (s : CertificateStore)
    (certType : CertificateType) (content : RequestContent) : List Certificate :=
  let start := certificateStoreContentKey sha224 certType content
  s.certificates.rows.filter fun c =>
    start ≤ c.storeKey ∧ beforeEnd c.storeKey (prefixEndBytes start)

def getCertificatesByTypeAndContent (s : CertificateStore)
    (certType : CertificateType) (content : RequestContent) : List Certificate :=
  (s.iterateCertificatesByContent sha224 certType content).filter fun c =>
    c.reqContent = content ∧ c.certType = certType

def isCertified (upper : String → String) (s : CertificateStore)
    (requestContentType : String) (content : List Byte) (certType : String) : Bool :=
  match newRequestContent upper requestContentType content with
  | .error _ => false
  | .ok requestContent =>
    0 < (s.getCertificatesByTypeAndContent sha224 (certificateTypeFromString upper certType)
      requestContent).length

end CertificateStore

inductive CertificateAction
  | issue (c : Certificate) (txHash : List Byte)
  | revoke (id : CertificateID) (revoker : Address)
  /-- Proposals change the certifiers. -/
  | certifiers (certifiers : Table Certifier.address)

def certificateStep (s : CertificateStore) :
    CertificateAction → Except CertificateFault CertificateStore
  | .issue c txHash => return (← s.issueCertificate sha224 c txHash).2
  | .revoke id revoker => s.revokeCertificate id revoker
  | .certifiers certifiers => .ok { s with certifiers }

section Search

variable {sha224 : List Byte → List Byte} {s : CertificateStore} {certType : CertificateType}
  {content : RequestContent}

lemma getCertificateByID_getCertificateID (i : Byte) :
    s.getCertificateByID (getCertificateID sha224 certType content i) =
      orFail (s.certificates.get
        (certificateStoreKey (certificateIDBytes sha224 certType content i)))
        .certificateNotExists := by
  unfold CertificateStore.getCertificateByID getCertificateID
  rw [hexDecode_hexEncode]
  rfl

lemma getCertificateByID_eq_error {id : CertificateID} {e : CertificateFault} {i : Byte}
    (hid : id = getCertificateID sha224 certType content i)
    (h : s.getCertificateByID id = .error e) : e = .certificateNotExists := by
  rw [hid, getCertificateByID_getCertificateID] at h
  unfold orFail at h
  split at h
  · cases h
  · cases h
    rfl

/-- The search ends with the first ID that is not in use, or when all indices are in use. -/
lemma newCertificateIDLoop_spec (sha224 : List Byte → List Byte) (s : CertificateStore)
    (certType : CertificateType) (content : RequestContent) (fuel : Nat) (i : Byte)
    (hfuel : 256 ≤ fuel + i.val) :
    (∃ j, s.newCertificateIDLoop sha224 certType content fuel i =
        some (.ok (getCertificateID sha224 certType content j)) ∧
      s.getCertificateByID (getCertificateID sha224 certType content j) =
        .error .certificateNotExists) ∨
    (s.newCertificateIDLoop sha224 certType content fuel i = some (.error .indexOverflow) ∧
      ∀ j, i ≤ j → ∃ c, s.getCertificateByID (getCertificateID sha224 certType content j) =
        .ok c) := by
  induction fuel generalizing i with
  | zero =>
    have hi := i.isLt
    omega
  | succ fuel ih =>
    rw [CertificateStore.newCertificateIDLoop]
    cases hget : s.getCertificateByID (getCertificateID sha224 certType content i) with
    | error e =>
      cases getCertificateByID_eq_error rfl hget
      exact .inl ⟨i, rfl, hget⟩
    | ok c =>
      dsimp only
      split
      · rename_i hlast
        refine .inr ⟨rfl, ?_⟩
        intro j hj
        have hj' : j = i := by
          rw [hlast, Fin.le_def] at hj
          rw [hlast]
          apply Fin.ext
          have hlt := j.isLt
          have h255 : (255 : Byte).val = 255 := rfl
          omega
        exact ⟨c, hj' ▸ hget⟩
      · rename_i hlast
        have hne : i.val ≠ 255 := fun h => hlast (Fin.ext h)
        have hsucc : (i + 1).val = i.val + 1 := by
          have hlt := i.isLt
          rw [Fin.val_add]
          omega
        rcases ih (i + 1) (by omega) with ⟨j, hloop, hfree⟩ | ⟨hloop, hall⟩
        · exact .inl ⟨j, hloop, hfree⟩
        · refine .inr ⟨hloop, ?_⟩
          intro j hj
          by_cases hij : j = i
          · exact ⟨c, hij ▸ hget⟩
          · apply hall j
            rw [Fin.le_def] at hj ⊢
            have hval : j.val ≠ i.val := fun h => hij (Fin.ext h)
            omega

lemma newCertificateIDLoop_mono {fuel fuel' : Nat} {i : Byte}
    {result : Except CertificateFault CertificateID} (hle : fuel ≤ fuel')
    (h : s.newCertificateIDLoop sha224 certType content fuel i = some result) :
    s.newCertificateIDLoop sha224 certType content fuel' i = some result := by
  induction fuel generalizing fuel' i with
  | zero => cases h
  | succ fuel ih =>
    obtain ⟨fuel', rfl⟩ : ∃ k, fuel' = k + 1 := ⟨fuel' - 1, by omega⟩
    rw [CertificateStore.newCertificateIDLoop] at h ⊢
    cases hget : s.getCertificateByID (getCertificateID sha224 certType content i) with
    | error e =>
      cases getCertificateByID_eq_error rfl hget
      rw [hget] at h
      exact h
    | ok c =>
      rw [hget] at h
      dsimp only at h ⊢
      split
      · rename_i hlast
        rwa [if_pos hlast] at h
      · rename_i hlast
        rw [if_neg hlast] at h
        exact ih (by omega) h

lemma newCertificateIDLoop_ends (sha224 : List Byte → List Byte) (s : CertificateStore)
    (certType : CertificateType) (content : RequestContent) :
    ∃ result, ∀ fuel, 256 ≤ fuel →
      s.newCertificateIDLoop sha224 certType content fuel 0 = some result := by
  have hspec := newCertificateIDLoop_spec sha224 s certType content 256 0 le_rfl
  rcases hspec with ⟨j, hloop, -⟩ | ⟨hloop, -⟩
  · exact ⟨_, fun fuel hle => newCertificateIDLoop_mono hle hloop⟩
  · exact ⟨_, fun fuel hle => newCertificateIDLoop_mono hle hloop⟩

lemma getNewCertificateID_cases (sha224 : List Byte → List Byte) (s : CertificateStore)
    (certType : CertificateType) (content : RequestContent) :
    (∃ j, s.getNewCertificateID sha224 certType content =
        .ok (getCertificateID sha224 certType content j) ∧
      s.getCertificateByID (getCertificateID sha224 certType content j) =
        .error .certificateNotExists) ∨
    (s.getNewCertificateID sha224 certType content = .error .indexOverflow ∧
      ∀ j, ∃ c, s.getCertificateByID (getCertificateID sha224 certType content j) = .ok c) := by
  have hspec := newCertificateIDLoop_spec sha224 s certType content 256 0 le_rfl
  unfold CertificateStore.getNewCertificateID
  rcases hspec with ⟨j, hloop, hfree⟩ | ⟨hloop, hall⟩
  · rw [hloop]
    exact .inl ⟨j, rfl, hfree⟩
  · rw [hloop]
    exact .inr ⟨rfl, fun j => hall j (Fin.zero_le j)⟩

end Search

section Issue

variable {sha224 : List Byte → List Byte} {s s' : CertificateStore} {c : Certificate}
  {txHash : List Byte} {id : CertificateID}

/-- The certificate as it is stored. -/
def Certificate.issued (c : Certificate) (id : CertificateID) (txHash : List Byte) : Certificate :=
  { c with certID := id, certTxHash := hexEncode txHash }

lemma issueCertificate_spec (h : s.issueCertificate sha224 c txHash = .ok (id, s')) :
    ∃ i, id = getCertificateID sha224 c.certType c.reqContent i ∧
      s.getCertificateByID id = .error .certificateNotExists ∧
      s' = { s with certificates := s.certificates.set (c.issued id txHash) } := by
  simp only [CertificateStore.issueCertificate, bind_eq_ok, pure_eq_ok, Prod.mk.injEq] at h
  obtain ⟨_, -, certID, hnew, rfl, rfl⟩ := h
  rcases getNewCertificateID_cases sha224 s c.certType c.reqContent with
    ⟨j, hid, hfree⟩ | ⟨hfull, -⟩
  · cases hid.symm.trans hnew
    exact ⟨j, rfl, hfree, rfl⟩
  · cases hfull.symm.trans hnew

lemma storeKey_issued {i : Byte} (hid : id = getCertificateID sha224 c.certType c.reqContent i) :
    (c.issued id txHash).storeKey =
      certificateStoreKey (certificateIDBytes sha224 c.certType c.reqContent i) := by
  unfold Certificate.storeKey Certificate.issued
  rw [hid]
  unfold getCertificateID
  rw [hexDecode_hexEncode]
  rfl

lemma issueCertificate_fresh (h : s.issueCertificate sha224 c txHash = .ok (id, s')) :
    s.certificates.get (c.issued id txHash).storeKey = none := by
  obtain ⟨i, hid, hfree, -⟩ := issueCertificate_spec h
  rw [storeKey_issued hid]
  rw [hid, getCertificateByID_getCertificateID] at hfree
  cases hget : s.certificates.get _ with
  | none => rfl
  | some c' =>
    rw [hget] at hfree
    cases hfree

lemma getCertificateByID_issued (h : s.issueCertificate sha224 c txHash = .ok (id, s')) :
    s'.getCertificateByID id = .ok (c.issued id txHash) ∧
      ∀ id' c', s.getCertificateByID id' = .ok c' → s'.getCertificateByID id' = .ok c' := by
  obtain ⟨i, hid, -, hs'⟩ := issueCertificate_spec h
  have hfresh := issueCertificate_fresh h
  constructor
  · have hkey : s'.certificates.get (certificateStoreKey
        (certificateIDBytes sha224 c.certType c.reqContent i)) = some (c.issued id txHash) := by
      rw [← storeKey_issued hid, hs']
      exact Table.get_set_self s.certificates (c.issued id txHash)
    conv_lhs => rw [hid]
    rw [getCertificateByID_getCertificateID, hkey]
    rfl
  · intro id' c' hget
    simp only [CertificateStore.getCertificateByID, bind_eq_ok, orFail_eq_ok] at hget ⊢
    obtain ⟨bz, hbz, hfound⟩ := hget
    refine ⟨bz, hbz, ?_⟩
    rw [hs']
    rw [Table.get_set_of_ne, hfound]
    intro heq
    rw [← heq, hfound] at hfresh
    cases hfresh

lemma issueCertificate_fails_iff (sha224 : List Byte → List Byte) (txHash : List Byte)
    (hcertifier : s.isCertifier c.certCertifier = true) :
    (∃ e, s.issueCertificate sha224 c txHash = .error e) ↔
      ∀ i, ∃ c', s.getCertificateByID (getCertificateID sha224 c.certType c.reqContent i) =
        .ok c' := by
  have heq : s.issueCertificate sha224 c txHash = (do
      let certID ← s.getNewCertificateID sha224 c.certType c.reqContent
      return (certID, { s with certificates := s.certificates.set (c.issued certID txHash) })) := by
    unfold CertificateStore.issueCertificate failIf
    rw [if_neg (by simp [hcertifier])]
    rfl
  rw [heq]
  rcases getNewCertificateID_cases sha224 s c.certType c.reqContent with
    ⟨j, hid, hfree⟩ | ⟨hfull, hall⟩
  · rw [hid]
    constructor
    · rintro ⟨e, he⟩
      cases he
    · intro hall
      obtain ⟨c', hc'⟩ := hall j
      cases hfree.symm.trans hc'
  · rw [hfull]
    exact ⟨fun _ => hall, fun _ => ⟨_, rfl⟩⟩

end Issue

end Shentu.Cert
