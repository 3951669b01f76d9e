import Shentu.Cert.Certificates

/-!
The certificates over whole runs from an empty store. The store holds what was issued and not
revoked, each certificate under an ID of its own type and content, so a scan by type and hash finds
all certificates of a content even if hashes collide.
-/

namespace Shentu.Cert

open Lib List

section Runs

/-- An action revokes the certificate with an ID. -/
def CertificateAction.Revokes (id : CertificateID) : CertificateAction → Prop
  | .revoke id' _ => hexDecode id' = hexDecode id
  | _ => False

/-- An action issues a certificate. -/
def Issues (sha224 : List Byte → List Byte) (s : CertificateStore) (action : CertificateAction)
    (c : Certificate) : Prop :=
  ∃ c₀ txHash id s', action = .issue c₀ txHash ∧
    s.issueCertificate sha224 c₀ txHash = .ok (id, s') ∧ c = c₀.issued id txHash

/-- A certificate was issued in a run and none of the later actions revokes it. -/
def IssuedNotRevoked (sha224 : List Byte → List Byte) (s₀ : CertificateStore)
    (actions : List CertificateAction) (c : Certificate) : Prop :=
  ∃ before action rest s, actions = before ++ action :: rest ∧
    before.foldlM (certificateStep sha224) s₀ = .ok s ∧ Issues sha224 s action c ∧
    ∀ later ∈ rest, ¬ later.Revokes c.certID

variable {sha224 : List Byte → List Byte} {s₀ s s' : CertificateStore}
  {actions : List CertificateAction} {action : CertificateAction} {c : Certificate}

lemma issuedNotRevoked_append_singleton
    (hrun : actions.foldlM (certificateStep sha224) s₀ = .ok s) :
    IssuedNotRevoked sha224 s₀ (actions ++ [action]) c ↔
      IssuedNotRevoked sha224 s₀ actions c ∧ ¬ action.Revokes c.certID ∨
        Issues sha224 s action c := by
  constructor
  · rintro ⟨before, issue, rest, s1, heq, hbefore, hissues, hlater⟩
    rcases eq_nil_or_concat rest with rfl | ⟨rest, last, rfl⟩
    · obtain ⟨rfl, hlast⟩ := append_inj' heq rfl
      cases hlast
      cases hrun.symm.trans hbefore
      exact .inr hissues
    · rw [concat_eq_append] at heq hlater
      have heq' : actions ++ [action] = (before ++ issue :: rest) ++ [last] := by
        rw [heq, append_assoc, cons_append]
      obtain ⟨rfl, hlast⟩ := append_inj' heq' rfl
      cases hlast
      refine .inl ⟨⟨before, issue, rest, s1, rfl, hbefore, hissues, ?_⟩, ?_⟩
      · exact fun later hmem => hlater later (mem_append_left _ hmem)
      · exact hlater action (mem_append_right _ (mem_singleton_self _))
  · rintro (⟨⟨before, issue, rest, s1, rfl, hbefore, hissues, hlater⟩, hkept⟩ | hissues)
    · refine ⟨before, issue, rest ++ [action], s1, ?_, hbefore, hissues, ?_⟩
      · rw [append_assoc, cons_append]
      · intro later hmem
        rcases mem_append.mp hmem with hmem | hmem
        · exact hlater later hmem
        · cases mem_singleton.mp hmem
          exact hkept
    · exact ⟨actions, action, [], s, rfl, hrun, hissues, fun _ h => nomatch h⟩

/-- A stored certificate has the ID of its own type and content. -/
def OwnID (sha224 : List Byte → List Byte) (c : Certificate) : Prop :=
  ∃ i, c.certID = getCertificateID sha224 c.certType c.reqContent i

lemma storeKey_of_ownID {i : Byte}
    (h : c.certID = getCertificateID sha224 c.certType c.reqContent i) :
    c.storeKey = certificateStoreKey (certificateIDBytes sha224 c.certType c.reqContent i) := by
  unfold Certificate.storeKey
  rw [h]
  unfold getCertificateID
  rw [hexDecode_hexEncode]
  rfl

/-- The rows after a step: those that it does not revoke, and the one that it issues. -/
lemma mem_certificateStep (hown : ∀ c ∈ s.certificates.rows, OwnID sha224 c)
    (h : certificateStep sha224 s action = .ok s') :
    c ∈ s'.certificates.rows ↔
      c ∈ s.certificates.rows ∧ ¬ action.Revokes c.certID ∨ Issues sha224 s action c := by
  cases action with
  | issue c0 txHash =>
    simp only [certificateStep, bind_eq_ok, pure_eq_ok] at h
    obtain ⟨⟨id, s1⟩, hissue, rfl⟩ := h
    obtain ⟨-, -, -, hs1⟩ := issueCertificate_spec hissue
    have hfresh := issueCertificate_fresh hissue
    have hissues : ∀ c, Issues sha224 s (.issue c0 txHash) c ↔ c = c0.issued id txHash := by
      intro c
      constructor
      · rintro ⟨c1, tx, id', s2, heq, hissue', rfl⟩
        cases heq
        cases hissue.symm.trans hissue'
        rfl
      · rintro rfl
        exact ⟨c0, txHash, id, s1, rfl, hissue, rfl⟩
    rw [hissues, hs1, Table.mem_set]
    constructor
    · rintro (rfl | ⟨hmem, -⟩)
      · exact .inr rfl
      · exact .inl ⟨hmem, not_false⟩
    · rintro (⟨hmem, -⟩ | rfl)
      · refine .inr ⟨hmem, ?_⟩
        intro hkey
        rw [← hkey, Table.get_of_mem hmem] at hfresh
        cases hfresh
      · exact .inl rfl
  | revoke id revoker =>
    simp only [certificateStep, CertificateStore.revokeCertificate,
      CertificateStore.deleteCertificate, bind_eq_ok, pure_eq_ok, orFail_eq_ok] at h
    obtain ⟨_, -, bz, hbz, _, -, rfl⟩ := h
    have hissues : ¬ Issues sha224 s (.revoke id revoker) c := by
      rintro ⟨c0, txHash, id', s1, heq, -⟩
      cases heq
    rw [or_iff_left hissues, Table.mem_delete]
    refine and_congr_right ?_
    intro hmem
    obtain ⟨i, hi⟩ := hown c hmem
    refine not_congr ?_
    show c.storeKey = certificateStoreKey bz ↔ hexDecode id = hexDecode c.certID
    rw [storeKey_of_ownID hi, hbz, hi]
    unfold certificateStoreKey getCertificateID
    rw [hexDecode_hexEncode, append_cancel_left_eq, Option.some_inj]
    exact eq_comm
  | certifiers certifiers =>
    cases h
    have hissues : ¬ Issues sha224 s (.certifiers certifiers) c := by
      rintro ⟨c0, txHash, id', s1, heq, -⟩
      cases heq
    rw [or_iff_left hissues]
    exact ⟨fun hmem => ⟨hmem, not_false⟩, fun h => h.1⟩

lemma ownID_of_issues (h : Issues sha224 s action c) : OwnID sha224 c := by
  obtain ⟨c0, txHash, id, s', -, hissue, rfl⟩ := h
  obtain ⟨i, hid, -⟩ := issueCertificate_spec hissue
  exact ⟨i, hid⟩

/-- The store holds the certificates that were issued and not revoked, under their own IDs. -/
lemma mem_certificates_iff {certifiers : Table Certifier.address}
    (hrun : actions.foldlM (certificateStep sha224) ⟨certifiers, .empty⟩ = .ok s) :
    (∀ c ∈ s.certificates.rows, OwnID sha224 c) ∧
      ∀ c, c ∈ s.certificates.rows ↔ IssuedNotRevoked sha224 ⟨certifiers, .empty⟩ actions c := by
  induction actions using List.reverseRecOn generalizing s with
  | nil =>
    cases hrun
    have hnone : ∀ c, c ∉ (Table.empty : Table Certificate.storeKey).rows :=
      fun _ => not_mem_nil
    refine ⟨fun c hc => absurd hc (hnone c), fun c => ⟨fun hc => absurd hc (hnone c), ?_⟩⟩
    rintro ⟨before, action, rest, s, heq, -⟩
    exact absurd heq.symm (by simp)
  | append_singleton actions action ih =>
    obtain ⟨s1, hrun1, hstep⟩ := foldlM_append_eq_ok.mp hrun
    obtain ⟨s2, hstep, hnil⟩ := foldlM_cons_eq_ok.mp hstep
    cases hnil
    obtain ⟨hown, hmem⟩ := ih hrun1
    constructor
    · intro c hc
      rcases (mem_certificateStep hown hstep).mp hc with ⟨hold, -⟩ | hissues
      · exact hown c hold
      · exact ownID_of_issues hissues
    · intro c
      rw [mem_certificateStep hown hstep, hmem c, issuedNotRevoked_append_singleton hrun1]

end Runs

/-- A scan of the keys with a type and a hash meets every certificate with them. -/
lemma mem_iterate_of_ownID {sha224 : List Byte → List Byte} {s : CertificateStore}
    {c : Certificate} {content : RequestContent} (hown : OwnID sha224 c)
    (hmem : c ∈ s.certificates.rows) (hreq : c.reqContent = content) :
    c ∈ s.iterateCertificatesByContent sha224 c.certType content := by
  obtain ⟨i, hi⟩ := hown
  have hkey : c.storeKey = certificateStoreContentKey sha224 c.certType c.reqContent ++ [i] := by
    rw [storeKey_of_ownID hi]
    unfold certificateStoreKey certificateIDBytes certificateStoreContentKey
    simp only [append_assoc]
  refine mem_filter.mpr ⟨hmem, decide_eq_true ?_⟩
  rw [← hreq, hkey]
  constructor
  · exact le_append _ _
  · rw [beforeEnd_prefixEndBytes _ _ (by simp), take_left']
    rfl

lemma newRequestContent_of_recognised {upper : String → String} {requestContentType : String}
    (h : requestContentTypeFromString upper requestContentType ≠ .nil) {content : List Byte} :
    newRequestContent upper requestContentType content =
      .ok ⟨requestContentTypeFromString upper requestContentType, content⟩ := by
  unfold newRequestContent
  split
  · rename_i hnil
    exact absurd hnil h
  · rfl

/-- A look-up finds the certificates that are stored under their own IDs. -/
lemma isCertified_iff {sha224 : List Byte → List Byte} {upper : String → String}
    {s : CertificateStore} (hown : ∀ c ∈ s.certificates.rows, OwnID sha224 c)
    {requestContentType certType : String} (content : List Byte)
    (hrecognised : requestContentTypeFromString upper requestContentType ≠ .nil) :
    s.isCertified sha224 upper requestContentType content certType = true ↔
      ∃ c ∈ s.certificates.rows, c.certType = certificateTypeFromString upper certType ∧
        c.reqContent = ⟨requestContentTypeFromString upper requestContentType, content⟩ := by
  unfold CertificateStore.isCertified
  rw [newRequestContent_of_recognised hrecognised]
  rw [decide_eq_true_iff, length_pos_iff_exists_mem]
  refine exists_congr ?_
  intro c
  unfold CertificateStore.getCertificatesByTypeAndContent
  rw [mem_filter, decide_eq_true_eq]
  constructor
  · rintro ⟨hmem, hreq, htype⟩
    exact ⟨(mem_filter.mp hmem).1, htype, hreq⟩
  · rintro ⟨hmem, htype, hreq⟩
    exact ⟨htype ▸ mem_iterate_of_ownID (hown c hmem) hmem hreq, hreq, htype⟩

/-- Every run from an empty store: the search for an ID ends; a certificate is issued under an ID
that is not in use, and what is stored stays; a certifier fails only if all indices are in use; and
a look-up by recognised names finds what was issued and not revoked. -/
theorem certificate_store_correct (sha224 : List Byte → List Byte) (upper : String → String)
    (certifiers : Table Certifier.address) (actions : List CertificateAction) (s : CertificateStore)
    (hrun : actions.foldlM (certificateStep sha224) ⟨certifiers, .empty⟩ = .ok s) :
    (∀ certType content, ∃ result, ∀ fuel, 256 ≤ fuel →
      s.newCertificateIDLoop sha224 certType content fuel 0 = some result) ∧
    (∀ c txHash id s', s.issueCertificate sha224 c txHash = .ok (id, s') →
      s.getCertificateByID id = .error .certificateNotExists ∧
      s'.getCertificateByID id = .ok (c.issued id txHash) ∧
      ∀ id' c', s.getCertificateByID id' = .ok c' → s'.getCertificateByID id' = .ok c') ∧
    (∀ c txHash, s.isCertifier c.certCertifier = true →
      ((∃ e, s.issueCertificate sha224 c txHash = .error e) ↔
        ∀ i, ∃ c', s.getCertificateByID (getCertificateID sha224 c.certType c.reqContent i) =
          .ok c')) ∧
    ∀ requestContentType content certType,
      requestContentTypeFromString upper requestContentType ≠ .nil →
      certificateTypeFromString upper certType ≠ .nil →
      (s.isCertified sha224 upper requestContentType content certType = true ↔
        ∃ c, IssuedNotRevoked sha224 ⟨certifiers, .empty⟩ actions c ∧
          c.certType = certificateTypeFromString upper certType ∧
          c.reqContent = ⟨requestContentTypeFromString upper requestContentType, content⟩) := by
  obtain ⟨hown, hmem⟩ := mem_certificates_iff hrun
  refine ⟨newCertificateIDLoop_ends sha224 s, ?_, ?_, ?_⟩
  · intro c txHash id s' hissue
    obtain ⟨-, -, hfree, -⟩ := issueCertificate_spec hissue
    exact ⟨hfree, getCertificateByID_issued hissue⟩
  · intro c txHash hcertifier
    exact issueCertificate_fails_iff sha224 txHash hcertifier
  · intro requestContentType content certType hrecognised _
    rw [isCertified_iff hown content hrecognised]
    refine exists_congr ?_
    intro c
    rw [hmem c]

/-- A general certificate of an address, issued by the first address. -/
def addressCertificate (content : List Byte) : Certificate :=
  ⟨[], .general, ⟨.address, content⟩, none, "", 1, []⟩

/-- Two certificates with colliding hashes are issued and the first is revoked. -/
def collidingRun : List CertificateAction :=
  [.issue (addressCertificate [1]) [], .issue (addressCertificate [2]) [],
    .revoke (hexEncode [7, 0]) 1]

theorem certificate_store_correct_colliding :
    ∃ s, collidingRun.foldlM (certificateStep fun _ => [])
        ⟨Table.empty.set ⟨1, "", 0, ""⟩, .empty⟩ = .ok s ∧
      s.isCertified (fun _ => []) id "ADDRESS" [2] "GENERAL" = true ∧
      s.isCertified (fun _ => []) id "ADDRESS" [1] "GENERAL" = false ∧
      (s.isCertified (fun _ => []) id "ADDRESS" [2] "GENERAL" = true ↔
        ∃ c, IssuedNotRevoked (fun _ => []) ⟨Table.empty.set ⟨1, "", 0, ""⟩, .empty⟩
          collidingRun c ∧
          c.certType = .general ∧ c.reqContent = ⟨.address, [2]⟩) := by
  obtain ⟨s, hs, hfound, hgone⟩ : ∃ s, collidingRun.foldlM (certificateStep fun _ => [])
        ⟨Table.empty.set ⟨1, "", 0, ""⟩, .empty⟩ = .ok s ∧
      s.isCertified (fun _ => []) id "ADDRESS" [2] "GENERAL" = true ∧
      s.isCertified (fun _ => []) id "ADDRESS" [1] "GENERAL" = false := by
    decide +kernel
  exact ⟨s, hs, hfound, hgone,
    (certificate_store_correct (fun _ => []) id _ collidingRun s hs).2.2.2 "ADDRESS" [2]
      "GENERAL" (by decide) (by decide)⟩

end Shentu.Cert
