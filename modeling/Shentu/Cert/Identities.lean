import Shentu.Cert.CertificateRuns
import Shentu.Gov.StakeTally

/-!
The certified identities that the gov module asks for, in the store of the certificates. The store
finds them by keys with a hash; the count of the stake reads the stored certificates as a list.
-/

namespace Shentu.Cert

open Lib List

/-- A stored certificate as the count of the stake reads it, with the text of its content. -/
def Certificate.view (bytes : String ≃ List Byte) (c : Certificate) : Shentu.Certificate :=
  ⟨c.certType, c.reqContent.requestContentType, bytes.symm c.reqContent.requestContent⟩

/-- After any run, the store certifies an identity exactly if one of its certificates does. -/
lemma isCertified_identity {sha224 : List Byte → List Byte} {upper : String → String}
    {certifiers : Table Certifier.address} {actions : List CertificateAction} {s : CertificateStore}
    (hrun : actions.foldlM (certificateStep sha224) ⟨certifiers, .empty⟩ = .ok s)
    (haddress : upper "address" = "ADDRESS") (hidentity : upper "identity" = "IDENTITY")
    (codec : AddressCodec) (bytes : String ≃ List Byte) (a : AccAddress) :
    s.isCertified sha224 upper "address" (bytes (codec.string a)) "identity" =
      isCertifiedIdentity codec (s.certificates.rows.map (Certificate.view bytes)) a := by
  have hcontent : requestContentTypeFromString upper "address" = .address := by
    simp [requestContentTypeFromString, haddress]
  have htype : certificateTypeFromString upper "identity" = .identity := by
    simp [certificateTypeFromString, hidentity]
  have hknown : requestContentTypeFromString upper "address" ≠ .nil := by simp [hcontent]
  rw [Bool.eq_iff_iff, isCertified_iff (mem_certificates_iff hrun).1 _ hknown, htype, hcontent]
  simp only [isCertifiedIdentity, any_eq_true, mem_map, decide_eq_true_eq]
  constructor
  · rintro ⟨c, hc, hctype, hreq⟩
    refine ⟨c.view bytes, ⟨c, hc, rfl⟩, hctype, ?_, ?_⟩
    · simp [Certificate.view, hreq]
    · simp [Certificate.view, hreq]
  · rintro ⟨_, ⟨c, hc, rfl⟩, hctype, hreqType, hreq⟩
    refine ⟨c, hc, hctype, ?_⟩
    have hbytes : c.reqContent.requestContent = bytes (codec.string a) :=
      bytes.symm_apply_eq.mp hreq
    rw [← hbytes, ← hreqType]
    rfl

end Shentu.Cert
