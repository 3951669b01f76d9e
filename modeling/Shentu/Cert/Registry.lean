import Shentu.Cert.Validators

/-!
The registry of certifiers over whole runs. A certifier is stored under the address and, if it has
an alias, once more under that. The removal of a certifier finds the second key in the stored
record, so the two stores agree after any proposals, and the last certifier stays.
-/

namespace Shentu.Cert

open Lib CVM Table

variable {c c' : Chain} {b b' : CertifierBook} {action : CertAction}

/-- An action that fails leaves the chain as it was. -/
def Chain.execute (c : Chain) (action : CertAction) : Chain :=
  match certStep c action with
  | .ok c' => c'
  | .error _ => c

/-- The two stores of certifiers agree on all aliases that are not empty. -/
structure AliasesAgree (b : CertifierBook) : Prop where
  stored : ∀ r ∈ b.aliases.rows, r.certifierAlias ≠ "" →
    r.certifier.certifierAlias = r.certifierAlias ∧
      b.certifiers.get r.certifier.address = some r.certifier
  found : ∀ certifier ∈ b.certifiers.rows, certifier.certifierAlias ≠ "" →
    b.aliases.get certifier.certifierAlias = some ⟨certifier.certifierAlias, certifier⟩

lemma AliasesAgree.unique (h : AliasesAgree b) {x y : Certifier} (hx : x ∈ b.certifiers.rows)
    (hy : y ∈ b.certifiers.rows) (halias : x.certifierAlias ≠ "")
    (heq : x.certifierAlias = y.certifierAlias) : x = y := by
  have hfound := (h.found x hx halias).symm.trans
    ((congrArg _ heq).trans (h.found y hy (heq ▸ halias)))
  exact congrArg AliasRecord.certifier (Option.some.inj hfound)

lemma setCertifier_agree (h : AliasesAgree b) {new : Certifier}
    (haddress : b.certifiers.get new.address = none)
    (halias : new.certifierAlias ≠ "" → b.aliases.get new.certifierAlias = none) :
    AliasesAgree (b.setCertifier new) := by
  have hother : ∀ {certifier : Certifier}, certifier ∈ b.certifiers.rows →
      certifier.address ≠ new.address :=
    fun hmem => get_eq_none_iff.mp haddress _ hmem
  have hkept : ∀ r ∈ b.aliases.rows, r.certifierAlias ≠ "" →
      r.certifier.certifierAlias = r.certifierAlias ∧
        (b.certifiers.set new).get r.certifier.address = some r.certifier := by
    intro r hr hne
    obtain ⟨heq, hget⟩ := h.stored r hr hne
    exact ⟨heq, (get_set_of_ne _ (hother (mem_of_get hget))).trans hget⟩
  by_cases hempty : new.certifierAlias = ""
  · -- only the store by addresses is written
    have haliases : (b.setCertifier new).aliases = b.aliases := if_neg (not_not.mpr hempty)
    refine ⟨haliases ▸ hkept, haliases ▸ forall_mem_set ?_ h.found⟩
    exact fun hne => absurd hempty hne
  · have haliases : (b.setCertifier new).aliases =
        b.aliases.set ⟨new.certifierAlias, new⟩ := if_pos hempty
    constructor
    · rw [haliases]
      exact forall_mem_set (fun _ => ⟨rfl, get_set_self _ _⟩) hkept
    · rw [haliases]
      refine forall_mem_set (fun _ => get_set_self _ (⟨_, new⟩ : AliasRecord)) ?_
      intro certifier hmem hne
      have hfound := h.found certifier hmem hne
      refine (get_set_of_ne _ ?_).trans hfound
      intro heq
      rw [heq] at hfound
      cases (halias hempty).symm.trans hfound

lemma deleteCertifier_agree (h : AliasesAgree b) {a : Address}
    (hdelete : b.deleteCertifier a = .ok b') : AliasesAgree b' := by
  simp only [CertifierBook.deleteCertifier, run_eq_ok] at hdelete
  obtain ⟨old, hget, rfl⟩ := hdelete
  have hold := mem_of_get hget
  have haddress : old.address = a := key_of_get hget
  constructor
  · intro r hr hne
    obtain ⟨hr, hdiff⟩ := mem_delete.mp hr
    obtain ⟨heq, hstored⟩ := h.stored r hr hne
    refine ⟨heq, (get_delete_of_ne _ ?_).trans hstored⟩
    -- under the address that is deleted stands a certifier with the deleted alias
    intro hsame
    rw [hsame, hget] at hstored
    exact hdiff (heq ▸ congrArg Certifier.certifierAlias (Option.some.inj hstored).symm)
  · intro certifier hmem hne
    obtain ⟨hmem, hdiff⟩ := mem_delete.mp hmem
    refine (get_delete_of_ne _ ?_).trans (h.found certifier hmem hne)
    intro heq
    exact hdiff ((h.unique hmem hold hne heq) ▸ haddress)

/-- After a proposal the aliases agree, and there is a certifier. -/
lemma handleCertifierUpdateProposal_agree {p : CertifierUpdateProposal} (h : AliasesAgree b)
    (hupdate : b.handleCertifierUpdateProposal p = .ok b') :
    AliasesAgree b' ∧ (b.certifiers.rows ≠ [] → b'.certifiers.rows ≠ []) := by
  unfold CertifierBook.handleCertifierUpdateProposal at hupdate
  split at hupdate
  · simp only [run_eq_ok] at hupdate
    obtain ⟨hnew, hfree, rfl⟩ := hupdate
    refine ⟨setCertifier_agree h ?_ ?_, ?_⟩
    · simpa [CertifierBook.isCertifier] using hnew
    · simpa +contextual [CertifierBook.hasCertifierAlias] using hfree
    · intro _ hnone
      have hmem := mem_of_get (get_set_self b.certifiers
        ⟨p.certifier, p.certifierAlias, p.proposer, p.description⟩)
      exact List.not_mem_nil (hnone ▸ hmem)
  · simp only [run_eq_ok] at hupdate
    obtain ⟨hmany, hdelete⟩ := hupdate
    refine ⟨deleteCertifier_agree h hdelete, ?_⟩
    simp only [CertifierBook.deleteCertifier, run_eq_ok] at hdelete
    obtain ⟨old, hget, rfl⟩ := hdelete
    intro _ hnone
    have hperm := (rows_perm_of_get hget).length_eq
    rw [List.length_cons, hnone] at hperm
    exact hmany hperm
  · cases hupdate

/-- Only a proposal changes the certifiers. -/
lemma certStep_certifiers (hstep : certStep c action = .ok c') :
    c'.toCertifierBook = c.toCertifierBook ∨
      ∃ p, c.handleCertifierUpdateProposal p = .ok c'.toCertifierBook := by
  cases action with
  | certify pubKey certifier =>
    simp only [certStep, Chain.certifyValidator, run_eq_ok] at hstep
    obtain ⟨-, -, rfl⟩ := hstep
    exact .inl rfl
  | decertify pubKey decertifier =>
    simp only [certStep, Chain.decertifyValidator, run_eq_ok] at hstep
    obtain ⟨-, record, -, -, signer, -, -, rfl⟩ := hstep
    exact .inl rfl
  | staking signers =>
    cases hstep
    exact .inl rfl
  | call host meter gasRate fuel msg =>
    simp only [certStep, Chain.call, run_eq_ok] at hstep
    obtain ⟨outcome, -, hstep⟩ := hstep
    split at hstep
    · cases hstep
      exact .inl rfl
    · cases hstep
  | updateCertifier p =>
    simp only [certStep, Chain.updateCertifiers] at hstep
    split at hstep
    · rename_i b hb
      cases hstep
      exact .inr ⟨p, hb⟩
    · cases hstep

lemma execute_registry (action : CertAction) (h : AliasesAgree c.toCertifierBook) :
    AliasesAgree (c.execute action).toCertifierBook ∧
      (c.certifiers.rows ≠ [] → (c.execute action).certifiers.rows ≠ []) := by
  unfold Chain.execute
  cases hstep : certStep c action with
  | error e => exact ⟨h, id⟩
  | ok c' =>
    rcases certStep_certifiers hstep with hsame | ⟨p, hp⟩
    · show AliasesAgree c'.toCertifierBook ∧ (_ → c'.certifiers.rows ≠ [])
      rw [hsame]
      exact ⟨h, id⟩
    · exact handleCertifierUpdateProposal_agree h hp

/-- After any actions, each alias in the index is that of exactly one stored certifier and each
certifier with an alias is found under it, and there is a certifier if there was one. -/
theorem registry_of_run (h : AliasesAgree c.toCertifierBook) (actions : List CertAction) :
    AliasesAgree (actions.foldl Chain.execute c).toCertifierBook ∧
      (∀ r ∈ (actions.foldl Chain.execute c).aliases.rows, r.certifierAlias ≠ "" →
        ∃! certifier, certifier ∈ (actions.foldl Chain.execute c).certifiers.rows ∧
          certifier.certifierAlias = r.certifierAlias) ∧
      (c.certifiers.rows ≠ [] → (actions.foldl Chain.execute c).certifiers.rows ≠ []) := by
  have hrun : AliasesAgree (actions.foldl Chain.execute c).toCertifierBook ∧
      (c.certifiers.rows ≠ [] → (actions.foldl Chain.execute c).certifiers.rows ≠ []) := by
    induction actions generalizing c with
    | nil => exact ⟨h, id⟩
    | cons action actions ih =>
      obtain ⟨hagree, hsome⟩ := execute_registry action h
      exact ⟨(ih hagree).1, fun hne => (ih hagree).2 (hsome hne)⟩
  refine ⟨hrun.1, ?_, hrun.2⟩
  intro r hr hne
  obtain ⟨heq, hget⟩ := hrun.1.stored r hr hne
  have hmem := mem_of_get hget
  refine ⟨r.certifier, ⟨hmem, heq⟩, ?_⟩
  rintro other ⟨hother, halias⟩
  exact hrun.1.unique hother hmem (halias ▸ hne) (halias.trans heq.symm)

/-- A second certifier takes an alias and the first one is removed. The alias is not given away
again, and the second one stays. -/
def replacements : List CertAction :=
  [.updateCertifier ⟨2, "b", 1, "", .add⟩, .updateCertifier ⟨1, "", 1, "", .remove⟩,
    .updateCertifier ⟨3, "b", 1, "", .add⟩, .updateCertifier ⟨2, "", 1, "", .remove⟩]

theorem registry_of_replacements :
    AliasesAgree (replacements.foldl Chain.execute (certifyingChain [1])).toCertifierBook ∧
      (replacements.foldl Chain.execute (certifyingChain [1])).certifiers.rows ≠ [] := by
  have hstart : AliasesAgree (certifyingChain [1]).toCertifierBook :=
    ⟨by simp [certifyingChain], by simp [certifyingChain, mem_set]⟩
  obtain ⟨hagree, -, hsome⟩ := registry_of_run hstart replacements
  exact ⟨hagree, hsome (by decide)⟩

end Shentu.Cert
