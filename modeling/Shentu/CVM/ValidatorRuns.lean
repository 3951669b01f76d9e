import Shentu.CVM.CallEffects
import Shentu.CVM.Keeper

/-!
What whole executions do to the records of certified validators. They are written only by the
precompiled contract that certifies a validator, at once and whatever becomes of the frame that has
called it.
-/

namespace Shentu.CVM

open Lib Option

/-- The key that a call asks the precompiled contract to certify. -/
def certifiedKey (env : Env) (req : Request) : Option (List Byte) :=
  if req.native = some 12 ∧ env.isCertifier req.params.origin = true then
    env.getPubKeyFromBech32 req.params.input
  else none

/-- The condition on an instruction: whoever asks to certify a validator is a certifier, and the
validator has no record. -/
def CertifiesWell (env : Env) (f : Frame) : Prop :=
  ∀ callType ∈ [CallType.call, .code, .delegate, .static], f.op = callType.op →
    ∀ req ∈ (call callType f.paid).1, ∀ pubKey ∈ certifiedKey env req,
      env.isCertifier req.params.caller = true ∧ f.shared.validators.get pubKey = none

instance (env : Env) (f : Frame) : Decidable (CertifiesWell env f) := by
  unfold CertifiesWell
  infer_instance

/-- Records are added for certifiers, and no record is changed or removed. -/
def ValidatorsGrow (isCertifier : Address → Bool) (v v' : Table Validator.pubKey) : Prop :=
  ∀ pubKey, (∀ r, v.get pubKey = some r → v'.get pubKey = some r) ∧
    ∀ r, v'.get pubKey = some r → v.get pubKey = some r ∨ isCertifier r.certifier = true

namespace ValidatorsGrow

variable {isCertifier : Address → Bool} {v v₁ v₂ : Table Validator.pubKey}

lemma refl (v : Table Validator.pubKey) : ValidatorsGrow isCertifier v v :=
  fun _ => ⟨fun _ h => h, fun _ h => .inl h⟩

lemma trans (h : ValidatorsGrow isCertifier v v₁) (h' : ValidatorsGrow isCertifier v₁ v₂) :
    ValidatorsGrow isCertifier v v₂ := by
  intro pubKey
  constructor
  · intro r hr
    exact (h' pubKey).1 r ((h pubKey).1 r hr)
  · intro r hr
    rcases (h' pubKey).2 r hr with hr | hcertifier
    · exact (h pubKey).2 r hr
    · exact .inr hcertifier

lemma set {pubKey : List Byte} {certifier : Address} (hnone : v.get pubKey = none)
    (hcertifier : isCertifier certifier = true) :
    ValidatorsGrow isCertifier v (v.set ⟨pubKey, certifier⟩) := by
  intro key
  rw [Table.get_set]
  constructor
  · intro r hr
    rw [if_neg, hr]
    rintro rfl
    cases hnone.symm.trans hr
  · intro r hr
    split at hr
    · cases hr
      exact .inr hcertifier
    · exact .inl hr

end ValidatorsGrow

lemma validators_callNative (env : Env) (address : Address) (params : CallParams) (gas : Nat)
    (v : Table Validator.pubKey) :
    (callNative env address params gas v).2 = v ∨
      address = 12 ∧ env.isCertifier params.origin = true ∧
        ∃ pubKey, env.getPubKeyFromBech32 params.input = some pubKey ∧
          (callNative env address params gas v).2 = v.set ⟨pubKey, params.caller⟩ := by
  have hgas : ∀ f : Nat → NativeResult × Table Validator.pubKey, (∀ left, (f left).2 = v) →
      (withGas gas v f).2 = v := by
    intro f hf
    unfold withGas
    split
    · rfl
    · exact hf _
  unfold callNative
  split
  · exact .inl rfl
  · left
    apply hgas
    intro left
    split <;> rfl
  · left
    apply hgas
    exact fun _ => rfl
  · unfold certifyValidator withGas
    split
    · exact .inl rfl
    · split
      · exact .inl rfl
      · rename_i horigin
        split
        · exact .inl rfl
        · rename_i pubKey hkey
          refine .inr ⟨rfl, ?_, pubKey, hkey, rfl⟩
          simpa using horigin
  · left
    split <;> rfl

section Steps

variable {env : Env} {f f' : Frame} {req : Request} {r : Result}

lemma validators_next (hq : CertifiesWell env f) (h : step env f = .next f') :
    ValidatorsGrow env.isCertifier f.shared.validators f'.shared.validators := by
  obtain hshared | ⟨callType, req, target, hop, hcall, hnative, hshared⟩ := shared_next h
  · rw [hshared]
    exact .refl _
  · rw [hshared]
    obtain hkept | ⟨rfl, horigin, pubKey, hkey, hset⟩ := validators_callNative env target req.params
      req.gas f.shared.validators
    · rw [hkept]
      exact .refl _
    · rw [hset]
      have hcertified : certifiedKey env req = some pubKey := by
        unfold certifiedKey
        rw [if_pos ⟨hnative, horigin⟩, hkey]
      obtain ⟨hcertifier, hnone⟩ := hq callType (by cases callType <;> simp) hop req hcall
        pubKey hcertified
      exact .set hnone hcertifier

lemma validators_call (h : step env f = .call f' req) :
    f'.shared.validators = f.shared.validators := by
  obtain ⟨-, -, -, hinstruction⟩ := instruction_of_step h (fun _ => nofun)
  have hleads := leads_instruction env f.op f.paid
  rw [hinstruction] at hleads
  generalize hout : Outcome.call f' req = out at hleads
  cases hleads with
  | work hwork =>
    unfold finish at hout
    split at hout <;> cases hout
  | create _ hargs hwork =>
    cases hout
    exact ((Quiet.createArgs f.paid).toProceeds.trans (hargs.trans hwork.toProceeds)).validators
  | call _ _ _ hacts =>
    cases hout
    exact congrArg Shared.validators hacts.shared
  | sstore | destroy | fail | native => cases hout

end Steps

/-- A run whose instructions certify well adds records for certifiers only. -/
lemma validatorsGrow_of_runs {env : Env} {f : Frame} {r : Result} {n : Nat}
    (h : (cvm env).Runs (CertifiesWell env) f r n) :
    ValidatorsGrow env.isCertifier f.shared.validators r.shared.validators := by
  induction h with
  | next hq hstep _ ih => exact (validators_next hq hstep).trans ih
  | done _ hstep =>
    obtain ⟨-, refund, hshared⟩ := done_spec hstep
    rw [hshared]
    exact .refl _
  | @call f f' req r r' n n' _ hstep _ _ ih ih' =>
    have hcalled : f'.shared.validators = f.shared.validators := validators_call hstep
    have hstart : (enter f' req).shared.validators = f.shared.validators := hcalled
    have hback : (resume env f' req r).shared.validators = r.shared.validators :=
      congrArg Shared.validators (shared_resume env f' req r)
    have hcallee : ValidatorsGrow env.isCertifier (enter f' req).shared.validators
      r.shared.validators := ih
    have hrest : ValidatorsGrow env.isCertifier (resume env f' req r).shared.validators
      r'.shared.validators := ih'
    rw [hstart] at hcallee
    rw [hback] at hrest
    exact hcallee.trans hrest

section Keeper

variable {host : Host} {s s' : State} {msg : CallMsg} {p : Prepared} {fuel gas : Nat}

lemma State.validators_syncEntry {e : Entry} (h : s.syncEntry e = .ok s') :
    s'.validators = s.validators := by
  unfold syncEntry at h
  split at h
  · simp only [removeAccount, run_eq_ok] at h
    obtain ⟨_, -, rfl⟩ := h
    rfl
  · simp only [updateAccount, run_eq_ok] at h
    obtain ⟨s1, ⟨_, -, rfl⟩, rfl⟩ := h
    generalize e.storage.reverse = slots
    have hslots : ∀ t : State, (slots.foldl (fun s slot => s.setStorage e.address slot.1 slot.2)
        t).validators = t.validators := by
      induction slots with
      | nil => exact fun _ => rfl
      | cons slot slots ih => exact fun t => ih _
    exact hslots _

lemma State.validators_sync {cache : Cache} (h : s.sync cache = .ok s') :
    s'.validators = s.validators := by
  unfold sync at h
  split at h
  · cases h
    rfl
  · refine foldlM_invariant (P := fun t => t.validators = s.validators) ?_ rfl h
    intro e _ t t' ht hstep
    exact (validators_syncEntry hstep).trans ht

lemma validators_prepare (h : prepare host s msg = .ok p) :
    p.state.validators = s.validators := by
  obtain ⟨metadata, heq⟩ := state_prepare h
  rw [heq]

/-- All instructions of an execution of bytecode certify well. -/
def ExecutionCertifiesWell (host : Host) (fuel : Nat) (p : Prepared) (msg : CallMsg) (gas : Nat) :
    Prop :=
  (cvm (host.env p.nonce)).Meets (CertifiesWell (host.env p.nonce)) fuel
    (topFrame (host.env p.nonce) p msg gas)

/-- The execution of a call certifies well, if the call gets that far. -/
def CallCertifiesWell (host : Host) (meter : GasMeter) (gasRate fuel : Nat) (s : State)
    (msg : CallMsg) : Prop :=
  match prepare host s msg, getOriginalGas meter gasRate with
  | .ok p, .ok gas => ExecutionCertifiesWell host fuel p msg gas
  | _, _ => True

instance (host : Host) (fuel : Nat) (p : Prepared) (msg : CallMsg) (gas : Nat) :
    Decidable (ExecutionCertifiesWell host fuel p msg gas) :=
  inferInstanceAs (Decidable ((cvm (host.env p.nonce)).Meets _ fuel _))

instance (host : Host) (meter : GasMeter) (gasRate fuel : Nat) (s : State) (msg : CallMsg) :
    Decidable (CallCertifiesWell host meter gasRate fuel s msg) :=
  match h : prepare host s msg, h' : getOriginalGas meter gasRate with
  | .ok p, .ok gas =>
    decidable_of_iff (ExecutionCertifiesWell host fuel p msg gas) (by
      unfold CallCertifiesWell
      rw [h, h'])
  | .error _, _ => isTrue (by
      unfold CallCertifiesWell
      rw [h]
      trivial)
  | .ok _, .error _ => isTrue (by
      unfold CallCertifiesWell
      rw [h, h']
      trivial)

lemma validators_execution {x : Executed} (hmeets : ExecutionCertifiesWell host fuel p msg gas)
    (h : execution host fuel p msg gas = some x) :
    ValidatorsGrow host.isCertifier p.state.validators x.validators := by
  unfold execution at h
  split at h
  · split at h
    · cases h
      exact .refl _
    · cases h
      unfold executeWASM
      dsimp only
      split <;> exact .refl _
  · simp only [execute, bind_eq_bind, bind_eq_some_iff, Prod.exists] at h
    obtain ⟨r, n, hrun, heq⟩ := h
    cases heq
    have hgrow := validatorsGrow_of_runs (CallMachine.runs_of_run hmeets hrun)
    have hend : (endExecution (host.env p.nonce) p.cache r).validators = r.shared.validators := by
      unfold endExecution
      split
      · rfl
      · split <;> rfl
    rw [hend]
    exact hgrow

/-- A call of the keeper adds records for certifiers only, if its execution certifies well. -/
lemma validators_keeperCall {meter : GasMeter} {gasRate : Nat} {outcome : CallOutcome}
    {output : List Byte} (hmeets : CallCertifiesWell host meter gasRate fuel s msg)
    (h : keeperCall host meter gasRate fuel s msg = some outcome)
    (hresult : outcome.result = .ok (output, s')) :
    ValidatorsGrow host.isCertifier s.validators s'.validators := by
  unfold keeperCall at h
  split at h
  · cases h
    cases hresult
  · rename_i p gas hprepare
    simp only [run_eq_ok, Prod.mk.injEq] at hprepare
    obtain ⟨p, hp, gas, hgas, rfl, rfl⟩ := hprepare
    simp only [bind_eq_bind, bind_eq_some_iff] at h
    obtain ⟨x, hx, heq⟩ := h
    cases heq
    unfold CallCertifiesWell at hmeets
    rw [hp, hgas] at hmeets
    have hgrow := validators_execution hmeets hx
    rw [validators_prepare hp] at hgrow
    suffices hsame : s'.validators = x.validators by
      rw [hsame]
      exact hgrow
    unfold conclude at hresult
    split_ifs at hresult
    split at hresult
    · cases hresult
    split at hresult
    · cases hresult
    dsimp only [settle] at hresult
    split at hresult
    · simp only [run_eq_ok, Prod.mk.injEq] at hresult
      obtain ⟨cache, -, s1, hsync, -, rfl⟩ := hresult
      exact State.validators_sync hsync
    · simp only [run_eq_ok, Prod.mk.injEq] at hresult
      obtain ⟨s1, hsync, -, rfl⟩ := hresult
      exact State.validators_sync hsync

end Keeper

end Shentu.CVM
