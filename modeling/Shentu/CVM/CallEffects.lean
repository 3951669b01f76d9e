import Shentu.CVM.Effects

/-!
What calls and creations do to the frame that asks for them: the arguments are taken, the account
of the callee is looked up or created, gas is lent, and when the callee has ended its writes are
synced, unless it has failed.
-/

namespace Shentu.CVM

open Lib

lemma proceeds_nextAddress (env : Env) (f : Frame) : Proceeds f (nextAddress env f).2 :=
  ⟨rfl, rfl, rfl, rfl, rfl, rfl, le_rfl, Grows.refl _⟩

/-- A creation asks for a frame over the accounts of the creator, in which the new account is
there. -/
lemma create_spec {newAddress : Exec Address} (hnew : ∀ f, Proceeds f (newAddress f).2)
    (f : Frame) :
    ∃ g address child f', (create newAddress) f =
      (createRequest g (createArgs f).1 address child, f') ∧
      Proceeds (createArgs f).2 g ∧ Works g f' ∧ f'.gas = g.gas ∧
      (f'.locals.err = none → f.callFrame.newFrame.createAccount address = .ok child) := by
  have hargs := Quiet.createArgs f
  have hbefore := hnew (createArgs f).2
  generalize hg : newAddress (createArgs f).2 = g at hbefore
  have hframe : g.2.callFrame = f.callFrame := hbefore.callFrame.trans hargs.callFrame
  have hmaybe : Steady (maybe g.2.callFrame.newFrame
      (g.2.callFrame.newFrame.createAccount g.1)) := Steady.maybe _ _
  refine ⟨g.2, g.1, (onLocals (maybe g.2.callFrame.newFrame
    (g.2.callFrame.newFrame.createAccount g.1)) g.2).1, _, ?_, hbefore,
    Quiet.onLocals hmaybe g.2, rfl, fun he => ?_⟩
  · rw [← hg]
    rfl
  · rw [← hframe]
    exact maybe_of_no_error he

lemma createTarget_spec {target : Address} {f : Frame}
    (hnone : f.callFrame.getAccount target = none) :
    ((createTarget target f).1 = none ∧ Works f (createTarget target f).2 ∧
      (createTarget target f).2.locals.err ≠ none) ∨
    (∃ acc, (createTarget target f).1 = some acc ∧
      Acts (fun c c' => Ensures target c c' ∧ c'.getAccount target = some acc) f
        (createTarget target f).2) := by
  have hwrote := wrote_writeFrame (·.createAccount target) f
  have heq : createTarget target f = (if (writeFrame (·.createAccount target) f).1 then pure none
      else do return some (← onLocals (mustGetAccount (← get) target)) : Exec (Option Account))
        (writeFrame (·.createAccount target) f).2 := rfl
  rw [heq]
  generalize writeFrame (·.createAccount target) f = p at hwrote
  cases hwrote with
  | error _ hf he => exact .inl ⟨rfl, hf, he⟩
  | ok h =>
    have hacc := CallFrame.getAccount_createAccount h target
    rw [if_pos rfl] at hacc
    have hmust : ∀ g : Frame, g.callFrame.getAccount target = some (.new target) →
        (onLocals (mustGetAccount g target)) g = (.new target, g) := by
      intro g hg
      unfold onLocals mustGetAccount CallFrame.mustAccount
      rw [hg]
      rfl
    have hrun : ∀ g : Frame, g.callFrame.getAccount target = some (.new target) →
        (do return some (← onLocals (mustGetAccount (← get) target)) : Exec (Option Account)) g
          = (some (.new target), g) := by
      intro g hg
      show (some ((onLocals (mustGetAccount g target)) g).1,
        ((onLocals (mustGetAccount g target)) g).2) = _
      rw [hmust g hg]
    right
    refine ⟨.new target, ?_, ?_⟩
    · exact congrArg Prod.fst (hrun _ hacc)
    · have hframe := congrArg Prod.snd (hrun { f with callFrame := _ } hacc)
      rw [if_neg (by simp), hframe]
      exact ⟨rfl, rfl, rfl, rfl, le_rfl, Grows.refl _, fun _ => ⟨.inr ⟨hnone, h⟩, hacc⟩⟩

/-- The account that a call is for is there, or a call that may send funds has created it. -/
lemma targetAccount_spec (callType : CallType) (target : Address) (f : Frame) :
    ((targetAccount callType target f).1 = none ∧ Works f (targetAccount callType target f).2 ∧
      (targetAccount callType target f).2.locals.err ≠ none) ∨
    (∃ acc, (targetAccount callType target f).1 = some acc ∧
      Acts (fun c c' => Ensures target c c' ∧ c'.getAccount target = some acc) f
        (targetAccount callType target f).2) := by
  cases hacc : getAccount f target with
  | some acc =>
    have heq : targetAccount callType target f = (some acc, f) := by
      simp only [targetAccount, bind, StateT.bind, get, getThe, MonadStateOf.get, StateT.get, pure,
        hacc]
      rfl
    rw [heq]
    exact .inr ⟨acc, rfl, Acts.still (.refl f) ⟨.inl ⟨⟨acc, hacc⟩, rfl⟩, hacc⟩⟩
  | none =>
    have heq : targetAccount callType target f = (if callType ≠ .call then (do
        onLocals (pushError .unknownAddress)
        return none) else createTarget target : Exec (Option Account)) f := by
      simp only [targetAccount, bind, StateT.bind, get, getThe, MonadStateOf.get, StateT.get, pure,
        hacc]
    rw [heq]
    split
    · exact .inl ⟨rfl, Quiet.onLocals (.pushError _) f, err_pushError _ _⟩
    · exact createTarget_spec hacc

lemma lendGas_le (gasLimit : Nat) (f : Frame) :
    (lendGas gasLimit f).1 + (lendGas gasLimit f).2.gas ≤ f.gas := by
  unfold lendGas
  dsimp only
  split
  · have := Nat.div_le_self f.gas 64
    omega
  · omega

lemma requestCall_spec (callType : CallType) (args : CallArgs) (acc : Account) (f : Frame) :
    ∃ gasLimit input f', (requestCall callType args acc) f
        = (callRequest callType f' args acc gasLimit input, f') ∧
      Works f f' ∧ gasLimit + f'.gas ≤ f.gas := by
  have hread : Works (lendGas args.gasLimit f).2
      ((onLocals (memoryRead args.inOffset args.inSize)) (lendGas args.gasLimit f).2).2 :=
    Quiet.onLocals (.memoryRead _ _) _
  have hlend : Works f (lendGas args.gasLimit f).2 :=
    ⟨⟨rfl, rfl, rfl, rfl, rfl, rfl, Nat.sub_le _ _, Grows.refl _⟩, rfl⟩
  have hgas := lendGas_le args.gasLimit f
  exact ⟨_, _, _, rfl, hlend.trans hread, hgas⟩

/-- A call: it fails before the callee starts, or the account of the callee is there. -/
lemma call_spec (callType : CallType) (f : Frame) :
    ((call callType f).1 = none ∧ Works f (call callType f).2 ∧
      (call callType f).2.locals.err ≠ none) ∨
    (∃ acc gasLimit input, (call callType f).1 = some (callRequest callType (call callType f).2
        ((callArgs callType) f).1 acc gasLimit input) ∧
      gasLimit + (call callType f).2.gas ≤ ((callArgs callType) f).2.gas ∧
      Acts (fun c c' => Ensures ((callArgs callType) f).1.target c c' ∧
        c'.getAccount ((callArgs callType) f).1.target = some acc) f (call callType f).2) := by
  have hargs := Quiet.callArgs callType f
  have htarget := targetAccount_spec callType ((callArgs callType) f).1.target
    ((callArgs callType) f).2
  obtain ⟨⟨args, f1⟩, hq⟩ : ∃ q, q = (callArgs callType) f := ⟨_, rfl⟩
  rw [← hq] at hargs htarget ⊢
  obtain ⟨⟨o, g⟩, hp⟩ : ∃ p, p = targetAccount callType args.target f1 := ⟨_, rfl⟩
  rw [← hp] at htarget
  obtain ⟨hnone, hf, he⟩ | ⟨acc, hsome, hacts⟩ := htarget
  · have heq : call callType f = (none, g) := by
      cases hnone
      simp only [call, bind, StateT.bind, ← hq, ← hp]
      rfl
    rw [heq]
    exact .inl ⟨rfl, hargs.trans hf, he⟩
  · obtain ⟨gasLimit, input, f', hreq, hwork, hgas⟩ := requestCall_spec callType args acc g
    have heq : call callType f = (some (callRequest callType f' args acc gasLimit input), f') := by
      cases hsome
      simp only [call, bind, StateT.bind, ← hq, ← hp, hreq]
      rfl
    rw [heq]
    exact .inr ⟨acc, gasLimit, input, rfl, hgas.trans hacts.gas,
      (Acts.afterWork hargs hacts).thenWork hwork⟩

/-- The accounts of a caller after a call: with what the callee has written if it ended without an
error, and as they were otherwise. -/
def Synced (r : Result) (c c' : CallFrame) : Prop :=
  (r.err = none ∧ c.sync r.callFrame.cache = .ok c') ∨ (r.err ≠ none ∧ c' = c)

/-- The accounts of a creator after a creation, with the code of the new contract set. -/
def Initialised (env : Env) (address creator : Address) (r : Result) (c c' : CallFrame) : Prop :=
  (r.err = none ∧ ∃ child, r.callFrame.initChildCode env.codehashPermitted env.keccak256 address
      creator r.output = .ok child ∧ c.sync child.cache = .ok c') ∨ (r.err ≠ none ∧ c' = c)

lemma resumeCall_spec (env : Env) {req : Request} (hreq : req.newAccount = none) (r : Result)
    (f : Frame) : ∃ f', Acts (Synced r) { f with shared := r.shared } f' ∧
      resume env f req r = Frame.advance { f' with gas := (f'.gas + r.gas) % 2 ^ 64 } := by
  have hset := Steady.setReturnData r.output
  unfold resume
  rw [hreq]
  cases hr : r.err with
  | none =>
    have hwrite := Acts.write (·.sync r.callFrame.cache) { f with shared := r.shared }
    have hlocals : Quiet (onLocals do
        modify fun l => { l with returnData := r.output }
        push 1
        memoryWrite req.retOffset (rightPadBytes r.output req.retSize)) :=
      Quiet.onLocals (hset.bind fun _ => (Steady.push 1).bind fun _ => Steady.memoryWrite _ _)
    refine ⟨_, (hwrite.mono fun c c' h => .inl ⟨hr, h⟩).thenWork (hlocals _), ?_⟩
    unfold resumeCall
    rw [hr]
    rfl
  | some e =>
    have hne : r.err ≠ none := by
      rw [hr]
      exact nofun
    by_cases hpanic : e = .panic
    · subst hpanic
      have hpush := Quiet.onLocals (Steady.pushError .panic) { f with shared := r.shared }
      refine ⟨_, Acts.still hpush (.inr ⟨hne, rfl⟩), ?_⟩
      unfold resumeCall
      rw [hr]
      rfl
    · have hlocals : Quiet (onLocals do
          modify fun l => { l with returnData := r.output }
          push 0
          if e = .executionReverted then
            memoryWrite req.retOffset (rightPadBytes r.output req.retSize)) := by
        refine .onLocals (hset.bind fun _ => (Steady.push 0).bind fun _ => ?_)
        exact .ite (Steady.memoryWrite _ _) (.pure ())
      refine ⟨_, Acts.still (hlocals { f with shared := r.shared }) (.inr ⟨hne, rfl⟩), ?_⟩
      unfold resumeCall
      rw [hr]
      cases e <;> first | rfl | exact absurd rfl hpanic

lemma resumeCreate_spec (env : Env) {req : Request} {address : Address}
    (hreq : req.newAccount = some address) (r : Result) (f : Frame) :
    ∃ f', Acts (Initialised env address f.params.callee r)
        { f with gas := r.gas, shared := r.shared } f' ∧ resume env f req r = f'.advance := by
  generalize hf0 : ({ f with gas := r.gas, shared := r.shared } : Frame) = f0
  have hparams : f0.params = f.params := by
    rw [← hf0]
  unfold resume
  rw [hreq]
  cases hr : r.err with
  | none =>
    let init := r.callFrame.initChildCode env.codehashPermitted env.keccak256 address
      f.params.callee r.output
    have hmaybe := Quiet.onLocals (Steady.maybe r.callFrame init) f0
    have hwrite := Acts.write (·.sync ((onLocals (maybe r.callFrame init)) f0).1.cache)
      ((onLocals (maybe r.callFrame init)) f0).2
    have hpush : Quiet (onLocals (push (wordOfAddress address))) :=
      Quiet.onLocals (Steady.push _)
    have hall := (Acts.afterWork hmaybe hwrite).thenWork (hpush _)
    refine ⟨_, ⟨hall.code, hall.params, hall.transferErr, hall.shared, hall.gas, hall.locals,
      fun he => ?_⟩, ?_⟩
    · have hinit : init = .ok ((onLocals (maybe r.callFrame init)) f0).1 :=
        maybe_of_no_error (hwrite.locals.err ((hpush _).err he))
      exact .inl ⟨hr, _, hinit, hall.callFrame he⟩
    · unfold resumeCreate
      rw [hr, ← hf0]
      rfl
  | some e =>
    have hne : r.err ≠ none := by
      rw [hr]
      exact nofun
    by_cases hpanic : e = .panic
    · subst hpanic
      have hpush := Quiet.onLocals (Steady.pushError .panic) f0
      refine ⟨_, Acts.still hpush (.inr ⟨hne, rfl⟩), ?_⟩
      unfold resumeCreate
      rw [hr, ← hf0]
      rfl
    · have hlocals : Quiet (onLocals do
          push 0
          modify fun l => { l with returnData := r.output }) :=
        Quiet.onLocals ((Steady.push 0).bind fun _ => Steady.setReturnData _)
      refine ⟨_, Acts.still (hlocals f0) (.inr ⟨hne, rfl⟩), ?_⟩
      unfold resumeCreate
      rw [hr, ← hf0]
      cases e <;> first | rfl | exact absurd rfl hpanic

/-- The frame after the price of its instruction is paid. -/
def Frame.paid (f : Frame) : Frame := { f.price.2 with gas := f.gas - f.price.1 }

lemma step_instruction (env : Env) {f : Frame} (hcode : f.code ≠ []) (herr : f.locals.err = none)
    (hgas : f.price.1 ≤ f.gas) : step env f = instruction env f.op f.paid := by
  unfold step
  rw [if_neg hcode, if_neg (by simp [herr])]
  rw [if_neg (by omega)]
  rfl

/-- The steps of a frame: it ends, or the price of the next instruction is paid. -/
lemma step_cases (env : Env) (f : Frame) :
    (f.code = [] ∧ step env f = .done { f.result [] none with shared := f.shared }) ∨
    (f.locals.err ≠ none ∧ step env f = .done (f.result [] f.locals.err)) ∨
    (f.code ≠ [] ∧ f.locals.err = none ∧ f.gas < f.price.1 ∧
      step env f = .done (f.price.2.result [] (some .insufficientGas))) ∨
    (f.code ≠ [] ∧ f.locals.err = none ∧ f.price.1 ≤ f.gas ∧
      step env f = instruction env f.op f.paid) := by
  by_cases hcode : f.code = []
  · exact .inl ⟨hcode, by rw [step, if_pos hcode]⟩
  · by_cases herr : f.locals.err = none
    · by_cases hgas : f.price.1 ≤ f.gas
      · exact .inr (.inr (.inr ⟨hcode, herr, hgas, step_instruction env hcode herr hgas⟩))
      · refine .inr (.inr (.inl ⟨hcode, herr, by omega, ?_⟩))
        unfold step
        rw [if_neg hcode, if_neg (by simp [herr])]
        rw [if_pos (by omega)]
    · refine .inr (.inl ⟨herr, ?_⟩)
      unfold step
      rw [if_neg hcode, if_pos (by simpa [Option.isSome_iff_ne_none] using herr)]

/-- A step that does not end the frame is that of its instruction. -/
lemma instruction_of_step {env : Env} {f : Frame} {out : Outcome Frame Request Result}
    (h : step env f = out) (hnot : ∀ r, out ≠ .done r) :
    f.code ≠ [] ∧ f.locals.err = none ∧ f.price.1 ≤ f.gas ∧ instruction env f.op f.paid = out := by
  obtain ⟨-, heq⟩ | ⟨-, heq⟩ | ⟨-, -, -, heq⟩ | ⟨hcode, herr, hgas, heq⟩ := step_cases env f
  · exact absurd (h.symm.trans heq) (hnot _)
  · exact absurd (h.symm.trans heq) (hnot _)
  · exact absurd (h.symm.trans heq) (hnot _)
  · exact ⟨hcode, herr, hgas, heq.symm.trans h⟩

lemma next_finish {p : Flow × Frame} {f' : Frame} (h : finish p = .next f') :
    f' = p.2 ∨ f' = p.2.advance := by
  unfold finish at h
  split at h
  · cases h
    exact .inr rfl
  · cases h
    exact .inl rfl
  · cases h

def CallType.op : CallType → Op
  | .call => .call
  | .code => .callcode
  | .delegate => .delegatecall
  | .static => .staticcall

/-- The relation of the accounts of a caller before and after the look-up of an account to call. -/
def Targets (target : Address) (acc : Account) (c c' : CallFrame) : Prop :=
  Ensures target c c' ∧ c'.getAccount target = some acc

/-- What an instruction leads to. -/
inductive Leads (env : Env) (op : Op) (g : Frame) : Outcome Frame Request Result → Prop
  | work {p : Flow × Frame} (h : Works g p.2) : Leads env op g (finish p)
  | sstore {g' : Frame} (hop : op = .sstore)
      (h : Acts (fun c c' => ∃ key value, c.setStorage g.params.callee key value = .ok c') g g') :
      Leads env op g (.next g'.advance)
  | destroy {g' : Frame} (hop : op = .selfdestruct)
      (h : Acts (Relation.Comp (Ensures (popReceiver g).1)
        (Destroys g.params.callee (popReceiver g).1)) g g') :
      Leads env op g (.done (g'.result [] g'.locals.err))
  /-- An error before the callee starts, or before the own account is destroyed. -/
  | fail {g' : Frame} (h : Acts (fun _ _ => False) g g') : Leads env op g (.next g')
  | create {h g' : Frame} {address : Address} {child : CallFrame}
    (hop : op = .create ∨ op = .create2)
      (hargs : Proceeds (createArgs g).2 h) (hwork : Works h g') (hgas : g'.gas = h.gas)
      (hchild : g'.locals.err = none → g.callFrame.newFrame.createAccount address = .ok child) :
      Leads env op g (.call g' (createRequest h (createArgs g).1 address child))
  | call {callType : CallType} {acc : Account} {gasLimit : Nat} {input : List Byte} {g' : Frame}
      (hop : op = callType.op) (hnative : acc.isNative = false)
      (hgas : gasLimit + g'.gas ≤ ((callArgs callType) g).2.gas)
      (hacts : Acts (Targets ((callArgs callType) g).1.target acc) g g') :
      Leads env op g (.call g' (callRequest callType g' ((callArgs callType) g).1 acc gasLimit
        input))
  | native {callType : CallType} {acc : Account} {gasLimit : Nat} {input : List Byte} {g' : Frame}
      {req : Request} (hreq : req = callRequest callType g' ((callArgs callType) g).1 acc gasLimit
        input)
      (hop : op = callType.op) (hnative : acc.isNative = true)
      (hgas : gasLimit + g'.gas ≤ ((callArgs callType) g).2.gas)
      (hacts : Acts (Targets ((callArgs callType) g).1.target acc) g g')
      (hcall : (call callType g).1 = some req) :
      Leads env op g (.next (resume env g' req
        (nativeResult env g' req ((callArgs callType) g).1.target)))

lemma leads_call (env : Env) (callType : CallType) (g : Frame) :
    Leads env callType.op g (startCall env (call callType g)) := by
  have hspec := call_spec callType g
  generalize hcall : call callType g = p at hspec
  obtain ⟨hnone, hwork, herr⟩ | ⟨acc, gasLimit, input, hreq, hgas, hacts⟩ := hspec
  · unfold startCall
    rw [hnone]
    exact .fail (.failed hwork herr)
  · unfold startCall
    rw [hreq]
    cases hnative : acc.isNative with
    | false =>
      have hnone : (callRequest callType p.2 ((callArgs callType) g).1 acc gasLimit input).native
          = none := by
        show (if acc.isNative then some _ else none) = none
        rw [hnative]
        rfl
      dsimp only
      rw [hnone]
      exact .call rfl hnative hgas hacts
    | true =>
      have hsome : (callRequest callType p.2 ((callArgs callType) g).1 acc gasLimit input).native
          = some ((callArgs callType) g).1.target := by
        show (if acc.isNative then some _ else none) = some _
        rw [hnative]
        rfl
      dsimp only
      rw [hsome]
      refine .native rfl rfl hnative hgas hacts ?_
      rw [hcall]
      exact hreq

lemma leads_create (env : Env) {op : Op} (hop : op = .create ∨ op = .create2)
    {newAddress : Exec Address} (hnew : ∀ f, Proceeds f (newAddress f).2) (g : Frame) :
    Leads env op g (startCall env (((create newAddress) g).map some id)) := by
  obtain ⟨h, address, child, g', heq, hargs, hwork, hgas, hchild⟩ := create_spec hnew g
  rw [heq]
  exact .create hop hargs hwork hgas hchild

lemma leads_selfdestruct (env : Env) (g : Frame) :
    Leads env .selfdestruct g (finish (selfdestruct g)) := by
  obtain ⟨hflow, hacts⟩ := acts_selfdestruct g
  unfold finish
  obtain ⟨hcontinue, herr⟩ | hhalt := hflow
  · rw [hcontinue]
    exact .fail ⟨hacts.code, hacts.params, hacts.transferErr, hacts.shared, hacts.gas,
      hacts.locals, herr⟩
  · rw [hhalt]
    exact .destroy rfl hacts

lemma leads_instruction (env : Env) (op : Op) (g : Frame) :
    Leads env op g (instruction env op g) := by
  have hlocal : ∀ op, instruction env op g = finish (onLocals (localOp env g op) g) →
      Leads env op g (instruction env op g) := by
    intro op h
    rw [h]
    exact .work (Quiet.onLocals (Steady.localOp env g op) g)
  cases op with
  | sha3 => exact .work (p := sha3 env g) (Quiet.sha3 env g)
  | balance => exact .work (p := balance g) (Quiet.balance g)
  | extcodesize => exact .work (p := extcodesize g) (Quiet.extcodesize g)
  | extcodecopy => exact .work (p := extcodecopy g) (Quiet.extcodecopy g)
  | sstore => exact .sstore rfl (acts_sstore g)
  | selfdestruct => exact leads_selfdestruct env g
  | create => exact leads_create env (.inl rfl) (proceeds_nextAddress env) g
  | create2 =>
    exact leads_create env (.inr rfl) (fun f => (Quiet.saltedAddress env f).toProceeds) g
  | call => exact leads_call env .call g
  | callcode => exact leads_call env .code g
  | delegatecall => exact leads_call env .delegate g
  | staticcall => exact leads_call env .static g
  | _ => exact hlocal _ rfl

/-- A frame ends with no more gas than it had, and with what all frames share as it was but for
the refund. -/
lemma done_spec {env : Env} {f : Frame} {r : Result} (h : step env f = .done r) :
    r.gas ≤ f.gas ∧ ∃ refund, r.shared = { f.shared with refund := refund } := by
  obtain ⟨-, heq⟩ | ⟨-, heq⟩ | ⟨-, -, -, heq⟩ | ⟨-, -, -, heq⟩ := step_cases env f
  · cases heq.symm.trans h
    exact ⟨le_rfl, _, rfl⟩
  · cases heq.symm.trans h
    exact ⟨le_rfl, _, rfl⟩
  · cases heq.symm.trans h
    exact ⟨le_rfl, _, rfl⟩
  · have hleads := leads_instruction env f.op f.paid
    have hpaid : f.paid.gas ≤ f.gas := Nat.sub_le _ _
    rw [← heq, h] at hleads
    generalize hout : Outcome.done r = out at hleads
    have hend : ∀ {g : Frame} {output err}, g.gas ≤ f.paid.gas → g.shared = f.paid.shared →
        r = g.result output err → r.gas ≤ f.gas ∧
          ∃ refund, r.shared = { f.shared with refund := refund } := by
      rintro g output err hgas hshared rfl
      exact ⟨hgas.trans hpaid, g.locals.refund,
        congrArg (fun s : Shared => { s with refund := g.locals.refund }) hshared⟩
    cases hleads with
    | work hwork =>
      unfold finish at hout
      split at hout
      · cases hout
      · cases hout
      · cases hout
        exact hend hwork.gas hwork.shared rfl
    | destroy _ hacts =>
      cases hout
      exact hend hacts.gas hacts.shared rfl
    | sstore | fail | native | create | call => cases hout

lemma shared_resume (env : Env) (f : Frame) (req : Request) (r : Result) :
    (resume env f req r).shared = r.shared := by
  cases hreq : req.newAccount with
  | none =>
    obtain ⟨f', hacts, heq⟩ := resumeCall_spec env hreq r f
    rw [heq]
    exact hacts.shared
  | some address =>
    obtain ⟨f', hacts, heq⟩ := resumeCreate_spec env hreq r f
    rw [heq]
    exact hacts.shared

/-- A frame that goes on leaves what all frames share, unless it has called a precompiled contract:
that one may have written the records of validators. -/
lemma shared_next {env : Env} {f f' : Frame} (h : step env f = .next f') : f'.shared = f.shared ∨
    ∃ callType req target, f.op = callType.op ∧ (call callType f.paid).1 = some req ∧
      req.native = some target ∧ f'.shared = { f.shared with validators :=
        (callNative env target req.params req.gas f.shared.validators).2 } := by
  obtain ⟨-, -, -, hinstruction⟩ := instruction_of_step h (fun _ => nofun)
  have hleads := leads_instruction env f.op f.paid
  rw [hinstruction] at hleads
  generalize hout : Outcome.next f' = out at hleads
  cases hleads with
  | work hwork =>
    obtain rfl | rfl := next_finish hout.symm
    · exact .inl hwork.shared
    · exact .inl hwork.shared
  | sstore _ hacts | fail hacts =>
    cases hout
    exact .inl hacts.shared
  | @native callType _ _ _ g req hreq hop hnative _ hacts hcall =>
    cases hout
    have hshared : g.shared = f.shared := hacts.shared
    refine .inr ⟨callType, req, ((callArgs callType) f.paid).1.target, hop, hcall, ?_, ?_⟩
    · rw [hreq]
      exact if_pos hnative
    · rw [shared_resume, ← hshared]
      rfl
  | destroy | create | call => cases hout

end Shentu.CVM
