import Shentu.CVM.Contract
import Shentu.CVM.GasBounds

/-!
What the instructions do to a frame. Most of them work on the stack and the memory and spend gas;
the accounts are written by `SSTORE`, `SELFDESTRUCT`, the calls and the creations alone. The results
on whole executions use these lemmas and not the definitions of the instructions.
-/

namespace Shentu.CVM

open Lib

namespace Steady

lemma setPc (g : Nat → Nat) :
    Steady (modify fun l => { l with pc := g l.pc } : Local Unit) :=
  fun _ => ⟨id, le_rfl, rfl, rfl, id⟩

lemma setReturnData (data : List Byte) :
    Steady (modify fun l => { l with returnData := data } : Local Unit) :=
  fun _ => ⟨id, le_rfl, rfl, rfl, id⟩

lemma pushNext (w : Word) : Steady (pushNext w) :=
  (push w).bind fun _ => .pure _

lemma mustGetAccount (f : Frame) (a : Address) : Steady (mustGetAccount f a) :=
  maybe _ _

lemma copyToMemory (data : List Byte) : Steady (copyToMemory data) :=
  popBigInt.bind fun _ => pop64.bind fun _ => pop64.bind fun _ =>
    (maybe _ _).bind fun _ => (memoryWrite _ _).bind fun _ => .pure _

lemma jumpTo (code : Code) (target : Nat) : Steady (jumpTo code target) := by
  unfold CVM.jumpTo
  cases jump code target with
  | ok pc => exact (setPc fun _ => pc).bind fun _ => .pure _
  | error e => exact (pushError e).bind fun _ => .pure _

lemma popTopics (n : Nat) : Steady (popTopics n) := by
  induction n with
  | zero => exact .pure []
  | succ n ih => exact pop.bind fun _ => ih.bind fun _ => .pure _

lemma binary (op : Nat → Nat → Int) : Steady (binary op) :=
  popBigInt.bind fun _ => popBigInt.bind fun _ =>
    (pushBigInt _).bind fun _ => .pure _

lemma binarySigned (op : Int → Int → Int) : Steady (binarySigned op) :=
  popBigIntSigned.bind fun _ => popBigIntSigned.bind fun _ =>
    (pushBigInt _).bind fun _ => .pure _

lemma ternaryMod (op : Nat → Nat → Nat) : Steady (ternaryMod op) :=
  popBigInt.bind fun _ => popBigInt.bind fun _ => popBigInt.bind fun _ =>
    (pushBigInt _).bind fun _ => .pure _

lemma bitwise (op : Word → Word → Word) : Steady (bitwise op) :=
  pop.bind fun _ => pop.bind fun _ => (push _).bind fun _ => .pure _

lemma shiftBy {popValue : Local Int} (h : Steady popValue) (shifted : Int → Nat → Int)
    (reset : Int → Int) : Steady (shiftBy popValue shifted reset) :=
  popBigInt.bind fun _ => h.bind fun _ => (pushBigInt _).bind fun _ => .pure _

lemma readBind {β : Type} {g : List Byte → Local β} (hg : ∀ bytes, Steady (g bytes)) :
    Steady (CVM.popBigInt >>= fun offset => CVM.popBigInt >>= fun size =>
      CVM.memoryRead offset size >>= g) :=
  popBigInt.bind fun _ => popBigInt.bind fun _ =>
    (memoryRead _ _).bind fun _ => hg _

/-- An instruction on the stack and the memory keeps an error and what is paid. -/
lemma localOp (env : Env) (f : Frame) (op : Op) : Steady (localOp env f op) := by
  cases op with
  | add | mul | sub | div | mod | exp | lt | gt => exact .binary _
  | sdiv | smod | slt | sgt => exact .binarySigned _
  | addmod | mulmod => exact .ternaryMod _
  | eq | and | or | xor => exact .bitwise _
  | shl | shr => exact .shiftBy (popBigInt.bind fun _ => .pure _) _ _
  | sar => exact .shiftBy popBigIntSigned _ _
  | iszero | not | sload => exact pop.bind fun _ => pushNext _
  | signextend =>
    refine popBigInt.bind fun back => ?_
    dsimp only
    split
    · exact popBigInt.bind fun _ => (pushBigInt _).bind fun _ => .pure _
    · exact .pure _
  | byte =>
    exact pop64.bind fun _ => pop.bind fun _ => (push64 _).bind fun _ =>
      .pure _
  | address | origin | caller | callvalue | calldatasize | codesize | gaspriceDeprecated | coinbase
  | difficultyDeprecated | timestamp | blockheight | gaslimit | gas => exact .pushNext _
  | calldataload =>
    exact pop64.bind fun _ => (maybe _ _).bind fun _ => pushNext _
  | calldatacopy | codecopy => exact .copyToMemory _
  | returndatasize | pc | msize => exact .getBind fun _ => pushNext _
  | returndatacopy =>
    refine popBigInt.bind fun _ => popBigInt.bind fun _ =>
      popBigInt.bind fun _ => getBind fun _ => .ite ?_ ?_
    · exact (pushError _).bind fun _ => .pure _
    · exact (memoryWrite _ _).bind fun _ => .pure _
  | extcodehash =>
    refine popAddress.bind fun a => ?_
    split
    · exact .pushNext _
    · exact .pushNext _
  | blockhash =>
    refine pop64.bind fun _ => .ite ?_ (.ite ?_ ?_)
    · exact (pushError _).bind fun _ => .pure _
    · exact (pushError _).bind fun _ => .pure _
    · exact (maybe _ _).bind fun _ => pushNext _
  | pop => exact pop.bind fun _ => .pure _
  | mload =>
    exact popBigInt.bind fun _ => (memoryRead _ _).bind fun _ => pushNext _
  | mstore =>
    exact popBigInt.bind fun _ => pop.bind fun _ =>
      (memoryWrite _ _).bind fun _ => .pure _
  | mstore8 =>
    exact popBigInt.bind fun _ => popBigInt.bind fun _ =>
      (memoryWrite _ _).bind fun _ => .pure _
  | jump => exact pop64.bind fun _ => jumpTo _ _
  | jumpi =>
    exact pop64.bind fun _ => pop.bind fun _ => .ite (jumpTo _ _) (.pure _)
  | jumpdest | stop => exact .pure _
  | push n =>
    exact .getBind fun _ => (maybe _ _).bind fun _ => (push _).bind fun _ =>
      (setPc fun pc => pc + n).bind fun _ => .pure _
  | dup n => exact (dup n).bind fun _ => .pure _
  | swap n => exact (swap n).bind fun _ => .pure _
  | log n =>
    refine popBigInt.bind fun _ => popBigInt.bind fun _ =>
      (popTopics n).bind fun _ => (memoryRead _ _).bind fun _ => ?_
    split
    · exact (pushError _).bind fun _ => .pure _
    · exact .pure _
  | «return» => exact .readBind fun _ => .pure _
  | revert => exact .readBind fun _ => (pushError _).bind fun _ => .pure _
  | _ => exact (pushError _).bind fun _ => .pure _

end Steady

/-- A frame after some work on its stack and memory. A creation may have been counted. -/
structure Proceeds (f f' : Frame) : Prop where
  code : f'.code = f.code
  params : f'.params = f.params
  callFrame : f'.callFrame = f.callFrame
  transferErr : f'.transferErr = f.transferErr
  logFree : f'.logFree = f.logFree
  validators : f'.shared.validators = f.shared.validators
  gas : f'.gas ≤ f.gas
  locals : Grows f.locals f'.locals

lemma Proceeds.trans {f₁ f₂ f₃ : Frame} (h : Proceeds f₁ f₂) (h' : Proceeds f₂ f₃) :
    Proceeds f₁ f₃ :=
  ⟨h'.code.trans h.code, h'.params.trans h.params, h'.callFrame.trans h.callFrame,
    h'.transferErr.trans h.transferErr, h'.logFree.trans h.logFree,
    h'.validators.trans h.validators,
    h'.gas.trans h.gas, h.locals.trans h'.locals⟩

/-- A frame after some work on its stack and memory alone. -/
structure Works (f f' : Frame) : Prop extends Proceeds f f' where
  shared : f'.shared = f.shared

lemma Works.refl (f : Frame) : Works f f :=
  ⟨⟨rfl, rfl, rfl, rfl, rfl, rfl, le_rfl, Grows.refl _⟩, rfl⟩

lemma Works.trans {f₁ f₂ f₃ : Frame} (h : Works f₁ f₂) (h' : Works f₂ f₃) : Works f₁ f₃ :=
  ⟨h.toProceeds.trans h'.toProceeds, h'.shared.trans h.shared⟩

lemma Works.advance (f : Frame) : Works f f.advance :=
  ⟨⟨rfl, rfl, rfl, rfl, rfl, rfl, le_rfl, id, le_rfl, rfl, rfl, id⟩, rfl⟩

lemma Works.err {f f' : Frame} (h : Works f f') (he : f'.locals.err = none) :
    f.locals.err = none := h.locals.err he

/-- A computation that only works on the stack and the memory and spends gas. -/
def Quiet {α : Type} (x : Exec α) : Prop := ∀ f, Works f (x f).2

namespace Quiet

variable {α β : Type}

lemma pure (a : α) : Quiet (pure a : Exec α) := Works.refl

lemma bind {x : Exec α} {g : α → Exec β} (hx : Quiet x) (hg : ∀ a, Quiet (g a)) :
    Quiet (x >>= g) := fun f => (hx f).trans (hg _ _)

lemma getBind {g : Frame → Exec β} (hg : ∀ f, Quiet (g f)) : Quiet (do let f ← get; g f) :=
  fun f => hg f f

lemma onLocals {x : Local α} (hx : Steady x) : Quiet (onLocals x) := fun f =>
  ⟨⟨rfl, rfl, rfl, rfl, rfl, rfl, le_rfl, hx f.locals⟩, rfl⟩

lemma useGasNegative (n : Nat) : Quiet (useGasNegative n) := by
  intro f
  unfold CVM.useGasNegative
  split
  · exact ⟨⟨rfl, rfl, rfl, rfl, rfl, rfl, Nat.sub_le _ _, Grows.refl _⟩, rfl⟩
  · exact onLocals (.pushError _) f

lemma popAccount : Quiet popAccount :=
  (onLocals Steady.popAddress).bind fun _ => (useGasNegative _).bind fun _ =>
    getBind fun _ => onLocals (.mustGetAccount _ _)

lemma sha3 (env : Env) : Quiet (sha3 env) :=
  (useGasNegative _).bind fun _ => onLocals (.readBind fun _ => .pushNext _)

lemma balance : Quiet balance := popAccount.bind fun _ => onLocals (.pushNext _)

lemma extcodesize : Quiet extcodesize := popAccount.bind fun _ => onLocals (.pushNext _)

lemma extcodecopy : Quiet extcodecopy := popAccount.bind fun _ => onLocals (.copyToMemory _)

end Quiet

lemma gas_useGasNegative (n : Nat) (f : Frame) :
    ((useGasNegative n) f).2.gas + n = f.gas ∨ ((useGasNegative n) f).2.locals.err ≠ none := by
  unfold useGasNegative
  split
  · left
    show f.gas - n + n = f.gas
    omega
  · right
    exact err_pushError _ _

/-- A write to the accounts: it succeeds, or it changes nothing and notes an error. -/
inductive Wrote (write : CallFrame → Except Err CallFrame) (f : Frame) : Bool × Frame → Prop
  | ok {cf : CallFrame} (h : write f.callFrame = .ok cf) :
      Wrote write f (false, { f with callFrame := cf })
  | error {e : Err} {f' : Frame} (h : write f.callFrame = .error e) (hf : Works f f')
      (he : f'.locals.err ≠ none) : Wrote write f (true, f')

lemma wrote_writeFrame (write : CallFrame → Except Err CallFrame) (f : Frame) :
    Wrote write f (writeFrame write f) := by
  unfold writeFrame
  cases h : write f.callFrame with
  | ok cf => exact .ok h
  | error e =>
    exact .error h (Quiet.onLocals (Steady.pushError e) f) (err_pushError _ _)

namespace Quiet

lemma sstoreArgs : Quiet sstoreArgs :=
  (onLocals Steady.pop).bind fun _ => (onLocals Steady.pop).bind fun _ =>
    (useGasNegative _).bind fun _ => .pure _

lemma popReceiver : Quiet popReceiver :=
  (onLocals Steady.popAddress).bind fun _ => (useGasNegative _).bind fun _ => .pure _

lemma ownAccount : Quiet ownAccount := getBind fun _ => onLocals (.mustGetAccount _ _)

lemma createArgs : Quiet createArgs :=
  (onLocals (.setReturnData [])).bind fun _ => (onLocals Steady.pop64).bind fun _ =>
    (onLocals Steady.popBigInt).bind fun _ => (onLocals Steady.popBigInt).bind fun _ =>
      (onLocals (.memoryRead _ _)).bind fun _ => (useGasNegative _).bind fun _ => .pure _

lemma saltedAddress (env : Env) : Quiet (saltedAddress env) :=
  (onLocals Steady.pop).bind fun _ => ownAccount.bind fun _ => getBind fun _ => .pure _

lemma popValue (callType : CallType) : Quiet (popValue callType) := by
  cases callType with
  | call | code => exact onLocals Steady.pop64
  | delegate | static => exact getBind fun _ => .pure _

lemma callArgs (callType : CallType) : Quiet (callArgs callType) :=
  (onLocals (.setReturnData [])).bind fun _ => (onLocals Steady.pop64).bind fun _ =>
    (onLocals Steady.popAddress).bind fun _ => (popValue callType).bind fun _ =>
      (onLocals Steady.popBigInt).bind fun _ => (onLocals Steady.popBigInt).bind fun _ =>
        (onLocals Steady.popBigInt).bind fun _ => (onLocals Steady.pop64).bind fun _ =>
          (useGasNegative _).bind fun _ => .pure _

end Quiet

/-- What an instruction does to a frame, with what it does to the accounts if no error is noted. -/
structure Acts (R : CallFrame → CallFrame → Prop) (f f' : Frame) : Prop where
  code : f'.code = f.code
  params : f'.params = f.params
  transferErr : f'.transferErr = f.transferErr
  shared : f'.shared = f.shared
  gas : f'.gas ≤ f.gas
  locals : Grows f.locals f'.locals
  callFrame : f'.locals.err = none → R f.callFrame f'.callFrame

namespace Acts

variable {R S : CallFrame → CallFrame → Prop} {f f₁ f₂ : Frame}

lemma ofWorks (h : Works f f₁) : Acts Eq f f₁ :=
  ⟨h.code, h.params, h.transferErr, h.shared, h.gas, h.locals, fun _ => h.callFrame.symm⟩

lemma trans (h : Acts R f f₁) (h' : Acts S f₁ f₂) : Acts (Relation.Comp R S) f f₂ :=
  ⟨h'.code.trans h.code, h'.params.trans h.params, h'.transferErr.trans h.transferErr,
    h'.shared.trans h.shared, h'.gas.trans h.gas, h.locals.trans h'.locals,
    fun he => ⟨_, h.callFrame (h'.locals.err he), h'.callFrame he⟩⟩

lemma mono (h : Acts R f f₁) (hRS : ∀ c c', R c c' → S c c') : Acts S f f₁ :=
  ⟨h.code, h.params, h.transferErr, h.shared, h.gas, h.locals,
    fun he => hRS _ _ (h.callFrame he)⟩

lemma afterWork (h : Works f f₁) (h' : Acts R f₁ f₂) : Acts R f f₂ :=
  ((ofWorks h).trans h').mono fun _ _ ⟨_, heq, hR⟩ => heq ▸ hR

lemma thenWork (h : Acts R f f₁) (h' : Works f₁ f₂) : Acts R f f₂ :=
  (h.trans (ofWorks h')).mono fun _ _ ⟨_, hR, heq⟩ => heq ▸ hR

lemma still (h : Works f f₁) (hR : R f.callFrame f.callFrame) : Acts R f f₁ :=
  ⟨h.code, h.params, h.transferErr, h.shared, h.gas, h.locals, fun _ => h.callFrame ▸ hR⟩

lemma failed (h : Works f f₁) (he : f₁.locals.err ≠ none) : Acts R f f₁ :=
  ⟨h.code, h.params, h.transferErr, h.shared, h.gas, h.locals, fun h' => absurd h' he⟩

lemma write (g : CallFrame → Except Err CallFrame) (f : Frame) :
    Acts (fun c c' => g c = .ok c') f (writeFrame g f).2 := by
  have hwrote := wrote_writeFrame g f
  generalize writeFrame g f = p at hwrote
  cases hwrote with
  | ok h => exact ⟨rfl, rfl, rfl, rfl, le_rfl, Grows.refl _, fun _ => h⟩
  | error _ hf he => exact failed hf he

end Acts

lemma acts_sstore (f : Frame) :
    Acts (fun c c' => ∃ key value, c.setStorage f.params.callee key value = .ok c') f
      (sstore f).2 := by
  have hwork := Quiet.sstoreArgs f
  have hwrite := Acts.write (·.setStorage (sstoreArgs f).2.params.callee (sstoreArgs f).1.1
    (sstoreArgs f).1.2) (sstoreArgs f).2
  rw [hwork.params] at hwrite
  refine (Acts.afterWork hwork hwrite).mono (fun c c' h => ⟨_, _, h⟩) |>.thenWork ?_
  rw [← hwork.params]
  exact .refl _

/-- The account at an address is there, or it is created. -/
def Ensures (a : Address) (c c' : CallFrame) : Prop :=
  (∃ acc, c.getAccount a = some acc) ∧ c' = c ∨ c.getAccount a = none ∧ c.createAccount a = .ok c'

lemma createAccount_of_ensures {a : Address} {f : Frame} {p : Bool × Frame}
    (hnone : f.callFrame.getAccount a = none) (h : Wrote (·.createAccount a) f p) :
    Acts (Ensures a) f p.2 ∧ (p.1 = true → p.2.locals.err ≠ none) := by
  cases h with
  | ok h => exact ⟨⟨rfl, rfl, rfl, rfl, le_rfl, Grows.refl _, fun _ => .inr ⟨hnone, h⟩⟩, nofun⟩
  | error _ hf he => exact ⟨Acts.failed hf he, fun _ => he⟩

lemma acts_ensureReceiver (receiver : Address) (f : Frame) :
    Acts (Ensures receiver) f ((ensureReceiver receiver) f).2 ∧
      (((ensureReceiver receiver) f).1 = true →
        ((ensureReceiver receiver) f).2.locals.err ≠ none) := by
  have heq : (ensureReceiver receiver) f = (if (f.callFrame.getAccount receiver).isNone then
      (do useGasNegative gasCreateAccount; writeFrame (·.createAccount receiver))
      else pure false : Exec Bool) f := rfl
  rw [heq]
  cases hacc : f.callFrame.getAccount receiver with
  | some acc => exact ⟨Acts.still (.refl f) (.inl ⟨⟨acc, hacc⟩, rfl⟩), nofun⟩
  | none =>
    have hwork := Quiet.useGasNegative gasCreateAccount f
    have hnone : ((useGasNegative gasCreateAccount) f).2.callFrame.getAccount receiver = none := by
      rw [hwork.callFrame, hacc]
    obtain ⟨hacts, herr⟩ := createAccount_of_ensures hnone (wrote_writeFrame _ _)
    exact ⟨Acts.afterWork hwork hacts, herr⟩

lemma ownAccount_spec {f : Frame} (h : (ownAccount f).2.locals.err = none) :
    f.callFrame.getAccount f.params.callee = some (ownAccount f).1 := by
  have hok : f.callFrame.mustAccount f.params.callee = .ok (ownAccount f).1 :=
    maybe_of_no_error (l := f.locals) h
  exact orFail_eq_ok.mp hok

/-- The balance of an account is credited to a receiver and the account is removed. -/
def Destroys (callee receiver : Address) (c c' : CallFrame) : Prop :=
  ∃ acc c₁, c.getAccount callee = some acc ∧
    c.updateWith receiver (·.addToBalance acc.balance) = .ok c₁ ∧
    c₁.destroyAccount callee = .ok c'

lemma acts_destroy (receiver : Address) (f : Frame) :
    ((destroy receiver) f).1 = .halt [] ∧
      Acts (Destroys f.params.callee receiver) f ((destroy receiver) f).2 := by
  refine ⟨rfl, ?_⟩
  have hown := Quiet.ownAccount f
  have hcredit := Acts.write (·.updateWith receiver (·.addToBalance (ownAccount f).1.balance))
    (ownAccount f).2
  have hdestroy := Acts.write (·.destroyAccount (writeFrame
    (·.updateWith receiver (·.addToBalance (ownAccount f).1.balance))
    (ownAccount f).2).2.params.callee) (writeFrame
    (·.updateWith receiver (·.addToBalance (ownAccount f).1.balance)) (ownAccount f).2).2
  have hall := Acts.afterWork hown (hcredit.trans hdestroy)
  refine ⟨hall.code, hall.params, hall.transferErr, hall.shared, hall.gas, hall.locals,
    fun he => ?_⟩
  obtain ⟨c1, hc1, hc2⟩ := hall.callFrame he
  have hacc := ownAccount_spec (hcredit.locals.err (hdestroy.locals.err he))
  refine ⟨_, c1, hacc, hc1, ?_⟩
  rw [← hown.params, ← hcredit.params]
  exact hc2

/-- `SELFDESTRUCT` ends the frame, unless it fails to create the receiver. -/
lemma acts_selfdestruct (f : Frame) :
    ((selfdestruct f).1 = .continue ∧ (selfdestruct f).2.locals.err ≠ none ∨
      (selfdestruct f).1 = .halt []) ∧
    Acts (Relation.Comp (Ensures (popReceiver f).1)
      (Destroys f.params.callee (popReceiver f).1)) f (selfdestruct f).2 := by
  have hpop := Quiet.popReceiver f
  obtain ⟨hensure, herr⟩ := acts_ensureReceiver (popReceiver f).1 (popReceiver f).2
  have heq : selfdestruct f = (if ((ensureReceiver (popReceiver f).1) (popReceiver f).2).1
      then pure .continue else destroy (popReceiver f).1)
        ((ensureReceiver (popReceiver f).1) (popReceiver f).2).2 := rfl
  rw [heq]
  have hbefore := Acts.afterWork hpop hensure
  generalize (ensureReceiver (popReceiver f).1) (popReceiver f).2 = q at hbefore herr
  obtain ⟨created, f₁⟩ := q
  cases created with
  | true =>
    have hne : f₁.locals.err ≠ none := herr rfl
    exact ⟨.inl ⟨rfl, hne⟩, hbefore.code, hbefore.params, hbefore.transferErr, hbefore.shared,
      hbefore.gas, hbefore.locals, fun he => absurd he hne⟩
  | false =>
    obtain ⟨hhalt, hdestroy⟩ := acts_destroy (popReceiver f).1 f₁
    rw [hbefore.params] at hdestroy
    exact ⟨.inr hhalt, hbefore.trans hdestroy⟩

end Shentu.CVM
