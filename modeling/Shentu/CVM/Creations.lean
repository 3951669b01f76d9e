import Shentu.CVM.KeeperGas

/-!
The addresses of new contracts. A deployment derives one from its sender and the sequence number of
the sender; `CREATE` from the creator, the sequence number of the sender of the message and a
counter of the message; `CREATE2` from the creator, a salt and code.
-/

namespace Shentu.CVM

open Lib

/-- A creation with what it is made from and the address that was computed. -/
inductive Creation
  | deploy (caller : Address) (nonce : List Byte) (address : Address)
  | create (creator : Address) (nonce : List Byte) (sequence : Nat) (address : Address)
  | create2 (creator : Address) (salt : Word) (creatorCode initCode : Code) (address : Address)
  deriving DecidableEq

section Steps

variable {env : Env} {f f' : Frame} {req : Request} {r : Result}

lemma sequence_next (h : step env f = .next f') : f'.shared.sequence = f.shared.sequence := by
  obtain hshared | ⟨_, _, _, -, -, -, hshared⟩ := shared_next h
  · rw [hshared]
  · rw [hshared]

/-- The counter of the next creation of a frame. -/
def Frame.nextSequence (f : Frame) : Nat := (f.shared.sequence + 1) % 2 ^ 64

/-- The salt that `CREATE2` takes from the stack. -/
def Frame.salt (f : Frame) : Word := ((onLocals pop) (createArgs f.paid).2).1

/-- The code of the account of a frame. -/
def Frame.ownCode (f : Frame) : Code :=
  match f.callFrame.getAccount f.params.callee with
  | some acc => acc.evmCode
  | none => []

lemma evmCode_ownAccount (g : Frame) : (ownAccount g).1.evmCode = g.ownCode := by
  have heq : (ownAccount g).1 = ((mustGetAccount g g.params.callee) g.locals).1 := rfl
  rw [heq]
  unfold mustGetAccount CallFrame.mustAccount Frame.ownCode
  cases g.callFrame.getAccount g.params.callee with
  | none | some => rfl

/-- A frame that starts another one calls, or creates a contract at an address of its own. -/
lemma call_cases (h : step env f = .call f' req) :
    (f.op ≠ .create ∧ f.op ≠ .create2 ∧ req.newAccount = none ∧
      f'.shared.sequence = f.shared.sequence) ∨
    (f.op = .create ∧ f'.shared.sequence = f.nextSequence ∧ req.newAccount =
      some (env.newContractAddress f.params.callee (creationNonce env.nonce f.nextSequence))) ∨
    (f.op = .create2 ∧ f'.shared.sequence = f.shared.sequence ∧ req.newAccount =
      some (env.newContractAddress2 f.params.callee f.salt f.ownCode)) := by
  obtain ⟨-, -, -, hinstruction⟩ := instruction_of_step h (fun _ => nofun)
  have hquiet := Quiet.createArgs f.paid
  have hargs : (createArgs f.paid).2.shared = f.shared := hquiet.shared
  have hleads := leads_instruction env f.op f.paid
  rw [hinstruction] at hleads
  generalize hout : Outcome.call f' req = out at hleads
  cases hleads with
  | work hwork =>
    unfold finish at hout
    split at hout <;> cases hout
  | @call callType _ _ _ _ hop _ _ hacts =>
    cases hout
    refine .inl ⟨?_, ?_, rfl, congrArg Shared.sequence hacts.shared⟩
    · rw [hop]
      cases callType <;> exact nofun
    · rw [hop]
      cases callType <;> exact nofun
  | create hop =>
    right
    rcases hop with hop | hop
    · rw [hop] at hinstruction
      cases hinstruction
      refine .inl ⟨hop, ?_, ?_⟩
      · show ((createArgs f.paid).2.shared.sequence + 1) % 2 ^ 64 = _
        rw [hargs]
        rfl
      · show some (env.newContractAddress (createArgs f.paid).2.params.callee (creationNonce
          env.nonce
          (((createArgs f.paid).2.shared.sequence + 1) % 2 ^ 64))) = _
        rw [hargs, hquiet.params]
        rfl
    · rw [hop] at hinstruction
      cases hinstruction
      have hsalted := Quiet.saltedAddress env (createArgs f.paid).2
      have hpop := Quiet.onLocals Steady.pop (createArgs f.paid).2
      refine .inr ⟨hop, ?_, ?_⟩
      · show ((saltedAddress env) (createArgs f.paid).2).2.shared.sequence = _
        rw [hsalted.shared, hargs]
      · have haddress : ((saltedAddress env) (createArgs f.paid).2).1 = env.newContractAddress2
            (ownAccount ((onLocals pop) (createArgs f.paid).2).2).2.params.callee f.salt
            (ownAccount ((onLocals pop) (createArgs f.paid).2).2).1.evmCode := rfl
        have hframe : ((onLocals pop) (createArgs f.paid).2).2.callFrame = f.callFrame :=
          hpop.callFrame.trans hquiet.callFrame
        have hparams : ((onLocals pop) (createArgs f.paid).2).2.params = f.params :=
          hpop.params.trans hquiet.params
        show some ((saltedAddress env) (createArgs f.paid).2).1 = _
        rw [haddress, evmCode_ownAccount, (Quiet.ownAccount _).params, hparams]
        unfold Frame.ownCode
        rw [hframe, hparams]
  | sstore | destroy | fail | native => cases hout

end Steps

end Shentu.CVM
