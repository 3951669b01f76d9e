import Shentu.CVM.Creations

/-!
The creations of a message: its own deployment and the contracts that its execution creates, with
the data that their addresses are derived from. Within one message the counter keeps the creations
apart.
-/

namespace Shentu.CVM

open Lib List CallMachine

/-- The contract that a frame creates in its next step. -/
def Frame.creations (env : Env) (f : Frame) : List Creation :=
  match step env f with
  | .call _ req =>
    match req.newAccount with
    | some address =>
      if f.op = .create then [.create f.params.callee env.nonce f.nextSequence address]
      else [.create2 f.params.callee f.salt f.ownCode req.code address]
    | none => []
  | _ => []

/-- A message of the history with the state before it. -/
structure Message where
  state : State
  msg : CallMsg
  meter : GasMeter
  gasRate : Nat
  fuel : Nat

namespace Message

variable (host : Host)

variable (m : Message)

/-- What a message executes and its gas, if it gets that far. -/
def prepared : Option (Prepared × Nat) :=
  match prepare host m.state m.msg, getOriginalGas m.meter m.gasRate with
  | .ok p, .ok gas => some (p, gas)
  | _, _ => none

def deployment (nonce : List Byte) : List Creation :=
  match m.msg.callee with
  | none => [.deploy m.msg.caller nonce (host.newContractAddress m.msg.caller nonce)]
  | some _ => []

/-- The contracts that the execution of a message creates. -/
def executed : List Creation :=
  match m.prepared host with
  | some (p, gas) =>
    if p.isEWASM then []
    else (cvm (host.env p.nonce)).observe (Frame.creations (host.env p.nonce)) m.fuel
      (topFrame (host.env p.nonce) p m.msg gas)
  | none => []

/-- All creations of a message, also those that fail or are undone. -/
def creations : List Creation :=
  match sequenceBytes m.state m.msg with
  | .error _ => []
  | .ok nonce => m.deployment host nonce ++ m.executed host

/-- A message in a block whose execution has ended. -/
structure Ended (host : Host) (m : Message) : Prop where
  noView : m.msg.view = false
  ends : ∀ p gas, m.prepared host = some (p, gas) →
    ∃ x, execution host m.fuel p m.msg gas = some x

end Message

namespace Creation

/-- The address of a deployment or of `CREATE`. -/
def plainAddress : Creation → Option Address
  | .deploy _ _ address => some address
  | .create _ _ _ address => some address
  | .create2 .. => none

/-- What the address of a deployment or of `CREATE` is derived from. -/
def source : Creation → Option (Address × List Byte)
  | .deploy caller nonce _ => some (caller, nonce)
  | .create creator nonce sequence _ => some (creator, creationNonce nonce sequence)
  | .create2 .. => none

def counter : Creation → Option Nat
  | .create _ _ sequence _ => some sequence
  | _ => none

/-- The address is derived as it should be, in a message with the given sequence number. -/
def Derived (host : Host) (nonce : List Byte) : Creation → Prop
  | .deploy caller n address => n = nonce ∧ address = host.newContractAddress caller n
  | .create creator n sequence address => n = nonce ∧ sequence < 2 ^ 64 ∧
      address = host.newContractAddress creator (creationNonce n sequence)
  | .create2 creator salt creatorCode _ address =>
    address = host.newContractAddress2 creator salt creatorCode

/-- Two creations are made from the same data: deployments of one sender with one sequence number,
or creations of one contract with one sequence number and one counter. -/
def Clash : Creation → Creation → Prop
  | .deploy caller nonce _, .deploy caller' nonce' _ => caller = caller' ∧ nonce = nonce'
  | .create creator nonce sequence _, .create creator' nonce' sequence' _ =>
    creator = creator' ∧ nonce = nonce' ∧ sequence = sequence'
  | _, _ => False

end Creation

section Frames

variable {env : Env} {f : Frame}

/-- A frame creates at most one contract in a step, at the address that is derived for it. -/
lemma frame_creations_cases (env : Env) (f : Frame) : f.creations env = [] ∨
    (f.op = .create ∧ ∃ g req, step env f = .call g req ∧ g.shared.sequence = f.nextSequence ∧
      f.creations env = [.create f.params.callee env.nonce f.nextSequence
        (env.newContractAddress f.params.callee (creationNonce env.nonce f.nextSequence))]) ∨
    (f.op = .create2 ∧ ∃ initCode, f.creations env = [.create2 f.params.callee f.salt f.ownCode
      initCode (env.newContractAddress2 f.params.callee f.salt f.ownCode)]) := by
  unfold Frame.creations
  cases hstep : step env f with
  | next | done => exact .inl rfl
  | call g req =>
    obtain ⟨-, -, hnone, -⟩ | ⟨hop, hsequence, hsome⟩ | ⟨hop, -, hsome⟩ := call_cases hstep
    · left
      dsimp only
      rw [hnone]
    · right
      left
      dsimp only
      rw [hsome]
      exact ⟨hop, g, req, rfl, hsequence, if_pos hop⟩
    · right
      right
      dsimp only
      rw [hsome]
      refine ⟨hop, req.code, if_neg ?_⟩
      rw [hop]
      exact nofun

lemma frame_creations_of_call {g : Frame} {req : Request} (h : step env f = .call g req) :
    ((f.creations env).filterMap Creation.counter = [] ∧
      g.shared.sequence = f.shared.sequence) ∨
    ((f.creations env).filterMap Creation.counter = [f.nextSequence] ∧
      g.shared.sequence = f.nextSequence) := by
  unfold Frame.creations
  rw [h]
  obtain ⟨-, -, hnone, hsame⟩ | ⟨hop, hsequence, hsome⟩ | ⟨hop, hsame, hsome⟩ := call_cases h
  · left
    dsimp only
    rw [hnone]
    exact ⟨rfl, hsame⟩
  · right
    dsimp only
    rw [hsome]
    refine ⟨?_, hsequence⟩
    dsimp only
    rw [if_pos hop]
    rfl
  · left
    dsimp only
    rw [hsome]
    refine ⟨?_, hsame⟩
    dsimp only
    rw [if_neg (by rw [hop]; exact nofun)]
    rfl

lemma counters_increase {fuel n : Nat} {r : Result} (hrun : (cvm env).run fuel f = some (r, n))
    (hbound : f.shared.sequence + n < 2 ^ 64) :
    (((cvm env).observe (Frame.creations env) fuel f).filterMap Creation.counter).Pairwise
      (· < ·) := by
  rw [filterMap_observe]
  refine (observe_counter (fun f => f.shared.sequence) (fun r => r.shared.sequence)
    ?_ ?_ ?_ hrun hbound).1
  · intro f f' hstep
    refine ⟨?_, sequence_next hstep⟩
    have hnone : f.creations env = [] := by
      unfold Frame.creations
      rw [show step env f = .next f' from hstep]
    rw [hnone]
    rfl
  · intro f r hstep
    obtain ⟨-, refund, hshared⟩ := done_spec hstep
    refine ⟨?_, by rw [hshared]⟩
    have hnone : f.creations env = [] := by
      unfold Frame.creations
      rw [show step env f = .done r from hstep]
    rw [hnone]
    rfl
  · intro f g req hstep hlt
    have hnext : f.nextSequence = f.shared.sequence + 1 := Nat.mod_eq_of_lt hlt
    refine ⟨?_, ?_⟩
    · have hcases := frame_creations_of_call hstep
      rw [hnext] at hcases
      exact hcases
    · intro r
      show (resume env g req r).shared.sequence = r.shared.sequence
      rw [shared_resume]

end Frames

section Messages

variable {host : Host} {m : Message}

variable {nonce : List Byte}

lemma length_creationNonce (h : nonce.length = 8) (sequence : Nat) :
    (creationNonce nonce sequence).length = 40 := by
  unfold creationNonce copyInto
  simp [h]

lemma creationNonce_inj {nonce' : List Byte} {sequence sequence' : Nat}
    (hnonce : nonce.length = 8) (hnonce' : nonce'.length = 8) (hlt : sequence < 2 ^ 64)
    (hlt' : sequence' < 2 ^ 64)
    (h : creationNonce nonce sequence = creationNonce nonce' sequence') :
    nonce = nonce' ∧ sequence = sequence' := by
  unfold creationNonce copyInto at h
  rw [take_of_length_le (by omega), take_of_length_le (by omega)] at h
  have hlength : (nonce ++ List.replicate (32 - nonce.length) (0 : Byte)).length =
      (nonce' ++ List.replicate (32 - nonce'.length) (0 : Byte)).length := by simp [hnonce, hnonce']
  obtain ⟨hpadded, hcounter⟩ := append_inj h hlength
  refine ⟨(append_inj hpadded (hnonce.trans hnonce'.symm)).1, ?_⟩
  refine littleEndian_inj ?_ ?_ (reverse_inj.mp hcounter)
  · exact hlt
  · exact hlt'

lemma nonce_of_prepare {p : Prepared} {s : State} {msg : CallMsg}
    (hnonce : sequenceBytes s msg = .ok nonce) (h : prepare host s msg = .ok p) :
    p.nonce = nonce := by
  simp only [prepare, hnonce, bind_eq_ok, Except.ok.injEq] at h
  obtain ⟨_, rfl, h⟩ := h
  split at h
  · simp only [prepareDeploy, bind_eq_ok, pure_eq_ok] at h
    obtain ⟨_, -, _, -, rfl⟩ := h
    rfl
  · simp only [prepareCall, bind_eq_ok, pure_eq_ok] at h
    obtain ⟨_, -, _, -, rfl⟩ := h
    rfl

lemma length_sequenceBytes {s : State} {msg : CallMsg}
    (hview : msg.view = false) (h : sequenceBytes s msg = .ok nonce) : nonce.length = 8 := by
  unfold sequenceBytes at h
  rw [hview, if_neg Bool.false_ne_true] at h
  simp only [getAccountSeqNum, bind_eq_ok, pure_eq_ok] at h
  obtain ⟨acc, -, rfl⟩ := h
  exact length_littleEndian 8 acc.sequence

lemma prepared_eq_some {p : Prepared} {gas : Nat} (h : m.prepared host = some (p, gas)) :
    prepare host m.state m.msg = .ok p ∧ getOriginalGas m.meter m.gasRate = .ok gas := by
  unfold Message.prepared at h
  split at h
  · cases h
    exact ⟨by assumption, by assumption⟩
  · cases h

/-- The creations of an execution are derived with the sequence number of the message, and their
counters increase. -/
lemma executed_spec (hnatives : NativesSpend host.toEnv) (hended : m.Ended host)
    (hnonce : sequenceBytes m.state m.msg = .ok nonce) :
    (∀ e ∈ m.executed host, e.Derived host nonce ∧ ∀ c n a, e ≠ .deploy c n a) ∧
      ((m.executed host).filterMap Creation.counter).Pairwise (· < ·) := by
  unfold Message.executed
  cases hprepared : m.prepared host with
  | none => exact ⟨fun _ h => absurd h not_mem_nil, List.Pairwise.nil⟩
  | some pg =>
    obtain ⟨p, gas⟩ := pg
    obtain ⟨hp, hgas⟩ := prepared_eq_some hprepared
    have hpn := nonce_of_prepare hnonce hp
    dsimp only
    cases hew : p.isEWASM with
    | true => exact ⟨fun _ h => absurd h not_mem_nil, List.Pairwise.nil⟩
    | false =>
      rw [if_neg Bool.false_ne_true]
      constructor
      · refine forall_mem_observe ?_ _ _
        intro f e he
        rcases frame_creations_cases (host.env p.nonce) f with
          hnone | ⟨-, -, -, -, -, hone⟩ | ⟨-, initCode, hone⟩
        · rw [hnone] at he
          cases he
        · rw [hone] at he
          cases mem_singleton.mp he
          exact ⟨⟨hpn, Nat.mod_lt _ (by decide), rfl⟩, fun _ _ _ => nofun⟩
        · rw [hone] at he
          cases mem_singleton.mp he
          exact ⟨rfl, fun _ _ _ => nofun⟩
      · obtain ⟨x, hx⟩ := hended.ends p gas hprepared
        simp only [execution, hew, execute, Option.bind_eq_bind, Option.bind_eq_some_iff,
          Prod.exists, Bool.false_eq_true, if_false] at hx
        obtain ⟨r, n, hrun, -⟩ := hx
        have hlimit := getOriginalGas_le hgas
        have hlt : gas < 2 ^ 64 := by
          unfold transactionGasLimit at hlimit
          omega
        have hready := @ready_of_new (topFrame (host.env p.nonce) p m.msg gas) rfl hlt
        obtain ⟨fuel', r', n', hrun', -, hsteps⟩ :=
          @run_ends (host.env p.nonce) _ hnatives hready
        obtain ⟨-, rfl⟩ := run_det hrun hrun'
        have hpotential := @potential_of_new (topFrame (host.env p.nonce) p m.msg gas) rfl
        refine counters_increase hrun ?_
        have hzero : (topFrame (host.env p.nonce) p m.msg gas).shared.sequence = 0 := rfl
        have htop : (topFrame (host.env p.nonce) p m.msg gas).gas = gas := rfl
        rw [htop] at hpotential
        rw [hzero]
        have hproduct : stepsPerGas * gas ≤ stepsPerGas * transactionGasLimit :=
          Nat.mul_le_mul_left _ hlimit
        have hsmall : stepsPerGas * transactionGasLimit + 3 < 2 ^ 64 := by decide
        omega

/-- Within a message nothing is created twice. -/
lemma message_spec (hnatives : NativesSpend host.toEnv) (hended : m.Ended host) :
    (∃ nonce, nonce.length = 8 ∧ ∀ e ∈ m.creations host, e.Derived host nonce) ∧
      ((m.creations host).filterMap Creation.source).Nodup := by
  unfold Message.creations
  cases hnonce : sequenceBytes m.state m.msg with
  | error e =>
    exact ⟨⟨List.replicate 8 0, rfl, fun _ h => absurd h not_mem_nil⟩, nodup_nil⟩
  | ok nonce =>
    have hlength := length_sequenceBytes hended.noView hnonce
    obtain ⟨hderived, hcounters⟩ := executed_spec hnatives hended hnonce
    have hdeployed : ∀ e ∈ m.deployment host nonce, e.Derived host nonce ∧
        e.source = some (m.msg.caller, nonce) := by
      unfold Message.deployment
      split
      · intro e he
        cases mem_singleton.mp he
        exact ⟨⟨rfl, rfl⟩, rfl⟩
      · exact fun _ h => absurd h not_mem_nil
    refine ⟨⟨nonce, hlength, forall_mem_append.mpr
      ⟨fun e he => (hdeployed e he).1, fun e he => (hderived e he).1⟩⟩, ?_⟩
    -- a nonce of a creation is longer than one of a deployment
    have hlong : ∀ e ∈ m.executed host, ∀ s, e.source = some s → s.2.length = 40 := by
      intro e he s hs
      obtain ⟨hd, hnot⟩ := hderived e he
      cases e with
      | deploy c n a => exact absurd rfl (hnot c n a)
      | create c n k a =>
        cases hs
        exact length_creationNonce (hd.1 ▸ hlength) k
      | create2 => cases hs
    rw [filterMap_append]
    refine nodup_append.mpr ⟨?_, ?_, ?_⟩
    · unfold Message.deployment
      split
      · exact nodup_singleton _
      · exact nodup_nil
    · refine pairwise_filterMap.mpr ?_
      refine (pairwise_filterMap.mp hcounters).imp_of_mem ?_
      rintro e e' he he' hlt s hs s' hs' rfl
      obtain ⟨hd, hnot⟩ := hderived e he
      obtain ⟨hd', hnot'⟩ := hderived e' he'
      cases e with
      | deploy c n a => exact absurd rfl (hnot c n a)
      | create2 => cases hs
      | create c n k a =>
        cases e' with
        | deploy c' n' a' => exact absurd rfl (hnot' c' n' a')
        | create2 => cases hs'
        | create c' n' k' a' =>
          cases hs
          have hpair := Option.some.inj hs'
          have hsame := creationNonce_inj (hd'.1 ▸ hlength) (hd.1 ▸ hlength) hd'.2.1 hd.2.1
            (congrArg Prod.snd hpair)
          have hless := hlt k rfl k' rfl
          omega
    · intro s hs s' hs' heq
      obtain ⟨e, he, hes⟩ := mem_filterMap.mp hs
      obtain ⟨e', he', hes'⟩ := mem_filterMap.mp hs'
      have hshort := (hdeployed e he).2.symm.trans hes
      cases hshort
      have hlong' := hlong e' he' s' hes'
      rw [← heq] at hlong'
      have : nonce.length = 40 := hlong'
      omega

end Messages

end Shentu.CVM
