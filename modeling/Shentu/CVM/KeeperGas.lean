import Shentu.CVM.Keeper
import Shentu.CVM.Termination

/-!
The gas of a call of the keeper. The execution ends, and what it leaves is no more than what it was
given, so that the gas it has used is a difference that does not wrap.
-/

namespace Shentu.CVM

open Lib

section Spending

variable {host : Host}

/-- The gas of a contract in EWASM is spent and not created. -/
def WASMSpends (host : Host) : Prop :=
  ∀ cache params code gas, (host.runWASM cache params code gas).1.gas ≤ gas

variable {meter : GasMeter}

lemma getOriginalGas_le {gasRate originalGas : Nat}
    (h : getOriginalGas meter gasRate = .ok originalGas) : originalGas ≤ transactionGasLimit := by
  unfold getOriginalGas at h
  dsimp only at h
  split at h
  · cases h
  · cases h
    exact min_le_right _ _

/-- A fee that neither wraps when it is rounded up nor exceeds what the meter has left is paid. -/
lemma chargeFee_eq_ok {gasRate fee : Nat} (hrate : 0 < gasRate)
    (hround : fee + gasRate ≤ 2 ^ 64) (hfits : meter.consumed + fee ⌈/⌉ gasRate < 2 ^ 64)
    (hlimit : meter.infinite = false → meter.consumed + fee ⌈/⌉ gasRate ≤ meter.limit) :
    chargeFee meter gasRate fee =
      .ok { meter with consumed := meter.consumed + fee ⌈/⌉ gasRate } := by
  have hamount : (fee + gasRate + 2 ^ 64 - 1) % 2 ^ 64 = fee + gasRate - 1 := by omega
  unfold chargeFee GasMeter.consumeGas
  rw [hamount, ← Nat.ceilDiv_eq_add_pred_div]
  simp only [run_eq_ok]
  exact ⟨hrate.ne', by omega, fun h => absurd (hlimit h.1) h.2.not_ge, trivial⟩

/-- What is documented of the gas of a call under a finite meter. The call gets what remains at the
rate of the interpreter, up to the limit, and there is an error exactly if this does not fit into 64
bits. Every fee up to that amount is paid, rounded up, and is not more than what remains. -/
structure GasConverted (meter : GasMeter) (gasRate : Nat) : Prop where
  original : getOriginalGas meter gasRate =
    if (meter.limit - meter.consumed) * gasRate < 2 ^ 64
    then .ok (min ((meter.limit - meter.consumed) * gasRate) transactionGasLimit)
    else .error .integerOverflow
  charged : (meter.limit - meter.consumed) * gasRate < 2 ^ 64 →
    ∀ fee ≤ min ((meter.limit - meter.consumed) * gasRate) transactionGasLimit,
      chargeFee meter gasRate fee =
        .ok { meter with consumed := meter.consumed + fee ⌈/⌉ gasRate } ∧
      fee ⌈/⌉ gasRate ≤ meter.limit - meter.consumed

section Conversion

variable {meter : GasMeter} {gasRate fee : Nat} (hrate : 0 < gasRate)
  (hmeter : meter.consumed ≤ meter.limit) (hlimit : meter.limit < 2 ^ 64)
include hmeter hlimit

lemma getOriginalGas_eq : getOriginalGas meter gasRate =
    if (meter.limit - meter.consumed) * gasRate % 2 ^ 64 < meter.limit - meter.consumed
    then .error .integerOverflow
    else .ok (min ((meter.limit - meter.consumed) * gasRate % 2 ^ 64) transactionGasLimit) := by
  have hcurrent : (meter.limit + 2 ^ 64 - meter.consumed) % 2 ^ 64 =
      meter.limit - meter.consumed := by omega
  unfold getOriginalGas
  dsimp only
  rw [hcurrent]

include hrate

/-- A fee that does not wrap when it is rounded up is paid. -/
lemma chargeFee_eq (hfee : fee ≤ (meter.limit - meter.consumed) * gasRate)
    (hround : fee + gasRate ≤ 2 ^ 64) :
    chargeFee meter gasRate fee =
      .ok { meter with consumed := meter.consumed + fee ⌈/⌉ gasRate } ∧
    fee ⌈/⌉ gasRate ≤ meter.limit - meter.consumed := by
  have hconsumed : fee ⌈/⌉ gasRate ≤ meter.limit - meter.consumed := by
    rw [ceilDiv_le_iff_le_mul hrate, mul_comm]
    exact hfee
  exact ⟨chargeFee_eq_ok hrate hround (by omega) (fun _ => by omega), hconsumed⟩

end Conversion

/-- A rounded fee that wraps is not paid at all. -/
lemma round_of_chargeFee {gasRate fee : Nat} (hrate : 0 < gasRate)
    (hrate' : gasRate < 2 ^ 64) (hfee : fee ≤ transactionGasLimit)
    (h : chargeFee meter gasRate fee =
      .ok { meter with consumed := meter.consumed + fee ⌈/⌉ gasRate }) :
    fee + gasRate ≤ 2 ^ 64 := by
  simp only [chargeFee, GasMeter.consumeGas, run_eq_ok] at h
  obtain ⟨-, -, -, heq⟩ := h
  have hamount : (fee + gasRate + 2 ^ 64 - 1) % 2 ^ 64 / gasRate = fee ⌈/⌉ gasRate :=
    Nat.add_left_cancel (congrArg GasMeter.consumed heq)
  by_contra hwraps
  have hlow : (fee + gasRate + 2 ^ 64 - 1) % 2 ^ 64 < gasRate := by
    unfold transactionGasLimit at hfee
    omega
  rw [Nat.div_eq_of_lt hlow] at hamount
  have hzero := (ceilDiv_le_iff_le_mul hrate).mp hamount.symm.le
  omega

/-- Under a finite meter the gas is converted as documented exactly if the gas at the rate and each
rounded fee fit into 64 bits, or if the product wraps below what remains. An infinite meter gives
the limit exactly if the product that wraps is not below the limit and what it takes to remain. -/
theorem gas_converted_iff (meter : GasMeter) (gasRate consumed : Nat) (hrate : 0 < gasRate)
    (hrate' : gasRate < 2 ^ 64) (hmeter : meter.consumed ≤ meter.limit)
    (hlimit : meter.limit < 2 ^ 64) (hconsumed : consumed < 2 ^ 64) :
    (GasConverted meter gasRate ↔
      (meter.limit - meter.consumed) * gasRate < 2 ^ 64 ∧
        min ((meter.limit - meter.consumed) * gasRate) transactionGasLimit + gasRate ≤ 2 ^ 64 ∨
      2 ^ 64 ≤ (meter.limit - meter.consumed) * gasRate ∧
        (meter.limit - meter.consumed) * gasRate % 2 ^ 64 < meter.limit - meter.consumed) ∧
    (getOriginalGas ⟨0, consumed, true⟩ gasRate = .ok transactionGasLimit ↔
      max (2 ^ 64 - consumed) transactionGasLimit ≤ (2 ^ 64 - consumed) * gasRate % 2 ^ 64) := by
  have horiginal := @getOriginalGas_eq meter gasRate hmeter hlimit
  constructor
  · have hle := Nat.le_mul_of_pos_right (meter.limit - meter.consumed) hrate
    by_cases hfit : (meter.limit - meter.consumed) * gasRate < 2 ^ 64
    · rw [Nat.mod_eq_of_lt hfit, if_neg hle.not_gt] at horiginal
      constructor
      · intro h
        exact .inl ⟨hfit, round_of_chargeFee hrate hrate' (min_le_right _ _)
          (h.charged hfit _ le_rfl).1⟩
      · rintro (⟨-, hround⟩ | ⟨hwraps, -⟩)
        · refine ⟨horiginal.trans (if_pos hfit).symm, fun _ fee hfee => ?_⟩
          exact chargeFee_eq hrate hmeter hlimit (hfee.trans (min_le_left _ _)) (by omega)
        · exact absurd hfit hwraps.not_gt
    · constructor
      · intro h
        refine .inr ⟨not_lt.mp hfit, ?_⟩
        by_contra hless
        have herr := h.original
        rw [horiginal, if_neg hless, if_neg hfit] at herr
        cases herr
      · rintro (⟨hfit', -⟩ | ⟨-, hless⟩)
        · exact absurd hfit' hfit
        · rw [if_pos hless] at horiginal
          exact ⟨horiginal.trans (if_neg hfit).symm, fun hfit' => absurd hfit' hfit⟩
  · rcases Nat.eq_zero_or_pos consumed with rfl | hpos
    · simp [getOriginalGas, transactionGasLimit]
    · have hcurrent : (0 + 2 ^ 64 - consumed) % 2 ^ 64 = 2 ^ 64 - consumed := by omega
      unfold getOriginalGas
      dsimp only
      rw [hcurrent, max_le_iff]
      split
      · exact iff_of_false nofun (by omega)
      · rw [Except.ok.injEq, min_eq_right_iff]
        exact ⟨fun h => ⟨by omega, h⟩, fun h => h.2⟩

theorem gas_converted_four : getOriginalGas ⟨10, 6, false⟩ 3 = .ok 12 ∧
    chargeFee ⟨10, 6, false⟩ 3 11 = .ok ⟨10, 10, false⟩ := by
  have h := (gas_converted_iff ⟨10, 6, false⟩ 3 0 (by decide) (by decide) (by decide) (by decide)
    (by decide)).1.mpr (.inl (by decide))
  exact ⟨h.original, (h.charged (by decide) 11 (by decide)).1⟩

/-- A product that wraps to a greater number is not noticed, a rounded fee that wraps is not paid,
and an infinite meter that is new gives nothing. -/
theorem gas_not_converted : getOriginalGas ⟨3, 0, false⟩ (2 ^ 63) = .ok transactionGasLimit ∧
    chargeFee ⟨1, 0, false⟩ (2 ^ 64 - 1) 5 = .ok ⟨1, 0, false⟩ ∧
    getOriginalGas ⟨0, 0, true⟩ 1 = .ok 0 := by
  decide +kernel

@[simp] lemma gas_endExecution (env : Env) (cache : CallFrame) (r : Result) :
    (endExecution env cache r).gas = r.gas := by
  unfold endExecution
  split
  · rfl
  · split <;> rfl

@[simp] lemma gas_executeWASM (host : Host) (p : Prepared) (msg : CallMsg) (gas : Nat) :
    (executeWASM host p msg gas).gas =
      (host.runWASM p.cache (callParams msg p.callee) p.code gas).1.gas := by
  unfold executeWASM
  split
  split <;> simp_all

lemma execution_ends (hnatives : NativesSpend host.toEnv) (hwasm : WASMSpends host)
    (p : Prepared) (msg : CallMsg) {gas : Nat} (hgas : gas < 2 ^ 64) :
    ∃ fuel x, execution host fuel p msg gas = some x ∧ x.gas ≤ gas := by
  cases hew : p.isEWASM with
  | true =>
    cases hruntime : msg.isRuntime with
    | true =>
      refine ⟨0, ⟨p.code, none, gas, 0, p.cache, p.state.validators⟩, ?_, le_rfl⟩
      simp [execution, hew, hruntime]
    | false =>
      refine ⟨0, executeWASM host p msg gas, by simp [execution, hew, hruntime], ?_⟩
      rw [gas_executeWASM]
      exact hwasm _ _ _ _
  | false =>
    have hready := @ready_of_new (topFrame (host.env p.nonce) p msg gas) rfl hgas
    obtain ⟨fuel, r, n, hrun, hleft, -⟩ := @run_ends (host.env p.nonce) _ hnatives hready
    refine ⟨fuel, endExecution (host.env p.nonce) p.cache r, ?_, ?_⟩
    · simp [execution, hew, execute, hrun]
    · rw [gas_endExecution]
      exact hleft

lemma execution_det {p : Prepared} {msg : CallMsg} {gas fuel fuel' : Nat} {x x' : Executed}
    (h : execution host fuel p msg gas = some x) (h' : execution host fuel' p msg gas = some x') :
    x = x' := by
  unfold execution at h h'
  split at h
  · rename_i hew
    rw [if_pos hew] at h'
    exact Option.some.inj (h.symm.trans h')
  · rename_i hew
    rw [if_neg hew] at h'
    unfold execute at h h'
    simp only [Option.bind_eq_bind, Option.bind_eq_some_iff, Prod.exists] at h h'
    obtain ⟨r, n, hrun, heq⟩ := h
    obtain ⟨r', n', hrun', heq'⟩ := h'
    obtain ⟨rfl, -⟩ := CallMachine.run_det hrun hrun'
    exact Option.some.inj (heq.symm.trans heq')

end Spending

/-- The interpreter stops after a number of instructions that the gas bounds, those of nested calls
and creations included, and leaves no more gas than it was given. So the gas that a call of the
keeper has used is the difference of the gas it started with and the gas left. -/
theorem execute_stops_and_spends (host : Host) (hnatives : NativesSpend host.toEnv)
    (hwasm : WASMSpends host) :
    (∀ f : Frame, f.locals = .new → f.gas < 2 ^ 64 →
      ∃ fuel r n, (cvm host.toEnv).run fuel f = some (r, n) ∧ r.gas ≤ f.gas ∧
        n ≤ stepsPerGas * f.gas + 3) ∧
    ∀ (s : State) (msg : CallMsg) (p : Prepared) (meter : GasMeter) (gasRate originalGas : Nat),
      prepare host s msg = .ok p → getOriginalGas meter gasRate = .ok originalGas →
        (∃ fuel x, execution host fuel p msg originalGas = some x) ∧
        ∀ fuel x, execution host fuel p msg originalGas = some x → x.gas ≤ originalGas := by
  refine ⟨?_, ?_⟩
  · intro f hnew hgas
    obtain ⟨fuel, r, n, hrun, hleft, hsteps⟩ := run_ends hnatives (ready_of_new hnew hgas)
    have hbound := potential_of_new hnew
    exact ⟨fuel, r, n, hrun, hleft, by omega⟩
  · intro s msg p meter gasRate originalGas _ horiginal
    have hlimit := getOriginalGas_le horiginal
    have hgas : originalGas < 2 ^ 64 := by
      unfold transactionGasLimit at hlimit
      omega
    obtain ⟨fuel, x, hx, hleft⟩ := execution_ends hnatives hwasm p msg hgas
    refine ⟨⟨fuel, x, hx⟩, ?_⟩
    intro fuel' x' hx'
    rw [execution_det hx' hx]
    exact hleft

/-- A host without precompiled contracts of its own and without certificates. Its certifier has the
address one. -/
def plainHost : Host where
  keccak256 := leftPadWord256
  newContractAddress := fun caller nonce => 1000 * caller + 100 + ofBigEndian nonce % 100
  newContractAddress2 := fun caller salt _ => 1000 * caller + 200 + salt.toNat % 100
  codehashPermitted := fun _ _ _ => true
  nonce := []
  lastBlockHeight := 1
  lastBlockTime := 0
  blockHash := fun _ => .ok []
  hostNatives := fun _ => none
  isContentCertified := fun _ => false
  isProofCertified := fun _ => false
  isCompilationCertified := fun _ => false
  isCertifier := fun a => a = 1
  accAddressFromBech32 := fun _ => none
  getPubKeyFromBech32 := some
  runWASM := fun _ _ _ gas => (⟨[], none, gas⟩, [])
  getMetadataHash := id

/-- A loop without an end is stopped by its gas. -/
theorem execute_stops_and_spends_loop : ∃ fuel r n, (cvm plainHost.toEnv).run fuel
      { code := [0x5B, 0x60, 0x00, 0x56]
        params := ⟨.call, 1, 1, 2, [], 0⟩
        gas := 1000
        locals := .new
        callFrame := ⟨.new, ⟨fun _ => none, fun _ _ => 0, nofun⟩⟩
        transferErr := none
        logFree := false
        shared := ⟨0, 0, .empty⟩ } = some (r, n) ∧ r.gas ≤ 1000 ∧
      n ≤ stepsPerGas * 1000 + 3 :=
  (execute_stops_and_spends plainHost (fun _ _ _ _ h => by cases h) (fun _ _ _ _ => le_rfl)).1 _ rfl
    (by decide)

section Refund

/-- The gas that an execution has used is to be paid, less the refund unless it has failed. -/
def feeDue (originalGas : Nat) (x : Executed) : Nat :=
  if x.err.isSome then originalGas - x.gas
  else originalGas - x.gas - min ((originalGas - x.gas) / 2) x.refund

/-- A call that is prepared and given gas runs the interpreter, which ends with `x`. After a
run-time panic there is no one to charge. -/
structure Interpreted (host : Host) (meter : GasMeter) (gasRate fuel : Nat) (s : State)
    (msg : CallMsg) (originalGas : Nat) (x : Executed) : Prop where
  original : getOriginalGas meter gasRate = .ok originalGas
  ends : ∃ p, prepare host s msg = .ok p ∧ execution host fuel p msg originalGas = some x
  returns : x.err ≠ some .panic

/-- A call consumes what is due for its execution, rounded up to gas of the meter. -/
def RefundGiven (host : Host) (meter : GasMeter) (gasRate : Nat) (s : State) (msg : CallMsg) :
    Prop :=
  ∀ fuel originalGas x, Interpreted host meter gasRate fuel s msg originalGas x →
    (keeperCall host meter gasRate fuel s msg).map CallOutcome.meter =
      some { meter with consumed := meter.consumed + feeDue originalGas x ⌈/⌉ gasRate }

/-- The refund of a call is zero, or too small to change the gas of the meter. -/
def RefundVanishes (host : Host) (meter : GasMeter) (gasRate : Nat) (s : State) (msg : CallMsg) :
    Prop :=
  ∀ fuel originalGas x, Interpreted host meter gasRate fuel s msg originalGas x →
    (originalGas - x.gas - min ((originalGas - x.gas) / 2) x.refund) ⌈/⌉ gasRate =
      (originalGas - x.gas) ⌈/⌉ gasRate

/-- A meter that is not past its limit, or that has no limit and does not wrap in a call. -/
def GasMeter.Sound (meter : GasMeter) : Prop :=
  if meter.infinite then meter.consumed + transactionGasLimit < 2 ^ 64
  else meter.consumed ≤ meter.limit ∧ meter.limit < 2 ^ 64

lemma executionFee_eq {originalGas gasTracker : Nat} (refund : Nat) (err : Option Err)
    (hgas : originalGas < 2 ^ 64) (hleft : gasTracker ≤ originalGas) :
    executionFee originalGas gasTracker refund err = if err.isSome
      then originalGas - gasTracker - min ((originalGas - gasTracker) / 2) refund
      else originalGas - gasTracker := by
  have hused : (originalGas + 2 ^ 64 - gasTracker) % 2 ^ 64 = originalGas - gasTracker := by omega
  unfold executionFee
  dsimp only
  rw [hused]
  split
  · have hhalf := min_le_left ((originalGas - gasTracker) / 2) refund
    omega
  · exact hused

/-- What a call has been given is enough to pay for all that it can use. -/
lemma chargeFee_of_original {meter : GasMeter} {gasRate originalGas fee : Nat}
    (hmeter : meter.Sound) (hrate : 0 < gasRate) (hrate' : gasRate + transactionGasLimit ≤ 2 ^ 64)
    (h : getOriginalGas meter gasRate = .ok originalGas) (hfee : fee ≤ originalGas) :
    chargeFee meter gasRate fee =
      .ok { meter with consumed := meter.consumed + fee ⌈/⌉ gasRate } := by
  have hle := getOriginalGas_le h
  have hround : fee + gasRate ≤ 2 ^ 64 := by omega
  unfold GasMeter.Sound at hmeter
  split_ifs at hmeter with hinfinite
  · have hceil : fee ⌈/⌉ gasRate ≤ fee := by
      rw [ceilDiv_le_iff_le_mul hrate]
      exact Nat.le_mul_of_pos_left fee hrate
    exact chargeFee_eq_ok hrate hround (by omega) (fun h => absurd h (by simp [hinfinite]))
  · refine (chargeFee_eq hrate hmeter.1 hmeter.2 ?_ hround).1
    rw [getOriginalGas_eq hmeter.1 hmeter.2] at h
    split at h
    · cases h
    · cases h
      exact hfee.trans ((min_le_left _ _).trans (Nat.mod_le _ _))

/-- The meter after a call whose execution can be paid for. -/
lemma meter_keeperCall {host : Host} {meter meter' : GasMeter} {gasRate fuel originalGas : Nat}
    {s : State} {msg : CallMsg} {x : Executed}
    (hrun : Interpreted host meter gasRate fuel s msg originalGas x)
    (hpaid : chargeFee meter gasRate (executionFee originalGas x.gas x.refund x.err) = .ok meter') :
    (keeperCall host meter gasRate fuel s msg).map CallOutcome.meter = some meter' := by
  obtain ⟨horiginal, ⟨p, hp, hx⟩, hreturns⟩ := hrun
  have hmeter : (conclude host meter gasRate originalGas p msg x).meter = meter' := by
    unfold conclude
    rw [if_neg hreturns, hpaid]
    cases x.err <;> rfl
  have hcall : keeperCall host meter gasRate fuel s msg =
      some (conclude host meter gasRate originalGas p msg x) := by
    unfold keeperCall
    rw [hp, horiginal]
    exact congrArg (· >>= fun x => some (conclude host meter gasRate originalGas p msg x)) hx
  rw [hcall, Option.map_some, hmeter]

end Refund

/-- An account that signs and a contract with code and a slot. -/
def contractState (code : Code) (slot : Word) : State where
  accounts := (Table.empty.set ⟨1, .single microCTKDenom 1000, 0, none⟩).set
    ⟨2, .single microCTKDenom 500, 0, none⟩
  code := Table.empty.set ⟨2, .evm code⟩
  abi := .empty
  addressMeta := .empty
  storage := Table.empty.set ⟨2, 0, slot⟩
  metadata := .empty
  validators := .empty

def contractCall (value : Nat) : CallMsg := ⟨1, some 2, value, [], [], false, false, false⟩

/-- The code of a contract that sets the first slot to zero. -/
def clearSlot : Code := [0x60, 0x00, 0x60, 0x00, 0x55, 0x00]

end Shentu.CVM
