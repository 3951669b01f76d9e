import Shentu.Oracle.Operators

/-!
Tasks of the oracle module. A task is stored under the bytes of its contract and function,
and its identifier is put on the list of the block at which it closes. The end blocker
aggregates the responses to the tasks on the list of its block and divides their bounties
among the operators. Together with the operators and withdrawals this is the whole module.
-/

namespace Shentu.Oracle

open Lib

variable {σ : Type}

structure TaskParams where
  expirationDuration : Int
  aggregationWindow : Int
  aggregationResult : Int
  thresholdScore : Int
  epsilon1 : Int
  epsilon2 : Int
  deriving DecidableEq

def minScore : Int := 0

def maxScore : Int := 100

def amplifier : Int := 1000000

/-- The result of an aggregation is not checked, and the other numbers may be zero. -/
def TaskParams.validate (p : TaskParams) : Prop :=
  0 ≤ p.expirationDuration ∧ 0 ≤ p.aggregationWindow ∧ p.thresholdScore ≤ maxScore ∧
    0 ≤ p.epsilon1 ∧ 0 ≤ p.epsilon2

instance (p : TaskParams) : Decidable p.validate := by
  unfold TaskParams.validate
  infer_instance

inductive TaskStatus
  | unknown | pending | succeeded | failed
  deriving DecidableEq

structure Response where
  operator : Address
  score : Int
  weight : Int
  reward : Coins
  deriving DecidableEq

def newResponse (score : Int) (operator : Address) : Response := ⟨operator, score, 0, []⟩

structure TaskID where
  contract : List Byte
  function : List Byte
  deriving DecidableEq

structure Task where
  contract : List Byte
  function : List Byte
  beginBlock : Int
  bounty : Coins
  description : String
  expiration : Int
  creator : Address
  responses : List Response
  result : Int
  closingBlock : Int
  waitingBlocks : Int
  status : TaskStatus
  deriving DecidableEq

/-- The key of a task: nothing stands between the two names. -/
def taskStoreKey (contract function : List Byte) : List Byte := [4] ++ contract ++ function

def Task.storeKey (task : Task) : List Byte := taskStoreKey task.contract task.function

def TaskID.storeKey (id : TaskID) : List Byte := taskStoreKey id.contract id.function

def Task.id (task : Task) : TaskID := ⟨task.contract, task.function⟩

/-- The identifiers of the tasks that close at a block. -/
structure ClosingTasks where
  closingBlock : Int
  ids : List TaskID
  deriving DecidableEq

def closingTaskIDsStoreKey (blockHeight : Int) : List Byte := [5] ++ heightBytes blockHeight

def ClosingTasks.storeKey (t : ClosingTasks) : List Byte := closingTaskIDsStoreKey t.closingBlock

/-- The whole state of the module. -/
structure TaskState (σ : Type) extends State σ where
  taskParams : TaskParams
  blockTime : Int
  tasks : Table Task.storeKey
  closingTasks : Table ClosingTasks.storeKey

/-- A division of integers, which drops the remainder. -/
def quo (a b : Int) : Except Fault Int := if b = 0 then .error .divisionByZero else .ok (a.tdiv b)

/-- The value of a call whose errors are passed over; a panic is not. -/
def unlessError {α : Type} : Except Fault α → Except Fault (Option α)
  | .ok a => .ok (some a)
  | .error (.error _) => .ok none
  | .error f => .error f

/-- The amount of the first coin of the collateral. -/
def State.getCollateralAmount (s : State σ) (address : Address) : Except Fault Int := do
  let operator ← orFail (s.operators.get address) (.error .noOperatorFound)
  let coin ← orFail operator.collateral.head? .indexOutOfRange
  return coin.amount

/-- What has been added up in an aggregation, with the responses seen so far. -/
structure Aggregation where
  result : Int
  totalCollateral : Int
  minScoreCollateral : Int
  responses : List Response

def countResponse (s : State σ) (acc : Aggregation) (response : Response) :
    Except Fault Aggregation := do
  match ← unlessError (s.getCollateralAmount response.operator) with
  | none => return { acc with responses := acc.responses ++ [response] }
  | some amount =>
    return {
      result := acc.result + response.score * amount
      totalCollateral := acc.totalCollateral + amount
      minScoreCollateral :=
        if response.score = minScore then acc.minScoreCollateral + amount
        else acc.minScoreCollateral
      responses := acc.responses ++ [{ response with weight := amount }] }

/-- The task with the result of its aggregation. -/
def Aggregation.close (acc : Aggregation) (task : Task) : Task :=
  if 0 < acc.totalCollateral then
    if acc.totalCollateral ≤ acc.minScoreCollateral * 3 then
      { task with
        responses := acc.responses.map
          (fun r => if r.score = minScore then r else { r with weight := 0 })
        result := acc.minScoreCollateral
        status := .succeeded }
    else
      { task with
        responses := acc.responses
        result := acc.result.tdiv acc.totalCollateral
        status := .succeeded }
  else { task with responses := acc.responses, result := acc.result, status := .failed }

/-- How the responses to a task count for its bounty: which of them do, with what weight for a
collateral, and in what denomination a coin of the bounty is paid. -/
structure Scoring where
  counts : Response → Bool
  weight : Response → Int → Except Fault Int
  denom : Coin → Denom

/-- A result below the threshold pays every coin in the denomination of the first one. -/
def scoring (p : TaskParams) (task : Task) : Scoring :=
  if task.result = minScore then
    { counts := fun r => r.score = minScore
      weight := fun _ collateral => .ok collateral
      denom := fun bounty => bounty.denom }
  else if task.result < p.thresholdScore then
    { counts := fun r => r.score < p.thresholdScore
      weight := fun r collateral => quo (amplifier * collateral) (r.score + p.epsilon1)
      denom := fun bounty => (task.bounty.head?.getD bounty).denom }
  else
    { counts := fun r => p.thresholdScore ≤ r.score
      weight := fun r collateral => quo (amplifier * collateral) (maxScore - r.score + p.epsilon2)
      denom := fun bounty => bounty.denom }

def addValidCollateral (sc : Scoring) (s : State σ) (total : Int) (response : Response) :
    Except Fault Int := do
  if sc.counts response then
    match ← unlessError (s.getCollateralAmount response.operator) with
    | none => return total
    | some collateral =>
      let weight ← sc.weight response collateral
      return total + weight
  else return total

def totalValidTaskCollateral (sc : Scoring) (s : State σ) (task : Task) : Except Fault Int :=
  task.responses.foldlM (addValidCollateral sc s) 0

/-- The reward of one response from one coin of a bounty. -/
def payResponse (sc : Scoring) (total : Int) (bounty : Coin) (s : State σ) (response : Response) :
    Except Fault (State σ × Response) := do
  if sc.counts response then
    match ← unlessError (s.getCollateralAmount response.operator) with
    | none => return (s, response)
    | some collateral =>
      let weight ← sc.weight response collateral
      let amount ← quo (bounty.amount * weight) total
      failIf (amount < 0) .negativeCoinAmount
      let reward := Coins.ofAmount (sc.denom bounty) amount
      match ← unlessError (s.addReward response.operator reward) with
      | none => return (s, response)
      | some s => return (s, { response with reward := reward })
  else return (s, response)

def payResponses (sc : Scoring) (total : Int) (bounty : Coin) :
    State σ → List Response → Except Fault (State σ × List Response)
  | s, [] => .ok (s, [])
  | s, response :: responses => do
    let (s, response) ← payResponse sc total bounty s response
    let (s, responses) ← payResponses sc total bounty s responses
    return (s, response :: responses)

def payBounty (sc : Scoring) (total : Int) (acc : State σ × List Response) (bounty : Coin) :
    Except Fault (State σ × List Response) :=
  payResponses sc total bounty acc.1 acc.2

namespace TaskState

def getTask (c : TaskState σ) (contract function : List Byte) : Option Task :=
  c.tasks.get (taskStoreKey contract function)

def setTask (c : TaskState σ) (task : Task) : TaskState σ := { c with tasks := c.tasks.set task }

def deleteTask (c : TaskState σ) (task : Task) : TaskState σ :=
  { c with tasks := c.tasks.delete task.storeKey }

def getClosingTaskIDs (c : TaskState σ) (closingBlock : Int) : List TaskID :=
  ((c.closingTasks.get (closingTaskIDsStoreKey closingBlock)).map ClosingTasks.ids).getD []

def setClosingBlockStore (c : TaskState σ) (task : Task) : TaskState σ :=
  let taskIDs := c.getClosingTaskIDs task.closingBlock ++ [task.id]
  { c with closingTasks := c.closingTasks.set ⟨task.closingBlock, taskIDs⟩ }

def deleteClosingTaskIDs (c : TaskState σ) (closingBlock : Int) : TaskState σ :=
  { c with closingTasks := c.closingTasks.delete (closingTaskIDsStoreKey closingBlock) }

def collectBounty (k : Keepers σ) (c : TaskState σ) (value : Coins) (creator : Address) :
    Except Fault (TaskState σ) := do
  let world ← orFail (k.sendCoinsFromAccountToModule c.world creator value) (.error .external)
  return { c with world := world }

/-- The block at which a task with a window closes. -/
def closingBlock (c : TaskState σ) (waitingBlocks : Int) : Int := int64 (c.height + waitingBlocks)

def newTask (c : TaskState σ) (contract function : List Byte) (bounty : Coins)
    (description : String) (expiration : Int) (creator : Address) (waitingBlocks : Int) : Task where
  contract := contract
  function := function
  beginBlock := c.height
  bounty := bounty
  description := description
  expiration := expiration
  creator := creator
  responses := []
  result := 0
  closingBlock := c.closingBlock waitingBlocks
  waitingBlocks := waitingBlocks
  status := .pending

/-- A task that is stored under the same key is replaced from the block at which it closes on. -/
def createTask (k : Keepers σ) (c : TaskState σ) (contract function : List Byte) (bounty : Coins)
    (description : String) (expiration : Int) (creator : Address) (waitingBlocks : Int) :
    Except Fault (TaskState σ) := do
  let c ← match c.getTask contract function with
    | some task => do
      failIf ((c.height : Int) < task.closingBlock) (.error .taskNotClosed)
      pure (c.deleteTask task)
    | none => pure c
  let task := c.newTask contract function bounty description expiration creator waitingBlocks
  ((c.setTask task).setClosingBlockStore task).collectBounty k bounty creator

def removeTask (c : TaskState σ) (contract function : List Byte) (force : Bool)
    (creator : Address) : Except Fault (TaskState σ) := do
  let task ← orFail (c.getTask contract function) (.error .taskNotExists)
  failIf (force = false ∧ ¬ task.expiration < c.blockTime) (.error .notExpired)
  failIf ((c.height : Int) ≤ task.closingBlock) (.error .notFinished)
  failIf (task.creator ≠ creator) (.error .notCreator)
  return c.deleteTask task

def isValidResponse (c : TaskState σ) (task : Task) (response : Response) : Except Fault Unit := do
  failIf (task.closingBlock < c.height) (.error .taskClosed)
  failIf (∃ r ∈ task.responses, r.operator = response.operator) (.error .duplicateResponse)
  failIf (response.score < minScore ∨ maxScore < response.score) (.error .invalidScore)

def respondToTask (c : TaskState σ) (contract function : List Byte) (score : Int)
    (operatorAddress : Address) : Except Fault (TaskState σ) := do
  failIf ((c.operators.get operatorAddress).isNone = true) (.error .unqualifiedOperator)
  let task ← orFail (c.getTask contract function) (.error .taskNotExists)
  let response := newResponse score operatorAddress
  c.isValidResponse task response
  return c.setTask { task with responses := task.responses ++ [response] }

def aggregate (c : TaskState σ) (contract function : List Byte) : Except Fault (TaskState σ) := do
  let task ← orFail (c.getTask contract function) (.error .taskNotExists)
  failIf (task.status ≠ .pending) (.error .taskClosed)
  let acc ← task.responses.foldlM (countResponse c.toState)
    ⟨c.taskParams.aggregationResult, 0, 0, []⟩
  return c.setTask (acc.close task)

def distributeBounty (c : TaskState σ) (task : Task) : Except Fault (TaskState σ) := do
  let sc := scoring c.taskParams task
  let total ← totalValidTaskCollateral sc c.toState task
  failIf (total = 0) (.error .taskFailed)
  let (s, responses) ← task.bounty.foldlM (payBounty sc total) (c.toState, task.responses)
  return { c with toState := s }.setTask { task with responses := responses }

/-- What the end blocker does for one task on the list of its block. -/
def closeTask (c : TaskState σ) (id : TaskID) : Except Fault (TaskState σ) := do
  match ← unlessError (c.aggregate id.contract id.function) with
  | none => return c
  | some c =>
    match c.getTask id.contract id.function with
    | none => return c
    | some task =>
      match ← unlessError (c.distributeBounty task) with
      | none => return c
      | some c => return c

def endBlocker (c : TaskState σ) : Except Fault (TaskState σ) := do
  let c ← (c.getClosingTaskIDs c.height).foldlM closeTask c
  return c.deleteClosingTaskIDs c.height

def beginBlocker (k : Keepers σ) (c : TaskState σ) : Except Fault (TaskState σ) := do
  let s ← c.toState.finalizeMatureWithdraws k
  return { c with toState := s }

end TaskState

inductive OracleMsg
  | createOperator (address : Address) (collateral : Coins) (proposer : Address) (name : String)
  | removeOperator (address proposer : Address)
  | addCollateral (address : Address) (increment : Coins)
  | reduceCollateral (address : Address) (decrement : Coins)
  | withdrawReward (address : Address)
  | createTask (contract function : List Byte) (bounty : Coins) (description : String)
      (creator : Address) (wait validDuration : Int)
  | taskResponse (contract function : List Byte) (score : Int) (operator : Address)
  | inquiryTask (contract function : List Byte) (txHash : String) (inquirer : Address)
  | deleteTask (contract function : List Byte) (force : Bool) (deleter : Address)

namespace OracleMsg

def validateBasic : OracleMsg → Except Fault Unit
  | .createOperator _ collateral _ _ => failNegative collateral
  | .addCollateral _ increment => failNegative increment
  | .reduceCollateral _ decrement => failNegative decrement
  | _ => .ok ()

/-- Whose signature a message needs. -/
def getSigners : OracleMsg → List Address
  | .createOperator address _ _ _ => [address]
  | .removeOperator _ proposer => [proposer]
  | .addCollateral address _ => [address]
  | .reduceCollateral address _ => [address]
  | .withdrawReward address => [address]
  | .createTask _ _ _ _ creator _ _ => [creator]
  | .taskResponse _ _ _ operator => [operator]
  | .inquiryTask _ _ _ inquirer => [inquirer]
  | .deleteTask _ _ _ deleter => [deleter]

end OracleMsg

namespace TaskState

/-- The window of a new task: that of the parameters if the message gives none. -/
def windowSize (c : TaskState σ) (wait : Int) : Int :=
  if wait = 0 then c.taskParams.aggregationWindow else wait

/-- A duration of less than a microsecond is none. -/
def taskExpiration (c : TaskState σ) (validDuration : Int) : Int :=
  if validDuration.tdiv 1000 = 0 then c.blockTime + c.taskParams.expirationDuration
  else c.blockTime + validDuration

/-- An inquiry changes nothing; it reads the result as an unsigned number. -/
def inquireTask (c : TaskState σ) (contract function : List Byte) : Except Fault (TaskState σ) := do
  let task ← orFail (c.getTask contract function) (.error .taskNotExists)
  failIf (¬ (0 ≤ task.result ∧ task.result < 2 ^ 64)) .outOfBounds
  return c

/-- A handler that reaches the operators and withdrawals only. -/
def withState (c : TaskState σ) (r : Except Fault (State σ)) : Except Fault (TaskState σ) := do
  let s ← r
  return { c with toState := s }

/-- The proposer of a removal is not compared with that of the operator. -/
def handle (k : Keepers σ) (c : TaskState σ) : OracleMsg → Except Fault (TaskState σ)
  | .createOperator address collateral proposer name =>
    c.withState (c.toState.createOperator k address collateral proposer name)
  | .removeOperator address _ => c.withState (c.toState.removeOperator k address)
  | .addCollateral address increment => c.withState (c.toState.addCollateral k address increment)
  | .reduceCollateral address decrement =>
    c.withState (c.toState.reduceCollateral k address decrement)
  | .withdrawReward address => c.withState (c.toState.withdrawAllReward k address)
  | .createTask contract function bounty description creator wait validDuration =>
    c.createTask k contract function bounty description (c.taskExpiration validDuration) creator
      (c.windowSize wait)
  | .taskResponse contract function score operator =>
    c.respondToTask contract function score operator
  | .inquiryTask contract function _ _ => c.inquireTask contract function
  | .deleteTask contract function force deleter => c.removeTask contract function force deleter

def deliver (k : Keepers σ) (c : TaskState σ) (msg : OracleMsg) : Except Fault (TaskState σ) := do
  msg.validateBasic
  c.handle k msg

end TaskState

/-- What happens on the chain as far as the module can see it. -/
inductive Action (σ : Type)
  | beginBlock (blockTime : Int)
  | tx (msg : OracleMsg)
  | setPoolParams (p : LockedPoolParams)
  | setTaskParams (p : TaskParams)
  | outside (world : σ)
  | endBlock

namespace TaskState

/-- A message that fails leaves the state as it was. -/
def orSame (c : TaskState σ) : Except Fault (TaskState σ) → TaskState σ
  | .ok c' => c'
  | .error _ => c

/-- A panic of the begin blocker or of the end blocker stops the chain. -/
def exec (k : Keepers σ) (c : TaskState σ) : Action σ → Except Fault (TaskState σ)
  | .beginBlock blockTime =>
    { c with height := c.height + 1, blockTime := blockTime }.beginBlocker k
  | .tx msg => .ok (c.orSame (c.deliver k msg))
  | .setPoolParams p => .ok (if p.validate then { c with poolParams := p } else c)
  | .setTaskParams p => .ok (if p.validate then { c with taskParams := p } else c)
  | .outside world => .ok { c with world := world }
  | .endBlock => c.endBlocker

def run (k : Keepers σ) (c : TaskState σ) (actions : List (Action σ)) :
    Except Fault (TaskState σ) :=
  actions.foldlM (exec k) c

/-- A module without operators and tasks, at a height. -/
def start (height : Nat) (poolParams : LockedPoolParams) (taskParams : TaskParams) (world : σ) :
    TaskState σ where
  height := height
  poolParams := poolParams
  operators := Table.empty
  withdraws := Table.empty
  totalCollateral := some []
  world := world
  taskParams := taskParams
  blockTime := 0
  tasks := Table.empty
  closingTasks := Table.empty

end TaskState

end Shentu.Oracle
