import Shentu.Oracle.Steps
import Shentu.Oracle.TaskSteps

/-!
The schedule of tasks. A task is put on the list of the block at which it closes, and the end
blocker of that block goes through the list. Blocks are taken as a whole here: each has one begin
blocker and one end blocker. If no pending task is replaced and no task is due before its own
block, then the lists and the pending tasks belong together, from block to block.
-/

namespace Shentu.Oracle

open Lib List Int Table Table

variable {σ : Type} {k : Keepers σ} {c c' : TaskState σ}

/-- The actions that happen between the two ends of a block. -/
def Action.inBlock : Action σ → Prop
  | .beginBlock _ | .endBlock => False
  | _ => True

instance (a : Action σ) : Decidable a.inBlock := by
  unfold Action.inBlock
  split <;> infer_instance

structure Block (σ : Type) where
  blockTime : Int
  events : List (Action σ)
  inBlock : ∀ a ∈ events, a.inBlock

def Block.actions (b : Block σ) : List (Action σ) :=
  .beginBlock b.blockTime :: (b.events ++ [.endBlock])

/-- A new task that is accepted closes in this block or later, and takes the place of no pending
task. -/
def KeepsSchedule (k : Keepers σ) (c : TaskState σ) : Action σ → Prop
  | .tx (.createTask contract function bounty description creator wait validDuration) =>
    (∃ c', c.deliver k (.createTask contract function bounty description creator wait
      validDuration) = .ok c') →
    (c.height : Int) ≤ c.closingBlock (c.windowSize wait) ∧
      ∀ t ∈ c.getTask contract function, t.status = .pending → (c.height : Int) < t.closingBlock
  | _ => True

instance (k : Keepers σ) (c : TaskState σ) (a : Action σ) : Decidable (KeepsSchedule k c a) := by
  unfold KeepsSchedule
  split <;> infer_instance

/-- What is seen of a task. -/
inductive TaskEntry
  | created (t : Task)
  | responded (key : List Byte) (r : Response)
  | aggregated (height : Nat) (t : Task)
  deriving DecidableEq

/-- The end blocker aggregates a task, as it is stored before. -/
def closeEntries (c : TaskState σ) (id : TaskID) : List TaskEntry :=
  match c.aggregate id.contract id.function with
  | .ok _ => (c.getTask id.contract id.function).toList.map (.aggregated c.height)
  | .error _ => []

def taskEntries (k : Keepers σ) (c : TaskState σ) : Action σ → List TaskEntry
  | .tx (.createTask contract function bounty description creator wait validDuration) =>
    match c.deliver k
      (.createTask contract function bounty description creator wait validDuration) with
    | .ok c' => (c'.getTask contract function).toList.map .created
    | .error _ => []
  | .tx (.taskResponse contract function score operator) =>
    match c.deliver k (.taskResponse contract function score operator) with
    | .ok _ => [.responded (taskStoreKey contract function) (newResponse score operator)]
    | .error _ => []
  | .endBlock => observations closeEntries TaskState.closeTask c (c.getClosingTaskIDs c.height)
  | _ => []

/-- What an action between the ends of a block does to the tasks and lists. -/
inductive TaskStep (c c' : TaskState σ) : List TaskEntry → Prop
  | create {t : Task} (hpending : t.status = .pending)
      (hlater : (c.height : Int) ≤ t.closingBlock ∧ t.closingBlock < 2 ^ 63)
      (hfree : ∀ old, c.tasks.get t.storeKey = some old → old.status ≠ .pending)
      (htasks : c'.tasks = c.tasks.set t)
      (hlists : c'.closingTasks =
        c.closingTasks.set ⟨t.closingBlock, c.getClosingTaskIDs t.closingBlock ++ [t.id]⟩)
      (hheight : c'.height = c.height) : TaskStep c c' [.created t]
  | respond {t : Task} {r : Response} (hget : c.tasks.get t.storeKey = some t)
      (hopen : (c.height : Int) ≤ t.closingBlock)
      (htasks : c'.tasks = c.tasks.set { t with responses := t.responses ++ [r] })
      (hlists : c'.closingTasks = c.closingTasks) (hheight : c'.height = c.height) :
      TaskStep c c' [.responded t.storeKey r]
  | remove {t : Task} (hget : c.tasks.get t.storeKey = some t)
      (hclosed : t.closingBlock < c.height) (htasks : c'.tasks = c.tasks.delete t.storeKey)
      (hlists : c'.closingTasks = c.closingTasks) (hheight : c'.height = c.height) :
      TaskStep c c' []
  | other (htasks : c'.tasks = c.tasks) (hlists : c'.closingTasks = c.closingTasks)
      (hheight : c'.height = c.height) : TaskStep c c' []

lemma int64_lt (x : Int) : int64 x < 2 ^ 63 := bmod_lt (by decide)

variable {msg : OracleMsg}

/-- A message does not change the height. -/
lemma deliver_height (h : c.deliver k msg = .ok c') : c'.height = c.height := by
  simp only [TaskState.deliver, bind_eq_ok] at h
  obtain ⟨-, -, h⟩ := h
  cases msg with
  | createOperator address collateral proposer name =>
    obtain ⟨s, hs, rfl⟩ := withState_cases h
    obtain ⟨_, world, -, -, -, -, rfl⟩ := createOperator_cases hs
    rfl
  | removeOperator address proposer =>
    obtain ⟨s, hs, rfl⟩ := withState_cases h
    obtain ⟨o, _, _, world, -, -, -, -, rfl⟩ := removeOperator_cases hs
    rfl
  | addCollateral address increment =>
    obtain ⟨s, hs, rfl⟩ := withState_cases h
    obtain ⟨o, _, world, -, -, -, rfl⟩ := addCollateral_cases hs
    rfl
  | reduceCollateral address decrement =>
    obtain ⟨s, hs, rfl⟩ := withState_cases h
    obtain ⟨o, collateral, _, _, -, -, -, -, -, rfl⟩ := reduceCollateral_cases hs
    rfl
  | withdrawReward address =>
    obtain ⟨s, hs, rfl⟩ := withState_cases h
    simp only [State.withdrawAllReward, run_eq_ok] at hs
    obtain ⟨o, -, world, -, rfl⟩ := hs
    rfl
  | createTask contract function bounty description creator wait validDuration =>
    obtain ⟨t, world, -, -, -, rfl⟩ := createTask_cases h
    rfl
  | taskResponse contract function score operator =>
    obtain ⟨t, -, -, -, -, rfl⟩ := respondToTask_cases h
    rfl
  | inquiryTask contract function txHash inquirer => rw [inquireTask_cases h]
  | deleteTask contract function force deleter =>
    obtain ⟨t, -, -, rfl⟩ := removeTask_cases h
    rfl

lemma deliver_taskStep (hmsg : KeepsSchedule k c (.tx msg))
    (h : c.deliver k msg = .ok c') : TaskStep c c' (taskEntries k c (.tx msg)) := by
  have hheight := deliver_height h
  have hentries := h
  simp only [TaskState.deliver, bind_eq_ok] at h
  obtain ⟨-, -, h⟩ := h
  cases msg with
  | createOperator | removeOperator | addCollateral | reduceCollateral | withdrawReward =>
    obtain ⟨s, -, rfl⟩ := withState_cases h
    exact .other rfl rfl hheight
  | createTask contract function bounty description creator wait validDuration =>
    obtain ⟨t, world, ht, hclosed, -, rfl⟩ := createTask_cases h
    have hkey : t.storeKey = taskStoreKey contract function := by
      rw [ht]
      rfl
    have hget : (c.tasks.set t).get (taskStoreKey contract function) = some t := by
      rw [← hkey]
      exact get_set_self _ _
    simp only [taskEntries, hentries, TaskState.getTask, TaskState.setClosingBlockStore,
      TaskState.setTask, hget, Option.toList_some, map_cons, map_nil]
    obtain ⟨hdue, hreplaced⟩ := hmsg ⟨_, hentries⟩
    refine .create ?_ ?_ ?_ rfl rfl hheight
    · rw [ht]
      rfl
    · rw [ht]
      exact ⟨hdue, int64_lt _⟩
    · intro old hold hpending
      rw [hkey] at hold
      exact absurd (hreplaced old hold hpending) (not_lt.mpr (hclosed old hold))
  | taskResponse contract function score operator =>
    obtain ⟨t, hget, hopen, -, -, rfl⟩ := respondToTask_cases h
    have hkey : t.storeKey = taskStoreKey contract function := key_of_get hget
    simp only [taskEntries, hentries]
    rw [← hkey]
    exact .respond (hkey ▸ hget) hopen rfl rfl hheight
  | inquiryTask contract function txHash inquirer =>
    rw [inquireTask_cases h]
    exact .other rfl rfl rfl
  | deleteTask contract function force deleter =>
    obtain ⟨t, hget, hclosed, rfl⟩ := removeTask_cases h
    have hkey : t.storeKey = taskStoreKey contract function := key_of_get hget
    exact .remove (hkey ▸ hget) hclosed rfl rfl hheight

lemma taskEntries_of_error {f : Fault} (h : c.deliver k msg = .error f) :
    taskEntries k c (.tx msg) = [] := by
  cases msg <;> simp only [taskEntries, h]

lemma exec_taskStep {a : Action σ} (hin : a.inBlock) (ha : KeepsSchedule k c a)
    (h : c.exec k a = .ok c') : TaskStep c c' (taskEntries k c a) := by
  cases a with
  | beginBlock | endBlock => exact absurd hin not_false
  | tx msg =>
    cases h
    cases hmsg : c.deliver k msg with
    | error f =>
      rw [taskEntries_of_error hmsg]
      exact .other rfl rfl rfl
    | ok c₁ => exact deliver_taskStep ha hmsg
  | setPoolParams | setTaskParams =>
    cases h
    split <;> exact .other rfl rfl rfl
  | outside world =>
    cases h
    exact .other rfl rfl rfl

/-- The lists and the pending tasks belong together, and all other tasks were due before a
height. -/
structure Scheduled (height : Nat) (c : TaskState σ) : Prop where
  lists : ∀ r ∈ c.closingTasks.rows, (height : Int) ≤ r.closingBlock ∧ r.closingBlock < 2 ^ 63
  listed : ∀ r ∈ c.closingTasks.rows, ∀ id ∈ r.ids, ∃ t, c.tasks.get id.storeKey = some t ∧
    t.status = .pending ∧ t.closingBlock = r.closingBlock
  pending : ∀ t ∈ c.tasks.rows, t.status = .pending →
    ∃ r ∈ c.closingTasks.rows, r.closingBlock = t.closingBlock ∧ t.id ∈ r.ids
  closed : ∀ t ∈ c.tasks.rows, t.status ≠ .pending → t.closingBlock < height

lemma int64_of_range {x : Int} (h : 0 ≤ x ∧ x < 2 ^ 63) : int64 x = x :=
  bmod_eq_of_le (by omega) (by omega)

lemma heightBytes_eq_iff (a b : Int) : heightBytes a = heightBytes b ↔ int64 a = int64 b := by
  have hlt : ∀ x : Int, uint64 x < 256 ^ 8 := by
    intro x
    unfold uint64
    omega
  constructor
  · intro h
    have heq := littleEndian_inj (hlt a) (hlt b) h
    have hmod : a % (2 ^ 64 : Nat) = b % (2 ^ 64 : Nat) := by
      unfold uint64 at heq
      omega
    unfold int64 Int.bmod
    rw [hmod]
  · intro h
    have hmod : a % 2 ^ 64 = b % 2 ^ 64 := by
      have hbmod := congrArg (fun x : Int => x % (2 ^ 64 : Nat)) h
      simp only [int64, bmod_emod] at hbmod
      exact_mod_cast hbmod
    unfold heightBytes uint64
    rw [hmod]

lemma closingTaskIDsStoreKey_inj {a b : Int} (ha : 0 ≤ a ∧ a < 2 ^ 63) (hb : 0 ≤ b ∧ b < 2 ^ 63)
    (h : closingTaskIDsStoreKey a = closingTaskIDsStoreKey b) : a = b := by
  have hbytes := (heightBytes_eq_iff a b).mp (append_cancel_left h)
  rwa [int64_of_range ha, int64_of_range hb] at hbytes

namespace Scheduled

variable {height : Nat}

variable {t : Task}

lemma later (h : Scheduled height c) {key : List Byte}
    (hget : c.tasks.get key = some t) (hpending : t.status = .pending) :
    (height : Int) ≤ t.closingBlock := by
  obtain ⟨r, hr, hblock, -⟩ := h.pending t (mem_of_get hget) hpending
  rw [← hblock]
  exact (h.lists r hr).1

lemma get_list (h : Scheduled height c) {b : Int} (hb : 0 ≤ b ∧ b < 2 ^ 63) {r : ClosingTasks}
    (hr : c.closingTasks.get (closingTaskIDsStoreKey b) = some r) : r.closingBlock = b := by
  obtain ⟨hlow, hhigh⟩ := h.lists r (mem_of_get hr)
  have hkey : r.storeKey = closingTaskIDsStoreKey b := key_of_get hr
  exact closingTaskIDsStoreKey_inj ⟨by omega, hhigh⟩ hb hkey

lemma mem_list (h : Scheduled height c) {b : Int} (hb : 0 ≤ b ∧ b < 2 ^ 63) {id : TaskID}
    (hid : id ∈ c.getClosingTaskIDs b) :
    ∃ t, c.tasks.get id.storeKey = some t ∧ t.status = .pending ∧ t.closingBlock = b := by
  unfold TaskState.getClosingTaskIDs at hid
  cases hget : c.closingTasks.get (closingTaskIDsStoreKey b) with
  | none => simp [hget] at hid
  | some r =>
    have hr : id ∈ r.ids := by simpa [hget] using hid
    rw [← h.get_list hb hget]
    exact h.listed r (mem_of_get hget) id hr

/-- A task that is put on a list leaves the schedule in order. -/
lemma create (h : Scheduled height c) (hpending : t.status = .pending)
    (hlater : (height : Int) ≤ t.closingBlock ∧ t.closingBlock < 2 ^ 63)
    (hfree : ∀ old, c.tasks.get t.storeKey = some old → old.status ≠ .pending)
    (htasks : c'.tasks = c.tasks.set t)
    (hlists : c'.closingTasks =
      c.closingTasks.set ⟨t.closingBlock, c.getClosingTaskIDs t.closingBlock ++ [t.id]⟩) :
    Scheduled height c' := by
  have hblock : 0 ≤ t.closingBlock ∧ t.closingBlock < 2 ^ 63 := ⟨by omega, hlater.2⟩
  -- The tasks on lists are pending, so that the new one does not take their place.
  have hkeep : ∀ {key : List Byte} {t' : Task}, c.tasks.get key = some t' →
      t'.status = .pending → c'.tasks.get key = some t' := by
    intro key t' hget hpending'
    rw [htasks, get_set_of_ne _ ?_]
    · exact hget
    · rintro rfl
      exact hfree t' hget hpending'
  have hself : c'.tasks.get t.storeKey = some t := by
    rw [htasks]
    exact get_set_self _ _
  refine ⟨?_, ?_, ?_, ?_⟩
  · intro r hr
    rw [hlists] at hr
    rcases mem_set.mp hr with rfl | ⟨hr, -⟩
    · exact hlater
    · exact h.lists r hr
  · intro r hr id hid
    rw [hlists] at hr
    rcases mem_set.mp hr with rfl | ⟨hr, -⟩
    · rcases mem_append.mp hid with hid | hid
      · obtain ⟨t', hget, hpending', heq⟩ := h.mem_list hblock hid
        exact ⟨t', hkeep hget hpending', hpending', heq⟩
      · rw [mem_singleton.mp hid]
        exact ⟨t, hself, hpending, rfl⟩
    · obtain ⟨t', hget, hpending', heq⟩ := h.listed r hr id hid
      exact ⟨t', hkeep hget hpending', hpending', heq⟩
  · intro t' ht' hpending'
    rw [hlists]
    rw [htasks] at ht'
    rcases mem_set.mp ht' with rfl | ⟨ht', -⟩
    · exact ⟨_, mem_set.mpr (.inl rfl), rfl, mem_append_right _ mem_cons_self⟩
    · obtain ⟨r, hr, heq, hid⟩ := h.pending t' ht' hpending'
      by_cases hsame : r.storeKey = closingTaskIDsStoreKey t.closingBlock
      · -- The list of the task is the one that gets longer.
        have hget : c.closingTasks.get (closingTaskIDsStoreKey t.closingBlock) = some r :=
          hsame ▸ Table.get_of_mem hr
        refine ⟨_, mem_set.mpr (.inl rfl), (h.get_list hblock hget).symm.trans heq, ?_⟩
        refine mem_append_left _ ?_
        rw [TaskState.getClosingTaskIDs, hget]
        exact hid
      · exact ⟨r, mem_set.mpr (.inr ⟨hr, hsame⟩), heq, hid⟩
  · intro t' ht' hclosed
    rw [htasks] at ht'
    rcases mem_set.mp ht' with rfl | ⟨ht', -⟩
    · exact absurd hpending hclosed
    · exact h.closed t' ht' hclosed

/-- A response to a pending task leaves the schedule in order. -/
lemma respond (h : Scheduled height c) {r : Response} (hget : c.tasks.get t.storeKey = some t)
    (htasks : c'.tasks = c.tasks.set { t with responses := t.responses ++ [r] })
    (hlists : c'.closingTasks = c.closingTasks) : Scheduled height c' := by
  have ht := mem_of_get hget
  refine ⟨hlists ▸ h.lists, ?_, ?_, ?_⟩
  · intro row hrow id hid
    obtain ⟨t1, hget1, hpending, heq⟩ := h.listed row (hlists ▸ hrow) id hid
    rw [htasks, get_set]
    split
    · rename_i hkey
      rw [hkey] at hget1
      obtain rfl := Option.some.inj (hget1.symm.trans hget)
      exact ⟨_, rfl, hpending, heq⟩
    · exact ⟨t1, hget1, hpending, heq⟩
  · intro t1 ht1 hpending
    rw [hlists]
    rw [htasks] at ht1
    rcases mem_set.mp ht1 with rfl | ⟨ht1, -⟩
    · exact h.pending t ht hpending
    · exact h.pending t1 ht1 hpending
  · intro t1 ht1 hclosed
    rw [htasks] at ht1
    rcases mem_set.mp ht1 with rfl | ⟨ht1, -⟩
    · exact h.closed t ht hclosed
    · exact h.closed t1 ht1 hclosed

lemma remove (h : Scheduled height c) (hget : c.tasks.get t.storeKey = some t)
    (hclosed : t.closingBlock < height) (htasks : c'.tasks = c.tasks.delete t.storeKey)
    (hlists : c'.closingTasks = c.closingTasks) : Scheduled height c' := by
  refine ⟨hlists ▸ h.lists, ?_, ?_, ?_⟩
  · intro r hr id hid
    obtain ⟨t1, hget1, hpending, heq⟩ := h.listed r (hlists ▸ hr) id hid
    refine ⟨t1, ?_, hpending, heq⟩
    rw [htasks, get_delete_of_ne _ ?_]
    · exact hget1
    · intro hkey
      rw [hkey, hget] at hget1
      obtain rfl := Option.some.inj hget1
      exact absurd (h.later hget hpending) (not_le.mpr hclosed)
  · intro t1 ht1 hpending
    rw [hlists]
    rw [htasks] at ht1
    exact h.pending t1 (mem_delete.mp ht1).1 hpending
  · intro t1 ht1 hnot
    rw [htasks] at ht1
    exact h.closed t1 (mem_delete.mp ht1).1 hnot

lemma congr (h : Scheduled height c) (htasks : c'.tasks = c.tasks)
    (hlists : c'.closingTasks = c.closingTasks) : Scheduled height c' := by
  refine ⟨hlists ▸ h.lists, ?_, ?_, htasks ▸ h.closed⟩
  · rw [hlists, htasks]
    exact h.listed
  · rw [hlists, htasks]
    exact h.pending

lemma step (h : Scheduled c.height c) {l : List TaskEntry} (hstep : TaskStep c c' l) :
    Scheduled c'.height c' := by
  cases hstep with
  | create hpending hlater hfree htasks hlists hheight =>
    rw [hheight]
    exact h.create hpending hlater hfree htasks hlists
  | respond hget _ htasks hlists hheight =>
    rw [hheight]
    exact h.respond hget htasks hlists
  | remove hget hclosed htasks hlists hheight =>
    rw [hheight]
    exact h.remove hget hclosed htasks hlists
  | other htasks hlists hheight =>
    rw [hheight]
    exact h.congr htasks hlists

end Scheduled

section EndBlock

/-- How far the end blocker has come: it closes tasks that are due, and no others. -/
structure ClosedDown (c c₁ : TaskState σ) : Prop where
  pending : ∀ key t, c₁.tasks.get key = some t → t.status = .pending → c.tasks.get key = some t
  others : ∀ key t, c.tasks.get key = some t → t.closingBlock ≠ c.height →
    c₁.tasks.get key = some t
  closed : ∀ t ∈ c₁.tasks.rows, t.status ≠ .pending → t.closingBlock ≤ c.height
  lists : c₁.closingTasks = c.closingTasks
  height : c₁.height = c.height

variable {c₁ c₂ : TaskState σ} {id : TaskID}

lemma ClosedDown.refl (h : Scheduled c.height c) : ClosedDown c c :=
  ⟨fun _ _ hget _ => hget, fun _ _ hget _ => hget, fun t ht hnot => (h.closed t ht hnot).le, rfl,
    rfl⟩

lemma Scheduled.due (h : Scheduled c.height c) (hid : id ∈ c.getClosingTaskIDs c.height) :
    ∃ t, c.tasks.get id.storeKey = some t ∧ t.status = .pending ∧
      t.closingBlock = c.height := by
  refine h.mem_list ⟨natCast_nonneg _, ?_⟩ hid
  unfold TaskState.getClosingTaskIDs at hid
  cases hget : c.closingTasks.get (closingTaskIDsStoreKey c.height) with
  | none => simp [hget] at hid
  | some r =>
    obtain ⟨hlow, hhigh⟩ := h.lists r (mem_of_get hget)
    omega

lemma ClosedDown.closeTask (h : Scheduled c.height c) (h1 : ClosedDown c c₁)
    (hid : id ∈ c.getClosingTaskIDs c.height) (hclose : c₁.closeTask id = .ok c₂) :
    ClosedDown c c₂ := by
  rcases closeTask_cases hclose with ⟨rfl, -⟩ | ⟨t, t', s, hget, hpending, hclosed, honly, rfl, -⟩
  · exact h1
  · have hget1 : c₁.tasks.get id.storeKey = some t := hget
    have hkey : t'.storeKey = id.storeKey := hclosed.storeKey.trans (key_of_get hget1)
    obtain ⟨t0, hget0, -, hdue⟩ := h.due hid
    obtain rfl := Option.some.inj (hget0.symm.trans (h1.pending _ t hget1 hpending))
    have hblock : t'.closingBlock = c.height := hclosed.closingBlock.trans hdue
    refine ⟨?_, ?_, ?_, h1.lists, honly.height.trans h1.height⟩
    · intro key t2 hget2 hpending2
      exact h1.pending key t2 (by
        change (c₁.tasks.set t').get key = some t2 at hget2
        rw [get_set] at hget2
        split at hget2
        · obtain rfl := Option.some.inj hget2
          exact absurd hpending2 hclosed.status
        · exact hget2) hpending2
    · intro key t2 hget2 hother
      change (c₁.tasks.set t').get key = some t2
      rw [get_set_of_ne _ ?_]
      · exact h1.others key t2 hget2 hother
      · rintro rfl
        rw [hkey, hget0] at hget2
        exact hother (Option.some.inj hget2 ▸ hdue)
    · intro t2 ht2 hnot
      rcases mem_set.mp ht2 with rfl | ⟨ht2, -⟩
      · exact hblock.le
      · exact h1.closed t2 ht2 hnot

lemma closed_of_closeTask (hclose : c₁.closeTask id = .ok c₂) {t : Task}
    (hget : c₂.tasks.get id.storeKey = some t) : t.status ≠ .pending := by
  rcases closeTask_cases hclose with ⟨rfl, hnot⟩ | ⟨t1, t', s, hget1, -, hclosed, -, rfl, -⟩
  · exact hnot t hget
  · have hkey : t'.storeKey = id.storeKey := hclosed.storeKey.trans (key_of_get hget1)
    change (c₁.tasks.set t').get id.storeKey = some t at hget
    rw [← hkey, get_set_self] at hget
    exact Option.some.inj hget ▸ hclosed.status

/-- After the end blocker the schedule is that of the blocks to come. -/
lemma Scheduled.endBlocker (h : Scheduled c.height c) (hend : c.endBlocker = .ok c') :
    Scheduled (c'.height + 1) c' := by
  simp only [TaskState.endBlocker, run_eq_ok] at hend
  obtain ⟨c₁, hfold, rfl⟩ := hend
  have hdown : ClosedDown c c₁ := by
    refine foldlM_invariant (P := ClosedDown c) ?_ (ClosedDown.refl h) hfold
    intro id hid c₁ c₂ h1 hclose
    exact h1.closeTask h hid hclose
  have hall : ∀ id ∈ c.getClosingTaskIDs c.height, ∀ t, c₁.tasks.get id.storeKey = some t →
      t.status ≠ .pending := by
    refine foldlM_settles (R := fun (c₁ : TaskState σ) (id : TaskID) =>
      ∀ t, c₁.tasks.get id.storeKey = some t → t.status ≠ .pending) ?_ ?_ hfold
    · intro id _ c₁ c₂ hclose t hget
      exact closed_of_closeTask hclose hget
    · intro id _ c₁ c₂ id' hclose hkeep t hget hpending
      exact hkeep t (pending_of_closeTask hclose hget hpending).1 hpending
  have hrows : ∀ r ∈ (c₁.deleteClosingTaskIDs c₁.height).closingTasks.rows,
      r ∈ c.closingTasks.rows ∧ r.closingBlock ≠ c.height := by
    intro r hr
    obtain ⟨hr, hkey⟩ := mem_delete.mp hr
    rw [hdown.height] at hkey
    exact ⟨hdown.lists ▸ hr, fun heq => hkey (congrArg closingTaskIDsStoreKey heq)⟩
  have hheight : (c₁.deleteClosingTaskIDs c₁.height).height = c.height := hdown.height
  rw [hheight]
  refine ⟨?_, ?_, ?_, ?_⟩
  · intro r hr
    obtain ⟨hr, hother⟩ := hrows r hr
    obtain ⟨hlow, hhigh⟩ := h.lists r hr
    exact ⟨by omega, hhigh⟩
  · intro r hr id hid
    obtain ⟨hr, hother⟩ := hrows r hr
    obtain ⟨t, hget, hpending, heq⟩ := h.listed r hr id hid
    exact ⟨t, hdown.others _ t hget (heq ▸ hother), hpending, heq⟩
  · intro t ht hpending
    have hget1 := Table.get_of_mem ht
    have hget := hdown.pending _ t hget1 hpending
    obtain ⟨r, hr, heq, hid⟩ := h.pending t (mem_of_get hget) hpending
    refine ⟨r, mem_delete.mpr ⟨hdown.lists ▸ hr, ?_⟩, heq, hid⟩
    intro hkey
    -- A task on the list of this block is not pending any more.
    rw [hdown.height] at hkey
    have hlist : c.closingTasks.get (closingTaskIDsStoreKey c.height) = some r :=
      hkey ▸ Table.get_of_mem hr
    have hdue : t.id ∈ c.getClosingTaskIDs c.height := by
      rw [TaskState.getClosingTaskIDs, hlist]
      exact hid
    exact hall t.id hdue t hget1 hpending
  · intro t ht hnot
    have hle := hdown.closed t ht hnot
    omega

end EndBlock

end Shentu.Oracle
