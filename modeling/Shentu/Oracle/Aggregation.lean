import Shentu.Oracle.Schedule

/-!
Tasks are aggregated on time. The entries about a key are read one after the other: a task is
created when none is pending, responses are added to the pending task, and it is aggregated as it
then is, at its closing block. What a reading ends with is the task that is stored as pending.
-/

namespace Shentu.Oracle

open Lib List Table

variable {σ : Type} {k : Keepers σ} {c c' : TaskState σ}

def TaskEntry.taskKey : TaskEntry → List Byte
  | .created t | .aggregated _ t => t.storeKey
  | .responded key _ => key

variable (key : List Byte)

def aboutKey (l : List TaskEntry) : List TaskEntry :=
  l.filter (fun e => e.taskKey = key)

/-- Read one more entry about a key, with the task that is pending. -/
def followTask (pending : Option Task) : TaskEntry → Option (Option Task)
  | .created t =>
    match pending with
    | none => some (some t)
    | some _ => none
  | .responded _ r =>
    match pending with
    | none => none
    | some t => some (some { t with responses := t.responses ++ [r] })
  | .aggregated height t =>
    if pending = some t ∧ (height : Int) = t.closingBlock then some none else none

/-- The pending task under a key. -/
def TaskState.pendingTask (c : TaskState σ) (key : List Byte) : Option Task :=
  (c.tasks.get key).filter (fun t => t.status = .pending)

/-- The entries about a key are creations, each followed by responses and one aggregation of the
task with these responses at its closing block. A last creation without aggregation is still
pending with its responses, and its closing block is still to come. -/
def AggregatedOnTime (c : TaskState σ) (l : List TaskEntry) (key : List Byte) : Prop :=
  (aboutKey key l).foldlM followTask none = some (c.pendingTask key) ∧
    ∀ t ∈ c.pendingTask key, (c.height : Int) < t.closingBlock

/-- Entries lead from the pending task under a key before them to the one after them. -/
def Tracks (c c' : TaskState σ) (l : List TaskEntry) : Prop :=
  (aboutKey key l).foldlM followTask (c.pendingTask key) = some (c'.pendingTask key)

lemma aboutKey_append (l l' : List TaskEntry) :
    aboutKey key (l ++ l') = aboutKey key l ++ aboutKey key l' := filter_append l l'

lemma aboutKey_singleton (e : TaskEntry) :
    aboutKey key [e] = if e.taskKey = key then [e] else [] := by
  by_cases h : e.taskKey = key <;> simp [aboutKey, h]

section Track

variable {key : List Byte}

lemma Tracks.trans {c1 c2 c3 : TaskState σ} {l l' : List TaskEntry} (h : Tracks key c1 c2 l)
    (h' : Tracks key c2 c3 l') : Tracks key c1 c3 (l ++ l') := by
  unfold Tracks at h h' ⊢
  rw [aboutKey_append, foldlM_append, h]
  exact h'

lemma Tracks.same (h : c'.pendingTask key = c.pendingTask key) : Tracks key c c' [] := by
  rw [Tracks, h]
  rfl

lemma Tracks.single {e : TaskEntry}
    (hself : followTask (c.pendingTask e.taskKey) e = some (c'.pendingTask e.taskKey))
    (hother : key ≠ e.taskKey → c'.pendingTask key = c.pendingTask key) : Tracks key c c' [e] := by
  unfold Tracks
  rw [aboutKey_singleton]
  split
  · rename_i hkey
    subst hkey
    rw [foldlM_cons, hself]
    rfl
  · rename_i hkey
    rw [hother (Ne.symm hkey)]
    rfl

lemma pendingTask_eq_some {t : Task} :
    c.pendingTask key = some t ↔ c.tasks.get key = some t ∧ t.status = .pending := by
  simp [TaskState.pendingTask, Option.filter_eq_some_iff]

lemma pendingTask_eq_none :
    c.pendingTask key = none ↔ ∀ t, c.tasks.get key = some t → t.status ≠ .pending := by
  simp [TaskState.pendingTask, Option.filter_eq_none_iff]

lemma pendingTask_congr (h : c'.tasks.get key = c.tasks.get key) :
    c'.pendingTask key = c.pendingTask key := by
  rw [TaskState.pendingTask, TaskState.pendingTask, h]

lemma pendingTask_set {t : Task} (htasks : c'.tasks = c.tasks.set t) (hkey : key ≠ t.storeKey) :
    c'.pendingTask key = c.pendingTask key := by
  refine pendingTask_congr ?_
  rw [htasks, get_set_of_ne _ hkey]

lemma get_of_set {t : Task} (htasks : c'.tasks = c.tasks.set t) :
    c'.tasks.get t.storeKey = some t := by
  rw [htasks]
  exact get_set_self _ _

/-- The steps between the ends of a block. -/
lemma TaskStep.tracks (h : Scheduled c.height c) {l : List TaskEntry} (hstep : TaskStep c c' l) :
    Tracks key c c' l := by
  cases hstep with
  | @create t hpending _ hfree htasks _ _ =>
    refine .single ?_ (fun hkey => pendingTask_set htasks hkey)
    have hnone : c.pendingTask t.storeKey = none := pendingTask_eq_none.mpr hfree
    have hsome : c'.pendingTask t.storeKey = some t :=
      pendingTask_eq_some.mpr ⟨get_of_set htasks, hpending⟩
    simp only [TaskEntry.taskKey, followTask, hnone, hsome]
  | @respond t r hget hopen htasks _ _ =>
    -- A task that takes responses is pending: the others were due before this block.
    have hpending : t.status = .pending := by
      by_contra hnot
      exact absurd (h.closed t (mem_of_get hget) hnot) (not_lt.mpr hopen)
    have hsome : c.pendingTask t.storeKey = some t := pendingTask_eq_some.mpr ⟨hget, hpending⟩
    have hsome' : c'.pendingTask t.storeKey = some { t with responses := t.responses ++ [r] } :=
      pendingTask_eq_some.mpr ⟨get_of_set htasks, hpending⟩
    refine .single ?_ (fun hkey => pendingTask_set htasks hkey)
    simp only [TaskEntry.taskKey, followTask, hsome, hsome']
  | @remove t hget hclosed htasks _ _ =>
    refine .same ?_
    by_cases hkey : key = t.storeKey
    · subst hkey
      have hnone : c.pendingTask t.storeKey = none := by
        refine pendingTask_eq_none.mpr ?_
        intro t' hget' hpending
        obtain rfl := Option.some.inj (hget.symm.trans hget')
        exact absurd (h.later hget hpending) (not_le.mpr hclosed)
      rw [hnone]
      refine pendingTask_eq_none.mpr ?_
      intro t' hget'
      rw [htasks, get_delete_self] at hget'
      cases hget'
    · refine pendingTask_congr ?_
      rw [htasks, get_delete_of_ne _ hkey]
  | other htasks _ _ => exact .same (pendingTask_congr (by rw [htasks]))

/-- The closing of one task that is due. -/
lemma closeTask_tracks {c1 c2 : TaskState σ} (h : Scheduled c.height c) (h1 : ClosedDown c c1)
    {id : TaskID} (hid : id ∈ c.getClosingTaskIDs c.height) (hclose : c1.closeTask id = .ok c2) :
    Tracks key c1 c2 (closeEntries c1 id) := by
  have hcloses := hclose
  rcases closeTask_cases hclose with
    ⟨rfl, hnot⟩ | ⟨t, t', s, hget, hpending, hclosed, -, rfl, -⟩
  · have hnone : closeEntries c2 id = [] := by
      unfold closeEntries
      cases haggregate : c2.aggregate id.contract id.function with
      | error f => rfl
      | ok c3 =>
        obtain ⟨t, -, hget, hpending, -, -⟩ := aggregate_cases haggregate
        exact absurd hpending (hnot t hget)
    rw [hnone]
    exact .same rfl
  · have haggregated : ∃ c3, c1.aggregate id.contract id.function = .ok c3 := by
      simp only [TaskState.closeTask, bind_eq_ok] at hcloses
      obtain ⟨o, haggregate, -⟩ := hcloses
      cases o with
      | none => exact absurd haggregate (aggregate_no_error hget hpending)
      | some c3 => exact ⟨c3, unlessError_eq_some.mp haggregate⟩
    obtain ⟨c3, haggregate⟩ := haggregated
    have hentries : closeEntries c1 id = [.aggregated c1.height t] := by
      simp only [closeEntries, haggregate, hget, Option.toList_some, map_cons, map_nil]
    have hget1 : c1.tasks.get id.storeKey = some t := hget
    have hkey : t.storeKey = id.storeKey := key_of_get hget1
    obtain ⟨t0, hget0, -, hdue⟩ := h.due hid
    obtain rfl := Option.some.inj (hget0.symm.trans (h1.pending _ t hget1 hpending))
    have hsome : c1.pendingTask t0.storeKey = some t0 :=
      pendingTask_eq_some.mpr ⟨hkey ▸ hget1, hpending⟩
    rw [hentries]
    refine .single ?_ ?_
    · have hnone : TaskState.pendingTask { c1 with toState := s, tasks := c1.tasks.set t' }
          t0.storeKey = none := by
        refine pendingTask_eq_none.mpr ?_
        intro t2 hget2
        have hget' : (c1.tasks.set t').get t0.storeKey = some t2 := hget2
        rw [← hclosed.storeKey, get_set_self] at hget'
        exact Option.some.inj hget' ▸ hclosed.status
      have hheight : (c1.height : Int) = t0.closingBlock := by rw [h1.height, hdue]
      simp only [TaskEntry.taskKey, followTask, hsome, hheight, hnone, and_self, if_true]
    · intro hother
      exact pendingTask_set (c := c1) rfl (fun heq => hother (heq.trans hclosed.storeKey))

lemma endBlocker_tracks (h : Scheduled c.height c) (hend : c.endBlocker = .ok c') :
    Tracks key c c' (taskEntries k c .endBlock) := by
  simp only [TaskState.endBlocker, bind_eq_ok, pure_eq_ok] at hend
  obtain ⟨c1, hfold, rfl⟩ := hend
  have hloop : ClosedDown c c1 ∧ Tracks key c c1 ([] ++ observations closeEntries
      TaskState.closeTask c (c.getClosingTaskIDs c.height)) := by
    refine foldlM_observed (P := fun c1 l => ClosedDown c c1 ∧ Tracks key c c1 l) ?_
      ⟨ClosedDown.refl h, Tracks.same rfl⟩
      (stepsMeet_of_forall (c := fun id => id ∈ c.getClosingTaskIDs c.height) _ _ (fun _ h => h))
      hfold
    rintro id c1 c2 l ⟨h1, htracks⟩ hid hclose
    exact ⟨h1.closeTask h hid hclose, htracks.trans (closeTask_tracks h h1 hid hclose)⟩
  exact hloop.2

end Track

/-- One block from its begin blocker to its end blocker. -/
def runBlock (k : Keepers σ) (c : TaskState σ) (b : Block σ) : Except Fault (TaskState σ) :=
  c.run k b.actions

def runBlocks (k : Keepers σ) (c : TaskState σ) (bs : List (Block σ)) :
    Except Fault (TaskState σ) :=
  bs.foldlM (runBlock k) c

/-- What is seen of tasks in a block. -/
def blockEntries (k : Keepers σ) (c : TaskState σ) (b : Block σ) : List TaskEntry :=
  observations (taskEntries k) (TaskState.exec k) c b.actions

def taskLog (k : Keepers σ) (c : TaskState σ) (bs : List (Block σ)) : List TaskEntry :=
  observations (blockEntries k) (runBlock k) c bs

/-- All actions of a block keep the schedule. -/
def BlockKeepsSchedule (k : Keepers σ) (c : TaskState σ) (b : Block σ) : Prop :=
  StepsMeet (KeepsSchedule k) (TaskState.exec k) c b.actions

instance (c : TaskState σ) (b : Block σ) : Decidable (BlockKeepsSchedule k c b) := by
  unfold BlockKeepsSchedule
  infer_instance

lemma beginBlocker_keeps {blockTime : Int} (h : Scheduled (c.height + 1) c)
    (hbegin : c.exec k (.beginBlock blockTime) = .ok c') :
    Scheduled c'.height c' ∧ ∀ key, Tracks key c c' (taskEntries k c (.beginBlock blockTime)) := by
  simp only [TaskState.exec, TaskState.beginBlocker, bind_eq_ok, pure_eq_ok] at hbegin
  obtain ⟨s, hs, rfl⟩ := hbegin
  have hheight : s.height = c.height + 1 := by
    refine foldlM_invariant (P := fun s : State σ => s.height = c.height + 1) ?_ rfl hs
    intro w _ s1 s2 h1 hw
    simp only [State.finalizeWithdraw, bind_eq_ok, pure_eq_ok] at hw
    obtain ⟨world, -, rfl⟩ := hw
    exact h1
  refine ⟨?_, fun key => .same rfl⟩
  change Scheduled s.height _
  rw [hheight]
  exact h.congr rfl rfl

/-- A block whose actions keep the schedule. -/
lemma runBlock_keeps {b : Block σ} (h : Scheduled (c.height + 1) c)
    (hmeet : BlockKeepsSchedule k c b) (hrun : runBlock k c b = .ok c') :
    Scheduled (c'.height + 1) c' ∧ ∀ key, Tracks key c c' (blockEntries k c b) := by
  obtain ⟨c1, hbegin, hrest⟩ := foldlM_cons_eq_ok.mp hrun
  obtain ⟨hc1, htracks1⟩ := beginBlocker_keeps h hbegin
  rw [foldlM_append, bind_eq_ok] at hrest
  obtain ⟨c2, hevents, hlast⟩ := hrest
  obtain ⟨c3, hend, hnil⟩ := foldlM_cons_eq_ok.mp hlast
  obtain rfl : c3 = c' := by simpa using hnil
  have hinner : Scheduled c2.height c2 ∧ ∀ key, Tracks key c1 c2
      ([] ++ observations (taskEntries k) (TaskState.exec k) c1 b.events) := by
    refine foldlM_observed (P := fun c l => Scheduled c.height c ∧ ∀ key, Tracks key c1 c l) ?_
      ⟨hc1, fun key => Tracks.same rfl⟩
      ((stepsMeet_of_forall _ _ b.inBlock).and (stepsMeet_append.mp (hmeet.2 c1 hbegin)).1) hevents
    rintro a c2 c3 l ⟨hc2, htracks⟩ ⟨hin, ha⟩ hexec
    have hstep := exec_taskStep hin ha hexec
    exact ⟨hc2.step hstep, fun key => (htracks key).trans (hstep.tracks hc2)⟩
  obtain ⟨hc2, htracks2⟩ := hinner
  refine ⟨hc2.endBlocker hend, ?_⟩
  intro key
  have hlog : blockEntries k c b = taskEntries k c (.beginBlock b.blockTime) ++
      (observations (taskEntries k) (TaskState.exec k) c1 b.events ++
        taskEntries k c2 .endBlock) := by
    unfold blockEntries Block.actions
    rw [observations_cons hbegin, observations_append hevents, observations_cons hend]
    simp [observations]
  rw [hlog]
  exact (htracks1 key).trans ((htracks2 key).trans (endBlocker_tracks hc2 hend))

/-- In every run of blocks whose accepted tasks close in their own block or later and take the place
of no pending task, each task is aggregated at its closing block with all its responses, once and
not before. -/
theorem tasks_aggregated_on_time {height : Nat} {poolParams : LockedPoolParams}
    {taskParams : TaskParams} {world : σ} {bs : List (Block σ)}
    (hmeet : StepsMeet (BlockKeepsSchedule k) (runBlock k)
      (TaskState.start height poolParams taskParams world) bs)
    (hrun : runBlocks k (TaskState.start height poolParams taskParams world) bs = .ok c)
    (key : List Byte) : AggregatedOnTime c
      (taskLog k (TaskState.start height poolParams taskParams world) bs) key := by
  let c₀ := TaskState.start height poolParams taskParams world
  have hstart : Scheduled (c₀.height + 1) c₀ :=
    ⟨fun _ hr => absurd hr not_mem_nil, fun _ hr => absurd hr not_mem_nil,
      fun _ ht => absurd ht not_mem_nil, fun _ ht => absurd ht not_mem_nil⟩
  have hend : Scheduled (c.height + 1) c ∧ ∀ key, Tracks key c₀ c ([] ++ taskLog k c₀ bs) := by
    refine foldlM_observed
      (P := fun c l => Scheduled (c.height + 1) c ∧ ∀ key, Tracks key c₀ c l) ?_
      ⟨hstart, fun key => .same rfl⟩ hmeet hrun
    rintro b c₁ c₂ l ⟨hc₁, htracks₁⟩ hb hblock
    obtain ⟨hc₂, htracks₂⟩ := runBlock_keeps hc₁ hb hblock
    exact ⟨hc₂, fun key => (htracks₁ key).trans (htracks₂ key)⟩
  obtain ⟨hc, htracks⟩ := hend
  refine ⟨htracks key, ?_⟩
  intro t ht
  obtain ⟨hget, hpending⟩ := pendingTask_eq_some.mp ht
  have hlater := hc.later hget hpending
  omega

/-- The module at height 1: threshold 50, and a window of no blocks. -/
def scheduleStart : TaskState Unit := TaskState.start 1 ⟨30, 1⟩ ⟨0, 0, 50, 50, 1, 100⟩ ()

/-- An operator, and a task that waits for a number of blocks. -/
def firstTask (wait : Int) : Block Unit where
  blockTime := 0
  events := [.tx (.createOperator [1] [⟨"uctk", 100⟩] [1] "operator"),
    .tx (.createTask [7] [8] [⟨"uctk", 70⟩] "first" [3] wait 0)]
  inBlock := by simp [Action.inBlock]

/-- The operator answers the task. -/
def answerBlock : Block Unit where
  blockTime := 0
  events := [.tx (.taskResponse [7] [8] 60 [1])]
  inBlock := by decide

/-- The operator answers the task, and then a task with another creator takes its place. -/
def replaceBlock : Block Unit where
  blockTime := 0
  events := [.tx (.taskResponse [7] [8] 60 [1]),
    .tx (.createTask [7] [8] [⟨"uctk", 1⟩] "second" [4] 5 0)]
  inBlock := by decide

/-- A task with a window of one block is aggregated in the next block with its response. -/
theorem task_aggregated_next_block :
    (∃ t, .aggregated 3 t ∈ taskLog openKeepers scheduleStart [firstTask 1, answerBlock] ∧
      t.closingBlock = 3 ∧ t.responses = [newResponse 60 [1]]) ∧
    ∃ c, runBlocks openKeepers scheduleStart [firstTask 1, answerBlock] = .ok c ∧
      ∀ key, AggregatedOnTime c
        (taskLog openKeepers scheduleStart [firstTask 1, answerBlock]) key := by
  obtain ⟨c, hc⟩ : ∃ a, runBlocks openKeepers scheduleStart [firstTask 1, answerBlock] = .ok a := by
    decide +kernel
  have hmeet : StepsMeet (BlockKeepsSchedule openKeepers) (runBlock openKeepers) scheduleStart
      [firstTask 1, answerBlock] := by
    decide +kernel
  have hentry : (taskLog openKeepers scheduleStart [firstTask 1, answerBlock]).any (fun e =>
      match e with
      | .aggregated 3 t => t.closingBlock = 3 ∧ t.responses = [newResponse 60 [1]]
      | _ => false) = true := by
    decide +kernel
  obtain ⟨e, he, hmatch⟩ := any_eq_true.mp hentry
  refine ⟨?_, c, hc, fun key => tasks_aggregated_on_time hmeet hc key⟩
  split at hmatch
  · exact ⟨_, he, of_decide_eq_true hmatch⟩
  · cases hmatch

/-- A pending task with its response is replaced in the block at which it closes, and the other one
is aggregated five blocks too early. A task with a negative window is not aggregated at all. -/
theorem tasks_not_aggregated :
    (∃ c, runBlocks openKeepers scheduleStart [firstTask 1, replaceBlock] = .ok c ∧
      ¬ AggregatedOnTime c (taskLog openKeepers scheduleStart [firstTask 1, replaceBlock])
        (taskStoreKey [7] [8])) ∧
    ∃ c, runBlocks openKeepers scheduleStart [firstTask (-1)] = .ok c ∧
      ¬ AggregatedOnTime c (taskLog openKeepers scheduleStart [firstTask (-1)])
        (taskStoreKey [7] [8]) := by
  obtain ⟨c₁, hc₁⟩ : ∃ a, runBlocks openKeepers scheduleStart [firstTask 1, replaceBlock] = .ok a :=
        by
    decide +kernel
  have hread : (aboutKey (taskStoreKey [7] [8])
      (taskLog openKeepers scheduleStart [firstTask 1, replaceBlock])).foldlM followTask none =
        none := by
    decide +kernel
  obtain ⟨c₂, hc₂, t, ht, hlate⟩ : ∃ c, runBlocks openKeepers scheduleStart [firstTask (-1)] = .ok c
        ∧ ∃ t ∈ c.pendingTask (taskStoreKey [7] [8]), t.closingBlock < c.height := by
    decide +kernel
  refine ⟨⟨c₁, hc₁, ?_⟩, c₂, hc₂, ?_⟩
  · rintro ⟨hreads, -⟩
    rw [hread] at hreads
    cases hreads
  · rintro ⟨-, hlater⟩
    exact absurd (hlater t ht) (not_lt.mpr hlate.le)

end Shentu.Oracle
