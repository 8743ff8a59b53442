import RdmaPlatform.Scheduler.Run

/-! The life of one task. A section leaves a stored task alone, completes it, or
assigns it while it is pending; everything about a task's history follows from
these three moves. -/
namespace RdmaPlatform.Scheduler
open Library

inductive Moves (state : State) (id : Bytes) (step : Section) (task : Task) : Task → Prop
  | same : Moves state id step task task
  | complete (req now) (called : step = .complete id req now) :
      Moves state id step task (completed req now task)
  | assign (node now) (pending : task.status = .pending)
      (registered : state.nodes.lookup node.id = some node) :
      Moves state id step task (assigned node now task)

private theorem modify_moves (state : State) (step : Section) (id key : Bytes) (task : Task)
    (f : Task → Task) (found : state.tasks.lookup id = some task)
    (here : id = key → Moves state id step task (f task)) :
    ∃ next, (state.tasks.modify key f).lookup id = some next ∧ Moves state id step task next := by
  rw [Table.lookup_modify]
  split
  next same => exact ⟨f task,by rw [found]; rfl,here same⟩
  next => exact ⟨task,found,.same⟩

theorem change_moves (config : Config) (step : Section) (state next : State) (id : Bytes) (task : Task)
    (formed : WellFormed state) (fresh : step.submits = true → Fresh state)
    (found : state.tasks.lookup id = some task) (change : Change config step state next) :
    ∃ task', next.tasks.lookup id = some task' ∧ Moves state id step task task' := by
  cases change with
  | register req now =>
    exact ⟨task,by simpa using found,.same⟩
  | heartbeat | refresh => exact ⟨task,found,.same⟩
  | submit req now _ valid =>
    have unused := fresh (by simpa [Section.submits] using valid)
    have other : id ≠ formatTaskID (state.taskCounter + 1) := by
      intro same
      rw [same,unused] at found
      cases found
    exact ⟨task,by simpa [submitWrite,Table.lookup_put,other] using found,.same⟩
  | release taskID req now _ stored present =>
    exact modify_moves state _ id taskID task _ found (fun same => .complete req now (by rw [same]))
  | complete taskID req now _ stored present =>
    exact modify_moves state _ id taskID task _ found (fun same => .complete req now (by rw [same]))
  | assign now _ taskKey nodeKey stored node index present pending chosen =>
    apply modify_moves state _ id taskKey task _ found
    intro same
    have equal : stored = task := Option.some.inj (present.symm.trans (same ▸ found))
    have key := (formed.node nodeKey node chosen).key
    exact .assign node now (equal ▸ pending) (by rw [key]; exact chosen)

/-- A reflexive and transitive relation that every move respects relates a task
to itself across any stretch of a run. -/
theorem task_history (config : Config) (before after : List Section)
    (bound : submissions (before ++ after) < 2^64) (id : Bytes) (task : Task)
    (found : (exec config before newMemoryStore).tasks.lookup id = some task)
    (R : Task → Task → Prop) (refl : ∀ task, R task task)
    (trans : ∀ first second third, R first second → R second third → R first third)
    (respected : ∀ step ∈ after, ∀ state current next, WellFormed state →
      state.tasks.lookup id = some current → Moves state id step current next → R current next) :
    ∃ last, (exec config (before ++ after) newMemoryStore).tasks.lookup id = some last ∧
      R task last := by
  apply bounded_invariant config before after bound
    (fun state => ∃ last, state.tasks.lookup id = some last ∧ R task last) ⟨task,found,refl task⟩
  rintro step member state next ⟨current,present,related⟩ formed fresh change
  obtain ⟨last,stored,moves⟩ := change_moves config step state next id current formed fresh
    present change
  exact ⟨last,stored,trans _ _ _ related
    (respected step member state current last formed present moves)⟩

def Task.Finished (task : Task) : Prop := task.status = .completed ∨ task.status = .failed

theorem completed_finished (req : CompleteTaskRequest) (now : Time) (task : Task) :
    (completed req now task).Finished := by
  cases success : req.success
  · exact .inr (by simp [completed,success])
  · exact .inl (by simp [completed,success])

theorem finished_not_pending {task : Task} (finished : task.Finished) : task.status ≠ .pending := by
  rcases finished with done | done <;> simp [done]

structure Task.Later (earlier later : Task) : Prop where
  pending : later.status = .pending → earlier.status = .pending
  finished : earlier.Finished → later.Finished
  assignedWorker : earlier.assignedWorker ≠ [] → later.assignedWorker = earlier.assignedWorker
  startedAt : earlier.startedAt ≠ none → later.startedAt = earlier.startedAt

theorem Task.Later.refl (task : Task) : task.Later task :=
  ⟨fun pending => pending,fun finished => finished,fun _ => rfl,fun _ => rfl⟩

theorem Task.Later.trans {first second third : Task} (early : first.Later second)
    (late : second.Later third) : first.Later third := by
  refine ⟨early.pending ∘ late.pending,late.finished ∘ early.finished,?_,?_⟩
  · intro owned
    have same := early.assignedWorker owned
    rw [late.assignedWorker (by rwa [same]),same]
  · intro started
    have same := early.startedAt started
    rw [late.startedAt (by rwa [same]),same]

theorem moves_later {state : State} {id : Bytes} {step : Section} {task next : Task}
    (sound : task.Sound id) (moves : Moves state id step task next) : task.Later next := by
  cases moves with
  | same => exact .refl task
  | complete req now =>
    refine ⟨?_,fun _ => completed_finished req now task,fun _ => rfl,fun _ => rfl⟩
    intro pending
    exact absurd pending (finished_not_pending (completed_finished req now task))
  | assign node now pending =>
    have fields := sound.lifecycle
    simp only [Task.Lifecycle,pending] at fields
    refine ⟨fun _ => pending,?_,fun owned => absurd fields.1 owned,
      fun started => absurd fields.2.1 started⟩
    intro finished
    exact absurd pending (finished_not_pending finished)

/-- In every reachable state a task's worker and times fit its status; along a
run no task returns to pending or leaves a final status, and the worker and the
start time are written at most once. -/
theorem task_lifecycle (config : Config) :
    (∀ sections id task, (exec config sections newMemoryStore).tasks.lookup id = some task →
      (task.status = .pending →
        task.assignedWorker = [] ∧ task.startedAt = none ∧ task.completedAt = none) ∧
      (task.status = .running →
        (∃ node, (exec config sections newMemoryStore).nodes.lookup task.assignedWorker = some node ∧
          node.id = task.assignedWorker) ∧ task.startedAt ≠ none ∧ task.completedAt = none) ∧
      (task.status = .completed ∨ task.status = .failed →
        task.completedAt ≠ none ∧ (task.assignedWorker ≠ [] ↔ task.startedAt ≠ none))) ∧
    (∀ (run : Run) before after, run.sections = before ++ after →
      ∀ id task, (exec config before newMemoryStore).tasks.lookup id = some task →
        ∃ next, (exec config (before ++ after) newMemoryStore).tasks.lookup id = some next ∧
          (task.status ≠ .pending → next.status ≠ .pending) ∧
          (task.status = .completed ∨ task.status = .failed → next.status ≠ .running) ∧
          (task.assignedWorker ≠ [] → next.assignedWorker = task.assignedWorker) ∧
          (task.startedAt ≠ none → next.startedAt = task.startedAt)) := by
  constructor
  · intro sections id task found
    have formed := exec_wellFormed config sections
    have sound := formed.task id task found
    have fields := sound.lifecycle
    refine ⟨?_,?_,?_⟩
    · intro pending
      simpa only [Task.Lifecycle,pending] using fields
    · intro running
      have owned := sound.owned running
      obtain ⟨node,registered⟩ := (Table.mem_keys_iff _ _).mp (formed.owner id task found owned)
      simp only [Task.Lifecycle,running] at fields
      exact ⟨⟨node,registered,(formed.node _ node registered).key⟩,
        by simpa [Option.isSome_iff_ne_none] using fields.2.1,fields.2.2⟩
    · rintro (done | done)
      · simp only [Task.Lifecycle,done,Option.isSome_iff_ne_none] at fields
        exact fields
      · simp only [Task.Lifecycle,done,Option.isSome_iff_ne_none] at fields
        exact fields
  · intro run before after split id task found
    obtain ⟨next,stored,later⟩ := task_history config before after (split ▸ run.bounded) id task found
      Task.Later Task.Later.refl (fun _ _ _ => Task.Later.trans)
      (fun _ _ _ current next formed present moves =>
        moves_later (formed.task id current present) moves)
    refine ⟨next,stored,fun active pending => active (later.pending pending),?_,
      later.assignedWorker,later.startedAt⟩
    intro finished running
    rcases later.finished finished with done | done <;> simp [done] at running

def Section.completes (id : Bytes) : Section → Bool
  | .complete taskID _ _ => taskID = id
  | _ => false

section Results
variable {config : Config} {before after : List Section} {id : Bytes} {task : Task}

/-- Without a further report a finished task stays as it is. -/
theorem finished_unreported (bound : submissions (before ++ after) < 2^64)
    (found : (exec config before newMemoryStore).tasks.lookup id = some task) (finished : task.Finished)
    (silent : ∀ step ∈ after, step.completes id = false) :
    (exec config (before ++ after) newMemoryStore).tasks.lookup id = some task := by
  obtain ⟨next,stored,same⟩ := task_history config before after bound id task found
    (fun earlier later => earlier.Finished → later = earlier) (fun _ _ => rfl)
    (fun first second third early late done => by
      have same := early done
      rw [late (by rwa [same]),same])
    (by
      intro step member state current next formed present moves done
      cases moves with
      | same => rfl
      | complete req now called =>
        have reported := silent step member
        simp [called,Section.completes] at reported
      | assign node now pending => exact absurd pending (finished_not_pending done))
  rw [stored,same finished]

/-- Whatever follows, a finished task keeps its worker and its start and stays finished. -/
theorem finished_fixed (bound : submissions (before ++ after) < 2^64)
    (found : (exec config before newMemoryStore).tasks.lookup id = some task)
    (finished : task.Finished) :
    ∃ next, (exec config (before ++ after) newMemoryStore).tasks.lookup id = some next ∧
      next.Finished ∧ next.assignedWorker = task.assignedWorker ∧ next.startedAt = task.startedAt := by
  obtain ⟨next,stored,fixed⟩ := task_history config before after bound id task found
    (fun earlier later => earlier.Finished → later.Finished ∧
      later.assignedWorker = earlier.assignedWorker ∧ later.startedAt = earlier.startedAt)
    (fun _ done => ⟨done,rfl,rfl⟩)
    (fun first second third early late done => by
      obtain ⟨middle,worker,started⟩ := early done
      obtain ⟨last,worker',started'⟩ := late middle
      exact ⟨last,worker'.trans worker,started'.trans started⟩)
    (by
      intro step member state current next formed present moves done
      cases moves with
      | same => exact ⟨done,rfl,rfl⟩
      | complete req now => exact ⟨completed_finished req now current,rfl,rfl⟩
      | assign node now pending => exact absurd pending (finished_not_pending done))
  exact ⟨next,stored,fixed finished⟩

theorem complete_lookup (config : Config) {state : State} (named : id ≠ [])
    (found : state.tasks.lookup id = some task) (req : CompleteTaskRequest) (now : Time) :
    (apply config state (.complete id req now)).tasks.lookup id = some (completed req now task) := by
  simp only [apply,named,if_false,completeWrite,found]
  split <;> simp [found]

end Results

/-- Once a task has a result, its worker and start time are final and it stays
finished; its status, message and completion time change only if a further
result for the same task is reported, and are then those of the last such report. -/
theorem result_kept (config : Config) (run : Run) (before after : List Section)
    (split : run.sections = before ++ after) (id : Bytes) (task : Task)
    (found : (exec config before newMemoryStore).tasks.lookup id = some task)
    (finished : task.status = .completed ∨ task.status = .failed) :
    ∃ next, (exec config (before ++ after) newMemoryStore).tasks.lookup id = some next ∧
      next.assignedWorker = task.assignedWorker ∧ next.startedAt = task.startedAt ∧
      (next.status = .completed ∨ next.status = .failed) ∧
      ((∀ step ∈ after, step.completes id = false) →
        next.status = task.status ∧ next.message = task.message ∧
          next.completedAt = task.completedAt) ∧
      ∀ early req now late, after = early ++ .complete id req now::late →
        (∀ step ∈ late, step.completes id = false) →
        next.status = (if req.success then .completed else .failed) ∧
        next.message = (if req.message = [] then (if req.success then utf8 "completed"
          else utf8 "failed") else req.message) ∧
        next.completedAt = some now := by
  have bound : submissions (before ++ after) < 2^64 := split ▸ run.bounded
  obtain ⟨next,stored,last,worker,started⟩ := finished_fixed bound found finished
  refine ⟨next,stored,worker,started,last,?_,?_⟩
  · intro silent
    have same := finished_unreported bound found finished silent
    rw [Option.some.inj (stored.symm.trans same)]
    exact ⟨rfl,rfl,rfl⟩
  · rintro early req now late rfl silent
    -- The task is there when it is reported, and nothing changes it after that.
    have upTo : before ++ (early ++ .complete id req now::late) =
        (before ++ early ++ [.complete id req now]) ++ late := by simp
    have fewer : submissions (before ++ early) < 2^64 := by
      simp only [submissions,List.countP_append] at bound ⊢
      omega
    obtain ⟨current,present,_⟩ := finished_fixed fewer found finished
    have named : id ≠ [] := ((exec_wellFormed config _).task id current present).named
    have reported : (exec config (before ++ early ++ [.complete id req now])
      newMemoryStore).tasks.lookup id =
        some (completed req now current) := by
      rw [exec_append]
      exact complete_lookup config named present req now
    rw [upTo] at stored bound
    have kept := finished_unreported bound reported (completed_finished req now current) silent
    rw [Option.some.inj (stored.symm.trans kept)]
    exact ⟨rfl,rfl,rfl⟩

def answered : List Section :=
  [.register ⟨utf8 "worker-1",utf8 "127.0.0.1:9001",1,[]⟩ 1,
    .submit ⟨utf8 "llama",utf8 "generate",[],none⟩ 2,.dispatchPending 3,
    .complete (utf8 "task-000001") ⟨true,utf8 "answer"⟩ 4]

def answeredTask : Task :=
  ⟨utf8 "task-000001",utf8 "llama",utf8 "generate",[],none,.completed,utf8 "worker-1",utf8 "answer",
    2,some 3,some 4⟩

def contradictoryReports : Run where
  sections := answered ++ [.dispatchPending 5,.complete (utf8 "task-000001") ⟨false,utf8 "lost"⟩ 6]
  bounded := by decide

theorem result_kept_answered :
    ∃ next, (contradictoryReports.state defaultConfig).tasks.lookup (utf8 "task-000001") = some next ∧
      next.assignedWorker = utf8 "worker-1" ∧ next.startedAt = some 3 ∧
      next.status = .failed ∧ next.message = utf8 "lost" ∧ next.completedAt = some 6 := by
  obtain ⟨next,stored,worker,started,_,_,last⟩ := result_kept defaultConfig contradictoryReports
    answered _ rfl (utf8 "task-000001") answeredTask (by decide) (.inl rfl)
  exact ⟨next,stored,worker,started,last [.dispatchPending 5] ⟨false,utf8 "lost"⟩ 6
    [] rfl (by simp)⟩

/-- The first result is not final: a second report replaces status, message and
completion time. -/
theorem second_report_replaces_result :
    ¬ ∀ (run : Run) (before after : List Section), run.sections = before ++ after →
      ∀ id task, (exec defaultConfig before newMemoryStore).tasks.lookup id = some task →
        task.status = .completed ∨ task.status = .failed →
        ∃ next, (exec defaultConfig (before ++ after) newMemoryStore).tasks.lookup id = some next ∧
          next.status = task.status ∧ next.message = task.message ∧
            next.completedAt = task.completedAt ∧
          next.assignedWorker = task.assignedWorker ∧ next.startedAt = task.startedAt := by
  intro kept
  obtain ⟨next,stored,status,_⟩ := kept contradictoryReports answered _ rfl (utf8 "task-000001")
    answeredTask (by decide) (.inl rfl)
  have replaced : (contradictoryReports.state defaultConfig).tasks.lookup (utf8 "task-000001") =
      some {answeredTask with status := .failed,message := utf8 "lost",completedAt := some 6} := by
        decide
  cases replaced.symm.trans stored
  cases status

end RdmaPlatform.Scheduler
