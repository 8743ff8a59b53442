import RdmaPlatform.Scheduler.Run

/-! Slot accounting. A node's running counter is written by assignment, by
completion and by heartbeats; without heartbeats it is always the number of
running tasks assigned to the node, so no completion finds it at zero and the
overview's two ways of counting agree. -/
namespace RdmaPlatform.Scheduler
open Library

def RunsOn (worker : Bytes) (task : Task) : Prop :=
  task.status = .running ∧ task.assignedWorker = worker

instance (worker : Bytes) : DecidablePred (RunsOn worker) := fun task => by
  unfold RunsOn; infer_instance

def load (state : State) (worker : Bytes) : Nat := state.tasks.count (RunsOn worker)

theorem completed_not_runsOn (req : CompleteTaskRequest) (now : Time) (worker : Bytes) (task : Task) :
    ¬ RunsOn worker (completed req now task) := by
  intro runs
  have status := runs.1
  simp only [completed] at status
  split at status <;> cases status

theorem count_completed (state : State) (taskID worker : Bytes) (task : Task)
    (req : CompleteTaskRequest) (now : Time) (found : state.tasks.lookup taskID = some task) :
    (state.tasks.modify taskID (completed req now)).count (RunsOn worker) +
      (if RunsOn worker task then 1 else 0) = load state worker := by
  have moved := Table.count_modify state.tasks taskID task (completed req now) (RunsOn worker) found
  simpa [completed_not_runsOn,load] using moved

theorem count_assigned (state : State) (taskKey worker : Bytes) (task : Task) (node : Node) (now : Time)
    (found : state.tasks.lookup taskKey = some task) (pending : task.status = .pending) :
    (state.tasks.modify taskKey (assigned node now)).count (RunsOn worker) =
      load state worker + (if node.id = worker then 1 else 0) := by
  have moved := Table.count_modify state.tasks taskKey task (assigned node now) (RunsOn worker) found
  have idle : ¬ RunsOn worker task := by simp [RunsOn,pending]
  rw [if_neg idle] at moved
  simpa [RunsOn,assigned,load] using moved

theorem submitted_not_runsOn (worker id : Bytes) (req : SubmitTaskRequest) (now : Time) :
    ¬ RunsOn worker (submitted id req now) := by
  simp [RunsOn,submitted]

theorem load_unregistered (state : State) (formed : WellFormed state) (worker : Bytes)
    (absent : state.nodes.lookup worker = none) : load state worker = 0 := by
  apply Table.count_eq_zero
  rintro id task found ⟨running,assignedTo⟩
  have owned := (formed.task id task found).owned running
  obtain ⟨node,present⟩ := (Table.mem_keys_iff _ _).mp (formed.owner id task found owned)
  rw [assignedTo,absent] at present
  cases present

def Exact (state : State) : Prop :=
  ∀ worker node, state.nodes.lookup worker = some node → node.runningTasks.toInt = load state worker

def Section.isHeartbeat : Section → Bool
  | .heartbeat _ _ => true
  | _ => false

private theorem released_exact (state : State) (taskID worker : Bytes) (task : Task) (node : Node)
    (exact : Exact state) (found : state.tasks.lookup taskID = some task)
    (runs : RunsOn worker task) (registered : state.nodes.lookup worker = some node) :
    0 < node.runningTasks ∧ (released node).runningTasks.toInt = node.runningTasks.toInt - 1 := by
  have positive : 0 < node.runningTasks := by
    have counted := Table.count_pos state.tasks (RunsOn worker) taskID task found runs
    rw [Counter.pos_iff,exact worker node registered]
    exact Int.natCast_pos.mpr counted
  refine ⟨positive,?_⟩
  rw [released,if_pos positive]
  exact Counter.toInt_pred positive

private theorem register_exact (req : RegisterNodeRequest) (state : State) (exact : Exact state)
    (formed : WellFormed state) : Exact (admitted req.id state) := by
  unfold Exact load
  rw [admitted_tasks]
  refine admitted_forall req.id exact (fun absent => ?_)
  have zero := load_unregistered state formed req.id absent
  rw [load] at zero
  rw [zero]
  rfl

private theorem submit_exact (req : SubmitTaskRequest) (now : Time) (state : State)
    (exact : Exact state) (unused : Fresh state) : Exact (submitWrite req now state).2 := by
  intro worker node found
  have same : load (submitWrite req now state).2 worker = load state worker := by
    rw [load,load,submitWrite,Table.count_put_fresh _ _ _ _ unused,
      if_neg (submitted_not_runsOn _ _ _ _)]
    omega
  rw [same]
  exact exact worker node found

private theorem release_exact (taskID : Bytes) (req : CompleteTaskRequest) (now : Time)
    (state : State) (task : Task) (exact : Exact state)
    (found : state.tasks.lookup taskID = some task) (running : task.status = .running) :
    Exact {state with
      tasks := state.tasks.modify taskID (completed req now)
      nodes := state.nodes.modify task.assignedWorker released} := by
  intro worker node lookup
  have freed := count_completed state taskID worker task req now found
  change node.runningTasks.toInt =
    ((state.tasks.modify taskID (completed req now)).count (RunsOn worker) : Nat)
  rw [Table.lookup_modify] at lookup
  split at lookup
  next same =>
    obtain ⟨old,registered,rfl⟩ := Option.map_eq_some_iff.mp lookup
    have runs : RunsOn worker task := ⟨running,same.symm⟩
    have lowered := released_exact state taskID worker task old exact found runs registered
    rw [if_pos runs] at freed
    rw [lowered.2,exact worker old registered]
    omega
  next other =>
    have idle : ¬ RunsOn worker task := fun runs => other runs.2.symm
    rw [if_neg idle] at freed
    rw [exact worker node lookup,← freed]
    rfl

private theorem complete_exact (taskID : Bytes) (req : CompleteTaskRequest) (now : Time)
    (state : State) (task : Task) (exact : Exact state)
    (found : state.tasks.lookup taskID = some task) (idle : ∀ worker, ¬ RunsOn worker task) :
    Exact {state with tasks := state.tasks.modify taskID (completed req now)} := by
  intro worker node lookup
  have freed := count_completed state taskID worker task req now found
  rw [if_neg (idle worker)] at freed
  rw [exact worker node lookup,← freed]
  rfl

private theorem assign_exact (config : Config) (now : Time) (state : State)
    (taskKey nodeKey : Bytes) (task : Task) (node : Node) (index : Int) (exact : Exact state)
    (host : node.Sound nodeKey) (found : state.tasks.lookup taskKey = some task)
    (pending : task.status = .pending) (chosen : state.nodes.lookup nodeKey = some node)
    (free : eligible node = true) :
    Exact {state with
      nextNodeIndex := index
      tasks := state.tasks.modify taskKey (assigned node now)
      nodes := state.nodes.modify nodeKey (occupied config now)} := by
  intro worker other lookup
  have taken := count_assigned state taskKey worker task node now found pending
  change other.runningTasks.toInt =
    ((state.tasks.modify taskKey (assigned node now)).count (RunsOn worker) : Nat)
  rw [taken,host.key]
  rw [Table.lookup_modify] at lookup
  split at lookup
  next same =>
    subst same
    rw [chosen] at lookup
    cases lookup
    have raised := Counter.toInt_succ (eligible_below host free)
    rw [if_pos rfl,Nat.cast_add,← exact worker node chosen]
    exact raised
  next different =>
    rw [if_neg (Ne.symm different)]
    simpa using exact worker other lookup

theorem change_exact (config : Config) (step : Section) (state next : State)
    (silent : step.isHeartbeat = false) (exact : Exact state) (formed : WellFormed state)
    (fresh : step.submits = true → Fresh state) (change : Change config step state next) :
    Exact next := by
  cases change with
  | heartbeat => cases silent
  | register req now _ named =>
    exact Table.modify_forall _ _ _ (fun worker (node : Node) => node.runningTasks.toInt =
      load _ worker) (register_exact req state exact formed) (fun _ _ before => before)
  | submit req now _ valid =>
    exact submit_exact req now state exact (fresh (by simpa [Section.submits] using valid))
  | release taskID req now _ task found running owned =>
    exact release_exact taskID req now state task exact found running
  | complete taskID req now _ task found unowned =>
    refine complete_exact taskID req now state task exact found (fun worker runs => ?_)
    exact unowned ⟨runs.1,(formed.task taskID task found).owned runs.1⟩
  | refresh _ offlineAfter now =>
    exact Table.mapValues_forall _ _ (fun worker (node : Node) => node.runningTasks.toInt =
      load state worker) exact (fun _ _ before => before)
  | assign now _ taskKey nodeKey task node index found pending chosen free bounds =>
    exact assign_exact config now state taskKey nodeKey task node index
      exact (formed.node nodeKey node chosen) found pending chosen free

theorem exec_exact (config : Config) (sections : List Section) (bound : submissions sections < 2^64)
    (silent : ∀ step ∈ sections, step.isHeartbeat = false) :
    Exact (exec config sections newMemoryStore) := by
  have start : Exact (exec config [] newMemoryStore) := by
    intro worker node found
    cases found
  exact bounded_invariant config [] sections bound Exact start
    (fun step member state next exact formed fresh change =>
      change_exact config step state next (silent step member) exact formed fresh change)

theorem sum_load (state : State) (formed : WellFormed state) :
    (state.nodes.keys.map (load state)).sum =
      state.tasks.count (fun task => task.status = .running) := by
  apply Table.sum_count_owner state.tasks _ state.nodes.keys_nodup
  rintro ⟨id,task⟩ member running
  have found := (Table.mem_entries_iff _ _ _).mp member
  exact formed.owner id task found ((formed.task id task found).owned running)

theorem overview_running (config : Config) (now : Time) (state : State) (formed : WellFormed state)
    (exact : Exact state) :
    ((overview config now state).1.runningTasks : Int) =
      ((overview config now state).1.workers.map (fun node => node.runningTasks.toInt)).sum := by
  have listed : ((overview config now state).1.workers.map (fun node => node.runningTasks.toInt)).sum =
      (state.nodes.entries.map (fun e => e.2.runningTasks.toInt)).sum := by
    have sorted := (List.perm_insertionSort (fun left right : Node => ¬ right.id < left.id)
      (state.nodes.mapValues (refreshed config.offlineAfter now)).values).map
        (fun node => node.runningTasks.toInt)
    refine sorted.sum_eq.trans ?_
    simp [Table.values,Table.mapValues,Table.mapEntries,List.map_map,Function.comp_def,refreshed]
  have counters : state.nodes.entries.map (fun e => e.2.runningTasks.toInt) =
      (state.nodes.keys.map (load state)).map (fun n : Nat => (n : Int)) := by
    simp only [AList.keys,List.keys,List.map_map]
    apply List.map_congr_left
    rintro ⟨worker,node⟩ member
    exact exact worker node ((Table.mem_entries_iff _ _ _).mp member)
  have counted : (overview config now state).1.runningTasks =
      state.tasks.count (fun task => task.status = .running) := by
    simp [overview,refreshNodeStatesLocked,Table.values,Table.count,List.countP_map,Function.comp_def]
  rw [listed,counters,counted,← sum_load state formed]
  exact map_list_sum (Nat.castAddMonoidHom Int) _

/-- Without heartbeats the counters are exact in every state a run reaches: each
is the number of running tasks of its node, every running task finds its node's
counter positive when it completes, and the overview's running count is the sum
of the counters it lists. -/
theorem slot_accounting (config : Config) (run : Run)
    (silent : ∀ step ∈ run.sections, step.isHeartbeat = false) :
    (∀ worker node, (run.state config).nodes.lookup worker = some node →
      node.runningTasks.toInt =
        (run.state config).tasks.count (fun task => task.status = .running ∧
          task.assignedWorker = worker)) ∧
    (∀ id task, (run.state config).tasks.lookup id = some task → task.status = .running →
      ∃ node, (run.state config).nodes.lookup task.assignedWorker = some node ∧
        node.runningTasks > 0) ∧
    (∀ now, ((overview config now (run.state config)).1.runningTasks : Int) =
      ((overview config now (run.state config)).1.workers.map
        (fun node => node.runningTasks.toInt)).sum) := by
  have exact := exec_exact config run.sections run.bounded silent
  have formed := exec_wellFormed config run.sections
  refine ⟨exact,?_,fun now => overview_running config now _ formed exact⟩
  intro id task found running
  have owned := (formed.task id task found).owned running
  obtain ⟨node,registered⟩ := (Table.mem_keys_iff _ _).mp (formed.owner id task found owned)
  exact ⟨node,registered,(released_exact _ id task.assignedWorker task node exact found ⟨running,
    rfl⟩ registered).1⟩

def repeatedCompletion : Run where
  sections := [.register ⟨utf8 "worker-1",utf8 "127.0.0.1:9001",2,[]⟩ 1,
    .submit ⟨utf8 "llama",utf8 "generate",[],none⟩ 2,
      .submit ⟨utf8 "llama",utf8 "generate",[],none⟩ 3,
    .dispatchPending 4,.complete (utf8 "task-000001") ⟨true,[]⟩ 5,.complete (utf8 "task-000001")
      ⟨false,[]⟩ 6]
  bounded := by decide

theorem slot_accounting_repeatedCompletion :
    (∀ step ∈ repeatedCompletion.sections, step.isHeartbeat = false) ∧
    ((overview defaultConfig 7 (repeatedCompletion.state defaultConfig)).1.runningTasks : Int) =
      ((overview defaultConfig 7 (repeatedCompletion.state defaultConfig)).1.workers.map
        (fun node => node.runningTasks.toInt)).sum :=
  ⟨by decide,(slot_accounting defaultConfig repeatedCompletion (by decide)).2.2 7⟩

example : (repeatedCompletion.state defaultConfig).nodes.values.map (·.runningTasks) = [1] := by decide

end RdmaPlatform.Scheduler
