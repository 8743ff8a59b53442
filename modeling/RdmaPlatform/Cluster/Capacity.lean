import RdmaPlatform.Scheduler.Accounting
import RdmaPlatform.Cluster.System

/-! The scheduler's view of a worker's load against its capacity. Dispatch compares
the node's counter with the capacity, and a heartbeat overwrites that counter with
what the worker counted when it sent the heartbeat. The capacity is respected as
long as no heartbeat lowers the counter below the load; a stale one does. -/
namespace RdmaPlatform.Cluster
open Library Scheduler

/-- The counter dispatch reads is no less than the load, and the load fits. -/
def Covered (worker : Bytes) (store : State) : Prop :=
  ∀ node, store.nodes.lookup worker = some node →
    (load store worker : Int) ≤ node.runningTasks.toInt ∧
      (load store worker : Int) ≤ node.capacity.toInt

def KeepsCapacity (worker : Bytes) (store : State) (req : RegisterNodeRequest) : Prop :=
  req.id = worker → ∀ node ∈ store.nodes.lookup worker, node.capacity ≤ effectiveCapacity req

def CountsLoad (worker : Bytes) (store : State) (req : HeartbeatRequest) : Prop :=
  req.id = worker → (load store worker : Int) ≤ req.runningTasks.toInt

def Truthful (worker : Bytes) (store : State) : Section → Prop
  | .register req _ => KeepsCapacity worker store req
  | .heartbeat req _ => CountsLoad worker store req
  | _ => True

private theorem covered_of_load_le {worker : Bytes} {store next : State}
    (covered : Covered worker store) (fewer : load next worker ≤ load store worker)
    (same : next.nodes.lookup worker = store.nodes.lookup worker) : Covered worker next := by
  intro node found
  rw [same] at found
  obtain ⟨counted,fits⟩ := covered node found
  omega

theorem register_covered (config : Config) (worker : Bytes) (store : State)
    (req : RegisterNodeRequest) (now : Time) (named : req.id ≠ [])
    (kept : KeepsCapacity worker store req) (formed : WellFormed store)
    (covered : Covered worker store) :
    Covered worker {admitted req.id store with
      nodes := (admitted req.id store).nodes.modify req.id (registered config req now)} := by
  intro node found
  have sound := (change_wellFormed config _ store _ formed (.register req now store named)).node
    worker node found
  simp only [load,admitted_tasks]
  cases before : store.nodes.lookup worker with
  | none =>
    -- A worker that was not registered runs nothing.
    have idle := load_unregistered store formed worker before
    have running := Counter.nonneg_iff.mp sound.running
    have capacity := Counter.pos_iff.mp sound.capacity
    rw [load] at idle
    omega
  | some old =>
    obtain ⟨counted,fits⟩ := covered old before
    rw [Table.lookup_modify,lookup_admitted_of_some req.id before] at found
    split at found
    next same =>
      cases found
      have raised := Int64.le_iff_toInt_le.mp (kept same.symm old before)
      exact ⟨counted,fits.trans raised⟩
    next =>
      cases found
      exact ⟨counted,fits⟩

theorem heartbeat_covered (config : Config) (worker : Bytes) (store : State)
    (req : HeartbeatRequest) (now : Time) (counts : CountsLoad worker store req)
    (covered : Covered worker store) :
    Covered worker {store with nodes := store.nodes.modify req.id (beaten config req now)} := by
  intro node found
  simp only [Table.lookup_modify] at found
  split at found
  next same =>
    obtain ⟨old,before,rfl⟩ := Option.map_eq_some_iff.mp found
    refine ⟨?_,(covered old before).2⟩
    have reported := counts same.symm
    change (load store worker : Int) ≤
      (if req.runningTasks < 0 then 0 else req.runningTasks : Int64).toInt
    split
    next negative =>
      have below := Int64.lt_iff_toInt_lt.mp negative
      change (load store worker : Int) ≤ (0 : Int64).toInt
      omega
    next => exact reported
  next => exact covered node found

theorem release_covered (worker taskID : Bytes) (store : State) (task : Task)
    (req : CompleteTaskRequest) (now : Time) (found : store.tasks.lookup taskID = some task)
    (running : task.status = .running) (covered : Covered worker store) :
    Covered worker {store with
      tasks := store.tasks.modify taskID (completed req now)
      nodes := store.nodes.modify task.assignedWorker released} := by
  intro node lookup
  have freed := count_completed store taskID worker task req now found
  change _ ≤ node.runningTasks.toInt ∧ _ ≤ node.capacity.toInt
  simp only [load] at freed ⊢
  simp only [Table.lookup_modify] at lookup
  split at lookup
  next same =>
    obtain ⟨old,before,rfl⟩ := Option.map_eq_some_iff.mp lookup
    have runs : RunsOn worker task := ⟨running,same.symm⟩
    obtain ⟨counted,fits⟩ := covered old before
    rw [if_pos runs] at freed
    simp only [load] at counted fits
    -- The finished task is part of the load, so the counter is positive and falls with it.
    have positive : 0 < old.runningTasks := by
      rw [Counter.pos_iff]
      omega
    have lowered := Counter.toInt_pred positive
    rw [released,if_pos positive]
    simp only
    omega
  next =>
    obtain ⟨counted,fits⟩ := covered node lookup
    simp only [load] at counted fits
    omega

theorem assign_covered (config : Config) (worker taskKey nodeKey : Bytes) (store : State)
    (task : Task) (node : Node) (now : Time) (index : Int)
    (found : store.tasks.lookup taskKey = some task) (pending : task.status = .pending)
    (chosen : store.nodes.lookup nodeKey = some node) (free : eligible node = true)
    (formed : WellFormed store) (covered : Covered worker store) :
    Covered worker {store with
      nextNodeIndex := index
      tasks := store.tasks.modify taskKey (assigned node now)
      nodes := store.nodes.modify nodeKey (occupied config now)} := by
  intro other lookup
  have host := formed.node nodeKey node chosen
  have taken := count_assigned store taskKey worker task node now found pending
  rw [host.key] at taken
  simp only [load] at taken ⊢
  rw [taken]
  simp only [Table.lookup_modify] at lookup
  split at lookup
  next same =>
    subst same
    rw [chosen] at lookup
    cases lookup
    -- The dispatcher saw the counter below the capacity, so there is room for one more.
    have below := eligible_below host free
    have room := Int64.lt_iff_toInt_lt.mp below
    have raised := Counter.toInt_succ below
    have counted := (covered node chosen).1
    simp only [load] at counted
    rw [if_pos rfl]
    change _ ≤ (node.runningTasks + 1).toInt ∧ _ ≤ node.capacity.toInt
    omega
  next different =>
    rw [if_neg (Ne.symm different)]
    simpa [load] using covered other lookup

theorem change_covered (config : Config) (worker : Bytes) (step : Section) (store next : State)
    (truthful : Truthful worker store step) (formed : WellFormed store) (covered : Covered worker store)
    (change : Change config step store next) : Covered worker next := by
  cases change with
  | register req now _ named =>
    exact register_covered config worker store req now named truthful formed covered
  | heartbeat req now => exact heartbeat_covered config worker store req now truthful covered
  | submit req now =>
    exact covered_of_load_le covered (Table.count_put_le _ _ _ _ (submitted_not_runsOn _ _ _ _)) rfl
  | release taskID req now _ task found running =>
    exact release_covered worker taskID store task req now found running covered
  | complete taskID req now _ task found =>
    have freed := count_completed store taskID worker task req now found
    exact covered_of_load_le covered (by simp only [load] at freed ⊢; omega) rfl
  | refresh _ offlineAfter now =>
    intro node found
    simp only [Table.lookup_mapValues] at found
    obtain ⟨old,before,rfl⟩ := Option.map_eq_some_iff.mp found
    exact covered old before
  | assign now _ taskKey nodeKey task node index found pending chosen free =>
    exact assign_covered config worker taskKey nodeKey store task node now index found pending
      chosen free formed covered

theorem apply_covered (config : Config) (worker : Bytes) (store : State) (access : Section)
    (truthful : Truthful worker store access) (formed : WellFormed store)
    (covered : Covered worker store) :
    WellFormed (apply config store access) ∧ Covered worker (apply config store access) := by
  by_cases dispatch : ∃ now, access = .dispatchPending now
  · obtain ⟨now,rfl⟩ := dispatch
    exact apply_invariant config (fun s => WellFormed s ∧ Covered worker s) _ store ⟨formed,covered⟩
      (fun s next before change => ⟨change_wellFormed config _ s next before.1 change,
        change_covered config worker (.dispatchPending now) s next trivial before.1 before.2 change⟩)
  · rcases apply_change config store access (fun now same => dispatch ⟨now,same⟩) with same | change
    · rw [same]
      exact ⟨formed,covered⟩
    · exact ⟨change_wellFormed config _ store _ formed change,
        change_covered config worker _ store _ truthful formed covered change⟩

/-- The worker does not lower its capacity, and each of its heartbeats that reaches
the scheduler counts at least the tasks then running on it. -/
def HeartbeatsCount (cluster : System) : Event → Prop
  | .store (.register req _) => KeepsCapacity cluster.worker.id cluster.store req
  | .heartbeatArrives index _ =>
    ∀ body ∈ cluster.heartbeats[index]?, ∀ req ∈ decodeHeartbeat body,
      CountsLoad cluster.worker.id cluster.store req
  | _ => True

structure Respected (id : Bytes) (cluster : System) : Prop where
  worker : cluster.worker.id = id
  formed : WellFormed cluster.store
  covered : Covered id cluster.store

theorem accesses_truthful {cluster : System} {event : Event} {access : Section}
    (accesses : Accesses cluster event access) (counts : HeartbeatsCount cluster event) :
    Truthful cluster.worker.id cluster.store access := by
  cases accesses with
  | store _ allowed =>
    cases access with
    | register => exact counts
    | heartbeat req now =>
      intro own
      simp only [foreign,decide_eq_true_eq] at allowed
      exact absurd own allowed
    | submit | complete | dispatchPending | refreshNodeStates | refresh | overview => trivial
  | heartbeat index now body req present decoded => exact counts body present req decoded
  | report => trivial

theorem step_respected (config : Config) (id : Bytes) (cluster : System) (event : Event) (next : System)
    (before : Respected id cluster) (counts : HeartbeatsCount cluster event)
    (taken : step config cluster event = some next) : Respected id next := by
  obtain ⟨owner,formed,covered⟩ := before
  have effect := step_effect taken
  have same := effect.worker.id_eq
  obtain unchanged | ⟨access,accesses,applied⟩ := effect.store
  · exact ⟨same.trans owner,unchanged ▸ formed,unchanged ▸ covered⟩
  · have truthful := accesses_truthful accesses counts
    rw [owner] at truthful
    have after := apply_covered config id cluster.store access truthful formed covered
    rw [← applied] at after
    exact ⟨same.trans owner,after.1,after.2⟩

theorem initial_respected (worker : Worker.Node) : Respected worker.id (initial worker) where
  worker := rfl
  formed := newMemoryStore_wellFormed
  covered := by
    intro node found
    cases found

/-- In every run in which the worker's heartbeats count what runs on it, the number
of tasks running on it stays within its capacity. -/
theorem capacity_respected (config : Config) (worker : Worker.Node) (events : List Event)
    (final : System)
    (counts : Transition.Along (step config) HeartbeatsCount events (initial worker))
    (ran : Transition.run (step config) events (initial worker) = some final) (node : Node)
    (registered : final.store.nodes.lookup worker.id = some node) :
    (final.store.tasks.count (fun task => task.status = .running ∧
      task.assignedWorker = worker.id) : Int) ≤ node.capacity.toInt := by
  have respected := Transition.run_invariant (step_respected config worker.id) events
    (initial worker) final
    (initial_respected worker) counts ran
  exact (respected.covered node registered).2

instance (worker : Bytes) (store : State) (req : RegisterNodeRequest) :
    Decidable (KeepsCapacity worker store req) := by
  unfold KeepsCapacity; infer_instance

instance (worker : Bytes) (store : State) (req : HeartbeatRequest) :
    Decidable (CountsLoad worker store req) := by
  unfold CountsLoad; infer_instance

instance (cluster : System) (event : Event) : Decidable (HeartbeatsCount cluster event) := by
  unfold HeartbeatsCount; split <;> infer_instance

def countedDelivery : List Event :=
  [registration,submission 2,.store (.dispatchPending 3),.snapshot,.deliver true,
    .receive 0 [.data (utf8 "task-000001|hello\n")],.work .insertTask,
    .work .beginBeat,.work .countRunning,.work .snapshotActive,.endBeat,.heartbeatArrives 0 4,
    submission 5,.store (.dispatchPending 6)]

theorem capacity_respected_countedDelivery :
    ∃ final, Transition.run (step defaultConfig) countedDelivery (initial singleWorker) = some final ∧
      ∀ node, final.store.nodes.lookup singleWorker.id = some node →
        (final.store.tasks.count (fun task => task.status = .running ∧
          task.assignedWorker = singleWorker.id) : Int) ≤ node.capacity.toInt := by
  have enabled : (Transition.run (step defaultConfig) countedDelivery
    (initial singleWorker)).isSome := by decide +kernel
  obtain ⟨final,ran⟩ := Option.isSome_iff_exists.mp enabled
  exact ⟨final,ran,capacity_respected defaultConfig singleWorker countedDelivery final
    (by decide +kernel) ran⟩

/-- The worker counts no task and sends that; the scheduler assigns it a task; the
heartbeat arrives and frees the slot; the scheduler assigns the next task. -/
def staleHeartbeat : List Event :=
  [registration,.work .beginBeat,.work .countRunning,.work .snapshotActive,.endBeat,
    submission 2,.store (.dispatchPending 3),.heartbeatArrives 0 4,submission 5,
      .store (.dispatchPending 6)]

theorem stale_heartbeat_overcommits :
    (Transition.run (step defaultConfig) staleHeartbeat (initial singleWorker)).map (fun final =>
      (final.store.tasks.count (fun task => task.status = .running ∧
          task.assignedWorker = singleWorker.id),
        (final.store.nodes.lookup singleWorker.id).map (fun node => node.capacity))) =
      some (2,some 1) := by
  decide +kernel

end RdmaPlatform.Cluster
