import RdmaPlatform.Scheduler.Calls

/-! A node's stored status is a cache. Overviews and refreshes write it at their own
clock value, but every dispatch recomputes it first, so two runs that differ only
in such observers agree on everything else and on every answer. -/
namespace RdmaPlatform.Scheduler
open Library

def withoutStatus (node : Node) : Node := {node with status := .ready}

/-- Everything but the nodes' status fields. -/
def State.essence (state : State) : State := {state with nodes := state.nodes.mapValues withoutStatus}

@[simp] theorem essence_tasks (state : State) : state.essence.tasks = state.tasks := rfl

theorem essence_lookup (state : State) (id : Bytes) :
    state.essence.nodes.lookup id = (state.nodes.lookup id).map withoutStatus :=
      Table.lookup_mapValues _ _ _

theorem essence_essence (state : State) : state.essence.essence = state.essence := by
  simp only [State.essence,Table.mapValues_mapValues]
  rfl

theorem essence_refresh (offlineAfter : Duration) (now : Time) (state : State) :
    State.essence {state with nodes := state.nodes.mapValues (refreshed offlineAfter now)} =
      state.essence := by
  simp only [State.essence,Table.mapValues_mapValues]
  rfl

theorem dispatchPending_essence (config : Config) (now : Time) (state : State) :
    dispatchPending config now state.essence = dispatchPending config now state := by
  have recomputed : refreshNodeStatesLocked config state.essence now =
      refreshNodeStatesLocked config state now := by
    simp only [refreshNodeStatesLocked,State.essence,Table.mapValues_mapValues]
    rfl
  rw [dispatchPending,recomputed]
  rfl

private theorem modify_essence (state : State) (key : Bytes) (f : Node → Node)
    (respects : ∀ node, withoutStatus (f (withoutStatus node)) = withoutStatus (f node)) :
    State.essence {state.essence with nodes := state.essence.nodes.modify key f} =
      State.essence {state with nodes := state.nodes.modify key f} := by
  simp only [State.essence]
  rw [Table.mapValues_modify _ _ _ _ respects (fun _ => rfl)]

private theorem released_withoutStatus (node : Node) :
    withoutStatus (released (withoutStatus node)) = withoutStatus (released node) := by
  by_cases busy : node.runningTasks > 0
  · simp [released,withoutStatus,busy]
  · simp [released,withoutStatus,busy]

private theorem admitted_essence (id : Bytes) (state : State) :
    (admitted id state.essence) = (admitted id state).essence := by
  unfold admitted
  rw [essence_lookup]
  cases found : state.nodes.lookup id with
  | some node => rfl
  | none =>
    simp only [Option.map_none,State.essence]
    rw [Table.mapValues_put_fresh _ _ _ _ found]
    rfl

private theorem tasks_essence (state : State) (tasks : Table Bytes Task) (taskCounter : UInt64) :
    State.essence {state.essence with tasks := tasks,taskCounter := taskCounter} =
      State.essence {state with tasks := tasks,taskCounter := taskCounter} := by
  have twice := congrArg State.nodes (essence_essence state)
  simpa only [State.essence,State.mk.injEq,and_self,and_true] using twice

/-- The writes respect the essence: they answer alike and leave states alike. -/
theorem write_essence (config : Config) (now : Time) (state : State) (request : Request) :
    (request.write config now state.essence).1 = (request.write config now state).1 ∧
      (request.write config now state.essence).2.essence =
        (request.write config now state).2.essence := by
  cases request with
  | register req =>
    simp only [Request.write,register]
    split
    next => exact ⟨rfl,essence_essence state⟩
    next =>
      refine ⟨rfl,?_⟩
      simp only [admitted_essence]
      exact modify_essence (admitted req.id state) req.id (registered config req now) (fun _ => rfl)
  | heartbeat req =>
    simp only [Request.write,heartbeat,essence_lookup]
    split
    next => exact ⟨rfl,essence_essence state⟩
    next =>
      cases state.nodes.lookup req.id with
      | none => exact ⟨rfl,essence_essence state⟩
      | some node => exact ⟨rfl,modify_essence state req.id (beaten config req now) (fun _ => rfl)⟩
  | submit req =>
    simp only [Request.write]
    split
    next => exact ⟨rfl,essence_essence state⟩
    next =>
      split
      next => exact ⟨rfl,essence_essence state⟩
      next => exact ⟨rfl,tasks_essence state _ _⟩
  | complete taskID req =>
    simp only [Request.write,completeWrite,essence_tasks]
    split
    next => exact ⟨rfl,essence_essence state⟩
    next =>
      cases state.tasks.lookup taskID with
      | none => exact ⟨rfl,essence_essence state⟩
      | some task =>
        simp only
        split
        next =>
          exact ⟨rfl,modify_essence {state with tasks := state.tasks.modify taskID (completed req now)}
            task.assignedWorker released released_withoutStatus⟩
        next => exact ⟨rfl,tasks_essence state _ _⟩

/-- A service call, or a dispatch of its own, at a given time. -/
inductive Operation where
  | call (request : Request) (now : Time)
  | dispatchPending (now : Time)

def Operation.perform (config : Config) (state : State) : Operation → Option Response × State
  | .call request now =>
    let (response,state) := request.call config now state
    (some response,state)
  | .dispatchPending now => (none,Scheduler.dispatchPending config now state)

/-- The calls that only look, some of which write statuses. -/
inductive Observer where
  | overview (now : Time)
  | refreshNodeStates (now : Time)
  | refresh (now : Time)
  | getNode (id : Bytes)
  | getTask (taskID : Bytes)
  | runningAssignments (workerID : Bytes)

def Observer.look (config : Config) (state : State) : Observer → State
  | .overview now => (Scheduler.overview config now state).2
  | .refreshNodeStates now => Scheduler.refreshNodeStates config now state
  | .refresh now => Scheduler.refresh config now state
  | .getNode _ | .getTask _ | .runningAssignments _ => state

inductive Act where
  | operation (operation : Operation)
  | observer (observer : Observer)

def Act.isOperation : Act → Bool
  | .operation _ => true
  | .observer _ => false

/-- The answers to the operations of a run, and its final state. -/
def play (config : Config) : List Act → State → List (Option Response) × State
  | [], state => ([],state)
  | .operation operation::rest, state =>
    let (response,state) := operation.perform config state
    let (responses,state) := play config rest state
    (response::responses,state)
  | .observer observer::rest, state => play config rest (observer.look config state)

theorem look_essence (config : Config) (state : State) (observer : Observer) :
    (observer.look config state).essence = state.essence := by
  cases observer with
  | overview now | refreshNodeStates now => exact essence_refresh config.offlineAfter now state
  | refresh now => exact essence_refresh config.registryOfflineAfter now state
  | getNode | getTask | runningAssignments => rfl

theorem serve_essence (config : Config) (now : Time) (state : State) (request : Request) :
    (request.serve config now state.essence).1 = (request.serve config now state).1 ∧
      (request.serve config now state.essence).2.essence =
        (request.serve config now state).2.essence := by
  obtain ⟨answer,left⟩ := write_essence config now state request
  unfold Request.serve
  rcases written : request.write config now state with ⟨result,next⟩
  rcases written' : request.write config now state.essence with ⟨result',next'⟩
  rw [written,written'] at answer left
  simp only at answer left
  subst answer
  cases result' with
  | error error => exact ⟨rfl,left⟩
  | ok key =>
    have dispatched : dispatchPending config now next' = dispatchPending config now next := by
      rw [← dispatchPending_essence,left,dispatchPending_essence]
    simp only [dispatched,and_self]

theorem perform_essence (config : Config) (state : State) (operation : Operation) :
    (operation.perform config state.essence).1 = (operation.perform config state).1 ∧
      (operation.perform config state.essence).2.essence =
        (operation.perform config state).2.essence := by
  cases operation with
  | call request now =>
    simp only [Operation.perform,Request.call_eq_serve]
    obtain ⟨answer,left⟩ := serve_essence config now state request
    exact ⟨congrArg some answer,left⟩
  | dispatchPending now => exact ⟨rfl,by simp only [Operation.perform,dispatchPending_essence]⟩

private theorem play_related (config : Config) (acts : List Act) (state other : State)
    (same : state.essence = other.essence) :
    (play config acts state).1 = (play config (acts.filter Act.isOperation) other).1 ∧
      (play config acts state).2.essence =
        (play config (acts.filter Act.isOperation) other).2.essence := by
  induction acts generalizing state other with
  | nil => exact ⟨rfl,same⟩
  | cons act rest ih =>
    cases act with
    | observer observer => exact ih _ other ((look_essence config state observer).trans same)
    | operation operation =>
      obtain ⟨first,left⟩ := perform_essence config state operation
      obtain ⟨first',left'⟩ := perform_essence config other operation
      rw [same] at first left
      obtain ⟨later,final⟩ := ih (operation.perform config state).2 (operation.perform config other).2
        (left.symm.trans left')
      exact ⟨congrArg₂ List.cons (first.symm.trans first') later,final⟩

/-- Leaving out every observer changes no answer and, statuses apart, nothing in
the final state. -/
theorem observers_invisible (config : Config) (acts : List Act) (state : State) :
    (play config acts state).1 = (play config (acts.filter Act.isOperation) state).1 ∧
      (play config acts state).2.essence =
        (play config (acts.filter Act.isOperation) state).2.essence :=
  play_related config acts state state rfl

end RdmaPlatform.Scheduler
