import RdmaPlatform.Scheduler.Dispatch

/-! The node registry, the two services over it, and runs of their critical
sections. Every public call is a sequence of store accesses under one lock;
concurrent calls interleave at these accesses, so a run is a list of sections
with the clock values their calls read. -/
namespace RdmaPlatform.Scheduler
open Library

/-- The server's `defaultConfig`: one offline threshold of 30 s for both parts. -/
def defaultConfig : Config := ⟨some leastLoadedStrategy,30000000000,30000000000⟩

/-- `&model.Node{ID: id}`; the status is derived before the lock is released. -/
def freshNode (id : Bytes) : Node := ⟨id,[],0,[],0,.ready,0⟩

def effectiveCapacity (req : RegisterNodeRequest) : Int64 :=
  if req.capacity ≤ 0 then 1 else req.capacity

def registered (config : Config) (req : RegisterNodeRequest) (now : Time) (node : Node) : Node :=
  refreshed config.registryOfflineAfter now {node with
    address := req.address
    capacity := effectiveCapacity req
    labels := req.labels
    lastHeartbeat := now}

def admitted (id : Bytes) (state : State) : State :=
  match state.nodes.lookup id with
  | some _ => state
  | none => {state with nodes := state.nodes.put id (freshNode id),nodeOrder := state.nodeOrder ++ [id]}

@[simp] theorem admitted_tasks (id : Bytes) (state : State) :
    (admitted id state).tasks = state.tasks := by
  unfold admitted
  split <;> rfl

@[simp] theorem admitted_taskCounter (id : Bytes) (state : State) :
    (admitted id state).taskCounter = state.taskCounter := by
  unfold admitted
  split <;> rfl

@[simp] theorem admitted_nextNodeIndex (id : Bytes) (state : State) :
    (admitted id state).nextNodeIndex = state.nextNodeIndex := by
  unfold admitted
  split <;> rfl

theorem lookup_admitted_of_some (id : Bytes) {state : State} {key : Bytes} {node : Node}
    (present : state.nodes.lookup key = some node) :
    (admitted id state).nodes.lookup key = some node := by
  unfold admitted
  split
  next => exact present
  next absent =>
    have other : key ≠ id := by
      intro same
      rw [same,absent] at present
      cases present
    rw [Table.lookup_put,if_neg other,present]

/-- What holds of the stored nodes and of a new one holds after the admission. -/
theorem admitted_forall (id : Bytes) {state : State} {P : Bytes → Node → Prop}
    (before : ∀ key node, state.nodes.lookup key = some node → P key node)
    (fresh : state.nodes.lookup id = none → P id (freshNode id)) :
    ∀ key node, (admitted id state).nodes.lookup key = some node → P key node := by
  unfold admitted
  split
  next => exact before
  next absent => exact Table.put_forall _ _ _ P before (fresh absent)

def register (config : Config) (req : RegisterNodeRequest) (now : Time) (state : State) :
    Except Error Unit × State :=
  if req.id = [] then (.error .workerIdRequired,state)
  else
    let state := admitted req.id state
    (.ok (),{state with nodes := state.nodes.modify req.id (registered config req now)})

def beaten (config : Config) (req : HeartbeatRequest) (now : Time) (node : Node) : Node :=
  refreshed config.registryOfflineAfter now {node with
    runningTasks := if req.runningTasks < 0 then 0 else req.runningTasks
    lastHeartbeat := now}

def heartbeat (config : Config) (req : HeartbeatRequest) (now : Time) (state : State) :
    Except Error Unit × State :=
  if req.id = [] then (.error .workerIdRequired,state)
  else
    match state.nodes.lookup req.id with
    | none => (.error (.workerNotFound req.id),state)
    | some _ => (.ok (),{state with nodes := state.nodes.modify req.id (beaten config req now)})

def getNode (id : Bytes) (state : State) : Option Node := state.nodes.lookup id

def refresh (config : Config) (now : Time) (state : State) : State :=
  {state with nodes := state.nodes.mapValues (refreshed config.registryOfflineAfter now)}

def submitted (id : Bytes) (req : SubmitTaskRequest) (now : Time) : Task where
  id := id
  model := req.model
  operation := req.operation
  payloadRef := req.payloadRef
  metadata := cloneMetadata req.metadata
  status := .pending
  assignedWorker := []
  message := utf8 "queued"
  createdAt := now
  startedAt := none
  completedAt := none

/-- The store write of `TaskService.Submit`, with the id it creates. -/
def submitWrite (req : SubmitTaskRequest) (now : Time) (state : State) : Bytes × State :=
  let counter := state.taskCounter + 1
  let taskID := formatTaskID counter
  (taskID,
    {state with taskCounter := counter,tasks := state.tasks.put taskID (submitted taskID req now)})

def completed (req : CompleteTaskRequest) (now : Time) (task : Task) : Task :=
  {task with
    completedAt := some now
    status := if req.success then .completed else .failed
    message :=
      if req.message = [] then (if req.success then utf8 "completed" else utf8 "failed")
      else req.message}

def released (node : Node) : Node :=
  if node.runningTasks > 0 then {node with runningTasks := node.runningTasks - 1} else node

/-- The store write of `TaskService.Complete`. -/
def completeWrite (taskID : Bytes) (req : CompleteTaskRequest) (now : Time) (state : State) :
    Except Error Unit × State :=
  match state.tasks.lookup taskID with
  | none => (.error (.taskNotFound taskID),state)
  | some task =>
    let finished := {state with tasks := state.tasks.modify taskID (completed req now)}
    if task.status = .running ∧ task.assignedWorker ≠ [] then
      (.ok (),{finished with nodes := finished.nodes.modify task.assignedWorker released})
    else (.ok (),finished)

def getTask (taskID : Bytes) (state : State) : Option Task := (state.tasks.lookup taskID).map cloneTask

/-- A service call as it runs without interference, like the three after it. -/
def NodeService.register (config : Config) (req : RegisterNodeRequest) (now : Time) (state : State) :
    Except Error Node × State :=
  match Scheduler.register config req now state with
  | (.error error,state) => (.error error,state)
  | (.ok _,state) =>
    let state := dispatchPending config now state
    match getNode req.id state with
    | none => (.error (.workerNotFound req.id),state)
    | some node => (.ok node,state)

def NodeService.heartbeat (config : Config) (req : HeartbeatRequest) (now : Time) (state : State) :
    Except Error Node × State :=
  match Scheduler.heartbeat config req now state with
  | (.error error,state) => (.error error,state)
  | (.ok _,state) =>
    let state := dispatchPending config now state
    match getNode req.id state with
    | none => (.error (.workerNotFound req.id),state)
    | some node => (.ok node,state)

def TaskService.submit (config : Config) (req : SubmitTaskRequest) (now : Time) (state : State) :
    Except Error Task × State :=
  if req.model = [] then (.error .modelRequired,state)
  else if req.operation = [] then (.error .operationRequired,state)
  else
    let (taskID,state) := submitWrite req now state
    let state := dispatchPending config now state
    match getTask taskID state with
    | none => (.error (.taskNotFound taskID),state)
    | some task => (.ok task,state)

def TaskService.complete (config : Config) (taskID : Bytes) (req : CompleteTaskRequest) (now : Time)
    (state : State) : Except Error Task × State :=
  if taskID = [] then (.error .taskIdRequired,state)
  else
    match completeWrite taskID req now state with
    | (.error error,state) => (.error error,state)
    | (.ok _,state) =>
      let state := dispatchPending config now state
      match getTask taskID state with
      | none => (.error (.taskNotFound taskID),state)
      | some task => (.ok task,state)

/-- One access to the store under its lock. -/
inductive Section where
  | register (req : RegisterNodeRequest) (now : Time)
  | heartbeat (req : HeartbeatRequest) (now : Time)
  | submit (req : SubmitTaskRequest) (now : Time)
  | complete (taskID : Bytes) (req : CompleteTaskRequest) (now : Time)
  | dispatchPending (now : Time)
  | refreshNodeStates (now : Time)
  | refresh (now : Time)
  | overview (now : Time)

def apply (config : Config) (state : State) : Section → State
  | .register req now => (register config req now state).2
  | .heartbeat req now => (heartbeat config req now state).2
  | .submit req now =>
    if req.model = [] ∨ req.operation = [] then state else (submitWrite req now state).2
  | .complete taskID req now => if taskID = [] then state else (completeWrite taskID req now state).2
  | .dispatchPending now => dispatchPending config now state
  | .refreshNodeStates now => refreshNodeStates config now state
  | .refresh now => refresh config now state
  | .overview now => (overview config now state).2

def exec (config : Config) (sections : List Section) (state : State) : State :=
  sections.foldl (apply config) state

end RdmaPlatform.Scheduler
