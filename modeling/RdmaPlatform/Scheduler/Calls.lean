import RdmaPlatform.Scheduler.Run

/-! The calls of the two services in their phases. A call checks its arguments and
writes the store once; if that succeeds it dispatches pending tasks and then reads
its answer back. -/
namespace RdmaPlatform.Scheduler
open Library

inductive Request where
  | register (req : RegisterNodeRequest)
  | heartbeat (req : HeartbeatRequest)
  | submit (req : SubmitTaskRequest)
  | complete (taskID : Bytes) (req : CompleteTaskRequest)

inductive Response where
  | node (answer : Except Error Node)
  | task (answer : Except Error Task)

namespace Request

/-- The store access of the write phase. -/
def access (now : Time) : Request → Section
  | .register req => .register req now
  | .heartbeat req => .heartbeat req now
  | .submit req => .submit req now
  | .complete taskID req => .complete taskID req now

/-- The checks and the write; the result is the key to read back. -/
def write (config : Config) (now : Time) (state : State) : Request → Except Error Bytes × State
  | .register req =>
    let (result,state) := Scheduler.register config req now state
    (result.map (fun _ => req.id),state)
  | .heartbeat req =>
    let (result,state) := Scheduler.heartbeat config req now state
    (result.map (fun _ => req.id),state)
  | .submit req =>
    if req.model = [] then (.error .modelRequired,state)
    else if req.operation = [] then (.error .operationRequired,state)
    else
      let (taskID,state) := submitWrite req now state
      (.ok taskID,state)
  | .complete taskID req =>
    if taskID = [] then (.error .taskIdRequired,state)
    else
      let (result,state) := completeWrite taskID req now state
      (result.map (fun _ => taskID),state)

def failure (error : Error) : Request → Response
  | .register _ | .heartbeat _ => .node (.error error)
  | .submit _ | .complete _ _ => .task (.error error)

def read (key : Bytes) (state : State) : Request → Response
  | .register _ | .heartbeat _ =>
    match getNode key state with
    | none => .node (.error (.workerNotFound key))
    | some node => .node (.ok node)
  | .submit _ | .complete _ _ =>
    match getTask key state with
    | none => .task (.error (.taskNotFound key))
    | some task => .task (.ok task)

/-- The phases of a call in a row. -/
def serve (config : Config) (now : Time) (state : State) (request : Request) : Response × State :=
  match request.write config now state with
  | (.error error,state) => (request.failure error,state)
  | (.ok key,state) =>
    let state := dispatchPending config now state
    (request.read key state,state)

theorem write_state (config : Config) (now : Time) (state : State) (request : Request) :
    (request.write config now state).2 = apply config state (request.access now) := by
  cases request with
  | register | heartbeat => rfl
  | submit req =>
    by_cases model : req.model = []
    · simp [write,access,apply,model]
    · by_cases operation : req.operation = []
      · simp [write,access,apply,model,operation]
      · simp [write,access,apply,model,operation]
  | complete taskID req =>
    by_cases named : taskID = []
    · simp [write,access,apply,named]
    · simp [write,access,apply,named]

private theorem serve_register (config : Config) (now : Time) (state : State)
    (req : RegisterNodeRequest) :
    serve config now state (.register req) =
      (.node (NodeService.register config req now state).1,
        (NodeService.register config req now state).2) := by
  simp only [serve,write,NodeService.register]
  rcases Scheduler.register config req now state with ⟨error | _,next⟩
  · rfl
  · simp only [Except.map,read]
    cases getNode req.id (dispatchPending config now next) <;> rfl

private theorem serve_heartbeat (config : Config) (now : Time) (state : State)
    (req : HeartbeatRequest) :
    serve config now state (.heartbeat req) =
      (.node (NodeService.heartbeat config req now state).1,
        (NodeService.heartbeat config req now state).2) := by
  simp only [serve,write,NodeService.heartbeat]
  rcases Scheduler.heartbeat config req now state with ⟨error | _,next⟩
  · rfl
  · simp only [Except.map,read]
    cases getNode req.id (dispatchPending config now next) <;> rfl

private theorem serve_submit (config : Config) (now : Time) (state : State) (req : SubmitTaskRequest) :
    serve config now state (.submit req) =
      (.task (TaskService.submit config req now state).1,
        (TaskService.submit config req now state).2) := by
  by_cases model : req.model = []
  · simp [serve,write,TaskService.submit,model,failure]
  by_cases operation : req.operation = []
  · simp [serve,write,TaskService.submit,model,operation,failure]
  simp only [serve,write,TaskService.submit,model,operation,if_false,read]
  rcases submitWrite req now state with ⟨taskID,next⟩
  cases getTask taskID (dispatchPending config now next) <;> rfl

private theorem serve_complete (config : Config) (now : Time) (state : State) (taskID : Bytes)
    (req : CompleteTaskRequest) :
    serve config now state (.complete taskID req) =
      (.task (TaskService.complete config taskID req now state).1,
        (TaskService.complete config taskID req now state).2) := by
  by_cases named : taskID = []
  · simp [serve,write,TaskService.complete,named,failure]
  simp only [serve,write,TaskService.complete,named,if_false]
  rcases completeWrite taskID req now state with ⟨error | _,next⟩
  · rfl
  · simp only [Except.map,read]
    cases getTask taskID (dispatchPending config now next) <;> rfl

def call (config : Config) (now : Time) (state : State) : Request → Response × State
  | .register req =>
    let (answer,state) := NodeService.register config req now state
    (.node answer,state)
  | .heartbeat req =>
    let (answer,state) := NodeService.heartbeat config req now state
    (.node answer,state)
  | .submit req =>
    let (answer,state) := TaskService.submit config req now state
    (.task answer,state)
  | .complete taskID req =>
    let (answer,state) := TaskService.complete config taskID req now state
    (.task answer,state)

theorem call_eq_serve (config : Config) (now : Time) (state : State) (request : Request) :
    request.call config now state = request.serve config now state := by
  cases request with
  | register req => exact (serve_register config now state req).symm
  | heartbeat req => exact (serve_heartbeat config now state req).symm
  | submit req => exact (serve_submit config now state req).symm
  | complete taskID req => exact (serve_complete config now state taskID req).symm

end Request

end RdmaPlatform.Scheduler
