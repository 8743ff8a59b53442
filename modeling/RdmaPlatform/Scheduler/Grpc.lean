import RdmaPlatform.Scheduler.Lifecycle

/-! The gRPC front end: `internal/grpcapi`. A task's input source is stored with
its content in `PayloadRef` and its constructor in the task's metadata, under a
reserved key that is removed from everything a client sends or sees. -/
namespace RdmaPlatform.Scheduler.Grpc
open Library

inductive Source where
  | prompt (text : Bytes)
  | payloadRef (ref : Bytes)
  | inlineBytes (bytes : Bytes)
  deriving DecidableEq

structure TaskInput where
  source : Option Source
  deriving DecidableEq

structure TaskSpec where
  model : Bytes
  operation : Bytes
  input : Option TaskInput
  metadata : Metadata
  deriving DecidableEq

def inputSourceMetadataKey : Bytes := utf8 "_scheduler_input_source"
def inputSourcePrompt : Bytes := utf8 "prompt"
def inputSourcePayloadRef : Bytes := utf8 "payload_ref"
def inputSourceInlineBytes : Bytes := utf8 "inline_bytes"

def publicMetadata (input : Metadata) : Table Bytes Bytes :=
  match input with
  | none => ∅
  | some m => if m.entries.length = 0 then ∅ else m.copyIf (fun key => key ≠ inputSourceMetadataKey)

def modelReq (spec : TaskSpec) : SubmitTaskRequest :=
  let metadata := publicMetadata spec.metadata
  match spec.input.bind (·.source) with
  | some (.prompt text) =>
    ⟨spec.model,spec.operation,text,some (metadata.put inputSourceMetadataKey inputSourcePrompt)⟩
  | some (.payloadRef ref) =>
    ⟨spec.model,spec.operation,ref,some (metadata.put inputSourceMetadataKey inputSourcePayloadRef)⟩
  | some (.inlineBytes bytes) =>
    ⟨spec.model,spec.operation,bytes,some (metadata.put inputSourceMetadataKey inputSourceInlineBytes)⟩
  | none => ⟨spec.model,spec.operation,[],some metadata⟩

inductive ProtoTaskState where
  | pending
  | running
  | completed
  | failed

def toProtoTaskState : TaskState → ProtoTaskState
  | .pending => .pending
  | .running => .running
  | .completed => .completed
  | .failed => .failed

inductive ProtoNodeState where
  | ready
  | busy
  | offline

def toProtoNodeState : NodeState → ProtoNodeState
  | .ready => .ready
  | .busy => .busy
  | .offline => .offline

def timestampOrNil (value : Time) : Option Time := if isZero value then none else some value

def timestampPointerOrNil (value : Option Time) : Option Time := value.bind timestampOrNil

structure TaskInfo where
  id : Bytes
  spec : TaskSpec
  state : ProtoTaskState
  assignedWorker : Bytes
  message : Bytes
  createdAt : Option Time
  startedAt : Option Time
  completedAt : Option Time

structure TaskAssignment where
  taskID : Bytes
  spec : TaskSpec
  assignedAt : Option Time

def toTaskSpec (task : Task) : TaskSpec where
  model := task.model
  operation := task.operation
  input :=
    let tag := task.metadata.get inputSourceMetadataKey
    if tag = inputSourcePrompt then some ⟨some (.prompt task.payloadRef)⟩
    else if tag = inputSourceInlineBytes then some ⟨some (.inlineBytes task.payloadRef)⟩
    else some ⟨some (.payloadRef task.payloadRef)⟩
  metadata := some (publicMetadata task.metadata)

def toTaskAssignment (task : Task) : TaskAssignment :=
  ⟨task.id,toTaskSpec task,timestampPointerOrNil task.startedAt⟩

def toTaskInfo (task : Task) : TaskInfo where
  id := task.id
  spec := toTaskSpec task
  state := toProtoTaskState task.status
  assignedWorker := task.assignedWorker
  message := task.message
  createdAt := timestampOrNil task.createdAt
  startedAt := timestampPointerOrNil task.startedAt
  completedAt := timestampPointerOrNil task.completedAt

structure WorkerStatus where
  id : Bytes
  address : Bytes
  capacity : UInt32
  labels : List Bytes
  runningTasks : UInt32
  state : ProtoNodeState
  lastHeartbeat : Option Time

def toWorkerStatus (node : Node) : WorkerStatus where
  id := node.id
  address := node.address
  capacity := node.capacity.toUInt64.toUInt32
  labels := node.labels
  runningTasks := node.runningTasks.toUInt64.toUInt32
  state := toProtoNodeState node.status
  lastHeartbeat := timestampOrNil node.lastHeartbeat

structure ClusterOverview where
  generatedAt : Option Time
  workers : List WorkerStatus
  tasks : List TaskInfo
  totalWorkers : UInt32
  activeWorkers : UInt32
  pendingTasks : UInt32
  runningTasks : UInt32
  completedTasks : UInt32

def toClusterOverview (overview : StatusResponse) : ClusterOverview where
  generatedAt := timestampOrNil overview.generatedAt
  workers := overview.workers.map toWorkerStatus
  tasks := overview.tasks.map toTaskInfo
  totalWorkers := .ofNat overview.totalWorkers
  activeWorkers := .ofNat overview.activeWorkers
  pendingTasks := .ofNat overview.pendingTasks
  runningTasks := .ofNat overview.runningTasks
  completedTasks := .ofNat overview.completedTasks

/-- The `status.Error` values; a service error keeps its cause. -/
inductive Status where
  | specRequired
  | resultRequired
  | taskNotFound
  | workerIDRequired
  | workerNotFound (id : Bytes)
  | invalidArgument (cause : Error)
  | notFound (cause : Error)

/-- The `strings.Contains(err.Error(), "not found")` test. -/
def translate : Error → Status
  | .workerNotFound id => .notFound (.workerNotFound id)
  | .taskNotFound id => .notFound (.taskNotFound id)
  | error => .invalidArgument error

def submitTask (config : Config) (spec : Option TaskSpec) (now : Time) (state : State) :
    Except Status TaskInfo × State :=
  match spec with
  | none => (.error .specRequired,state)
  | some spec =>
    match TaskService.submit config (modelReq spec) now state with
    | (.error error,state) => (.error (.invalidArgument error),state)
    | (.ok task,state) => (.ok (toTaskInfo task),state)

def getTask (taskID : Bytes) (state : State) : Except Status TaskInfo :=
  match Scheduler.getTask taskID state with
  | none => .error .taskNotFound
  | some task => .ok (toTaskInfo task)

def getClusterOverview (config : Config) (now : Time) (state : State) : ClusterOverview × State :=
  let (overview,state) := overview config now state
  (toClusterOverview overview,state)

structure TaskResult where
  taskID : Bytes
  success : Bool
  output : Bytes
  errorMessage : Bytes

/-- The `less` function of `runningAssignments`: a nil start time comes first. -/
def startsBefore (left right : Task) : Prop :=
  match left.startedAt, right.startedAt with
  | none, none => left.id < right.id
  | none, some _ => True
  | some _, none => False
  | some first, some second => if first = second then left.id < right.id else first < second

instance (left right : Task) : Decidable (startsBefore left right) := by
  unfold startsBefore; split <;> infer_instance

def runningAssignments (workerID : Bytes) (state : State) : List Task :=
  ((state.tasks.values.filter (fun task => task.assignedWorker = workerID ∧ task.status = .running)).map
    cloneTask).insertionSort (fun left right => ¬ startsBefore right left)

def sendNew : List Task → List Bytes → List TaskAssignment × List Bytes
  | [], sent => ([],sent)
  | task::rest, sent =>
    if task.id ∈ sent then sendNew rest sent
    else
      let (messages,sent) := sendNew rest (task.id::sent)
      (toTaskAssignment task::messages,sent)

def watchPolls (workerID : Bytes) : List State → List Bytes → List TaskAssignment
  | [], _ => []
  | state::rest, sent =>
    let (messages,sent) := sendNew (runningAssignments workerID state) sent
    messages ++ watchPolls workerID rest sent

/-- A whole stream; `opened`, `initial` and `polls` are the states its reads find. -/
def watchAssignments (workerID : Bytes) (resumeUnacked : Bool) (opened initial : State)
    (polls : List State) :
    Except Status (List TaskAssignment) :=
  if workerID = [] then .error .workerIDRequired
  else
    match opened.nodes.lookup workerID with
    | none => .error (.workerNotFound workerID)
    | some _ =>
      let sent := if resumeUnacked then [] else (runningAssignments workerID initial).map (·.id)
      .ok (watchPolls workerID polls sent)

@[simp] theorem modelReq_model (spec : TaskSpec) : (modelReq spec).model = spec.model := by
  unfold modelReq
  split <;> rfl

@[simp] theorem modelReq_operation (spec : TaskSpec) : (modelReq spec).operation = spec.operation := by
  unfold modelReq
  split <;> rfl

theorem lookup_publicMetadata (input : Metadata) (key : Bytes) :
    (publicMetadata input).lookup key =
      if key = inputSourceMetadataKey then none else input.bind (fun m => m.lookup key) := by
  cases input with
  | none => exact (ite_self none).symm
  | some m =>
    by_cases empty : m.entries.length = 0
    · have absent : m.lookup key = none := by
        simp [Table.lookup,AList.lookup,List.eq_nil_of_length_eq_zero empty]
      simp only [publicMetadata,empty,if_true,Option.bind_some,absent,ite_self]
      rfl
    · rw [publicMetadata,if_neg empty,Table.lookup_copyIf]
      by_cases reserved : key = inputSourceMetadataKey
      · simp [reserved]
      · simp [reserved]

theorem get_cloneMetadata (input : Metadata) (key : Bytes) :
    (cloneMetadata input).get key = input.get key := by
  rw [Metadata.get,Metadata.get,lookup_cloneMetadata]

def Task.content (task : Task) : Bytes × Bytes × Bytes × Metadata :=
  (task.model,task.operation,task.payloadRef,task.metadata)

private theorem moves_content {state : State} {id : Bytes} {step : Section} {task next : Task}
    (moves : Moves state id step task next) : Task.content next = Task.content task := by
  cases moves <;> rfl

def nextTaskID (state : State) : Bytes := formatTaskID (state.taskCounter + 1)

theorem stored_content (config : Config) (before after : List Section) (req : SubmitTaskRequest)
    (now : Time) (bound : submissions (before ++ .submit req now::after) < 2^64)
    (valid : (Section.submit req now).submits = true) :
    ∃ task, (exec config (before ++ .submit req now::after) newMemoryStore).tasks.lookup
        (nextTaskID (exec config before newMemoryStore)) = some task ∧
      Task.content task = Task.content (submitted (nextTaskID (exec config before newMemoryStore))
        req now) := by
  have first : (exec config (before ++ [.submit req now]) newMemoryStore).tasks.lookup
      (nextTaskID (exec config before newMemoryStore)) =
      some (submitted (nextTaskID (exec config before newMemoryStore)) req now) := by
    rw [exec_append]
    change (apply config (exec config before newMemoryStore) (.submit req now)).tasks.lookup _ = _
    rw [submit_apply config _ req now valid]
    simp [submitWrite,nextTaskID,Table.lookup_put]
  rw [List.append_cons] at bound ⊢
  obtain ⟨last,stored,same⟩ := task_history config _ after bound _ _ first
    (fun earlier later => Task.content later = Task.content earlier) (fun _ => rfl)
    (fun _ _ _ early late => late.trans early) (fun _ _ _ _ _ _ _ moves => moves_content moves)
  exact ⟨last,stored,same⟩

def promptSpec : TaskSpec where
  model := utf8 "llama"
  operation := utf8 "generate"
  input := some ⟨some (.prompt (utf8 "hello"))⟩
  metadata := some ((∅ : Table Bytes Bytes).put inputSourceMetadataKey inputSourceInlineBytes)

end RdmaPlatform.Scheduler.Grpc
