import RdmaPlatform.Library.Table
import RdmaPlatform.Library.Decimal

/-! The scheduler's data model: `internal/model`, `internal/storage` and
`internal/util`. Go strings are byte strings, `int` is `Int64`, an instant counts
nanoseconds from the zero time, and a map of pointers is a table whose values
are written in place. -/
namespace RdmaPlatform.Scheduler
open Library

/-- `time.Time` after `.UTC()`, which drops the monotonic reading. -/
abbrev Time := Int

abbrev Duration := Int

/-- `Time.Sub` saturates at the bounds of a duration. -/
def sub (t u : Time) : Duration := max (-2^63) (min (2^63 - 1) (t - u))

def isZero (t : Time) : Bool := t == 0

inductive NodeState where
  | ready
  | busy
  | offline
  deriving DecidableEq

structure Node where
  id : Bytes
  address : Bytes
  capacity : Int64
  labels : List Bytes
  runningTasks : Int64
  status : NodeState
  lastHeartbeat : Time
  deriving DecidableEq

structure RegisterNodeRequest where
  id : Bytes
  address : Bytes
  capacity : Int64
  labels : List Bytes

/-- `status` and `activeTaskIDs` are accepted for compatibility and never read. -/
structure HeartbeatRequest where
  id : Bytes
  runningTasks : Int64
  status : Bytes
  activeTaskIDs : List Bytes

def deriveNodeState (node : Option Node) (now : Time) (offlineAfter : Duration) : NodeState :=
  match node with
  | none => .offline
  | some node =>
    if !isZero node.lastHeartbeat ∧ sub now node.lastHeartbeat > offlineAfter then .offline
    else if node.capacity > 0 ∧ node.runningTasks ≥ node.capacity then .busy
    else .ready

inductive TaskState where
  | pending
  | running
  | completed
  | failed
  deriving DecidableEq

/-- A Go `map[string]string`: `none` is the nil map. -/
abbrev Metadata := Option (Table Bytes Bytes)

/-- Reading an absent key, or any key of the nil map, yields the empty string. -/
def Metadata.get (metadata : Metadata) (key : Bytes) : Bytes :=
  (metadata.bind (fun m => m.lookup key)).getD []

structure Task where
  id : Bytes
  model : Bytes
  operation : Bytes
  payloadRef : Bytes
  metadata : Metadata
  status : TaskState
  assignedWorker : Bytes
  message : Bytes
  createdAt : Time
  startedAt : Option Time
  completedAt : Option Time
  deriving DecidableEq

structure SubmitTaskRequest where
  model : Bytes
  operation : Bytes
  payloadRef : Bytes
  metadata : Metadata

structure CompleteTaskRequest where
  success : Bool
  message : Bytes

def cloneMetadata (input : Metadata) : Metadata :=
  match input with
  | none => none
  | some m => if m.entries.length = 0 then none else some (m.copyIf (fun _ => true))

def cloneTask (task : Task) : Task := {task with metadata := cloneMetadata task.metadata}

structure StatusResponse where
  generatedAt : Time
  totalWorkers : Nat
  activeWorkers : Nat
  pendingTasks : Nat
  runningTasks : Nat
  completedTasks : Nat
  workers : List Node
  tasks : List Task

/-- The shared in-memory state, guarded as a whole by one lock. -/
structure State where
  nodes : Table Bytes Node
  tasks : Table Bytes Task
  nodeOrder : List Bytes
  nextNodeIndex : Int
  taskCounter : UInt64
  deriving DecidableEq

def newMemoryStore : State := ⟨∅,∅,[],0,0⟩

def formatTaskID (counter : UInt64) : Bytes := utf8 "task-" ++ Decimal.padded 6 counter.toNat

theorem formatTaskID_injective : Function.Injective formatTaskID := by
  intro first second equal
  have digits := List.append_cancel_left equal
  exact UInt64.toNat_inj.mp (Decimal.padded_injective 6 digits)

theorem formatTaskID_ne_nil (counter : UInt64) : formatTaskID counter ≠ [] := by
  simp [formatTaskID,utf8]

theorem lookup_cloneMetadata (input : Metadata) (key : Bytes) :
    (cloneMetadata input).bind (fun m => m.lookup key) = input.bind (fun m => m.lookup key) := by
  cases input with
  | none => rfl
  | some m =>
    by_cases empty : m.entries.length = 0
    · have absent : m.lookup key = none := by
        simp [Table.lookup,AList.lookup,List.eq_nil_of_length_eq_zero empty]
      simp [cloneMetadata,empty,absent]
    · simp [cloneMetadata,empty,Table.lookup_copyIf]

inductive Error where
  | workerIdRequired
  | workerNotFound (id : Bytes)
  | modelRequired
  | operationRequired
  | taskIdRequired
  | taskNotFound (id : Bytes)
  deriving DecidableEq

end RdmaPlatform.Scheduler
