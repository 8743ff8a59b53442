import RdmaPlatform.Worker.Transport
import RdmaPlatform.Worker.SchedulerClient

/-! The worker process: `worker_node.cpp`, `task_queue.cpp` and `executor.cpp`. Its
threads are the accept thread, the consumers, the heartbeat timer and the one that
stops it. A step is one access to shared data: the set of active task ids and the
queue, each under its lock, and the atomic flag `running_`. -/
namespace RdmaPlatform.Worker
open Library

structure TaskResult where
  taskID : Bytes
  output : Bytes
  success : Bool
  deriving DecidableEq

inductive Exception where
  | standard (what : Bytes)
  | other
  deriving DecidableEq

/-- `FakeModel::infer`; `thrown` is what seeding or running its random generator throws, if it
throws. -/
def infer (prompt : Bytes) (thrown : Option Exception) : Except Exception Bytes :=
  match thrown with
  | none => .ok (utf8 "processed: " ++ prompt)
  | some exception => .error exception

def execute (task : Task) (thrown : Option Exception) : TaskResult :=
  match infer task.prompt thrown with
  | .ok output => ⟨task.id,output,true⟩
  | .error (.standard what) => ⟨task.id,what,false⟩
  | .error .other => ⟨task.id,utf8 "unknown executor error",false⟩

def Exception.text : Exception → Bytes
  | .standard what => what
  | .other => utf8 "unknown executor error"

theorem execute_thrown (task : Task) (exception : Exception) :
    execute task (some exception) = ⟨task.id,exception.text,false⟩ := by
  cases exception <;> rfl

theorem execute_taskID (task : Task) (thrown : Option Exception) :
    (execute task thrown).taskID = task.id := by
  cases thrown with
  | none => rfl
  | some exception => rw [execute_thrown]

/-- Where the accept thread stands in the handler and in `enqueueTask`. -/
inductive Acceptor where
  | idle
  | received (task : Task)
  | inserted (task : Task)
  | refused (task : Task)
  deriving DecidableEq

/-- Where a consumer stands in its loop. -/
inductive Consumer where
  | idle
  | waiting
  | popped (task : Task)
  | executing (task : Task)
  | reporting (result : TaskResult)
  | awaiting (taskID : Bytes)
  | reported (taskID : Bytes)
  | exited
  deriving DecidableEq

/-- The two arguments of `sendHeartbeat`, evaluated in any order. -/
structure Beat where
  runningTasks : Option Int32
  activeTaskIDs : Option (List Bytes)
  deriving DecidableEq

inductive Phase where
  | started
  | flagged
  | silenced
  | closed
  | drained
  deriving DecidableEq

/-- `activeTaskIds` is a set, kept without duplicates. -/
structure Node where
  id : Bytes
  address : Bytes
  running : Bool
  activeTaskIds : List Bytes
  acceptor : Acceptor
  queue : List Task
  stopped : Bool
  consumers : List Consumer
  beat : Option Beat
  phase : Phase
  deriving DecidableEq

def Node.start (id address : Bytes) (threads : Nat) : Node :=
  ⟨id,address,true,[],.idle,[],false,List.replicate threads .idle,none,.started⟩

def runningTaskCount (node : Node) : Int32 := Int32.ofNat node.activeTaskIds.length

def finishTask (taskID : Bytes) (node : Node) : Node :=
  {node with activeTaskIds := node.activeTaskIds.filter (fun id => id ≠ taskID)}

/-- The handler of the transport: a task that arrives after `stop` is dropped. -/
def handle (task : Task) (node : Node) : Node :=
  if node.running then {node with acceptor := .received task} else node

/-- The first critical section of `enqueueTask`. -/
def insertTask (node : Node) : Option Node :=
  match node.acceptor with
  | .received task =>
    if task.id ∈ node.activeTaskIds then some {node with acceptor := .idle}
    else some {node with activeTaskIds := task.id::node.activeTaskIds,acceptor := .inserted task}
  | _ => none

def pushTask (node : Node) : Option Node :=
  match node.acceptor with
  | .inserted task =>
    if node.stopped then some {node with acceptor := .refused task}
    else some {node with queue := node.queue ++ [task],acceptor := .idle}
  | _ => none

def refuseTask (node : Node) : Option Node :=
  match node.acceptor with
  | .refused task => some (finishTask task.id {node with acceptor := .idle})
  | _ => none

def Node.setConsumer (node : Node) (index : Nat) (consumer : Consumer) : Node :=
  {node with consumers := node.consumers.set index consumer}

def checkRunning (index : Nat) (node : Node) : Option Node :=
  match node.consumers[index]? with
  | some .idle => some (node.setConsumer index (if node.running then .waiting else .exited))
  | _ => none

/-- `TaskQueue::waitPop`; an empty queue that is not stopped blocks. -/
def popTask (index : Nat) (node : Node) : Option Node :=
  match node.consumers[index]? with
  | some .waiting =>
    if node.stopped then some (node.setConsumer index .exited)
    else
      match node.queue with
      | [] => none
      | task::rest => some ({node with queue := rest}.setConsumer index (.popped task))
  | _ => none

def startTask (index : Nat) (node : Node) : Option Node :=
  match node.consumers[index]? with
  | some (.popped task) => some (node.setConsumer index (.executing task))
  | _ => none

def completeTask (index : Nat) (thrown : Option Exception) (node : Node) : Option Node :=
  match node.consumers[index]? with
  | some (.executing task) => some (node.setConsumer index (.reporting (execute task thrown)))
  | _ => none

def postResult (index : Nat) (node : Node) : Option (TaskResult × Node) :=
  match node.consumers[index]? with
  | some (.reporting result) => some (result,node.setConsumer index (.awaiting result.taskID))
  | _ => none

/-- The answer has come, or the connection failed. -/
def endReport (index : Nat) (node : Node) : Option Node :=
  match node.consumers[index]? with
  | some (.awaiting taskID) => some (node.setConsumer index (.reported taskID))
  | _ => none

def finishReported (index : Nat) (node : Node) : Option Node :=
  match node.consumers[index]? with
  | some (.reported taskID) => some (finishTask taskID (node.setConsumer index .idle))
  | _ => none

def beginBeat (node : Node) : Option Node :=
  if node.beat = none ∧ node.running then some {node with beat := some ⟨none,none⟩} else none

def countRunning (node : Node) : Option Node :=
  match node.beat with
  | some ⟨none,ids⟩ => some {node with beat := some ⟨some (runningTaskCount node),ids⟩}
  | _ => none

def snapshotActive (node : Node) : Option Node :=
  match node.beat with
  | some ⟨count,none⟩ => some {node with beat := some ⟨count,some node.activeTaskIds⟩}
  | _ => none

def endBeat (node : Node) : Option (Bytes × Node) :=
  match node.beat with
  | some ⟨some count,some ids⟩ => some (heartbeatBody node.id count ids,{node with beat := none})
  | _ => none

def flagStop (node : Node) : Option Node :=
  if node.phase = .started then some {node with running := false,phase := .flagged} else none

/-- The timer is joined and a last heartbeat without tasks is posted. -/
def silence (node : Node) : Option (Bytes × Node) :=
  if node.phase = .flagged ∧ node.beat = none then
    some (heartbeatBody node.id 0 [],{node with phase := .silenced})
  else none

def closeTransport (node : Node) : Option Node :=
  if node.phase = .silenced ∧ node.acceptor = .idle then some {node with phase := .closed} else none

def stopQueue (node : Node) : Option Node :=
  if node.phase = .closed then some {node with phase := .drained,stopped := true} else none

/-- The steps of the process that send no message. -/
inductive Local where
  | insertTask
  | pushTask
  | refuseTask
  | checkRunning (index : Nat)
  | popTask (index : Nat)
  | startTask (index : Nat)
  | completeTask (index : Nat) (thrown : Option Exception)
  | endReport (index : Nat)
  | finishReported (index : Nat)
  | beginBeat
  | countRunning
  | snapshotActive
  | flagStop
  | closeTransport
  | stopQueue
  deriving DecidableEq

/-- What the model throws in a step. -/
def Local.throws : Local → Option Exception
  | .completeTask _ thrown => thrown
  | _ => none

def Node.step (node : Node) : Local → Option Node
  | .insertTask => insertTask node
  | .pushTask => pushTask node
  | .refuseTask => refuseTask node
  | .checkRunning index => checkRunning index node
  | .popTask index => popTask index node
  | .startTask index => startTask index node
  | .completeTask index thrown => completeTask index thrown node
  | .endReport index => endReport index node
  | .finishReported index => finishReported index node
  | .beginBeat => beginBeat node
  | .countRunning => countRunning node
  | .snapshotActive => snapshotActive node
  | .flagStop => flagStop node
  | .closeTransport => closeTransport node
  | .stopQueue => stopQueue node

theorem postResult_inv {node next : Node} {index : Nat} {result : TaskResult}
    (taken : postResult index node = some (result,next)) :
    node.consumers[index]? = some (.reporting result) ∧
      next = node.setConsumer index (.awaiting result.taskID) := by
  simp only [postResult] at taken
  split at taken
  next sent at_ => cases taken; exact ⟨at_,rfl⟩
  next => cases taken

theorem endBeat_inv {node next : Node} {body : Bytes} (taken : endBeat node = some (body,next)) :
    next = {node with beat := none} := by
  simp only [endBeat] at taken
  split at taken <;> cases taken
  rfl

theorem silence_inv {node next : Node} {body : Bytes} (taken : silence node = some (body,next)) :
    next = {node with phase := .silenced} := by
  simp only [silence] at taken
  split at taken <;> cases taken
  rfl

theorem Node.step_id {node next : Node} {inner : Local} (taken : node.step inner = some next) :
    next.id = node.id := by
  cases inner <;>
    simp only [step,insertTask,pushTask,refuseTask,checkRunning,popTask,startTask,
      completeTask,endReport,finishReported,beginBeat,countRunning,snapshotActive,flagStop,
      closeTransport,stopQueue] at taken <;>
    (repeat' split at taken) <;> cases taken <;> rfl

end RdmaPlatform.Worker
