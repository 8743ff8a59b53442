import RdmaPlatform.Scheduler.Service

/-! The assignment deliverer: `internal/monitor/deliverer.go`. A cycle reads the
running assignments under the store lock and then sends them one by one, each as
one line over a connection of its own. -/
namespace RdmaPlatform.Scheduler
open Library

structure Assignment where
  taskID : Bytes
  payload : Bytes
  address : Bytes
  deriving DecidableEq

def Assignment.before (left right : Assignment) : Prop :=
  if left.address = right.address then left.taskID < right.taskID else left.address < right.address

instance (left right : Assignment) : Decidable (left.before right) := by
  unfold Assignment.before; infer_instance

/-- The assignment of a task that is to be delivered, if it is. -/
def assignmentOf (state : State) (task : Task) : Option Assignment :=
  if task.status ≠ .running ∨ task.assignedWorker = [] then none
  else
    match state.nodes.lookup task.assignedWorker with
    | none => none
    | some node => if node.address = [] then none else some ⟨task.id,task.payloadRef,node.address⟩

def snapshotAssignments (state : State) : List Assignment :=
  (state.tasks.values.filterMap (assignmentOf state)).insertionSort
    (fun left right => ¬ right.before left)

def Assignment.frame (item : Assignment) : Bytes := item.taskID ++ utf8 "|" ++ item.payload ++ utf8 "\n"

end RdmaPlatform.Scheduler
