import RdmaPlatform.Worker.Custody
import RdmaPlatform.Cluster.System

/-! Whether a worker starts a task again after the scheduler accepted its result.
The scheduler stops resending then, but an item of an older snapshot may still be
under way, and the worker forgets a task when it has reported it. -/
namespace RdmaPlatform.Cluster
open Library Scheduler

def Event.inserts : Event → Bool
  | .work .insertTask => true
  | _ => false

theorem Serves.handover {node next : Worker.Node} {event : Event} (serves : Serves node event next) :
    Worker.Handover event.inserts node.custody next.custody := by
  cases serves with
  | rest => exact .stay _
  | receive index reads task free => exact Worker.handle_handover node task _ free
  | work inner _ taken =>
    have handover := Worker.step_handover taken
    cases inner <;> exact handover
  | postResult index result _ taken => exact Worker.postResult_handover _ taken
  | endBeat body _ taken =>
    rw [Worker.endBeat_inv taken]
    exact .stay _
  | silence body _ taken =>
    rw [Worker.silence_inv taken]
    exact .stay _

theorem Serves.reportArrives_eq {node next : Worker.Node} {index : Nat} {now : Time}
    (serves : Serves node (.reportArrives index now) next) : next = node := by
  cases serves
  rfl

/-- The worker takes in no accepted task whose identifier it has already erased, and
a report is accepted only while its consumer waits for the answer. -/
def NoLateMessage (cluster : System) : Event → Prop
  | .work .insertTask =>
    match cluster.worker.acceptor with
    | .received task => task.id ∈ cluster.worker.activeTaskIds ∨ task.id ∉ cluster.accepted
    | _ => True
  | .reportArrives index _ =>
    ∀ report ∈ cluster.reports[index]?, ∀ _ ∈ decodeComplete report.body,
      accepts report.taskID cluster.store = true → .awaiting report.taskID ∈ cluster.worker.consumers
  | _ => True

def StartsUnaccepted (cluster : System) : Event → Prop
  | .work (.startTask index) =>
    match cluster.worker.consumers[index]? with
    | some (.popped task) => task.id ∉ cluster.accepted
    | _ => True
  | _ => True

structure Settled (cluster : System) : Prop where
  held : cluster.worker.custody.Held
  done : ∀ id ∈ cluster.accepted, cluster.worker.custody.unstarted id = 0

theorem start_settled (id address : Bytes) (threads : Nat) :
    Settled (initial (Worker.Node.start id address threads)) where
  held := Worker.start_held id address threads
  done := by
    intro id member
    cases member

theorem serves_unstarted {cluster : System} {event : Event} {worker : Worker.Node}
    (serves : Serves cluster.worker event worker) (timely : NoLateMessage cluster event) (id : Bytes)
    (accepted : id ∈ cluster.accepted) :
    worker.custody.unstarted id ≤ cluster.worker.custody.unstarted id := by
  apply Worker.handover_unstarted serves.handover
  intro inserts task at_
  have event_eq : event = .work .insertTask := by
    unfold Event.inserts at inserts
    split at inserts
    next => rfl
    next => cases inserts
  subst event_eq
  have received : cluster.worker.acceptor = .received task := at_
  simp only [NoLateMessage,received] at timely
  refine timely.imp (fun active => active) ?_
  intro fresh same
  exact fresh (same ▸ accepted)

theorem step_settled (config : Config) (cluster : System) (event : Event) (next : System)
    (before : Settled cluster) (timely : NoLateMessage cluster event)
    (taken : step config cluster event = some next) : Settled next := by
  have effect := step_effect taken
  have held := Worker.handover_held effect.worker.handover before.held
  refine ⟨held,?_⟩
  intro id member
  rcases effect.accepted with same | ⟨taskID,accepts,added⟩
  · rw [same] at member
    have fewer := serves_unstarted effect.worker timely id member
    have none := before.done id member
    omega
  · rw [added,List.mem_cons] at member
    rcases member with rfl | earlier
    · -- The accepted report's consumer holds the only copy, and that one has been started.
      cases accepts with
      | report index now report req present decoded stored =>
        rw [effect.worker.reportArrives_eq]
        exact Worker.unstarted_of_awaiting before.held (timely report present req decoded stored)
    · have fewer := serves_unstarted effect.worker timely id earlier
      have none := before.done id earlier
      omega

theorem settled_starts (cluster : System) (event : Event) (settled : Settled cluster) :
    StartsUnaccepted cluster event := by
  unfold StartsUnaccepted
  split
  next index =>
    split
    next task popped =>
      intro accepted
      have none := settled.done task.id accepted
      have one := Worker.unstarted_pos popped
      omega
    next => trivial
  next => trivial

/-- In every run without late messages the worker starts no task whose result the
scheduler has accepted from it. -/
theorem no_reexecution (config : Config) (id address : Bytes) (threads : Nat) (events : List Event)
    (timely : Transition.Along (step config) NoLateMessage events
      (initial (Worker.Node.start id address threads))) :
    Transition.Along (step config) StartsUnaccepted events
      (initial (Worker.Node.start id address threads)) :=
  Transition.along_invariant (step_settled config)
    (fun cluster event settled _ => settled_starts cluster event settled) events _
    (start_settled id address threads) timely

instance (cluster : System) (event : Event) : Decidable (NoLateMessage cluster event) := by
  unfold NoLateMessage
  split
  next => split <;> infer_instance
  next => infer_instance
  next => infer_instance

instance (cluster : System) (event : Event) : Decidable (StartsUnaccepted cluster event) := by
  unfold StartsUnaccepted
  split
  next => split <;> infer_instance
  next => infer_instance

def carryOut (now : Time) : List Event :=
  [.receive 0 [.data (utf8 "task-000001|hello\n")],.work .insertTask,.work .pushTask,
    .work (.checkRunning 0),.work (.popTask 0),.work (.startTask 0),.work (.completeTask 0 none),
    .postResult 0,.reportArrives 0 now,.work (.endReport 0),.work (.finishReported 0)]

def singleDelivery : List Event :=
  [registration,submission 2,.store (.dispatchPending 3),.snapshot,.deliver true] ++
    carryOut 4 ++ [.snapshot]

theorem no_reexecution_singleDelivery :
    (Transition.run (step defaultConfig) singleDelivery (initial singleWorker)).map
      (fun final => final.accepted) = some [utf8 "task-000001"] ∧
    Transition.Along (step defaultConfig) StartsUnaccepted singleDelivery (initial singleWorker) :=
  ⟨by decide +kernel,no_reexecution defaultConfig _ _ _ singleDelivery (by decide +kernel)⟩

/-- The deliverer takes its next snapshot while the task is still running and sends
the item when the worker has reported the task and forgotten it. -/
def staleDelivery : List Event :=
  [registration,submission 2,.store (.dispatchPending 3),.snapshot,.deliver true,.snapshot] ++
    carryOut 4 ++ [.deliver true] ++ (carryOut 5).take 6

theorem stale_delivery_reexecutes :
    (Transition.run (step defaultConfig) staleDelivery (initial singleWorker)).map (fun final =>
      (final.accepted,final.worker.consumers)) =
      some ([utf8 "task-000001"],[.executing ⟨utf8 "task-000001",utf8 "hello"⟩]) ∧
    ¬ Transition.Along (step defaultConfig) StartsUnaccepted staleDelivery (initial singleWorker) := by
  decide +kernel

end RdmaPlatform.Cluster
