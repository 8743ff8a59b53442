import RdmaPlatform.Cluster.Results
import RdmaPlatform.Worker.Shutdown
import RdmaPlatform.Scheduler.Redelivery

/-! Whether a running task can still be brought to its end. A worker that has not begun to
stop can work off what it has taken in, and the deliverer resends every running task; so
the scheduler, the network and the worker need no help from outside, unless the answer
holds a control character that the report does not carry. -/
namespace RdmaPlatform.Worker
open Library

/-- The worker has not begun to stop, and no consumer has left its loop. -/
structure Node.Live (node : Node) : Prop where
  phase : node.phase = .started
  running : node.running = true
  unstopped : node.stopped = false
  loops : .exited ∉ node.consumers

theorem Node.Live.setConsumer {node : Node} {consumer : Consumer} (live : node.Live) (index : Nat)
    (loops : consumer ≠ .exited) : (node.setConsumer index consumer).Live where
  phase := live.phase
  running := live.running
  unstopped := live.unstopped
  loops exited := (List.mem_or_eq_of_mem_set exited).elim live.loops (fun same => loops same.symm)

/-- A worker that has not begun to stop had not begun before the step either. -/
theorem step_live {node next : Node} {inner : Local} (taken : node.step inner = some next)
    (live : node.phase = .started → node.Live) (started : next.phase = .started) : next.Live := by
  cases inner with
  | insertTask | pushTask | refuseTask =>
    simp only [Node.step,insertTask,pushTask,refuseTask] at taken
    split at taken
    next =>
      try split at taken
      all_goals
        cases taken
        have before := live started
        exact ⟨before.phase,before.running,before.unstopped,before.loops⟩
    next => cases taken
  | checkRunning index =>
    simp only [Node.step,checkRunning] at taken
    split at taken <;> cases taken
    have before := live started
    rw [before.running]
    exact before.setConsumer index Consumer.noConfusion
  | popTask index =>
    simp only [Node.step,popTask] at taken
    split at taken
    next =>
      split at taken
      next stopped =>
        cases taken
        have before := live started
        rw [before.unstopped] at stopped
        cases stopped
      next =>
        split at taken <;> cases taken
        have before := live started
        have shorter (rest : List Task) : Node.Live {node with queue := rest} :=
          ⟨before.phase,before.running,before.unstopped,before.loops⟩
        exact (shorter _).setConsumer index Consumer.noConfusion
    next => cases taken
  | startTask index | completeTask index thrown | endReport index =>
    simp only [Node.step,startTask,completeTask,endReport] at taken
    split at taken <;> cases taken
    exact (live started).setConsumer index Consumer.noConfusion
  | finishReported index =>
    simp only [Node.step,finishReported] at taken
    split at taken <;> cases taken
    have moved := (live started).setConsumer index (Consumer.noConfusion : Consumer.idle ≠ .exited)
    exact ⟨moved.phase,moved.running,moved.unstopped,moved.loops⟩
  | beginBeat | countRunning | snapshotActive =>
    simp only [Node.step,beginBeat,countRunning,snapshotActive] at taken
    split at taken <;> cases taken
    have before := live started
    exact ⟨before.phase,before.running,before.unstopped,before.loops⟩
  | flagStop | closeTransport | stopQueue =>
    simp only [Node.step,flagStop,closeTransport,stopQueue] at taken
    split at taken <;> cases taken
    cases started

/-- The steps of `stop`. -/
def Local.stops : Local → Bool
  | .flagStop | .closeTransport | .stopQueue => true
  | _ => false

theorem step_address {node next : Node} {inner : Local} (taken : node.step inner = some next) :
    next.address = node.address ∧ next.consumers.length = node.consumers.length ∧
      (inner.stops = false → next.phase = node.phase) := by
  cases inner <;>
    simp only [Node.step,insertTask,pushTask,refuseTask,checkRunning,popTask,startTask,
      completeTask,endReport,finishReported,beginBeat,countRunning,snapshotActive,flagStop,
      closeTransport,stopQueue] at taken <;>
    (repeat' split at taken) <;> cases taken <;>
    simp [Node.setConsumer,finishTask,Local.stops]

theorem stops_of_serves {inner : Local} (serves : inner.serves = true) : inner.stops = false := by
  cases inner <;> first | rfl | cases serves

/-- All threads wait for the next task. -/
structure Node.Rests (node : Node) : Prop where
  acceptor : node.acceptor = .idle
  queue : node.queue = []
  consumers : ∀ consumer ∈ node.consumers, consumer = .waiting

/-- A worker with tasks in hand can go on with one of them. -/
theorem goes_on {node : Node} (live : node.Live) (staffed : node.consumers ≠ []) (busy : ¬ node.Rests) :
    (∃ inner next, (inner.serves = true ∧ inner.throws = none) ∧ node.step inner = some next) ∨
      ∃ index result next, postResult index node = some (result,next) := by
  by_cases free : node.acceptor = .idle
  · by_cases waits : ∀ consumer ∈ node.consumers, consumer = .waiting
    · cases front : node.queue with
      | nil => exact absurd ⟨free,front,waits⟩ busy
      | cons task rest =>
        obtain ⟨first,others,all⟩ := List.exists_cons_of_ne_nil staffed
        have at_ : node.consumers[0]? = some .waiting := by
          rw [all,← waits first (by simp [all])]
          rfl
        exact .inl ⟨.popTask 0,_,⟨rfl,rfl⟩,
          by simp only [Node.step,popTask,at_,live.unstopped,front]; rfl⟩
    · simp only [not_forall] at waits
      obtain ⟨consumer,member,busy⟩ := waits
      obtain ⟨index,at_⟩ := List.mem_iff_getElem?.mp member
      have alive : consumer ≠ .exited := fun same => live.loops (same ▸ member)
      exact (consumer_moves at_ busy alive).imp (fun moves => moves) (fun posts => ⟨index,posts⟩)
  · exact .inl (acceptor_moves free)

/-- The identifiers of a process at rest are all forgotten. -/
theorem rests_active {node : Node} (held : node.custody.Held) (rests : node.Rests) :
    node.activeTaskIds = [] := by
  refine List.eq_nil_iff_forall_not_mem.mpr (fun id active => ?_)
  have one : node.custody.holding id = 1 := (held id).trans (if_pos active)
  have consumers : occurrences Consumer.holder id node.consumers = 0 := by
    refine List.sum_eq_zero (fun count member => ?_)
    obtain ⟨consumer,here,rfl⟩ := List.mem_map.mp member
    rw [rests.consumers consumer here]
    rfl
  have none : node.custody.holding id = 0 := by
    simp only [Custody.holding,Custody.tally,Node.custody,rests.acceptor,rests.queue,consumers]
    rfl
  omega

/-- The steps in which a process at rest takes in a task and computes its result. -/
def serving : List Local := [.insertTask,.pushTask,.popTask 0,.startTask 0,.completeTask 0 none]

theorem rests_serving {node : Node} (live : node.Live) (held : node.custody.Held) (rests : node.Rests)
    (staffed : node.consumers ≠ []) (task : Task) :
    ∃ next, Transition.run Node.step serving (handle task node) = some next ∧
      next.consumers[0]? = some (.reporting (execute task none)) := by
  have active := rests_active held rests
  obtain ⟨first,others,all⟩ := List.exists_cons_of_ne_nil staffed
  have waits : first = .waiting := rests.consumers first (by simp [all])
  obtain ⟨_,running,unstopped,_⟩ := live
  obtain ⟨acceptor,queue,_⟩ := rests
  obtain ⟨id,address,_,_,_,_,_,_,beat,phase⟩ := node
  cases running
  cases unstopped
  cases acceptor
  cases queue
  cases active
  cases all
  cases waits
  exact ⟨_,rfl,rfl⟩

end RdmaPlatform.Worker

namespace RdmaPlatform.Cluster
open Library Scheduler

/-- A step of the deliverer, of the network or of the worker at work. -/
def Event.own : Event → Bool
  | .store _ | .silence | .loseFrame _ | .loseHeartbeat _ | .loseReport _ => false
  | .work inner => !inner.stops
  | .snapshot | .deliver _ | .receive _ _ | .postResult _ | .endBeat | .heartbeatArrives _ _
  | .reportArrives _ _ => true

/-- The platform goes on by itself, reads every frame to its end and throws nothing. -/
def Unaided (cluster : System) (event : Event) : Prop :=
  (event.own = true ∧ event.throws = none) ∧ Faithful true cluster event

/-- What every run keeps of the worker. -/
structure Staffed (address : Bytes) (threads : Nat) (worker : Worker.Node) : Prop where
  address : worker.address = address
  threads : worker.consumers.length = threads
  live : worker.phase = .started → worker.Live
  held : worker.custody.Held

section Workers
open Worker

variable {address : Bytes} {threads : Nat} {node next : Worker.Node}

theorem start_staffed (id address : Bytes) (threads : Nat) :
    Staffed address threads (Node.start id address threads) where
  address := rfl
  threads := List.length_replicate
  live _ := ⟨rfl,rfl,rfl,fun exited => by cases List.eq_of_mem_replicate exited⟩
  held := start_held id address threads

theorem Staffed.serves {event : Event} (staffed : Staffed address threads node)
    (serves : Serves node event next) :
    Staffed address threads next := by
  have held := handover_held serves.handover staffed.held
  cases serves with
  | rest => exact staffed
  | receive index reads task free =>
    unfold handle at held ⊢
    split at held
    next running =>
      rw [if_pos running]
      refine ⟨staffed.address,staffed.threads,fun started => ?_,held⟩
      have live := staffed.live started
      exact ⟨live.phase,live.running,live.unstopped,live.loops⟩
    next stopped =>
      rw [if_neg stopped]
      exact staffed
  | work inner _ taken =>
    obtain ⟨place,count,_⟩ := step_address taken
    exact ⟨place.trans staffed.address,count.trans staffed.threads,step_live taken staffed.live,held⟩
  | postResult index result _ taken =>
    obtain ⟨_,rfl⟩ := postResult_inv taken
    exact ⟨staffed.address,by simpa [Node.setConsumer] using staffed.threads,
      fun started => (staffed.live started).setConsumer index Consumer.noConfusion,held⟩
  | endBeat body _ taken =>
    have same := endBeat_inv taken
    subst same
    refine ⟨staffed.address,staffed.threads,fun started => ?_,held⟩
    have live := staffed.live started
    exact ⟨live.phase,live.running,live.unstopped,live.loops⟩
  | silence body _ taken =>
    have same := silence_inv taken
    subst same
    exact ⟨staffed.address,staffed.threads,Phase.noConfusion,held⟩

end Workers

section Drain
open Worker

variable {config : Config} {cluster : System}

/-- Where the worker works off its tasks, the rest of the system stands still. -/
structure Drains (store : State) (address : Bytes) (threads : Nat) (cluster : System) : Prop where
  store : cluster.store = store
  worker : Staffed address threads cluster.worker
  started : cluster.worker.phase = .started

theorem drains_nearer {store : State} {address : Bytes} {threads : Nat} (manned : 0 < threads)
    (drains : Drains store address threads cluster) :
    (cluster.outbox = [] ∧ cluster.worker.Rests) ∨
      ∃ next, Transition.Moves (step config) Unaided cluster next ∧
        Drains store address threads next ∧
        next.outbox.length + next.worker.effort < cluster.outbox.length + cluster.worker.effort := by
  have live := drains.worker.live drains.started
  have some_ : cluster.worker.consumers ≠ [] :=
    List.ne_nil_of_length_pos (by rw [drains.worker.threads]; exact manned)
  cases queued : cluster.outbox with
  | cons item rest =>
    refine .inr ⟨{cluster with outbox := rest},⟨.deliver false,⟨⟨rfl,rfl⟩,trivial⟩,?_⟩,
      ⟨drains.store,drains.worker,drains.started⟩,?_⟩
    · simp [step,queued]
    · simp only [List.length_cons]
      omega
  | nil =>
    by_cases rests : cluster.worker.Rests
    · exact .inl ⟨rfl,rests⟩
    · rcases goes_on live some_ rests with ⟨inner,worker,⟨serves,unthrown⟩,taken⟩ |
        ⟨index,result,worker,posted⟩
      · have works := stops_of_serves serves
        have less := step_effort taken (by rintro rfl; cases serves)
        have moved : step config cluster (.work inner) = some {cluster with worker := worker} := by
          simp only [step,taken,Option.map_some]
        refine .inr ⟨_,⟨.work inner,⟨⟨by simp [Event.own,works],unthrown⟩,trivial⟩,moved⟩,
          ⟨drains.store,?_,?_⟩,?_⟩
        · exact drains.worker.serves (step_effect moved).worker
        · exact ((step_address taken).2.2 works).trans drains.started
        · simpa [queued] using less
      · have less := postResult_effort posted
        have moved : step config cluster (.postResult index) = some {cluster with
            worker := worker
            reports := cluster.reports ++
              [⟨result.taskID,resultBody result.success result.output⟩]} := by
          simp only [step,posted,Option.map_some]
        refine .inr ⟨_,⟨.postResult index,⟨⟨rfl,rfl⟩,trivial⟩,moved⟩,
          ⟨drains.store,?_,?_⟩,?_⟩
        · exact drains.worker.serves (step_effect moved).worker
        · rw [(postResult_inv posted).2]
          exact drains.started
        · simpa [queued] using less

theorem drain (config : Config) {address : Bytes} {threads : Nat} (manned : 0 < threads)
    (worker : Staffed address threads cluster.worker) (started : cluster.worker.phase = .started) :
    ∃ final, Relation.ReflTransGen (Transition.Moves (step config) Unaided) cluster final ∧
      Drains cluster.store address threads final ∧ final.outbox = [] ∧ final.worker.Rests :=
  Transition.exists_path (fun cluster => cluster.outbox.length + cluster.worker.effort)
    (fun _ drains => drains_nearer manned drains) cluster ⟨rfl,worker,started⟩

end Drain

section Delivery
open Worker

variable (config : Config) (cluster : System)

theorem exists_delivers (bytes : Bytes) : ∃ reads, Delivers reads bytes ∧ dataOf reads = bytes := by
  induction bytes with
  | nil => exact ⟨[.closed],.closed,rfl⟩
  | cons byte rest ih =>
    obtain ⟨reads,delivers,data⟩ := ih
    refine ⟨.data [byte]::reads,.data [byte] reads rest (by simp) (by simp) delivers,?_⟩
    change byte::dataOf reads = byte::rest
    rw [data]

theorem skip_path (before : List Assignment) {after : List Assignment}
    (queued : cluster.outbox = before ++ after) :
    Relation.ReflTransGen (Transition.Moves (step config) Unaided) cluster
      {cluster with outbox := after} := by
  induction before generalizing cluster with
  | nil =>
    have same : {cluster with outbox := after} = cluster := by
      rw [← show cluster.outbox = after from queued]
    rw [same]
  | cons item rest ih =>
    have moved : step config cluster (.deliver false) =
        some {cluster with outbox := rest ++ after} := by
      simp [step,queued]
    exact .head ⟨.deliver false,⟨⟨rfl,rfl⟩,trivial⟩,moved⟩ (ih _ rfl)

theorem work_path {inners : List Local} {worker : Worker.Node}
    (works : ∀ inner ∈ inners, inner.stops = false ∧ inner.throws = none)
    (ran : Transition.run Node.step inners cluster.worker = some worker) :
    Relation.ReflTransGen (Transition.Moves (step config) Unaided) cluster
      {cluster with worker := worker} := by
  induction inners generalizing cluster with
  | nil =>
    cases ran
    exact .refl
  | cons inner rest ih =>
    obtain ⟨next,taken,later⟩ := Option.bind_eq_some_iff.mp ran
    have moved : step config cluster (.work inner) = some {cluster with worker := next} := by
      simp only [step,taken,Option.map_some]
    exact .head ⟨.work inner,⟨⟨by simp [Event.own,works inner],(works inner List.mem_cons_self).2⟩,
      trivial⟩,moved⟩ (ih _ (fun other member => works other (List.mem_cons_of_mem _ member)) later)

/-- A running task whose worker has an address is delivered with the next snapshot. -/
theorem snapshot_path {item : Assignment} (listed : item ∈ snapshotAssignments cluster.store)
    (here : item.address = cluster.worker.address) (empty : cluster.outbox = []) :
    ∃ rest, Relation.ReflTransGen (Transition.Moves (step config) Unaided) cluster
      {cluster with outbox := rest,frames := cluster.frames ++ [item.frame]} := by
  obtain ⟨before,after,split⟩ := List.append_of_mem listed
  have taken : step config cluster .snapshot =
      some {cluster with outbox := snapshotAssignments cluster.store} := by
    simp only [step,empty,if_true]
  have sent : step config {cluster with outbox := item::after} (.deliver true) =
      some {cluster with outbox := after,frames := cluster.frames ++ [item.frame]} := by
    simp only [step,here,and_self,if_true]
  exact ⟨after,.head ⟨.snapshot,⟨⟨rfl,rfl⟩,trivial⟩,taken⟩
    ((skip_path config _ before split).tail ⟨.deliver true,⟨⟨rfl,rfl⟩,trivial⟩,sent⟩)⟩

/-- The last frame is read to its end. -/
theorem receive_path {frames : List Bytes} {item : Assignment}
    (last : cluster.frames = frames ++ [item.frame]) (rests : cluster.worker.Rests)
    (started : cluster.worker.phase = .started) (plain : newline ∉ item.taskID)
    (single : bar ∉ item.taskID) (named : item.taskID ≠ []) :
    Transition.Moves (step config) Unaided cluster {cluster with
      frames := frames
      worker := handle ⟨item.taskID,stripReturn (firstLine item.payload)⟩ cluster.worker} := by
  obtain ⟨reads,delivers,data⟩ := exists_delivers item.frame
  have present : cluster.frames[frames.length]? = some item.frame := by
    rw [last]
    exact List.getElem?_concat_length
  have left : cluster.frames.eraseIdx frames.length = frames := by
    rw [last,List.eraseIdx_append_of_length_le (Nat.le_refl _),Nat.sub_self]
    exact List.append_nil _
  have handled : handleClient reads = [⟨item.taskID,stripReturn (firstLine item.payload)⟩] := by
    rw [handleClient_eq_parseTask delivers,firstLine_frame item plain,
      parseTask_append item.taskID _ named single]
    rfl
  refine ⟨.receive frames.length reads,⟨⟨rfl,rfl⟩,fun _ frame shown => ?_⟩,?_⟩
  · obtain rfl : item.frame = frame := Option.some.inj (present.symm.trans shown)
    exact receive_firstLine reads item.frame [] delivers (List.not_mem_nil)
  · simp [step,receiveFrame,present,data,rests.acceptor,started,handled,left]

theorem report_arrives {reports : List Report} {report : Report} {req : CompleteTaskRequest}
    (now : Time) (last : cluster.reports = reports ++ [report])
    (decoded : decodeComplete report.body = some req) :
    ∃ final, Transition.Moves (step config) Unaided cluster final ∧
      final.store = apply config cluster.store (.complete report.taskID req now) := by
  have present : cluster.reports[reports.length]? = some report := by
    rw [last]
    exact List.getElem?_concat_length
  refine ⟨_,⟨.reportArrives reports.length now,⟨⟨rfl,rfl⟩,trivial⟩,by rw [step,present]; rfl⟩,
    ?_⟩
  simp only [receiveReport,decoded]

/-- The result of the first consumer is posted, and its report arrives. -/
theorem report_path {task : Worker.Task}
    (reporting : cluster.worker.consumers[0]? = some (.reporting (execute task none)))
    (printable : Printable (utf8 "processed: " ++ task.prompt)) (now : Time) :
    ∃ final, Relation.ReflTransGen (Transition.Moves (step config) Unaided) cluster final ∧
      final.store = apply config cluster.store
        (.complete task.id ⟨true,Utf8.toValid (utf8 "processed: " ++ task.prompt)⟩ now) := by
  have posted : step config cluster (.postResult 0) = some {cluster with
      worker := cluster.worker.setConsumer 0 (.awaiting task.id)
      reports := cluster.reports ++
        [⟨task.id,resultBody true (utf8 "processed: " ++ task.prompt)⟩]} := by
    simp only [step,postResult,reporting,Option.map_some]
    rfl
  have decoded := decodeComplete_resultBody true (utf8 "processed: " ++ task.prompt)
  rw [if_pos printable] at decoded
  obtain ⟨final,arrives,stored⟩ := report_arrives config {cluster with
    worker := cluster.worker.setConsumer 0 (.awaiting task.id)
    reports := cluster.reports ++ [⟨task.id,resultBody true (utf8 "processed: " ++ task.prompt)⟩]}
      now rfl decoded
  exact ⟨final,.head ⟨.postResult 0,⟨⟨rfl,rfl⟩,trivial⟩,posted⟩ (.single arrives),stored⟩

end Delivery

section Completion

theorem snapshot_lists {store : State} {id : Bytes} {task : Scheduler.Task} {node : Scheduler.Node}
    (formed : WellFormed store) (found : store.tasks.lookup id = some task)
    (running : task.status = .running) (placed : store.nodes.lookup task.assignedWorker = some node)
    (addressed : node.address ≠ []) :
    ⟨id,task.payloadRef,node.address⟩ ∈ snapshotAssignments store :=
  (mem_snapshot_iff formed found running placed rfl).mpr ⟨addressed,rfl⟩

theorem run_staffed {config : Config} {id address : Bytes} {threads : Nat} {events : List Event}
    {final : System}
    (ran : Transition.run (step config) events (initial (Worker.Node.start id address threads)) =
      some final) :
    Staffed address threads final.worker :=
  Transition.run_kept (fun _ _ _ (staffed : Staffed address threads _) taken =>
    staffed.serves (step_effect taken).worker) events _ final (start_staffed id address threads) ran

theorem completion_path {config : Config} {cluster : System} {address id : Bytes} {threads : Nat}
    {task : Scheduler.Task} {node : Scheduler.Node} (manned : 0 < threads)
    (worker : Staffed address threads cluster.worker) (started : cluster.worker.phase = .started)
    (formed : WellFormed cluster.store) (issued : Issued cluster.store)
    (found : cluster.store.tasks.lookup id = some task) (running : task.status = .running)
    (placed : cluster.store.nodes.lookup task.assignedWorker = some node)
    (here : node.address = address) (addressed : address ≠ [])
    (printable : Worker.Printable (utf8 "processed: " ++
      Worker.stripReturn (Worker.firstLine task.payloadRef)))
    (now : Time) :
    ∃ final, Relation.ReflTransGen (Transition.Moves (step config) Unaided) cluster final ∧
      final.store.tasks.lookup id = some (completed ⟨true,Utf8.toValid (utf8 "processed: " ++
        Worker.stripReturn (Worker.firstLine task.payloadRef))⟩ now task) := by
  obtain ⟨counter,_,named⟩ := issued id task found
  have nonempty : id ≠ [] := named ▸ formatTaskID_ne_nil counter
  have plain (byte : UInt8) (special : byte = Worker.newline ∨ byte = Worker.bar) : byte ∉ id :=
    named ▸ Worker.formatTaskID_plain counter byte special
  -- Work off what is there, resend the task, read it, compute the result and report it.
  obtain ⟨idle,drained,drains,empty,rests⟩ := drain config manned worker started
  have listed : ⟨id,task.payloadRef,node.address⟩ ∈ snapshotAssignments idle.store := by
    rw [drains.store]
    exact snapshot_lists formed found running placed (here ▸ addressed)
  obtain ⟨rest,sent⟩ := snapshot_path config idle listed (here.trans drains.worker.address.symm) empty
  have received := receive_path config {idle with
    outbox := rest
    frames := idle.frames ++ [Assignment.frame ⟨id,task.payloadRef,node.address⟩]} rfl rests
      drains.started
    (plain _ (.inl rfl)) (plain _ (.inr rfl)) nonempty
  obtain ⟨next,served,reporting⟩ := Worker.rests_serving (drains.worker.live drains.started)
    drains.worker.held rests (List.ne_nil_of_length_pos (by rw [drains.worker.threads]; exact manned))
    ⟨id,Worker.stripReturn (Worker.firstLine task.payloadRef)⟩
  have worked := work_path config {idle with
    outbox := rest
    worker := Worker.handle ⟨id,Worker.stripReturn (Worker.firstLine task.payloadRef)⟩ idle.worker}
      (by decide) served
  obtain ⟨final,reported,stored⟩ := report_path config {idle with
    outbox := rest
    worker := next} reporting printable now
  refine ⟨final,drained.trans (sent.trans (.head received (worked.trans reported))),?_⟩
  rw [stored,show ({idle with outbox := rest,worker := next} : System).store =
    cluster.store from drains.store]
  exact complete_lookup config nonempty found _ now

theorem run_formed {config : Config} {worker : Worker.Node} {events : List Event} {final : System}
    (bounded : events.countP Event.submits < 2^64)
    (ran : Transition.run (step config) events (initial worker) = some final) :
    WellFormed final.store ∧ Issued final.store := by
  have unused := start_unused config worker bounded
  refine Transition.run_invariant
    (fun cluster event next (before : WellFormed cluster.store ∧ Issued cluster.store) unused
    taken => ?_) events _ final ⟨newMemoryStore_wellFormed,newMemoryStore_issued⟩ unused ran
  have trail := (store_trail before.1 before.2 unused taken).1
  exact ⟨trail.wellFormed,trail.issued⟩

/-- A task that was running and whose answer cannot be reported stays running, unless the model
throws. -/
theorem unprintable_running {config : Config} {cluster final : System} {id : Bytes}
    {task : Scheduler.Task} {thrown : Worker.Exception → Prop} {more : List Event}
    (genuine : Genuine true thrown cluster) (found : cluster.store.tasks.lookup id = some task)
    (running : task.status = .running)
    (unprintable : ¬ Worker.Printable (utf8 "processed: " ++
      Worker.stripReturn (Worker.firstLine task.payloadRef)))
    (unused : Transition.Along (step config) Unused more cluster)
    (faithful : Transition.Along (step config) (Faithful true) more cluster)
    (counted : ∀ event ∈ more, ∀ exception ∈ event.throws, thrown exception)
    (ran : Transition.run (step config) more cluster = some final) :
    ∃ later, final.store.tasks.lookup id = some later ∧
      (later.status = .running ∨ later.status = .failed ∧ ∃ exception, thrown exception) := by
  have kept (current : System) (event : Event) (next : System)
      (before : Genuine true thrown current ∧ ∃ later, current.store.tasks.lookup id = some later ∧
        task.SameOrigin later ∧ task.Later later)
      (allowed : (Unused current event ∧ Faithful true current event) ∧
        ∀ exception ∈ event.throws, thrown exception)
      (taken : step config current event = some next) :
      Genuine true thrown next ∧ ∃ later, next.store.tasks.lookup id = some later ∧
        task.SameOrigin later ∧ task.Later later := by
    obtain ⟨genuine,now,here,origin,history⟩ := before
    obtain ⟨later,stored,same,after⟩ := step_kept genuine.formed genuine.issued allowed.1.1 taken here
    exact ⟨genuine_step genuine allowed.1.1 allowed.1.2 allowed.2 taken,later,stored,
      origin.trans same,history.trans after⟩
  obtain ⟨last,later,stored,origin,history⟩ := Transition.run_invariant kept more cluster final
    ⟨genuine,task,found,.refl task,.refl task⟩
      ((unused.and faithful).and (Transition.along_of_forall counted _)) ran
  refine ⟨later,stored,?_⟩
  cases status : later.status with
  | running => exact .inl rfl
  | pending =>
    have pending := history.pending status
    rw [running] at pending
    cases pending
  | completed | failed =>
    have finished : later.Finished := by simp [Task.Finished,status]
    rcases (last.recorded id later stored finished).result with ⟨_,prompt,⟨front,_,whole,read⟩,
      printable,_⟩ | ⟨failed,exception,caught,_⟩
    · rw [read,whole rfl,origin.payloadRef] at printable
      exact absurd printable unprintable
    · exact .inr ⟨status.symm.trans failed,exception,caught⟩

/-- From every reachable state, a task that runs on a worker which has not begun to stop can
be completed by the platform alone: the deliverer, the network and the worker go on, nobody
else does anything, and the answer to its payload is stored. It cannot be if the answer holds
a control character that a report does not carry: as long as frames are read to their end and
workers alone report, it then runs for ever, unless the model throws. -/
theorem running_task_completes (config : Config) (id address : Bytes) (threads : Nat)
    (events : List Event) (cluster : System) (bounded : events.countP Event.submits < 2^64)
    (manned : 0 < threads) (addressed : address ≠ [])
    (ran : Transition.run (step config) events (initial (Worker.Node.start id address threads)) =
      some cluster)
    (started : cluster.worker.phase = .started) (taskID : Bytes) (task : Scheduler.Task)
    (node : Scheduler.Node) (found : cluster.store.tasks.lookup taskID = some task)
    (running : task.status = .running)
    (placed : cluster.store.nodes.lookup task.assignedWorker = some node)
    (here : node.address = address) :
    let answer := utf8 "processed: " ++ Worker.stripReturn (Worker.firstLine task.payloadRef)
    (Worker.Printable answer → ∀ now, ∃ more final,
      Transition.Along (step config) Unaided more cluster ∧
      Transition.run (step config) more cluster = some final ∧
      final.store.tasks.lookup taskID = some (completed ⟨true,Utf8.toValid answer⟩ now task)) ∧
    (¬ Worker.Printable answer →
      Transition.Along (step config) (Faithful true) events
        (initial (Worker.Node.start id address threads)) →
      ∀ more final, (events ++ more).countP Event.submits < 2^64 →
        Transition.Along (step config) (Faithful true) more cluster →
        Transition.run (step config) more cluster = some final →
        ∃ later, final.store.tasks.lookup taskID = some later ∧
          (later.status = .running ∨
            later.status = .failed ∧ ∃ exception, Thrown (events ++ more) exception)) := by
  intro answer
  refine ⟨fun printable now => ?_,fun unprintable faithful more final room later reached => ?_⟩
  · obtain ⟨formed,issued⟩ := run_formed bounded ran
    obtain ⟨final,path,stored⟩ := completion_path manned (run_staffed ran) started formed issued
      found running placed here addressed printable now
    obtain ⟨more,along,reached⟩ := Transition.exists_run path
    exact ⟨more,final,along,reached,stored⟩
  · have genuine := run_genuine bounded faithful ran (Thrown (events ++ more))
      (fun event member _ throws => ⟨event,List.mem_append_left _ member,throws⟩)
    exact unprintable_running genuine found running unprintable
      ((start_unused config _ room).later ran) later
      (fun event member _ throws => ⟨event,List.mem_append_right _ member,throws⟩) reached

def dispatched : List Event := [registration,submission 2,.store (.dispatchPending 3)]

theorem running_task_completes_dispatched :
    ∃ cluster more final,
      Transition.run (step defaultConfig) dispatched (initial singleWorker) = some cluster ∧
      Transition.Along (step defaultConfig) Unaided more cluster ∧
      Transition.run (step defaultConfig) more cluster = some final ∧
      (final.store.tasks.lookup (utf8 "task-000001")).map (fun task => (task.status,task.message)) =
        some (.completed,utf8 "processed: hello") := by
  have shown : (Transition.run (step defaultConfig) dispatched (initial singleWorker)).bind
    (fun cluster =>
      (cluster.store.tasks.lookup (utf8 "task-000001")).bind (fun task =>
        (cluster.store.nodes.lookup task.assignedWorker).map (fun node =>
          (cluster.worker.phase,task.status,task.payloadRef,node.address)))) =
        some (.started,.running,utf8 "hello",utf8 "127.0.0.1:9001") := by
    decide +kernel
  obtain ⟨cluster,ran,shown⟩ := Option.bind_eq_some_iff.mp shown
  obtain ⟨task,found,shown⟩ := Option.bind_eq_some_iff.mp shown
  obtain ⟨node,placed,shown⟩ := Option.map_eq_some_iff.mp shown
  simp only [Prod.mk.injEq] at shown
  obtain ⟨started,running,payload,address⟩ := shown
  obtain ⟨more,final,along,reached,stored⟩ := (running_task_completes defaultConfig (utf8 "worker-1")
    (utf8 "127.0.0.1:9001") 1 dispatched cluster (by decide) (by decide) (by decide) ran started
      (utf8 "task-000001") task
    node found running placed address).1 (by rw [payload]; decide +kernel) 4
  have answer : Utf8.toValid (utf8 "processed: " ++
    Worker.stripReturn (Worker.firstLine (utf8 "hello"))) =
      utf8 "processed: hello" := by
    decide +kernel
  refine ⟨cluster,more,final,ran,along,reached,?_⟩
  rw [stored,payload,answer,Option.map_some,completed_message (by decide)]
  rfl

end Completion

end RdmaPlatform.Cluster
