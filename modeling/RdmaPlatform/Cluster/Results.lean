import RdmaPlatform.Scheduler.Tables
import RdmaPlatform.Worker.Reception
import RdmaPlatform.Cluster.Acceptance

/-! What the scheduler records as the result of a task. An assignment goes out as a
frame, comes back as a report and is recorded, and every message on the way belongs to a
task that the scheduler holds and has assigned. So the recorded text is what the executor
makes of the task's payload, as far as the worker read it, or of an exception. -/
namespace RdmaPlatform.Worker
open Library

def Acceptor.task : Acceptor → Option Task
  | .idle => none
  | .received task | .inserted task | .refused task => some task

def Consumer.task : Consumer → Option Task
  | .popped task | .executing task => some task
  | .idle | .waiting | .reporting _ | .awaiting _ | .reported _ | .exited => none

def Consumer.result : Consumer → Option TaskResult
  | .reporting result => some result
  | .idle | .waiting | .popped _ | .executing _ | .awaiting _ | .reported _ | .exited => none

/-- The tasks in the process that have no result yet. -/
def Node.tasks (node : Node) : List Task :=
  node.acceptor.task.toList ++ node.queue ++ node.consumers.filterMap Consumer.task

def Node.results (node : Node) : List TaskResult := node.consumers.filterMap Consumer.result

theorem mem_tasks {node : Node} {task : Task} : task ∈ node.tasks ↔
    node.acceptor.task = some task ∨ task ∈ node.queue ∨
      ∃ consumer ∈ node.consumers, consumer.task = some task := by
  simp [Node.tasks]

/-- What a step of the process adds to the results belongs to its tasks, and it adds no task. -/
structure Closed (thrown : Option Exception) (node next : Node) : Prop where
  tasks : ∀ task ∈ next.tasks, task ∈ node.tasks
  results : ∀ result ∈ next.results, result ∈ node.results ∨
    ∃ task ∈ node.tasks, result = execute task thrown

section Closed
variable {thrown : Option Exception}

theorem Closed.of {node next : Node} (acceptor : ∀ task ∈ next.acceptor.task, task ∈ node.tasks)
    (queue : ∀ task ∈ next.queue, task ∈ node.tasks)
    (consumers : ∀ consumer ∈ next.consumers, consumer ∈ node.consumers ∨
      (∀ task ∈ consumer.task, task ∈ node.tasks) ∧
        ∀ result ∈ consumer.result, ∃ task ∈ node.tasks, result = execute task thrown) :
    Closed thrown node next where
  tasks task member := by
    rcases mem_tasks.mp member with held | queued | ⟨consumer,here,held⟩
    · exact acceptor task held
    · exact queue task queued
    · rcases consumers consumer here with before | new
      · exact mem_tasks.mpr (.inr (.inr ⟨consumer,before,held⟩))
      · exact new.1 task held
  results result member := by
    obtain ⟨consumer,here,held⟩ := List.mem_filterMap.mp member
    rcases consumers consumer here with before | new
    · exact .inl (List.mem_filterMap.mpr ⟨consumer,before,held⟩)
    · exact .inr (new.2 result held)

theorem Closed.same {node next : Node} (acceptor : ∀ task ∈ next.acceptor.task, task ∈ node.tasks)
    (queue : next.queue = node.queue) (consumers : next.consumers = node.consumers) :
    Closed thrown node next :=
  .of acceptor (fun _ member => mem_tasks.mpr (.inr (.inl (queue ▸ member))))
    (fun _ member => .inl (consumers ▸ member))

theorem setConsumer_closed {node : Node} {index : Nat} {new : Consumer}
    (tasks : ∀ task ∈ new.task, task ∈ node.tasks)
    (results : ∀ result ∈ new.result, ∃ task ∈ node.tasks, result = execute task thrown) :
    Closed thrown node (node.setConsumer index new) := by
  refine .of (fun task held => mem_tasks.mpr (.inl held))
    (fun task queued => mem_tasks.mpr (.inr (.inl queued))) ?_
  intro consumer member
  rcases List.mem_or_eq_of_mem_set member with before | rfl
  · exact .inl before
  · exact .inr ⟨tasks,results⟩

theorem step_closed {node next : Node} {inner : Local} (taken : node.step inner = some next) :
    Closed inner.throws node next := by
  have accepted (task : Task) (held : node.acceptor.task = some task) : task ∈ node.tasks :=
    mem_tasks.mpr (.inl held)
  have consumed {index : Nat} {consumer : Consumer} {task : Task}
      (at_ : node.consumers[index]? = some consumer) (held : consumer.task = some task) :
      task ∈ node.tasks :=
    mem_tasks.mpr (.inr (.inr ⟨consumer,List.mem_of_getElem? at_,held⟩))
  cases inner with
  | insertTask =>
    simp only [Node.step,insertTask] at taken
    split at taken
    next task at_ =>
      have held : task ∈ node.tasks := accepted task (by rw [at_]; rfl)
      split at taken <;> cases taken
      · exact .same (by simp [Acceptor.task]) rfl rfl
      · exact .same (by simpa [Acceptor.task] using held) rfl rfl
    next => cases taken
  | pushTask =>
    simp only [Node.step,pushTask] at taken
    split at taken
    next task at_ =>
      have held : task ∈ node.tasks := accepted task (by rw [at_]; rfl)
      split at taken <;> cases taken
      · exact .same (by simpa [Acceptor.task] using held) rfl rfl
      · refine .of (by simp [Acceptor.task]) ?_ (fun consumer member => .inl member)
        intro other member
        rcases List.mem_append.mp member with before | now
        · exact mem_tasks.mpr (.inr (.inl before))
        · rwa [List.mem_singleton.mp now]
    next => cases taken
  | refuseTask =>
    simp only [Node.step,refuseTask] at taken
    split at taken <;> cases taken
    exact .same (by simp [Acceptor.task,finishTask]) rfl rfl
  | checkRunning index =>
    simp only [Node.step,checkRunning] at taken
    split at taken <;> cases taken
    split <;> exact setConsumer_closed (by simp [Consumer.task]) (by simp [Consumer.result])
  | popTask index =>
    simp only [Node.step,popTask] at taken
    split at taken
    next at_ =>
      split at taken
      next =>
        cases taken; exact setConsumer_closed (by simp [Consumer.task]) (by simp [Consumer.result])
      next =>
        split at taken
        next => cases taken
        next task rest front =>
          cases taken
          have queued (other : Task) (member : other ∈ task::rest) : other ∈ node.tasks :=
            mem_tasks.mpr (.inr (.inl (front ▸ member)))
          refine .of accepted (fun other member => queued other (List.mem_cons_of_mem _ member)) ?_
          intro consumer member
          rcases List.mem_or_eq_of_mem_set member with before | rfl
          · exact .inl before
          · exact .inr ⟨by simpa [Consumer.task] using queued task List.mem_cons_self,
              by simp [Consumer.result]⟩
    next => cases taken
  | startTask index =>
    simp only [Node.step,startTask] at taken
    split at taken
    next task at_ =>
      cases taken
      exact setConsumer_closed (by simpa [Consumer.task] using consumed at_ rfl)
        (by simp [Consumer.result])
    next => cases taken
  | completeTask index thrown =>
    simp only [Node.step,completeTask] at taken
    split at taken
    next task at_ =>
      cases taken
      refine setConsumer_closed (by simp [Consumer.task]) ?_
      intro result made
      cases made
      exact ⟨task,consumed at_ rfl,rfl⟩
    next => cases taken
  | endReport index =>
    simp only [Node.step,endReport] at taken
    split at taken <;> cases taken
    exact setConsumer_closed (by simp [Consumer.task]) (by simp [Consumer.result])
  | finishReported index =>
    simp only [Node.step,finishReported] at taken
    split at taken <;> cases taken
    have moved : Closed none node (node.setConsumer index .idle) :=
      setConsumer_closed (by simp [Consumer.task]) (by simp [Consumer.result])
    exact ⟨moved.tasks,moved.results⟩
  | beginBeat | countRunning | snapshotActive | flagStop | closeTransport | stopQueue =>
    simp only [Node.step,beginBeat,countRunning,snapshotActive,flagStop,closeTransport,
      stopQueue] at taken
    split at taken <;> cases taken
    exact .same accepted rfl rfl

end Closed

end RdmaPlatform.Worker

namespace RdmaPlatform.Cluster
open Library Scheduler

section Prompts
open Worker

/-- The prompt that a worker takes from a payload: the first line, less one carriage
return, of the payload or, unless it is read whole, of a beginning of it. -/
def Prompts (whole : Bool) (payload prompt : Bytes) : Prop :=
  ∃ front, front <+: payload ∧ (whole = true → front = payload) ∧
    prompt = stripReturn (firstLine front)

theorem receive_front {reads : List Received} {payload line : Bytes} (plain : newline ∉ payload)
    (received : receive payload reads = .payload line) :
    ∃ front, front <+: payload ++ dataOf reads ∧ line = firstLine front := by
  induction reads generalizing payload with
  | nil => cases received
  | cons read rest ih =>
    cases read with
    | interrupted => exact ih plain received
    | timedOut running =>
      rw [receive] at received
      split at received
      next => exact ih plain received
      next => cases received
    | failed => cases received
    | closed =>
      cases received
      exact ⟨line,List.prefix_append _ _,(firstLine_self line plain).symm⟩
    | data chunk =>
      have more : dataOf (.data chunk::rest) = chunk ++ dataOf rest := rfl
      rw [more,← List.append_assoc]
      rw [receive] at received
      split at received
      next first after found =>
        cases received
        obtain ⟨parts,absent⟩ := cut_eq_some found
        exact ⟨payload ++ chunk,List.prefix_append _ _,by rw [parts,firstLine_append _ _ absent]⟩
      next single => exact ih (cut_eq_none.mp single) received

theorem parseTask_of_no_bar {line : Bytes} (absent : bar ∉ line) : parseTask line = none := by
  have clean : bar ∉ stripReturn line := by
    unfold stripReturn
    split
    next => exact fun member => absent (List.dropLast_subset _ member)
    next => exact absent
  rw [parseTask,cut_eq_none.mpr clean]
  simp

theorem parseTask_front {id payload front : Bytes} {task : Worker.Task} (named : id ≠ [])
    (plain : newline ∉ id) (single : bar ∉ id) (part : front <+: id ++ bar::(payload ++ [newline]))
    (parsed : parseTask (firstLine front) = some task) :
    task.id = id ∧ Prompts false payload task.prompt := by
  rcases Nat.lt_or_ge id.length front.length with long | short
  · -- The part reaches behind the bar, so the identifier is whole.
    obtain ⟨tail,rfl⟩ := prefix_reaches part long
    have header : newline ∉ id ++ [bar] := by
      rw [List.mem_append]
      exact not_or.mpr ⟨plain,by decide⟩
    rw [List.append_cons,firstLine_append_plain _ _ header,List.append_assoc,List.singleton_append,
      parseTask_append id _ named single] at parsed
    cases parsed
    have rest : tail <+: payload ++ [newline] := by simpa using part
    refine ⟨rfl,?_⟩
    rcases List.prefix_concat_iff.mp rest with whole | inside
    · exact ⟨payload,List.prefix_refl _,fun _ => rfl,by rw [whole,firstLine_concat]⟩
    · exact ⟨tail,inside,Bool.noConfusion,rfl⟩
  · have inside : front <+: id := List.prefix_of_prefix_length_le part (List.prefix_append _ _) short
    rw [firstLine_self front (fun member => plain (inside.subset member)),
      parseTask_of_no_bar (fun member => single (inside.subset member))] at parsed
    cases parsed

/-- The worker has read the line of the frame to its end. -/
def ReadsWhole (frame : Bytes) (reads : List Received) : Prop :=
  receive [] reads = .payload (firstLine frame)

theorem handleClient_part {item : Assignment} {reads : List Received} {task : Worker.Task}
    {more : List Worker.Task} (whole : Bool) (named : item.taskID ≠ [])
    (plain : newline ∉ item.taskID) (single : bar ∉ item.taskID)
    (part : dataOf reads <+: item.frame) (complete : whole = true → ReadsWhole item.frame reads)
    (handled : handleClient reads = task::more) :
    task.id = item.taskID ∧ Prompts whole item.payload task.prompt := by
  unfold handleClient at handled
  split at handled
  next line received =>
    have parsed : parseTask line = some task := by
      cases result : parseTask line with
      | none => rw [result] at handled; cases handled
      | some other => rw [result] at handled; cases handled; rfl
    cases whole with
    | true =>
      have same : line = firstLine item.frame :=
        Outcome.payload.inj (received.symm.trans (complete rfl))
      rw [same,firstLine_frame item plain,parseTask_append item.taskID _ named single] at parsed
      cases parsed
      exact ⟨rfl,item.payload,List.prefix_refl _,fun _ => rfl,rfl⟩
    | false =>
      obtain ⟨front,begins,rfl⟩ := receive_front (List.not_mem_nil) received
      have begins : front <+: item.frame := begins.trans part
      rw [frame_eq] at begins
      exact parseTask_front named plain single begins parsed
  next => cases handled

end Prompts

section Store

/-- The scheduler has given the task to a worker, and this is its payload. -/
def Assigned (store : State) (id payload : Bytes) : Prop :=
  ∃ task, store.tasks.lookup id = some task ∧ task.assignedWorker ≠ [] ∧ task.payloadRef = payload

theorem apply_kept (config : Config) (access : Section) {store : State} {id : Bytes}
    {task : Scheduler.Task} (formed : WellFormed store)
    (fresh : access.submits = true → Fresh store) (found : store.tasks.lookup id = some task) :
    ∃ later, (apply config store access).tasks.lookup id = some later ∧ task.SameOrigin later ∧
      task.Later later := by
  have kept (state next : State) (formed : WellFormed state)
      (fresh : access.submits = true → Fresh state) (change : Change config access state next)
      (before : ∃ later, state.tasks.lookup id = some later ∧ task.SameOrigin later ∧
        task.Later later) :
      ∃ later, next.tasks.lookup id = some later ∧ task.SameOrigin later ∧ task.Later later := by
    obtain ⟨current,here,origin,later⟩ := before
    obtain ⟨moved,stored,moves⟩ := change_moves config access state next id current formed
      fresh here change
    exact ⟨moved,stored,origin.trans (moves_sameOrigin moves),
      later.trans (moves_later (formed.task id current here) moves)⟩
  have start : ∃ later, store.tasks.lookup id = some later ∧ task.SameOrigin later ∧
      task.Later later :=
    ⟨task,found,.refl task,.refl task⟩
  cases submits : access.submits with
  | false =>
    have quiet (state : State) : access.submits = true → Fresh state := by
      rw [submits]
      exact Bool.noConfusion
    exact (apply_invariant config (fun state => WellFormed state ∧
      ∃ later, state.tasks.lookup id = some later ∧ task.SameOrigin later ∧ task.Later later) access
        store ⟨formed,start⟩
      (fun state next both change => ⟨change_wellFormed config access state next both.1 change,
        kept state next both.1 (quiet state) change both.2⟩)).2
  | true =>
    have single (now : Time) : access ≠ .dispatchPending now := by
      rintro rfl
      cases submits
    rcases apply_change config store access single with same | change
    · rw [same]
      exact start
    · exact kept store _ formed fresh change start

theorem assigned_of_snapshot {store : State} {item : Assignment} (formed : WellFormed store)
    (listed : item ∈ snapshotAssignments store) : Assigned store item.taskID item.payload := by
  obtain ⟨task,stored,made⟩ := List.mem_filterMap.mp ((List.perm_insertionSort _ _).mem_iff.mp listed)
  have found := formed.lookup_of_mem stored
  unfold assignmentOf at made
  split at made
  next => cases made
  next guard =>
    split at made
    next => cases made
    next =>
      split at made <;> cases made
      exact ⟨task,found,(not_or.mp guard).2,rfl⟩

end Store

section Traces
open Worker

/-- The task has the identifier of an assigned task and a prompt taken from its payload. -/
def Sourced (whole : Bool) (store : State) (task : Worker.Task) : Prop :=
  ∃ payload, Assigned store task.id payload ∧ Prompts whole payload task.prompt

/-- The result of such a task, with an exception or without. -/
def Made (whole : Bool) (thrown : Exception → Prop) (store : State) (result : TaskResult) : Prop :=
  ∃ task caught, Sourced whole store task ∧ (∀ exception ∈ caught, thrown exception) ∧
    result = execute task caught

/-- Everything under way between the scheduler and the worker goes back to an assigned task. -/
structure Traces (whole : Bool) (thrown : Exception → Prop) (store : State) (cluster : System) :
    Prop where
  outbox : ∀ item ∈ cluster.outbox, Assigned store item.taskID item.payload
  frames : ∀ frame ∈ cluster.frames, ∃ item : Assignment, item.frame = frame ∧
    Assigned store item.taskID item.payload
  tasks : ∀ task ∈ cluster.worker.tasks, Sourced whole store task
  results : ∀ result ∈ cluster.worker.results, Made whole thrown store result
  reports : ∀ report ∈ cluster.reports, ∃ result, Made whole thrown store result ∧
    report = ⟨result.taskID,resultBody result.success result.output⟩

variable {whole : Bool} {thrown : Exception → Prop} {store : State} {cluster next : System}

theorem Sourced.mono {later : State} {task : Worker.Task}
    (kept : ∀ id payload, Assigned store id payload → Assigned later id payload)
    (sourced : Sourced whole store task) :
    Sourced whole later task :=
  sourced.imp (fun payload both => ⟨kept _ payload both.1,both.2⟩)

theorem Made.mono {later : State} {result : TaskResult}
    (kept : ∀ id payload, Assigned store id payload → Assigned later id payload)
    (made : Made whole thrown store result) :
    Made whole thrown later result := by
  obtain ⟨task,caught,sourced,rest⟩ := made
  exact ⟨task,caught,sourced.mono kept,rest⟩

theorem Traces.mono {later : State}
    (kept : ∀ id payload, Assigned store id payload → Assigned later id payload)
    (traces : Traces whole thrown store cluster) : Traces whole thrown later cluster where
  outbox item member := kept _ _ (traces.outbox item member)
  frames frame member := (traces.frames frame member).imp (fun _ both => ⟨both.1,kept _ _ both.2⟩)
  tasks task member := (traces.tasks task member).mono kept
  results result member := (traces.results result member).mono kept
  reports report member := (traces.reports report member).imp (fun _ both => ⟨both.1.mono kept,both.2⟩)

/-- A step of the worker between the messages. -/
theorem Traces.worker {worker : Worker.Node} {caught : Option Exception}
    (traces : Traces whole thrown store cluster) (counted : ∀ exception ∈ caught, thrown exception)
    (closed : Closed caught cluster.worker worker) :
    Traces whole thrown store {cluster with worker := worker} where
  outbox := traces.outbox
  frames := traces.frames
  tasks task member := traces.tasks task (closed.tasks task member)
  results result member := by
    rcases closed.results result member with before | ⟨task,held,made⟩
    · exact traces.results result before
    · exact ⟨task,caught,traces.tasks task held,counted,made⟩
  reports := traces.reports

/-- What the model throws at an event. -/
def Event.throws : Event → Option Exception
  | .work inner => inner.throws
  | _ => none

/-- What the run condition asks: results come from the worker only, and, if frames are to
be read whole, each is. -/
def Faithful (whole : Bool) (cluster : System) : Event → Prop
  | .store (.complete _ _ _) => False
  | .receive index reads => whole = true → ∀ frame ∈ cluster.frames[index]?, ReadsWhole frame reads
  | _ => True

instance (frame : Bytes) (reads : List Received) : Decidable (ReadsWhole frame reads) := by
  unfold ReadsWhole
  infer_instance

instance (whole : Bool) (cluster : System) : ∀ event, Decidable (Faithful whole cluster event) := by
  intro event
  unfold Faithful
  split <;> infer_instance

theorem Traces.receive {index : Nat} {reads : List Received} (issued : Issued store)
    (traces : Traces whole thrown store cluster)
    (faithful : Faithful whole cluster (.receive index reads))
    (taken : receiveFrame cluster index reads = some next) : Traces whole thrown store next := by
  simp only [receiveFrame] at taken
  split at taken
  next => cases taken
  next frame present =>
    split at taken
    next guard =>
      cases taken
      have left : ∀ other ∈ cluster.frames.eraseIdx index, other ∈ cluster.frames :=
        fun other member => List.mem_of_mem_eraseIdx member
      have rest : Traces whole thrown store {cluster with frames := cluster.frames.eraseIdx index} :=
        ⟨traces.outbox,fun other member => traces.frames other (left other member),traces.tasks,
          traces.results,traces.reports⟩
      split
      next => exact rest
      next task more handled =>
        unfold handle
        split
        next =>
          refine ⟨rest.outbox,rest.frames,?_,rest.results,rest.reports⟩
          intro other member
          rcases mem_tasks.mp member with held | before
          · cases held
            obtain ⟨item,rfl,given⟩ := traces.frames frame (List.mem_of_getElem? present)
            obtain ⟨counter,named⟩ : ∃ counter, item.taskID = formatTaskID counter := by
              obtain ⟨_,found,_⟩ := given
              obtain ⟨counter,_,named⟩ := issued _ _ found
              exact ⟨counter,named⟩
            have plain (byte : UInt8) (special : byte = newline ∨ byte = bar) : byte ∉ item.taskID := by
              rw [named]
              exact formatTaskID_plain counter byte special
            obtain ⟨id,prompt⟩ := handleClient_part whole (named ▸ formatTaskID_ne_nil counter)
              (plain _ (.inl rfl)) (plain _ (.inr rfl)) (List.isPrefixOf_iff_prefix.mp guard.1)
              (fun all => faithful all _ present) handled
            exact ⟨item.payload,id ▸ given,prompt⟩
          · exact traces.tasks other (mem_tasks.mpr (.inr before))
        next => exact rest
    next => cases taken

theorem Traces.step {config : Config} {event : Event} (formed : WellFormed cluster.store)
    (issued : Issued cluster.store) (traces : Traces whole thrown cluster.store cluster)
    (faithful : Faithful whole cluster event)
    (counted : ∀ exception ∈ event.throws, thrown exception)
    (taken : Cluster.step config cluster event = some next) :
    Traces whole thrown cluster.store next := by
  cases event with
  | store access =>
    simp only [Cluster.step] at taken
    split at taken <;> cases taken
    exact ⟨traces.outbox,traces.frames,traces.tasks,traces.results,traces.reports⟩
  | snapshot =>
    simp only [Cluster.step] at taken
    split at taken <;> cases taken
    exact ⟨fun item listed => assigned_of_snapshot formed listed,traces.frames,traces.tasks,
      traces.results,traces.reports⟩
  | deliver connected =>
    simp only [Cluster.step] at taken
    split at taken
    next => cases taken
    next item rest queued =>
      have listed : ∀ other ∈ item::rest, Assigned cluster.store other.taskID other.payload :=
        fun other member => traces.outbox other (queued ▸ member)
      have later : ∀ other ∈ rest, Assigned cluster.store other.taskID other.payload :=
        fun other member => listed other (List.mem_cons_of_mem _ member)
      split at taken <;> cases taken
      · refine ⟨later,?_,traces.tasks,traces.results,traces.reports⟩
        intro frame member
        rcases List.mem_append.mp member with before | now
        · exact traces.frames frame before
        · exact ⟨item,(List.mem_singleton.mp now).symm,listed item List.mem_cons_self⟩
      · exact ⟨later,traces.frames,traces.tasks,traces.results,traces.reports⟩
  | receive index reads => exact traces.receive issued faithful taken
  | work inner =>
    obtain ⟨worker,moved,rfl⟩ := Option.map_eq_some_iff.mp taken
    exact traces.worker counted (step_closed moved)
  | postResult index =>
    obtain ⟨⟨result,worker⟩,moved,rfl⟩ := Option.map_eq_some_iff.mp taken
    obtain ⟨at_,same⟩ := postResult_inv moved
    have closed : Closed none cluster.worker worker := by
      rw [same]
      exact setConsumer_closed (by simp [Consumer.task]) (by simp [Consumer.result])
    have made := traces.results result (List.mem_filterMap.mpr ⟨_,List.mem_of_getElem? at_,rfl⟩)
    have moved := traces.worker (by simp) closed
    refine ⟨moved.outbox,moved.frames,moved.tasks,moved.results,?_⟩
    intro report member
    rcases List.mem_append.mp member with before | now
    · exact traces.reports report before
    · exact ⟨result,made,List.mem_singleton.mp now⟩
  | endBeat =>
    obtain ⟨⟨body,worker⟩,moved,rfl⟩ := Option.map_eq_some_iff.mp taken
    have same : worker = {cluster.worker with beat := none} := endBeat_inv moved
    rw [same]
    exact ⟨traces.outbox,traces.frames,traces.tasks,traces.results,traces.reports⟩
  | silence =>
    obtain ⟨⟨body,worker⟩,moved,rfl⟩ := Option.map_eq_some_iff.mp taken
    have same : worker = {cluster.worker with phase := .silenced} := silence_inv moved
    rw [same]
    exact ⟨traces.outbox,traces.frames,traces.tasks,traces.results,traces.reports⟩
  | heartbeatArrives index now =>
    obtain ⟨body,present,rfl⟩ := Option.map_eq_some_iff.mp taken
    exact ⟨traces.outbox,traces.frames,traces.tasks,traces.results,traces.reports⟩
  | reportArrives index now =>
    obtain ⟨report,present,rfl⟩ := Option.map_eq_some_iff.mp taken
    have rest : ∀ other ∈ cluster.reports.eraseIdx index,
        ∃ result, Made whole thrown cluster.store result ∧
          other = ⟨result.taskID,resultBody result.success result.output⟩ :=
      fun other member => traces.reports other (List.mem_of_mem_eraseIdx member)
    unfold receiveReport
    split <;> exact ⟨traces.outbox,traces.frames,traces.tasks,traces.results,rest⟩
  | loseFrame index =>
    cases taken
    exact ⟨traces.outbox,fun frame member => traces.frames frame (List.mem_of_mem_eraseIdx member),
      traces.tasks,traces.results,traces.reports⟩
  | loseHeartbeat index =>
    cases taken
    exact ⟨traces.outbox,traces.frames,traces.tasks,traces.results,traces.reports⟩
  | loseReport index =>
    cases taken
    exact ⟨traces.outbox,traces.frames,traces.tasks,traces.results,
      fun report member => traces.reports report (List.mem_of_mem_eraseIdx member)⟩

end Traces

section Recorded
open Worker

/-- The message is the answer of a worker which read the payload. -/
def AnswerStored (whole : Bool) (task : Scheduler.Task) : Prop :=
  task.status = .completed ∧ ∃ prompt, Prompts whole task.payloadRef prompt ∧
    Printable (utf8 "processed: " ++ prompt) ∧
      task.message = Utf8.toValid (utf8 "processed: " ++ prompt)

/-- The message is the text of an exception; an empty one is replaced. -/
def FailureStored (thrown : Exception → Prop) (task : Scheduler.Task) : Prop :=
  task.status = .failed ∧ ∃ exception, thrown exception ∧ Printable exception.text ∧
    task.message = if exception.text = [] then utf8 "failed" else Utf8.toValid exception.text

/-- The result of the task is that of a worker. -/
structure Answered (whole : Bool) (thrown : Exception → Prop) (task : Scheduler.Task) : Prop where
  owned : task.assignedWorker ≠ []
  result : AnswerStored whole task ∨ FailureStored thrown task

def Recorded (whole : Bool) (thrown : Exception → Prop) (store : State) : Prop :=
  ∀ id task, store.tasks.lookup id = some task → task.Finished → Answered whole thrown task

section Stored
variable {whole : Bool} {thrown : Exception → Prop} {config : Config} {access : Section}
  {store next : State}

theorem change_recorded
    (genuine : ∀ id req now, access = .complete id req now →
      ∀ task, store.tasks.lookup id = some task → Answered whole thrown (completed req now task))
    (recorded : Recorded whole thrown store) (change : Change config access store next) :
    Recorded whole thrown next := by
  cases change with
  | register req now =>
    intro id task found
    exact recorded id task (by simpa using found)
  | heartbeat | refresh => exact recorded
  | submit req now =>
    refine Table.put_forall _ _ _ (fun _ (task : Scheduler.Task) => task.Finished →
      Answered whole thrown task) recorded ?_
    rintro (done | done) <;> cases done
  | release taskID req now | complete taskID req now =>
    exact Table.modify_forall _ _ _ (fun _ (task : Scheduler.Task) => task.Finished →
      Answered whole thrown task) recorded (fun task found _ _ => genuine taskID req now rfl task found)
  | assign now =>
    refine Table.modify_forall _ _ _ (fun _ (task : Scheduler.Task) => task.Finished →
      Answered whole thrown task) recorded ?_
    rintro task _ _ (done | done) <;> cases done

theorem apply_recorded (genuine : ∀ id req now, access = .complete id req now →
      ∀ task, store.tasks.lookup id = some task → Answered whole thrown (completed req now task))
    (recorded : Recorded whole thrown store) : Recorded whole thrown (apply config store access) := by
  by_cases dispatch : ∃ now, access = .dispatchPending now
  · obtain ⟨now,rfl⟩ := dispatch
    exact apply_invariant config (Recorded whole thrown) _ store recorded
      (fun _ _ before change => change_recorded (by rintro _ _ _ ⟨⟩) before change)
  · rcases apply_change config store access (fun now same => dispatch ⟨now,same⟩) with same | change
    · rw [same]
      exact recorded
    · exact change_recorded genuine recorded change

end Stored

theorem toValid_ne_nil {bytes : Bytes} (some : bytes ≠ []) : Utf8.toValid bytes ≠ [] := by
  cases bytes with
  | nil => exact absurd rfl some
  | cons byte rest =>
    rw [Utf8.toValid,Utf8.toValidFrom]
    split <;> simp

theorem completed_message {req : CompleteTaskRequest} (written : req.message ≠ []) (now : Time)
    (task : Scheduler.Task) :
    (completed req now task).message = req.message := if_neg written

theorem completed_answered {whole : Bool} {thrown : Exception → Prop} {store : State}
    {result : TaskResult} {task : Scheduler.Task} (now : Time)
    (found : store.tasks.lookup result.taskID = some task) (made : Made whole thrown store result)
    (printable : Printable result.output) :
    Answered whole thrown (completed ⟨result.success,Utf8.toValid result.output⟩ now task) := by
  obtain ⟨source,caught,⟨payload,⟨other,stored,owned,rfl⟩,prompts⟩,counted,rfl⟩ := made
  rw [execute_taskID] at found
  obtain rfl : other = task := Option.some.inj (stored.symm.trans found)
  refine ⟨owned,?_⟩
  cases caught with
  | none =>
    have written : Utf8.toValid (utf8 "processed: " ++ source.prompt) ≠ [] :=
      toValid_ne_nil (List.append_ne_nil_of_left_ne_nil (by decide) _)
    exact .inl ⟨rfl,source.prompt,prompts,printable,completed_message written now other⟩
  | some exception =>
    rw [execute_thrown] at printable ⊢
    refine .inr ⟨rfl,exception,counted exception rfl,printable,?_⟩
    split
    next empty =>
      rw [empty]
      rfl
    next written => exact completed_message (toValid_ne_nil written) now other

/-- What every faithful run keeps. -/
structure Genuine (whole : Bool) (thrown : Exception → Prop) (cluster : System) : Prop where
  formed : WellFormed cluster.store
  issued : Issued cluster.store
  traces : Traces whole thrown cluster.store cluster
  recorded : Recorded whole thrown cluster.store

def Event.submits : Event → Bool
  | .store access => access.submits
  | _ => false

theorem Accesses.submits_eq {cluster : System} {event : Event} {access : Section}
    (accesses : Accesses cluster event access) :
    access.submits = event.submits := by
  cases accesses <;> rfl

/-- The next number of a task has not been used. -/
def Unused (cluster : System) (event : Event) : Prop :=
  event.submits = true → cluster.store.taskCounter.toNat + 1 < 2^64

theorem store_trail {config : Config} {cluster next : System} {event : Event}
    (formed : WellFormed cluster.store) (issued : Issued cluster.store)
    (unused : Unused cluster event) (taken : step config cluster event = some next) :
    Trail next.store next.store.taskCounter.toNat ∧
      next.store.taskCounter.toNat ≤ cluster.store.taskCounter.toNat + if event.submits then 1
        else 0 := by
  have trail : Trail cluster.store cluster.store.taskCounter.toNat := ⟨formed,issued,rfl⟩
  rcases (step_effect taken).store with same | ⟨access,accesses,applied⟩
  · rw [same]
    exact ⟨trail,Nat.le_add_right _ _⟩
  · have room : cluster.store.taskCounter.toNat + (if access.submits then 1 else 0) < 2^64 := by
      split
      next submits => exact unused (accesses.submits_eq ▸ submits)
      next => exact cluster.store.taskCounter.toNat_lt
    have after := apply_trail config cluster.store _ access trail room
    rw [← applied] at after
    exact ⟨⟨after.wellFormed,after.issued,rfl⟩,by rw [after.counter,accesses.submits_eq]⟩

theorem step_kept {config : Config} {cluster next : System} {event : Event} {id : Bytes}
    {task : Scheduler.Task} (formed : WellFormed cluster.store) (issued : Issued cluster.store)
    (unused : Unused cluster event) (taken : step config cluster event = some next)
    (found : cluster.store.tasks.lookup id = some task) :
    ∃ later, next.store.tasks.lookup id = some later ∧ task.SameOrigin later ∧ task.Later later := by
  rcases (step_effect taken).store with same | ⟨access,accesses,applied⟩
  · rw [same]
    exact ⟨task,found,.refl task,.refl task⟩
  · rw [applied]
    refine apply_kept config access formed (fun submits => ?_) found
    exact fresh_of_issued _ issued (unused (accesses.submits_eq ▸ submits))

theorem Assigned.step {config : Config} {cluster next : System} {event : Event} {id payload : Bytes}
    (formed : WellFormed cluster.store) (issued : Issued cluster.store)
    (unused : Unused cluster event) (taken : Cluster.step config cluster event = some next)
    (given : Assigned cluster.store id payload) :
    Assigned next.store id payload := by
  obtain ⟨task,found,owned,rfl⟩ := given
  obtain ⟨later,stored,origin,history⟩ := step_kept formed issued unused taken found
  exact ⟨later,stored,by rwa [history.assignedWorker owned],origin.payloadRef⟩

theorem genuine_step {config : Config} {whole : Bool} {thrown : Exception → Prop}
    {cluster next : System} {event : Event} (genuine : Genuine whole thrown cluster)
    (unused : Unused cluster event) (faithful : Faithful whole cluster event)
    (counted : ∀ exception ∈ event.throws, thrown exception)
    (taken : step config cluster event = some next) :
    Genuine whole thrown next := by
  have trail := (store_trail genuine.formed genuine.issued unused taken).1
  have traces := (genuine.traces.step genuine.formed genuine.issued faithful counted taken).mono
    (fun _ _ given => given.step genuine.formed genuine.issued unused taken)
  refine ⟨trail.wellFormed,trail.issued,traces,?_⟩
  rcases (step_effect taken).store with same | ⟨access,accesses,applied⟩
  · exact same ▸ genuine.recorded
  · rw [applied]
    refine apply_recorded ?_ genuine.recorded
    intro id req now same task found
    subst same
    cases accesses with
    | store => exact faithful.elim
    | report index _ report _ present decoded =>
      obtain ⟨result,made,rfl⟩ := genuine.traces.reports report (List.mem_of_getElem? present)
      rw [decodeComplete_resultBody] at decoded
      split at decoded <;> cases decoded
      exact completed_answered now found made (by assumption)

end Recorded

section Runs

theorem along_unused {config : Config} {events : List Event} {cluster : System}
    (formed : WellFormed cluster.store) (issued : Issued cluster.store)
    (room : cluster.store.taskCounter.toNat + events.countP Event.submits < 2^64) :
    Transition.Along (step config) Unused events cluster := by
  induction events generalizing cluster with
  | nil => trivial
  | cons event rest ih =>
    rw [List.countP_cons] at room
    have unused : Unused cluster event := by
      intro submits
      rw [if_pos submits] at room
      omega
    refine ⟨unused,?_⟩
    intro next taken
    obtain ⟨trail,grown⟩ := store_trail formed issued unused taken
    exact ih trail.wellFormed trail.issued (by omega)

theorem newMemoryStore_issued : Issued newMemoryStore := by
  intro id task found
  cases found

theorem start_unused (config : Config) (worker : Worker.Node) {events : List Event}
    (bounded : events.countP Event.submits < 2^64) :
    Transition.Along (step config) Unused events (initial worker) := by
  have none : (initial worker).store.taskCounter.toNat = 0 := rfl
  exact along_unused newMemoryStore_wellFormed newMemoryStore_issued (by omega)

theorem start_genuine (whole : Bool) (thrown : Worker.Exception → Prop) (id address : Bytes)
    (threads : Nat) :
    Genuine whole thrown (initial (Worker.Node.start id address threads)) where
  formed := newMemoryStore_wellFormed
  issued := newMemoryStore_issued
  traces := by
    have idle : ∀ consumer ∈ (Worker.Node.start id address threads).consumers, consumer = .idle :=
      fun consumer member => List.eq_of_mem_replicate member
    refine ⟨by simp [initial],by simp [initial],?_,?_,by simp [initial]⟩
    · intro task member
      rcases Worker.mem_tasks.mp member with held | held | ⟨consumer,here,held⟩
      · cases held
      · cases held
      · rw [idle consumer here] at held
        cases held
    · intro result member
      obtain ⟨consumer,here,held⟩ := List.mem_filterMap.mp member
      rw [idle consumer here] at held
      cases held
  recorded := by
    intro id task found
    cases found

/-- The exceptions of a run. -/
def Thrown (events : List Event) (exception : Worker.Exception) : Prop :=
  ∃ event ∈ events, event.throws = some exception

theorem run_genuine {config : Config} {whole : Bool} {id address : Bytes} {threads : Nat}
    {events : List Event} {final : System} (bounded : events.countP Event.submits < 2^64)
    (faithful : Transition.Along (step config) (Faithful whole) events
      (initial (Worker.Node.start id address threads)))
    (ran : Transition.run (step config) events (initial (Worker.Node.start id address threads)) =
      some final)
    (thrown : Worker.Exception → Prop)
    (counted : ∀ event ∈ events, ∀ exception ∈ event.throws, thrown exception) :
    Genuine whole thrown final :=
  Transition.run_invariant
    (fun _ _ _ genuine both taken => genuine_step genuine both.1.1 both.1.2 both.2 taken) events _ final
    (start_genuine whole thrown id address threads)
    (((start_unused config _ bounded).and faithful).and (Transition.along_of_forall counted _)) ran

/-- A result that the store holds was computed from the payload of its task: if results are
reported by workers only, every finished task was assigned, and it is completed with the answer
to a prompt that is the first line of its payload or, where a connection broke off, of a
beginning of it, or it has failed with the text of an exception. Malformed UTF-8 in the text is
replaced on the way. -/
theorem results_genuine (config : Config) (whole : Bool) (id address : Bytes) (threads : Nat)
    (events : List Event) (final : System) (bounded : events.countP Event.submits < 2^64)
    (faithful : Transition.Along (step config) (Faithful whole) events
      (initial (Worker.Node.start id address threads)))
    (ran : Transition.run (step config) events (initial (Worker.Node.start id address threads)) =
      some final) :
    ∀ taskID task, final.store.tasks.lookup taskID = some task → task.Finished →
      task.assignedWorker ≠ [] ∧ (AnswerStored whole task ∨ FailureStored (Thrown events) task) := by
  intro taskID task found finished
  have genuine := run_genuine bounded faithful ran (Thrown events)
    (fun event member _ throws => ⟨event,member,throws⟩)
  obtain ⟨owned,result⟩ := genuine.recorded taskID task found finished
  exact ⟨owned,result⟩

/-- Two tasks; the model throws at the second. -/
def thrownSecond : List Event :=
  let serve (thrown : Option Worker.Exception) (now : Time) : List Event :=
    [.work (.insertTask),.work .pushTask,.work (.checkRunning 0),.work (.popTask 0),
      .work (.startTask 0),.work (.completeTask 0 thrown),.postResult 0,.reportArrives 0 now,
      .work (.endReport 0),.work (.finishReported 0)]
  [registration,submission 2,.store (.dispatchPending 3),.snapshot,.deliver true,
      .receive 0 [.data (utf8 "task-000001|hello\n")]] ++ serve none 4 ++
    [submission 5,.store (.dispatchPending 6),.snapshot,.deliver true,
      .receive 0 [.data (utf8 "task-000002|hello\n")]] ++ serve (some (.standard (utf8 "no entropy"))) 7

theorem results_genuine_thrownSecond :
    ∃ final, Transition.run (step defaultConfig) thrownSecond (initial singleWorker) = some final ∧
      [utf8 "task-000001",utf8 "task-000002"].map (fun taskID =>
          (final.store.tasks.lookup taskID).map (fun task => (task.status,task.message))) =
        [some (.completed,utf8 "processed: hello"),some (.failed,utf8 "no entropy")] ∧
      ∀ taskID task, final.store.tasks.lookup taskID = some task → task.Finished →
        task.assignedWorker ≠ [] ∧
          (AnswerStored true task ∨ FailureStored (Thrown thrownSecond) task) := by
  have shown : (Transition.run (step defaultConfig) thrownSecond (initial singleWorker)).map
    (fun final =>
      [utf8 "task-000001",utf8 "task-000002"].map (fun taskID =>
        (final.store.tasks.lookup taskID).map (fun task => (task.status,task.message)))) =
        some [some (.completed,utf8 "processed: hello"),some (.failed,utf8 "no entropy")] := by
    decide +kernel
  obtain ⟨final,ran,messages⟩ := Option.map_eq_some_iff.mp shown
  exact ⟨final,ran,messages,
    results_genuine defaultConfig true _ _ _ thrownSecond final (by decide) (by decide +kernel) ran⟩

end Runs

end RdmaPlatform.Cluster
