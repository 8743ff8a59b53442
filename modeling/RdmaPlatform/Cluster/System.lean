import RdmaPlatform.Worker.Node
import RdmaPlatform.Library.Transition

/-! The scheduler, its deliverer and one worker, with the messages between them.
Frames, heartbeats and reports arrive in any order and at any later time, or not
at all. Everybody else is the scheduler's environment: it may access the store in
any way but by a heartbeat in the worker's name. -/
namespace RdmaPlatform.Cluster
open Library Scheduler

structure Report where
  taskID : Bytes
  body : Bytes
  deriving DecidableEq

/-- `outbox` holds what the deliverer still has to send of its snapshot; `accepted`
records the tasks for which a report of the worker was answered with 200. -/
structure System where
  store : State
  outbox : List Assignment
  frames : List Bytes
  worker : Worker.Node
  heartbeats : List Bytes
  reports : List Report
  accepted : List Bytes

def initial (worker : Worker.Node) : System := ⟨newMemoryStore,[],[],worker,[],[],[]⟩

inductive Event where
  | store (step : Section)
  | snapshot
  | deliver (connected : Bool)
  | receive (index : Nat) (reads : List Worker.Received)
  | work (step : Worker.Local)
  | postResult (index : Nat)
  | endBeat
  | silence
  | heartbeatArrives (index : Nat) (now : Time)
  | reportArrives (index : Nat) (now : Time)
  | loseFrame (index : Nat)
  | loseHeartbeat (index : Nat)
  | loseReport (index : Nat)

/-- The environment sends no heartbeat in the worker's name. -/
def foreign (workerID : Bytes) : Section → Bool
  | .heartbeat req _ => req.id ≠ workerID
  | _ => true

def dataOf (reads : List Worker.Received) : Bytes :=
  reads.flatMap (fun received => match received with
    | .data chunk => chunk
    | _ => [])

/-- `Complete` answers with 200. -/
def accepts (taskID : Bytes) (store : State) : Bool := taskID ≠ [] && (store.tasks.lookup taskID).isSome

/-- The worker reads some or all bytes of a frame. -/
def receiveFrame (cluster : System) (index : Nat) (reads : List Worker.Received) : Option System :=
  match cluster.frames[index]? with
  | none => none
  | some frame =>
    if (dataOf reads).isPrefixOf frame ∧ cluster.worker.acceptor = .idle ∧
        cluster.worker.phase ≠ .closed ∧ cluster.worker.phase ≠ .drained then
      some {cluster with
        frames := cluster.frames.eraseIdx index
        worker := match Worker.handleClient reads with
          | [] => cluster.worker
          | task::_ => Worker.handle task cluster.worker}
    else none

def receiveHeartbeat (config : Config) (now : Time) (body : Bytes) (store : State) : State :=
  match decodeHeartbeat body with
  | none => store
  | some req => apply config store (.heartbeat req now)

def receiveReport (config : Config) (now : Time) (report : Report) (cluster : System) : System :=
  match decodeComplete report.body with
  | none => cluster
  | some req =>
    {cluster with
      store := apply config cluster.store (.complete report.taskID req now)
      accepted := if accepts report.taskID cluster.store then report.taskID::cluster.accepted
        else cluster.accepted}

def step (config : Config) (cluster : System) : Event → Option System
  | .store access =>
    if foreign cluster.worker.id access then
      some {cluster with store := apply config cluster.store access} else none
  | .snapshot =>
    if cluster.outbox = [] then some {cluster with outbox := snapshotAssignments cluster.store}
    else none
  | .deliver connected =>
    match cluster.outbox with
    | [] => none
    | item::rest =>
      if connected ∧ item.address = cluster.worker.address then
        some {cluster with outbox := rest,frames := cluster.frames ++ [item.frame]}
      else some {cluster with outbox := rest}
  | .receive index reads => receiveFrame cluster index reads
  | .work inner => (cluster.worker.step inner).map (fun worker => {cluster with worker := worker})
  | .postResult index =>
    (Worker.postResult index cluster.worker).map (fun sent => {cluster with
      worker := sent.2
      reports := cluster.reports ++ [⟨sent.1.taskID,Worker.resultBody sent.1.success sent.1.output⟩]})
  | .endBeat =>
    (Worker.endBeat cluster.worker).map (fun sent =>
      {cluster with worker := sent.2,heartbeats := cluster.heartbeats ++ [sent.1]})
  | .silence =>
    (Worker.silence cluster.worker).map (fun sent =>
      {cluster with worker := sent.2,heartbeats := cluster.heartbeats ++ [sent.1]})
  | .heartbeatArrives index now =>
    (cluster.heartbeats[index]?).map (fun body => {cluster with
      store := receiveHeartbeat config now body cluster.store
      heartbeats := cluster.heartbeats.eraseIdx index})
  | .reportArrives index now =>
    (cluster.reports[index]?).map (fun report =>
      receiveReport config now report {cluster with reports := cluster.reports.eraseIdx index})
  | .loseFrame index => some {cluster with frames := cluster.frames.eraseIdx index}
  | .loseHeartbeat index => some {cluster with heartbeats := cluster.heartbeats.eraseIdx index}
  | .loseReport index => some {cluster with reports := cluster.reports.eraseIdx index}

inductive Serves (node : Worker.Node) : Event → Worker.Node → Prop
  | rest (event) : Serves node event node
  | receive (index reads task) (free : node.acceptor = .idle) :
      Serves node (.receive index reads) (Worker.handle task node)
  | work (inner next) (taken : node.step inner = some next) : Serves node (.work inner) next
  | postResult (index result next) (taken : Worker.postResult index node = some (result,next)) :
      Serves node (.postResult index) next
  | endBeat (body next) (taken : Worker.endBeat node = some (body,next)) : Serves node .endBeat next
  | silence (body next) (taken : Worker.silence node = some (body,next)) : Serves node .silence next

inductive Accesses (cluster : System) : Event → Section → Prop
  | store (access) (allowed : foreign cluster.worker.id access = true) :
      Accesses cluster (.store access) access
  | heartbeat (index now body req) (present : cluster.heartbeats[index]? = some body)
      (decoded : decodeHeartbeat body = some req) :
      Accesses cluster (.heartbeatArrives index now) (.heartbeat req now)
  | report (index now report req) (present : cluster.reports[index]? = some report)
      (decoded : decodeComplete report.body = some req) :
      Accesses cluster (.reportArrives index now) (.complete report.taskID req now)

inductive Accepts (cluster : System) : Event → Bytes → Prop
  | report (index now report req) (present : cluster.reports[index]? = some report)
      (decoded : decodeComplete report.body = some req)
        (stored : accepts report.taskID cluster.store = true) :
      Accepts cluster (.reportArrives index now) report.taskID

/-- What an event can do: one part of the state at a time, as the three relations say. -/
structure Effect (config : Config) (cluster : System) (event : Event) (next : System) : Prop where
  worker : Serves cluster.worker event next.worker
  store : next.store = cluster.store ∨
    ∃ access, Accesses cluster event access ∧ next.store = apply config cluster.store access
  accepted : next.accepted = cluster.accepted ∨
    ∃ taskID, Accepts cluster event taskID ∧ next.accepted = taskID::cluster.accepted

theorem receiveFrame_effect (config : Config) {cluster next : System} {index : Nat}
    {reads : List Worker.Received} (taken : receiveFrame cluster index reads = some next) :
    Effect config cluster (.receive index reads) next := by
  simp only [receiveFrame] at taken
  split at taken
  next => cases taken
  next =>
    split at taken
    next guard =>
      cases taken
      refine ⟨?_,.inl rfl,.inl rfl⟩
      simp only
      split
      next => exact .rest _
      next task _ _ => exact .receive index reads task guard.2.1
    next => cases taken

theorem receiveReport_effect (config : Config) (cluster : System) (index : Nat) (now : Time)
    (report : Report) (present : cluster.reports[index]? = some report) :
    Effect config cluster (.reportArrives index now)
      (receiveReport config now report {cluster with reports := cluster.reports.eraseIdx index}) := by
  unfold receiveReport
  split
  next => exact ⟨.rest _,.inl rfl,.inl rfl⟩
  next req decoded =>
    refine ⟨.rest _,.inr ⟨_,.report index now report req present decoded,rfl⟩,?_⟩
    simp only
    split
    next stored => exact .inr ⟨_,.report index now report req present decoded stored,rfl⟩
    next => exact .inl rfl

theorem step_effect {config : Config} {cluster next : System} {event : Event}
    (taken : step config cluster event = some next) : Effect config cluster event next := by
  cases event with
  | store access =>
    simp only [step] at taken
    split at taken
    next allowed =>
      cases taken
      exact ⟨.rest _,.inr ⟨access,.store access allowed,rfl⟩,.inl rfl⟩
    next => cases taken
  | snapshot =>
    simp only [step] at taken
    split at taken <;> cases taken
    exact ⟨.rest _,.inl rfl,.inl rfl⟩
  | deliver connected =>
    simp only [step] at taken
    split at taken
    next => cases taken
    next => split at taken <;> cases taken <;> exact ⟨.rest _,.inl rfl,.inl rfl⟩
  | receive index reads => exact receiveFrame_effect config taken
  | work inner =>
    obtain ⟨worker,moved,rfl⟩ := Option.map_eq_some_iff.mp taken
    exact ⟨.work inner worker moved,.inl rfl,.inl rfl⟩
  | postResult index =>
    obtain ⟨⟨result,worker⟩,moved,rfl⟩ := Option.map_eq_some_iff.mp taken
    exact ⟨.postResult index result worker moved,.inl rfl,.inl rfl⟩
  | endBeat =>
    obtain ⟨⟨body,worker⟩,moved,rfl⟩ := Option.map_eq_some_iff.mp taken
    exact ⟨.endBeat body worker moved,.inl rfl,.inl rfl⟩
  | silence =>
    obtain ⟨⟨body,worker⟩,moved,rfl⟩ := Option.map_eq_some_iff.mp taken
    exact ⟨.silence body worker moved,.inl rfl,.inl rfl⟩
  | heartbeatArrives index now =>
    obtain ⟨body,present,rfl⟩ := Option.map_eq_some_iff.mp taken
    refine ⟨.rest _,?_,.inl rfl⟩
    simp only [receiveHeartbeat]
    split
    next => exact .inl rfl
    next req decoded => exact .inr ⟨_,.heartbeat index now body req present decoded,rfl⟩
  | reportArrives index now =>
    obtain ⟨report,present,rfl⟩ := Option.map_eq_some_iff.mp taken
    exact receiveReport_effect config cluster index now report present
  | loseFrame index | loseHeartbeat index | loseReport index =>
    cases taken
    exact ⟨.rest _,.inl rfl,.inl rfl⟩

theorem Serves.id_eq {node next : Worker.Node} {event : Event} (serves : Serves node event next) :
    next.id = node.id := by
  cases serves with
  | rest => rfl
  | receive index reads task =>
    unfold Worker.handle
    split <;> rfl
  | work inner _ taken => exact Worker.Node.step_id taken
  | postResult index result _ taken => rw [(Worker.postResult_inv taken).2,Worker.Node.setConsumer]
  | endBeat body _ taken => rw [Worker.endBeat_inv taken]
  | silence body _ taken => rw [Worker.silence_inv taken]

-- The worker with one consumer and the accesses that the runs of the next modules start with.
def singleWorker : Worker.Node := Worker.Node.start (utf8 "worker-1") (utf8 "127.0.0.1:9001") 1

def registration : Event := .store (.register ⟨utf8 "worker-1",utf8 "127.0.0.1:9001",1,[]⟩ 1)

def submission (now : Time) : Event :=
  .store (.submit ⟨utf8 "llama",utf8 "generate",utf8 "hello",none⟩ now)

end RdmaPlatform.Cluster
