import RdmaPlatform.Rdma.Delivery
import RdmaPlatform.Rdma.Message

/-! Worker sessions over one transport: `rdma/worker_session.h`. A session posts
tasks and results to the inbox of the node they are meant for and reads tasks from
the inbox of its own node. -/
namespace RdmaPlatform.Rdma
open Library

structure Connection where
  queuePair : QueuePair
  established : Bool

def Connection.establish (connection : Connection) : Bool × Connection :=
  if connection.established then (true,connection)
  else
    let (up,queuePair) := connection.queuePair.bringUp
    (up,⟨queuePair,up⟩)

/-- `hasTransport` is false for a null transport pointer. -/
structure WorkerSession where
  nodeId : Bytes
  hasTransport : Bool
  peers : Table Bytes Connection
  nextWorkRequestId : UInt64

def WorkerSession.new (nodeId : Bytes) : WorkerSession := ⟨nodeId,true,∅,1⟩

structure SubmissionResult where
  taskId : Bytes
  success : Bool
  detail : Bytes
  workRequestId : UInt64

/-- The sessions of a process; session `i` polls completion queue `i`. -/
structure Sessions where
  session : Nat → WorkerSession
  network : Network

namespace Sessions

def peerOf (session : WorkerSession) (targetNode : Bytes) : Bytes :=
  if targetNode = [] then session.nodeId else targetNode

def ensurePeer (sessions : Sessions) (index : Nat) (peer : Bytes) : Connection × Sessions :=
  let session := sessions.session index
  match session.peers.lookup peer with
  | some connection => (connection,sessions)
  | none =>
    let connection := (Connection.mk (.new session.nodeId peer) false).establish.2
    (connection,{
      session := Function.update sessions.session index
        {session with peers := session.peers.put peer connection}
      network :=
        {sessions.network with inboxes := connect connection.queuePair sessions.network.inboxes}})

/-- A call from `EnsurePeer` to the broker's critical section of its `PostSend`;
`message` gets the new work request id. -/
def post (config : TransportConfig) (sessions : Sessions) (index : Nat) (peer : Bytes)
    (message : UInt64 → Message) (now : Int) : UInt64 × Sessions :=
  let (connection,sessions) := sessions.ensurePeer index peer
  let session := sessions.session index
  let workRequestId := session.nextWorkRequestId
  (workRequestId,{
    session := Function.update sessions.session index
      {session with nextWorkRequestId := workRequestId + 1}
    network := sessions.network.post config ⟨connection.queuePair,message workRequestId,index,now⟩})

def taskPost (session : WorkerSession) (task : TaskMessage) (workRequestId : UInt64) : Message :=
  ⟨session.nodeId,peerOf session task.targetNode,utf8 "task",task.description,some task.serialize,
    workRequestId,.send⟩

def resultPost (session : WorkerSession) (result : ResultMessage) (workRequestId : UInt64) : Message :=
  ⟨session.nodeId,peerOf session result.targetNode,utf8 "result",result.detail,some result.serialize,
    workRequestId,.result⟩

def submit (config : TransportConfig) (sessions : Sessions) (index : Nat) (task : TaskMessage)
    (now : Int) :
    SubmissionResult × Sessions :=
  let session := sessions.session index
  if session.hasTransport then
    let (workRequestId,sessions) := sessions.post config index (peerOf session task.targetNode)
      (taskPost session task) now
    (⟨task.taskId,true,utf8 "task submitted through rdma session",workRequestId⟩,sessions)
  else (⟨task.taskId,false,utf8 "transport is not configured",0⟩,sessions)

def sendResult (config : TransportConfig) (sessions : Sessions) (index : Nat)
    (result : ResultMessage) (now : Int) :
    Bool × Sessions :=
  let session := sessions.session index
  if session.hasTransport then
    (true,(sessions.post config index (peerOf session result.targetNode)
      (resultPost session result) now).2)
  else (false,sessions)

/-- `PollTask` with the message it takes from the inbox. -/
def receive (sessions : Sessions) (index : Nat) : Option (Numbered Message) × Sessions :=
  let session := sessions.session index
  if session.hasTransport then
    let (message,inboxes) := pollReceive session.nodeId sessions.network.inboxes
    (message,{sessions with network := {sessions.network with inboxes := inboxes}})
  else (none,sessions)

def decodeTask (message : Numbered Message) : Option TaskMessage :=
  message.item.payload.map TaskMessage.deserialize

def pollTask (sessions : Sessions) (index : Nat) : Option TaskMessage × Sessions :=
  let (message,sessions) := sessions.receive index
  (message.bind decodeTask,sessions)

inductive Action where
  | submit (index : Nat) (task : TaskMessage) (now : Int)
  | sendResult (index : Nat) (result : ResultMessage) (now : Int)
  | finish (position : Nat)
  | pollTask (index : Nat)
  | pollCompletion (index : Nat)

def step (config : TransportConfig) (sessions : Sessions) : Action → Sessions
  | .submit index task now => (sessions.submit config index task now).2
  | .sendResult index result now => (sessions.sendResult config index result now).2
  | .finish position => {sessions with network := sessions.network.finish position}
  | .pollTask index => (sessions.pollTask index).2
  | .pollCompletion index => {sessions with network := sessions.network.step config (.poll index)}

def initial (names : Nat → Bytes) (queues : Nat → CompletionQueueConfig) : Sessions :=
  ⟨fun index => .new (names index),.initial queues⟩

section Observations

/-- The task a `Submit` of this action addresses to a node. -/
def submitsTo (node : Bytes) (sessions : Sessions) : Action → Option TaskMessage
  | .submit index task _ =>
    if peerOf (sessions.session index) task.targetNode = node then some task else none
  | _ => none

/-- The result a `SendResult` of this action addresses to a node. -/
def reportsTo (node : Bytes) (sessions : Sessions) : Action → Option ResultMessage
  | .sendResult index result _ =>
    if peerOf (sessions.session index) result.targetNode = node then some result else none
  | _ => none

/-- The message a `PollTask` of this action takes at a node. -/
def takesAt (node : Bytes) (sessions : Sessions) : Action → Option (Numbered Message)
  | .pollTask index =>
    if (sessions.session index).nodeId = node then (sessions.receive index).1 else none
  | _ => none

/-- The task a `PollTask` of this action returns at a node. -/
def returnsAt (node : Bytes) (sessions : Sessions) : Action → Option TaskMessage
  | .pollTask index =>
    if (sessions.session index).nodeId = node then (sessions.pollTask index).1 else none
  | _ => none

end Observations

/-- What an action is about to post, and to which inbox. -/
structure Outgoing where
  index : Nat
  peer : Bytes
  message : UInt64 → Message
  now : Int

def outgoing (sessions : Sessions) : Action → Option Outgoing
  | .submit index task now =>
    let session := sessions.session index
    some ⟨index,peerOf session task.targetNode,taskPost session task,now⟩
  | .sendResult index result now =>
    let session := sessions.session index
    some ⟨index,peerOf session result.targetNode,resultPost session result,now⟩
  | _ => none

/-- The message an action puts into the inbox of a node. -/
def postsTo (node : Bytes) (sessions : Sessions) (action : Action) : Option (Numbered Message) :=
  (sessions.outgoing action).bind (fun out =>
    if out.peer = node then
      let session := sessions.session out.index
      some ⟨sessions.network.posted,
        addressed ⟨session.nodeId,out.peer,.readyToSend⟩ (out.message session.nextWorkRequestId)⟩
    else none)

/-- Every session has its transport, and the connections it keeps are up. -/
structure Connected (names : Nat → Bytes) (sessions : Sessions) : Prop where
  node : ∀ index, (sessions.session index).nodeId = names index
  transport : ∀ index, (sessions.session index).hasTransport = true
  peer : ∀ index peer connection, (sessions.session index).peers.lookup peer = some connection →
    connection.queuePair = ⟨names index,peer,.readyToSend⟩

theorem initial_connected (names : Nat → Bytes) (queues : Nat → CompletionQueueConfig) :
    Connected names (initial names queues) where
  node _ := rfl
  transport _ := rfl
  peer _ _ _ found := by cases found

theorem establish_new (nodeId peer : Bytes) :
    (Connection.mk (.new nodeId peer) false).establish.2.queuePair = ⟨nodeId,peer,.readyToSend⟩ := rfl

theorem connected_update {names : Nat → Bytes} {sessions : Sessions}
    (connected : Connected names sessions) (network : Network) (index : Nat)
    (session : WorkerSession) (node : session.nodeId = names index)
    (transport : session.hasTransport = true)
    (peer : ∀ peer connection, session.peers.lookup peer = some connection →
      connection.queuePair = ⟨names index,peer,.readyToSend⟩) :
    Connected names ⟨Function.update sessions.session index session,network⟩ := by
  refine ⟨?_,?_,?_⟩
  · intro other
    by_cases same : other = index
    · subst same
      simpa using node
    · simpa [same] using connected.node other
  · intro other
    by_cases same : other = index
    · subst same
      simpa using transport
    · simpa [same] using connected.transport other
  · intro other
    by_cases same : other = index
    · subst same
      simpa using peer
    · simpa [same] using connected.peer other

theorem ensurePeer_spec {names : Nat → Bytes} {sessions : Sessions}
    (connected : Connected names sessions) (index : Nat) (peer : Bytes) :
    (sessions.ensurePeer index peer).1.queuePair = ⟨names index,peer,.readyToSend⟩ ∧
      Connected names (sessions.ensurePeer index peer).2 ∧
      (∀ node, (sessions.ensurePeer index peer).2.network.inbox node = sessions.network.inbox node) ∧
      (sessions.ensurePeer index peer).2.network.posted = sessions.network.posted ∧
      ((sessions.ensurePeer index peer).2.session index).nextWorkRequestId =
        (sessions.session index).nextWorkRequestId := by
  unfold ensurePeer
  simp only
  split
  next connection found =>
    exact ⟨connected.peer index peer connection found,connected,fun _ => rfl,rfl,rfl⟩
  next =>
    refine ⟨?_,?_,?_,rfl,?_⟩
    · rw [establish_new,connected.node]
    · refine connected_update connected _ index _ ?_ ?_ ?_
      · exact connected.node index
      · exact connected.transport index
      refine Table.put_forall _ _ _ (fun peer (connection : Connection) =>
        connection.queuePair = ⟨names index,peer,.readyToSend⟩) (connected.peer index) ?_
      rw [establish_new,connected.node]
    · intro node
      simp only [Network.inbox,connect,Inboxes.inbox_tryEmplace]
    · simp

theorem post_spec (config : TransportConfig) {names : Nat → Bytes} {sessions : Sessions}
    (connected : Connected names sessions) (index : Nat) (peer : Bytes) (message : UInt64 → Message)
    (now : Int) :
    Connected names (sessions.post config index peer message now).2 ∧
      ∀ node, (sessions.post config index peer message now).2.network.inbox node =
        if peer = node then
          BoundedQueue.push config.mailboxCapacity (sessions.network.inbox node)
            ⟨sessions.network.posted,addressed ⟨names index,peer,.readyToSend⟩
            (message (sessions.session index).nextWorkRequestId)⟩
        else sessions.network.inbox node := by
  obtain ⟨ready,kept,inboxes,posted,counter⟩ := ensurePeer_spec connected index peer
  refine ⟨connected_update kept _ index _ ?_ ?_ ?_,?_⟩
  · exact kept.node index
  · exact kept.transport index
  · exact kept.peer index
  intro node
  simp only [post,Network.inbox_post,ready,inboxes,posted,counter,QueuePair.isReadyToSend,
    decide_true,true_and]

theorem step_outgoing (config : TransportConfig) {names : Nat → Bytes} {sessions : Sessions}
    (connected : Connected names sessions) {action : Action} {out : Outgoing}
    (posts : sessions.outgoing action = some out) :
    sessions.step config action = (sessions.post config out.index out.peer out.message out.now).2 := by
  cases action with
  | submit index =>
    cases posts
    simp only [step,submit,connected.transport index,if_true]
  | sendResult index =>
    cases posts
    simp only [step,sendResult,connected.transport index,if_true]
  | finish | pollTask | pollCompletion => cases posts

theorem step_connected (config : TransportConfig) (names : Nat → Bytes) (sessions : Sessions)
    (action : Action) (connected : Connected names sessions) :
    Connected names (sessions.step config action) := by
  cases posts : sessions.outgoing action with
  | some out =>
    rw [step_outgoing config connected posts]
    exact (post_spec config connected _ _ _ _).1
  | none =>
    cases action with
    | submit | sendResult => cases posts
    | finish | pollCompletion => exact ⟨connected.node,connected.transport,connected.peer⟩
    | pollTask index =>
      simp only [step,pollTask,receive,connected.transport index,if_true]
      exact ⟨connected.node,connected.transport,connected.peer⟩

def pollsAt (node : Bytes) (sessions : Sessions) : Action → Bool
  | .pollTask index => (sessions.session index).nodeId = node
  | _ => false

theorem pollsAt_of_outgoing {sessions : Sessions} {action : Action} {out : Outgoing} (node : Bytes)
    (posts : sessions.outgoing action = some out) : sessions.pollsAt node action = false := by
  cases action with
  | pollTask => cases posts
  | submit | sendResult | finish | pollCompletion => rfl

theorem inbox_step (config : TransportConfig) {names : Nat → Bytes} {sessions : Sessions}
    (connected : Connected names sessions) (action : Action) (node : Bytes) :
    (sessions.step config action).network.inbox node =
      match sessions.postsTo node action with
      | some message => BoundedQueue.push config.mailboxCapacity (sessions.network.inbox node) message
      | none =>
        if sessions.pollsAt node action then (sessions.network.inbox node).tail
        else sessions.network.inbox node := by
  cases posts : sessions.outgoing action with
  | some out =>
    rw [step_outgoing config connected posts,(post_spec config connected _ _ _ _).2 node]
    simp only [postsTo,posts,Option.bind_some,connected.node out.index,pollsAt_of_outgoing node posts]
    split <;> rfl
  | none =>
    simp only [postsTo,posts,Option.bind_none]
    cases action with
    | submit | sendResult => cases posts
    | finish position => exact Network.inbox_finish _ _ _
    | pollCompletion => rfl
    | pollTask index =>
      simp only [step,pollTask,receive,connected.transport index,if_true,Network.inbox,
        Inboxes.inbox_pollReceive,pollsAt,decide_eq_true_eq,eq_comm (a := node)]
      split
      next same => rw [same]
      next => rfl

theorem takesAt_eq {names : Nat → Bytes} {sessions : Sessions} (connected : Connected names sessions)
    (action : Action) (node : Bytes) :
    sessions.takesAt node action =
      if sessions.pollsAt node action then (sessions.network.inbox node).head? else none := by
  cases action with
  | pollTask index =>
    simp only [takesAt,pollsAt,receive,connected.transport index,if_true,Inboxes.pollReceive_fst,
      decide_eq_true_eq]
    split
    next same => rw [same]; rfl
    next => rfl
  | submit | sendResult | finish | pollCompletion => rfl

theorem returnsAt_eq (node : Bytes) (sessions : Sessions) (action : Action) :
    sessions.returnsAt node action = (sessions.takesAt node action).bind decodeTask := by
  cases action with
  | pollTask index =>
    simp only [returnsAt,takesAt,pollTask]
    split <;> rfl
  | submit | sendResult | finish | pollCompletion => rfl

/-- The action finds room in the inbox it posts to. -/
def Fits (config : TransportConfig) (sessions : Sessions) (action : Action) : Prop :=
  ∀ out ∈ sessions.outgoing action,
    BoundedQueue.full config.mailboxCapacity (sessions.network.inbox out.peer) = false

theorem step_conserves (config : TransportConfig) {names : Nat → Bytes} (node : Bytes)
    (sessions : Sessions) (action : Action) (connected : Connected names sessions)
    (fits : Fits config sessions action) :
    (sessions.takesAt node action).toList ++ (sessions.step config action).network.inbox node =
      sessions.network.inbox node ++ (sessions.postsTo node action).toList := by
  rw [inbox_step config connected,takesAt_eq connected]
  cases posted : sessions.postsTo node action with
  | some message =>
    simp only [postsTo,Option.bind_eq_some_iff] at posted
    obtain ⟨out,posts,posted⟩ := posted
    split at posted
    next here =>
      have room := fits out posts
      rw [here] at room
      simp [pollsAt_of_outgoing node posts,BoundedQueue.push_of_room room]
    next => cases posted
  | none =>
    simp only [Option.toList_none,List.append_nil]
    split
    next => cases sessions.network.inbox node <;> rfl
    next => rfl

/-- A submitted task can be written as text and read back. -/
def Action.Clean : Action → Prop
  | .submit _ task _ => task.Clean
  | _ => True

theorem submitsTo_eq (node : Bytes) (sessions : Sessions) (action : Action) (clean : action.Clean)
    (tasks : sessions.reportsTo node action = none) :
    sessions.submitsTo node action = (sessions.postsTo node action).bind decodeTask := by
  cases action with
  | submit index task now =>
    simp only [submitsTo,postsTo,outgoing,Option.bind_some]
    split
    next =>
      have read := TaskMessage.deserialize_serialize task clean
      simp [decodeTask,addressed,taskPost,read]
    next => rfl
  | sendResult index result now =>
    simp only [reportsTo,ite_eq_right_iff,reduceCtorEq,imp_false] at tasks
    simp [submitsTo,postsTo,outgoing,tasks]
  | finish | pollTask | pollCompletion => rfl

theorem postsTo_result (node : Bytes) (sessions : Sessions) (action : Action) :
    (∀ message ∈ sessions.postsTo node action, message.item.topic ≠ utf8 "result") ↔
      sessions.reportsTo node action = none := by
  cases action with
  | submit index task now =>
    simp only [postsTo,outgoing,Option.bind_some,reportsTo,iff_true]
    intro message posted
    split at posted
    next =>
      cases posted
      simp only [addressed,taskPost]
      decide
    next => cases posted
  | sendResult index result now =>
    simp only [postsTo,outgoing,Option.bind_some,reportsTo]
    split
    next => simp [addressed,resultPost]
    next => simp
  | finish | pollTask | pollCompletion => simp [postsTo,outgoing,reportsTo]

section Runs

variable (config : TransportConfig)

/-- What `PollTask` returned at a node is the first part of what was submitted to
it, and none of it was read from a result. -/
def Faithful (node : Bytes) (actions : List Action) (sessions : Sessions) : Prop :=
  Transition.outputs (step config) (returnsAt node) actions sessions <+:
      Transition.outputs (step config) (submitsTo node) actions sessions ∧
    ∀ message ∈ Transition.outputs (step config) (takesAt node) actions sessions,
      message.item.topic ≠ utf8 "result"

theorem taken_append_inbox {names : Nat → Bytes} (node : Bytes) (actions : List Action)
    (sessions : Sessions) (connected : Connected names sessions)
    (empty : sessions.network.inbox node = [])
    (fits : Transition.Throughout (step config) (Fits config) actions sessions) :
    Transition.outputs (step config) (takesAt node) actions sessions ++
        (actions.foldl (step config) sessions).network.inbox node =
      Transition.outputs (step config) (postsTo node) actions sessions := by
  have conserved := Transition.outputs_conserved (takesAt node) (postsTo node)
    (fun sessions => sessions.network.inbox node) (step_connected config names)
    (fun sessions action => step_conserves config node sessions action) actions sessions connected fits
  rwa [empty,List.nil_append] at conserved

theorem faithful_of_no_result {names : Nat → Bytes} (node : Bytes) (actions : List Action)
    (sessions : Sessions) (connected : Connected names sessions)
    (empty : sessions.network.inbox node = [])
    (fits : Transition.Throughout (step config) (Fits config) actions sessions)
    (clean : Transition.Throughout (step config) (fun _ action => action.Clean) actions sessions)
    (tasks : Transition.Throughout (step config)
      (fun sessions action => sessions.reportsTo node action = none) actions sessions) :
    Faithful config node actions sessions := by
  have taken := taken_append_inbox config node actions sessions connected empty fits
  have returned : Transition.outputs (step config) (returnsAt node) actions sessions =
      (Transition.outputs (step config) (takesAt node) actions sessions).filterMap decodeTask := by
    rw [← Transition.outputs_filterMap]
    congr 1
    funext sessions action
    exact returnsAt_eq node sessions action
  have submitted : Transition.outputs (step config) (submitsTo node) actions sessions =
      (Transition.outputs (step config) (postsTo node) actions sessions).filterMap decodeTask := by
    rw [← Transition.outputs_filterMap]
    exact Transition.outputs_congr (step_connected config names)
      (fun sessions action _ allowed => submitsTo_eq node sessions action allowed.1 allowed.2)
        actions sessions
      connected (clean.and tasks)
  constructor
  · rw [returned,submitted,← taken,List.filterMap_append]
    exact List.prefix_append _ _
  · intro message received
    have posted : message ∈ Transition.outputs (step config) (postsTo node) actions sessions := by
      rw [← taken]
      exact List.mem_append_left _ received
    have plain := tasks.imp (step_connected config names)
      (fun sessions action _ none => (postsTo_result node sessions action).mpr none) connected
    exact (Transition.forall_outputs_iff actions sessions).mpr plain message posted

theorem run_connected {names : Nat → Bytes} (actions : List Action) {sessions : Sessions}
    (connected : Connected names sessions) : Connected names (actions.foldl (step config) sessions) :=
  List.foldlRecOn actions (step config) connected
    (fun sessions kept action _ => step_connected config names sessions action kept)

theorem inbox_drained {names : Nat → Bytes} (reader polls : Nat) (sessions : Sessions)
    (connected : Connected names sessions) :
    ((List.replicate polls (Action.pollTask reader)).foldl (step config) sessions).network.inbox
      (names reader) = (sessions.network.inbox (names reader)).drop polls := by
  induction polls generalizing sessions with
  | zero => rfl
  | succ polls ih =>
    have own : sessions.pollsAt (names reader) (.pollTask reader) = true := by
      simp [pollsAt,connected.node reader]
    rw [List.replicate_succ,List.foldl_cons,ih _ (step_connected config names sessions _ connected),
      inbox_step config connected]
    simp [postsTo,outgoing,own]

/-- Where no inbox overflows and the tasks can be written as text, polling at a
node is faithful, however long it goes on, exactly if no result is sent to it. -/
theorem tasks_faithful_iff (names : Nat → Bytes) (queues : Nat → CompletionQueueConfig)
    (actions : List Action) (reader : Nat)
    (fits : Transition.Throughout (step config) (Fits config) actions (initial names queues))
    (clean : Transition.Throughout (step config) (fun _ action => action.Clean) actions
      (initial names queues)) :
    (∀ polls, Faithful config (names reader) (actions ++ List.replicate polls (.pollTask reader))
      (initial names queues)) ↔
      Transition.Throughout (step config)
        (fun sessions action => sessions.reportsTo (names reader) action = none) actions
          (initial names queues) := by
  have connected := initial_connected names queues
  have empty : (initial names queues).network.inbox (names reader) = [] := rfl
  have fitting (polls : Nat) : Transition.Throughout (step config) (Fits config)
      (actions ++ List.replicate polls (.pollTask reader)) (initial names queues) := by
    refine (Transition.throughout_append _ _ _).mpr ⟨fits,Transition.throughout_of_forall ?_ _⟩
    intro sessions action member out posts
    rw [List.eq_of_mem_replicate member] at posts
    cases posts
  constructor
  · intro faithful
    -- Enough polls empty the inbox, so every posted message is among those taken.
    obtain ⟨polls,enough⟩ : ∃ polls,
        ((actions.foldl (step config) (initial names queues)).network.inbox (names reader)).length ≤
          polls :=
      ⟨_,le_refl _⟩
    have taken := taken_append_inbox config (names reader) _ _ connected empty (fitting polls)
    rw [List.foldl_append,inbox_drained config reader _ _ (run_connected config actions connected),
      List.drop_eq_nil_of_le enough,List.append_nil] at taken
    have plain := (faithful polls).2
    rw [taken,Transition.forall_outputs_iff,Transition.throughout_append] at plain
    exact plain.1.imp (step_connected config names)
      (fun sessions action _ none => (postsTo_result (names reader) sessions action).mp none) connected
  · intro tasks polls
    apply faithful_of_no_result config (names reader) _ _ connected empty (fitting polls)
    · refine (Transition.throughout_append _ _ _).mpr ⟨clean,Transition.throughout_of_forall ?_ _⟩
      intro sessions action member
      rw [List.eq_of_mem_replicate member]
      trivial
    · refine (Transition.throughout_append _ _ _).mpr ⟨tasks,Transition.throughout_of_forall ?_ _⟩
      intro sessions action member
      rw [List.eq_of_mem_replicate member]
      rfl

end Runs

instance decidableTaskClean (message : TaskMessage) : Decidable message.Clean := by
  unfold TaskMessage.Clean CleanMetadata; infer_instance

instance decidableActionClean (action : Action) : Decidable action.Clean := by
  unfold Action.Clean; split <;> infer_instance

instance decidableFits (config : TransportConfig) (sessions : Sessions) (action : Action) :
    Decidable (Fits config sessions action) := by
  unfold Fits; infer_instance

def demoNames (index : Nat) : Bytes := if index = 0 then utf8 "controller" else utf8 "worker-a"

def demoTask : TaskMessage :=
  ⟨utf8 "job-42",utf8 "broadcast",utf8 "controller",utf8 "worker-a",utf8 "ship one tensor shard",.empty⟩

def demoResult : ResultMessage :=
  ⟨utf8 "job-42",utf8 "worker-a",utf8 "controller",true,utf8 "task executed by worker session",.empty⟩

def demoActions : List Action :=
  [.submit 0 demoTask 1,.finish 0,.pollTask 1,.sendResult 1 demoResult 2,.finish 0]

theorem tasks_faithful_iff_worker :
    Faithful ⟨4096⟩ (utf8 "worker-a") (demoActions ++ List.replicate 2 (.pollTask 1))
      (initial demoNames (fun _ => ⟨1024⟩)) :=
  (tasks_faithful_iff ⟨4096⟩ demoNames (fun _ => ⟨1024⟩) demoActions 1 (by decide) (by decide)).mpr
    (by decide) 2

/-- The controller of the demo polls for a task and gets its worker's result. -/
theorem result_polled_as_task :
    ¬ ∀ (config : TransportConfig) (names : Nat → Bytes) (queues : Nat → CompletionQueueConfig)
      (actions : List Action) (node : Bytes),
      Transition.Throughout (step config) (Fits config) actions (initial names queues) →
      Transition.Throughout (step config) (fun _ action => action.Clean) actions
        (initial names queues) →
      Faithful config node actions (initial names queues) := by
  intro faithful
  have prefixed := (faithful ⟨4096⟩ demoNames (fun _ => ⟨1024⟩) (demoActions ++ [.pollTask 0])
    (utf8 "controller")
    (by decide) (by decide)).1
  revert prefixed
  decide

end Sessions

end RdmaPlatform.Rdma
