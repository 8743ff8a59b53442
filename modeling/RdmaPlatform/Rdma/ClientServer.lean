import RdmaPlatform.Rdma.Session
import RdmaPlatform.Rdma.Registry

/-! Clients and servers over one transport: `rdma_client.cpp`, `rdma_server.cpp` and
`handshake.cpp`. A client has one connection, to its server, and may submit tasks once the
handshake is accepted; a server connects itself to every client it accepts or answers. Each
call is a few accesses to the transport, so what the transport keeps of messages, the
clients and servers keep of tasks and results. -/
namespace RdmaPlatform.Rdma
open Library

structure HandshakeRequest where
  initiator : Bytes
  responder : Bytes

structure HandshakeResponse where
  accepted : Bool
  detail : Bytes

namespace Handshake

def build (qp : QueuePair) : HandshakeRequest := ⟨qp.localNode,qp.remoteNode⟩

def validate (request : HandshakeRequest) : HandshakeResponse :=
  if request.initiator = [] then ⟨false,utf8 "handshake initiator is empty"⟩
  else if request.responder = [] then ⟨false,utf8 "handshake responder is empty"⟩
  else ⟨true,utf8 "handshake accepted"⟩

end Handshake

/-- `hasTransport` is false for a null transport pointer. -/
structure RdmaClient where
  nodeId : Bytes
  serverNode : Bytes
  hasTransport : Bool
  connection : Connection
  registry : MemoryRegistry
  nextWorkRequestId : UInt64

structure RdmaServer where
  nodeId : Bytes
  hasTransport : Bool
  peers : Table Bytes Connection

def decodeResult (message : Numbered Message) : Option ResultMessage :=
  message.item.payload.map ResultMessage.deserialize

namespace RdmaClient

def new (nodeId serverNode : Bytes) : RdmaClient :=
  ⟨nodeId,serverNode,true,⟨.new nodeId serverNode,false⟩,.new,1⟩

def connect (client : RdmaClient) (network : Network) : Bool × RdmaClient × Network :=
  if !client.hasTransport then (false,client,network)
  else if !(Handshake.validate (Handshake.build client.connection.queuePair)).accepted then
    (false,client,network)
  else
    let (up,connection) := client.connection.establish
    if !up then (false,{client with connection := connection},network)
    else (true,{client with connection := connection},
      {network with inboxes := Rdma.connect connection.queuePair network.inboxes})

/-- The message that `SubmitTask` posts. -/
def taskMessage (client : RdmaClient) (task : TaskMessage) : Message :=
  ⟨client.nodeId,client.serverNode,utf8 "task",task.description,
    (client.registry.register task.serialize).1.storage,client.nextWorkRequestId,.send⟩

/-- `queue` is the completion queue of the client. -/
def submitTask (config : TransportConfig) (queue : Nat) (task : TaskMessage) (now : Int)
    (client : RdmaClient) (network : Network) : UInt64 × RdmaClient × Network :=
  if !client.connection.established ∨ !client.hasTransport then (0,client,network)
  else
    (client.nextWorkRequestId,
      {client with
        registry := (client.registry.register task.serialize).2
        nextWorkRequestId := client.nextWorkRequestId + 1},
      network.post config ⟨client.connection.queuePair,client.taskMessage task,queue,now⟩)

def pollResult (client : RdmaClient) (network : Network) : Option ResultMessage × Network :=
  if !client.hasTransport then (none,network)
  else
    let (message,inboxes) := pollReceive client.nodeId network.inboxes
    (message.bind decodeResult,{network with inboxes := inboxes})

end RdmaClient

namespace RdmaServer

def new (nodeId : Bytes) : RdmaServer := ⟨nodeId,true,∅⟩

def ensurePeer (clientNode : Bytes) (server : RdmaServer) (network : Network) :
    Connection × RdmaServer × Network :=
  match server.peers.lookup clientNode with
  | some connection => (connection,server,network)
  | none =>
    let connection := (Connection.mk (.new server.nodeId clientNode) false).establish.2
    (connection,{server with peers := server.peers.put clientNode connection},
      if server.hasTransport then
        {network with inboxes := Rdma.connect connection.queuePair network.inboxes}
      else network)

def accept (clientNode : Bytes) (server : RdmaServer) (network : Network) :
    Bool × RdmaServer × Network :=
  if !server.hasTransport then (false,server,network)
  else (true,(server.ensurePeer clientNode network).2)

def pollTask (server : RdmaServer) (network : Network) : Option TaskMessage × Network :=
  if !server.hasTransport then (none,network)
  else
    let (message,inboxes) := pollReceive server.nodeId network.inboxes
    (message.bind Sessions.decodeTask,{network with inboxes := inboxes})

/-- The message that `SendResult` posts. -/
def resultMessage (clientNode : Bytes) (result : ResultMessage) (server : RdmaServer) : Message :=
  ⟨server.nodeId,clientNode,utf8 "result",result.detail,some result.serialize,0,.result⟩

def sendResult (config : TransportConfig) (queue : Nat) (clientNode : Bytes)
    (result : ResultMessage) (now : Int) (server : RdmaServer) (network : Network) :
    Bool × RdmaServer × Network :=
  if !server.hasTransport then (false,server,network)
  else
    let (connection,peered,network) := server.ensurePeer clientNode network
    (true,peered,network.post config ⟨connection.queuePair,server.resultMessage clientNode result,
      queue,now⟩)

end RdmaServer

/-- The clients and the servers of a process; client `i` has completion queue `2 * i` and
server `i` has completion queue `2 * i + 1`. -/
structure Parties where
  client : Nat → RdmaClient
  server : Nat → RdmaServer
  network : Network

namespace Parties

inductive Action where
  | connect (index : Nat)
  | submitTask (index : Nat) (task : TaskMessage) (now : Int)
  | pollResult (index : Nat)
  | clientCompletion (index : Nat)
  | accept (index : Nat) (clientNode : Bytes)
  | pollTask (index : Nat)
  | sendResult (index : Nat) (clientNode : Bytes) (result : ResultMessage) (now : Int)
  | serverCompletion (index : Nat)
  | finish (position : Nat)

def setClient (parties : Parties) (index : Nat) (next : RdmaClient × Network) : Parties :=
  {parties with client := Function.update parties.client index next.1,network := next.2}

def setServer (parties : Parties) (index : Nat) (next : RdmaServer × Network) : Parties :=
  {parties with server := Function.update parties.server index next.1,network := next.2}

def step (config : TransportConfig) (parties : Parties) : Action → Parties
  | .connect index => parties.setClient index ((parties.client index).connect parties.network).2
  | .submitTask index task now =>
    parties.setClient index ((parties.client index).submitTask config (2 * index) task now
      parties.network).2
  | .pollResult index => {parties with network := ((parties.client index).pollResult parties.network).2}
  | .clientCompletion index => {parties with network := parties.network.step config (.poll (2 * index))}
  | .accept index clientNode =>
    parties.setServer index ((parties.server index).accept clientNode parties.network).2
  | .pollTask index => {parties with network := ((parties.server index).pollTask parties.network).2}
  | .sendResult index clientNode result now =>
    parties.setServer index
      ((parties.server index).sendResult config (2 * index + 1) clientNode result now parties.network).2
  | .serverCompletion index =>
    {parties with network := parties.network.step config (.poll (2 * index + 1))}
  | .finish position => {parties with network := parties.network.finish position}

/-- The names of the nodes: for a client its own and that of its server. -/
def initial (clients : Nat → Bytes × Bytes) (servers : Nat → Bytes)
    (queues : Nat → CompletionQueueConfig) : Parties :=
  ⟨fun index => .new (clients index).1 (clients index).2,fun index => .new (servers index),
    .initial queues⟩

section Observations

/-- The task that this action posts to a node: a client without a connection posts nothing. -/
def submitsTo (node : Bytes) (parties : Parties) : Action → Option TaskMessage
  | .submitTask index task _ =>
    if (parties.client index).connection.established ∧ (parties.client index).serverNode = node then
      some task else none
  | _ => none

def pollsTask (node : Bytes) (parties : Parties) : Action → Option TaskMessage
  | .pollTask index =>
    if (parties.server index).nodeId = node then ((parties.server index).pollTask parties.network).1
    else none
  | _ => none

def sendsTo (node : Bytes) : Action → Option ResultMessage
  | .sendResult _ clientNode result _ => if clientNode = node then some result else none
  | _ => none

def pollsResult (node : Bytes) (parties : Parties) : Action → Option ResultMessage
  | .pollResult index =>
    if (parties.client index).nodeId = node then
      ((parties.client index).pollResult parties.network).1 else none
  | _ => none

def Action.resultNode : Action → Option Bytes
  | .sendResult _ clientNode _ _ => some clientNode
  | _ => none

/-- What a `SubmitTask` of client `index` returns if it posts. -/
def returnsId (config : TransportConfig) (index : Nat) (parties : Parties) : Action → Option UInt64
  | .submitTask other task now =>
    if other = index ∧ (parties.client index).connection.established then
      some ((parties.client index).submitTask config (2 * index) task now parties.network).1
    else none
  | _ => none

end Observations

/-- What can be written as text and read back. -/
def Action.Clean : Action → Prop
  | .submitTask _ task _ => task.Clean
  | .sendResult _ _ result _ => result.Clean
  | _ => True

end Parties

/-- A client that was made with these names. -/
structure RdmaClient.Ready (names : Bytes × Bytes) (client : RdmaClient) : Prop where
  node : client.nodeId = names.1
  server : client.serverNode = names.2
  transport : client.hasTransport = true
  connection : client.connection = ⟨.new names.1 names.2,false⟩ ∨
    client.connection = ⟨⟨names.1,names.2,.readyToSend⟩,true⟩

structure RdmaServer.Ready (name : Bytes) (server : RdmaServer) : Prop where
  node : server.nodeId = name
  transport : server.hasTransport = true
  peer : ∀ peer connection, server.peers.lookup peer = some connection →
    connection.queuePair = ⟨name,peer,.readyToSend⟩

namespace Parties

structure Ready (clients : Nat → Bytes × Bytes) (servers : Nat → Bytes) (parties : Parties) :
    Prop where
  client : ∀ index, (parties.client index).Ready (clients index)
  server : ∀ index, (parties.server index).Ready (servers index)

theorem initial_ready (clients : Nat → Bytes × Bytes) (servers : Nat → Bytes)
    (queues : Nat → CompletionQueueConfig) :
    Ready clients servers (initial clients servers queues) where
  client _ := ⟨rfl,rfl,rfl,.inl rfl⟩
  server _ := ⟨rfl,rfl,fun _ _ found => by cases found⟩

end Parties

section Calls

theorem RdmaClient.Ready.connect_spec {names : Bytes × Bytes} {client : RdmaClient}
    (ready : client.Ready names) (network : Network) :
    (client.connect network).2 = if names.1 = [] ∨ names.2 = [] then (client,network)
      else ({client with connection := ⟨⟨names.1,names.2,.readyToSend⟩,true⟩},
        {network with inboxes := Rdma.connect ⟨names.1,names.2,.readyToSend⟩ network.inboxes}) := by
  have ends : client.connection.queuePair.localNode = names.1 ∧
      client.connection.queuePair.remoteNode = names.2 := by
    rcases ready.connection with same | same <;> rw [same] <;> exact ⟨rfl,rfl⟩
  have up : client.connection.establish = (true,⟨⟨names.1,names.2,.readyToSend⟩,true⟩) := by
    rcases ready.connection with same | same <;> rw [same] <;> rfl
  simp only [RdmaClient.connect,ready.transport,Handshake.validate,Handshake.build,ends,up]
  by_cases first : names.1 = []
  · simp [first]
  · by_cases second : names.2 = []
    · simp [first,second]
    · simp [first,second]

theorem RdmaClient.Ready.submitTask_spec {names : Bytes × Bytes} {client : RdmaClient}
    (ready : client.Ready names) (config : TransportConfig) (queue : Nat) (task : TaskMessage)
    (now : Int) (network : Network) :
    client.submitTask config queue task now network =
      if client.connection.established then
        (client.nextWorkRequestId,
          {client with
            registry := (client.registry.register task.serialize).2
            nextWorkRequestId := client.nextWorkRequestId + 1},
          network.step config (.postSend ⟨names.1,names.2,.readyToSend⟩
            (client.taskMessage task) queue now))
      else (0,client,network) := by
  rcases ready.connection with same | same
  · simp [RdmaClient.submitTask,same]
  · simp [RdmaClient.submitTask,same,ready.transport,Network.step]

/-- The connections that `EnsurePeer` makes. -/
def RdmaServer.greetings (clientNode : Bytes) (server : RdmaServer) : List QueuePair :=
  match server.peers.lookup clientNode with
  | some _ => []
  | none => [⟨server.nodeId,clientNode,.readyToSend⟩]

/-- The transport after `Connect` for each of these queue pairs. -/
def Network.greet (qps : List QueuePair) (network : Network) : Network :=
  {network with inboxes := qps.foldl (fun inboxes qp => Rdma.connect qp inboxes) network.inboxes}

theorem Network.inbox_greet (qps : List QueuePair) (network : Network) (node : Bytes) :
    (network.greet qps).inbox node = network.inbox node := by
  show Inboxes.inbox (qps.foldl (fun inboxes qp => Rdma.connect qp inboxes) network.inboxes) node = _
  generalize start : network.inboxes = inboxes
  rw [Network.inbox,start]
  clear start
  induction qps generalizing inboxes with
  | nil => rfl
  | cons qp rest ih =>
    rw [List.foldl_cons,ih,Rdma.connect]
    simp only [Inboxes.inbox_tryEmplace]

theorem RdmaServer.Ready.ensurePeer_spec {name : Bytes} {server : RdmaServer}
    (ready : server.Ready name) (clientNode : Bytes) (network : Network) :
    (server.ensurePeer clientNode network).1.queuePair = ⟨name,clientNode,.readyToSend⟩ ∧
      (server.ensurePeer clientNode network).2.1.Ready name ∧
      (server.ensurePeer clientNode network).2.2 = network.greet (server.greetings clientNode) := by
  unfold RdmaServer.ensurePeer RdmaServer.greetings
  split
  next connection found => exact ⟨ready.peer clientNode connection found,ready,rfl⟩
  next =>
    refine ⟨?_,⟨ready.node,ready.transport,?_⟩,?_⟩
    · rw [ready.node]
      rfl
    · refine Table.put_forall _ _ _ (fun peer (connection : Connection) =>
        connection.queuePair = ⟨name,peer,.readyToSend⟩) ready.peer ?_
      rw [ready.node]
      rfl
    · simp only [ready.transport,if_true]
      rfl

end Calls

namespace Parties
open Transition DropOldest

variable {config : TransportConfig} {clients : Nat → Bytes × Bytes} {servers : Nat → Bytes}
  {parties : Parties}

/-- The connections that an action makes first. -/
def greetings (parties : Parties) : Action → List QueuePair
  | .connect index =>
    let client := parties.client index
    if client.nodeId = [] ∨ client.serverNode = [] then []
    else [⟨client.nodeId,client.serverNode,.readyToSend⟩]
  | .accept index clientNode => (parties.server index).greetings clientNode
  | .sendResult index clientNode _ _ => (parties.server index).greetings clientNode
  | _ => []

def greeted (parties : Parties) (action : Action) : Network :=
  parties.network.greet (parties.greetings action)

/-- The access of an action to the inboxes or the completion queues. -/
def access (parties : Parties) : Action → Option Event
  | .connect _ => none
  | .accept _ _ => none
  | .submitTask index task now =>
    let client := parties.client index
    if client.connection.established then
      some (.postSend ⟨client.nodeId,client.serverNode,.readyToSend⟩ (client.taskMessage task)
        (2 * index) now)
    else none
  | .sendResult index clientNode result now =>
    let server := parties.server index
    some (.postSend ⟨server.nodeId,clientNode,.readyToSend⟩ (server.resultMessage clientNode result)
      (2 * index + 1) now)
  | .pollResult index => some (.pollReceive (parties.client index).nodeId)
  | .pollTask index => some (.pollReceive (parties.server index).nodeId)
  | .clientCompletion index => some (.poll (2 * index))
  | .serverCompletion index => some (.poll (2 * index + 1))
  | .finish position => some (.finish position)

theorem setClient_client (parties : Parties) (index other : Nat) (next : RdmaClient × Network) :
    (parties.setClient index next).client other = if other = index then next.1
      else parties.client other :=
  Function.update_apply parties.client index next.1 other

theorem Ready.setClient (ready : Ready clients servers parties) {index : Nat} {client : RdmaClient}
    (next : client.Ready (clients index)) (network : Network) :
    Ready clients servers (parties.setClient index (client,network)) where
  client other := by
    rw [setClient_client]
    split
    next same => exact same ▸ next
    next => exact ready.client other
  server := ready.server

theorem Ready.setServer (ready : Ready clients servers parties) {index : Nat} {server : RdmaServer}
    (next : server.Ready (servers index)) (network : Network) :
    Ready clients servers (parties.setServer index (server,network)) where
  client := ready.client
  server other := by
    by_cases same : other = index
    · subst same
      simpa [Parties.setServer] using next
    · simpa [Parties.setServer,same] using ready.server other

theorem step_ready (config : TransportConfig) (parties : Parties) (action : Action)
    (ready : Ready clients servers parties) : Ready clients servers (parties.step config action) := by
  cases action with
  | connect index =>
    have client := ready.client index
    rw [step,client.connect_spec]
    split
    next => exact ready.setClient client _
    next =>
      refine ready.setClient ?_ _
      exact ⟨client.node,client.server,client.transport,.inr rfl⟩
  | submitTask index task now =>
    have client := ready.client index
    rw [step,client.submitTask_spec]
    split
    next =>
      refine ready.setClient ?_ _
      exact ⟨client.node,client.server,client.transport,client.connection⟩
    next => exact ready.setClient client _
  | accept index clientNode =>
    have server := ready.server index
    simp only [step,RdmaServer.accept,server.transport]
    exact ready.setServer (server.ensurePeer_spec clientNode parties.network).2.1 _
  | sendResult index clientNode result now =>
    have server := ready.server index
    simp only [step,RdmaServer.sendResult,server.transport]
    exact ready.setServer (server.ensurePeer_spec clientNode parties.network).2.1 _
  | pollResult | clientCompletion | pollTask | serverCompletion | finish =>
    exact ⟨ready.client,ready.server⟩

/-- Every action is its connections and then its access. -/
theorem step_network (config : TransportConfig) (parties : Parties) (action : Action)
    (ready : Ready clients servers parties) :
    (parties.step config action).network =
      (parties.access action).elim (parties.greeted action) ((parties.greeted action).step config) := by
  cases action with
  | connect index =>
    have client := ready.client index
    simp only [step,access,greeted,greetings,client.connect_spec,client.node,client.server]
    split <;> rfl
  | submitTask index task now =>
    have client := ready.client index
    simp only [step,access,greeted,client.submitTask_spec,client.node,client.server]
    split <;> rfl
  | pollResult index =>
    simp only [step,RdmaClient.pollResult,(ready.client index).transport]
    rfl
  | pollTask index =>
    simp only [step,RdmaServer.pollTask,(ready.server index).transport]
    rfl
  | accept index clientNode =>
    have server := ready.server index
    simp only [step,RdmaServer.accept,server.transport]
    exact (server.ensurePeer_spec clientNode parties.network).2.2
  | sendResult index clientNode result now =>
    have server := ready.server index
    obtain ⟨up,_,peered⟩ := server.ensurePeer_spec clientNode parties.network
    simp only [step,access,greeted,greetings,RdmaServer.sendResult,server.transport,← peered,
      server.node,← up]
    rfl
  | clientCompletion | serverCompletion | finish => rfl

/-- The message that an action delivers to a node. -/
def sent (node : Bytes) (parties : Parties) (action : Action) : Option (Numbered Message) :=
  (parties.access action).bind (Network.delivered node (parties.greeted action))

def taken (node : Bytes) (parties : Parties) (action : Action) : Option (Numbered Message) :=
  (parties.access action).bind (Network.received node (parties.greeted action))

theorem inbox_queueing (config : TransportConfig) (clients : Nat → Bytes × Bytes)
    (servers : Nat → Bytes) (node : Bytes) :
    Queueing (step config) (Ready clients servers) config.mailboxCapacity
      (fun parties => parties.network.inbox node) (sent node) (taken node) :=
  (Network.inbox_queueing config node).lift Parties.network greeted access (step_ready config)
    (fun _ _ _ => trivial) (fun parties _ => Network.inbox_greet _ parties.network node)
      (step_network config)

/-- What the action gives to a node finds room in its inbox. -/
def FindsRoom {α : Type} (config : TransportConfig) (node : Bytes)
    (given : Parties → Action → Option α) (parties : Parties) (action : Action) : Prop :=
  given parties action ≠ none → BoundedQueue.full config.mailboxCapacity
    (parties.network.inbox node) = false

instance decidableFindsRoom {α : Type} [DecidableEq α] (config : TransportConfig) (node : Bytes)
    (given : Parties → Action → Option α) (parties : Parties) (action : Action) :
    Decidable (FindsRoom config node given parties action) := by
  unfold FindsRoom; infer_instance

/-- The history of an inbox in what its messages say, where each of them says something. -/
theorem history_decoded {α : Type} (config : TransportConfig) (node : Bytes)
    (decode : Numbered Message → Option α) {given polled : Parties → Action → Option α}
    {Allowed : Action → Prop}
    (sends : ∀ parties action, Ready clients servers parties → Allowed action →
      (sent node parties action).map decode = (given parties action).map some)
    (polls : ∀ parties action, Ready clients servers parties →
      (taken node parties action).bind decode = polled parties action)
    (actions : List Action) (allowed : ∀ action ∈ actions, Allowed action)
    (ready : Ready clients servers parties) (empty : parties.network.inbox node = []) :
    History config.mailboxCapacity (outputs (step config) given actions parties)
      (outputs (step config) polled actions parties)
      (((actions.foldl (step config) parties).network.inbox node).filterMap decode)
      (Throughout (step config) (FindsRoom config node given) actions parties) := by
  have each : Throughout (step config) (fun _ action => Allowed action) actions parties :=
    throughout_of_forall (fun _ action member => allowed action member) parties
  have decoded (parties : Parties) (action : Action) (ready : Ready clients servers parties)
      (fine : Allowed action) :
      (sent node parties action).bind decode = given parties action := by
    have same := sends parties action ready fine
    cases message : sent node parties action <;> cases said : given parties action <;> simp_all
  have present (parties : Parties) (action : Action) (ready : Ready clients servers parties)
      (fine : Allowed action) :
      sent node parties action ≠ none ↔ given parties action ≠ none := by
    have same := sends parties action ready fine
    cases message : sent node parties action <;> cases said : given parties action <;> simp_all
  have history := (inbox_queueing config clients servers node).history actions parties ready empty
  have total : ∀ item ∈ outputs (step config) (sent node) actions parties,
      (decode item).isSome = true := by
    refine (forall_outputs_iff actions parties).mpr (each.imp (step_ready config) ?_ ready)
    intro parties action ready fine item shown
    have same := sends parties action ready fine
    rw [Option.mem_def.mp shown] at same
    cases said : given parties action <;> simp_all
  have said := history.filterMap decode total
  rw [← outputs_filterMap,← outputs_filterMap,outputs_congr (step_ready config) decoded actions
    parties ready each,outputs_congr (step_ready config)
    (fun parties action ready _ => polls parties action ready) actions parties ready
      each] at said
  have roomy : Throughout (step config) (FindsRoom config node (sent node)) actions parties ↔
      Throughout (step config) (FindsRoom config node given) actions parties := by
    constructor <;> intro room <;> refine (each.and room).imp (step_ready config) ?_ ready
    · exact fun parties action ready both some_ =>
        both.2 ((present parties action ready both.1).mpr some_)
    · exact fun parties action ready both some_ =>
        both.2 ((present parties action ready both.1).mp some_)
  exact {said with whole := said.whole.trans roomy}

/-- A post over a queue pair that is up is delivered to its remote node. -/
theorem delivered_post (node : Bytes) (network : Network) (name peer : Bytes) (message : Message)
    (queue : Nat) (now : Int) :
    Network.delivered node network (.postSend ⟨name,peer,.readyToSend⟩ message queue now) =
      if peer = node then some ⟨network.posted,addressed ⟨name,peer,.readyToSend⟩ message⟩
      else none := by
  simp only [Network.delivered,Event.delivers,Event.call,Option.bind_some,QueuePair.isReadyToSend,
    decide_true,true_and]
  split <;> rfl

theorem decodeTask_taskMessage (client : RdmaClient) {task : TaskMessage} (clean : task.Clean)
    (qp : QueuePair) (post : Nat) :
    Sessions.decodeTask ⟨post,addressed qp (client.taskMessage task)⟩ = some task := by
  have read := TaskMessage.deserialize_serialize task clean
  simp [Sessions.decodeTask,addressed,RdmaClient.taskMessage,MemoryRegistry.register,read]

theorem decodeResult_resultMessage (server : RdmaServer) (clientNode : Bytes) {result : ResultMessage}
    (clean : result.Clean) (qp : QueuePair) (post : Nat) :
    decodeResult ⟨post,addressed qp (server.resultMessage clientNode result)⟩ = some result := by
  have read := ResultMessage.deserialize_serialize result clean
  simp [decodeResult,addressed,RdmaServer.resultMessage,read]

/-- No client has the name of a server, nor takes a client for its server. -/
structure Apart (clients : Nat → Bytes × Bytes) (servers : Nat → Bytes) : Prop where
  server : ∀ client server, servers server ≠ (clients client).1
  remote : ∀ client other, (clients other).2 ≠ (clients client).1

/-- What is sent can be read back, and results are sent to clients. -/
def Action.Proper (clients : Nat → Bytes × Bytes) (action : Action) : Prop :=
  action.Clean ∧ ∀ node ∈ action.resultNode, ∃ client, node = (clients client).1

section Kinds
variable {node : Bytes} {action : Action}

theorem sent_task (other : ∀ client, node ≠ (clients client).1)
    (proper : action.Proper clients) :
    (sent node parties action).map Sessions.decodeTask = (submitsTo node parties action).map some := by
  cases action with
  | submitTask index task now =>
    simp only [sent,access,submitsTo]
    split
    next up =>
      rw [Option.bind_some,delivered_post]
      split
      next same => simp [up,same,decodeTask_taskMessage _ proper.1]
      next different => simp [different]
    next down => simp [down]
  | sendResult index clientNode result now =>
    obtain ⟨client,name⟩ := proper.2 clientNode rfl
    have different : ¬ clientNode = node := fun same => other client (same.symm.trans name)
    simp [sent,access,delivered_post,different,submitsTo]
  | connect | accept | pollResult | clientCompletion | pollTask | serverCompletion | finish => rfl

theorem sent_result (ready : Ready clients servers parties)
    (other : ∀ client, (clients client).2 ≠ node) (proper : action.Proper clients) :
    (sent node parties action).map decodeResult = (sendsTo node action).map some := by
  cases action with
  | submitTask index task now =>
    have different : ¬ (parties.client index).serverNode = node :=
      (ready.client index).server ▸ other index
    simp only [sent,access]
    split
    next => simp [delivered_post,different,sendsTo]
    next => rfl
  | sendResult index clientNode result now =>
    simp only [sent,access,Option.bind_some,delivered_post,sendsTo]
    split
    next => simp [decodeResult_resultMessage _ _ proper.1]
    next => rfl
  | connect | accept | pollResult | clientCompletion | pollTask | serverCompletion | finish => rfl

theorem taken_task (ready : Ready clients servers parties)
    (other : ∀ client, node ≠ (clients client).1) :
    (taken node parties action).bind Sessions.decodeTask = pollsTask node parties action := by
  cases action with
  | pollTask index =>
    simp only [taken,access,Option.bind_some,Network.received,Event.receivesAt,pollsTask,
      RdmaServer.pollTask,(ready.server index).transport,decide_eq_true_eq]
    split
    next same =>
      rw [same]
      rfl
    next => rfl
  | pollResult index =>
    have different : ¬ (parties.client index).nodeId = node :=
      (ready.client index).node ▸ fun same => other index same.symm
    simp [taken,access,Network.received,Event.receivesAt,different,pollsTask]
  | submitTask index task now =>
    simp only [taken,access]
    split <;> rfl
  | connect | accept | sendResult | clientCompletion | serverCompletion | finish => rfl

theorem taken_result (ready : Ready clients servers parties) (other : ∀ server, servers server ≠ node) :
    (taken node parties action).bind decodeResult = pollsResult node parties action := by
  cases action with
  | pollResult index =>
    simp only [taken,access,Option.bind_some,Network.received,Event.receivesAt,pollsResult,
      RdmaClient.pollResult,(ready.client index).transport,decide_eq_true_eq]
    split
    next same =>
      rw [same]
      rfl
    next => rfl
  | pollTask index =>
    have different : ¬ (parties.server index).nodeId = node := (ready.server index).node ▸ other index
    simp [taken,access,Network.received,Event.receivesAt,different,pollsResult]
  | submitTask index task now =>
    simp only [taken,access]
    split <;> rfl
  | connect | accept | sendResult | clientCompletion | serverCompletion | finish => rfl

end Kinds

/-- A submission returns the counter of its client and moves it on. -/
theorem returnsId_step (config : TransportConfig) (index : Nat) (parties : Parties) (action : Action)
    (ready : Ready clients servers parties) :
    returnsId config index parties action = none ∧
        ((parties.step config action).client index).nextWorkRequestId =
          (parties.client index).nextWorkRequestId ∨
      returnsId config index parties action = some (parties.client index).nextWorkRequestId ∧
        ((parties.step config action).client index).nextWorkRequestId =
          (parties.client index).nextWorkRequestId + 1 := by
  cases action with
  | connect other =>
    refine .inl ⟨rfl,?_⟩
    rw [step,(ready.client other).connect_spec,setClient_client]
    split
    next same =>
      rw [same]
      split <;> rfl
    next => rfl
  | submitTask other task now =>
    have client := ready.client other
    simp only [step,returnsId,client.submitTask_spec,setClient_client]
    by_cases same : index = other
    · subst same
      rw [client.submitTask_spec]
      by_cases up : (parties.client index).connection.established <;> simp [up]
    · simp [same,Ne.symm same]
  | accept | sendResult | pollResult | clientCompletion | pollTask | serverCompletion | finish =>
    exact .inl ⟨rfl,rfl⟩

theorem iterate_succ_one (turn : Nat) : (fun id : UInt64 => id + 1)^[turn] 1 = .ofNat (turn + 1) := by
  induction turn with
  | zero => rfl
  | succ turn ih =>
    rw [Function.iterate_succ_apply',ih,UInt64.ofNat_add (turn + 1) 1]
    rfl

/-- Over every interleaving: a server polls the tasks submitted to it and a client the
results sent to it, in their order and all of them unless its inbox was full, and the
submissions of a client are numbered from one. -/
theorem exchange_faithful (config : TransportConfig) (clients : Nat → Bytes × Bytes)
    (servers : Nat → Bytes) (queues : Nat → CompletionQueueConfig) (actions : List Action)
    (apart : Apart clients servers) (proper : ∀ action ∈ actions, action.Proper clients) :
    let start := initial clients servers queues
    let final := actions.foldl (step config) start
    (∀ server, History config.mailboxCapacity
      (outputs (step config) (submitsTo (servers server)) actions start)
      (outputs (step config) (pollsTask (servers server)) actions start)
      ((final.network.inbox (servers server)).filterMap Sessions.decodeTask)
      (Throughout (step config)
        (FindsRoom config (servers server) (submitsTo (servers server))) actions start)) ∧
    (∀ client, History config.mailboxCapacity
      (outputs (step config) (fun _ => sendsTo (clients client).1) actions start)
      (outputs (step config) (pollsResult (clients client).1) actions start)
      ((final.network.inbox (clients client).1).filterMap decodeResult)
      (Throughout (step config)
        (FindsRoom config (clients client).1 (fun _ => sendsTo (clients client).1)) actions start)) ∧
    ∀ client, outputs (step config) (returnsId config client) actions start =
      (List.range (outputs (step config) (returnsId config client) actions start).length).map
        (fun turn => .ofNat (turn + 1)) := by
  have ready := initial_ready clients servers queues
  refine ⟨fun server => ?_,fun client => ?_,fun client => ?_⟩
  · exact history_decoded config _ _
      (fun _ _ _ fine => sent_task (fun client => apart.server client server) fine)
      (fun _ _ ready => taken_task ready (fun client => apart.server client server)) actions
      proper ready rfl
  · exact history_decoded config _ _
      (fun _ _ ready fine => sent_result ready (apart.remote client) fine)
      (fun _ _ ready => taken_result ready (apart.server client)) actions proper ready rfl
  · have counted := (outputs_counted (fun parties => (parties.client client).nextWorkRequestId) (· + 1)
      (step_ready config) (returnsId_step config client) actions _ ready).1
    simpa only [initial,RdmaClient.new,iterate_succ_one] using counted

/-- One client and one server; whoever else there is has a name of its own. -/
def pairClients (index : Nat) : Bytes × Bytes :=
  if index = 0 then (utf8 "client-a",utf8 "server-a") else (utf8 "idle-client",utf8 "server-a")

def pairActions : List Action :=
  [.connect 0,.accept 0 (utf8 "client-a"),.submitTask 0 Sessions.demoTask 1,
    .submitTask 0 Sessions.demoTask 2,.pollTask 0,
    .sendResult 0 (utf8 "client-a") Sessions.demoResult 3,.pollResult 0]

theorem pairClients_apart : Apart pairClients (fun _ => utf8 "server-a") where
  server client _ := by
    unfold pairClients
    split <;> decide +kernel
  remote client other := by
    unfold pairClients
    split <;> split <;> decide +kernel

theorem pairActions_proper : ∀ action ∈ pairActions, action.Proper pairClients := by
  have clean : ∀ action ∈ pairActions, action.Clean := by
    have task : Sessions.demoTask.Clean := by decide
    have result : Sessions.demoResult.Clean := by
      unfold ResultMessage.Clean CleanMetadata
      decide
    simp [pairActions,Action.Clean,task,result]
  have known : ∀ action ∈ pairActions, ∀ node ∈ action.resultNode, node = (pairClients 0).1 := by
    simp [pairActions,Action.resultNode,pairClients]
  exact fun action member =>
    ⟨clean action member,fun node sent => ⟨0,known action member node sent⟩⟩

theorem exchange_faithful_pair :
    let start := initial pairClients (fun _ => utf8 "server-a") (fun _ => ⟨4⟩)
    outputs (step ⟨1⟩) (pollsTask (utf8 "server-a")) pairActions start ++
        ((pairActions.foldl (step ⟨1⟩) start).network.inbox (utf8 "server-a")).filterMap
          Sessions.decodeTask ≠
      outputs (step ⟨1⟩) (submitsTo (utf8 "server-a")) pairActions start ∧
    outputs (step ⟨1⟩) (returnsId ⟨1⟩ 0) pairActions start = [1,2] := by
  have faithful := exchange_faithful ⟨1⟩ pairClients (fun _ => utf8 "server-a")
    (fun _ => ⟨4⟩) pairActions
    pairClients_apart pairActions_proper
  refine ⟨fun whole => ?_,?_⟩
  · -- The second task finds the first in an inbox for one message.
    have roomy := (faithful.1 0).whole.mp whole
    revert roomy
    decide +kernel
  · have two : (outputs (step ⟨1⟩) (returnsId ⟨1⟩ 0) pairActions
        (initial pairClients (fun _ => utf8 "server-a") (fun _ => ⟨4⟩))).length = 2 := by decide +kernel
    have ids := faithful.2.2 0
    rw [two] at ids
    exact ids

end Parties

end RdmaPlatform.Rdma
