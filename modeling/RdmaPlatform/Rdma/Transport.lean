import RdmaPlatform.Library.Table
import RdmaPlatform.Library.Bytes
import RdmaPlatform.Library.BoundedQueue
import RdmaPlatform.Library.Transition
import Mathlib.Logic.Function.Basic

/-! The in-memory transport: queue pairs, completion queues and the broker with
one inbox per node. A post writes the inbox under the broker's lock and then the
completion under the queue's lock, and any other access may fall between the two.
The model numbers the posts, so that equal messages stay apart; the code has no
such number and no function reads it. -/
namespace RdmaPlatform.Rdma
open Library

inductive QueuePairState where
  | reset
  | init
  | readyToReceive
  | readyToSend
  | error
  deriving DecidableEq

structure QueuePair where
  localNode : Bytes
  remoteNode : Bytes
  state : QueuePairState
  deriving DecidableEq

namespace QueuePair

def new (localNode remoteNode : Bytes) : QueuePair := ⟨localNode,remoteNode,.reset⟩

def transitionTo (qp : QueuePair) (next : QueuePairState) : Bool × QueuePair :=
  match qp.state, next with
  | .reset, .init | .init, .readyToReceive | .readyToReceive, .readyToSend | _, .error =>
    (true,{qp with state := next})
  | _, _ => (false,qp)

/-- One `if` of `BringUp`; the error is its early `return false`. -/
def raise (qp : QueuePair) (current next : QueuePairState) : Except QueuePair QueuePair :=
  if qp.state = current then
    match qp.transitionTo next with
    | (true,qp) => .ok qp
    | (false,qp) => .error qp
  else .ok qp

def bringUp (qp : QueuePair) : Bool × QueuePair :=
  match (do
    let qp ← qp.raise .reset .init
    let qp ← qp.raise .init .readyToReceive
    qp.raise .readyToReceive .readyToSend) with
  | .error qp => (false,qp)
  | .ok qp => (qp.state = .readyToSend,qp)

def isReadyToSend (qp : QueuePair) : Bool := qp.state = .readyToSend

end QueuePair

inductive OperationType where
  | send
  | write
  | result
  deriving DecidableEq

inductive CompletionStatus where
  | success
  | failed
  | timeout
  deriving DecidableEq

/-- `payload` is the buffer the message points to, `none` the null pointer. -/
structure Message where
  source : Bytes
  destination : Bytes
  topic : Bytes
  description : Bytes
  payload : Option Bytes
  workRequestId : UInt64
  operation : OperationType
  deriving DecidableEq

def Message.size (message : Message) : Nat := (message.payload.map List.length).getD 0

structure CompletionEvent where
  workRequestId : UInt64
  status : CompletionStatus
  operation : OperationType
  source : Bytes
  destination : Bytes
  detail : Bytes
  completedAt : Int
  bytes : Nat
  deriving DecidableEq

structure MemoryRegion where
  key : Bytes
  localKey : UInt32
  remoteKey : UInt32
  storage : Option Bytes

structure TransportConfig where
  mailboxCapacity : Nat

structure CompletionQueueConfig where
  depth : Nat

/-- An object with the number of the post that made it. -/
structure Numbered (α : Type) where
  post : Nat
  item : α
  deriving DecidableEq

structure CompletionQueue where
  config : CompletionQueueConfig
  queue : List (Numbered CompletionEvent)

namespace CompletionQueue

def push (cq : CompletionQueue) (event : Numbered CompletionEvent) : CompletionQueue :=
  {cq with queue := BoundedQueue.push cq.config.depth cq.queue event}

/-- The result when the wait ends: a timeout leaves the queue empty. -/
def poll (cq : CompletionQueue) : Option (Numbered CompletionEvent) × CompletionQueue :=
  (cq.queue.head?,{cq with queue := cq.queue.tail})

end CompletionQueue

abbrev Inboxes := Table Bytes (List (Numbered Message))

def Inboxes.inbox (inboxes : Inboxes) (node : Bytes) : List (Numbered Message) :=
  (inboxes.lookup node).getD []

def tryEmplace (node : Bytes) (inboxes : Inboxes) : Inboxes :=
  match inboxes.lookup node with
  | some _ => inboxes
  | none => inboxes.put node []

def connect (qp : QueuePair) (inboxes : Inboxes) : Inboxes :=
  tryEmplace qp.remoteNode (tryEmplace qp.localNode inboxes)

def addressed (qp : QueuePair) (message : Message) : Message :=
  {message with
    source := if message.source = [] then qp.localNode else message.source
    destination := qp.remoteNode}

/-- The critical section of `PostSend` on the broker. -/
def deliver (config : TransportConfig) (qp : QueuePair) (message : Numbered Message)
    (inboxes : Inboxes) : Inboxes :=
  inboxes.put qp.remoteNode
    (BoundedQueue.push config.mailboxCapacity (inboxes.inbox qp.remoteNode) message)

/-- The completion that `PostSend` pushes at its end or at its early return. -/
def completion (qp : QueuePair) (message : Message) (now : Int) : CompletionEvent :=
  if qp.isReadyToSend then
    ⟨message.workRequestId,.success,message.operation,qp.localNode,qp.remoteNode,
      utf8 "send completed through in-memory RDMA backend",now,message.size⟩
  else
    ⟨message.workRequestId,.failed,message.operation,qp.localNode,qp.remoteNode,
      utf8 "queue pair is not ready to send",now,0⟩

/-- What `PostWrite` passes to `PostSend`. -/
def writeMessage (qp : QueuePair) (region : MemoryRegion) (topic : Bytes) (workRequestId : UInt64) :
    Message :=
  ⟨qp.localNode,qp.remoteNode,topic,region.key,region.storage,workRequestId,.write⟩

/-- The result when the wait ends: a timeout leaves the inbox empty. -/
def pollReceive (node : Bytes) (inboxes : Inboxes) : Option (Numbered Message) × Inboxes :=
  let inboxes := tryEmplace node inboxes
  match inboxes.inbox node with
  | [] => (none,inboxes)
  | front::rest => (some front,inboxes.put node rest)

/-- A call of `PostSend` that has still to push its completion. -/
structure Posting where
  queue : Nat
  completion : Numbered CompletionEvent
  deriving DecidableEq

structure Network where
  inboxes : Inboxes
  queues : Nat → CompletionQueue
  posting : List Posting
  posted : Nat

structure Call where
  qp : QueuePair
  message : Message
  queue : Nat
  now : Int

inductive Event where
  | connect (qp : QueuePair)
  | postSend (qp : QueuePair) (message : Message) (queue : Nat) (now : Int)
  | postWrite (qp : QueuePair) (region : MemoryRegion) (topic : Bytes) (queue : Nat)
      (workRequestId : UInt64) (now : Int)
  | finish (index : Nat)
  | pollReceive (node : Bytes)
  | poll (queue : Nat)

def Event.call : Event → Option Call
  | .postSend qp message queue now => some ⟨qp,message,queue,now⟩
  | .postWrite qp region topic queue workRequestId now =>
    some ⟨qp,writeMessage qp region topic workRequestId,queue,now⟩
  | _ => none

namespace Network

def inbox (network : Network) (node : Bytes) : List (Numbered Message) := network.inboxes.inbox node

def post (config : TransportConfig) (network : Network) (call : Call) : Network :=
  {network with
    inboxes :=
      if call.qp.isReadyToSend then
        deliver config call.qp ⟨network.posted,addressed call.qp call.message⟩ network.inboxes
      else network.inboxes
    posting := network.posting ++
      [⟨call.queue,⟨network.posted,completion call.qp call.message call.now⟩⟩]
    posted := network.posted + 1}

def finish (network : Network) (index : Nat) : Network :=
  match network.posting[index]? with
  | none => network
  | some posting =>
    {network with
      posting := network.posting.eraseIdx index
      queues := Function.update network.queues posting.queue
        ((network.queues posting.queue).push posting.completion)}

def step (config : TransportConfig) (network : Network) : Event → Network
  | .connect qp => {network with inboxes := Rdma.connect qp network.inboxes}
  | .postSend qp message queue now => network.post config ⟨qp,message,queue,now⟩
  | .postWrite qp region topic queue workRequestId now =>
    network.post config ⟨qp,writeMessage qp region topic workRequestId,queue,now⟩
  | .finish index => network.finish index
  | .pollReceive node => {network with inboxes := (Rdma.pollReceive node network.inboxes).2}
  | .poll queue =>
    {network with queues := Function.update network.queues queue (network.queues queue).poll.2}

def exec (config : TransportConfig) (events : List Event) (network : Network) : Network :=
  events.foldl (step config) network

def initial (queues : Nat → CompletionQueueConfig) : Network :=
  ⟨∅,fun queue => ⟨queues queue,[]⟩,[],0⟩

end Network

end RdmaPlatform.Rdma
