import RdmaPlatform.Rdma.Transport
import RdmaPlatform.Library.DropOldest

/-! What becomes of a post. A message stays in its inbox until a receiver takes it
or a later post to the same node pushes it out; a completion stays with its call
until it is pushed, and then in its queue until it is polled or pushed out. -/
namespace RdmaPlatform.Rdma
open Library

/-- The message an event puts into the inbox of a node. -/
def Event.delivers (node : Bytes) (event : Event) : Option Message :=
  event.call.bind (fun call =>
    if call.qp.isReadyToSend ∧ call.qp.remoteNode = node then some (addressed call.qp call.message)
    else none)

def Event.receivesAt (node : Bytes) : Event → Bool
  | .pollReceive other => other = node
  | _ => false

def Event.pollsAt (queue : Nat) : Event → Bool
  | .poll other => other = queue
  | _ => false

theorem Event.eq_pollReceive {node : Bytes} {event : Event} (receives : event.receivesAt node = true) :
    event = .pollReceive node := by
  cases event with
  | pollReceive other => rw [of_decide_eq_true receives]
  | connect | postSend | postWrite | finish | poll => cases receives

theorem Event.eq_poll {queue : Nat} {event : Event} (polls : event.pollsAt queue = true) :
    event = .poll queue := by
  cases event with
  | poll other => rw [of_decide_eq_true polls]
  | connect | postSend | postWrite | finish | pollReceive => cases polls

theorem Event.receivesAt_of_call {node : Bytes} {event : Event} {call : Call}
    (posts : event.call = some call) :
    event.receivesAt node = false := by
  cases event with
  | pollReceive => cases posts
  | connect | postSend | postWrite | finish | poll => rfl

namespace Inboxes

theorem inbox_put (inboxes : Inboxes) (node other : Bytes) (messages : List (Numbered Message)) :
    inbox (inboxes.put node messages) other = if other = node then messages
      else inboxes.inbox other := by
  simp only [inbox,Table.lookup_put]
  split <;> rfl

theorem inbox_tryEmplace (inboxes : Inboxes) (node other : Bytes) :
    (tryEmplace node inboxes).inbox other = inboxes.inbox other := by
  unfold tryEmplace
  split
  next => rfl
  next absent =>
    rw [inbox_put]
    split
    next same => simp [same,Inboxes.inbox,absent]
    next => rfl

theorem pollReceive_fst (inboxes : Inboxes) (node : Bytes) :
    (pollReceive node inboxes).1 = (inboxes.inbox node).head? := by
  simp only [pollReceive,inbox_tryEmplace]
  split
  next empty => simp [empty]
  next front rest queue => simp [queue]

theorem inbox_pollReceive (inboxes : Inboxes) (node other : Bytes) :
    (pollReceive node inboxes).2.inbox other =
      if other = node then (inboxes.inbox node).tail else inboxes.inbox other := by
  simp only [pollReceive,inbox_tryEmplace]
  split
  next empty =>
    rw [inbox_tryEmplace]
    split
    next same => rw [same,empty]; rfl
    next => rfl
  next front rest queue => simp only [inbox_put,inbox_tryEmplace,queue,List.tail_cons]

end Inboxes

namespace Network

theorem step_call (config : TransportConfig) (network : Network) {event : Event} {call : Call}
    (posts : event.call = some call) : network.step config event = network.post config call := by
  cases event with
  | postSend | postWrite =>
    cases posts
    rfl
  | connect | finish | pollReceive | poll => cases posts

theorem inbox_post (config : TransportConfig) (network : Network) (call : Call) (node : Bytes) :
    (network.post config call).inbox node =
      if call.qp.isReadyToSend ∧ call.qp.remoteNode = node then
        BoundedQueue.push config.mailboxCapacity (network.inbox node)
          ⟨network.posted,addressed call.qp call.message⟩
      else network.inbox node := by
  simp only [post,inbox]
  cases ready : call.qp.isReadyToSend with
  | false => simp
  | true =>
    simp only [if_true,deliver,Inboxes.inbox_put,true_and,eq_comm (a := node)]
    split
    next same => rw [same]
    next => rfl

theorem inbox_finish (network : Network) (index : Nat) (node : Bytes) :
    (network.finish index).inbox node = network.inbox node := by
  unfold finish
  split <;> rfl

theorem inbox_step (config : TransportConfig) (network : Network) (event : Event) (node : Bytes) :
    (network.step config event).inbox node =
      match event.delivers node with
      | some message =>
        BoundedQueue.push config.mailboxCapacity (network.inbox node) ⟨network.posted,message⟩
      | none => if event.receivesAt node then (network.inbox node).tail else network.inbox node := by
  cases called : event.call with
  | some call =>
    rw [step_call config network called,inbox_post]
    simp only [Event.delivers,called,Option.bind_some,Event.receivesAt_of_call called]
    split <;> rfl
  | none =>
    simp only [Event.delivers,called,Option.bind_none]
    cases event with
    | postSend | postWrite => cases called
    | connect qp =>
      simp only [step,inbox,Rdma.connect,Inboxes.inbox_tryEmplace]
      rfl
    | finish index =>
      rw [step,inbox_finish]
      rfl
    | pollReceive other =>
      simp only [step,inbox,Inboxes.inbox_pollReceive,Event.receivesAt,decide_eq_true_eq,
        eq_comm (a := node)]
      split
      next same => rw [same]
      next => rfl
    | poll => rfl

/-- The completion an event pushes onto a queue. -/
def pushes (network : Network) (queue : Nat) : Event → Option (Numbered CompletionEvent)
  | .finish index =>
    network.posting[index]?.bind (fun posting => if posting.queue = queue then
      some posting.completion else none)
  | _ => none

theorem queues_step (config : TransportConfig) (network : Network) (event : Event) (queue : Nat) :
    (network.step config event).queues queue =
      match network.pushes queue event with
      | some done => (network.queues queue).push done
      | none =>
        if event.pollsAt queue then (network.queues queue).poll.2 else network.queues queue := by
  cases event with
  | finish index =>
    simp only [step,finish,pushes]
    cases network.posting[index]? with
    | none => rfl
    | some posting =>
      simp only [Option.bind_some,Function.update_apply,eq_comm (a := queue)]
      split
      next same => rw [same]
      next => rfl
  | poll other =>
    simp only [step,pushes,Event.pollsAt,Function.update_apply,decide_eq_true_eq,eq_comm (a := queue)]
    split
    next same => rw [same]
    next => rfl
  | connect | postSend | postWrite | pollReceive => rfl

theorem posting_step (config : TransportConfig) (network : Network) (event : Event) (posting : Posting)
    (member : posting ∈ network.posting) :
    posting ∈ (network.step config event).posting ∨
      network.pushes posting.queue event = some posting.completion := by
  cases event with
  | connect | pollReceive | poll => exact .inl member
  | postSend | postWrite => exact .inl (List.mem_append_left _ member)
  | finish index =>
    simp only [step,finish,pushes]
    cases found : network.posting[index]? with
    | none => exact .inl member
    | some other =>
      by_cases same : other = posting
      · exact .inr (by simp [same])
      · refine .inl (List.mem_eraseIdx_iff_getElem?.mpr ?_)
        obtain ⟨position,here⟩ := List.getElem?_of_mem member
        refine ⟨position,?_,here⟩
        intro equal
        rw [equal,found] at here
        exact same (Option.some.inj here)

section Queues
open DropOldest

/-- The message a step posts to the node over a queue pair that is ready to send. -/
def delivered (node : Bytes) (network : Network) (event : Event) : Option (Numbered Message) :=
  (event.delivers node).map (fun message => ⟨network.posted,message⟩)

def received (node : Bytes) (network : Network) (event : Event) : Option (Numbered Message) :=
  if event.receivesAt node then (Rdma.pollReceive node network.inboxes).1 else none

theorem inbox_queueing (config : TransportConfig) (node : Bytes) :
    Queueing (step config) (fun _ => True) config.mailboxCapacity (fun network => network.inbox node)
      (delivered node) (received node) where
  preserved _ _ _ := trivial
  gives network event item _ gave := by
    obtain ⟨message,delivers,rfl⟩ := Option.map_eq_some_iff.mp gave
    obtain ⟨call,posts,_⟩ := Option.bind_eq_some_iff.mp delivers
    refine ⟨by simp [received,Event.receivesAt_of_call posts],?_⟩
    simp only [inbox_step,delivers]
  takes network event _ gave := by
    have delivers : event.delivers node = none := Option.map_eq_none_iff.mp gave
    simp only [inbox_step,delivers,received,Inboxes.pollReceive_fst]
    split
    next => exact BoundedQueue.head_append_tail _
    next => rfl

def polled (queue : Nat) (network : Network) (event : Event) : Option (Numbered CompletionEvent) :=
  if event.pollsAt queue then (network.queues queue).poll.1 else none

theorem depth_step (config : TransportConfig) (network : Network) (event : Event) (queue : Nat) :
    ((network.step config event).queues queue).config = (network.queues queue).config := by
  rw [queues_step]
  split
  next => rfl
  next => split <;> rfl

theorem depth_exec (config : TransportConfig) (events : List Event) (start : Network) (queue : Nat) :
    ((exec config events start).queues queue).config = (start.queues queue).config := by
  induction events generalizing start with
  | nil => rfl
  | cons event rest ih =>
    exact (ih (start.step config event)).trans (depth_step config start event queue)

theorem queue_queueing (config : TransportConfig) (queue depth : Nat) :
    Queueing (step config) (fun network => (network.queues queue).config.depth = depth) depth
      (fun network => (network.queues queue).queue) (fun network => network.pushes queue)
        (polled queue) where
  preserved network event same := by rw [depth_step,same]
  gives network event item same gave := by
    have quiet : event.pollsAt queue = false := by
      cases event with
      | poll => cases gave
      | connect | postSend | postWrite | finish | pollReceive => rfl
    refine ⟨by simp [polled,quiet],?_⟩
    simp only [queues_step,gave,CompletionQueue.push,same]
  takes network event _ gave := by
    simp only [queues_step,gave,polled]
    split
    next => exact BoundedQueue.head_append_tail _
    next => rfl

end Queues

section Fate

variable (config : TransportConfig)

/-- A `PollReceive` among the events returned the message. -/
def Received (node : Bytes) (sent : Numbered Message) (events : List Event) (start : Network) : Prop :=
  ∃ early late, events = early ++ .pollReceive node::late ∧
    (Rdma.pollReceive node (exec config early start).inboxes).1 = some sent

/-- A post among the events found the inbox full and the message at its front. -/
def Evicted (node : Bytes) (sent : Numbered Message) (events : List Event) (start : Network) : Prop :=
  ∃ early event late, events = early ++ event::late ∧ event.delivers node ≠ none ∧
    BoundedQueue.full config.mailboxCapacity ((exec config early start).inbox node) = true ∧
    ((exec config early start).inbox node).head? = some sent

def Polled (queue : Nat) (done : Numbered CompletionEvent) (events : List Event) (start : Network) :
    Prop :=
  ∃ early late, events = early ++ .poll queue::late ∧
    ((exec config early start).queues queue).poll.1 = some done

/-- A push among the events found the queue full and the completion at its front. -/
def Overrun (queue : Nat) (done : Numbered CompletionEvent) (events : List Event)
    (start : Network) : Prop :=
  ∃ early event late, events = early ++ event::late ∧
    (exec config early start).pushes queue event ≠ none ∧
    BoundedQueue.full ((exec config early start).queues queue).config.depth
      ((exec config early start).queues queue).queue = true ∧
    ((exec config early start).queues queue).queue.head? = some done

theorem message_fate (node : Bytes) (sent : Numbered Message) (events : List Event) (start : Network)
    (queued : sent ∈ start.inbox node) :
    Received config node sent events start ∨ sent ∈ (exec config events start).inbox node ∨
      Evicted config node sent events start := by
  rcases (inbox_queueing config node).fate events start trivial queued with
    kept | ⟨early,event,late,split,taken | ⟨given,filled,front⟩⟩
  · exact .inr (.inl kept)
  · obtain ⟨receives,taken⟩ := Option.ite_none_right_eq_some.mp taken
    rw [Event.eq_pollReceive receives] at split
    exact .inl ⟨early,late,split,taken⟩
  · exact .inr (.inr ⟨early,event,late,split,fun none_ => given (Option.map_eq_none_iff.mpr none_),
      filled,front⟩)

theorem queued_fate (queue : Nat) (done : Numbered CompletionEvent) (events : List Event)
    (start : Network) (queued : done ∈ (start.queues queue).queue) :
    Polled config queue done events start ∨ done ∈ ((exec config events start).queues queue).queue ∨
      Overrun config queue done events start := by
  rcases (queue_queueing config queue (start.queues queue).config.depth).fate events start
      rfl queued with
    kept | ⟨early,event,late,split,taken | ⟨given,filled,front⟩⟩
  · exact .inr (.inl kept)
  · obtain ⟨polls,taken⟩ := Option.ite_none_right_eq_some.mp taken
    rw [Event.eq_poll polls] at split
    exact .inl ⟨early,late,split,taken⟩
  · rw [← depth_exec config early start queue] at filled
    exact .inr (.inr ⟨early,event,late,split,given,filled,front⟩)

theorem exec_split (early late : List Event) (event : Event) (start : Network) :
    exec config (early ++ event::late) start = exec config late
      ((exec config early start).step config event) := by
  simp [exec]

theorem posting_fate (posting : Posting) (events : List Event) (start : Network)
    (member : posting ∈ start.posting) :
    Polled config posting.queue posting.completion events start ∨
      posting ∈ (exec config events start).posting ∨
      posting.completion ∈ ((exec config events start).queues posting.queue).queue ∨
      Overrun config posting.queue posting.completion events start := by
  rcases Transition.kept_or_exits (fun network event => posting_step config network event posting)
    events start member with waiting | ⟨early,event,late,rfl,pushed⟩
  · exact .inr (.inl waiting)
  · have queued : posting.completion ∈
        (((exec config early start).step config event).queues posting.queue).queue := by
      rw [queues_step,show (exec config early start).pushes posting.queue event = _ from pushed]
      exact BoundedQueue.mem_push_self _ _ _
    -- The fate after the push is a fate in the whole run, with the same split moved further back.
    have onward (middle : List Event) :
      exec config middle ((exec config early start).step config event) =
        exec config (early ++ event::middle) start := (exec_split config early middle event start).symm
    rw [exec_split]
    rcases queued_fate config _ _ late _ queued with ⟨middle,rest,split,polled⟩ | kept |
      ⟨middle,other,rest,split,lost⟩
    · exact .inl ⟨early ++ event::middle,rest,by rw [split]; simp,by rwa [← onward]⟩
    · exact .inr (.inr (.inl kept))
    · exact .inr (.inr (.inr ⟨early ++ event::middle,other,rest,by rw [split]; simp,
        by rwa [← onward]⟩))

end Fate

theorem completion_success {qp : QueuePair} {message : Message} {now : Int}
    (success : (completion qp message now).status = .success) : qp.isReadyToSend = true := by
  by_contra down
  simp [completion,down] at success

/-- Whatever the bounds and the interleaving, a message that was acknowledged is
received, waits at its destination or was pushed out of a full inbox, and a
completion is polled, waits in its queue or was pushed out of a full queue. -/
theorem posts_accounted (config : TransportConfig) (queues : Nat → CompletionQueueConfig)
    (before after : List Event) (event : Event) (call : Call) (posts : event.call = some call) :
    let post := (exec config before (initial queues)).posted
    let sent : Numbered Message := ⟨post,addressed call.qp call.message⟩
    let done : Numbered CompletionEvent := ⟨post,completion call.qp call.message call.now⟩
    let start := exec config (before ++ [event]) (initial queues)
    let final := exec config after start
    (done.item.status = .success →
      Received config call.qp.remoteNode sent after start ∨ sent ∈ final.inbox call.qp.remoteNode ∨
        Evicted config call.qp.remoteNode sent after start) ∧
    (Polled config call.queue done after start ∨ ⟨call.queue,done⟩ ∈ final.posting ∨
      done ∈ (final.queues call.queue).queue ∨ Overrun config call.queue done after start) := by
  intro post sent done start final
  have begun : start = (exec config before (initial queues)).post config call := by
    rw [← step_call config _ posts]
    exact exec_split config before [] event _
  constructor
  · intro success
    have delivered : sent ∈ start.inbox call.qp.remoteNode := by
      rw [begun,inbox_post,if_pos ⟨completion_success success,rfl⟩]
      exact BoundedQueue.mem_push_self _ _ _
    exact message_fate config _ sent after start delivered
  · have waiting : (⟨call.queue,done⟩ : Posting) ∈ start.posting := by
      rw [begun]
      exact List.mem_append_right _ (List.mem_singleton_self _)
    exact posting_fate config ⟨call.queue,done⟩ after start waiting

def readyPair : QueuePair := ⟨utf8 "controller",utf8 "worker-a",.readyToSend⟩

def textMessage (text : Bytes) : Message := ⟨[],[],utf8 "task",[],some text,1,.send⟩

def smallMailbox : TransportConfig := ⟨1⟩

def unboundedQueues : Nat → CompletionQueueConfig := fun _ => ⟨0⟩

def firstPost : Event := .postSend readyPair (textMessage (utf8 "first")) 0 7

def firstSent : Numbered Message := ⟨0,addressed readyPair (textMessage (utf8 "first"))⟩

/-- The sender polls the completion of its first post and then posts again. -/
def secondPost : List Event := [.finish 0,.poll 0,.postSend readyPair (textMessage (utf8 "second")) 0 8]

theorem posts_accounted_firstPost :
    let start := exec smallMailbox [firstPost] (initial unboundedQueues)
    Received smallMailbox readyPair.remoteNode firstSent secondPost start ∨
      firstSent ∈ (exec smallMailbox secondPost start).inbox readyPair.remoteNode ∨
      Evicted smallMailbox readyPair.remoteNode firstSent secondPost start :=
  (posts_accounted smallMailbox unboundedQueues [] secondPost firstPost _ rfl).1 (by decide)

def smallQueues : Nat → CompletionQueueConfig := fun _ => ⟨1⟩

/-- Two posts are finished, and nobody polls. -/
def unpolled : List Event := [.finish 0,.postSend readyPair (textMessage (utf8 "second")) 0 8,.finish 0]

/-- In a mailbox for one message the second post removes the first message, whose success
completion the sender has already polled; in a completion queue for one completion the second
post removes the first one. -/
theorem acknowledged_message_lost :
    (¬ ∀ (config : TransportConfig) (queues : Nat → CompletionQueueConfig) (before after : List Event)
      (event : Event) (call : Call), event.call = some call →
        let post := (exec config before (initial queues)).posted
        let sent : Numbered Message := ⟨post,addressed call.qp call.message⟩
        let done : Numbered CompletionEvent := ⟨post,completion call.qp call.message call.now⟩
        let start := exec config (before ++ [event]) (initial queues)
        done.item.status = .success → Received config call.qp.remoteNode sent after start ∨
          sent ∈ (exec config after start).inbox call.qp.remoteNode) ∧
    ¬ ∀ (config : TransportConfig) (queues : Nat → CompletionQueueConfig) (before after : List Event)
      (event : Event) (call : Call), event.call = some call →
        let post := (exec config before (initial queues)).posted
        let done : Numbered CompletionEvent := ⟨post,completion call.qp call.message call.now⟩
        let start := exec config (before ++ [event]) (initial queues)
        let final := exec config after start
        Polled config call.queue done after start ∨ ⟨call.queue,done⟩ ∈ final.posting ∨
          done ∈ (final.queues call.queue).queue := by
  refine ⟨fun kept => ?_,fun kept => ?_⟩
  · rcases kept smallMailbox unboundedQueues [] secondPost firstPost _ rfl (by decide) with ⟨early,
      late,split,_⟩ | queued
    · have received : Event.pollReceive readyPair.remoteNode ∈ secondPost := by
        rw [split]
        simp
      simp [secondPost] at received
    · revert queued
      decide
  · rcases kept ⟨0⟩ smallQueues [] unpolled firstPost _ rfl with ⟨early,late,split,_⟩ |
      posting | queued
    · have polled : Event.poll 0 ∈ unpolled := by
        rw [split]
        exact List.mem_append_right _ List.mem_cons_self
      simp [unpolled] at polled
    · revert posting
      decide
    · revert queued
      decide

end Network

end RdmaPlatform.Rdma
