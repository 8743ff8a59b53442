import RdmaPlatform.Rdma.Delivery
import Mathlib.Data.List.Perm.Basic

/-! The inboxes and the completion queues against their histories. Each inbox and each
completion queue is a bounded queue that drops its oldest item; every post owes its
completion queue one completion, which it pushes some time after the message. -/
namespace RdmaPlatform.Rdma.Network
open Library DropOldest

/-- The completion that the post of a step is to push onto the queue. -/
def owed (queue : Nat) (network : Network) (event : Event) : Option (Numbered CompletionEvent) :=
  event.call.bind (fun call =>
    if call.queue = queue then some ⟨network.posted,completion call.qp call.message call.now⟩ else none)

def pending (queue : Nat) (network : Network) : List (Numbered CompletionEvent) :=
  network.posting.filterMap (fun posting => if posting.queue = queue then
    some posting.completion else none)

theorem posted_step (config : TransportConfig) (network : Network) (event : Event) :
    (network.step config event).posted = network.posted + if event.call.isSome then 1 else 0 := by
  cases event with
  | connect | postSend | postWrite | pollReceive | poll => rfl
  | finish index =>
    simp only [step,finish]
    split <;> rfl

/-- What a step makes of its post has the number of the post, and the next post another. -/
theorem numbered_nodup {α : Type} (config : TransportConfig)
    (observe : Network → Event → Option (Numbered α))
    (numbers : ∀ network event, ∀ item ∈ observe network event, item.post = network.posted ∧
      event.call.isSome = true)
    (events : List Event) (network : Network) :
    (Transition.outputs (step config) observe events network).Nodup := by
  refine (Transition.outputs_nodup (fun item => item.post) (fun network => network.posted) ?_ ?_
    events network).2
  · intro network event
    rw [posted_step]
    omega
  · intro network event item shown
    obtain ⟨number,posts⟩ := numbers network event item shown
    rw [posted_step,posts]
    exact ⟨number,by simp⟩

theorem delivered_numbers (node : Bytes) (network : Network) (event : Event) :
    ∀ item ∈ delivered node network event, item.post = network.posted ∧ event.call.isSome = true := by
  intro item shown
  obtain ⟨message,delivers,rfl⟩ := Option.map_eq_some_iff.mp shown
  obtain ⟨call,posts,_⟩ := Option.bind_eq_some_iff.mp delivers
  exact ⟨rfl,by rw [posts]; rfl⟩

theorem owed_numbers (queue : Nat) (network : Network) (event : Event) :
    ∀ item ∈ owed queue network event, item.post = network.posted ∧ event.call.isSome = true := by
  intro item shown
  obtain ⟨call,posts,gave⟩ := Option.bind_eq_some_iff.mp shown
  split at gave <;> cases gave
  exact ⟨rfl,by rw [posts]; rfl⟩

/-- A completion that a post owes is pushed once or still to be pushed. -/
theorem pending_step (config : TransportConfig) (queue : Nat) (network : Network) (event : Event) :
    ((network.pushes queue event).toList ++ (network.step config event).pending queue).Perm
      (network.pending queue ++ (owed queue network event).toList) := by
  cases called : event.call with
  | some call =>
    have silent : network.pushes queue event = none := by
      cases event with
      | finish => cases called
      | connect | postSend | postWrite | pollReceive | poll => rfl
    rw [silent,step_call config network called]
    simp only [pending,post,owed,called,Option.bind_some,List.filterMap_append,Option.toList_none,
      List.nil_append]
    split
    next same => simp [same]
    next other => simp [other]
  | none =>
    simp only [owed,called,Option.bind_none,Option.toList_none,List.append_nil]
    cases event with
    | postSend | postWrite => cases called
    | connect | pollReceive | poll => exact List.Perm.refl _
    | finish index =>
      simp only [pushes,step,finish]
      cases found : network.posting[index]? with
      | none => exact List.Perm.refl _
      | some posting =>
        -- The finished post is one of those pending; taking it out leaves the others.
        obtain ⟨inside,at_⟩ := List.getElem?_eq_some_iff.mp found
        have parted := List.getElem_cons_eraseIdx_perm inside
        rw [at_] at parted
        have view := parted.filterMap (fun other : Posting => if other.queue = queue then
          some other.completion else none)
        rw [List.filterMap_cons] at view
        simp only [Option.bind_some,pending]
        split at view
        next other => simpa [other] using view
        next done same => simpa [same] using view

theorem completion_spec (qp : QueuePair) (message : Message) (now : Int) :
    let done := completion qp message now
    done.workRequestId = message.workRequestId ∧
    if qp.isReadyToSend then done.status = .success ∧ done.bytes = message.size
    else done.status = .failed ∧ done.bytes = 0 := by
  unfold completion
  cases qp.isReadyToSend with
  | true => exact ⟨rfl,rfl,rfl⟩
  | false => exact ⟨rfl,rfl,rfl⟩

theorem inbox_unready {config : TransportConfig} {network : Network} {event : Event} {call : Call}
    (posts : event.call = some call) (unready : call.qp.isReadyToSend = false) (node : Bytes) :
    (network.step config event).inbox node = network.inbox node := by
  rw [step_call config network posts,inbox_post,unready]
  simp

/-- Over every run the inboxes and the completion queues are first-in first-out queues
that drop their oldest item: of the messages posted over ready queue pairs and of the
completions pushed, which are one for each post. -/
theorem transport_fifo (config : TransportConfig) (queues : Nat → CompletionQueueConfig)
    (events : List Event) :
    let start := initial queues
    let final := exec config events start
    (∀ node,
      let posted := Transition.outputs (step config) (delivered node) events start
      posted.Nodup ∧
      History config.mailboxCapacity posted
        (Transition.outputs (step config) (received node) events start) (final.inbox node)
        (Transition.Throughout (step config)
          (Queueing.Roomy config.mailboxCapacity (fun network => network.inbox node)
            (delivered node)) events start)) ∧
    (∀ (network : Network) (event : Event) (call : Call), event.call = some call →
      call.qp.isReadyToSend = false →
      ∀ node, (network.step config event).inbox node = network.inbox node) ∧
    (∀ queue,
      let pushed := Transition.outputs (step config) (fun network => network.pushes queue) events start
      let due := Transition.outputs (step config) (owed queue) events start
      due.Nodup ∧ (pushed ++ final.pending queue).Perm due ∧
      History (queues queue).depth pushed (Transition.outputs (step config) (polled queue) events start)
        (final.queues queue).queue
        (Transition.Throughout (step config)
          (Queueing.Roomy (queues queue).depth (fun network => (network.queues queue).queue)
            (fun network => network.pushes queue)) events start)) ∧
    (∀ qp message now,
      let done := completion qp message now
      done.workRequestId = message.workRequestId ∧
      if qp.isReadyToSend then done.status = .success ∧ done.bytes = message.size
      else done.status = .failed ∧ done.bytes = 0) := by
  intro start final
  refine ⟨fun node => ⟨?_,?_⟩,fun network event call posts unready => inbox_unready posts unready,
    fun queue => ⟨?_,?_,?_⟩,completion_spec⟩
  · exact numbered_nodup config _ (delivered_numbers node) events start
  · exact (inbox_queueing config node).history events start trivial rfl
  · exact numbered_nodup config _ (owed_numbers queue) events start
  · exact Transition.outputs_perm _ _ (pending queue) (pending_step config queue) events start
  · exact (queue_queueing config queue (queues queue).depth).history events start rfl rfl

end RdmaPlatform.Rdma.Network
