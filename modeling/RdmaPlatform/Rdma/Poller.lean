import RdmaPlatform.Rdma.Delivery

/-! The poller: a thread that takes messages and completions from the transport and hands them to
callbacks. One thread calls `Start` and `Stop`, the callbacks return, and others use the transport
at any time. -/
namespace RdmaPlatform.Rdma
open Library DropOldest Transition

namespace Poller

/-- The callbacks that are not empty. -/
structure Handlers where
  message : Bool
  completion : Bool

/-- Where the polling thread is. -/
inductive Position where
  | testing
  | receiving
  | handling (message : Numbered Message)
  | polling (queue : Nat)
  | completing (event : Numbered CompletionEvent)
  | ended

def Position.message : Position → Option (Numbered Message)
  | .handling message => some message
  | _ => none

def Position.completion : Position → Option (Numbered CompletionEvent)
  | .completing event => some event
  | _ => none

structure Thread where
  handlers : Handlers
  position : Position

/-- Where the caller is: in `Start` with the thread still to be made, or in `Stop` with the
thread still to be joined. To assign to a thread that was not joined terminates the program. -/
inductive Control where
  | idle
  | starting (handlers : Handlers)
  | stopping
  | terminated

end Poller

/-- `transport` and `completions` say which of the two pointers are not null. The thread is
there until it is joined. -/
structure Poller where
  node : Bytes
  transport : Bool
  completions : Option Nat
  running : Bool
  thread : Option Poller.Thread
  control : Poller.Control

namespace Poller

def new (node : Bytes) (transport : Bool) (completions : Option Nat) : Poller :=
  ⟨node,transport,completions,false,none,.idle⟩

/-- `Start` returns `false` where the poller is running. -/
def start (handlers : Handlers) (poller : Poller) : Poller :=
  match poller.control with
  | .idle =>
    if poller.running then poller else {poller with running := true,control := .starting handlers}
  | _ => poller

def spawn (poller : Poller) : Poller :=
  match poller.control, poller.thread with
  | .starting handlers, none => {poller with thread := some ⟨handlers,.testing⟩,control := .idle}
  | .starting _, some _ => {poller with control := .terminated}
  | _, _ => poller

def stop (poller : Poller) : Poller :=
  match poller.control with
  | .idle => {poller with running := false,control := .stopping}
  | _ => poller

/-- `Stop` returns when the thread has ended. -/
def join (poller : Poller) : Poller :=
  match poller.control, poller.thread with
  | .stopping, none => {poller with control := .idle}
  | .stopping, some ⟨_,.ended⟩ => {poller with thread := none,control := .idle}
  | _, _ => poller

/-- The second `if` of the loop. -/
def afterMessage (poller : Poller) (handlers : Handlers) : Position :=
  match poller.completions with
  | some queue => if handlers.completion then .polling queue else .testing
  | none => .testing

def test (poller : Poller) (handlers : Handlers) : Position :=
  if !poller.running then .ended
  else if poller.transport && handlers.message then .receiving
  else poller.afterMessage handlers

def setThread (poller : Poller) (handlers : Handlers) (position : Position) : Poller :=
  {poller with thread := some ⟨handlers,position⟩}

/-- The next action of the thread. -/
def advance (poller : Poller) (network : Network) : Poller × Network :=
  match poller.thread with
  | none => (poller,network)
  | some ⟨handlers,.testing⟩ => (poller.setThread handlers (poller.test handlers),network)
  | some ⟨handlers,.receiving⟩ =>
    let (message,inboxes) := pollReceive poller.node network.inboxes
    (poller.setThread handlers (match message with
      | some message => .handling message
      | none => poller.afterMessage handlers),{network with inboxes := inboxes})
  | some ⟨handlers,.handling _⟩ => (poller.setThread handlers (poller.afterMessage handlers),network)
  | some ⟨handlers,.polling queue⟩ =>
    let (event,rest) := (network.queues queue).poll
    (poller.setThread handlers (match event with
      | some event => .completing event
      | none => .testing),{network with queues := Function.update network.queues queue rest})
  | some ⟨handlers,.completing _⟩ => (poller.setThread handlers .testing,network)
  | some ⟨_,.ended⟩ => (poller,network)

structure System where
  poller : Poller
  network : Network

inductive Event where
  | start (handlers : Handlers)
  | spawn
  | stop
  | join
  | advance
  | other (event : Rdma.Event)

namespace System

def step (config : TransportConfig) (system : System) : Event → System
  | .start handlers => {system with poller := system.poller.start handlers}
  | .spawn => {system with poller := system.poller.spawn}
  | .stop => {system with poller := system.poller.stop}
  | .join => {system with poller := system.poller.join}
  | .advance =>
    let (poller,network) := system.poller.advance system.network
    ⟨poller,network⟩
  | .other event => {system with network := system.network.step config event}

def initial (node : Bytes) (transport : Bool) (completions : Option Nat)
    (queues : Nat → CompletionQueueConfig) : System :=
  ⟨new node transport completions,Network.initial queues⟩

/-- The message whose callback is being called. -/
def inHand (system : System) : Option (Numbered Message) :=
  system.poller.thread.bind (fun thread => thread.position.message)

def completionInHand (system : System) : Option (Numbered CompletionEvent) :=
  system.poller.thread.bind (fun thread => thread.position.completion)

/-- The message whose callback returns. -/
def handled (system : System) : Event → Option (Numbered Message)
  | .advance => system.inHand
  | _ => none

def completed (system : System) : Event → Option (Numbered CompletionEvent)
  | .advance => system.completionInHand
  | _ => none

/-- The access to the transport. -/
def access (system : System) : Event → Option Rdma.Event
  | .other event => some event
  | .advance =>
    match system.poller.thread with
    | some ⟨_,.receiving⟩ => some (.pollReceive system.poller.node)
    | some ⟨_,.polling queue⟩ => some (.poll queue)
    | _ => none
  | _ => none

/-- What comes into the inbox of the poller, and what the poller or another takes out. -/
def delivered (node : Bytes) (system : System) (event : Event) : Option (Numbered Message) :=
  (system.access event).bind (Network.delivered node system.network)

def received (node : Bytes) (system : System) (event : Event) : Option (Numbered Message) :=
  (system.access event).bind (Network.received node system.network)

def pushed (queue : Nat) (system : System) (event : Event) : Option (Numbered CompletionEvent) :=
  (system.access event).bind (system.network.pushes queue)

def polled (queue : Nat) (system : System) (event : Event) : Option (Numbered CompletionEvent) :=
  (system.access event).bind (Network.polled queue system.network)

theorem step_network (config : TransportConfig) (system : System) (event : Event) :
    (system.step config event).network =
      (system.access event).elim system.network (system.network.step config) := by
  obtain ⟨⟨node,transport,completions,running,thread,control⟩,network⟩ := system
  cases event with
  | start | spawn | stop | join | other => rfl
  | advance =>
    cases thread with
    | none => rfl
    | some thread =>
      obtain ⟨handlers,position⟩ := thread
      cases position <;> rfl

end System

section Invariant

def Control.Fits (running : Bool) (thread : Option Thread) : Control → Prop
  | .idle => running = thread.isSome
  | .starting _ => running = true ∧ thread = none
  | .stopping => running = false
  | .terminated => False

/-- The thread polls the queue of the poller, and there is one while the poller is running. -/
structure Sound (node : Bytes) (completions : Option Nat) (poller : Poller) : Prop where
  named : poller.node = node
  linked : poller.completions = completions
  control : poller.control.Fits poller.running poller.thread
  queue : ∀ thread queue, poller.thread = some thread → thread.position = .polling queue →
    completions = some queue

theorem afterMessage_polling {poller : Poller} {handlers : Handlers} {queue : Nat}
    (polls : poller.afterMessage handlers = .polling queue) : poller.completions = some queue := by
  unfold afterMessage at polls
  split at polls
  next found =>
    split at polls
    · cases polls
      exact found
    · cases polls
  next => cases polls

theorem test_polling {poller : Poller} {handlers : Handlers} {queue : Nat}
    (polls : poller.test handlers = .polling queue) : poller.completions = some queue := by
  unfold test at polls
  split at polls
  · cases polls
  · split at polls
    · cases polls
    · exact afterMessage_polling polls

/-- An action of the thread moves the thread and the transport only. -/
inductive Advanced (poller : Poller) : Poller → Prop
  | kept : Advanced poller poller
  | moved (thread : Thread) (position : Position) (there : poller.thread = some thread)
      (queue : ∀ queue, position = .polling queue → poller.completions = some queue) :
      Advanced poller (poller.setThread thread.handlers position)

theorem advance_advanced (poller : Poller) (network : Network) :
    Advanced poller (poller.advance network).1 := by
  unfold advance
  split
  next => exact .kept
  next handlers there => exact .moved _ _ there (fun queue => test_polling)
  next handlers there =>
    refine .moved _ _ there (fun queue same => ?_)
    split at same
    · cases same
    · exact afterMessage_polling same
  next handlers message there => exact .moved _ _ there (fun queue => afterMessage_polling)
  next handlers queue there =>
    refine .moved _ _ there (fun queue same => ?_)
    split at same <;> cases same
  next handlers event there => exact .moved _ _ there (fun queue same => by cases same)
  next => exact .kept

variable {node : Bytes} {completions : Option Nat} {poller : Poller}

theorem Sound.advanced {next : Poller} (sound : poller.Sound node completions)
    (advanced : Advanced poller next) :
    next.Sound node completions := by
  cases advanced with
  | kept => exact sound
  | moved thread position there queue =>
    refine ⟨sound.named,sound.linked,?_,fun other number same polls => ?_⟩
    · have fits := sound.control
      rw [there] at fits
      simp only [setThread]
      cases control : poller.control with
      | idle | stopping =>
        rw [control] at fits
        exact fits
      | starting handlers =>
        rw [control] at fits
        cases fits.2
      | terminated =>
        rw [control] at fits
        exact fits
    · cases same
      exact sound.linked ▸ queue number polls

theorem Sound.gone (sound : poller.Sound node completions) (idle : poller.control = .idle)
    (halted : poller.running = false) : poller.thread = none := by
  have fits := sound.control
  rw [idle,halted] at fits
  cases there : poller.thread with
  | none => rfl
  | some thread =>
    rw [there] at fits
    cases fits

theorem Sound.start (sound : poller.Sound node completions) (handlers : Handlers) :
    (poller.start handlers).Sound node completions := by
  unfold Poller.start
  split
  next control =>
    split
    · exact sound
    next halted =>
      have absent := sound.gone control (Bool.not_eq_true _ |>.mp halted)
      exact ⟨sound.named,sound.linked,⟨rfl,absent⟩,sound.queue⟩
  next => exact sound

theorem Sound.spawn (sound : poller.Sound node completions) : poller.spawn.Sound node completions := by
  have fits := sound.control
  unfold Poller.spawn
  split
  next handlers control absent =>
    rw [control] at fits
    refine ⟨sound.named,sound.linked,fits.1,fun thread queue same polls => ?_⟩
    cases same
    cases polls
  next control there =>
    rw [control,there] at fits
    cases fits.2
  next => exact sound

theorem Sound.stop (sound : poller.Sound node completions) : poller.stop.Sound node completions := by
  unfold Poller.stop
  split
  next => exact ⟨sound.named,sound.linked,rfl,sound.queue⟩
  next => exact sound

theorem Sound.join (sound : poller.Sound node completions) : poller.join.Sound node completions := by
  have fits := sound.control
  unfold Poller.join
  split
  next control absent =>
    rw [control] at fits
    refine ⟨sound.named,sound.linked,?_,sound.queue⟩
    simp only [Control.Fits,absent]
    exact fits
  next control _ =>
    rw [control] at fits
    exact ⟨sound.named,sound.linked,fits,fun thread queue same => by cases same⟩
  next => exact sound

theorem System.step_sound (config : TransportConfig) (system : System) (event : Event)
    (sound : system.poller.Sound node completions) :
    (system.step config event).poller.Sound node completions := by
  cases event with
  | start handlers => exact sound.start handlers
  | spawn => exact sound.spawn
  | stop => exact sound.stop
  | join => exact sound.join
  | advance => exact sound.advanced (advance_advanced system.poller system.network)
  | other event => exact sound

theorem initial_sound (transport : Bool) (queues : Nat → CompletionQueueConfig) :
    (System.initial node transport completions queues).poller.Sound node completions :=
  ⟨rfl,rfl,rfl,fun thread queue same => by cases same⟩

end Invariant

section Conservation

variable (config : TransportConfig) {node : Bytes} {completions : Option Nat}

def Event.calls : Event → Bool
  | .start _ | .spawn | .stop | .join => true
  | .advance | .other _ => false

/-- The calls of `Start` and `Stop` make a thread or join one that has ended. -/
theorem calls_thread {event : Event} (calls : event.calls = true) (system : System) :
    (system.step config event).poller.thread = system.poller.thread ∨
      (system.poller.thread = none ∧ ∃ handlers,
        (system.step config event).poller.thread = some ⟨handlers,.testing⟩) ∨
      (∃ handlers, system.poller.thread = some ⟨handlers,.ended⟩) ∧
        (system.step config event).poller.thread = none := by
  cases event with
  | start handlers =>
    simp only [System.step,Poller.start]
    split
    · split <;> exact .inl rfl
    · exact .inl rfl
  | spawn =>
    simp only [System.step,Poller.spawn]
    split
    next absent => exact .inr (.inl ⟨absent,_,rfl⟩)
    next => exact .inl rfl
    next => exact .inl rfl
  | stop =>
    simp only [System.step,Poller.stop]
    split <;> exact .inl rfl
  | join =>
    simp only [System.step,Poller.join]
    split
    next => exact .inl rfl
    next ended => exact .inr (.inr ⟨⟨_,ended⟩,rfl⟩)
    next => exact .inl rfl
  | advance | other => cases calls

theorem calls_inHand {event : Event} (calls : event.calls = true) (system : System) :
    (system.step config event).inHand = system.inHand ∧
      (system.step config event).completionInHand = system.completionInHand := by
  simp only [System.inHand,System.completionInHand]
  rcases calls_thread config calls system with same | ⟨absent,handlers,made⟩ |
    ⟨⟨handlers,ended⟩,joined⟩
  · rw [same]
    exact ⟨rfl,rfl⟩
  · rw [absent,made]
    exact ⟨rfl,rfl⟩
  · rw [ended,joined]
    exact ⟨rfl,rfl⟩

theorem afterMessage_free (poller : Poller) (handlers : Handlers) :
    (poller.afterMessage handlers).message = none ∧
      (poller.afterMessage handlers).completion = none := by
  unfold afterMessage
  split
  · split <;> exact ⟨rfl,rfl⟩
  · exact ⟨rfl,rfl⟩

theorem test_free (poller : Poller) (handlers : Handlers) :
    (poller.test handlers).message = none ∧ (poller.test handlers).completion = none := by
  unfold test
  split
  · exact ⟨rfl,rfl⟩
  · split
    · exact ⟨rfl,rfl⟩
    · exact afterMessage_free poller handlers

/-- After an action of the thread there is in hand what the action has taken. -/
theorem advance_inHand (system : System) (sound : system.poller.Sound node completions) :
    (system.step config .advance).inHand = system.received node .advance ∧
      ∀ queue ∈ completions, (system.step config .advance).completionInHand =
        system.polled queue .advance := by
  obtain ⟨poller,network⟩ := system
  obtain ⟨name,transport,link,running,thread,control⟩ := poller
  obtain ⟨rfl,rfl,_,owned⟩ := sound
  cases thread with
  | none => exact ⟨rfl,fun _ _ => rfl⟩
  | some thread =>
    obtain ⟨handlers,position⟩ := thread
    cases position with
    | testing =>
      obtain ⟨message,completion⟩ :=
        test_free ⟨name,transport,link,running,some ⟨handlers,.testing⟩,control⟩ handlers
      exact ⟨message,fun _ _ => completion⟩
    | handling item =>
      obtain ⟨message,completion⟩ :=
        afterMessage_free ⟨name,transport,link,running,some ⟨handlers,.handling item⟩,
          control⟩ handlers
      exact ⟨message,fun _ _ => completion⟩
    | completing | ended => exact ⟨rfl,fun _ _ => rfl⟩
    | receiving =>
      obtain ⟨message,completion⟩ :=
        afterMessage_free ⟨name,transport,link,running,some ⟨handlers,.receiving⟩,control⟩ handlers
      have taken : System.received name
        ⟨⟨name,transport,link,running,some ⟨handlers,.receiving⟩,control⟩,network⟩
          .advance = (pollReceive name network.inboxes).1 := by
        simp [System.received,System.access,Network.received,Event.receivesAt]
      rw [taken]
      simp only [System.step,advance,System.inHand,System.completionInHand,setThread,Option.bind_some]
      cases (pollReceive name network.inboxes).1 with
      | none => exact ⟨message,fun _ _ => completion⟩
      | some item => exact ⟨rfl,fun _ _ => rfl⟩
    | polling queue =>
      refine ⟨?_,fun other same => ?_⟩
      · simp only [System.step,advance,System.inHand,setThread,Option.bind_some]
        cases (network.queues queue).poll.1 <;> rfl
      · have equal := (owned ⟨handlers,.polling queue⟩ queue rfl rfl).symm.trans same
        cases equal
        have taken : System.polled queue
          ⟨⟨name,transport,link,running,some ⟨handlers,.polling queue⟩,control⟩,network⟩
            .advance = (network.queues queue).poll.1 := by
          simp [System.polled,System.access,Network.polled,Event.pollsAt]
        rw [taken]
        simp only [System.step,advance,System.completionInHand,setThread,Option.bind_some]
        cases (network.queues queue).poll.1 <;> rfl

/-- What is taken out is handed over or in hand. -/
theorem handled_single (system : System) (event : Event) (sound : system.poller.Sound node completions)
    (alone : event ≠ .other (.pollReceive node)) :
    (system.handled event).toList ++ (system.step config event).inHand.toList =
      system.inHand.toList ++ (system.received node event).toList := by
  cases event with
  | start | spawn | stop | join =>
    rw [(calls_inHand config rfl system).1]
    exact (List.append_nil _).symm
  | advance => rw [(advance_inHand config system sound).1,System.handled]
  | other event =>
    have quiet : event.receivesAt node = false := by
      rw [← Bool.not_eq_true]
      exact fun receives => alone (congrArg Event.other (Rdma.Event.eq_pollReceive receives))
    simp [System.handled,System.received,System.access,Network.received,quiet,System.inHand,System.step]

theorem completed_single (system : System) (event : Event)
    (sound : system.poller.Sound node completions) {queue : Nat} (linked : queue ∈ completions)
    (alone : event ≠ .other (.poll queue)) :
    (system.completed event).toList ++ (system.step config event).completionInHand.toList =
      system.completionInHand.toList ++ (system.polled queue event).toList := by
  cases event with
  | start | spawn | stop | join =>
    rw [(calls_inHand config rfl system).2]
    exact (List.append_nil _).symm
  | advance => rw [(advance_inHand config system sound).2 queue linked,System.completed]
  | other event =>
    have quiet : event.pollsAt queue = false := by
      rw [← Bool.not_eq_true]
      exact fun polls => alone (congrArg Event.other (Rdma.Event.eq_poll polls))
    simp [System.completed,System.polled,System.access,Network.polled,quiet,System.completionInHand,
      System.step]

theorem inbox_queueing :
    Queueing (System.step config) (fun system => system.poller.Sound node completions)
      config.mailboxCapacity (fun system => system.network.inbox node) (System.delivered node)
      (System.received node) :=
  (Network.inbox_queueing config node).lift System.network (fun system _ => system.network)
    System.access (System.step_sound config) (fun _ _ _ => trivial) (fun _ _ => rfl)
    (fun system event _ => System.step_network config system event)

theorem queue_queueing (queue depth : Nat) :
    Queueing (System.step config)
      (fun system => system.poller.Sound node completions ∧
        (system.network.queues queue).config.depth = depth) depth
      (fun system => (system.network.queues queue).queue) (System.pushed queue)
        (System.polled queue) := by
  refine (Network.queue_queueing config queue depth).lift System.network
    (fun system _ => system.network) System.access
    (fun system event both => ⟨System.step_sound config system event both.1,?_⟩)
    (fun _ _ both => both.2) (fun _ _ => rfl)
    (fun system event _ => System.step_network config system event)
  rw [System.step_network]
  cases system.access event with
  | none => exact both.2
  | some access =>
    exact (congrArg CompletionQueueConfig.depth (Network.depth_step config _ access queue)).trans both.2

end Conservation

section Stopping

variable (config : TransportConfig)

def Event.starts : Event → Bool
  | .start _ => true
  | .spawn | .stop | .join | .advance | .other _ => false

def Event.advances : Event → Bool
  | .advance => true
  | .start _ | .spawn | .stop | .join | .other _ => false

/-- The actions that a thread has left when it is told to end. -/
def Position.effort : Position → Nat
  | .receiving => 5
  | .handling _ => 4
  | .polling _ => 3
  | .completing _ => 2
  | .testing => 1
  | .ended => 0

def effort (poller : Poller) : Nat := poller.thread.elim 0 (fun thread => thread.position.effort)

/-- `Stop` is under way or has returned. -/
structure Halting (poller : Poller) : Prop where
  running : poller.running = false
  control : poller.control = .idle ∨ poller.control = .stopping

theorem afterMessage_effort (poller : Poller) (handlers : Handlers) :
    (poller.afterMessage handlers).effort ≤ 3 := by
  unfold afterMessage
  split
  · split <;> simp [Position.effort]
  · simp [Position.effort]

theorem advance_effort (poller : Poller) (halted : poller.running = false) (network : Network) :
    (poller.advance network).1.effort ≤ poller.effort - 1 := by
  unfold advance
  split
  next absent => simp [effort,absent]
  next handlers there => simp [effort,there,setThread,test,halted,Position.effort]
  next handlers there =>
    have after := afterMessage_effort poller handlers
    simp only [effort,there,setThread,Option.elim_some]
    split
    · exact Nat.le_refl 4
    · exact Nat.le_trans after (by decide)
  next handlers message there =>
    have after := afterMessage_effort poller handlers
    simp only [effort,there,setThread,Option.elim_some]
    exact after
  next handlers queue there =>
    simp only [effort,there,setThread,Option.elim_some]
    split <;> simp [Position.effort]
  next handlers event there => simp [effort,there,setThread,Position.effort]
  next handlers there => simp [effort,there,Position.effort]

theorem Halting.spawn {poller : Poller} (halting : poller.Halting) : poller.spawn = poller := by
  unfold Poller.spawn
  rcases halting.control with control | control <;> rw [control]

theorem Halting.advanced {poller next : Poller} (halting : poller.Halting)
    (advanced : Advanced poller next) :
    next.Halting ∧ (poller.thread = none → next = poller) := by
  cases advanced with
  | kept => exact ⟨halting,fun _ => rfl⟩
  | moved thread position there =>
    refine ⟨⟨halting.running,halting.control⟩,fun absent => ?_⟩
    rw [absent] at there
    cases there

theorem Halting.step {system : System} (halting : system.poller.Halting) {event : Event}
    (quiet : event.starts = false) :
    (system.step config event).poller.Halting ∧
      (system.step config event).poller.effort ≤
        system.poller.effort - (if event.advances then 1 else 0) ∧
      (system.poller.thread = none → (system.step config event).poller.thread = none) := by
  cases event with
  | start => cases quiet
  | spawn =>
    simp only [System.step,halting.spawn]
    exact ⟨halting,Nat.le_refl _,id⟩
  | stop =>
    simp only [System.step,Poller.stop]
    split
    · exact ⟨⟨rfl,.inr rfl⟩,Nat.le_refl _,id⟩
    · exact ⟨halting,Nat.le_refl _,id⟩
  | join =>
    simp only [System.step,Poller.join]
    split
    · exact ⟨⟨halting.running,.inl rfl⟩,Nat.le_refl _,id⟩
    · exact ⟨⟨halting.running,.inl rfl⟩,Nat.zero_le _,fun _ => rfl⟩
    · exact ⟨halting,Nat.le_refl _,id⟩
  | advance =>
    obtain ⟨kept,same⟩ := halting.advanced (advance_advanced system.poller system.network)
    refine ⟨kept,advance_effort system.poller halting.running system.network,fun absent => ?_⟩
    exact (congrArg Poller.thread (same absent)).trans absent
  | other => exact ⟨halting,Nat.le_refl _,id⟩

theorem Halting.run {system : System} (halting : system.poller.Halting) (later : List Event)
    (quiet : ∀ event ∈ later, event.starts = false) :
    (later.foldl (System.step config) system).poller.Halting ∧
      (later.foldl (System.step config) system).poller.effort ≤
        system.poller.effort - later.countP Event.advances := by
  induction later generalizing system with
  | nil => exact ⟨halting,Nat.le_refl _⟩
  | cons event rest ih =>
    obtain ⟨here,others⟩ := List.forall_mem_cons.mp quiet
    obtain ⟨kept,less,_⟩ := halting.step config here
    obtain ⟨final,left⟩ := ih kept others
    refine ⟨final,?_⟩
    rw [List.foldl_cons,List.countP_cons]
    omega

/-- A thread that has been joined calls nothing. -/
theorem Halting.silent {system : System} (halting : system.poller.Halting)
    (gone : system.poller.thread = none) (later : List Event)
    (quiet : ∀ event ∈ later, event.starts = false) :
    outputs (System.step config) System.handled later system = [] ∧
      outputs (System.step config) System.completed later system = [] := by
  induction later generalizing system with
  | nil => exact ⟨rfl,rfl⟩
  | cons event rest ih =>
    obtain ⟨here,others⟩ := List.forall_mem_cons.mp quiet
    obtain ⟨kept,_,still⟩ := halting.step config here
    obtain ⟨messages,completions⟩ := ih kept (still gone) others
    have idle : system.handled event = none ∧ system.completed event = none := by
      cases event with
      | advance => simp [System.handled,System.completed,System.inHand,System.completionInHand,gone]
      | start | spawn | stop | join | other => exact ⟨rfl,rfl⟩
    rw [outputs,outputs,idle.1,idle.2,messages,completions]
    exact ⟨rfl,rfl⟩

theorem effort_le (poller : Poller) : poller.effort ≤ 5 := by
  unfold effort
  cases poller.thread with
  | none => exact Nat.zero_le 5
  | some thread =>
    obtain ⟨handlers,position⟩ := thread
    cases position <;> simp [Position.effort]

/-- `Stop` returns where the thread has nothing left to do. -/
theorem Halting.join {poller : Poller} (halting : poller.Halting) (spent : poller.effort = 0) :
    poller.join.control = .idle := by
  unfold Poller.join
  rcases halting.control with control | control
  · rw [control]
    exact control
  · cases there : poller.thread with
    | none => rw [control]
    | some thread =>
      obtain ⟨handlers,position⟩ := thread
      rw [effort,there] at spent
      cases position with
      | ended => rw [control]
      | testing | receiving | handling | polling | completing => cases spent

end Stopping

section Runs
variable (config : TransportConfig)

/-- Over every run the poller hands over exactly what it takes, in order: with what is in hand
and what still waits, these are the messages that came in, but for the oldest ones dropped from
a full inbox, and likewise the completions. No thread is ever assigned to that was not joined.
Once `Stop` has returned no callback runs until the next `Start`, and `Stop` returns after at
most five actions of the thread. -/
theorem hands_over (node : Bytes) (transport : Bool) (completions : Option Nat)
    (queues : Nat → CompletionQueueConfig) (events : List Event) :
    let start := System.initial node transport completions queues
    let final := events.foldl (System.step config) start
    ((∀ event ∈ events, event ≠ .other (.pollReceive node)) →
      History config.mailboxCapacity (outputs (System.step config) (System.delivered node) events start)
        (outputs (System.step config) System.handled events start ++ final.inHand.toList)
          (final.network.inbox node)
        (Throughout (System.step config) (Queueing.Roomy config.mailboxCapacity
          (fun system => system.network.inbox node) (System.delivered node)) events start)) ∧
    (∀ queue ∈ completions, (∀ event ∈ events, event ≠ .other (.poll queue)) →
      History (queues queue).depth (outputs (System.step config) (System.pushed queue) events start)
        (outputs (System.step config) System.completed events start ++ final.completionInHand.toList)
        (final.network.queues queue).queue
        (Throughout (System.step config) (Queueing.Roomy (queues queue).depth
          (fun system => (system.network.queues queue).queue) (System.pushed queue)) events start)) ∧
    final.poller.control ≠ .terminated ∧
    (final.poller.control = .idle → final.poller.running = false →
      final.inHand = none ∧ final.completionInHand = none ∧
      ∀ later : List Event, (∀ event ∈ later, event.starts = false) →
        outputs (System.step config) System.handled later final = [] ∧
          outputs (System.step config) System.completed later final = []) ∧
    (final.poller.control = .stopping →
      ∀ later : List Event, (∀ event ∈ later, event.starts = false) →
        5 ≤ later.countP Event.advances →
        ((later ++ [Event.join]).foldl (System.step config) final).poller.control = .idle) := by
  intro start final
  have begun : start.poller.Sound node completions := initial_sound transport queues
  have sound : final.poller.Sound node completions :=
    Throughout.invariant (fun system => system.poller.Sound node completions)
      (fun system event sound _ => System.step_sound config system event sound) begun
      (throughout_of_forall (fun _ _ _ => trivial) start : Throughout (System.step config)
        (fun _ _ => True) events start)
  refine ⟨fun alone => ?_,fun queue linked alone => ?_,fun broken => ?_,fun idle halted => ?_,
    fun stopping later quiet enough => ?_⟩
  · have taken := outputs_conserved System.handled (System.received node)
      (fun system => system.inHand.toList)
      (System.step_sound config) (handled_single config) events start begun
      (throughout_of_forall (fun _ event member => alone event member) start)
    have history := (inbox_queueing config).history events start begun rfl
    rw [show start.inHand.toList = [] from rfl,List.nil_append] at taken
    rw [taken]
    exact history
  · have taken := outputs_conserved System.completed (System.polled queue)
      (fun system => system.completionInHand.toList)
      (System.step_sound config) (fun system event sound => completed_single config system event
        sound linked) events start
      begun (throughout_of_forall (fun _ event member => alone event member) start)
    have history := (queue_queueing config queue (queues queue).depth).history events start
      ⟨begun,rfl⟩ rfl
    rw [show start.completionInHand.toList = [] from rfl,List.nil_append] at taken
    rw [taken]
    exact history
  · have fits := sound.control
    rw [broken] at fits
    exact fits
  · have gone := sound.gone idle halted
    refine ⟨by simp [System.inHand,gone],by simp [System.completionInHand,gone],fun later quiet => ?_⟩
    exact Halting.silent config ⟨halted,.inl idle⟩ gone later quiet
  · have fits := sound.control
    rw [stopping] at fits
    obtain ⟨halting,left⟩ := Halting.run config ⟨fits,.inr stopping⟩ later quiet
    have most := effort_le final.poller
    rw [List.foldl_append]
    exact halting.join (by omega)

/-- `Stop` is called while a message is being handed over. -/
def stoppedHandling : List Event :=
  [.start ⟨true,true⟩,.spawn,
    .other (.postSend ⟨utf8 "client",utf8 "worker",.readyToSend⟩ ⟨[],[],utf8 "tasks",[],none,1,
      .send⟩ 0 1),
    .advance,.advance,.stop]

theorem hands_over_stoppedHandling :
    let final := stoppedHandling.foldl (System.step ⟨4⟩)
      (System.initial (utf8 "worker") true (some 0) (fun _ => ⟨4⟩))
    final.inHand.isSome = true ∧
      ((List.replicate 5 Event.advance ++ [Event.join]).foldl (System.step ⟨4⟩)
        final).poller.control = .idle := by
  obtain ⟨_,_,_,_,returns⟩ := hands_over ⟨4⟩ (utf8 "worker") true (some 0) (fun _ => ⟨4⟩)
    stoppedHandling
  refine ⟨by decide +kernel,
    returns rfl (List.replicate 5 .advance) (fun event member => ?_) (by decide)⟩
  rw [List.eq_of_mem_replicate member]
  rfl

end Runs

end Poller

end RdmaPlatform.Rdma
