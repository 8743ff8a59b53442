import RdmaPlatform.Worker.Node
import RdmaPlatform.Library.Positions
import RdmaPlatform.Library.Transition
import RdmaPlatform.Library.Wakeups

/-! The queue of the worker with its condition variable: `task_queue.cpp`. `push` and `stop`
notify after they have left the lock, and `waitPop` tests before it blocks and again when it
is woken. No wake-up is lost: a thread stays blocked only while there is nothing for it. -/
namespace RdmaPlatform.Worker
open Library

/-- Where a thread stands towards `waitPop`: not in it, before a test of the wait, or
blocked in the wait. -/
inductive Popper where
  | outside
  | testing
  | blocked
  deriving DecidableEq

def Popper.notified : Popper → Popper
  | .blocked => .testing
  | .outside => .outside
  | .testing => .testing

/-- `pushing` and `stopping` count the calls that have left the lock and not yet notified. -/
structure TaskQueue where
  queue : List Task
  stopped : Bool
  poppers : List Popper
  pushing : Nat
  stopping : Nat
  deriving DecidableEq

namespace TaskQueue

def new (threads : Nat) : TaskQueue := ⟨[],false,List.replicate threads .outside,0,0⟩

def setPopper (queue : TaskQueue) (index : Nat) (popper : Popper) : TaskQueue :=
  {queue with poppers := queue.poppers.set index popper}

/-- The critical section of `push`, and whether the task is accepted. -/
def push (task : Task) (queue : TaskQueue) : Bool × TaskQueue :=
  if queue.stopped then (false,queue)
  else (true,{queue with queue := queue.queue ++ [task],pushing := queue.pushing + 1})

/-- The end of a `push`: a thread that is blocked is woken, if there is one. -/
def notifyOne (woken : Option Nat) (queue : TaskQueue) : Option TaskQueue :=
  match queue.pushing with
  | 0 => none
  | pushing+1 =>
    match woken with
    | none => if .blocked ∈ queue.poppers then none else some {queue with pushing := pushing}
    | some index =>
      if queue.poppers[index]? = some .blocked then
        some ({queue with pushing := pushing}.setPopper index .testing)
      else none

def waitPop (index : Nat) (queue : TaskQueue) : Option TaskQueue :=
  match queue.poppers[index]? with
  | some .outside => some (queue.setPopper index .testing)
  | _ => none

/-- From a test of the wait to the end of `waitPop` or to the wait, with the task that is popped. -/
def test (index : Nat) (queue : TaskQueue) : Option (Option Task × TaskQueue) :=
  match queue.poppers[index]? with
  | some .testing =>
    if queue.stopped then some (none,queue.setPopper index .outside)
    else
      match queue.queue with
      | [] => some (none,queue.setPopper index .blocked)
      | task::rest => some (some task,{queue with queue := rest}.setPopper index .outside)
  | _ => none

/-- The critical section of `stop`. -/
def stop (queue : TaskQueue) : TaskQueue := {queue with stopped := true,stopping := queue.stopping + 1}

/-- The end of a `stop`. -/
def notifyAll (queue : TaskQueue) : Option TaskQueue :=
  match queue.stopping with
  | 0 => none
  | stopping+1 => some {queue with stopping := stopping,poppers := queue.poppers.map Popper.notified}

/-- A wait may end without a notification. -/
def wake (index : Nat) (queue : TaskQueue) : Option TaskQueue :=
  match queue.poppers[index]? with
  | some .blocked => some (queue.setPopper index .testing)
  | _ => none

inductive Event where
  | push (task : Task)
  | notifyOne (woken : Option Nat)
  | waitPop (index : Nat)
  | test (index : Nat)
  | stop
  | notifyAll
  | wake (index : Nat)

/-- The queue with the tasks it has accepted and those it has given out, in order. -/
structure Watch where
  queue : TaskQueue
  accepted : List Task
  popped : List Task

def Watch.initial (threads : Nat) : Watch := ⟨new threads,[],[]⟩

def Watch.step (watch : Watch) : Event → Option Watch
  | .push task =>
    let (answer,queue) := watch.queue.push task
    some {watch with queue := queue,accepted := if answer then watch.accepted ++ [task] else watch.accepted}
  | .notifyOne woken => (watch.queue.notifyOne woken).map (fun queue => {watch with queue := queue})
  | .waitPop index => (watch.queue.waitPop index).map (fun queue => {watch with queue := queue})
  | .test index => (watch.queue.test index).map (fun (task,queue) =>
      {watch with queue := queue,popped := watch.popped ++ task.toList})
  | .stop => some {watch with queue := watch.queue.stop}
  | .notifyAll => watch.queue.notifyAll.map (fun queue => {watch with queue := queue})
  | .wake index => (watch.queue.wake index).map (fun queue => {watch with queue := queue})

/-- What decides about wake-ups. -/
def wakeups (queue : TaskQueue) : Wakeups :=
  ⟨queue.queue.length,queue.stopped,queue.pushing,queue.stopping,queue.poppers.count .testing,
    queue.poppers.count .blocked⟩

section Steps
variable {queue next : TaskQueue}

theorem push_wakes (task : Task) (queue : TaskQueue) :
    Wakeups.Step queue.wakeups (queue.push task).2.wakeups := by
  unfold push
  split
  next => exact .rest _
  next => exact .put _ _ _ _ _ _ _ (by simp)

/-- A blocked thread is woken. -/
theorem wake_counts {index : Nat} (at_ : queue.poppers[index]? = some .blocked) :
    queue.poppers.count .blocked = (queue.setPopper index .testing).poppers.count .blocked + 1 ∧
      (queue.setPopper index .testing).poppers.count .testing = queue.poppers.count .testing + 1 := by
  have blocked := count_set queue.poppers index .blocked .testing .blocked at_
  have testing := count_set queue.poppers index .blocked .testing .testing at_
  simpa [setPopper] using And.intro blocked.symm testing

theorem notifyOne_wakes {woken : Option Nat} (taken : queue.notifyOne woken = some next) :
    Wakeups.Step queue.wakeups next.wakeups := by
  unfold notifyOne at taken
  split at taken
  next => cases taken
  next pushing owed =>
    split at taken
    next =>
      split at taken
      next => cases taken
      next awake =>
        cases taken
        simp only [wakeups,owed,List.count_eq_zero.mpr awake]
        exact .notifyNobody _ _ _ _ _
    next index =>
      split at taken
      next at_ =>
        cases taken
        obtain ⟨blocked,testing⟩ := wake_counts at_
        simp only [wakeups,owed,blocked]
        simp only [setPopper] at testing ⊢
        rw [testing]
        exact .notifyOne _ _ _ _ _ _
      next => cases taken

theorem waitPop_wakes {index : Nat} (taken : queue.waitPop index = some next) :
    Wakeups.Step queue.wakeups next.wakeups := by
  unfold waitPop at taken
  split at taken
  next at_ =>
    cases taken
    have blocked := count_set queue.poppers index .outside .testing .blocked at_
    have testing := count_set queue.poppers index .outside .testing .testing at_
    simp only [reduceCtorEq,if_false,if_true,Nat.add_zero] at blocked testing
    simp only [wakeups,setPopper,blocked,testing]
    exact .enter _ _ _ _ _ _
  next => cases taken

theorem wake_wakes {index : Nat} (taken : queue.wake index = some next) :
    Wakeups.Step queue.wakeups next.wakeups := by
  unfold wake at taken
  split at taken
  next at_ =>
    cases taken
    obtain ⟨blocked,testing⟩ := wake_counts at_
    simp only [wakeups,blocked,testing]
    exact .wake _ _ _ _ _ _
  next => cases taken

theorem notified_counts (poppers : List Popper) : (poppers.map Popper.notified).count .blocked = 0 ∧
    (poppers.map Popper.notified).count .testing = poppers.count .testing + poppers.count .blocked := by
  induction poppers with
  | nil => exact ⟨rfl,rfl⟩
  | cons popper rest ih =>
    cases popper <;> simp [Popper.notified,ih.1,ih.2] <;> omega

theorem notifyAll_wakes (taken : queue.notifyAll = some next) :
    Wakeups.Step queue.wakeups next.wakeups := by
  unfold notifyAll at taken
  split at taken
  next => cases taken
  next stopping owed =>
    cases taken
    simp only [wakeups,owed,(notified_counts queue.poppers).1,(notified_counts queue.poppers).2]
    exact .notifyAll _ _ _ _ _ _

/-- What a test does: the thread leaves since the queue is stopped, blocks since it is
empty, or leaves with the first task. -/
inductive Tests (queue : TaskQueue) (index : Nat) : Option Task → TaskQueue → Prop
  | stopped (closed : queue.stopped = true) : Tests queue index none (queue.setPopper index .outside)
  | blocks (opened : queue.stopped = false) (empty : queue.queue = []) :
      Tests queue index none (queue.setPopper index .blocked)
  | pops (task rest) (opened : queue.stopped = false) (front : queue.queue = task::rest) :
      Tests queue index (some task) ({queue with queue := rest}.setPopper index .outside)

theorem test_inv {index : Nat} {task : Option Task} (taken : queue.test index = some (task,next)) :
    queue.poppers[index]? = some .testing ∧ Tests queue index task next := by
  unfold test at taken
  split at taken
  next at_ =>
    refine ⟨at_,?_⟩
    split at taken
    next closed =>
      cases taken
      exact .stopped closed
    next opened =>
      split at taken
      next empty =>
        cases taken
        exact .blocks (by simpa using opened) empty
      next first rest front =>
        cases taken
        exact .pops first rest (by simpa using opened) front
  next => cases taken

theorem test_wakes {index : Nat} {task : Option Task} (taken : queue.test index = some (task,next)) :
    Wakeups.Step queue.wakeups next.wakeups := by
  obtain ⟨at_,tests⟩ := test_inv taken
  have testing (new : Popper) (other : new ≠ .testing) :
      queue.poppers.count .testing = (queue.poppers.set index new).count .testing + 1 := by
    simpa [other] using (count_set queue.poppers index .testing new .testing at_).symm
  have left : (queue.poppers.set index .outside).count .blocked = queue.poppers.count .blocked := by
    simpa using count_set queue.poppers index .testing .outside .blocked at_
  cases tests with
  | stopped closed =>
    simp only [wakeups,setPopper,left,closed,testing .outside Popper.noConfusion]
    exact .leave _ _ _ _ _ _ (.inl rfl)
  | blocks opened empty =>
    have blocked : (queue.poppers.set index .blocked).count .blocked =
        queue.poppers.count .blocked + 1 := by
      simpa using count_set queue.poppers index .testing .blocked .blocked at_
    simp only [wakeups,setPopper,blocked,opened,empty,List.length_nil,
      testing .blocked Popper.noConfusion]
    exact .sleep _ _ _ _
  | pops first rest opened front =>
    simp only [wakeups,setPopper,left,opened,front,List.length_cons,testing .outside Popper.noConfusion]
    exact .take _ _ _ _ _

end Steps

section Runs

theorem step_wakes {watch next : Watch} {event : Event} (taken : watch.step event = some next) :
    Wakeups.Step watch.queue.wakeups next.queue.wakeups := by
  cases event with
  | push task =>
    cases taken
    exact push_wakes task watch.queue
  | notifyOne woken =>
    obtain ⟨queue,moved,rfl⟩ := Option.map_eq_some_iff.mp taken
    exact notifyOne_wakes moved
  | waitPop index =>
    obtain ⟨queue,moved,rfl⟩ := Option.map_eq_some_iff.mp taken
    exact waitPop_wakes moved
  | test index =>
    obtain ⟨⟨task,queue⟩,moved,rfl⟩ := Option.map_eq_some_iff.mp taken
    exact test_wakes moved
  | stop =>
    cases taken
    exact .close _ _ _ _ _ _
  | notifyAll =>
    obtain ⟨queue,moved,rfl⟩ := Option.map_eq_some_iff.mp taken
    exact notifyAll_wakes moved
  | wake index =>
    obtain ⟨queue,moved,rfl⟩ := Option.map_eq_some_iff.mp taken
    exact wake_wakes moved

/-- A step keeps the tasks in their order; once the queue is stopped it stays so, accepts
nothing and gives nothing out. -/
structure Keeps (watch next : Watch) : Prop where
  order : watch.accepted = watch.popped ++ watch.queue.queue →
    next.accepted = next.popped ++ next.queue.queue
  stopped : watch.queue.stopped = true →
    next.queue.stopped = true ∧ next.accepted = watch.accepted ∧ next.popped = watch.popped

theorem Keeps.same {watch : Watch} {queue : TaskQueue} (tasks : queue.queue = watch.queue.queue)
    (stopped : watch.queue.stopped = true → queue.stopped = true) :
    Keeps watch {watch with queue := queue} where
  order ordered := by rw [ordered,tasks]
  stopped closed := ⟨stopped closed,rfl,rfl⟩

theorem step_keeps {watch next : Watch} {event : Event} (taken : watch.step event = some next) :
    Keeps watch next := by
  cases event with
  | push task =>
    simp only [Watch.step,push] at taken
    split at taken
    next closed =>
      cases taken
      exact ⟨fun ordered => ordered,fun _ => ⟨closed,rfl,rfl⟩⟩
    next opened =>
      cases taken
      exact ⟨fun ordered => by simp [ordered],fun closed => absurd closed opened⟩
  | notifyOne woken =>
    obtain ⟨queue,moved,rfl⟩ := Option.map_eq_some_iff.mp taken
    unfold notifyOne at moved
    (repeat' split at moved) <;> cases moved <;> exact .same rfl (fun closed => closed)
  | waitPop index =>
    obtain ⟨queue,moved,rfl⟩ := Option.map_eq_some_iff.mp taken
    unfold waitPop at moved
    split at moved <;> cases moved
    exact .same rfl (fun closed => closed)
  | test index =>
    obtain ⟨⟨task,queue⟩,moved,rfl⟩ := Option.map_eq_some_iff.mp taken
    cases (test_inv moved).2 with
    | stopped closed => exact ⟨fun ordered => by simpa [setPopper] using ordered,
      fun _ => ⟨closed,rfl,by simp⟩⟩
    | blocks opened empty =>
      exact ⟨fun ordered => by simpa [setPopper] using ordered,fun closed => ⟨closed,rfl,by simp⟩⟩
    | pops task rest opened front =>
      refine ⟨fun ordered => ?_,fun closed => absurd (closed.symm.trans opened) Bool.noConfusion⟩
      rw [ordered,front]
      simp [setPopper]
  | stop =>
    cases taken
    exact .same rfl (fun _ => rfl)
  | notifyAll =>
    obtain ⟨queue,moved,rfl⟩ := Option.map_eq_some_iff.mp taken
    unfold notifyAll at moved
    split at moved <;> cases moved
    exact .same rfl (fun closed => closed)
  | wake index =>
    obtain ⟨queue,moved,rfl⟩ := Option.map_eq_some_iff.mp taken
    unfold wake at moved
    split at moved <;> cases moved
    exact .same rfl (fun closed => closed)

/-- A notification that is due, or a test by a thread that is awake. -/
def Event.due : Event → Bool
  | .notifyOne _ | .test _ | .notifyAll => true
  | .push _ | .waitPop _ | .stop | .wake _ => false

abbrev Goes := Transition.Moves Watch.step (fun _ event => event.due = true)

/-- A thread that is awake pops the first task. -/
theorem test_pops (watch : Watch) {index : Nat} {task : Task} {rest : List Task}
    (opened : watch.queue.stopped = false) (front : watch.queue.queue = task::rest)
    (at_ : watch.queue.poppers[index]? = some .testing) :
    ∃ next, Goes watch next ∧ next.popped = watch.popped ++ [task] := by
  have tested : watch.queue.test index =
      some (some task,{watch.queue with queue := rest}.setPopper index .outside) := by
    simp only [test,at_,opened,front]
    rfl
  exact ⟨_,⟨.test index,rfl,by rw [Watch.step,tested]; rfl⟩,rfl⟩

/-- The first task of an open queue is popped without further calls if a thread is in `waitPop`. -/
theorem front_pops {watch : Watch} {task : Task} {rest : List Task}
    (guarded : watch.queue.wakeups.Guarded) (opened : watch.queue.stopped = false)
    (front : watch.queue.queue = task::rest)
    (calls : ∃ popper ∈ watch.queue.poppers, popper ≠ .outside) :
    ∃ final, Relation.ReflTransGen Goes watch final ∧ final.popped = watch.popped ++ [task] := by
  by_cases awake : .testing ∈ watch.queue.poppers
  · obtain ⟨index,at_⟩ := List.mem_iff_getElem?.mp awake
    obtain ⟨next,goes,popped⟩ := test_pops watch opened front at_
    exact ⟨next,.single goes,popped⟩
  · -- All threads in `waitPop` are blocked, so the push of the first task has yet to notify.
    obtain ⟨popper,member,inside⟩ := calls
    have blocked : .blocked ∈ watch.queue.poppers := by
      cases popper with
      | outside => exact absurd rfl inside
      | testing => exact absurd member awake
      | blocked => exact member
    have due := guarded.items (List.count_pos_iff.mpr blocked) opened
    simp only [wakeups,front,List.length_cons,List.count_eq_zero.mpr awake] at due
    obtain ⟨pushing,owed⟩ := Nat.exists_eq_succ_of_ne_zero (show watch.queue.pushing ≠ 0 by omega)
    obtain ⟨index,at_⟩ := List.mem_iff_getElem?.mp blocked
    have notified : watch.queue.notifyOne (some index) =
        some ({watch.queue with pushing := pushing}.setPopper index .testing) := by
      simp only [notifyOne,owed,at_,if_true]
    have woken : ({watch.queue with pushing := pushing}.setPopper index .testing).poppers[index]? =
        some .testing := by
      simp [setPopper,(List.getElem?_eq_some_iff.mp at_).1]
    obtain ⟨final,goes,popped⟩ := test_pops
      {watch with queue := {watch.queue with pushing := pushing}.setPopper index .testing}
        opened front woken
    exact ⟨final,.head ⟨.notifyOne (some index),rfl,by rw [Watch.step,notified]; rfl⟩
      (.single goes),popped⟩

/-- The queue is stopped, and a notification is under way to everybody who is blocked. -/
structure Closing (watch : Watch) : Prop where
  guarded : watch.queue.wakeups.Guarded
  closed : watch.queue.stopped = true

theorem Closing.step {watch next : Watch} {event : Event} (closing : Closing watch)
    (taken : watch.step event = some next) : Closing next :=
  ⟨(step_wakes taken).guarded closing.guarded,((step_keeps taken).stopped closing.closed).1⟩

theorem closing_nearer (watch : Watch) (closing : Closing watch) :
    (∀ popper ∈ watch.queue.poppers, popper = .outside) ∨
      ∃ next, Goes watch next ∧ Closing next ∧
        next.queue.poppers.count .testing + 2 * next.queue.poppers.count .blocked <
          watch.queue.poppers.count .testing + 2 * watch.queue.poppers.count .blocked := by
  by_cases awake : .testing ∈ watch.queue.poppers
  · obtain ⟨index,at_⟩ := List.mem_iff_getElem?.mp awake
    have taken : watch.step (.test index) =
        some {watch with queue := watch.queue.setPopper index .outside,popped := watch.popped ++ []} := by
      simp only [Watch.step,test,at_,closing.closed,if_true,Option.map_some,Option.toList_none]
    refine .inr ⟨_,⟨.test index,rfl,taken⟩,closing.step taken,?_⟩
    have testing := count_set watch.queue.poppers index .testing .outside .testing at_
    have blocked := count_set watch.queue.poppers index .testing .outside .blocked at_
    simp only [reduceCtorEq,if_false,if_true,Nat.add_zero] at testing blocked
    simp only [setPopper]
    omega
  · by_cases asleep : .blocked ∈ watch.queue.poppers
    · have some_ := List.count_pos_iff.mpr asleep
      obtain ⟨stopping,owed⟩ := Nat.exists_eq_add_one.mpr (closing.guarded.closed some_ closing.closed)
      have taken : watch.step .notifyAll = some {watch with
          queue :=
            {watch.queue with stopping := stopping,poppers := watch.queue.poppers.map Popper.notified}} := by
        simp only [Watch.step,notifyAll,show watch.queue.stopping = stopping + 1 from owed,
          Option.map_some]
      refine .inr ⟨_,⟨.notifyAll,rfl,taken⟩,closing.step taken,?_⟩
      obtain ⟨none_,all⟩ := notified_counts watch.queue.poppers
      simp only [none_,all]
      omega
    · refine .inl (fun popper member => ?_)
      cases popper with
      | outside => rfl
      | testing => exact absurd member awake
      | blocked => exact absurd member asleep

/-- Over every run the queue gives out its tasks in order and each once, and no wake-up is
lost: while a thread is blocked, every task of an open queue has a notification or a thread
awake for it, and a stopped queue has yet to notify all. So a thread in `waitPop` gets the
first task, and `stop` sends every thread away, with no further call; and a queue that was
stopped never takes in or gives out a task again. -/
theorem no_lost_wakeup (threads : Nat) (events : List Event) (final : Watch)
    (ran : Transition.run Watch.step events (.initial threads) = some final) :
    final.accepted = final.popped ++ final.queue.queue ∧
    (.blocked ∈ final.queue.poppers →
      if final.queue.stopped then 0 < final.queue.stopping
      else final.queue.queue.length ≤ final.queue.pushing + final.queue.poppers.count .testing) ∧
    (∀ task rest, final.queue.queue = task::rest → final.queue.stopped = false →
      (∃ popper ∈ final.queue.poppers, popper ≠ .outside) →
      ∃ more last, (∀ event ∈ more, event.due = true) ∧
        Transition.run Watch.step more final = some last ∧ last.popped = final.popped ++ [task]) ∧
    (final.queue.stopped = true →
      (∃ more last, (∀ event ∈ more, event.due = true) ∧
        Transition.run Watch.step more final = some last ∧
        ∀ popper ∈ last.queue.poppers, popper = .outside) ∧
      ∀ more last, Transition.run Watch.step more final = some last →
        last.queue.stopped = true ∧ last.accepted = final.accepted ∧ last.popped = final.popped) := by
  have guarded : final.queue.wakeups.Guarded := by
    refine Transition.run_kept (fun _ _ _ (before : (Watch.queue _).wakeups.Guarded) taken =>
      (step_wakes taken).guarded before) events _ final ⟨?_,?_⟩ ran
    · simp [Watch.initial,new,wakeups]
    · simp [Watch.initial,new,wakeups]
  have order : final.accepted = final.popped ++ final.queue.queue :=
    Transition.run_kept (fun _ _ _ before taken => (step_keeps taken).order before) events _
      final rfl ran
  refine ⟨order,fun blocked => ?_,fun task rest front opened calls => ?_,
    fun closed => ⟨?_,fun more last reached => ?_⟩⟩
  · have some_ := List.count_pos_iff.mpr blocked
    split
    next closed => exact guarded.closed some_ closed
    next opened => exact guarded.items some_ (by simpa [wakeups] using opened)
  · obtain ⟨last,path,popped⟩ := front_pops guarded opened front calls
    obtain ⟨more,along,reached⟩ := Transition.exists_run path
    exact ⟨more,last,along.forall reached,reached,popped⟩
  · obtain ⟨last,path,_,all⟩ := Transition.exists_path _ closing_nearer final ⟨guarded,closed⟩
    obtain ⟨more,along,reached⟩ := Transition.exists_run path
    exact ⟨more,last,along.forall reached,reached,all⟩
  · refine Transition.run_kept (fun watch event next
      (before : watch.queue.stopped = true ∧ watch.accepted = final.accepted ∧
        watch.popped = final.popped) taken => ?_)
      more final last ⟨closed,rfl,rfl⟩ reached
    obtain ⟨stays,accepted,popped⟩ := (step_keeps taken).stopped before.1
    exact ⟨stays,accepted.trans before.2.1,popped.trans before.2.2⟩

/-- The only thread blocks, a task is pushed, and the push has yet to notify. -/
theorem no_lost_wakeup_pushed :
    ∃ final more last,
      Transition.run Watch.step [.waitPop 0,.test 0,.push ⟨utf8 "task-000001",utf8 "hello"⟩]
        (.initial 1) = some final ∧
      final.queue.poppers = [.blocked] ∧ Transition.run Watch.step more final = some last ∧
      last.popped = [⟨utf8 "task-000001",utf8 "hello"⟩] := by
  obtain ⟨more,last,_,reached,popped⟩ := (no_lost_wakeup 1
    [.waitPop 0,.test 0,.push ⟨utf8 "task-000001",utf8 "hello"⟩] _ rfl).2.2.1 _ _ rfl rfl
      ⟨.blocked,by decide,by decide⟩
  exact ⟨_,more,last,rfl,rfl,reached,popped⟩

end Runs

end TaskQueue

section Nodes

def Consumer.popper : Consumer → Popper
  | .waiting => .testing
  | .idle | .popped _ | .executing _ | .reporting _ | .awaiting _ | .reported _ | .exited => .outside

/-- The queue of a node in whose view nobody is blocked and every notification was made. -/
def Node.taskQueue (node : Node) : TaskQueue :=
  ⟨node.queue,node.stopped,node.consumers.map Consumer.popper,0,0⟩

theorem taskQueue_setConsumer (node : Node) (index : Nat) (consumer : Consumer) :
    (node.setConsumer index consumer).taskQueue = node.taskQueue.setPopper index consumer.popper := by
  simp [Node.taskQueue,Node.setConsumer,TaskQueue.setPopper,List.map_set]

theorem taskQueue_advance {node : Node} {index : Nat} {old : Consumer}
    (at_ : node.consumers[index]? = some old) (new : Consumer) (same : new.popper = old.popper) :
    (node.setConsumer index new).taskQueue = node.taskQueue := by
  obtain ⟨inside,rfl⟩ := List.getElem?_eq_some_iff.mp at_
  rw [taskQueue_setConsumer,same]
  simp only [TaskQueue.setPopper,Node.taskQueue]
  rw [← List.map_set,List.set_getElem_self]

theorem popper_awake (consumer : Consumer) :
    consumer.popper ≠ .blocked ∧ consumer.popper.notified = consumer.popper := by
  cases consumer <;> exact ⟨Popper.noConfusion,rfl⟩

/-- Each step of a node uses its queue as the code of the queue does. -/
theorem step_taskQueue {node next : Node} {inner : Local} (taken : node.step inner = some next)
    (accepted popped : List Task) :
    ∃ events last, Transition.run TaskQueue.Watch.step events ⟨node.taskQueue,accepted,popped⟩ =
      some last ∧ last.queue = next.taskQueue := by
  have unused (same : next.taskQueue = node.taskQueue) : ∃ events last,
      Transition.run TaskQueue.Watch.step events ⟨node.taskQueue,accepted,popped⟩ = some last ∧
        last.queue = next.taskQueue := ⟨[],_,rfl,same.symm⟩
  have standing {index : Nat} {consumer : Consumer} (at_ : node.consumers[index]? = some consumer) :
      node.taskQueue.poppers[index]? = some consumer.popper := by
    rw [Node.taskQueue,List.getElem?_map,at_,Option.map_some]
  cases inner with
  | insertTask | refuseTask =>
    refine unused ?_
    simp only [Node.step,insertTask,refuseTask] at taken
    (repeat' split at taken) <;> cases taken <;> rfl
  | pushTask =>
    simp only [Node.step,pushTask] at taken
    split at taken
    next task at_ =>
      split at taken
      next =>
        cases taken
        exact unused rfl
      next opened =>
        cases taken
        have awake : .blocked ∉ node.consumers.map Consumer.popper := by
          rw [List.mem_map]
          rintro ⟨consumer,_,same⟩
          exact (popper_awake consumer).1 same
        refine ⟨[.push task,.notifyOne none],⟨_,accepted ++ [task],popped⟩,?_,rfl⟩
        simp [Transition.run,TaskQueue.Watch.step,TaskQueue.push,TaskQueue.notifyOne,Node.taskQueue,
          opened,awake]
    next => cases taken
  | checkRunning index =>
    simp only [Node.step,checkRunning] at taken
    split at taken
    next at_ =>
      cases taken
      split
      next =>
        refine ⟨[.waitPop index],⟨_,accepted,popped⟩,?_,
          (taskQueue_setConsumer node index .waiting).symm⟩
        simp only [Transition.run,TaskQueue.Watch.step,TaskQueue.waitPop,standing at_,Consumer.popper]
        rfl
      next stopped =>
        rw [if_neg stopped] at unused
        exact unused (taskQueue_advance at_ _ rfl)
    next => cases taken
  | popTask index =>
    simp only [Node.step,popTask] at taken
    split at taken
    next at_ =>
      have place : node.taskQueue.poppers[index]? = some .testing := standing at_
      split at taken
      next closed =>
        cases taken
        have tested : node.taskQueue.test index =
            some (none,node.taskQueue.setPopper index .outside) := by
          simp only [TaskQueue.test,place,show node.taskQueue.stopped = true from closed,if_true]
        refine ⟨[.test index],⟨_,accepted,popped ++ []⟩,?_,
          (taskQueue_setConsumer node index .exited).symm⟩
        rw [Transition.run,TaskQueue.Watch.step,tested]
        rfl
      next opened =>
        split at taken
        next => cases taken
        next task rest front =>
          cases taken
          have closed : node.taskQueue.stopped = false := by simpa [Node.taskQueue] using opened
          have tested : node.taskQueue.test index =
              some (some task,{node.taskQueue with queue := rest}.setPopper index .outside) := by
            simp only [TaskQueue.test,place,closed,show node.taskQueue.queue = task::rest from front]
            rfl
          refine ⟨[.test index],⟨_,accepted,popped ++ [task]⟩,?_,
            (taskQueue_setConsumer {node with queue := rest} index (.popped task)).symm⟩
          rw [Transition.run,TaskQueue.Watch.step,tested]
          rfl
    next => cases taken
  | startTask index | completeTask index thrown | endReport index | finishReported index =>
    refine unused ?_
    simp only [Node.step,startTask,completeTask,endReport,finishReported] at taken
    split at taken
    next at_ =>
      cases taken
      exact taskQueue_advance at_ _ rfl
    next => cases taken
  | beginBeat | countRunning | snapshotActive | flagStop | closeTransport =>
    refine unused ?_
    simp only [Node.step,beginBeat,countRunning,snapshotActive,flagStop,closeTransport] at taken
    split at taken <;> cases taken
    rfl
  | stopQueue =>
    simp only [Node.step,stopQueue] at taken
    split at taken <;> cases taken
    refine ⟨[.stop,.notifyAll],⟨_,accepted,popped⟩,?_,rfl⟩
    have awake : (node.consumers.map Consumer.popper).map Popper.notified =
        node.consumers.map Consumer.popper := by
      rw [List.map_map]
      exact List.map_congr_left (fun consumer _ => (popper_awake consumer).2)
    simp only [Transition.run,TaskQueue.Watch.step,TaskQueue.stop,TaskQueue.notifyAll,
      Node.taskQueue,awake,Option.map_some,Option.bind_some]

end Nodes

end RdmaPlatform.Worker
