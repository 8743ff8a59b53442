import RdmaPlatform.Worker.Shutdown

/-! The whole worker program: `main.cpp` and `WorkerNode::run`. The main thread waits in
`run` for the flag `running_` to be lowered; a second thread polls for the signal and then
calls `stop`, which lowers the flag first and notifies last, without taking the lock that the
main thread tests the flag under. The destructor's call of `stop` finds the work done. Network
calls are taken to return, as in the shutdown of the worker. -/
namespace RdmaPlatform.Worker
open Library

/-- Where the main thread stands: before the test of the flag, after a test that found the
flag up, in the wait, and behind `run`. It holds `state_mutex_` at the first two, and no other
thread ever does. -/
inductive MainThread where
  | testing
  | tested
  | blocked
  | returned
  | joining
  | exited
  deriving DecidableEq

def MainThread.waits : MainThread → Bool
  | .testing | .tested | .blocked => true
  | .returned | .joining | .exited => false

/-- Where the thread `signal_watcher` stands. -/
inductive Watcher where
  | polling
  | polledStop
  | leaving
  | stopping
  | ended
  deriving DecidableEq

/-- `worker` is the node that `start` left; the two flags are the globals of `main.cpp`. -/
structure Process where
  worker : Watch
  stopRequested : Bool
  exitRequested : Bool
  main : MainThread
  watcher : Watcher

/-- The begin of `stop`, which only the thread that calls it can take. -/
def Move.flags : Move → Bool
  | .work .flagStop => true
  | _ => false

namespace Process

/-- `wake` is a spurious wake-up. -/
inductive Event where
  | signal
  | work (move : Move)
  | pollStop
  | pollExit
  | leave
  | notifyAll
  | test
  | block
  | wake
  | requestExit
  | join

def start (id address : Bytes) (threads : Nat) : Process :=
  ⟨.start id address threads,false,false,.testing,.polling⟩

instance (node : Node) : Decidable node.Ended :=
  decidable_of_iff (node.phase = .drained ∧ node.acceptor = .idle ∧ node.beat = none ∧
      ∀ consumer ∈ node.consumers, consumer = .exited)
    ⟨fun all => ⟨all.1,all.2.1,all.2.2.1,all.2.2.2⟩,
      fun ended => ⟨ended.1,ended.2,ended.3,ended.4⟩⟩

def step (process : Process) : Event → Option Process
  | .signal => some {process with stopRequested := true}
  | .work move =>
    if move.flags then none else (process.worker.step move).map
      (fun worker => {process with worker := worker})
  | .pollStop =>
    if process.watcher = .polling then
      some {process with watcher := if process.stopRequested then .leaving else .polledStop}
    else none
  | .pollExit =>
    if process.watcher = .polledStop then
      some {process with watcher := if process.exitRequested then .leaving else .polling}
    else none
  | .leave =>
    if process.watcher = .leaving then
      if process.stopRequested then
        (process.worker.step (.work .flagStop)).map
          (fun worker => {process with worker := worker,watcher := .stopping})
      else some {process with watcher := .ended}
    else none
  | .notifyAll =>
    -- The last statement of `stop`, after the consumers were joined.
    if process.watcher = .stopping ∧ process.worker.node.Ended then
      some {process with watcher := .ended,main := if process.main = .blocked then .testing else process.main}
    else none
  | .test =>
    if process.main = .testing then
      some {process with main := if process.worker.node.running then .tested else .returned}
    else none
  | .block => if process.main = .tested then some {process with main := .blocked} else none
  | .wake => if process.main = .blocked then some {process with main := .testing} else none
  | .requestExit =>
    if process.main = .returned then some {process with main := .joining,exitRequested := true}
    else none
  | .join =>
    if process.main = .joining ∧ process.watcher = .ended then some {process with main := .exited}
    else none

/-- What the program does of itself: no signal, no task from outside and no spurious wake-up. -/
def Event.own : Event → Bool
  | .signal | .wake => false
  | .work move => !move.hands
  | _ => true

section Invariant
variable {process next : Process} {event : Event}

theorem node_started {node next : Node} {inner : Local} (taken : node.step inner = some next)
    (early : node.phase = .started) (other : inner ≠ .flagStop) :
    next.phase = .started ∧ next.running = node.running := by
  cases serves : inner.serves with
  | true =>
    obtain ⟨phase,running,_⟩ := serves_fixed serves taken
    exact ⟨phase.trans early,running⟩
  | false =>
    cases inner with
    | flagStop => exact absurd rfl other
    | beginBeat | countRunning | snapshotActive =>
      simp only [Node.step,beginBeat,countRunning,snapshotActive] at taken
      split at taken <;> cases taken
      exact ⟨early,rfl⟩
    | closeTransport | stopQueue => simp [Node.step,closeTransport,stopQueue,early] at taken
    | insertTask | pushTask | refuseTask | checkRunning | popTask | startTask | completeTask | endReport
    | finishReported => cases serves

/-- A worker that nobody stops goes on running. -/
theorem step_started {watch next : Watch} {move : Move} (taken : watch.step move = some next)
    (early : watch.node.phase = .started) (other : move.flags = false) :
    next.node.phase = .started ∧ next.node.running = watch.node.running := by
  cases Watch.step_moves taken with
  | handle task _ _ _ _ node =>
    rw [node,Worker.handle]
    split <;> exact ⟨early,rfl⟩
  | work inner _ moved =>
    refine node_started moved early ?_
    rintro rfl
    cases other
  | postResult index result _ moved =>
    rw [(postResult_inv moved).2]
    exact ⟨early,rfl⟩
  | endBeat _ _ _ _ node =>
    rw [node]
    exact ⟨early,rfl⟩
  | beginLast _ place | silence _ place => cases early.symm.trans place

/-- Everything that a step of the program can do. -/
inductive Moved (process : Process) : Event → Process → Prop
  | signal : Moved process .signal {process with stopRequested := true}
  | work (move worker) (other : move.flags = false) (taken : process.worker.step move = some worker) :
      Moved process (.work move) {process with worker := worker}
  | pollStop (at_ : process.watcher = .polling) :
      Moved process .pollStop
        {process with watcher := if process.stopRequested then .leaving else .polledStop}
  | pollExit (at_ : process.watcher = .polledStop) :
      Moved process .pollExit
        {process with watcher := if process.exitRequested then .leaving else .polling}
  | stop (worker) (at_ : process.watcher = .leaving)
      (taken : process.worker.step (.work .flagStop) = some worker) :
      Moved process .leave {process with worker := worker,watcher := .stopping}
  | leave (at_ : process.watcher = .leaving) (unasked : process.stopRequested = false) :
      Moved process .leave {process with watcher := .ended}
  | notifyAll (at_ : process.watcher = .stopping) (ended : process.worker.node.Ended) :
      Moved process .notifyAll
        {process with watcher := .ended,main := if process.main = .blocked then .testing else process.main}
  | test (at_ : process.main = .testing) :
      Moved process .test
        {process with main := if process.worker.node.running then .tested else .returned}
  | block (at_ : process.main = .tested) : Moved process .block {process with main := .blocked}
  | wake (at_ : process.main = .blocked) : Moved process .wake {process with main := .testing}
  | requestExit (at_ : process.main = .returned) :
      Moved process .requestExit {process with main := .joining,exitRequested := true}
  | join (at_ : process.main = .joining) (gone : process.watcher = .ended) :
      Moved process .join {process with main := .exited}

theorem step_moved (taken : process.step event = some next) : Moved process event next := by
  cases event with
  | signal =>
    cases taken
    exact .signal
  | work move =>
    simp only [step] at taken
    split at taken
    next => cases taken
    next other =>
      obtain ⟨worker,moved,rfl⟩ := Option.map_eq_some_iff.mp taken
      exact .work move worker (Bool.eq_false_of_not_eq_true other) moved
  | pollStop | pollExit | test | block | wake | requestExit =>
    simp only [step] at taken
    split at taken <;> cases taken
    constructor
    assumption
  | leave =>
    simp only [step] at taken
    split at taken
    next at_ =>
      split at taken
      next =>
        obtain ⟨worker,moved,rfl⟩ := Option.map_eq_some_iff.mp taken
        exact .stop worker at_ moved
      next unasked =>
        cases taken
        exact .leave at_ (Bool.eq_false_of_not_eq_true unasked)
    next => cases taken
  | notifyAll | join =>
    simp only [step] at taken
    split at taken <;> cases taken
    next both =>
      constructor
      · exact both.1
      · exact both.2

/-- Where the worker and the main thread are while the signal watcher is here. -/
def Watcher.Fits (node : Node) (main : MainThread) (stop exit : Bool) : Watcher → Prop
  | .polling | .polledStop => node.phase = .started ∧ main.waits = true ∧ exit = false
  | .leaving => node.phase = .started ∧ main.waits = true ∧ stop = true
  | .stopping => node.phase ≠ .started ∧ main ≠ .exited
  | .ended => node.Ended

theorem Watcher.Fits.main {node : Node} {main later : MainThread} {stop exit : Bool}
    {watcher : Watcher} (fits : Watcher.Fits node main stop exit watcher)
    (waits : node.phase = .started → main.waits = true → later.waits = true)
    (inside : later ≠ .exited) :
    Watcher.Fits node later stop exit watcher := by
  cases watcher with
  | polling | polledStop | leaving => exact ⟨fits.1,waits fits.1 fits.2.1,fits.2.2⟩
  | stopping => exact ⟨fits.1,inside⟩
  | ended => exact fits

structure Fits (process : Process) : Prop where
  worker : process.worker.Fits
  running : process.worker.node.phase = .started → process.worker.node.running = true
  watcher : Watcher.Fits process.worker.node process.main process.stopRequested
    process.exitRequested process.watcher

theorem step_fits (fits : process.Fits) (taken : process.step event = some next) : next.Fits := by
  obtain ⟨worker,running,watcher⟩ := fits
  cases step_moved taken with
  | signal =>
    refine ⟨worker,running,?_⟩
    cases place : process.watcher <;> simp_all [Watcher.Fits]
  | work move moved other moves =>
    refine ⟨Watch.step_fits worker moves,fun early => ?_,?_⟩
    · have before : process.worker.node.phase = .started := by
        by_contra begun
        exact (Watch.step_effort worker begun moves).1 early
      exact (step_started moves before other).2.trans (running before)
    · cases place : process.watcher with
      | polling | polledStop | leaving =>
        rw [place] at watcher
        exact ⟨(step_started moves watcher.1 other).1,watcher.2⟩
      | stopping =>
        rw [place] at watcher
        exact ⟨(Watch.step_effort worker watcher.1 moves).1,watcher.2⟩
      | ended =>
        rw [place] at watcher
        rw [Watch.ended_still watcher worker move] at moves
        cases moves
  | pollStop at_ =>
    rw [at_] at watcher
    refine ⟨worker,running,?_⟩
    dsimp only
    split
    next asked => exact ⟨watcher.1,watcher.2.1,asked⟩
    next => exact watcher
  | pollExit at_ =>
    rw [at_] at watcher
    refine ⟨worker,running,?_⟩
    rw [if_neg (by simp [watcher.2.2])]
    exact watcher
  | stop moved at_ moves =>
    rw [at_] at watcher
    obtain ⟨node,flagged,rfl⟩ := Option.map_eq_some_iff.mp moves
    have later : node.phase = .flagged := by
      simp only [Node.step,flagStop,watcher.1,if_true] at flagged
      cases flagged
      rfl
    have begun : node.phase ≠ .started := by
      rw [later]
      exact Phase.noConfusion
    refine ⟨Watch.step_fits worker moves,fun early => absurd early begun,begun,?_⟩
    intro exited
    have waits := watcher.2.1
    rw [exited] at waits
    cases waits
  | leave at_ unasked =>
    rw [at_] at watcher
    cases unasked.symm.trans watcher.2.2
  | notifyAll at_ ended => exact ⟨worker,running,ended⟩
  | test at_ =>
    refine ⟨worker,running,watcher.main (fun early _ => ?_) ?_⟩
    · rw [if_pos (running early)]
      rfl
    · split <;> exact MainThread.noConfusion
  | block at_ | wake at_ => exact ⟨worker,running,watcher.main (fun _ _ => rfl) MainThread.noConfusion⟩
  | requestExit at_ =>
    refine ⟨worker,running,?_⟩
    rw [at_] at watcher
    cases place : process.watcher with
    | polling | polledStop | leaving => simp [place,Watcher.Fits,MainThread.waits] at watcher
    | stopping =>
      rw [place] at watcher
      exact ⟨watcher.1,MainThread.noConfusion⟩
    | ended =>
      rw [place] at watcher
      exact watcher
  | join at_ gone =>
    refine ⟨worker,running,?_⟩
    rw [gone] at watcher ⊢
    exact watcher

end Invariant

section Ends
variable {process next : Process} {event : Event}

def MainThread.effort : MainThread → Nat
  | .testing => 3
  | .returned => 2
  | .joining | .tested => 1
  | .blocked | .exited => 0

/-- The most steps that a program which stops still takes of itself; the notification may
send the main thread back to its test. -/
def effort (process : Process) : Nat :=
  process.worker.effort + MainThread.effort process.main + if process.watcher = .stopping then 4 else 0

theorem begun_watcher (fits : process.Fits) (begun : process.worker.node.phase ≠ .started) :
    process.watcher = .stopping ∨ process.watcher = .ended := by
  have watcher := fits.watcher
  cases place : process.watcher with
  | polling | polledStop | leaving =>
    rw [place] at watcher
    exact absurd watcher.1 begun
  | stopping => exact .inl rfl
  | ended => exact .inr rfl

theorem step_effort (fits : process.Fits) (begun : process.worker.node.phase ≠ .started)
    (own : event.own = true) (taken : process.step event = some next) :
    next.worker.node.phase ≠ .started ∧ next.effort < process.effort := by
  have stopped := fits.worker.stopped begun
  have place := begun_watcher fits begun
  cases step_moved taken with
  | signal | wake => cases own
  | work move moved other moves =>
    obtain ⟨later,handed | less⟩ := Watch.step_effort fits.worker begun moves
    · simp [Event.own,handed.1] at own
    · refine ⟨later,?_⟩
      simp only [effort]
      omega
  | pollStop at_ | pollExit at_ | stop _ at_ | leave at_ => simp [at_] at place
  | notifyAll at_ ended =>
    refine ⟨begun,?_⟩
    simp only [effort,at_]
    cases process.main <;> simp [MainThread.effort]
  | test at_ =>
    refine ⟨begun,?_⟩
    simp [effort,at_,stopped,MainThread.effort]
  | block at_ | requestExit at_ | join at_ =>
    refine ⟨begun,?_⟩
    simp [effort,at_,MainThread.effort]

end Ends

section Runs

end Runs

end Process

end RdmaPlatform.Worker
