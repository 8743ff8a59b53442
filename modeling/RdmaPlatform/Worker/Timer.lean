import RdmaPlatform.Library.Transition

/-! The timer of the worker: `timer.cpp`. One thread calls `start` and `stop`, the thread of
the timer waits and calls the task. A step is one critical section or one action between two
of them. When `stop` has returned, the task is not running and will not run again. The task is
taken to return: `stop` waits for it, and the one that the worker hands over sends a heartbeat
and waits for the answer without a timeout. -/
namespace RdmaPlatform.Worker
open Library

namespace Timer

/-- Where the thread of the timer stands: before it takes the lock at the head of its loop,
in the wait, woken from the wait, in the task and outside the lock, or at its end. -/
inductive Position where
  | looping
  | waiting
  | notified
  | calling
  | exited
  deriving DecidableEq

/-- Where the caller of `start` and `stop` stands; `rearm` if `stop` is called by `start`. -/
inductive Control where
  | idle
  | stopping (rearm : Bool)
  | notifying (rearm : Bool)
  | joining (rearm : Bool)
  | arming
  | spawning
  deriving DecidableEq

end Timer

/-- `thread` is `none` if the thread object is not joinable; `terminated` if one that is
joinable was assigned to. -/
structure Timer where
  running : Bool
  thread : Option Timer.Position
  control : Timer.Control
  terminated : Bool
  deriving DecidableEq

namespace Timer

def new : Timer := ⟨false,none,.idle,false⟩

/-- The beginning of `start`, with what the call returns if it ends there. -/
def start (interval : Int) (hasTask : Bool) (timer : Timer) : Option (Option Bool × Timer) :=
  match timer.control with
  | .idle =>
    if interval ≤ 0 ∨ !hasTask then some (some false,timer)
    else some (none,{timer with control := .stopping true})
  | _ => none

def stop (timer : Timer) : Option Timer :=
  match timer.control with
  | .idle => some {timer with control := .stopping false}
  | _ => none

def afterStop (rearm : Bool) : Control := if rearm then .arming else .idle

/-- The critical section of `stop`. -/
def stopLocked (timer : Timer) : Option Timer :=
  match timer.control with
  | .stopping rearm =>
    if !timer.running ∧ timer.thread = none then some {timer with control := afterStop rearm}
    else some {timer with running := false,control := .notifying rearm}
  | _ => none

def Position.woken : Position → Position
  | .waiting => .notified
  | position => position

def notifyAll (timer : Timer) : Option Timer :=
  match timer.control with
  | .notifying rearm =>
    some {timer with thread := timer.thread.map Position.woken,control := .joining rearm}
  | _ => none

/-- The end of `stop`; a thread that can be joined is waited for. -/
def join (timer : Timer) : Option Timer :=
  match timer.control with
  | .joining rearm =>
    match timer.thread with
    | none => some {timer with control := afterStop rearm}
    | some .exited => some {timer with thread := none,control := afterStop rearm}
    | some _ => none
  | _ => none

/-- The critical section of `start`. -/
def arm (timer : Timer) : Option Timer :=
  match timer.control with
  | .arming => some {timer with running := true,control := .spawning}
  | _ => none

/-- The thread is made and assigned, or its constructor throws and `start` is left. -/
def spawn (thrown : Bool) (timer : Timer) : Option Timer :=
  match timer.control with
  | .spawning =>
    if thrown then some {timer with control := .idle}
    else some {timer with
      thread := some .looping
      control := .idle
      terminated := timer.terminated || timer.thread.isSome}
  | _ => none

/-- The head of the loop and the first test of the wait. -/
def look (timer : Timer) : Option Timer :=
  match timer.thread with
  | some .looping => some {timer with thread := some (if timer.running then .waiting else .exited)}
  | _ => none

/-- The wait ends by its deadline: the loop is left if the timer was stopped, and the task
called otherwise. -/
def expire (timer : Timer) : Option Timer :=
  match timer.thread with
  | some .waiting | some .notified =>
    some {timer with thread := some (if timer.running then .calling else .exited)}
  | _ => none

/-- The wait is woken before its deadline, by a notification or without one. -/
def wake (timer : Timer) : Option Timer :=
  match timer.thread with
  | some .waiting | some .notified =>
    some {timer with thread := some (if timer.running then .waiting else .exited)}
  | _ => none

/-- The task returns or throws; either way the loop goes on. -/
def finish (timer : Timer) : Option Timer :=
  match timer.thread with
  | some .calling => some {timer with thread := some .looping}
  | _ => none

inductive Event where
  | start (interval : Int) (hasTask : Bool)
  | stop
  | stopLocked
  | notifyAll
  | join
  | arm
  | spawn (thrown : Bool)
  | look
  | expire
  | wake
  | finish

/-- A timer and what was seen of it: what the calls of `start` returned, and how often the
task was called. -/
structure Watch where
  timer : Timer
  answers : List Bool
  calls : Nat

namespace Watch

def initial : Watch := ⟨new,[],0⟩

def step (watch : Watch) : Event → Option Watch
  | .start interval hasTask => (watch.timer.start interval hasTask).map (fun (answer,timer) =>
      {watch with timer := timer,answers := watch.answers ++ answer.toList})
  | .stop => watch.timer.stop.map (fun timer => {watch with timer := timer})
  | .stopLocked => watch.timer.stopLocked.map (fun timer => {watch with timer := timer})
  | .notifyAll => watch.timer.notifyAll.map (fun timer => {watch with timer := timer})
  | .join => watch.timer.join.map (fun timer => {watch with timer := timer})
  | .arm => watch.timer.arm.map (fun timer => {watch with timer := timer})
  | .spawn thrown => (watch.timer.spawn thrown).map (fun timer =>
      {watch with timer := timer,answers := if thrown then watch.answers else watch.answers ++ [true]})
  | .look => watch.timer.look.map (fun timer => {watch with timer := timer})
  | .expire => watch.timer.expire.map (fun timer =>
      {watch with timer := timer,calls := if timer.thread = some .calling then watch.calls + 1 else watch.calls})
  | .wake => watch.timer.wake.map (fun timer => {watch with timer := timer})
  | .finish => watch.timer.finish.map (fun timer => {watch with timer := timer})

end Watch

/-- What holds of the flag and the thread while the caller stands there. -/
def Control.Fits (running : Bool) (thread : Option Position) : Control → Prop
  | .idle | .stopping _ => running = false → thread = none
  | .notifying _ => running = false
  | .joining _ => running = false ∧ thread ≠ some .waiting
  | .arming => running = false ∧ thread = none
  | .spawning => running = true ∧ thread = none

structure Shape (timer : Timer) : Prop where
  intact : timer.terminated = false
  ended : timer.thread = some .exited → timer.running = false
  fits : timer.control.Fits timer.running timer.thread

theorem new_shape : new.Shape where
  intact := rfl
  ended ended := by cases ended
  fits _ := rfl

/-- What the thread does: it ends if it finds the timer stopped, and otherwise waits or
calls the task; after the task it goes to the head of its loop. -/
inductive Threads (timer : Timer) : Timer → Prop
  | ends (old) (at_ : timer.thread = some old)
      (before : old = .looping ∨ old = .waiting ∨ old = .notified)
      (stopped : timer.running = false) : Threads timer {timer with thread := some .exited}
  | waits (old) (at_ : timer.thread = some old) (runs : timer.running = true) :
      Threads timer {timer with thread := some .waiting}
  | calls (old) (at_ : timer.thread = some old) (runs : timer.running = true) :
      Threads timer {timer with thread := some .calling}
  | loops (at_ : timer.thread = some .calling) : Threads timer {timer with thread := some .looping}

section Threads
variable {timer next : Timer}

theorem look_threads (taken : timer.look = some next) : Threads timer next := by
  unfold look at taken
  split at taken
  next at_ =>
    cases taken
    split
    next runs => exact .waits _ at_ runs
    next stopped => exact .ends _ at_ (.inl rfl) (by simpa using stopped)
  next => cases taken

theorem expire_threads (taken : timer.expire = some next) : Threads timer next := by
  have moves {old : Position} (at_ : timer.thread = some old)
      (before : old = .waiting ∨ old = .notified) :
      Threads timer {timer with thread := some (if timer.running then .calling else .exited)} := by
    split
    next runs => exact .calls old at_ runs
    next stopped => exact .ends old at_ (.inr before) (by simpa using stopped)
  unfold expire at taken
  split at taken
  next at_ => cases taken; exact moves at_ (.inl rfl)
  next at_ => cases taken; exact moves at_ (.inr rfl)
  next => cases taken

theorem wake_threads (taken : timer.wake = some next) : Threads timer next := by
  have moves {old : Position} (at_ : timer.thread = some old)
      (before : old = .waiting ∨ old = .notified) :
      Threads timer {timer with thread := some (if timer.running then .waiting else .exited)} := by
    split
    next runs => exact .waits old at_ runs
    next stopped => exact .ends old at_ (.inr before) (by simpa using stopped)
  unfold wake at taken
  split at taken
  next at_ => cases taken; exact moves at_ (.inl rfl)
  next at_ => cases taken; exact moves at_ (.inr rfl)
  next => cases taken

theorem finish_threads (taken : timer.finish = some next) : Threads timer next := by
  unfold finish at taken
  split at taken
  next at_ =>
    cases taken
    exact .loops at_
  next => cases taken

/-- A thread that exists was spawned and not joined, so the caller is not about to spawn one. -/
theorem move_shape {old new : Position} (shape : timer.Shape) (at_ : timer.thread = some old)
    (ends : new = .exited → timer.running = false) (waits : new = .waiting → timer.running = true) :
    Shape {timer with thread := some new} := by
  refine ⟨shape.intact,fun ended => ends (Option.some.inj ended),?_⟩
  have fits := shape.fits
  rw [at_] at fits
  cases place : timer.control <;> rw [place] at fits
  case idle | stopping => exact fun stopped => absurd (fits stopped) (by simp)
  case notifying => exact fits
  case joining => exact ⟨fits.1,
    fun waiting => absurd (fits.1.symm.trans (waits (Option.some.inj waiting))) Bool.noConfusion⟩
  case arming | spawning => exact absurd fits.2 (by simp)

theorem Threads.shape (threads : Threads timer next) (shape : timer.Shape) : next.Shape := by
  cases threads with
  | ends old at_ before stopped => exact move_shape shape at_ (fun _ => stopped) Position.noConfusion
  | waits old at_ runs => exact move_shape shape at_ Position.noConfusion (fun _ => runs)
  | calls old at_ runs => exact move_shape shape at_ Position.noConfusion Position.noConfusion
  | loops at_ => exact move_shape shape at_ Position.noConfusion Position.noConfusion

end Threads

/-- What the caller does. -/
inductive Calls (timer : Timer) : Timer → Prop
  | refused (place : timer.control = .idle) : Calls timer timer
  | stop (rearm) (place : timer.control = .idle) : Calls timer {timer with control := .stopping rearm}
  | absent (rearm) (place : timer.control = .stopping rearm) (stopped : timer.running = false)
      (none : timer.thread = none) : Calls timer {timer with control := afterStop rearm}
  | stopLocked (rearm) (place : timer.control = .stopping rearm) :
      Calls timer {timer with running := false,control := .notifying rearm}
  | notifyAll (rearm) (place : timer.control = .notifying rearm) :
      Calls timer {timer with thread := timer.thread.map Position.woken,control := .joining rearm}
  | join (rearm) (place : timer.control = .joining rearm)
      (ended : timer.thread = none ∨ timer.thread = some .exited) :
      Calls timer {timer with thread := none,control := afterStop rearm}
  | arm (place : timer.control = .arming) :
      Calls timer {timer with running := true,control := .spawning}
  | thrown (place : timer.control = .spawning) : Calls timer {timer with control := .idle}
  | spawn (place : timer.control = .spawning) : Calls timer {timer with
      thread := some .looping
      control := .idle
      terminated := timer.terminated || timer.thread.isSome}

section Calls
variable {timer next : Timer}

theorem start_calls {interval : Int} {hasTask : Bool} {answer : Option Bool}
    (taken : timer.start interval hasTask = some (answer,next)) : Calls timer next := by
  unfold start at taken
  split at taken
  next place =>
    split at taken <;> cases taken
    · exact .refused place
    · exact .stop true place
  next => cases taken

theorem stop_calls (taken : timer.stop = some next) : Calls timer next := by
  unfold stop at taken
  split at taken
  next place =>
    cases taken
    exact .stop false place
  next => cases taken

theorem stopLocked_calls (taken : timer.stopLocked = some next) : Calls timer next := by
  unfold stopLocked at taken
  split at taken
  next rearm place =>
    split at taken
    next both =>
      cases taken
      exact .absent rearm place (by simpa using both.1) both.2
    next =>
      cases taken
      exact .stopLocked rearm place
  next => cases taken

theorem notifyAll_calls (taken : timer.notifyAll = some next) : Calls timer next := by
  unfold notifyAll at taken
  split at taken
  next rearm place =>
    cases taken
    exact .notifyAll rearm place
  next => cases taken

theorem join_calls (taken : timer.join = some next) : Calls timer next := by
  unfold join at taken
  split at taken
  next rearm place =>
    split at taken
    next gone =>
      have same : timer = {timer with thread := none} := by rw [← gone]
      rw [same] at taken
      cases taken
      exact .join rearm place (.inl gone)
    next ended =>
      cases taken
      exact .join rearm place (.inr ended)
    next => cases taken
  next => cases taken

theorem arm_calls (taken : timer.arm = some next) : Calls timer next := by
  unfold arm at taken
  split at taken
  next place =>
    cases taken
    exact .arm place
  next => cases taken

theorem spawn_calls {thrown : Bool} (taken : timer.spawn thrown = some next) : Calls timer next := by
  unfold spawn at taken
  split at taken
  next place =>
    split at taken <;> cases taken
    · exact .thrown place
    · exact .spawn place
  next => cases taken

theorem afterStop_fits (rearm : Bool) : (afterStop rearm).Fits false none := by
  cases rearm with
  | false => exact fun _ => rfl
  | true => exact ⟨rfl,rfl⟩

theorem Calls.shape (calls : Calls timer next) (shape : timer.Shape) : next.Shape := by
  have fits := shape.fits
  cases calls with
  | refused => exact shape
  | stop rearm place =>
    rw [place] at fits
    exact ⟨shape.intact,shape.ended,fits⟩
  | absent rearm place stopped none =>
    refine ⟨shape.intact,shape.ended,?_⟩
    simp only [stopped,none]
    exact afterStop_fits rearm
  | stopLocked rearm place => exact ⟨shape.intact,fun _ => rfl,rfl⟩
  | notifyAll rearm place =>
    rw [place] at fits
    refine ⟨shape.intact,fun _ => fits,fits,?_⟩
    cases timer.thread with
    | none => simp
    | some position => cases position <;> simp [Position.woken]
  | join rearm place =>
    rw [place] at fits
    refine ⟨shape.intact,fun ended => by simp at ended,?_⟩
    simp only [fits.1]
    exact afterStop_fits rearm
  | arm place =>
    rw [place] at fits
    exact ⟨shape.intact,fun ended => absurd (fits.2.symm.trans ended) (by simp),rfl,fits.2⟩
  | thrown place =>
    rw [place] at fits
    exact ⟨shape.intact,shape.ended,fun _ => fits.2⟩
  | spawn place =>
    rw [place] at fits
    refine ⟨by simp [shape.intact,fits.2],fun ended => by simp at ended,fun stopped => ?_⟩
    exact absurd (fits.1.symm.trans stopped) Bool.noConfusion

end Calls

/-- A `stop` has passed its critical section and not yet returned. -/
def Control.stops : Control → Bool
  | .notifying _ | .joining _ => true
  | .idle | .stopping _ | .arming | .spawning => false

def Control.effort : Control → Nat
  | .notifying _ => 2
  | .joining _ => 1
  | .idle | .stopping _ | .arming | .spawning => 0

def Position.effort : Position → Nat
  | .calling | .waiting => 2
  | .looping | .notified => 1
  | .exited => 0

/-- The most steps that a `stop` still takes. -/
def remaining (timer : Timer) : Nat := timer.control.effort + (timer.thread.map Position.effort).getD 0

section Progress
variable {timer next : Timer}

theorem Shape.stopped (shape : timer.Shape) (stops : timer.control.stops = true) :
    timer.running = false := by
  have fits := shape.fits
  cases place : timer.control <;> rw [place] at fits stops
  case notifying => exact fits
  case joining => exact fits.1
  all_goals cases stops

theorem Threads.nearer (threads : Threads timer next) (stopped : timer.running = false) :
    next.control = timer.control ∧ next.remaining < timer.remaining := by
  cases threads with
  | ends old at_ before =>
    refine ⟨rfl,?_⟩
    rcases before with rfl | rfl | rfl <;> simp [remaining,at_,Position.effort]
  | waits old at_ runs | calls old at_ runs => exact absurd (stopped.symm.trans runs) Bool.noConfusion
  | loops at_ => exact ⟨rfl,by simp [remaining,at_,Position.effort]⟩

theorem Calls.nearer (calls : Calls timer next) (stops : timer.control.stops = true) :
    next.control.stops = false ∨ next.control.stops = true ∧ next.remaining < timer.remaining := by
  cases calls with
  | notifyAll rearm place =>
    refine .inr ⟨rfl,?_⟩
    have woken : ((timer.thread.map Position.woken).map Position.effort).getD 0 ≤
        (timer.thread.map Position.effort).getD 0 := by
      cases timer.thread with
      | none => exact Nat.le_refl _
      | some position => cases position <;> simp [Position.woken,Position.effort]
    simp only [remaining,place,Control.effort]
    omega
  | join rearm place => cases rearm <;> exact .inl rfl
  | refused place | stop rearm place | absent rearm place | stopLocked rearm place | arm place
  | thrown place
  | spawn place =>
    rw [place] at stops
    cases stops

end Progress

def Event.starts : Event → Bool
  | .start _ _ => true
  | _ => false

namespace Watch
variable {watch next : Watch}

/-- A step is one of the caller or one of the thread, and only the latter calls the task. -/
theorem step_moves {event : Event} (taken : watch.step event = some next) :
    Calls watch.timer next.timer ∧ next.calls = watch.calls ∨ Threads watch.timer next.timer := by
  cases event with
  | start interval hasTask =>
    obtain ⟨⟨answer,timer⟩,moved,rfl⟩ := Option.map_eq_some_iff.mp taken
    exact .inl ⟨start_calls moved,rfl⟩
  | stop =>
    obtain ⟨timer,moved,rfl⟩ := Option.map_eq_some_iff.mp taken
    exact .inl ⟨stop_calls moved,rfl⟩
  | stopLocked =>
    obtain ⟨timer,moved,rfl⟩ := Option.map_eq_some_iff.mp taken
    exact .inl ⟨stopLocked_calls moved,rfl⟩
  | notifyAll =>
    obtain ⟨timer,moved,rfl⟩ := Option.map_eq_some_iff.mp taken
    exact .inl ⟨notifyAll_calls moved,rfl⟩
  | join =>
    obtain ⟨timer,moved,rfl⟩ := Option.map_eq_some_iff.mp taken
    exact .inl ⟨join_calls moved,rfl⟩
  | arm =>
    obtain ⟨timer,moved,rfl⟩ := Option.map_eq_some_iff.mp taken
    exact .inl ⟨arm_calls moved,rfl⟩
  | spawn thrown =>
    obtain ⟨timer,moved,rfl⟩ := Option.map_eq_some_iff.mp taken
    exact .inl ⟨spawn_calls moved,rfl⟩
  | look =>
    obtain ⟨timer,moved,rfl⟩ := Option.map_eq_some_iff.mp taken
    exact .inr (look_threads moved)
  | expire =>
    obtain ⟨timer,moved,rfl⟩ := Option.map_eq_some_iff.mp taken
    exact .inr (expire_threads moved)
  | wake =>
    obtain ⟨timer,moved,rfl⟩ := Option.map_eq_some_iff.mp taken
    exact .inr (wake_threads moved)
  | finish =>
    obtain ⟨timer,moved,rfl⟩ := Option.map_eq_some_iff.mp taken
    exact .inr (finish_threads moved)

/-- The timer is stopped and nobody is about to start it. -/
structure Quiet (watch : Watch) (calls : Nat) : Prop where
  stopped : watch.timer.running = false
  gone : watch.timer.thread = none
  place : watch.timer.control = .idle ∨ watch.timer.control = .stopping false
  calls : watch.calls = calls

end Watch

end Timer

end RdmaPlatform.Worker
