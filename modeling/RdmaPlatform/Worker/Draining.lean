import RdmaPlatform.Worker.ThreadPool
import RdmaPlatform.Library.Positions
import RdmaPlatform.Library.ServedQueue
import RdmaPlatform.Library.Transition
import Mathlib.Algebra.Order.BigOperators.Group.List
import Mathlib.Algebra.Order.Ring.Nat

/-! The thread pool drops no job that it accepted. A thread ends only when it finds the
flag set and the queue empty, after which no job is accepted until the next `start`; `stop`
joins all threads, of which there is at least one, before it clears the queue. A `stop` that
has begun returns: every step of a thread or of the caller brings it nearer to its end. -/
namespace RdmaPlatform.Worker.ThreadPool
open Library

/-- What holds of the threads and the flags while the caller stands there. -/
def Control.Fits (threadCount : Nat) (threads : List Position) (started stopping : Bool) :
    Control → Prop
  | .idle => started = true ↔ threads ≠ []
  | .spawning made => started = false ∧ 0 < threadCount ∧ made = threads.length
  | .failed => started = false
  | .notifying _ => stopping = true ∧ threads ≠ []
  | .joining _ joined =>
    stopping = true ∧ threads ≠ [] ∧ joined ≤ threads.length ∧ .waiting ∉ threads ∧
      ∀ index < joined, threads[index]? = some .exited

/-- A thread ends only when the queue is empty and nothing can be enqueued any more. -/
structure Shape (pool : ThreadPool) : Prop where
  drained : .exited ∈ pool.threads → pool.stopping = true ∧ pool.tasks = []
  closed : pool.started = false → pool.tasks = []
  fits : pool.control.Fits pool.threadCount pool.threads pool.started pool.stopping

theorem new_shape (threadCount : Nat) : (new threadCount).Shape where
  drained exited := by cases exited
  closed _ := rfl
  fits := by simp [new,Control.Fits]

/-- The jobs that the threads are in. -/
def hands (pool : ThreadPool) : List Nat := pool.threads.filterMap Position.job

/-- A step that moves no job. -/
structure Quiet (pool next : ThreadPool) : Prop where
  shape : next.Shape
  hands : next.hands.Perm pool.hands
  tasks : next.tasks = pool.tasks

section Shapes
variable {pool next : ThreadPool}

theorem logError_shape (shape : pool.Shape) (text : Bytes) : (pool.logError text).Shape :=
  ⟨shape.drained,shape.closed,shape.fits⟩

theorem set_ne_nil {threads : List Position} (some_ : threads ≠ []) (index : Nat)
    (position : Position) :
    threads.set index position ≠ [] := by
  simpa using some_

/-- Where the caller stands, a move of a thread that has not ended is allowed. -/
theorem Control.Fits.set {control : Control} {threadCount : Nat} {threads : List Position}
    {started stopping : Bool} (fits : control.Fits threadCount threads started stopping)
    {index : Nat} {old : Position} (at_ : threads[index]? = some old) (alive : old ≠ .exited)
    (new : Position) (waits : new = .waiting → stopping = false) :
    control.Fits threadCount (threads.set index new) started stopping := by
  cases control with
  | idle | spawning => simpa [Control.Fits] using fits
  | failed => exact fits
  | notifying failing => exact ⟨fits.1,set_ne_nil fits.2 index new⟩
  | joining failing joined =>
    obtain ⟨stops,some_,bound,awake,ended⟩ := fits
    refine ⟨stops,set_ne_nil some_ index new,by simpa using bound,?_,?_⟩
    · intro waiting
      rcases List.mem_or_eq_of_mem_set waiting with before | now
      · exact awake before
      · exact absurd (waits now.symm) (by simp [stops])
    · -- The threads that were joined have ended, so none of them is the one that moves.
      intro other below
      have different : index ≠ other := by
        intro same
        rw [same,ended other below] at at_
        exact alive (Option.some.inj at_).symm
      rw [List.getElem?_set_ne different]
      exact ended other below

/-- A thread that has not ended moves. -/
theorem setThread_shape (shape : pool.Shape) {index : Nat} {old : Position}
    (at_ : pool.threads[index]? = some old) (alive : old ≠ .exited) (new : Position)
    (ends : new = .exited → pool.stopping = true ∧ pool.tasks = [])
    (waits : new = .waiting → pool.stopping = false) : (pool.setThread index new).Shape where
  drained exited := by
    rcases List.mem_or_eq_of_mem_set exited with before | now
    · exact shape.drained before
    · exact ends now.symm
  closed := shape.closed
  fits := shape.fits.set at_ alive new waits

theorem hands_setThread {index : Nat} {old : Position} (at_ : pool.threads[index]? = some old)
    (new : Position) :
    (old.job.toList ++ (pool.setThread index new).hands).Perm (new.job.toList ++ pool.hands) :=
  filterMap_set_perm Position.job pool.threads index old new at_

theorem start_quiet {answer : Option Bool} (shape : pool.Shape)
    (taken : pool.start = some (answer,next)) :
    Quiet pool next := by
  have fits := shape.fits
  unfold start at taken
  split at taken
  next place =>
    rw [place] at fits
    split at taken
    next =>
      cases taken
      exact ⟨shape,List.Perm.refl _,rfl⟩
    next closed =>
      have none_ : pool.threads = [] := by
        by_contra some_
        exact closed (fits.mpr some_)
      split at taken
      next =>
        cases taken
        exact ⟨logError_shape shape _,List.Perm.refl _,rfl⟩
      next positive =>
        cases taken
        refine ⟨⟨fun exited => ?_,shape.closed,?_⟩,List.Perm.refl _,rfl⟩
        · rw [none_] at exited
          cases exited
        · exact ⟨by simpa using closed,Nat.pos_of_ne_zero positive,by simp [none_]⟩
  next => cases taken

theorem spawn_quiet {thrown : Option Thrown} (shape : pool.Shape)
    (taken : pool.spawn thrown = some next) :
    Quiet pool next := by
  have fits := shape.fits
  unfold spawn at taken
  split at taken
  next made place =>
    rw [place] at fits
    obtain ⟨closed,positive,count⟩ := fits
    split at taken
    next =>
      split at taken
      next =>
        cases taken
        refine ⟨⟨fun exited => shape.drained (by simpa using exited),shape.closed,?_⟩,?_,rfl⟩
        · exact ⟨closed,positive,by simp [count]⟩
        · rw [hands,List.filterMap_append]
          exact List.Perm.of_eq (List.append_nil _)
      next =>
        cases taken
        exact ⟨⟨shape.drained,shape.closed,closed⟩,List.Perm.refl _,rfl⟩
    next => cases taken
  next => cases taken

theorem finishStart_quiet (shape : pool.Shape) (taken : pool.finishStart = some next) :
    Quiet pool next := by
  have fits := shape.fits
  unfold finishStart at taken
  split at taken
  next made place =>
    rw [place] at fits
    obtain ⟨_,positive,count⟩ := fits
    split at taken
    next all =>
      cases taken
      have some_ : pool.threads ≠ [] := List.ne_nil_of_length_pos (by omega)
      exact ⟨⟨shape.drained,fun closed => (Bool.noConfusion closed),
        ⟨fun _ => some_,fun _ => rfl⟩⟩,List.Perm.refl _,rfl⟩
    next => cases taken
  next => cases taken

theorem notifyOne_quiet {woken : Option Nat} (shape : pool.Shape)
    (taken : pool.notifyOne woken = some next) :
    Quiet pool next := by
  unfold notifyOne at taken
  split at taken
  next =>
    split at taken
    next => cases taken
    next =>
      cases taken
      exact ⟨shape,List.Perm.refl _,rfl⟩
  next index =>
    split at taken
    next at_ =>
      cases taken
      exact ⟨setThread_shape shape at_ Position.noConfusion _ Position.noConfusion Position.noConfusion,
        hands_setThread at_ .checking,rfl⟩
    next => cases taken

theorem enqueue_spec {job : Nat} {woken : Option Nat} {answer : Bool} (shape : pool.Shape)
    (taken : pool.enqueue job woken = some (answer,next)) :
    answer = false ∧ Quiet pool next ∨
    answer = true ∧ next.Shape ∧ next.hands.Perm pool.hands ∧ next.tasks = pool.tasks ++ [job] := by
  unfold enqueue at taken
  split at taken
  next =>
    split at taken
    next =>
      cases taken
      exact .inl ⟨rfl,shape,List.Perm.refl _,rfl⟩
    next => cases taken
  next opened =>
    obtain ⟨woke,notified,equal⟩ := Option.map_eq_some_iff.mp taken
    cases equal
    simp only [Bool.not_eq_true',not_or,Bool.not_eq_false,Bool.not_eq_true] at opened
    -- No thread has ended yet, and the queue is open.
    have longer : Shape {pool with tasks := pool.tasks ++ [job]} := by
      refine ⟨fun exited => ?_,fun closed => ?_,shape.fits⟩
      · exact absurd (shape.drained exited).1 (by simp [opened.2])
      · exact absurd closed (by simp [opened.1])
    have quiet := notifyOne_quiet longer notified
    exact .inr ⟨rfl,quiet.shape,quiet.hands,quiet.tasks⟩

theorem stopLocked_quiet (shape : pool.Shape) (failing : Bool)
    (caller : pool.control = .idle ∨ pool.control = .failed) :
    Quiet pool (stopLocked failing pool).2 := by
  unfold stopLocked
  split
  next nothing =>
    refine ⟨⟨shape.drained,shape.closed,?_⟩,List.Perm.refl _,rfl⟩
    have closed : pool.started = false := by simpa using nothing.1
    simp [Control.Fits,closed,nothing.2]
  next something =>
    refine ⟨⟨fun exited => ⟨rfl,(shape.drained exited).2⟩,shape.closed,rfl,?_⟩,
      List.Perm.refl _,rfl⟩
    intro none_
    have fits := shape.fits
    rcases caller with idle | failed
    · rw [idle] at fits
      refine something ⟨?_,none_⟩
      cases opened : pool.started with
      | false => rfl
      | true => exact absurd none_ (fits.mp opened)
    · rw [failed] at fits
      have closed : pool.started = false := fits
      exact something ⟨by rw [closed]; rfl,none_⟩

theorem stop_quiet {answer : Option Bool} (shape : pool.Shape)
    (taken : pool.stop = some (answer,next)) :
    Quiet pool next := by
  unfold stop at taken
  split at taken
  next idle =>
    cases taken
    exact stopLocked_quiet shape false (.inl idle)
  next failed =>
    cases taken
    exact stopLocked_quiet shape true (.inr failed)
  next => cases taken

theorem hands_notified (threads : List Position) :
    (threads.map Position.notified).filterMap Position.job = threads.filterMap Position.job := by
  rw [List.filterMap_map]
  apply List.filterMap_congr
  intro position _
  cases position <;> rfl

theorem notifyAll_quiet (shape : pool.Shape) (taken : pool.notifyAll = some next) :
    Quiet pool next := by
  obtain ⟨failing,place,rfl⟩ := notifyAll_inv taken
  have fits := shape.fits
  rw [place] at fits
  refine ⟨⟨fun exited => shape.drained ?_,shape.closed,fits.1,?_,Nat.zero_le _,?_,?_⟩,
    List.Perm.of_eq (hands_notified pool.threads),rfl⟩
  · obtain ⟨position,member,same⟩ := List.mem_map.mp exited
    cases position with
    | exited => exact member
    | checking | waiting | running => cases same
  · simpa using fits.2
  · intro waiting
    obtain ⟨position,_,same⟩ := List.mem_map.mp waiting
    cases position <;> cases same
  · intro index below
    exact absurd below (Nat.not_lt_zero _)

theorem join_quiet (shape : pool.Shape) (taken : pool.join = some next) : Quiet pool next := by
  obtain ⟨failing,joined,place,exited,rfl⟩ := join_inv taken
  have fits := shape.fits
  rw [place] at fits
  obtain ⟨stopping,some_,_,awake,ended⟩ := fits
  have inside : joined < pool.threads.length := (List.getElem?_eq_some_iff.mp exited).1
  refine ⟨⟨shape.drained,shape.closed,stopping,some_,inside,awake,?_⟩,List.Perm.refl _,rfl⟩
  intro index below
  rcases Nat.lt_or_eq_of_le (Nat.le_of_lt_succ below) with before | now
  · exact ended index before
  · rw [now]
    exact exited

/-- All threads have ended, so none is in a job and the queue is empty. -/
theorem clear_spec {discarded : List Nat} {answer : Option Bool} (shape : pool.Shape)
    (taken : pool.clear = some (discarded,answer,next)) :
    discarded = [] ∧ pool.tasks = [] ∧ pool.hands = [] ∧ Quiet pool next := by
  obtain ⟨rfl,⟨failing,place⟩,rfl⟩ := clear_inv taken
  have fits := shape.fits
  rw [place] at fits
  obtain ⟨_,some_,_,_,ended⟩ := fits
  have exited (position : Position) (member : position ∈ pool.threads) : position = .exited := by
    obtain ⟨index,inside,same⟩ := List.mem_iff_getElem.mp member
    have final := ended index inside
    rw [List.getElem?_eq_getElem inside,same] at final
    exact Option.some.inj final
  have empty : pool.tasks = [] := by
    obtain ⟨first,member⟩ := List.exists_mem_of_ne_nil _ some_
    exact (shape.drained (exited first member ▸ member)).2
  have free : pool.hands = [] := by
    rw [hands,List.filterMap_eq_nil_iff]
    intro position member
    rw [exited position member]
    rfl
  refine ⟨empty,empty,free,⟨⟨fun ended => ?_,fun _ => rfl,?_⟩,?_,empty.symm⟩⟩
  · cases ended
  · simp [Control.Fits]
  · rw [free]
    rfl

theorem look_spec {index : Nat} {job : Option Nat} (shape : pool.Shape)
    (taken : pool.look index = some (job,next)) :
    job = none ∧ Quiet pool next ∨
    ∃ first, job = some first ∧ pool.tasks = first::next.tasks ∧ next.Shape ∧
      next.hands.Perm (first::pool.hands) := by
  obtain ⟨at_,⟨empty,rfl,rfl⟩ | ⟨first,rest,queued,rfl,rfl⟩⟩ := look_inv taken
  · cases stopping : pool.stopping with
    | true =>
      exact .inl ⟨rfl,setThread_shape shape at_ Position.noConfusion .exited
        (fun _ => ⟨stopping,empty⟩) Position.noConfusion,hands_setThread at_ .exited,rfl⟩
    | false =>
      exact .inl ⟨rfl,setThread_shape shape at_ Position.noConfusion .waiting Position.noConfusion
        (fun _ => stopping),hands_setThread at_ .waiting,rfl⟩
  · have shorter : Shape {pool with tasks := rest} := by
      refine ⟨fun exited => ?_,fun closed => ?_,shape.fits⟩
      · exact absurd (shape.drained exited).2 (by simp [queued])
      · exact absurd (shape.closed closed) (by simp [queued])
    exact .inr ⟨first,rfl,queued,setThread_shape shorter at_ Position.noConfusion _ Position.noConfusion
      Position.noConfusion,hands_setThread at_ (.running first)⟩

theorem wake_quiet {index : Nat} (shape : pool.Shape) (taken : pool.wake index = some next) :
    Quiet pool next := by
  obtain ⟨at_,rfl⟩ := wake_inv taken
  exact ⟨setThread_shape shape at_ Position.noConfusion _ Position.noConfusion Position.noConfusion,
    hands_setThread at_ .checking,rfl⟩

theorem finish_spec {index job : Nat} {thrown : Option Thrown} (shape : pool.Shape)
    (taken : pool.finish index thrown = some (job,next)) :
    next.Shape ∧ next.tasks = pool.tasks ∧ pool.hands.Perm (job::next.hands) := by
  obtain ⟨at_,errors,rfl⟩ := finish_inv taken
  have moved := setThread_shape shape at_ Position.noConfusion .checking Position.noConfusion
    Position.noConfusion
  exact ⟨⟨moved.drained,moved.closed,moved.fits⟩,rfl,(hands_setThread at_ .checking).symm⟩

end Shapes

namespace Watch

structure Sound (watch : Watch) : Prop where
  shape : watch.pool.Shape
  serving : ServedQueue watch.accepted watch.taken watch.pool.tasks watch.pool.hands watch.ran
  numbered : (watch.accepted ++ watch.refused).Perm (List.range watch.calls)
  cleared : watch.cleared = []

theorem initial_sound (threadCount : Nat) : (initial threadCount).Sound where
  shape := new_shape threadCount
  serving := ServedQueue.empty
  numbered := List.Perm.refl _
  cleared := rfl

theorem Sound.quiet {watch : Watch} {pool : ThreadPool} (sound : watch.Sound)
    (quiet : Quiet watch.pool pool) (answers : List Bool) :
    Sound {watch with pool := pool,answers := answers} where
  shape := quiet.shape
  serving := by
    have serving := sound.serving.rearrange quiet.hands
    rwa [← quiet.tasks] at serving
  numbered := sound.numbered
  cleared := sound.cleared

theorem enqueue_sound {watch : Watch} {woken : Option Nat} {answer : Bool} {pool : ThreadPool}
    (sound : watch.Sound) (called : watch.pool.enqueue watch.calls woken = some (answer,pool)) :
    Sound {watch with
      pool := pool
      calls := watch.calls + 1
      accepted := if answer then watch.accepted ++ [watch.calls] else watch.accepted
      refused := if answer then watch.refused else watch.refused ++ [watch.calls]} := by
  have counted : List.range (watch.calls + 1) = List.range watch.calls ++ [watch.calls] :=
    List.range_succ
  rcases enqueue_spec sound.shape called with ⟨rfl,quiet⟩ | ⟨rfl,shape,hands,tasks⟩
  · have kept := sound.quiet quiet watch.answers
    refine ⟨kept.shape,kept.serving,?_,kept.cleared⟩
    simp only [Bool.false_eq_true,if_false]
    rw [counted,← List.append_assoc]
    exact sound.numbered.append_right _
  · refine ⟨shape,?_,?_,sound.cleared⟩
    · simp only [if_true]
      rw [tasks]
      exact (sound.serving.push watch.calls).rearrange hands
    · simp only [if_true]
      rw [counted,List.append_assoc,List.singleton_append]
      exact List.perm_middle.trans ((sound.numbered.cons _).trans (List.perm_append_singleton _ _).symm)

theorem step_sound {watch next : Watch} {event : Event} (sound : watch.Sound)
    (taken : watch.step event = some next) :
    next.Sound := by
  cases event with
  | start =>
    obtain ⟨⟨answer,pool⟩,started,rfl⟩ := Option.map_eq_some_iff.mp taken
    exact sound.quiet (start_quiet sound.shape started) _
  | spawn thrown =>
    obtain ⟨pool,spawned,rfl⟩ := Option.map_eq_some_iff.mp taken
    exact sound.quiet (spawn_quiet sound.shape spawned) _
  | finishStart =>
    obtain ⟨pool,finished,rfl⟩ := Option.map_eq_some_iff.mp taken
    exact sound.quiet (finishStart_quiet sound.shape finished) _
  | enqueue woken =>
    obtain ⟨⟨answer,pool⟩,called,rfl⟩ := Option.map_eq_some_iff.mp taken
    exact enqueue_sound sound called
  | stop =>
    obtain ⟨⟨answer,pool⟩,stopped,rfl⟩ := Option.map_eq_some_iff.mp taken
    exact sound.quiet (stop_quiet sound.shape stopped) _
  | notifyAll =>
    obtain ⟨pool,notified,rfl⟩ := Option.map_eq_some_iff.mp taken
    exact sound.quiet (notifyAll_quiet sound.shape notified) _
  | join =>
    obtain ⟨pool,joined,rfl⟩ := Option.map_eq_some_iff.mp taken
    exact sound.quiet (join_quiet sound.shape joined) _
  | clear =>
    obtain ⟨⟨discarded,answer,pool⟩,done,rfl⟩ := Option.map_eq_some_iff.mp taken
    obtain ⟨rfl,_,_,quiet⟩ := clear_spec sound.shape done
    have kept := sound.quiet quiet (watch.answers ++ answer.toList)
    exact ⟨kept.shape,kept.serving,kept.numbered,by simp [sound.cleared]⟩
  | look index =>
    obtain ⟨⟨job,pool⟩,looked,rfl⟩ := Option.map_eq_some_iff.mp taken
    rcases look_spec sound.shape looked with ⟨rfl,quiet⟩ | ⟨first,rfl,queued,shape,hands⟩
    · have kept := sound.quiet quiet watch.answers
      exact ⟨kept.shape,by simpa using kept.serving,kept.numbered,kept.cleared⟩
    · have serving := sound.serving
      rw [queued] at serving
      exact ⟨shape,serving.take hands,sound.numbered,sound.cleared⟩
  | wake index =>
    obtain ⟨pool,woken,rfl⟩ := Option.map_eq_some_iff.mp taken
    exact sound.quiet (wake_quiet sound.shape woken) _
  | finish index thrown =>
    obtain ⟨⟨job,pool⟩,finished,rfl⟩ := Option.map_eq_some_iff.mp taken
    obtain ⟨shape,tasks,hands⟩ := finish_spec sound.shape finished
    refine ⟨shape,?_,sound.numbered,sound.cleared⟩
    have serving := sound.serving.finish hands
    rwa [← tasks] at serving

theorem run_sound {threadCount : Nat} {events : List Event} {watch : Watch}
    (ran : Transition.run step events (initial threadCount) = some watch) : watch.Sound :=
  Transition.run_kept (fun _ _ _ sound taken => step_sound sound taken) events _ watch
    (initial_sound threadCount) ran

/-- Whenever a `stop` comes to its last critical section, in any cycle of any run: its
loop finds the queue empty, every accepted job was taken in the order of acceptance and
run exactly once, and no refused job was run. -/
theorem pool_drops_nothing (threadCount : Nat) (events : List Event) (before after : Watch)
    (ran : Transition.run step events (initial threadCount) = some before)
    (returned : before.step .clear = some after) :
    before.pool.tasks = [] ∧ after.cleared = [] ∧ after.taken = after.accepted ∧
    after.ran.Perm after.accepted ∧ after.accepted.Nodup ∧
    ∀ job ∈ after.refused, job ∉ after.ran := by
  have sound := run_sound ran
  have last := step_sound sound returned
  obtain ⟨⟨discarded,answer,pool⟩,done,equal⟩ := Option.map_eq_some_iff.mp returned
  obtain ⟨rfl,empty,free,_⟩ := clear_spec sound.shape done
  have serving := sound.serving
  rw [empty,free] at serving
  obtain ⟨whole,all⟩ := serving.settled
  subst equal
  have distinct := (last.numbered.nodup_iff).mpr List.nodup_range
  obtain ⟨once,_,apart⟩ := List.nodup_append.mp distinct
  refine ⟨empty,last.cleared,whole,all,once,?_⟩
  intro job refused again
  exact apart job (all.mem_iff.mp again) job refused rfl

/-- Two threads in two cycles. Job 0 comes before `start` has returned, job 1 throws, job 3
is taken while `stop` waits for the threads, job 4 comes after `stop` was called. -/
def twoCycles : List Event :=
  [.start,.spawn none,.look 0,.enqueue none,.spawn none,.finishStart,.enqueue (some 0),.look 0,
    .enqueue none,.look 1,.enqueue none,.stop,.notifyAll,.finish 1 none,.finish 0 (some .unknown),
    .look 0,.enqueue none,.look 1,.finish 0 none,.look 0,.join,.join,.clear,
    .start,.spawn none,.spawn none,.finishStart,.enqueue none,.look 0,.look 1,.stop,.notifyAll,
      .finish 0 none,.look 0,
    .look 1,.join,.join]

theorem pool_drops_nothing_cycles :
    ∃ before after, Transition.run step twoCycles (initial 2) = some before ∧
      before.step .clear = some after ∧ after.accepted = [1,2,3,5] ∧ after.refused = [0,4] ∧
      after.ran = [2,1,3,5] ∧ before.pool.tasks = [] ∧ after.taken = [1,2,3,5] := by
  have shown : ((Transition.run step twoCycles (initial 2)).bind (fun before => before.step .clear)).map
      (fun after => (after.accepted,after.refused,after.ran)) =
        some ([1,2,3,5],[0,4],[2,1,3,5]) := by decide
  obtain ⟨after,reached,equal⟩ := Option.map_eq_some_iff.mp shown
  obtain ⟨before,ran,returned⟩ := Option.bind_eq_some_iff.mp reached
  simp only [Prod.mk.injEq] at equal
  obtain ⟨accepted,refused,done⟩ := equal
  obtain ⟨empty,_,order,_⟩ := pool_drops_nothing 2 twoCycles before after ran returned
  exact ⟨before,after,ran,returned,accepted,refused,done,empty,order.trans accepted⟩

end Watch

/-- What a thread may still have to do once the pool is stopping. -/
def Position.effort : Position → Nat
  | .exited => 0
  | .checking => 1
  | .waiting | .running _ => 2

def Control.effort (threads : Nat) : Control → Nat
  | .notifying _ => threads + 2
  | .joining _ joined => threads - joined + 1
  | .idle | .spawning _ | .failed => 0

def Control.stops : Control → Bool
  | .notifying _ | .joining _ _ => true
  | .idle | .spawning _ | .failed => false

/-- The most steps that a `stop` which has begun still takes. -/
def remaining (pool : ThreadPool) : Nat :=
  2 * pool.tasks.length + (pool.threads.map Position.effort).sum +
    pool.control.effort pool.threads.length

section Progress
variable {pool next : ThreadPool}

theorem Shape.stopping_of_stops (shape : pool.Shape) (stops : pool.control.stops = true) :
    pool.stopping = true := by
  have fits := shape.fits
  cases place : pool.control with
  | notifying failing | joining failing joined =>
    rw [place] at fits
    exact fits.1
  | idle | spawning made | failed =>
    rw [place] at stops
    cases stops

/-- The caller is in `stop` and calls nothing else. -/
theorem caller_busy (stops : pool.control.stops = true) :
    pool.start = none ∧ (∀ thrown, pool.spawn thrown = none) ∧ pool.finishStart = none ∧
      pool.stop = none := by
  cases place : pool.control with
  | notifying | joining => simp [start,spawn,finishStart,stop,place]
  | idle | spawning made | failed =>
    rw [place] at stops
    cases stops

theorem remaining_setThread {index : Nat} {old : Position} (at_ : pool.threads[index]? = some old)
    (new : Position) :
    (pool.setThread index new).remaining + old.effort = pool.remaining + new.effort := by
  have moved := sum_map_set Position.effort pool.threads index old new at_
  simp only [remaining,setThread,List.length_set]
  omega

/-- Once a `stop` has begun, a step of the caller or of a thread brings it nearer to its
end, which it has reached when the caller is idle again. -/
def Advances (pool next : ThreadPool) : Prop :=
  next.control = .idle ∨ next.control.stops = true ∧ next.remaining < pool.remaining

theorem setThread_advances (stops : pool.control.stops = true) {index : Nat} {old new : Position}
    (at_ : pool.threads[index]? = some old) (less : new.effort < old.effort) :
    Advances pool (pool.setThread index new) := by
  have moved := remaining_setThread at_ new
  exact .inr ⟨stops,by omega⟩

theorem effort_notified (threads : List Position) :
    ((threads.map Position.notified).map Position.effort).sum ≤ (threads.map Position.effort).sum := by
  rw [List.map_map]
  apply List.sum_le_sum
  intro position _
  cases position with
  | waiting => exact Nat.le_succ 1
  | checking | running | exited => exact Nat.le_refl _

theorem notifyAll_advances (taken : pool.notifyAll = some next) : Advances pool next := by
  obtain ⟨failing,place,rfl⟩ := notifyAll_inv taken
  have less := effort_notified pool.threads
  refine .inr ⟨rfl,?_⟩
  simp only [remaining,place,Control.effort,List.length_map]
  omega

theorem join_advances (taken : pool.join = some next) : Advances pool next := by
  obtain ⟨failing,joined,place,exited,rfl⟩ := join_inv taken
  have inside : joined < pool.threads.length := (List.getElem?_eq_some_iff.mp exited).1
  refine .inr ⟨rfl,?_⟩
  simp only [remaining,place,Control.effort]
  omega

theorem clear_advances {discarded : List Nat} {answer : Option Bool}
    (taken : pool.clear = some (discarded,answer,next)) : Advances pool next := by
  obtain ⟨_,_,rfl⟩ := clear_inv taken
  exact .inl rfl

theorem look_advances (shape : pool.Shape) (stops : pool.control.stops = true) {index : Nat}
    {job : Option Nat} (taken : pool.look index = some (job,next)) : Advances pool next := by
  have stopping := shape.stopping_of_stops stops
  obtain ⟨at_,⟨_,_,rfl⟩ | ⟨first,rest,queued,_,rfl⟩⟩ := look_inv taken
  · rw [if_pos stopping]
    exact setThread_advances stops at_ (by decide)
  · let shorter : ThreadPool := {pool with tasks := rest}
    have at_ : shorter.threads[index]? = some .checking := at_
    have moved : _ + 1 = _ + 2 := remaining_setThread at_ (.running first)
    have less : shorter.remaining + 2 = pool.remaining := by
      simp only [shorter,remaining,queued,List.length_cons]
      omega
    refine .inr ⟨stops,?_⟩
    change (shorter.setThread index (.running first)).remaining < pool.remaining
    omega

theorem finish_advances (stops : pool.control.stops = true) {index job : Nat} {thrown : Option Thrown}
    (taken : pool.finish index thrown = some (job,next)) : Advances pool next := by
  obtain ⟨at_,errors,rfl⟩ := finish_inv taken
  have moved : Advances pool (pool.setThread index .checking) :=
    setThread_advances stops at_ Nat.one_lt_two
  exact moved

theorem wake_advances (stops : pool.control.stops = true) {index : Nat}
    (taken : pool.wake index = some next) :
    Advances pool next := by
  obtain ⟨at_,rfl⟩ := wake_inv taken
  exact setThread_advances stops at_ (by decide)

end Progress

def Event.isEnqueue : Event → Bool
  | .enqueue _ => true
  | _ => false

namespace Watch
variable {watch next : Watch}

theorem step_advances {event : Event} (sound : watch.Sound) (stops : watch.pool.control.stops = true)
    (taken : watch.step event = some next) :
    event.isEnqueue = true ∧ next.pool = watch.pool ∨ Advances watch.pool next.pool := by
  cases event with
  | start | spawn | finishStart | stop =>
    have busy := caller_busy stops
    simp [step,busy] at taken
  | enqueue woken =>
    obtain ⟨⟨answer,pool⟩,called,rfl⟩ := Option.map_eq_some_iff.mp taken
    have stopping := sound.shape.stopping_of_stops stops
    simp only [enqueue,stopping,or_true,if_true] at called
    split at called
    next =>
      cases called
      exact .inl ⟨rfl,rfl⟩
    next => cases called
  | notifyAll =>
    obtain ⟨pool,notified,rfl⟩ := Option.map_eq_some_iff.mp taken
    exact .inr (notifyAll_advances notified)
  | join =>
    obtain ⟨pool,joined,rfl⟩ := Option.map_eq_some_iff.mp taken
    exact .inr (join_advances joined)
  | clear =>
    obtain ⟨⟨discarded,answer,pool⟩,done,rfl⟩ := Option.map_eq_some_iff.mp taken
    exact .inr (clear_advances done)
  | look index =>
    obtain ⟨⟨job,pool⟩,looked,rfl⟩ := Option.map_eq_some_iff.mp taken
    exact .inr (look_advances sound.shape stops looked)
  | wake index =>
    obtain ⟨pool,woken,rfl⟩ := Option.map_eq_some_iff.mp taken
    exact .inr (wake_advances stops woken)
  | finish index thrown =>
    obtain ⟨⟨job,pool⟩,finished,rfl⟩ := Option.map_eq_some_iff.mp taken
    exact .inr (finish_advances stops finished)

/-- No thread that `stop` waits for is blocked: they were all woken after the flag was set. -/
theorem stop_not_stuck (sound : watch.Sound) (stops : watch.pool.control.stops = true) :
    ∃ event next, event.isEnqueue = false ∧ watch.step event = some next := by
  have fits := sound.shape.fits
  cases place : watch.pool.control with
  | idle | spawning made | failed =>
    rw [place] at stops
    cases stops
  | notifying failing => exact ⟨.notifyAll,_,rfl,by simp only [step,notifyAll,place]; rfl⟩
  | joining failing joined =>
    rw [place] at fits
    obtain ⟨_,_,bound,awake,_⟩ := fits
    rcases Nat.lt_or_eq_of_le bound with inside | all
    · have at_ := List.getElem?_eq_getElem inside
      cases position : watch.pool.threads[joined] with
      | exited => exact ⟨.join,_,rfl,by simp only [step,join,place,at_,position,if_true]; rfl⟩
      | checking =>
        cases queued : watch.pool.tasks with
        | nil => exact ⟨.look joined,_,rfl,by simp only [step,look,at_,position,queued]; rfl⟩
        | cons job rest => exact ⟨.look joined,_,rfl,by simp only [step,look,at_,position,queued]; rfl⟩
      | running job => exact ⟨.finish joined none,_,rfl,by simp only [step,finish,at_,position]; rfl⟩
      | waiting => exact absurd (position ▸ List.getElem_mem inside) awake
    · exact ⟨.clear,_,rfl,by simp only [step,clear,place,all,if_true]; rfl⟩

/-- A `stop` that has begun returns once its remaining steps are taken, in whatever order. -/
theorem stop_returns (sound : watch.Sound) (stops : watch.pool.control.stops = true) :
    ∃ later final, Transition.run step later watch = some final ∧ final.pool.control = .idle := by
  induction size : watch.pool.remaining using Nat.strong_induction_on generalizing watch with
  | _ size ih =>
    obtain ⟨event,next,other,taken⟩ := stop_not_stuck sound stops
    rcases step_advances sound stops taken with ⟨enqueues,_⟩ | idle | ⟨still,less⟩
    · rw [other] at enqueues
      cases enqueues
    · exact ⟨[event],next,by simp [Transition.run,taken],idle⟩
    · obtain ⟨later,final,ran,ended⟩ := ih next.pool.remaining (by omega)
        (step_sound sound taken) still rfl
      exact ⟨event::later,final,by simp [Transition.run,taken,ran],ended⟩

end Watch

end RdmaPlatform.Worker.ThreadPool
