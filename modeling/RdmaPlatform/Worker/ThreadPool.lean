import RdmaPlatform.Library.Bytes

/-! The thread pool of the worker: `thread_pool.cpp`. One thread calls `start` and `stop`,
any thread may call `enqueue`, and the threads of the pool run `workerLoop`. A step is one
critical section or one action between two of them. Jobs are numbered by the calls of
`enqueue`, so that equal jobs stay apart; the code has no such number and no function
reads it. -/
namespace RdmaPlatform.Worker
open Library

namespace ThreadPool

/-- Where a thread stands in `workerLoop`: before the test of the wait, blocked in the
wait, in a job and outside the lock, or at the end. -/
inductive Position where
  | checking
  | waiting
  | running (job : Nat)
  | exited
  deriving DecidableEq

/-- After `notify_all`. -/
def Position.notified : Position → Position
  | .waiting => .checking
  | position => position

def Position.job : Position → Option Nat
  | .running job => some job
  | .checking | .waiting | .exited => none

/-- Where the caller of `start` and `stop` stands; `failing` if `stop` is called by `start`. -/
inductive Control where
  | idle
  | spawning (made : Nat)
  | failed
  | notifying (failing : Bool)
  | joining (failing : Bool) (joined : Nat)
  deriving DecidableEq

inductive Thrown where
  | exception (what : Bytes)
  | unknown

def Thrown.text : Thrown → Bytes
  | .exception what => what
  | .unknown => utf8 "unknown exception"

end ThreadPool

/-- `errors` are the lines that were logged. -/
structure ThreadPool where
  threadCount : Nat
  threads : List ThreadPool.Position
  tasks : List Nat
  started : Bool
  stopping : Bool
  control : ThreadPool.Control
  errors : List Bytes
  deriving DecidableEq

namespace ThreadPool

def new (threadCount : Nat) : ThreadPool := ⟨threadCount,[],[],false,false,.idle,[]⟩

def setThread (pool : ThreadPool) (index : Nat) (position : Position) : ThreadPool :=
  {pool with threads := pool.threads.set index position}

def logError (text : Bytes) (pool : ThreadPool) : ThreadPool :=
  {pool with errors := pool.errors ++ [text]}

/-- The first critical section of `start`, with what the call returns if it ends there. -/
def start (pool : ThreadPool) : Option (Option Bool × ThreadPool) :=
  match pool.control with
  | .idle =>
    if pool.started then some (some true,pool)
    else if pool.threadCount = 0 then
      some (some false,pool.logError
        (utf8 "thread pool start failed: thread count must be greater than zero"))
    else some (none,{pool with stopping := false,control := .spawning 0})
  | _ => none

/-- One round of the loop in `start`, in which the constructor of the thread may throw. -/
def spawn (thrown : Option Thrown) (pool : ThreadPool) : Option ThreadPool :=
  match pool.control with
  | .spawning made =>
    if made < pool.threadCount then
      match thrown with
      | none => some {pool with threads := pool.threads ++ [.checking],control := .spawning (made + 1)}
      | some thrown =>
        some ({pool with control := .failed}.logError (utf8 "thread pool start failed: " ++
        thrown.text))
    else none
  | _ => none

/-- The second critical section of `start`. -/
def finishStart (pool : ThreadPool) : Option ThreadPool :=
  match pool.control with
  | .spawning made =>
    if made = pool.threadCount then some {pool with started := true,control := .idle} else none
  | _ => none

/-- `notify_one` wakes a thread that waits, if there is one. -/
def notifyOne (woken : Option Nat) (pool : ThreadPool) : Option ThreadPool :=
  match woken with
  | none => if .waiting ∈ pool.threads then none else some pool
  | some index =>
    if pool.threads[index]? = some .waiting then some (pool.setThread index .checking) else none

/-- A refused job wakes nobody. -/
def enqueue (job : Nat) (woken : Option Nat) (pool : ThreadPool) : Option (Bool × ThreadPool) :=
  if !pool.started ∨ pool.stopping then if woken = none then some (false,pool) else none
  else (notifyOne woken {pool with tasks := pool.tasks ++ [job]}).map (fun pool => (true,pool))

/-- The first critical section of `stop`, and whether the call returns there. -/
def stopLocked (failing : Bool) (pool : ThreadPool) : Bool × ThreadPool :=
  if !pool.started ∧ pool.threads = [] then (true,{pool with control := .idle})
  else (false,{pool with stopping := true,control := .notifying failing})

/-- With what a `start` returns that this ends: nothing if `stop` was called by itself. -/
def stop (pool : ThreadPool) : Option (Option Bool × ThreadPool) :=
  match pool.control with
  | .idle => some (none,(stopLocked false pool).2)
  | .failed =>
    let (returned,pool) := stopLocked true pool
    some (if returned then some false else none,pool)
  | _ => none

def notifyAll (pool : ThreadPool) : Option ThreadPool :=
  match pool.control with
  | .notifying failing =>
    some {pool with threads := pool.threads.map Position.notified,control := .joining failing 0}
  | _ => none

/-- One round of the loop in `stop`; every thread in the vector is joinable. -/
def join (pool : ThreadPool) : Option ThreadPool :=
  match pool.control with
  | .joining failing joined =>
    if pool.threads[joined]? = some .exited then
      some {pool with control := .joining failing (joined + 1)} else none
  | _ => none

/-- The last critical section of `stop`, with the jobs that its loop discards. -/
def clear (pool : ThreadPool) : Option (List Nat × Option Bool × ThreadPool) :=
  match pool.control with
  | .joining failing joined =>
    if joined = pool.threads.length then
      some (pool.tasks,if failing then some false else none,
        {pool with threads := [],tasks := [],started := false,control := .idle})
    else none
  | _ => none

/-- The critical section of `workerLoop`, with the job that is taken. -/
def look (index : Nat) (pool : ThreadPool) : Option (Option Nat × ThreadPool) :=
  match pool.threads[index]? with
  | some .checking =>
    match pool.tasks with
    | [] => some (none,pool.setThread index (if pool.stopping then .exited else .waiting))
    | job::rest => some (some job,{pool with tasks := rest}.setThread index (.running job))
  | _ => none

/-- A wait may end without a notification. -/
def wake (index : Nat) (pool : ThreadPool) : Option ThreadPool :=
  match pool.threads[index]? with
  | some .waiting => some (pool.setThread index .checking)
  | _ => none

/-- A job returns or throws; either way the loop goes on. -/
def finish (index : Nat) (thrown : Option Thrown) (pool : ThreadPool) : Option (Nat × ThreadPool) :=
  match pool.threads[index]? with
  | some (.running job) =>
    let pool := pool.setThread index .checking
    match thrown with
    | none => some (job,pool)
    | some thrown => some (job,pool.logError (utf8 "thread pool task failed: " ++ thrown.text))
  | _ => none

inductive Event where
  | start
  | spawn (thrown : Option Thrown)
  | finishStart
  | enqueue (woken : Option Nat)
  | stop
  | notifyAll
  | join
  | clear
  | look (index : Nat)
  | wake (index : Nat)
  | finish (index : Nat) (thrown : Option Thrown)

/-- A pool and what was seen of it: the jobs whose `enqueue` returned true and false, those
taken from the queue and those run to their end, all in order, the jobs that `stop`
discarded, and what the calls of `start` returned. -/
structure Watch where
  pool : ThreadPool
  calls : Nat
  accepted : List Nat
  refused : List Nat
  taken : List Nat
  ran : List Nat
  cleared : List Nat
  answers : List Bool
  deriving DecidableEq

namespace Watch

def initial (threadCount : Nat) : Watch := ⟨new threadCount,0,[],[],[],[],[],[]⟩

def step (watch : Watch) : Event → Option Watch
  | .start => watch.pool.start.map (fun (answer,pool) =>
      {watch with pool := pool,answers := watch.answers ++ answer.toList})
  | .spawn thrown => (watch.pool.spawn thrown).map (fun pool => {watch with pool := pool})
  | .finishStart => watch.pool.finishStart.map (fun pool =>
      {watch with pool := pool,answers := watch.answers ++ [true]})
  | .enqueue woken => (watch.pool.enqueue watch.calls woken).map (fun (answer,pool) =>
      {watch with
        pool := pool
        calls := watch.calls + 1
        accepted := if answer then watch.accepted ++ [watch.calls] else watch.accepted
        refused := if answer then watch.refused else watch.refused ++ [watch.calls]})
  | .stop => watch.pool.stop.map (fun (answer,pool) =>
      {watch with pool := pool,answers := watch.answers ++ answer.toList})
  | .notifyAll => watch.pool.notifyAll.map (fun pool => {watch with pool := pool})
  | .join => watch.pool.join.map (fun pool => {watch with pool := pool})
  | .clear => watch.pool.clear.map (fun (cleared,answer,pool) =>
      {watch with pool := pool,cleared := watch.cleared ++ cleared,answers := watch.answers ++ answer.toList})
  | .look index => (watch.pool.look index).map (fun (job,pool) =>
      {watch with pool := pool,taken := watch.taken ++ job.toList})
  | .wake index => (watch.pool.wake index).map (fun pool => {watch with pool := pool})
  | .finish index thrown => (watch.pool.finish index thrown).map (fun (job,pool) =>
      {watch with pool := pool,ran := watch.ran ++ [job]})

end Watch

/-! What the steps of `stop` and of the threads do where they are enabled. -/
section Inversions
variable {pool next : ThreadPool} {index : Nat}

theorem notifyAll_inv (taken : pool.notifyAll = some next) :
    ∃ failing, pool.control = .notifying failing ∧
    next = {pool with threads := pool.threads.map Position.notified,control := .joining failing 0} := by
  unfold notifyAll at taken
  split at taken
  next failing place =>
    cases taken
    exact ⟨failing,place,rfl⟩
  next => cases taken

theorem join_inv (taken : pool.join = some next) :
    ∃ failing joined, pool.control = .joining failing joined ∧
    pool.threads[joined]? = some .exited ∧
      next = {pool with control := .joining failing (joined + 1)} := by
  unfold join at taken
  split at taken
  next failing joined place =>
    split at taken
    next exited =>
      cases taken
      exact ⟨failing,joined,place,exited,rfl⟩
    next => cases taken
  next => cases taken

theorem clear_inv {discarded : List Nat} {answer : Option Bool}
    (taken : pool.clear = some (discarded,answer,next)) :
    discarded = pool.tasks ∧ (∃ failing, pool.control = .joining failing pool.threads.length) ∧
    next = {pool with threads := [],tasks := [],started := false,control := .idle} := by
  unfold clear at taken
  split at taken
  next failing joined place =>
    split at taken
    next all =>
      cases taken
      exact ⟨rfl,⟨failing,all ▸ place⟩,rfl⟩
    next => cases taken
  next => cases taken

theorem look_inv {job : Option Nat} (taken : pool.look index = some (job,next)) :
    pool.threads[index]? = some .checking ∧
    (pool.tasks = [] ∧ job = none ∧
        next = pool.setThread index (if pool.stopping then .exited else .waiting) ∨
      ∃ first rest, pool.tasks = first::rest ∧ job = some first ∧
        next = {pool with tasks := rest}.setThread index (.running first)) := by
  unfold look at taken
  split at taken
  next at_ =>
    refine ⟨at_,?_⟩
    split at taken
    next empty =>
      cases taken
      exact .inl ⟨empty,rfl,rfl⟩
    next first rest queued =>
      cases taken
      exact .inr ⟨first,rest,queued,rfl,rfl⟩
  next => cases taken

theorem wake_inv (taken : pool.wake index = some next) :
    pool.threads[index]? = some .waiting ∧ next = pool.setThread index .checking := by
  unfold wake at taken
  split at taken
  next at_ =>
    cases taken
    exact ⟨at_,rfl⟩
  next => cases taken

theorem finish_inv {job : Nat} {thrown : Option Thrown}
    (taken : pool.finish index thrown = some (job,next)) :
    pool.threads[index]? = some (.running job) ∧
      ∃ errors, next = {pool.setThread index .checking with errors := errors} := by
  unfold finish at taken
  split at taken
  next running at_ =>
    simp only at taken
    split at taken
    next =>
      cases taken
      exact ⟨at_,_,rfl⟩
    next =>
      cases taken
      exact ⟨at_,_,rfl⟩
  next => cases taken

end Inversions

end ThreadPool

end RdmaPlatform.Worker
