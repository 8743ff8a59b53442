import RdmaPlatform.Scheduler.Observers

/-! Concurrent calls. Each call reads the clock once and then takes its critical
sections one by one; between any two of them sections of other calls, of checker
ticks and of observers may run, and the clock may go on. -/
namespace RdmaPlatform.Scheduler
open Library

/-- What a goroutine works on: a service call or a tick of the checker. -/
inductive Job where
  | call (request : Request)
  | tick

inductive Stage where
  | write
  | dispatch (key : Bytes)
  | read (key : Bytes)
  | done (response : Option Response)

/-- `now` is the clock value the job has read. -/
structure Thread where
  job : Job
  now : Time
  stage : Stage

namespace Job

def write (config : Config) (now : Time) (store : State) : Job → Except Error Bytes × State
  | .call request => request.write config now store
  | .tick => (.ok [],refreshNodeStates config now store)

def failure (error : Error) : Job → Option Response
  | .call request => some (request.failure error)
  | .tick => none

def read (key : Bytes) (store : State) : Job → Option Response
  | .call request => some (request.read key store)
  | .tick => none

def access (now : Time) : Job → Section
  | .call request => request.access now
  | .tick => .refreshNodeStates now

theorem write_state (config : Config) (now : Time) (store : State) (job : Job) :
    (job.write config now store).2 = apply config store (job.access now) := by
  cases job with
  | call request => exact request.write_state config now store
  | tick => rfl

end Job

/-- The next critical section of a thread. -/
def Thread.advance (config : Config) (store : State) (thread : Thread) : Thread × State :=
  match thread.stage with
  | .write =>
    match thread.job.write config thread.now store with
    | (.error error,store) => ({thread with stage := .done (thread.job.failure error)},store)
    | (.ok key,store) => ({thread with stage := .dispatch key},store)
  | .dispatch key => ({thread with stage := .read key},dispatchPending config thread.now store)
  | .read key => ({thread with stage := .done (thread.job.read key store)},store)
  | .done _ => (thread,store)

structure Server where
  store : State
  clock : Time
  threads : List Thread

inductive ServerEvent where
  | elapse (duration : Nat)
  | start (job : Job)
  | advance (index : Nat)
  | observe (observer : Observer)

namespace Server

def step (config : Config) (server : Server) : ServerEvent → Server
  | .elapse duration => {server with clock := server.clock + duration}
  | .start job => {server with threads := server.threads ++ [⟨job,server.clock,.write⟩]}
  | .advance index =>
    match server.threads[index]? with
    | none => server
    | some thread =>
      let (thread,store) := thread.advance config server.store
      {server with store := store,threads := server.threads.set index thread}
  | .observe observer => {server with store := observer.look config server.store}

def exec (config : Config) (events : List ServerEvent) (server : Server) : Server :=
  events.foldl (step config) server

def initial (clock : Time) : Server := ⟨newMemoryStore,clock,[]⟩

end Server

/-- The access to the store that a thread makes next. -/
def Thread.access (thread : Thread) : Option Section :=
  match thread.stage with
  | .write => some (thread.job.access thread.now)
  | .dispatch _ => some (.dispatchPending thread.now)
  | .read _ | .done _ => none

def Observer.access : Observer → Option Section
  | .overview now => some (.overview now)
  | .refreshNodeStates now => some (.refreshNodeStates now)
  | .refresh now => some (.refresh now)
  | .getNode _ | .getTask _ | .runningAssignments _ => none

def Server.access (server : Server) : ServerEvent → Option Section
  | .advance index => server.threads[index]?.bind Thread.access
  | .observe observer => observer.access
  | .elapse _ | .start _ => none

theorem advance_store (config : Config) (store : State) (thread : Thread) :
    (thread.advance config store).2 = match thread.access with
      | some access => apply config store access
      | none => store := by
  unfold Thread.advance Thread.access
  cases thread.stage with
  | write =>
    simp only [← Job.write_state]
    rcases thread.job.write config thread.now store with ⟨error | key,next⟩ <;> rfl
  | dispatch | read | done => rfl

theorem Server.access_advance {server : Server} {index : Nat} {thread : Thread}
    (found : server.threads[index]? = some thread) :
    server.access (.advance index) = thread.access := by
  rw [access,found]
  rfl

/-- The store moves only by accesses to it. -/
theorem Server.step_store (config : Config) (server : Server) (event : ServerEvent) :
    (server.step config event).store = match server.access event with
      | some access => apply config server.store access
      | none => server.store := by
  cases event with
  | elapse | start => rfl
  | advance index =>
    simp only [step,access]
    cases server.threads[index]? with
    | none => rfl
    | some thread => exact advance_store config server.store thread
  | observe observer => cases observer <;> rfl

def ServerEvent.advances (index : Nat) : ServerEvent → Bool
  | .advance other => other == index
  | .elapse _ | .start _ | .observe _ => false

theorem Server.step_thread (config : Config) (server : Server) (event : ServerEvent) {index : Nat}
    {thread : Thread} (found : server.threads[index]? = some thread) :
    (server.step config event).threads[index]? =
      some (if event.advances index then (thread.advance config server.store).1 else thread) := by
  have inside := (List.getElem?_eq_some_iff.mp found).1
  cases event with
  | elapse | observe => exact found
  | start job => exact (List.getElem?_append_left inside).trans found
  | advance other =>
    by_cases same : other = index
    · subst same
      simp [step,ServerEvent.advances,found,List.getElem?_set_self inside]
    · have kept : (server.step config (.advance other)).threads[index]? = server.threads[index]? := by
        simp only [step]
        cases server.threads[other]? with
        | none => rfl
        | some moved => exact List.getElem?_set_ne same
      simp [kept,found,ServerEvent.advances,same]

theorem Server.step_advance (config : Config) {server : Server} {index : Nat} {thread : Thread}
    (found : server.threads[index]? = some thread) :
    (server.step config (.advance index)).threads[index]? =
      some (thread.advance config server.store).1 ∧
      (server.step config (.advance index)).store = (thread.advance config server.store).2 := by
  constructor
  · simpa [ServerEvent.advances] using server.step_thread config (.advance index) found
  · rw [step_store,access_advance found,advance_store]

/-- Three sections in a row are the whole call. -/
theorem Server.exec_alone (config : Config) (server : Server) {index : Nat} {request : Request}
    {now : Time} (found : server.threads[index]? = some ⟨.call request,now,.write⟩) :
    let final := server.exec config [.advance index,.advance index,.advance index]
    final.threads[index]? = some ⟨.call request,now,
      .done (some (request.call config now server.store).1)⟩ ∧
      final.store = (request.call config now server.store).2 := by
  intro final
  obtain ⟨first,store⟩ := step_advance config found
  rw [Request.call_eq_serve,Request.serve]
  rcases written : request.write config now server.store with ⟨error | key,next⟩
  · simp only [Thread.advance,Job.write,written] at first store
    obtain ⟨second,store'⟩ := step_advance config first
    obtain ⟨third,store''⟩ := step_advance config second
    exact ⟨third,store''.trans (store'.trans store)⟩
  · simp only [Thread.advance,Job.write,written] at first store
    obtain ⟨second,store'⟩ := step_advance config first
    obtain ⟨third,store''⟩ := step_advance config second
    simp only [Thread.advance,Job.read] at store' third store''
    rw [store',store] at third store''
    exact ⟨third,store''⟩

/-- The validation errors of a call, in the store its write finds. -/
def Request.Invalid (store : State) : Request → Prop
  | .register req => req.id = []
  | .heartbeat req => req.id = [] ∨ store.nodes.lookup req.id = none
  | .submit req => req.model = [] ∨ req.operation = []
  | .complete taskID _ => taskID = [] ∨ store.tasks.lookup taskID = none

/-- What the call reads back at its end is stored. -/
def Request.Present (store : State) (key : Bytes) : Request → Prop
  | .register _ | .heartbeat _ => key ∈ store.nodes.keys
  | .submit _ | .complete _ _ => key ∈ store.tasks.keys

theorem Request.write_outcome (config : Config) (now : Time) (store : State) (request : Request) :
    request.Invalid store ∧ (∃ error, request.write config now store = (.error error,store)) ∨
      ¬ request.Invalid store ∧
        ∃ key next, request.write config now store = (.ok key,next) ∧ request.Present next key := by
  cases request with
  | register req =>
    by_cases named : req.id = []
    · exact .inl ⟨named,.workerIdRequired,by simp [write,Scheduler.register,named,Except.map]⟩
    · refine .inr ⟨named,req.id,_,
        by simp only [write,Scheduler.register,named,if_false,Except.map]; rfl,?_⟩
      simp only [Present,Table.keys_modify]
      exact admitted_key req.id store
  | heartbeat req =>
    by_cases named : req.id = []
    · exact .inl ⟨.inl named,.workerIdRequired,by simp [write,Scheduler.heartbeat,named,Except.map]⟩
    · cases found : store.nodes.lookup req.id with
      | none => exact .inl ⟨.inr found,.workerNotFound req.id,
        by simp [write,Scheduler.heartbeat,named,found,Except.map]⟩
      | some node =>
        refine .inr ⟨by simp [Invalid,named,found],req.id,_,
          by simp only [write,Scheduler.heartbeat,named,if_false,found,Except.map]; rfl,?_⟩
        simp only [Present,Table.keys_modify]
        exact (Table.mem_keys_iff _ _).mpr ⟨node,found⟩
  | submit req =>
    by_cases model : req.model = []
    · exact .inl ⟨.inl model,.modelRequired,by simp [write,model]⟩
    · by_cases operation : req.operation = []
      · exact .inl ⟨.inr operation,.operationRequired,by simp [write,model,operation]⟩
      · refine .inr ⟨by simp [Invalid,model,operation],_,_,
          by simp only [write,model,operation,if_false,submitWrite]; rfl,?_⟩
        exact (Table.mem_keys_iff _ _).mpr ⟨_,by rw [Table.lookup_put,if_pos rfl]⟩
  | complete taskID req =>
    by_cases named : taskID = []
    · exact .inl ⟨.inl named,.taskIdRequired,by simp [write,named]⟩
    · cases found : store.tasks.lookup taskID with
      | none => exact .inl ⟨.inr found,.taskNotFound taskID,
        by simp [write,completeWrite,named,found,Except.map]⟩
      | some task =>
        refine .inr ⟨by simp [Invalid,named,found],taskID,(completeWrite taskID req now store).2,?_,?_⟩
        · simp only [write,named,if_false,completeWrite,found]
          split <;> rfl
        · have stored := (Table.mem_keys_iff _ _).mpr ⟨task,found⟩
          simp only [Present,completeWrite,found]
          split <;> simpa using stored

/-- The tables only grow. -/
theorem apply_keys (config : Config) (state : State) (step : Section) :
    state.nodes.keys ⊆ (apply config state step).nodes.keys ∧
      state.tasks.keys ⊆ (apply config state step).tasks.keys := by
  apply apply_invariant config
    (fun next => state.nodes.keys ⊆ next.nodes.keys ∧ state.tasks.keys ⊆ next.tasks.keys)
  · exact ⟨List.Subset.refl _,List.Subset.refl _⟩
  · intro state next grown change
    cases change with
    | register req now =>
      simp only [Table.keys_modify,admitted_tasks]
      exact ⟨List.Subset.trans grown.1 (admitted_keys req.id state),grown.2⟩
    | submit req now => exact ⟨grown.1,List.Subset.trans grown.2 (Table.keys_put _ _ _)⟩
    | heartbeat | release | complete | refresh | assign => simpa using grown

theorem Server.step_present (config : Config) (server : Server) (event : ServerEvent)
    {request : Request} {key : Bytes} (present : request.Present server.store key) :
    request.Present (server.step config event).store key := by
  rw [step_store]
  cases server.access event with
  | none => exact present
  | some access =>
    obtain ⟨nodes,tasks⟩ := apply_keys config server.store access
    cases request with
    | register | heartbeat => exact nodes present
    | submit | complete => exact tasks present

def Response.failed : Response → Bool
  | .node (.error _) | .task (.error _) => true
  | .node (.ok _) | .task (.ok _) => false

namespace Stage

def failed : Stage → Bool
  | .done (some response) => response.failed
  | .done none | .write | .dispatch _ | .read _ => false

/-- The sections a call has still to take, if none of them fails. -/
def remaining : Stage → Nat
  | .write => 3
  | .dispatch _ => 2
  | .read _ => 1
  | .done _ => 0

/-- A call whose write has succeeded. -/
def Effective (store : State) (request : Request) : Stage → Prop
  | .write => False
  | .dispatch key | .read key => request.Present store key
  | .done response => ∃ answer, response = some answer ∧ answer.failed = false

theorem Effective.unfailed {store : State} {request : Request} {stage : Stage}
    (effective : stage.Effective store request) : stage.failed = false ∧
      (stage.remaining = 0 → ∃ response, stage = .done (some response) ∧
        response.failed = false) := by
  cases stage with
  | write => exact effective.elim
  | dispatch | read => exact ⟨rfl,fun ended => by cases ended⟩
  | done response =>
    obtain ⟨answer,rfl,fine⟩ := effective
    exact ⟨fine,fun _ => ⟨answer,rfl,fine⟩⟩

end Stage

theorem Request.failure_failed (request : Request) (error : Error) :
    (request.failure error).failed = true := by
  cases request <;> rfl

theorem Request.read_present {store : State} {key : Bytes} {request : Request}
    (present : request.Present store key) :
    (request.read key store).failed = false := by
  cases request with
  | register | heartbeat =>
    obtain ⟨node,found⟩ := (Table.mem_keys_iff _ _).mp present
    simp [read,getNode,found,Response.failed]
  | submit | complete =>
    obtain ⟨task,found⟩ := (Table.mem_keys_iff _ _).mp present
    simp [read,getTask,found,Response.failed]

namespace Server

theorem step_effective (config : Config) (server : Server) (event : ServerEvent) {index : Nat}
    {request : Request} {now : Time} {stage : Stage}
    (found : server.threads[index]? = some ⟨.call request,now,stage⟩)
    (effective : stage.Effective server.store request) :
    ∃ next, (server.step config event).threads[index]? = some ⟨.call request,now,next⟩ ∧
      next.Effective (server.step config event).store request ∧
      next.remaining ≤ stage.remaining - (if event.advances index then 1 else 0) := by
  have moved := step_thread config server event found
  have kept {key : Bytes} (present : request.Present server.store key) :=
    step_present config server event present
  cases own : event.advances index with
  | false =>
    refine ⟨stage,by simpa [own] using moved,?_,by simp⟩
    cases stage with
    | write => exact effective
    | dispatch key | read key => exact kept effective
    | done response => exact effective
  | true =>
    rw [own,if_pos rfl] at moved
    cases stage with
    | write => exact effective.elim
    | dispatch key => exact ⟨.read key,moved,kept effective,le_refl 1⟩
    | read key => exact ⟨.done _,moved,⟨_,rfl,Request.read_present effective⟩,le_refl 0⟩
    | done response => exact ⟨.done response,moved,effective,le_refl 0⟩

theorem exec_effective (config : Config) (events : List ServerEvent) (server : Server) {index : Nat}
    {request : Request} {now : Time} {stage : Stage}
    (found : server.threads[index]? = some ⟨.call request,now,stage⟩)
    (effective : stage.Effective server.store request) :
    ∃ last, (exec config events server).threads[index]? = some ⟨.call request,now,last⟩ ∧
      last.Effective (exec config events server).store request ∧
      last.remaining ≤ stage.remaining - events.countP (·.advances index) := by
  induction events generalizing server stage with
  | nil => exact ⟨stage,found,effective,le_refl _⟩
  | cons event rest ih =>
    obtain ⟨next,there,later,closer⟩ := step_effective config server event found effective
    obtain ⟨last,final,ended,bound⟩ := ih _ there later
    refine ⟨last,final,ended,?_⟩
    rw [List.countP_cons]
    omega

theorem exec_done (config : Config) (events : List ServerEvent) (server : Server) {index : Nat}
    {job : Job} {now : Time} {response : Option Response}
    (found : server.threads[index]? = some ⟨job,now,.done response⟩) :
    (exec config events server).threads[index]? = some ⟨job,now,.done response⟩ := by
  induction events generalizing server with
  | nil => exact found
  | cons event rest ih =>
    apply ih
    rw [step_thread config server event found]
    split <;> rfl

end Server

/-- A call fails exactly when its arguments are invalid in the store its write
finds. A failing call ends with that write, which changes nothing; any other call
never fails, whatever runs between its sections, and returns once it has taken the
two sections left. -/
theorem errors_are_validation (config : Config) (clock : Time) (before after : List ServerEvent)
    (index : Nat) (request : Request) (now : Time)
    (waiting : ((Server.initial clock).exec config before).threads[index]? =
      some ⟨.call request,now,.write⟩) :
    let server := (Server.initial clock).exec config before
    let next := server.step config (.advance index)
    let final := next.exec config after
    (request.Invalid server.store → next.store = server.store ∧
      ∃ response, response.failed = true ∧
        next.threads[index]? = some ⟨.call request,now,.done (some response)⟩ ∧
        final.threads[index]? = some ⟨.call request,now,.done (some response)⟩) ∧
    (¬ request.Invalid server.store →
      ∃ stage, final.threads[index]? = some ⟨.call request,now,stage⟩ ∧ stage.failed = false ∧
        (2 ≤ after.countP (·.advances index) →
          ∃ response, stage = .done (some response) ∧ response.failed = false)) := by
  intro server next final
  have advanced : next.threads[index]? =
    some (Thread.advance config server.store ⟨.call request,now,.write⟩).1 ∧
      next.store = (Thread.advance config server.store ⟨.call request,now,.write⟩).2 :=
    Server.step_advance config waiting
  obtain ⟨moved,stored⟩ := advanced
  rcases request.write_outcome config now server.store with ⟨invalid,error,written⟩ |
    ⟨valid,key,left,written,present⟩
  · simp only [Thread.advance,Job.write,written] at moved stored
    exact ⟨fun _ => ⟨stored,request.failure error,request.failure_failed error,moved,
      Server.exec_done config after next moved⟩,fun valid => absurd invalid valid⟩
  · simp only [Thread.advance,Job.write,written] at moved stored
    refine ⟨fun invalid => absurd invalid valid,fun _ => ?_⟩
    obtain ⟨stage,found,effective,bound⟩ := Server.exec_effective config after next moved
      (show request.Present next.store key by rw [stored]; exact present)
    obtain ⟨unfailed,returned⟩ := effective.unfailed
    refine ⟨stage,found,unfailed,fun enough => returned ?_⟩
    change stage.remaining ≤ 2 - _ at bound
    omega

def idleBeat : HeartbeatRequest := ⟨utf8 "worker-1",0,[],[]⟩

/-- A heartbeat that has begun before its worker's registration and writes after it. -/
def overlapping : List ServerEvent :=
  [.start (.call (.heartbeat idleBeat)),
    .start (.call (.register ⟨utf8 "worker-1",utf8 "127.0.0.1:9001",1,[]⟩)),.advance 1]

theorem errors_are_validation_overlapping :
    ∃ response, response.failed = false ∧
      ((Server.initial 1).exec defaultConfig
        (overlapping ++ [.advance 0,.advance 1,.advance 0,.advance 0])).threads[0]? =
          some ⟨.call (.heartbeat idleBeat),1,.done (some response)⟩ := by
  have valid : ¬ (Request.heartbeat idleBeat).Invalid
      ((Server.initial 1).exec defaultConfig overlapping).store := by
    change ¬(_ ∨ _)
    decide
  obtain ⟨stage,found,_,returned⟩ := (errors_are_validation defaultConfig 1 overlapping
    [.advance 1,.advance 0,.advance 0] 0 (.heartbeat idleBeat) 1 rfl).2 valid
  obtain ⟨response,rfl,fine⟩ := returned (by decide)
  exact ⟨response,fine,found⟩

end RdmaPlatform.Scheduler
