import RdmaPlatform.Scheduler.Router
import RdmaPlatform.Scheduler.Tables
import RdmaPlatform.Library.Transition

/-! Requests that arrive over HTTP and are served one after another: which of them are accepted
as submissions, with which identifiers, and what the store holds of them in the end. A request
is what `net/http` hands to the router, in whatever form it came. -/
namespace RdmaPlatform.Scheduler.Router
open Library

/-- The clock and the request. -/
abbrev Arrival := Time × Incoming

def serve (config : Config) (state : State) (arrival : Arrival) : Answer × State :=
  serveHTTP config arrival.1 state arrival.2

def handle (config : Config) (state : State) (arrival : Arrival) : State :=
  (serve config state arrival).2

/-- The body of a `POST /tasks/submit`, if it is read to its end and decodes. -/
def submissionIn (request : Incoming) : Option SubmitTaskRequest :=
  match route request.method request.path with
  | .handler .submitTask _ => request.body.bind decodeSubmit
  | _ => none

/-- The submission that an arrival makes whatever the store holds. -/
def intended (arrival : Arrival) : Option (SubmitTaskRequest × Time) :=
  match submissionIn arrival.2 with
  | none => none
  | some req => if req.model = [] ∨ req.operation = [] then none else some (req,arrival.1)

/-- The task that the client is told of. -/
def acknowledged (answer : Answer) : Option Bytes :=
  match answer.payload with
  | .task task => if answer.status = 201 then some task.id else none
  | .error _ | .plain | .health | .node _ | .status _ => none

section Effects
variable (config : Config)

/-- The accesses to the store behind an answer; there are none behind a refusal. -/
structure Effect (state : State) (outcome : Answer × State) (sections : List Section) : Prop where
  reached : outcome.2 = exec config sections state
  refused : 300 ≤ outcome.1.status → sections = []

/-- An answer behind which there is no submission. -/
def Plain (state : State) (outcome : Answer × State) : Prop :=
  ∃ sections, Effect config state outcome sections ∧ acknowledged outcome.1 = none ∧
    submissions sections = 0

theorem plain_kept {state : State} {answer : Answer} (quiet : acknowledged answer = none) :
    Plain config state (answer,state) :=
  ⟨[],⟨rfl,fun _ => rfl⟩,quiet,rfl⟩

/-- A call is a failure and no change, or a success and the sections of the service. -/
theorem call_sections (now : Time) (state : State) (request : Request) :
    request.Invalid state ∧ (request.call config now state).1.failed = true ∧
        (request.call config now state).2 = state ∨
      ¬ request.Invalid state ∧ (request.call config now state).1.failed = false ∧
        (request.call config now state).2 =
          exec config [request.access now,.dispatchPending now] state := by
  rcases call_outcome config now state request with failure | ⟨valid,served⟩
  · exact .inl failure
  · refine .inr ⟨valid,served,?_⟩
    rcases request.write_outcome config now state with ⟨invalid,_⟩ | ⟨_,key,next,written,_⟩
    · exact (valid invalid).elim
    · have reached : next = apply config state (request.access now) := by
        rw [← request.write_state,written]
      subst reached
      rw [Request.call_eq_serve,Request.serve,written]
      rfl

/-- Only the answer to a submission acknowledges one. -/
theorem answer_quiet {request : Request} {response : Response}
    (other : response.failed = true ∨ ∀ task, response = .task (.ok task) → successOf request = 200) :
    acknowledged (answer request response) = none := by
  rcases response with (_ | _) | (_ | task)
  · rfl
  · rfl
  · rfl
  · rcases other with failed | success
    · cases failed
    · simp [acknowledged,answer,success task rfl]

/-- A call that submits nothing. -/
theorem call_plain (now : Time) (state : State) {request : Request}
    (other : (request.access now).submits = false)
    (quiet : acknowledged (answer request (request.call config now state).1) = none) :
    Plain config state (answer request (request.call config now state).1,
      (request.call config now state).2) := by
  rcases call_sections config now state request with ⟨_,_,same⟩ | ⟨_,served,reached⟩
  · exact ⟨[],⟨same,fun _ => rfl⟩,quiet,rfl⟩
  · refine ⟨[request.access now,.dispatchPending now],⟨reached,fun status => ?_⟩,quiet,?_⟩
    · rw [answer_served request served] at status
      cases request <;> simp [successOf] at status
    · rw [submissions,List.countP_cons_of_neg (by simp [other])]
      rfl

/-- The identifier in the answer is the one that was issued. -/
theorem submit_acknowledged {state : State} (formed : WellFormed state) (now : Time)
    {req : SubmitTaskRequest} (valid : (Section.submit req now).submits = true) :
    acknowledged (answer (.submit req) ((Request.submit req).call config now state).1) =
      some (formatTaskID (state.taskCounter + 1)) := by
  have written : (Request.submit req).write config now state =
      (.ok (formatTaskID (state.taskCounter + 1)),apply config state (.submit req now)) := by
    rw [submit_apply config state req now valid]
    obtain ⟨model,operation⟩ := (submits_iff req now).mp valid
    simp [Request.write,model,operation,submitWrite]
  have stored := (Table.mem_keys_iff _ _).mpr ⟨_,submitted_stored config state valid⟩
  have formed := apply_wellFormed config (.dispatchPending now) _
    (apply_wellFormed config (.submit req now) _ formed)
  obtain ⟨task,found⟩ := (Table.mem_keys_iff _ _).mp
    ((apply_keys config _ (.dispatchPending now)).2 stored)
  have reading : (Request.submit req).read (formatTaskID (state.taskCounter + 1))
      (dispatchPending config now (apply config state (.submit req now))) =
        .task (.ok (cloneTask task)) := by
    have cloned := congrArg (Option.map cloneTask) found
    simp only [Request.read,getTask]
    exact cloned ▸ rfl
  rw [Request.call_eq_serve,Request.serve,written]
  simp only [reading]
  exact congrArg some (formed.task _ task found).key

theorem handler_plain (now : Time) (state : State) (id : Bytes) (body : Option Bytes)
    {handler : Handler} (other : handler ≠ .submitTask) :
    Plain config state (handler.run config now state id body) := by
  cases handler with
  | healthz => exact plain_kept config rfl
  | submitTask => exact (other rfl).elim
  | getTask =>
    simp only [Handler.run,FrontEnds.handleGetTask]
    cases getTask id state <;> exact plain_kept config rfl
  | status =>
    refine ⟨[.overview now],⟨rfl,fun status => ?_⟩,rfl,rfl⟩
    simp only [Handler.run] at status
    omega
  | register =>
    rw [run_posts config now state rfl,Handler.request]
    cases body.bind decodeRegister with
    | none => exact plain_kept config rfl
    | some req =>
      refine call_plain config now state rfl (answer_quiet (.inr fun task same => ?_))
      cases same
  | heartbeat =>
    rw [run_posts config now state rfl,Handler.request]
    cases body.bind decodeHeartbeat with
    | none => exact plain_kept config rfl
    | some req => exact call_plain config now state rfl (answer_quiet (.inr fun _ _ => rfl))
  | completeTask =>
    rw [run_posts config now state rfl,Handler.request]
    cases body.bind decodeComplete with
    | none => exact plain_kept config rfl
    | some req => exact call_plain config now state rfl (answer_quiet (.inr fun _ _ => rfl))

/-- What a served arrival does, by the submission it makes. -/
theorem serve_sections (state : State) (arrival : Arrival) :
    intended arrival = none ∧ Plain config state (serve config state arrival) ∨
      ∃ req now, intended arrival = some (req,now) ∧ (Section.submit req now).submits = true ∧
        Effect config state (serve config state arrival) [.submit req now,.dispatchPending now] ∧
        (WellFormed state →
          acknowledged (serve config state arrival).1 =
            some (formatTaskID (state.taskCounter + 1))) := by
  obtain ⟨now,incoming⟩ := arrival
  simp only [intended,submissionIn,serve,serveHTTP]
  cases route incoming.method incoming.path with
  | badRequest | redirect | methodNotAllowed | notFound => exact .inl ⟨rfl,plain_kept config rfl⟩
  | handler handler values =>
    by_cases other : handler = .submitTask
    · subst other
      simp only [run_posts config now state (show Handler.submitTask.posts = true from rfl),
        Handler.request]
      cases incoming.body.bind decodeSubmit with
      | none => exact .inl ⟨rfl,plain_kept config rfl⟩
      | some req =>
        rcases call_sections config now state (.submit req) with
          ⟨invalid,failed,same⟩ | ⟨valid,served,reached⟩
        · exact .inl ⟨if_pos invalid,[],⟨same,fun _ => rfl⟩,answer_quiet (.inl failed),rfl⟩
        · have submits := (submits_iff req now).mpr (not_or.mp valid)
          refine .inr ⟨req,now,if_neg valid,submits,⟨reached,fun status => ?_⟩,
            fun formed => submit_acknowledged config formed now submits⟩
          simp [answer_served (.submit req) served,successOf] at status
    · refine .inl ⟨?_,handler_plain config now state _ _ other⟩
      cases handler <;> first | rfl | exact (other rfl).elim

theorem refused_keeps (state : State) (arrival : Arrival)
    (status : 300 ≤ (serve config state arrival).1.status) :
    handle config state arrival = state := by
  have none (sections : List Section)
      (effect : Effect config state (serve config state arrival) sections) :
      handle config state arrival = state := by
    rw [handle,effect.reached,effect.refused status]
    rfl
  rcases serve_sections config state arrival with ⟨_,sections,effect,_⟩ | ⟨_,_,_,_,effect,_⟩
  · exact none sections effect
  · exact none _ effect

end Effects

section History
variable (config : Config)

structure Acceptance where
  id : Bytes
  req : SubmitTaskRequest
  now : Time

/-- An arrival that is answered as a submission. -/
def acceptance (state : State) (arrival : Arrival) : Option Acceptance :=
  (acknowledged (serve config state arrival).1).bind (fun id =>
    (submissionIn arrival.2).map (fun req => ⟨id,req,arrival.1⟩))

/-- The store as the result of what has been accepted. -/
structure Account (acceptances : List Acceptance) (state : State) : Prop where
  reached : ∃ sections, state = exec config sections newMemoryStore ∧
    submissions sections = acceptances.length
  issued : acceptances.map Acceptance.id = issuedIDs acceptances.length
  stored : ∀ entry ∈ acceptances, ∃ task, state.tasks.lookup entry.id = some task ∧
    (submitted entry.id entry.req entry.now).SameOrigin task

theorem acceptance_eq {state : State} {arrival : Arrival} {req : SubmitTaskRequest} {now : Time}
    {id : Bytes} (intends : intended arrival = some (req,now))
    (told : acknowledged (serve config state arrival).1 = some id) :
    acceptance config state arrival = some ⟨id,req,now⟩ := by
  rw [acceptance,told]
  rw [intended] at intends
  cases inside : submissionIn arrival.2 with
  | none =>
    rw [inside] at intends
    cases intends
  | some found =>
    simp only [inside] at intends
    split at intends
    · cases intends
    · cases intends
      rfl

/-- The counter is the number of the submissions, so the next identifier follows those before it. -/
theorem issuedIDs_next {state : State} {count : Nat} (counted : state.taskCounter.toNat = count) :
    issuedIDs count ++ [formatTaskID (state.taskCounter + 1)] = issuedIDs (count + 1) := by
  rw [issuedIDs,issuedIDs,List.range_succ,List.map_append,next_number counted]
  rfl

theorem account_step {acceptances : List Acceptance} {state : State}
    (account : Account config acceptances state) (room : acceptances.length + 1 < 2^64)
    (arrival : Arrival) :
    Account config (acceptances ++ (acceptance config state arrival).toList)
      (handle config state arrival) ∧ (acceptance config state arrival).map
      (fun entry => (entry.req,entry.now)) = intended arrival := by
  obtain ⟨sections,rfl,count⟩ := account.reached
  have trail := exec_trail config sections (by omega)
  rcases serve_sections config (exec config sections newMemoryStore) arrival with
    ⟨nothing,later,effect,quiet,none⟩ | ⟨req,now,intends,submits,effect,told⟩
  · have silent : acceptance config (exec config sections newMemoryStore) arrival = .none := by
      rw [acceptance,quiet]
      rfl
    have number : submissions (sections ++ later) = acceptances.length := by
      rw [submissions,List.countP_append]
      exact congrArg₂ (· + ·) count none
    rw [silent,nothing,handle,effect.reached,← exec_append,Option.toList_none,List.append_nil]
    have kept (entry : Acceptance) (member : entry ∈ acceptances) :=
      origin_kept config sections later (by omega) (account.stored entry member)
    exact ⟨⟨⟨_,rfl,number⟩,account.issued,kept⟩,rfl⟩
  · have shown := acceptance_eq config intends (told trail.wellFormed)
    have number : submissions (sections ++ [.submit req now,.dispatchPending now]) =
        acceptances.length + 1 := by
      rw [submissions,List.countP_append,List.countP_cons_of_pos submits]
      exact congrArg (· + 1) count
    rw [shown,intends,handle,effect.reached,← exec_append,Option.toList_some]
    refine ⟨⟨⟨_,rfl,by simpa using number⟩,?_,?_⟩,rfl⟩
    · rw [List.map_append,account.issued,List.length_append]
      exact issuedIDs_next (trail.counter.trans count)
    · intro entry member
      rcases List.mem_append.mp member with old | new
      · exact origin_kept config sections _ (by omega) (account.stored entry old)
      · cases List.mem_singleton.mp new
        -- the new task is there after the first of the two sections
        have split : sections ++ [.submit req now,.dispatchPending now] =
            (sections ++ [.submit req now]) ++ [.dispatchPending now] := by
          simp
        have fresh := submitted_stored config (exec config sections newMemoryStore) submits
        have after : apply config (exec config sections newMemoryStore) (.submit req now) =
            exec config (sections ++ [.submit req now]) newMemoryStore :=
              (exec_append config sections [.submit req now] newMemoryStore).symm
        rw [after] at fresh
        rw [split] at number ⊢
        exact origin_kept config _ _ (by omega) ⟨_,fresh,.refl _⟩

theorem accounted (arrivals : List Arrival) (bounded : arrivals.length < 2^64) :
    Account config (Transition.outputs (handle config) (acceptance config) arrivals newMemoryStore)
        (arrivals.foldl (handle config) newMemoryStore) ∧
      (Transition.outputs (handle config) (acceptance config) arrivals newMemoryStore).map
        (fun entry => (entry.req,entry.now)) = arrivals.filterMap intended := by
  induction arrivals using List.reverseRecOn with
  | nil => exact ⟨⟨⟨[],rfl,rfl⟩,rfl,fun entry member => by cases member⟩,rfl⟩
  | append_singleton arrivals arrival ih =>
    rw [List.length_append,List.length_singleton] at bounded
    obtain ⟨account,same⟩ := ih (by omega)
    have fewer := congrArg List.length same
    rw [List.length_map] at fewer
    have atMost := List.length_filterMap_le intended arrivals
    obtain ⟨next,told⟩ := account_step config account (by omega) arrival
    rw [Transition.outputs_append,List.foldl_append]
    refine ⟨?_,?_⟩
    · simpa [Transition.outputs] using next
    · rw [List.map_append,same,List.filterMap_append,List.filterMap_cons,List.filterMap_nil,← told]
      simp only [Transition.outputs,List.append_nil]
      cases acceptance config (arrivals.foldl (handle config) newMemoryStore) arrival <;> rfl

/-- Whatever arrives, the submissions that are answered with `201` are exactly the complete and
valid ones, in order; they are numbered one by one, the store holds those tasks and no others,
each as it was submitted, and a request answered with an error has changed nothing. -/
theorem submissions_stored (arrivals : List Arrival) (bounded : arrivals.length < 2^64) :
    let final := arrivals.foldl (handle config) newMemoryStore
    let acceptances := Transition.outputs (handle config) (acceptance config) arrivals newMemoryStore
    WellFormed final ∧
    acceptances.map (fun entry => (entry.req,entry.now)) = arrivals.filterMap intended ∧
    acceptances.map Acceptance.id = issuedIDs acceptances.length ∧
    final.tasks.keys.Perm (acceptances.map Acceptance.id) ∧
    (∀ entry ∈ acceptances, ∃ task, final.tasks.lookup entry.id = some task ∧
      (submitted entry.id entry.req entry.now).SameOrigin task) ∧
    Transition.Throughout (handle config)
      (fun state arrival => 300 ≤ (serve config state arrival).1.status →
        handle config state arrival = state)
      arrivals newMemoryStore := by
  intro final acceptances
  obtain ⟨account,same⟩ := accounted config arrivals bounded
  obtain ⟨sections,reached,count⟩ := account.reached
  have fewer := congrArg List.length same
  rw [List.length_map] at fewer
  have atMost := List.length_filterMap_le intended arrivals
  have trail := exec_trail config sections (by omega)
  have keys := exec_taskKeys config sections (by omega)
  rw [← reached] at trail keys
  rw [count,← account.issued] at keys
  refine ⟨trail.wellFormed,same,account.issued,keys,account.stored,?_⟩
  exact Transition.throughout_of_forall (fun state arrival _ => refused_keeps config state arrival)
    newMemoryStore

/-- Two submissions, the second with an escape in its path and capital letters in its names,
and between them one that breaks off, one without a model and a question. -/
def mixed : List Arrival :=
  let post (path : String) (body : Option String) : Incoming := ⟨utf8 "POST",utf8 path,body.map utf8⟩
  [(1,post "/tasks/submit" (some "\x7b\"model\":\"m\",\"operation\":\"infer\"\x7d")),
    (2,post "/tasks/submit" none),(3,post "/tasks/submit" (some "\x7b\"operation\":\"infer\"\x7d")),
    (4,⟨utf8 "GET",utf8 "/tasks/task-000001",some []⟩),
    (5,post "/tasks/%73ubmit"
      (some "\x7b\"Operation\":\"infer\",\"MODEL\":\"n\",\"metadata\":\x7b\"k\":\"v\"\x7d\x7d"))]

theorem submissions_stored_mixed :
    (mixed.filterMap intended).length = 2 ∧
      (mixed.foldl (handle defaultConfig) newMemoryStore).tasks.keys.Perm
        [utf8 "task-000001",utf8 "task-000002"] := by
  have two : (mixed.filterMap intended).length = 2 := by decide +kernel
  obtain ⟨_,same,issued,keys,_⟩ := submissions_stored defaultConfig mixed (by decide +kernel)
  have number := congrArg List.length same
  rw [List.length_map,two] at number
  rw [issued,number,show issuedIDs 2 = [utf8 "task-000001",utf8 "task-000002"] by
    decide +kernel] at keys
  exact ⟨two,keys⟩

end History

end RdmaPlatform.Scheduler.Router
