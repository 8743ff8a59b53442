import RdmaPlatform.Scheduler.Concurrent
import RdmaPlatform.Scheduler.Tables
import RdmaPlatform.Library.Positions

/-! Submissions that overlap. From its write on, a submission has an identifier, which it looks
up again for its answer; between the two, sections of other calls run. The identifiers of all the
submissions are those of the store, each once. -/
namespace RdmaPlatform.Scheduler
open Library

def Job.submission : Job → Option SubmitTaskRequest
  | .call (.submit req) => some req
  | .call (.register _) | .call (.heartbeat _) | .call (.complete _ _) | .tick => none

/-- The identifier that a call has or has answered with. -/
def Stage.key : Stage → Option Bytes
  | .dispatch key | .read key => some key
  | .done (some (.task (.ok task))) => some task.id
  | .write | .done _ => none

/-- The submission of a thread once it has an identifier. -/
def Thread.holds (thread : Thread) : Option (Bytes × SubmitTaskRequest) :=
  thread.job.submission.bind (fun req => thread.stage.key.map (fun key => (key,req)))

/-- Past its write, a submission has an identifier just if it is valid. -/
def Thread.Decided (thread : Thread) : Prop :=
  ∀ req, thread.job.submission = some req → thread.stage ≠ .write →
    (thread.holds.isSome = true ↔ req.model ≠ [] ∧ req.operation ≠ [])

def Server.holders (server : Server) : List (Bytes × SubmitTaskRequest) :=
  server.threads.filterMap Thread.holds

section Advance
variable (config : Config) {store : State} {thread : Thread}

theorem advance_fixed :
    (thread.advance config store).1.job = thread.job ∧
      (thread.advance config store).1.now = thread.now := by
  unfold Thread.advance
  split
  · split <;> exact ⟨rfl,rfl⟩
  all_goals exact ⟨rfl,rfl⟩

theorem access_submits {access : Section} (other : thread.job.submission = none)
    (accesses : thread.access = some access) :
    access.submits = false := by
  obtain ⟨job,now,stage⟩ := thread
  cases stage with
  | read | done => cases accesses
  | dispatch =>
    cases accesses
    rfl
  | write =>
    cases accesses
    cases job with
    | tick => rfl
    | call request =>
      cases request with
      | submit => cases other
      | register | heartbeat | complete => rfl

/-- A section of a thread either leaves what it holds and submits nothing, or is the write of a
submission, which gets the next identifier. -/
theorem advance_holds (formed : WellFormed store)
    (present : ∀ key req, thread.holds = some (key,req) → key ∈ store.tasks.keys) :
    ((thread.advance config store).1.holds = thread.holds ∧
        ∀ access ∈ thread.access, access.submits = false) ∨
      ∃ req, thread.holds = none ∧ thread.access = some (.submit req thread.now) ∧
        (Section.submit req thread.now).submits = true ∧
        (thread.advance config store).1.holds = some (formatTaskID (store.taskCounter + 1),req) := by
  cases submission : thread.job.submission with
  | none =>
    refine .inl ⟨?_,fun access accesses => access_submits submission accesses⟩
    rw [Thread.holds,Thread.holds,(advance_fixed config).1,submission]
    rfl
  | some req =>
    obtain ⟨job,now,stage⟩ := thread
    have job_eq : job = .call (.submit req) := by
      cases job with
      | tick => cases submission
      | call request =>
        cases request with
        | submit => cases submission; rfl
        | register | heartbeat | complete => cases submission
    subst job_eq
    cases stage with
    | done response => exact .inl ⟨rfl,fun access none => by cases none⟩
    | dispatch key => exact .inl ⟨rfl,fun access same => by cases same; rfl⟩
    | read key =>
      refine .inl ⟨?_,fun access none => by cases none⟩
      obtain ⟨task,found⟩ := (Table.mem_keys_iff _ _).mp (present key req rfl)
      have named := (formed.task key task found).key
      simp [Thread.advance,Job.read,Request.read,getTask,found,Thread.holds,Job.submission,
        Stage.key,cloneTask,named]
    | write =>
      by_cases valid : (Section.submit req now).submits = true
      · refine .inr ⟨req,rfl,rfl,valid,?_⟩
        obtain ⟨model,operation⟩ := (submits_iff req now).mp valid
        simp [Thread.advance,Job.write,Request.write,model,operation,submitWrite,Thread.holds,
          Job.submission,Stage.key]
      · refine .inl ⟨?_,fun access same => by cases same; exact Bool.not_eq_true _ |>.mp valid⟩
        have invalid : (Request.submit req).Invalid store := by
          by_contra fine
          exact valid ((submits_iff req now).mpr (not_or.mp fine))
        rcases (Request.submit req).write_outcome config now store with ⟨_,error,failed⟩ | ⟨fine,_⟩
        · simp [Thread.advance,Job.write,failed,Job.failure,Request.failure,Thread.holds,Stage.key]
        · exact (fine invalid).elim

theorem advance_decided (formed : WellFormed store)
    (present : ∀ key req, thread.holds = some (key,req) → key ∈ store.tasks.keys)
    (decided : thread.Decided) :
    (thread.advance config store).1.Decided := by
  intro req submission past
  rw [(advance_fixed config).1] at submission
  rcases advance_holds config formed present with ⟨same,quiet⟩ | ⟨other,_,access,submits,holds⟩
  · rw [same]
    by_cases first : thread.stage = .write
    · have access : thread.access = some (.submit req thread.now) := by
        rw [Thread.access,first]
        cases job : thread.job with
        | tick =>
          rw [job] at submission
          cases submission
        | call request =>
          rw [job] at submission
          cases request with
          | submit => cases submission; rfl
          | register | heartbeat | complete => cases submission
      have nothing : thread.holds = none := by
        rw [Thread.holds,first,submission]
        rfl
      rw [nothing,← submits_iff req thread.now,quiet _ access]
      simp
    · exact decided req submission first
  · rw [holds]
    have same : other = req := by
      have known : (thread.advance config store).1.holds.map Prod.snd = some req := by
        rw [Thread.holds,(advance_fixed config).1,submission]
        cases key : (thread.advance config store).1.stage.key with
        | some => rfl
        | none =>
          rw [Thread.holds,(advance_fixed config).1,submission,key] at holds
          cases holds
      rw [holds] at known
      exact Option.some.inj known
    exact ⟨fun _ => (submits_iff req thread.now).mp (same ▸ submits),fun _ => rfl⟩

end Advance

section Runs
variable (config : Config)

/-- The store as the result of the submissions that the threads hold. -/
structure Accounted (server : Server) : Prop where
  reached : ∃ sections, server.store = Scheduler.exec config sections newMemoryStore ∧
    submissions sections = server.holders.length
  issued : (server.holders.map Prod.fst).Perm (issuedIDs server.holders.length)
  stored : ∀ thread ∈ server.threads, ∀ key req, thread.holds = some (key,req) →
    ∃ task, server.store.tasks.lookup key = some task ∧ (submitted key req thread.now).SameOrigin task
  decided : ∀ thread ∈ server.threads, thread.Decided

theorem step_store_elim (server : Server) (event : ServerEvent) :
    (server.step config event).store = (server.access event).elim server.store
      (apply config server.store) := by
  rw [Server.step_store]
  cases server.access event <;> rfl

variable {config}

/-- A section that submits nothing. -/
theorem Accounted.moved {server next : Server} (accounted : Accounted config server)
    (room : server.holders.length < 2^64) {access : Option Section}
    (store : next.store = access.elim server.store (apply config server.store))
    (quiet : ∀ section_ ∈ access, section_.submits = false) (held : next.holders.Perm server.holders)
    (known : ∀ thread ∈ next.threads, ∀ key req, thread.holds = some (key,req) →
      ∃ old ∈ server.threads, old.holds = some (key,req) ∧ old.now = thread.now)
    (decided : ∀ thread ∈ next.threads, thread.Decided) : Accounted config next := by
  obtain ⟨sections,reached,count⟩ := accounted.reached
  have after : next.store = Scheduler.exec config (sections ++ access.toList) newMemoryStore := by
    rw [store,exec_append,← reached]
    cases access <;> rfl
  have number : submissions (sections ++ access.toList) = server.holders.length := by
    rw [submissions,List.countP_append,← count]
    cases access with
    | none => rfl
    | some section_ => simp [submissions,quiet section_ rfl]
  refine ⟨⟨_,after,number.trans held.length_eq.symm⟩,?_,fun thread member key req holds => ?_,
    decided⟩
  · rw [held.length_eq]
    exact (held.map _).trans accounted.issued
  · obtain ⟨old,there,same,now⟩ := known thread member key req holds
    have stored := accounted.stored old there key req same
    rw [reached,now] at stored
    rw [after]
    exact origin_kept config sections _ (by omega) stored

theorem holds_start (job : Job) (now : Time) : (Thread.mk job now .write).holds = none := by
  rw [Thread.holds]
  cases job.submission <;> rfl

theorem Accounted.advance {server : Server} (accounted : Accounted config server)
    (room : server.holders.length + 1 < 2^64) {index : Nat} {thread : Thread}
    (found : server.threads[index]? = some thread) :
    Accounted config (server.step config (.advance index)) := by
  obtain ⟨sections,reached,count⟩ := accounted.reached
  have trail := exec_trail config sections (by omega)
  rw [← reached] at trail
  have inside := List.mem_of_getElem? found
  have store := step_store_elim config server (.advance index)
  rw [Server.access_advance found] at store
  have threads : (server.step config (.advance index)).threads =
      server.threads.set index (thread.advance config server.store).1 := by
    simp only [Server.step,found]
  have perm := filterMap_set_perm Thread.holds server.threads index thread
    (thread.advance config server.store).1 found
  rw [← threads] at perm
  have present (key : Bytes) (req : SubmitTaskRequest) (holds : thread.holds = some (key,req)) :
      key ∈ server.store.tasks.keys := by
    obtain ⟨task,here,_⟩ := accounted.stored thread inside key req holds
    exact (Table.mem_keys_iff _ _).mpr ⟨task,here⟩
  have decided : ∀ other ∈ (server.step config (.advance index)).threads, other.Decided := by
    intro other member
    rw [threads] at member
    rcases List.mem_or_eq_of_mem_set member with old | rfl
    · exact accounted.decided other old
    · exact advance_decided config trail.wellFormed present (accounted.decided thread inside)
  rcases advance_holds config trail.wellFormed present with ⟨same,quiet⟩ |
    ⟨req,before,access,submits,holds⟩
  · rw [same,List.perm_append_left_iff] at perm
    refine accounted.moved (by omega) store quiet perm (fun other member key req holds => ?_) decided
    rw [threads] at member
    rcases List.mem_or_eq_of_mem_set member with old | rfl
    · exact ⟨other,old,holds,rfl⟩
    · exact ⟨thread,inside,same ▸ holds,(advance_fixed config).2.symm⟩
  · rw [access] at store
    rw [before,holds,Option.toList_none,Option.toList_some,List.nil_append] at perm
    have after : (server.step config (.advance index)).store =
        Scheduler.exec config (sections ++ [.submit req thread.now]) newMemoryStore := by
      rw [store,exec_append,← reached]
      rfl
    have number : submissions (sections ++ [.submit req thread.now]) = server.holders.length + 1 := by
      rw [submissions,List.countP_append,List.countP_cons_of_pos submits]
      exact congrArg (· + 1) count
    have length : (server.step config (.advance index)).holders.length = server.holders.length +
      1 := perm.length_eq
    refine ⟨⟨_,after,number.trans length.symm⟩,?_,fun other member key request held => ?_,decided⟩
    · rw [length]
      refine (perm.map Prod.fst).trans (((accounted.issued.cons _).trans ?_))
      rw [next_number (trail.counter.trans count)]
      exact (issuedIDs_succ _).symm
    · rw [threads] at member
      rcases List.mem_or_eq_of_mem_set member with old | rfl
      · have stored := accounted.stored other old key request held
        rw [reached] at stored
        rw [after]
        exact origin_kept config sections _ (by omega) stored
      · cases Option.some.inj (holds.symm.trans held)
        rw [store,(advance_fixed config).2]
        exact ⟨_,submitted_stored config server.store submits,.refl _⟩

theorem Accounted.step {server : Server} (accounted : Accounted config server)
    (room : server.holders.length + 1 < 2^64) (event : ServerEvent) :
    Accounted config (server.step config event) := by
  cases event with
  | elapse duration => exact ⟨accounted.reached,accounted.issued,accounted.stored,accounted.decided⟩
  | start job =>
    have same : (server.step config (.start job)).holders = server.holders := by
      simp [Server.holders,Server.step,List.filterMap_append,holds_start]
    refine accounted.moved (by omega) (step_store_elim config server (.start job))
      (fun _ none => by cases none) (.of_eq same) ?_ ?_
    · intro thread member key req holds
      rcases List.mem_append.mp member with old | new
      · exact ⟨thread,old,holds,rfl⟩
      · cases List.mem_singleton.mp new
        rw [holds_start] at holds
        cases holds
    · intro thread member
      rcases List.mem_append.mp member with old | new
      · exact accounted.decided thread old
      · cases List.mem_singleton.mp new
        exact fun _ _ past => (past rfl).elim
  | advance index =>
    cases found : server.threads[index]? with
    | some thread => exact accounted.advance room found
    | none =>
      have same : server.step config (.advance index) = server := by simp only [Server.step,found]
      rw [same]
      exact accounted
  | observe observer =>
    refine accounted.moved (by omega) (step_store_elim config server (.observe observer)) ?_ (.refl _)
      (fun thread member key req holds => ⟨thread,member,holds,rfl⟩) accounted.decided
    intro section_ accesses
    cases observer <;> cases accesses <;> rfl

theorem step_threads (server : Server) (event : ServerEvent) :
    (server.step config event).threads.length ≤ server.threads.length + 1 := by
  cases event with
  | elapse | observe => exact Nat.le_succ _
  | start job => simp [Server.step]
  | advance index =>
    simp only [Server.step]
    split <;> simp

variable (config)

theorem accounted_run (clock : Time) (events : List ServerEvent) (bounded : events.length < 2^64) :
    Accounted config (Server.exec config events (.initial clock)) ∧
      (Server.exec config events (.initial clock)).threads.length ≤ events.length := by
  induction events using List.reverseRecOn with
  | nil =>
    refine ⟨⟨⟨[],rfl,rfl⟩,.refl _,?_,?_⟩,Nat.le_refl _⟩
    · intro thread member
      cases member
    · intro thread member
      cases member
  | append_singleton events event ih =>
    rw [List.length_append,List.length_singleton] at bounded ⊢
    obtain ⟨accounted,fewer⟩ := ih (by omega)
    have atMost := List.length_filterMap_le Thread.holds
      (Server.exec config events (.initial clock)).threads
    rw [Server.exec,List.foldl_append]
    refine ⟨accounted.step (lt_of_le_of_lt (Nat.succ_le_succ (atMost.trans fewer)) bounded) event,?_⟩
    exact (step_threads _ event).trans (Nat.succ_le_succ fewer)

/-- However calls overlap, every submission past its write has an identifier of its own just if
it is valid; these are exactly the identifiers of the store, and each names the task as it was
submitted. -/
theorem overlapping_submissions (clock : Time) (events : List ServerEvent)
    (bounded : events.length < 2^64) :
    let final := Server.exec config events (.initial clock)
    (final.store.tasks.keys).Perm (final.holders.map Prod.fst) ∧
    (final.holders.map Prod.fst).Nodup ∧
    (∀ thread ∈ final.threads, ∀ req, thread.job.submission = some req → thread.stage ≠ .write →
      (thread.holds.isSome = true ↔ req.model ≠ [] ∧ req.operation ≠ [])) ∧
    ∀ thread ∈ final.threads, ∀ key req, thread.holds = some (key,req) →
      ∃ task, final.store.tasks.lookup key = some task ∧
        (submitted key req thread.now).SameOrigin task := by
  intro final
  obtain ⟨accounted,fewer⟩ := accounted_run config clock events bounded
  obtain ⟨sections,reached,count⟩ := accounted.reached
  have atMost := List.length_filterMap_le Thread.holds final.threads
  have keys := exec_taskKeys config sections
    (by rw [count]; exact lt_of_le_of_lt (atMost.trans fewer) bounded)
  rw [← reached,count] at keys
  have same := keys.trans accounted.issued.symm
  exact ⟨same,same.nodup_iff.mp final.store.tasks.nodupKeys,accounted.decided,accounted.stored⟩

/-- Two submissions whose sections alternate. -/
def alternating : List ServerEvent :=
  [.start (.call (.submit ⟨utf8 "m",utf8 "infer",[],none⟩)),.elapse 5,
    .start (.call (.submit ⟨utf8 "n",utf8 "infer",[],none⟩)),.advance 1,.advance 0,.advance 1,
      .advance 0,.advance 1,
    .advance 0]

theorem overlapping_submissions_alternating :
    let final := Server.exec defaultConfig alternating (.initial 1)
    final.holders.map Prod.fst = [formatTaskID 2,formatTaskID 1] ∧
      final.store.tasks.keys.Perm [formatTaskID 2,formatTaskID 1] := by
  intro final
  have two : final.holders.map Prod.fst = [formatTaskID 2,formatTaskID 1] := by decide +kernel
  refine ⟨two,?_⟩
  rw [← two]
  exact (overlapping_submissions defaultConfig 1 alternating (by decide)).1

end Runs

end RdmaPlatform.Scheduler
