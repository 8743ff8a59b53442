import RdmaPlatform.Scheduler.Iteration
import RdmaPlatform.Scheduler.Accounting

/-! The assignment stream of one worker. Each poll sends the running tasks of the
worker that are not in the set of the stream yet and adds them to it. The store may
change in any way between two polls; what the stream has sent by the end of a poll is
what any poll so far has seen, less what the set held when the stream began. -/
namespace RdmaPlatform.Scheduler.Grpc
open Library

/-- The tasks that `sendNew` sends. -/
def newTasks : List Task → List Bytes → List Task
  | [], _ => []
  | task::rest, sent =>
    if task.id ∈ sent then newTasks rest sent else task::newTasks rest (task.id::sent)

/-- The tasks that the successive polls send, by poll. -/
def watchBatches (workerID : Bytes) : List State → List Bytes → List (List Task)
  | [], _ => []
  | state::rest, sent =>
    newTasks (runningAssignments workerID state) sent::
      watchBatches workerID rest (sendNew (runningAssignments workerID state) sent).2

/-- The set of a stream before its first poll. -/
def initialSent (workerID : Bytes) (resumeUnacked : Bool) (initial : State) : List Bytes :=
  if resumeUnacked then [] else (runningAssignments workerID initial).map (·.id)

def sentIDs (batches : List (List Task)) : List Bytes := batches.flatten.map (·.id)

theorem mem_sentIDs_of_take {batches : List (List Task)} {count : Nat} {id : Bytes}
    (member : id ∈ sentIDs (batches.take count)) : id ∈ sentIDs batches := by
  obtain ⟨task,inside,rfl⟩ := List.mem_map.mp member
  obtain ⟨batch,listed,held⟩ := List.mem_flatten.mp inside
  exact List.mem_map_of_mem (List.mem_flatten.mpr ⟨batch,List.mem_of_mem_take listed,held⟩)

section Poll

theorem sendNew_fst (tasks : List Task) (sent : List Bytes) :
    (sendNew tasks sent).1 = (newTasks tasks sent).map toTaskAssignment := by
  induction tasks generalizing sent with
  | nil => rfl
  | cons task rest ih =>
    rw [sendNew,newTasks]
    split
    next => exact ih sent
    next => simp only [List.map_cons,ih]

theorem mem_sendNew_snd (tasks : List Task) (sent : List Bytes) (id : Bytes) :
    id ∈ (sendNew tasks sent).2 ↔ id ∈ sent ∨ id ∈ (newTasks tasks sent).map (·.id) := by
  induction tasks generalizing sent with
  | nil => simp [sendNew,newTasks]
  | cons task rest ih =>
    rw [sendNew,newTasks]
    split
    next => exact ih sent
    next =>
      simp only [ih,List.map_cons,List.mem_cons]
      rw [or_assoc,or_left_comm]

theorem newTasks_sublist (tasks : List Task) (sent : List Bytes) :
    (newTasks tasks sent).Sublist tasks := by
  induction tasks generalizing sent with
  | nil => exact .slnil
  | cons task rest ih =>
    rw [newTasks]
    split
    next => exact (ih sent).cons _
    next => exact (ih _).cons_cons _

theorem newTasks_fresh (tasks : List Task) (sent : List Bytes) :
    (∀ task ∈ newTasks tasks sent, task.id ∉ sent) ∧ ((newTasks tasks sent).map (·.id)).Nodup := by
  induction tasks generalizing sent with
  | nil => simp [newTasks]
  | cons task rest ih =>
    rw [newTasks]
    split
    next => exact ih sent
    next unsent =>
      obtain ⟨fresh,distinct⟩ := ih (task.id::sent)
      refine ⟨?_,?_⟩
      · intro other member
        rcases List.mem_cons.mp member with rfl | later
        · exact unsent
        · exact fun known => fresh other later (List.mem_cons_of_mem _ known)
      · refine List.nodup_cons.mpr ⟨?_,distinct⟩
        intro repeated
        obtain ⟨other,later,same⟩ := List.mem_map.mp repeated
        exact fresh other later (by rw [same]; exact List.mem_cons_self)

theorem newTasks_covers (tasks : List Task) (sent : List Bytes) {task : Task} (member : task ∈ tasks) :
    task.id ∈ sent ∨ task.id ∈ (newTasks tasks sent).map (·.id) := by
  induction tasks generalizing sent with
  | nil => cases member
  | cons first rest ih =>
    rw [newTasks]
    rcases List.mem_cons.mp member with rfl | later
    · split
      next known => exact .inl known
      next => exact .inr (by simp)
    · split
      next => exact ih sent later
      next =>
        rcases ih (first.id::sent) later with known | new
        · rcases List.mem_cons.mp known with same | old
          · exact .inr (by simp [same])
          · exact .inl old
        · exact .inr (List.mem_cons_of_mem _ new)

theorem mem_runningAssignments (workerID : Bytes) (state : State) (task : Task) :
    task ∈ runningAssignments workerID state ↔
      ∃ stored ∈ state.tasks.values, RunsOn workerID stored ∧ task = cloneTask stored := by
  simp only [runningAssignments,List.mem_insertionSort,List.mem_map,List.mem_filter,
    decide_eq_true_eq,RunsOn]
  constructor
  · rintro ⟨stored,⟨inside,owner,running⟩,rfl⟩
    exact ⟨stored,inside,⟨running,owner⟩,rfl⟩
  · rintro ⟨stored,inside,⟨running,owner⟩,rfl⟩
    exact ⟨stored,⟨inside,owner,running⟩,rfl⟩

/-- A poll sends its tasks by start time and identifier. -/
theorem newTasks_ordered (workerID : Bytes) (state : State) (sent : List Bytes) :
    (newTasks (runningAssignments workerID state) sent).Pairwise startsBefore := by
  have sorted := (sorts_insertionSort _ startsBefore_iff ((state.tasks.values.filter
    (fun task => task.assignedWorker = workerID ∧ task.status = .running)).map cloneTask)).pairwise
      _ startsBefore_iff
  have distinct := List.pairwise_map.mp (newTasks_fresh (runningAssignments workerID state) sent).2
  refine ((sorted.sublist (newTasks_sublist _ sent)).and distinct).imp ?_
  rintro left right ⟨ordered,apart⟩
  rw [startsBefore_iff]
  exact lt_of_le_of_ne ordered (fun same => apart (startRank_id same))

end Poll

section Polls

theorem watchPolls_eq (workerID : Bytes) (polls : List State) (sent : List Bytes) :
    watchPolls workerID polls sent = (watchBatches workerID polls sent).flatten.map
      toTaskAssignment := by
  induction polls generalizing sent with
  | nil => rfl
  | cons state rest ih =>
    simp only [watchPolls,watchBatches,List.flatten_cons,List.map_append,sendNew_fst,ih]

theorem length_watchBatches (workerID : Bytes) (polls : List State) (sent : List Bytes) :
    (watchBatches workerID polls sent).length = polls.length := by
  induction polls generalizing sent with
  | nil => rfl
  | cons state rest ih => simp [watchBatches,ih]

theorem getElem?_watchBatches {workerID : Bytes} {polls : List State} {sent : List Bytes}
    {index : Nat} {state : State} {batch : List Task} (polled : polls[index]? = some state)
    (sends : (watchBatches workerID polls sent)[index]? = some batch) :
    ∃ known, batch = newTasks (runningAssignments workerID state) known := by
  induction polls generalizing sent index with
  | nil => cases polled
  | cons first rest ih =>
    cases index with
    | zero =>
      cases polled
      cases sends
      exact ⟨sent,rfl⟩
    | succ index => exact ih polled sends

/-- Nothing is sent twice, and nothing that was in the set at the start. -/
theorem watchBatches_fresh (workerID : Bytes) (polls : List State) (sent : List Bytes) :
    (∀ id ∈ sentIDs (watchBatches workerID polls sent), id ∉ sent) ∧
      (sentIDs (watchBatches workerID polls sent)).Nodup := by
  induction polls generalizing sent with
  | nil => simp [watchBatches,sentIDs]
  | cons state rest ih =>
    obtain ⟨fresh,distinct⟩ := newTasks_fresh (runningAssignments workerID state) sent
    obtain ⟨later,distinct'⟩ := ih (sendNew (runningAssignments workerID state) sent).2
    simp only [mem_sendNew_snd,not_or] at later
    simp only [watchBatches,sentIDs,List.flatten_cons,List.map_append] at later distinct' ⊢
    refine ⟨?_,List.nodup_append.mpr ⟨distinct,distinct',?_⟩⟩
    · intro id member
      rcases List.mem_append.mp member with now | after
      · obtain ⟨task,inside,rfl⟩ := List.mem_map.mp now
        exact fresh task inside
      · exact (later id after).1
    · intro id now other after same
      rw [← same] at after
      exact (later id after).2 now

/-- What a poll sees is sent by its end, unless it was in the set at the start. -/
theorem watchBatches_covers {workerID : Bytes} {polls : List State} (sent : List Bytes)
    {index : Nat} {state : State} {task : Task} (polled : polls[index]? = some state)
    (seen : task ∈ runningAssignments workerID state) :
    task.id ∈ sent ∨ task.id ∈ sentIDs ((watchBatches workerID polls sent).take (index + 1)) := by
  induction polls generalizing sent index with
  | nil => cases polled
  | cons first rest ih =>
    simp only [watchBatches,List.take_succ_cons,sentIDs,List.flatten_cons,List.map_append,
      List.mem_append]
    cases index with
    | zero =>
      cases polled
      exact (newTasks_covers _ sent seen).imp_right .inl
    | succ index =>
      rcases ih (sendNew (runningAssignments workerID first) sent).2 polled with known | after
      · exact ((mem_sendNew_snd _ _ _).mp known).imp_right .inl
      · exact .inr (.inr after)

end Polls

theorem mem_initialSent (workerID : Bytes) (resumeUnacked : Bool) (initial : State) (id : Bytes) :
    id ∈ initialSent workerID resumeUnacked initial ↔
      resumeUnacked = false ∧ ∃ task ∈ initial.tasks.values, RunsOn workerID task ∧
        task.id = id := by
  cases resumeUnacked with
  | true => simp [initialSent]
  | false =>
    simp only [initialSent,Bool.false_eq_true,if_false,List.mem_map,mem_runningAssignments,true_and]
    constructor
    · rintro ⟨_,⟨stored,inside,runs,rfl⟩,rfl⟩
      exact ⟨stored,inside,runs,rfl⟩
    · rintro ⟨stored,inside,runs,rfl⟩
      exact ⟨_,⟨stored,inside,runs,rfl⟩,rfl⟩

theorem watchAssignments_eq {workerID : Bytes} {resumeUnacked : Bool} {opened initial : State}
    {polls : List State} {messages : List TaskAssignment}
    (streamed : watchAssignments workerID resumeUnacked opened initial polls = .ok messages) :
    messages = (watchBatches workerID polls (initialSent workerID resumeUnacked initial)).flatten.map
      toTaskAssignment := by
  unfold watchAssignments at streamed
  split at streamed
  next => cases streamed
  next =>
    split at streamed
    next => cases streamed
    next =>
      cases streamed
      exact watchPolls_eq workerID polls _

/-- By the end of the poll that finds it, a task was sent unless the stream began with it. -/
theorem sent_iff {workerID : Bytes} {resumeUnacked : Bool} {initial state : State}
    {polls : List State} {index : Nat} {task : Task} (polled : polls[index]? = some state)
    (inside : task ∈ state.tasks.values) (runs : RunsOn workerID task) :
    task.id ∈ sentIDs ((watchBatches workerID polls
      (initialSent workerID resumeUnacked initial)).take (index + 1)) ↔ resumeUnacked = true ∨
      ∀ early ∈ initial.tasks.values, RunsOn workerID early → early.id ≠ task.id := by
  have seen : cloneTask task ∈ runningAssignments workerID state :=
    (mem_runningAssignments _ _ _).mpr ⟨task,inside,runs,rfl⟩
  have covered := watchBatches_covers (initialSent workerID resumeUnacked initial) polled seen
  change task.id ∈ _ ∨ task.id ∈ _ at covered
  have fresh := (watchBatches_fresh workerID polls (initialSent workerID resumeUnacked initial)).1
  have early := mem_initialSent workerID resumeUnacked initial task.id
  constructor
  · intro member
    have unknown := fresh task.id (mem_sentIDs_of_take member)
    rw [early] at unknown
    cases resumeUnacked with
    | true => exact .inl rfl
    | false => exact .inr (fun other held runs same => unknown ⟨rfl,other,held,runs,same⟩)
  · intro allowed
    refine covered.resolve_left ?_
    rw [early]
    rintro ⟨fromNow,other,held,runs,same⟩
    rcases allowed with resumed | apart
    · rw [fromNow] at resumed
      cases resumed
    · exact apart other held runs same

/-- Over whatever states its polls find, a stream sends no task twice. Each poll sends,
in the order of start time and identifier, tasks that run on the worker, and by its end
every task it found there has been sent, except those that a stream without
`resume_unacked` found at its initial read. -/
theorem assignment_stream_exactly_once (workerID : Bytes) (resumeUnacked : Bool)
    (opened initial : State) (polls : List State) (messages : List TaskAssignment)
    (streamed : watchAssignments workerID resumeUnacked opened initial polls = .ok messages) :
    let batches := watchBatches workerID polls (initialSent workerID resumeUnacked initial)
    messages = batches.flatten.map toTaskAssignment ∧ batches.length = polls.length ∧
    (messages.map (·.taskID)).Nodup ∧
    ∀ index state batch, polls[index]? = some state → batches[index]? = some batch →
      (∀ task ∈ batch, ∃ stored ∈ state.tasks.values, RunsOn workerID stored ∧
        task = cloneTask stored) ∧
      (∀ task ∈ state.tasks.values, RunsOn workerID task →
        (task.id ∈ sentIDs (batches.take (index + 1)) ↔
          resumeUnacked = true ∨ ∀ early ∈ initial.tasks.values, RunsOn workerID early →
            early.id ≠ task.id)) ∧
      batch.Pairwise startsBefore := by
  intro batches
  have sends : messages = batches.flatten.map toTaskAssignment := watchAssignments_eq streamed
  refine ⟨sends,length_watchBatches _ _ _,?_,?_⟩
  · rw [sends,List.map_map]
    exact (watchBatches_fresh workerID polls (initialSent workerID resumeUnacked initial)).2
  · intro index state batch polled sent
    obtain ⟨known,rfl⟩ := getElem?_watchBatches polled sent
    refine ⟨?_,fun task inside runs => sent_iff polled inside runs,
      newTasks_ordered workerID state known⟩
    intro task member
    exact (mem_runningAssignments _ _ _).mp ((newTasks_sublist _ _).mem member)

/-- A worker of two slots, which are taken one after the other. -/
def slotsTaken (count : Nat) : State :=
  exec defaultConfig (.register ⟨utf8 "worker-1",utf8 "127.0.0.1:9001",2,[]⟩ 1::
    (List.replicate count [.submit ⟨utf8 "llama",utf8 "generate",utf8 "hello",none⟩ 2,
      .dispatchPending 2]).flatten)
    newMemoryStore

theorem assignment_stream_exactly_once_twoSlots :
    ∃ messages, watchAssignments (utf8 "worker-1") false (slotsTaken 0) (slotsTaken 0)
        [slotsTaken 1,slotsTaken 1,slotsTaken 2] = .ok messages ∧
      messages.map (·.taskID) = [utf8 "task-000001",utf8 "task-000002"] ∧
        (messages.map (·.taskID)).Nodup :=
  ⟨_,rfl,by decide,(assignment_stream_exactly_once (utf8 "worker-1") false (slotsTaken 0) (slotsTaken 0)
    [slotsTaken 1,slotsTaken 1,slotsTaken 2] _ rfl).2.2.1⟩

end RdmaPlatform.Scheduler.Grpc
