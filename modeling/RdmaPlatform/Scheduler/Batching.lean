import RdmaPlatform.Scheduler.Placement

/-! Dispatching after every new task or once after all of them. A dispatch that ends
because no node is free leaves nothing to do for the next one at the same instant, and
a dispatch that placed all its tasks hands the later tasks to the next one in order. -/
namespace RdmaPlatform.Scheduler
open Library

/-- A task enters the store. -/
def enqueue (state : State) (task : Task) : State := {state with tasks := state.tasks.put task.id task}

/-- What `Submit` writes is its task, behind a counter. -/
theorem submitWrite_eq_enqueue (req : SubmitTaskRequest) (now : Time) (state : State) :
    (submitWrite req now state).2 = enqueue {state with taskCounter := state.taskCounter + 1}
      (submitted (submitWrite req now state).1 req now) := rfl

def dispatchEach (config : Config) (now : Time) (tasks : List Task) (state : State) : State :=
  tasks.foldl (fun state task => dispatchPending config now (enqueue state task)) state

def dispatchOnce (config : Config) (now : Time) (tasks : List Task) (state : State) : State :=
  dispatchPending config now (tasks.foldl enqueue state)

/-- New pending tasks, in the order of dispatch and behind all that is pending. -/
structure Arrivals (state : State) (tasks : List Task) : Prop where
  pending : ∀ task ∈ tasks, task.status = .pending
  fresh : ∀ task ∈ tasks, state.tasks.lookup task.id = none
  distinct : (tasks.map (·.id)).Nodup
  increasing : tasks.Pairwise earlier
  later : ∀ task ∈ tasks, ∀ id other, state.tasks.lookup id = some other →
    other.status = .pending → earlier other task

def Keyed (state : State) : Prop := ∀ id task, state.tasks.lookup id = some task → task.id = id

theorem enqueue_keyed {state : State} (keyed : Keyed state) (task : Task) :
    Keyed (enqueue state task) :=
  Table.put_forall _ _ _ (fun id (task : Task) => task.id = id) keyed rfl

theorem Arrivals.tail {state : State} {task : Task} {rest : List Task}
    (arrivals : Arrivals state (task::rest)) :
    Arrivals (enqueue state task) rest := by
  have ids : (task.id::rest.map (·.id)).Nodup := arrivals.distinct
  obtain ⟨apart,distinct⟩ := List.nodup_cons.mp ids
  obtain ⟨first,increasing⟩ := List.pairwise_cons.mp arrivals.increasing
  refine ⟨fun other member => arrivals.pending other (by simp [member]),?_,distinct,increasing,?_⟩
  · intro other member
    have different : other.id ≠ task.id := by
      intro same
      apply apart
      rw [← same]
      exact List.mem_map_of_mem member
    rw [enqueue,Table.lookup_put,if_neg different]
    exact arrivals.fresh other (by simp [member])
  · intro other member
    apply Table.put_forall _ _ _ (fun _ (old : Task) => old.status = .pending → earlier old other)
    · exact fun id old found => arrivals.later other (by simp [member]) id old found
    · exact fun _ => first other member

section Commute

theorem selectNodeLocked_enqueue (config : Config) (state : State) (task : Task) :
    selectNodeLocked config (enqueue state task) =
      (selectNodeLocked config state).map (fun chosen => (chosen.1,enqueue chosen.2 task)) := by
  -- The selection reads the nodes, their order and the index, which a new task leaves alone.
  have order : (enqueue state task).nodeOrder = state.nodeOrder := rfl
  have index : (enqueue state task).nextNodeIndex = state.nextNodeIndex := rfl
  have scanned : scan config.effectiveStrategy (enqueue state task) = scan config.effectiveStrategy
    state := rfl
  have read : nodeAt (enqueue state task) = nodeAt state := rfl
  simp only [selectNodeLocked,order,index,scanned,read]
  generalize (List.range state.nodeOrder.length).foldl _ none = best
  split
  next => rfl
  next =>
    cases best with
    | none => rfl
    | some found =>
      simp only [Option.map_map]
      rfl

theorem assignTaskLocked_enqueue {state : State} {task : Task}
    (fresh : state.tasks.lookup task.id = none) (config : Config) (now : Time) {key : Bytes}
    (different : key ≠ task.id) :
    assignTaskLocked config (enqueue state task) key now =
      (assignTaskLocked config state key now).map (fun next => enqueue next task) := by
  have same : (enqueue state task).tasks.lookup key = state.tasks.lookup key := by
    rw [enqueue,Table.lookup_put,if_neg different]
  simp only [assignTaskLocked,same,selectNodeLocked_enqueue]
  cases found : state.tasks.lookup key with
  | none => rfl
  | some other =>
    simp only [Option.bind_eq_bind,Option.bind_some]
    split
    next => rfl
    next =>
      cases chosen : selectNodeLocked config state with
      | none => rfl
      | some pair =>
        obtain ⟨nodeKey,selected⟩ := pair
        obtain ⟨node,index,stored,_,_,rfl⟩ := selectNodeLocked_sound _ _ _ _ chosen
        have commutes := Table.modify_put_fresh state.tasks task (assigned node now) fresh
          different.symm
        simp only [Option.map_some,Option.bind_some,enqueue,stored,commutes,Option.pure_def]

theorem assignAll_lookup (config : Config) (now : Time) {keys : List Bytes} {id : Bytes}
    (outside : id ∉ keys) (state : State) :
    (assignAll config now keys state).tasks.lookup id = state.tasks.lookup id := by
  apply assignAll_invariant (fun reached => reached.tasks.lookup id = state.tasks.lookup id) _ state rfl
  intro key member reached next same taken
  have different : id ≠ key := fun equal => outside (equal ▸ member)
  exact (assign_lookup different taken).trans same

theorem assignAll_keyed (config : Config) (now : Time) (keys : List Bytes) (state : State)
    (keyed : Keyed state) :
    Keyed (assignAll config now keys state) := by
  refine assignAll_invariant Keyed ?_ state keyed
  intro key _ reached next keyed taken
  obtain ⟨_,_,_,_,_,_,_,_,rfl⟩ := assignTaskLocked_selects taken
  exact Table.modify_forall _ _ _ (fun id (task : Task) => task.id = id) keyed (fun _ _ same => same)

theorem assignAll_enqueue {state : State} {task : Task} (fresh : state.tasks.lookup task.id = none)
    (config : Config) (now : Time) {keys : List Bytes} (outside : task.id ∉ keys) :
    assignAll config now keys (enqueue state task) =
      enqueue (assignAll config now keys state) task := by
  induction keys generalizing state with
  | nil => rfl
  | cons key rest ih =>
    simp only [List.mem_cons,not_or] at outside
    rw [assignAll,assignAll,assignTaskLocked_enqueue fresh config now (Ne.symm outside.1)]
    cases taken : assignTaskLocked config state key now with
    | none => rfl
    | some next => exact ih ((assign_lookup outside.1 taken).trans fresh) outside.2

end Commute

section Exhaustion

/-- Where no node is free, dispatching does nothing. -/
theorem assignAll_stuck {config : Config} {state : State}
    (full : selectNodeLocked config state = none) (now : Time) (keys : List Bytes) :
    assignAll config now keys state = state := by
  cases keys with
  | nil => rfl
  | cons key rest =>
    have refused : assignTaskLocked config state key now = none := by
      cases taken : assignTaskLocked config state key now with
      | none => rfl
      | some next =>
        obtain ⟨_,_,_,_,_,_,chosen,_⟩ := assignTaskLocked_selects taken
        rw [full] at chosen
        cases chosen
    rw [assignAll,refused]

theorem assignAll_append (config : Config) (now : Time) (first second : List Bytes) (state : State)
    (distinct : first.Nodup) (waiting : AllPending first state) :
    assignAll config now (first ++ second) state = assignAll config now second
      (assignAll config now first state) := by
  induction first generalizing state with
  | nil => rfl
  | cons key rest ih =>
    obtain ⟨apart,distinct⟩ := List.nodup_cons.mp distinct
    rw [List.cons_append,assignAll,assignAll]
    cases taken : assignTaskLocked config state key now with
    | none =>
      obtain ⟨task,found,pending⟩ := waiting key (by simp)
      exact (assignAll_stuck (selectNodeLocked_of_refused found pending taken) now second).symm
    | some next => exact ih next distinct (waiting.next apart taken)

/-- A dispatch ends because no node is free or because no offered task is pending. -/
theorem assignAll_exhausts (config : Config) (now : Time) (keys : List Bytes) (state : State)
    (distinct : keys.Nodup) (waiting : AllPending keys state) :
    selectNodeLocked config (assignAll config now keys state) = none ∨
      ∀ id ∈ keys, ∀ task, (assignAll config now keys state).tasks.lookup id = some task →
        task.status ≠ .pending := by
  induction keys generalizing state with
  | nil => exact .inr (by simp)
  | cons key rest ih =>
    obtain ⟨apart,distinct⟩ := List.nodup_cons.mp distinct
    rw [assignAll]
    cases taken : assignTaskLocked config state key now with
    | none =>
      obtain ⟨task,found,pending⟩ := waiting key (by simp)
      exact .inl (selectNodeLocked_of_refused found pending taken)
    | some next =>
      refine (ih next distinct (waiting.next apart taken)).imp_right ?_
      intro placed id member task found
      rcases List.mem_cons.mp member with same | inside
      · subst same
        rw [assignAll_lookup config now apart] at found
        obtain ⟨old,_,node,_,stored,_,_,_,rfl⟩ := assignTaskLocked_selects taken
        simp only [Table.lookup_modify_self,stored,Option.map_some,Option.some.injEq] at found
        rw [← found]
        simp [assigned]
      · exact placed id inside task found

theorem assignAll_stamped (config : Config) (now : Time) (keys : List Bytes) (state : State)
    (stamped : Stamped config now state) : Stamped config now (assignAll config now keys state) := by
  refine assignAll_invariant (Stamped config now) ?_ state stamped
  intro key _ reached next stamped taken
  obtain ⟨_,nodeKey,_,_,_,_,_,_,rfl⟩ := assignTaskLocked_selects taken
  exact assign_stamped config now reached nodeKey stamped

theorem refresh_of_stamped {config : Config} {now : Time} {state : State}
    (stamped : Stamped config now state) :
    refreshNodeStatesLocked config state now = state := by
  have same : state.nodes.mapValues (refreshed config.offlineAfter now) = state.nodes := by
    apply AList.ext
    refine (List.map_congr_left ?_).trans (List.map_id _)
    intro entry member
    have status := stamped entry.1 entry.2 ((Table.mem_entries_iff _ _ _).mp member)
    simp only [refreshed,← status]
    rfl
  rw [refreshNodeStatesLocked,same]

end Exhaustion

theorem pending_keys_enqueue {state : State} {task : Task} (keyed : Keyed state)
    (fresh : state.tasks.lookup task.id = none) (pending : task.status = .pending)
    (later : ∀ id other, state.tasks.lookup id = some other → other.status = .pending →
      earlier other task) :
    (pendingTasks (enqueue state task)).map (·.1) = (pendingTasks state).map (·.1) ++ [task.id] := by
  have ranked (left right : (_ : Bytes) × Task) :
      earlier left.2 right.2 ↔ rank left.2 < rank right.2 := earlier_iff left.2 right.2
  have entries : (enqueue state task).tasks.entries = ⟨task.id,task⟩::state.tasks.entries :=
    AList.entries_insert_of_notMem (AList.lookup_eq_none.mp fresh)
  have filtered : (enqueue state task).tasks.entries.filter (fun e => e.2.status = .pending) =
      ⟨task.id,task⟩::state.tasks.entries.filter (fun e => e.2.status = .pending) := by
    rw [entries,List.filter_cons_of_pos (by simp [pending])]
  have sorted := sorts_insertionSort _ ranked
    (state.tasks.entries.filter (fun e => e.2.status = .pending))
  -- The new task sorts behind all others, and tasks of equal rank are one.
  have appended : pendingTasks state ++ [⟨task.id,task⟩] = pendingTasks (enqueue state task) := by
    refine Sorts.eq_insertionSort (fun entry : (_ : Bytes) × Task => rank entry.2) ranked
      ⟨List.Perm.refl _,?_⟩ ?_ ?_
    · apply List.Pairwise.isChain
      refine List.pairwise_append.mpr ⟨(sorted.pairwise _ ranked).imp ?_,List.pairwise_singleton _ _,?_⟩
      · intro left right below
        rw [ranked]
        exact not_lt.mpr below
      · intro left member right same
        obtain ⟨found,waiting⟩ := (mem_pendingTasks state left.1 left.2).mp member
        rw [List.mem_singleton.mp same,ranked]
        exact not_lt.mpr ((earlier_iff _ _).mp (later left.1 left.2 found waiting)).le
    · rw [filtered]
      exact (List.perm_append_singleton _ _).trans (sorted.perm.cons _)
    · rintro ⟨id,left⟩ member ⟨id',right⟩ member' equal
      have found := (Table.mem_entries_iff _ _ _).mp (List.mem_of_mem_filter member)
      have found' := (Table.mem_entries_iff _ _ _).mp (List.mem_of_mem_filter member')
      have ids : left.id = right.id := congrArg (fun key : Lex (Time × Bytes) => (ofLex key).2) equal
      rw [enqueue_keyed keyed task id left found,enqueue_keyed keyed task id' right found'] at ids
      subst ids
      rw [Option.some.inj (found.symm.trans found')]
  rw [← appended,List.map_append]
  rfl

section Dispatch
variable (config : Config) (now : Time) (state : State)

theorem pending_allPending :
    AllPending ((pendingTasks state).map (·.1)) (refreshNodeStatesLocked config state now) :=
  fun id member => (mem_pending_keys state id).mp member

theorem dispatchPending_keyed (keyed : Keyed state) : Keyed (dispatchPending config now state) :=
  assignAll_keyed config now _ _ keyed

theorem dispatchPending_lookup {id : Bytes} (outside : id ∉ (pendingTasks state).map (·.1)) :
    (dispatchPending config now state).tasks.lookup id = state.tasks.lookup id :=
  assignAll_lookup config now outside _

/-- A second refresh at the same time finds nothing to do. -/
theorem refresh_dispatchPending :
    refreshNodeStatesLocked config (dispatchPending config now state) now =
      dispatchPending config now state :=
  refresh_of_stamped (assignAll_stamped config now _ _ (refresh_stamped config now state))

theorem dispatchPending_exhausts : selectNodeLocked config (dispatchPending config now state) = none ∨
    (pendingTasks (dispatchPending config now state)).map (·.1) = [] := by
  refine (assignAll_exhausts config now _ _ (pending_keys_nodup state)
    (pending_allPending config now state)).imp_right ?_
  intro placed
  apply List.eq_nil_iff_forall_not_mem.mpr
  intro id member
  obtain ⟨task,found,waits⟩ := (mem_pending_keys _ id).mp member
  by_cases offered : id ∈ (pendingTasks state).map (·.1)
  · exact placed id offered task found waits
  · rw [dispatchPending_lookup config now state offered] at found
    exact offered ((mem_pending_keys state id).mpr ⟨task,found,waits⟩)

variable {config now state} {task : Task} (fresh : state.tasks.lookup task.id = none)
include fresh

theorem pending_keys_outside : task.id ∉ (pendingTasks state).map (·.1) := by
  intro member
  obtain ⟨other,found,_⟩ := (mem_pending_keys state task.id).mp member
  rw [fresh] at found
  cases found

/-- All at once, the new task is offered last. -/
theorem dispatchPending_offers_last (keyed : Keyed state) (pending : task.status = .pending)
    (later : ∀ id other, state.tasks.lookup id = some other → other.status = .pending →
      earlier other task) :
    dispatchPending config now (enqueue state task) =
      assignAll config now [task.id] (enqueue (dispatchPending config now state) task) := by
  have outside := pending_keys_outside fresh
  have refreshed : (refreshNodeStatesLocked config state now).tasks.lookup task.id = none := fresh
  have waiting : AllPending ((pendingTasks state).map (·.1))
      (enqueue (refreshNodeStatesLocked config state now) task) := by
    intro id member
    have different : id ≠ task.id := fun same => outside (same ▸ member)
    obtain ⟨other,found,idle⟩ := pending_allPending config now state id member
    exact ⟨other,(Table.lookup_put _ _ _ _).trans ((if_neg different).trans found),idle⟩
  change assignAll config now ((pendingTasks (enqueue state task)).map (·.1))
    (enqueue (refreshNodeStatesLocked config state now) task) = _
  rw [pending_keys_enqueue keyed fresh pending later,assignAll_append _ _ _ _ _
    (pending_keys_nodup state) waiting,assignAll_enqueue refreshed config now outside]
  rfl

/-- A dispatch before a task arrives makes no difference to the dispatch after it. -/
theorem dispatchPending_enqueue (keyed : Keyed state) (pending : task.status = .pending)
    (later : ∀ id other, state.tasks.lookup id = some other → other.status = .pending →
      earlier other task) :
    dispatchPending config now (enqueue (dispatchPending config now state) task) =
      dispatchPending config now (enqueue state task) := by
  rw [dispatchPending_offers_last fresh keyed pending later]
  have exhausted := dispatchPending_exhausts config now state
  have settled := refresh_dispatchPending config now state
  have absent := (dispatchPending_lookup config now state (pending_keys_outside fresh)).trans fresh
  have keyed' := dispatchPending_keyed config now state keyed
  generalize dispatchPending config now state = done at *
  change assignAll config now ((pendingTasks (enqueue done task)).map (·.1))
    (enqueue (refreshNodeStatesLocked config done now) task) = _
  rw [settled]
  rcases exhausted with full | none_
  · have full' : selectNodeLocked config (enqueue done task) = none := by
      rw [selectNodeLocked_enqueue,full]
      rfl
    rw [assignAll_stuck full',assignAll_stuck full']
  · have idle (id : Bytes) (other : Task) (found : done.tasks.lookup id = some other) :
        other.status ≠ .pending := by
      intro waits
      have member := (mem_pending_keys done id).mpr ⟨other,found,waits⟩
      rw [none_] at member
      cases member
    rw [pending_keys_enqueue keyed' absent pending
      (fun id other found waits => absurd waits (idle id other found)),none_]
    rfl

end Dispatch

theorem foldl_dispatch (config : Config) (now : Time) (tasks : List Task) (state : State)
    (keyed : Keyed state) (arrivals : Arrivals state tasks) :
    dispatchEach config now tasks (dispatchPending config now state) =
      dispatchOnce config now tasks state := by
  induction tasks generalizing state with
  | nil => rfl
  | cons task rest ih =>
    have earlier : dispatchPending config now (enqueue (dispatchPending config now state) task) =
        dispatchPending config now (enqueue state task) :=
      dispatchPending_enqueue (arrivals.fresh task (by simp)) keyed (arrivals.pending task (by simp))
        (arrivals.later task (by simp))
    rw [dispatchEach,List.foldl_cons,earlier]
    exact ih (enqueue state task) (enqueue_keyed keyed task) arrivals.tail

/-- Dispatching after each of some new tasks ends in the same state as dispatching once
after all of them. -/
theorem dispatch_each_eq_once (config : Config) (sections : List Section) (now : Time)
    (tasks : List Task) (arrivals : Arrivals (exec config sections newMemoryStore) tasks)
    (nonempty : tasks ≠ []) :
    dispatchEach config now tasks (exec config sections newMemoryStore) =
      dispatchOnce config now tasks (exec config sections newMemoryStore) := by
  have keyed : Keyed (exec config sections newMemoryStore) :=
    fun id task found => ((exec_wellFormed config sections).task id task found).key
  cases tasks with
  | nil => exact absurd rfl nonempty
  | cons task rest => exact foldl_dispatch config now rest _ (enqueue_keyed keyed task) arrivals.tail

/-- A worker with one slot and a task that is still to be dispatched. -/
def waitingTask : List Section :=
  [.register ⟨utf8 "worker-1",utf8 "127.0.0.1:9001",1,[]⟩ 1,
    .submit ⟨utf8 "llama",utf8 "generate",utf8 "hello",none⟩ 2]

def arriving (id : Bytes) : Task :=
  submitted id ⟨utf8 "llama",utf8 "generate",utf8 "hello",none⟩ 3

theorem dispatch_each_eq_once_backlog :
    dispatchEach defaultConfig 4 [arriving (utf8 "task-000002"),arriving (utf8 "task-000003")]
        (exec defaultConfig waitingTask newMemoryStore) =
      dispatchOnce defaultConfig 4 [arriving (utf8 "task-000002"),arriving (utf8 "task-000003")]
        (exec defaultConfig waitingTask newMemoryStore) := by
  refine dispatch_each_eq_once defaultConfig waitingTask 4 _ ⟨by decide,by decide,by decide,
    by decide,?_⟩ (by simp)
  intro task member id other found _
  have behind : ∀ other ∈ (exec defaultConfig waitingTask newMemoryStore).tasks.values,
      ∀ task ∈ [arriving (utf8 "task-000002"),arriving (utf8 "task-000003")],
        earlier other task := by decide
  exact behind other ((Table.mem_values_iff _ _).mpr ⟨id,found⟩) task member

/-- Without a new task the one dispatch of the batch still serves the backlog. -/
theorem no_arrival_differs :
    ¬ ∀ (config : Config) (sections : List Section) (now : Time) (tasks : List Task),
      Arrivals (exec config sections newMemoryStore) tasks →
      dispatchEach config now tasks (exec config sections newMemoryStore) =
        dispatchOnce config now tasks (exec config sections newMemoryStore) := by
  intro same
  have idle := same defaultConfig waitingTask 4 [] ⟨by simp,by simp,by simp,by simp,by simp⟩
  have statuses := congrArg (fun state => state.tasks.values.map (·.status)) idle
  exact absurd statuses (by decide)

end RdmaPlatform.Scheduler
