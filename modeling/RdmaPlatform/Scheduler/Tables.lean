import RdmaPlatform.Scheduler.Lifecycle

/-! The task table and the node table over whole runs: which keys they hold, that
entries only come in, and what is never rewritten. -/
namespace RdmaPlatform.Scheduler
open Library

section Tasks

def issuedIDs (count : Nat) : List Bytes :=
  (List.range count).map (fun index => formatTaskID (.ofNat (index + 1)))

theorem issuedIDs_succ (count : Nat) :
    (issuedIDs (count + 1)).Perm (formatTaskID (.ofNat (count + 1))::issuedIDs count) := by
  rw [issuedIDs,List.range_succ,List.map_append]
  exact List.perm_append_singleton _ _

private theorem change_taskKeys (config : Config) (step : Section) (state next : State)
    (quiet : step.submits = false) (change : Change config step state next) :
    next.tasks.keys = state.tasks.keys := by
  cases change with
  | register req now => simp
  | submit req now _ valid => simp_all [Section.submits]
  | heartbeat | refresh => rfl
  | release | complete | assign => exact Table.keys_modify _ _ _

/-- A run that issues `n` identifiers has the first `n` of them as its task keys. -/
theorem next_number {state : State} {count : Nat} (counted : state.taskCounter.toNat = count) :
    state.taskCounter + 1 = .ofNat (count + 1) := by
  apply UInt64.toNat_inj.mp
  rw [UInt64.toNat_add,UInt64.toNat_one,UInt64.toNat_ofNat',counted]

theorem exec_taskKeys (config : Config) (sections : List Section)
    (bound : submissions sections < 2^64) :
    (exec config sections newMemoryStore).tasks.keys.Perm (issuedIDs (submissions sections)) := by
  induction sections using List.reverseRecOn with
  | nil => exact .refl _
  | append_singleton sections step ih =>
    simp only [submissions,List.countP_append,List.countP_singleton] at bound ⊢
    have earlier := ih (by simp only [submissions]; omega)
    have trail := exec_trail config sections (by simp only [submissions]; omega)
    rw [exec_append]
    change (apply config (exec config sections newMemoryStore) step).tasks.keys.Perm _
    generalize exec config sections newMemoryStore = state at earlier trail
    cases quiet : step.submits with
    | false =>
      have same := apply_invariant config (fun s => s.tasks.keys = state.tasks.keys) step state rfl
        (fun state next before change => (change_taskKeys config step state next quiet change).trans
          before)
      rw [same]
      exact earlier
    | true =>
      cases step with
      | submit req now =>
        rw [quiet] at bound
        have fresh : Fresh state := by
          apply fresh_of_issued state trail.issued
          rw [trail.counter]
          exact bound
        rw [submit_apply config state req now quiet,submitWrite,Table.keys_put_fresh _ _ _ fresh,
          next_number trail.counter]
        exact (earlier.cons _).trans (issuedIDs_succ _).symm
      | register | heartbeat | complete | dispatchPending | refreshNodeStates | refresh
      | overview => cases quiet

/-- What no operation rewrites. -/
structure Task.SameOrigin (earlier later : Task) : Prop where
  id : later.id = earlier.id
  model : later.model = earlier.model
  operation : later.operation = earlier.operation
  payloadRef : later.payloadRef = earlier.payloadRef
  metadata : later.metadata = earlier.metadata
  createdAt : later.createdAt = earlier.createdAt

theorem Task.SameOrigin.refl (task : Task) : task.SameOrigin task := ⟨rfl,rfl,rfl,rfl,rfl,rfl⟩

theorem Task.SameOrigin.trans {first second third : Task} (early : first.SameOrigin second)
    (late : second.SameOrigin third) : first.SameOrigin third where
  id := late.id.trans early.id
  model := late.model.trans early.model
  operation := late.operation.trans early.operation
  payloadRef := late.payloadRef.trans early.payloadRef
  metadata := late.metadata.trans early.metadata
  createdAt := late.createdAt.trans early.createdAt

theorem moves_sameOrigin {state : State} {id : Bytes} {step : Section} {task next : Task}
    (moves : Moves state id step task next) : task.SameOrigin next := by
  cases moves <;> exact ⟨rfl,rfl,rfl,rfl,rfl,rfl⟩

theorem submits_iff (req : SubmitTaskRequest) (now : Time) :
    (Section.submit req now).submits = true ↔ req.model ≠ [] ∧ req.operation ≠ [] := by
  simp [Section.submits]

theorem submitted_stored (config : Config) (state : State) {now : Time} {req : SubmitTaskRequest}
    (valid : (Section.submit req now).submits = true) :
    (apply config state (.submit req now)).tasks.lookup (formatTaskID (state.taskCounter + 1)) =
      some (submitted (formatTaskID (state.taskCounter + 1)) req now) := by
  rw [submit_apply config state req now valid,submitWrite,Table.lookup_put,if_pos rfl]

/-- A task stays as it was submitted. -/
theorem origin_kept (config : Config) (sections later : List Section)
    (bound : submissions (sections ++ later) < 2^64) {id : Bytes} {first : Task}
    (stored : ∃ task, (exec config sections newMemoryStore).tasks.lookup id = some task ∧
      first.SameOrigin task) :
    ∃ task, (exec config (sections ++ later) newMemoryStore).tasks.lookup id = some task ∧
      first.SameOrigin task := by
  obtain ⟨task,found,origin⟩ := stored
  obtain ⟨last,kept,same⟩ := task_history config sections later bound id task found Task.SameOrigin
    Task.SameOrigin.refl (fun _ _ _ => Task.SameOrigin.trans)
      (fun _ _ _ _ _ _ _ moves => moves_sameOrigin moves)
  exact ⟨last,kept,origin.trans same⟩

/-- The task table holds exactly the issued identifiers, each task under its own;
a submission adds an unused one, and no operation removes a task or rewrites what
it was submitted with. -/
theorem task_table (config : Config) (run : Run) :
    ((run.state config).tasks.keys.Perm (issuedIDs (run.state config).taskCounter.toNat) ∧
      (run.state config).tasks.keys.Nodup) ∧
    (∀ id task, (run.state config).tasks.lookup id = some task → task.id = id) ∧
    (∀ before req now after, run.sections = before ++ .submit req now::after →
      req.model ≠ [] → req.operation ≠ [] →
      let state := exec config before newMemoryStore
      let next := exec config (before ++ [.submit req now]) newMemoryStore
      state.tasks.lookup (formatTaskID (state.taskCounter + 1)) = none ∧
        next.tasks.keys = formatTaskID (state.taskCounter + 1)::state.tasks.keys ∧
        next.tasks.lookup (formatTaskID (state.taskCounter + 1)) =
          some (submitted (formatTaskID (state.taskCounter + 1)) req now)) ∧
    (∀ before after, run.sections = before ++ after →
      ∀ id task, (exec config before newMemoryStore).tasks.lookup id = some task →
        ∃ last, (run.state config).tasks.lookup id = some last ∧ last.id = task.id ∧
          last.model = task.model ∧ last.operation = task.operation ∧
          last.payloadRef = task.payloadRef ∧ last.metadata = task.metadata ∧
          last.createdAt = task.createdAt) := by
  have trail := exec_trail config run.sections run.bounded
  refine ⟨⟨?_,?_⟩,?_,?_,?_⟩
  · rw [Run.state,trail.counter]
    exact exec_taskKeys config run.sections run.bounded
  · exact (run.state config).tasks.nodupKeys
  · intro id task found
    exact (trail.wellFormed.task id task found).key
  · intro before req now after split model operation state next
    have bound := run.bounded
    have valid : (Section.submit req now).submits = true := by simp [Section.submits,model,operation]
    rw [split,submissions,List.countP_append,List.countP_cons_of_pos valid] at bound
    have early := exec_trail config before (by simp only [submissions]; omega)
    have fresh : Fresh state := by
      apply fresh_of_issued state early.issued
      rw [early.counter]
      simp only [submissions]
      omega
    have reached : next = (submitWrite req now state).2 := by
      rw [← submit_apply config state req now valid]
      exact exec_append config before [.submit req now] newMemoryStore
    rw [reached]
    exact ⟨fresh,Table.keys_put_fresh _ _ _ fresh,by simp [submitWrite,Table.lookup_put]⟩
  · intro before after split id task found
    obtain ⟨last,stored,same⟩ := task_history config before after (split ▸ run.bounded) id task found
      Task.SameOrigin Task.SameOrigin.refl (fun _ _ _ => Task.SameOrigin.trans)
      (fun _ _ _ _ _ _ _ moves => moves_sameOrigin moves)
    rw [← split] at stored
    exact ⟨last,stored,same.id,same.model,same.operation,same.payloadRef,same.metadata,same.createdAt⟩

end Tasks

section Nodes

theorem change_nodeOrder (config : Config) (step : Section) (state next : State)
    (change : Change config step state next) : state.nodeOrder <+: next.nodeOrder := by
  cases change with
  | register req now =>
    simp only [admitted]
    split
    next => exact List.prefix_refl _
    next => exact List.prefix_append _ _
  | heartbeat | submit | release | complete | refresh | assign => exact List.prefix_refl _

theorem exec_nodeOrder (config : Config) (sections : List Section) (state : State) :
    state.nodeOrder <+: (exec config sections state).nodeOrder :=
  exec_invariant config (fun later => state.nodeOrder <+: later.nodeOrder) sections state
    (List.prefix_refl _) (fun step _ _ next before change =>
    before.trans (change_nodeOrder config step _ next change))

/-- In every reachable state the node table, the registration order and the
rotation index agree, and nodes and owners are sound; along a run the order is
only extended at its end. The increment that an assignment makes, at any point of
any dispatch, does not overflow. -/
theorem node_table (config : Config) (sections : List Section) :
    let state := exec config sections newMemoryStore
    state.nodeOrder.Nodup ∧ state.nodeOrder.Perm state.nodes.keys ∧
    (∀ before after, sections = before ++ after →
      (exec config before newMemoryStore).nodeOrder <+: state.nodeOrder) ∧
    (∀ id node, state.nodes.lookup id = some node →
      node.id = id ∧ 1 ≤ node.capacity ∧ 0 ≤ node.runningTasks.toInt ∧
        node.runningTasks.toInt ≤ 2^63 - 1) ∧
    (∀ now keys key selected node,
      let current := assignAll config now keys (refreshNodeStatesLocked config state now)
      selectNodeLocked config current = some (key,selected) → current.nodes.lookup key = some node →
        (occupied config now node).runningTasks.toInt = node.runningTasks.toInt + 1) ∧
    0 ≤ state.nextNodeIndex ∧
      (state.nodeOrder ≠ [] → state.nextNodeIndex < state.nodeOrder.length) ∧
    (∀ id task, state.tasks.lookup id = some task → task.assignedWorker ≠ [] →
      ∃ node, state.nodes.lookup task.assignedWorker = some node) := by
  intro state
  have formed : WellFormed state := exec_wellFormed config sections
  refine ⟨?_,formed.order,?_,?_,?_,formed.start,?_,?_⟩
  · exact formed.order.nodup_iff.mpr state.nodes.nodupKeys
  · rintro before after rfl
    rw [show state = exec config after (exec config before newMemoryStore) from exec_append config
      before after _]
    exact exec_nodeOrder config after _
  · intro id node found
    have sound := formed.node id node found
    have below := node.runningTasks.toInt_lt
    have positive := Counter.pos_iff.mp sound.capacity
    refine ⟨sound.key,?_,Counter.nonneg_iff.mp sound.running,by omega⟩
    rw [Int64.le_iff_toInt_le,Int64.toInt_one]
    omega
  · intro now keys key selected node current chosen found
    have loop : WellFormed current := assignAll_wellFormed config now keys _
      (refresh_wellFormed config.offlineAfter now state formed)
    obtain ⟨other,_,registered,free,_,_⟩ := selectNodeLocked_sound config current selected key chosen
    have same : other = node := Option.some.inj (registered.symm.trans found)
    subst same
    exact Counter.toInt_succ (eligible_below (loop.node key other registered) free)
  · intro nonempty
    have inside := formed.inside
    have positive := List.length_pos_iff.mpr nonempty
    omega
  · intro id task found owned
    exact (Table.mem_keys_iff _ _).mp (formed.owner id task found owned)

end Nodes

end RdmaPlatform.Scheduler
