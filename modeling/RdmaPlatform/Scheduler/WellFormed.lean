import RdmaPlatform.Scheduler.Change
import RdmaPlatform.Library.Counter

/-! The store invariant: the node table and the registration order agree, the
rotation stays inside the order, every node and task is stored under its own
identifier, and every task's fields fit its status. It holds in every state any
run of sections reaches from the empty store. -/
namespace RdmaPlatform.Scheduler
open Library

def Task.Lifecycle (task : Task) : Prop :=
  match task.status with
  | .pending => task.assignedWorker = [] ∧ task.startedAt = none ∧ task.completedAt = none
  | .running => task.assignedWorker ≠ [] ∧ task.startedAt.isSome ∧ task.completedAt = none
  | .completed | .failed =>
    task.completedAt.isSome ∧ (task.assignedWorker ≠ [] ↔ task.startedAt.isSome)

structure Node.Sound (id : Bytes) (node : Node) : Prop where
  key : node.id = id
  named : id ≠ []
  capacity : 0 < node.capacity
  running : 0 ≤ node.runningTasks

structure Task.Sound (id : Bytes) (task : Task) : Prop where
  key : task.id = id
  named : id ≠ []
  lifecycle : task.Lifecycle

theorem Task.Sound.owned {id : Bytes} {task : Task} (sound : task.Sound id)
    (running : task.status = .running) : task.assignedWorker ≠ [] := by
  have fields := sound.lifecycle
  simp only [Task.Lifecycle,running] at fields
  exact fields.1

structure WellFormed (state : State) : Prop where
  order : state.nodeOrder.Perm state.nodes.keys
  start : 0 ≤ state.nextNodeIndex
  inside : state.nextNodeIndex < max 1 state.nodeOrder.length
  node : ∀ id node, state.nodes.lookup id = some node → node.Sound id
  task : ∀ id task, state.tasks.lookup id = some task → task.Sound id
  owner : ∀ id task, state.tasks.lookup id = some task → task.assignedWorker ≠ [] →
    task.assignedWorker ∈ state.nodes.keys

/-- The part about nodes and the rotation. -/
structure NodeTable (state : State) : Prop where
  order : state.nodeOrder.Perm state.nodes.keys
  start : 0 ≤ state.nextNodeIndex
  inside : state.nextNodeIndex < max 1 state.nodeOrder.length
  key : ∀ id node, state.nodes.lookup id = some node → node.id = id
  capacity : ∀ id node, state.nodes.lookup id = some node → 0 < node.capacity
  running : ∀ id node, state.nodes.lookup id = some node → 0 ≤ node.runningTasks

theorem WellFormed.nodeTable {state : State} (formed : WellFormed state) : NodeTable state where
  order := formed.order
  start := formed.start
  inside := formed.inside
  key := fun id node found => (formed.node id node found).key
  capacity := fun id node found => (formed.node id node found).capacity
  running := fun id node found => (formed.node id node found).running

theorem newMemoryStore_wellFormed : WellFormed newMemoryStore where
  order := List.Perm.nil
  start := le_refl 0
  inside := by decide
  node := by intro id node found; cases found
  task := by intro id task found; cases found
  owner := by intro id task found; cases found

theorem WellFormed.lookup_of_mem {state : State} (formed : WellFormed state) {task : Task}
    (member : task ∈ state.tasks.values) : state.tasks.lookup task.id = some task := by
  obtain ⟨id,found⟩ := (Table.mem_values_iff _ _).mp member
  rw [(formed.task id task found).key]
  exact found

theorem eligible_below {id : Bytes} {node : Node} (sound : node.Sound id)
    (free : eligible node = true) : node.runningTasks < node.capacity := by
  have positive := sound.capacity
  simp only [eligible,Bool.and_eq_true,Bool.not_eq_true',Bool.and_eq_false_iff,
    decide_eq_false_iff_not,gt_iff_lt,ge_iff_le] at free
  rcases free.2 with none | below
  · exact absurd positive none
  · exact Int64.not_le.mp below

theorem refreshed_sound {id : Bytes} {node : Node} (offlineAfter : Duration) (now : Time)
    (sound : node.Sound id) : (refreshed offlineAfter now node).Sound id :=
  ⟨sound.key,sound.named,sound.capacity,sound.running⟩

theorem occupied_sound {id : Bytes} {node : Node} (config : Config) (now : Time)
    (sound : node.Sound id) (free : eligible node = true) : (occupied config now node).Sound id := by
  refine ⟨sound.key,sound.named,sound.capacity,?_⟩
  have raised := Counter.toInt_succ (eligible_below sound free)
  have before := Counter.nonneg_iff.mp sound.running
  change 0 ≤ node.runningTasks + 1
  rw [Counter.nonneg_iff,raised]
  omega

theorem released_sound {id : Bytes} {node : Node} (sound : node.Sound id) :
    (released node).Sound id := by
  unfold released
  split
  next positive =>
    refine ⟨sound.key,sound.named,sound.capacity,?_⟩
    change 0 ≤ node.runningTasks - 1
    rw [Counter.nonneg_iff,Counter.toInt_pred positive]
    have before := Counter.pos_iff.mp positive
    omega
  next => exact sound

theorem effectiveCapacity_pos (req : RegisterNodeRequest) : 0 < effectiveCapacity req := by
  unfold effectiveCapacity
  split
  next => decide
  next positive => exact Int64.not_le.mp positive

theorem beaten_sound {id : Bytes} {node : Node} (config : Config) (req : HeartbeatRequest) (now : Time)
    (sound : node.Sound id) : (beaten config req now node).Sound id := by
  refine ⟨sound.key,sound.named,sound.capacity,?_⟩
  change 0 ≤ (if req.runningTasks < 0 then 0 else req.runningTasks)
  split
  next => decide
  next nonneg => exact Int64.not_lt.mp nonneg

theorem assigned_sound {id nodeID : Bytes} {task : Task} {node : Node} (now : Time)
    (sound : task.Sound id) (pending : task.status = .pending) (host : node.Sound nodeID) :
    (assigned node now task).Sound id := by
  refine ⟨sound.key,sound.named,?_⟩
  have fields := sound.lifecycle
  simp only [Task.Lifecycle,pending] at fields
  have named : node.id ≠ [] := by rw [host.key]; exact host.named
  exact ⟨named,rfl,fields.2.2⟩

theorem completed_sound {id : Bytes} {task : Task} (req : CompleteTaskRequest) (now : Time)
    (sound : task.Sound id) : (completed req now task).Sound id := by
  refine ⟨sound.key,sound.named,?_⟩
  have paired : task.assignedWorker ≠ [] ↔ task.startedAt.isSome = true := by
    have fields := sound.lifecycle
    unfold Task.Lifecycle at fields
    split at fields
    next => simp [fields.1,fields.2.1]
    next => simp [fields.1,fields.2.1]
    next => exact fields.2
    next => exact fields.2
  cases success : req.success
  · simpa [Task.Lifecycle,completed,success] using paired
  · simpa [Task.Lifecycle,completed,success] using paired

theorem submitted_sound (counter : UInt64) (req : SubmitTaskRequest) (now : Time) :
    (submitted (formatTaskID counter) req now).Sound (formatTaskID counter) :=
  ⟨rfl,formatTaskID_ne_nil counter,rfl,rfl,rfl⟩

theorem admitted_key (id : Bytes) (state : State) : id ∈ (admitted id state).nodes.keys := by
  unfold admitted
  split
  next node present => exact (Table.mem_keys_iff _ _).mpr ⟨node,present⟩
  next => exact AList.mem_keys.mp ((AList.mem_insert _).mpr (.inl rfl))

theorem admitted_keys (id : Bytes) (state : State) :
    ∀ key ∈ state.nodes.keys, key ∈ (admitted id state).nodes.keys := by
  intro key member
  unfold admitted
  split
  next => exact member
  next => exact Table.keys_put _ _ _ member

theorem admitted_order (id : Bytes) {state : State} (ordered : state.nodeOrder.Perm state.nodes.keys) :
    (admitted id state).nodeOrder.Perm (admitted id state).nodes.keys ∧
      state.nodeOrder.length ≤ (admitted id state).nodeOrder.length := by
  unfold admitted
  split
  next => exact ⟨ordered,Nat.le_refl _⟩
  next absent =>
    rw [Table.keys_put_fresh _ _ _ absent]
    exact ⟨(List.perm_append_singleton _ _).trans (ordered.cons _),by simp⟩

theorem register_wellFormed (config : Config) (req : RegisterNodeRequest) (now : Time) (state : State)
    (named : req.id ≠ []) (before : WellFormed state) :
    WellFormed {admitted req.id state with
      nodes := (admitted req.id state).nodes.modify req.id (registered config req now)} := by
  obtain ⟨ordered,grown⟩ := admitted_order req.id before.order
  -- A new node has no capacity before its registration is written.
  have settled : ∀ id node, (admitted req.id state).nodes.lookup id = some node →
      node.id = id ∧ id ≠ [] ∧ 0 ≤ node.runningTasks ∧ (id ≠ req.id → 0 < node.capacity) := by
    refine admitted_forall req.id (fun id node found => ?_) (fun _ => ?_)
    · have sound := before.node id node found
      exact ⟨sound.key,sound.named,sound.running,fun _ => sound.capacity⟩
    · exact ⟨rfl,named,Int64.le_refl 0,fun different => absurd rfl different⟩
  refine ⟨by simpa using ordered,by simpa using before.start,?_,?_,?_,?_⟩
  · have inside := before.inside
    simp only [admitted_nextNodeIndex]
    omega
  · intro id node found
    rw [Table.lookup_modify] at found
    split at found
    next same =>
      obtain ⟨old,lookup,rfl⟩ := Option.map_eq_some_iff.mp found
      obtain ⟨key,named,running,_⟩ := settled id old lookup
      exact ⟨key,named,effectiveCapacity_pos req,running⟩
    next different =>
      obtain ⟨key,named,running,capacity⟩ := settled id node found
      exact ⟨key,named,capacity different,running⟩
  · intro id task found
    rw [admitted_tasks] at found
    exact before.task id task found
  · intro id task found owned
    rw [admitted_tasks] at found
    have member := admitted_keys req.id state _ (before.owner id task found owned)
    simpa using member

private theorem nodes_wellFormed {state : State} (before : WellFormed state) (nodes : Table Bytes Node)
    (keys : nodes.keys = state.nodes.keys)
    (sound : ∀ id node, nodes.lookup id = some node → node.Sound id) :
    WellFormed {state with nodes := nodes} where
  order := by simpa [keys] using before.order
  start := before.start
  inside := before.inside
  node := sound
  task := before.task
  owner := by simpa [keys] using before.owner

private theorem tasks_wellFormed {state : State} (before : WellFormed state) (taskID : Bytes)
    (f : Task → Task) (sound : ∀ task, state.tasks.lookup taskID = some task → (f task).Sound taskID)
    (owner : ∀ task, state.tasks.lookup taskID = some task → (f task).assignedWorker ≠ [] →
      (f task).assignedWorker ∈ state.nodes.keys) :
    WellFormed {state with tasks := state.tasks.modify taskID f} where
  order := before.order
  start := before.start
  inside := before.inside
  node := before.node
  task := Table.modify_forall _ _ _ Task.Sound before.task (fun task found _ => sound task found)
  owner := Table.modify_forall _ _ _
    (fun _ (task : Task) => task.assignedWorker ≠ [] → task.assignedWorker ∈ state.nodes.keys)
      before.owner
    (fun task found _ => owner task found)

theorem refresh_wellFormed (offlineAfter : Duration) (now : Time) (state : State)
    (formed : WellFormed state) :
    WellFormed {state with nodes := state.nodes.mapValues (refreshed offlineAfter now)} := by
  apply nodes_wellFormed formed _ (Table.keys_mapValues _ _)
  exact Table.mapValues_forall _ _ Node.Sound formed.node
    (fun _ _ sound => refreshed_sound offlineAfter now sound)

theorem change_wellFormed (config : Config) (step : Section) (state next : State)
    (before : WellFormed state) (change : Change config step state next) : WellFormed next := by
  cases change with
  | register req now _ named => exact register_wellFormed config req now state named before
  | heartbeat req now _ node found =>
    apply nodes_wellFormed before _ (Table.keys_modify _ _ _)
    exact Table.modify_forall _ _ _ Node.Sound before.node
      (fun _ _ sound => beaten_sound config req now sound)
  | submit req now _ valid =>
    refine ⟨before.order,before.start,before.inside,before.node,?_,?_⟩
    · exact Table.put_forall _ _ _ Task.Sound before.task
        (submitted_sound (state.taskCounter + 1) req now)
    · exact Table.put_forall _ _ _
        (fun _ (task : Task) => task.assignedWorker ≠ [] → task.assignedWorker ∈ state.nodes.keys)
          before.owner
        (fun owned => absurd rfl owned)
  | release taskID req now _ task found running owned =>
    have finished := tasks_wellFormed before taskID (completed req now)
      (fun task found => completed_sound req now (before.task taskID task found))
      (fun task found owned => before.owner taskID task found owned)
    apply nodes_wellFormed finished _ (Table.keys_modify _ _ _)
    exact Table.modify_forall _ _ _ Node.Sound before.node
      (fun _ _ sound => released_sound sound)
  | complete taskID req now _ task found unowned =>
    exact tasks_wellFormed before taskID (completed req now)
      (fun task found => completed_sound req now (before.task taskID task found))
      (fun task found owned => before.owner taskID task found owned)
  | refresh _ offlineAfter now => exact refresh_wellFormed offlineAfter now state before
  | assign now _ taskKey nodeKey task node index found pending chosen free bounds =>
    have host := before.node nodeKey node chosen
    have same (other : Task) (lookup : state.tasks.lookup taskKey = some other) : other = task :=
      Option.some.inj (lookup.symm.trans found)
    have given := tasks_wellFormed before taskKey (assigned node now)
      (fun other lookup => assigned_sound now (before.task taskKey other lookup)
        (same other lookup ▸ pending) host)
      (fun _ _ _ => (Table.mem_keys_iff _ _).mpr ⟨node,by simpa [assigned,host.key] using chosen⟩)
    have taken : WellFormed {state with
        tasks := state.tasks.modify taskKey (assigned node now)
        nodes := state.nodes.modify nodeKey (occupied config now)} := by
      apply nodes_wellFormed given _ (Table.keys_modify _ _ _)
      refine Table.modify_forall _ _ _ Node.Sound before.node ?_
      intro other lookup sound
      have equal : other = node := Option.some.inj (lookup.symm.trans chosen)
      exact occupied_sound config now sound (equal ▸ free)
    have inside := bounds before.start
    exact ⟨taken.order,inside.1,by simp only; omega,taken.node,taken.task,taken.owner⟩

theorem changes_invariant {config : Config} {step : Section} {state final : State} (Inv : State → Prop)
    (path : Changes config step state final) (initial : Inv state)
    (preserved : ∀ state next, Inv state → Change config step state next → Inv next) : Inv final := by
  induction path with
  | refl => exact initial
  | tail _ change ih => exact preserved _ _ ih change

/-- The states of the loop in `dispatchPendingLocked`. -/
theorem assignAll_wellFormed (config : Config) (now : Time) (keys : List Bytes) (state : State)
    (formed : WellFormed state) : WellFormed (assignAll config now keys state) :=
  changes_invariant WellFormed (assignAll_changes config now keys state) formed
    (change_wellFormed config _)

theorem assign_wellFormed {config : Config} {now : Time} {state next : State} {key : Bytes}
    (formed : WellFormed state) (taken : assignTaskLocked config state key now = some next) :
    WellFormed next := by
  have single := assignAll_wellFormed config now [key] state formed
  rwa [assignAll,taken] at single

/-- An invariant of changes is an invariant of sections. -/
theorem apply_invariant (config : Config) (Inv : State → Prop) (step : Section) (state : State)
    (initial : Inv state)
    (preserved : ∀ state next, Inv state → Change config step state next → Inv next) :
    Inv (apply config state step) :=
  changes_invariant Inv (apply_changes config state step) initial preserved

theorem apply_wellFormed (config : Config) (step : Section) (state : State)
    (formed : WellFormed state) :
    WellFormed (apply config state step) :=
  apply_invariant config WellFormed step state formed (change_wellFormed config step)

theorem exec_append (config : Config) (first second : List Section) (state : State) :
    exec config (first ++ second) state = exec config second (exec config first state) :=
  List.foldl_append

theorem exec_invariant (config : Config) (Inv : State → Prop) (sections : List Section)
    (state : State) (initial : Inv state)
    (preserved : ∀ step ∈ sections, ∀ state next, Inv state →
      Change config step state next → Inv next) :
    Inv (exec config sections state) := by
  induction sections generalizing state with
  | nil => exact initial
  | cons step rest ih =>
    have first := apply_invariant config Inv step state initial (preserved step (by simp))
    exact ih _ first (fun other member => preserved other (by simp [member]))

theorem exec_wellFormed (config : Config) (sections : List Section) :
    WellFormed (exec config sections newMemoryStore) :=
  exec_invariant config WellFormed sections newMemoryStore newMemoryStore_wellFormed
    (fun step _ => change_wellFormed config step)

end RdmaPlatform.Scheduler
