import RdmaPlatform.Scheduler.Placement
import RdmaPlatform.Scheduler.Grpc
import RdmaPlatform.Scheduler.Deliverer
import RdmaPlatform.Library.Sorting

/-! Loops over the maps of the store. The language enumerates a map in any order,
a different one in each loop, and `sort.Slice` may return any sorted arrangement;
the relations below say what each operation may then return. On reachable states
it is always what the functions of the model return. -/
namespace RdmaPlatform.Scheduler
open Library

/-- `refreshNodeStatesLocked` when the map is enumerated in this order. -/
def refreshLoop (config : Config) (now : Time) (order : List Bytes) (state : State) : State :=
  {state with
    nodes := order.foldl (fun nodes id => nodes.modify id (refreshed config.offlineAfter now))
      state.nodes}

def DispatchPendingReturns (config : Config) (now : Time) (state result : State) : Prop :=
  ∃ (nodes : List Bytes) (tasks pending : List ((_ : Bytes) × Task)),
    nodes.Perm state.nodes.keys ∧ tasks.Perm state.tasks.entries ∧
    Sorts (fun left right => earlier left.2 right.2)
      (tasks.filter (fun e => e.2.status = .pending)) pending ∧
    result = assignAll config now (pending.map (·.1)) (refreshLoop config now nodes state)

def OverviewReturns (config : Config) (now : Time) (state : State)
    (result : StatusResponse × State) : Prop :=
  ∃ (order : List Bytes) (nodes workers : List Node) (tasks listed : List Task),
    order.Perm state.nodes.keys ∧ nodes.Perm (refreshLoop config now order state).nodes.values ∧
    tasks.Perm (refreshLoop config now order state).tasks.values ∧
    Sorts (fun left right : Node => left.id < right.id) nodes workers ∧
    Sorts earlier (tasks.map cloneTask) listed ∧
    result = ({
      generatedAt := now
      totalWorkers := nodes.length
      activeWorkers := nodes.countP (fun node => node.status ≠ .offline)
      pendingTasks := tasks.countP (fun task => task.status = .pending)
      runningTasks := tasks.countP (fun task => task.status = .running)
      completedTasks := tasks.countP (fun task => task.status = .completed)
      workers := workers
      tasks := listed},refreshLoop config now order state)

def RunningAssignmentsReturns (workerID : Bytes) (state : State) (result : List Task) : Prop :=
  ∃ tasks : List Task, tasks.Perm state.tasks.values ∧
    Sorts Grpc.startsBefore ((tasks.filter (fun task => task.assignedWorker = workerID ∧
      task.status = .running)).map cloneTask) result

def SnapshotAssignmentsReturns (state : State) (result : List Assignment) : Prop :=
  ∃ tasks : List Task, tasks.Perm state.tasks.values ∧
    Sorts Assignment.before (tasks.filterMap (assignmentOf state)) result

section Ranks

/-- A missing start time ranks below every time. -/
def startRank (task : Task) : Lex (Bool × Lex (Time × Bytes)) :=
  toLex (task.startedAt.isSome,toLex (task.startedAt.getD 0,task.id))

theorem startsBefore_iff (left right : Task) :
    Grpc.startsBefore left right ↔ startRank left < startRank right := by
  simp only [startRank,Grpc.startsBefore,Prod.Lex.toLex_lt_toLex]
  cases left.startedAt with
  | none =>
    cases right.startedAt with
    | none => simp
    | some second => simp
  | some first =>
    cases right.startedAt with
    | none => simp
    | some second =>
      simp only [Option.isSome_some,Option.getD_some,lt_irrefl,true_and,false_or]
      split
      next same => simp [same]
      next different => simp [different]

theorem startRank_id {left right : Task} (same : startRank left = startRank right) :
    left.id = right.id :=
  congrArg (fun rank : Lex (Bool × Lex (Time × Bytes)) => (ofLex (ofLex rank).2).2) same

def addressRank (item : Assignment) : Lex (Bytes × Bytes) := toLex (item.address,item.taskID)

theorem before_iff (left right : Assignment) :
    left.before right ↔ addressRank left < addressRank right := by
  rw [addressRank,addressRank,Prod.Lex.toLex_lt_toLex,Assignment.before]
  split
  next same => simp [same]
  next different => simp [different]

theorem addressRank_taskID {left right : Assignment} (same : addressRank left = addressRank right) :
    left.taskID = right.taskID :=
  congrArg (fun rank : Lex (Bytes × Bytes) => (ofLex rank).2) same

theorem rank_id {left right : Task} (same : rank left = rank right) : left.id = right.id :=
  congrArg (fun rank : Lex (Time × Bytes) => (ofLex rank).2) same

end Ranks

section Loops

variable (config : Config) (now : Time) {state : State}

theorem refreshLoop_eq {order : List Bytes} (all : order.Perm state.nodes.keys) :
    refreshLoop config now order state = refreshNodeStatesLocked config state now := by
  rw [refreshLoop,refreshNodeStatesLocked,Table.foldl_modify_keys _ _ _ all]

theorem WellFormed.node_of_mem (formed : WellFormed state) {node : Node}
    (member : node ∈ state.nodes.values) :
    state.nodes.lookup node.id = some node := by
  obtain ⟨id,found⟩ := (Table.mem_values_iff _ _).mp member
  rw [(formed.node id node found).key]
  exact found

/-- Stored tasks are told apart by their identifiers. -/
theorem WellFormed.task_eq (formed : WellFormed state) {left right : Task}
    (inside : left ∈ state.tasks.values) (inside' : right ∈ state.tasks.values)
    (same : left.id = right.id) : left = right := by
  have found := formed.lookup_of_mem inside
  rw [same,formed.lookup_of_mem inside'] at found
  exact (Option.some.inj found).symm

theorem dispatchPendingReturns_iff (formed : WellFormed state) (result : State) :
    DispatchPendingReturns config now state result ↔ result = dispatchPending config now state := by
  have ranked (left right : (_ : Bytes) × Task) :
      earlier left.2 right.2 ↔ rank left.2 < rank right.2 := earlier_iff left.2 right.2
  constructor
  · rintro ⟨nodes,tasks,pending,order,enumerated,sorted,rfl⟩
    have unique := sorted.eq_insertionSort (fun e : (_ : Bytes) × Task => rank e.2) ranked
      (enumerated.filter (fun e => decide (e.2.status = .pending))) (by
        rintro ⟨left,first⟩ one ⟨right,second⟩ two same
        have found := (Table.mem_entries_iff _ _ _).mp (List.mem_of_mem_filter one)
        have found' := (Table.mem_entries_iff _ _ _).mp (List.mem_of_mem_filter two)
        have keys : left = right := by
          rw [← (formed.task left first found).key,← (formed.task right second found').key]
          exact rank_id same
        subst keys
        rw [found] at found'
        cases found'
        rfl)
    rw [unique,refreshLoop_eq config now order]
    rfl
  · rintro rfl
    refine ⟨state.nodes.keys,state.tasks.entries,_,.refl _,.refl _,
      sorts_insertionSort (fun e : (_ : Bytes) × Task => rank e.2) ranked _,?_⟩
    rw [refreshLoop_eq config now (.refl _)]
    rfl

theorem overviewReturns_iff (formed : WellFormed state) (result : StatusResponse × State) :
    OverviewReturns config now state result ↔ result = overview config now state := by
  have stamped := refresh_wellFormed config.offlineAfter now state formed
  have named (left right : Node) : left.id < right.id ↔ left.id < right.id := Iff.rfl
  constructor
  · rintro ⟨order,nodes,workers,tasks,listed,all,enumerated,enumerated',sorted,sorted',rfl⟩
    rw [refreshLoop_eq config now all] at enumerated enumerated' ⊢
    have unique := sorted.eq_insertionSort (fun node : Node => node.id) named enumerated (by
      intro left one right two same
      have found := stamped.node_of_mem one
      rw [same,stamped.node_of_mem two] at found
      exact (Option.some.inj found).symm)
    have unique' := sorted'.eq_insertionSort rank earlier_iff (enumerated'.map cloneTask) (by
      rintro left one right two same
      obtain ⟨first,inside,rfl⟩ := List.mem_map.mp one
      obtain ⟨second,inside',rfl⟩ := List.mem_map.mp two
      rw [stamped.task_eq inside inside' (rank_id same)])
    rw [unique,unique',enumerated.length_eq,enumerated.countP_eq,enumerated'.countP_eq,
      enumerated'.countP_eq,enumerated'.countP_eq]
    rfl
  · rintro rfl
    refine ⟨state.nodes.keys,_,_,_,_,.refl _,.refl _,.refl _,
      sorts_insertionSort (fun node : Node => node.id) named _,
        sorts_insertionSort rank earlier_iff _,?_⟩
    rw [refreshLoop_eq config now (.refl _)]
    rfl

theorem runningAssignmentsReturns_iff (formed : WellFormed state) (workerID : Bytes)
    (result : List Task) :
    RunningAssignmentsReturns workerID state result ↔
      result = Grpc.runningAssignments workerID state := by
  constructor
  · rintro ⟨tasks,enumerated,sorted⟩
    apply sorted.eq_insertionSort startRank startsBefore_iff ((enumerated.filter _).map cloneTask)
    intro left one right two same
    obtain ⟨first,inside,rfl⟩ := List.mem_map.mp one
    obtain ⟨second,inside',rfl⟩ := List.mem_map.mp two
    rw [formed.task_eq (List.mem_of_mem_filter inside) (List.mem_of_mem_filter inside')
      (startRank_id same)]
  · rintro rfl
    exact ⟨state.tasks.values,.refl _,sorts_insertionSort startRank startsBefore_iff _⟩

theorem assignmentOf_taskID {task : Task} {item : Assignment}
    (found : assignmentOf state task = some item) :
    item.taskID = task.id := by
  unfold assignmentOf at found
  split at found
  next => cases found
  next =>
    split at found
    next => cases found
    next =>
      split at found
      next => cases found
      next =>
        cases found
        rfl

theorem snapshotAssignmentsReturns_iff (formed : WellFormed state) (result : List Assignment) :
    SnapshotAssignmentsReturns state result ↔ result = snapshotAssignments state := by
  constructor
  · rintro ⟨tasks,enumerated,sorted⟩
    apply sorted.eq_insertionSort addressRank before_iff (enumerated.filterMap _)
    intro left one right two same
    obtain ⟨first,inside,found⟩ := List.mem_filterMap.mp one
    obtain ⟨second,inside',found'⟩ := List.mem_filterMap.mp two
    have ids : first.id = second.id := by
      rw [← assignmentOf_taskID found,← assignmentOf_taskID found']
      exact addressRank_taskID same
    rw [formed.task_eq inside inside' ids,found'] at found
    exact (Option.some.inj found).symm
  · rintro rfl
    exact ⟨state.tasks.values,.refl _,sorts_insertionSort addressRank before_iff _⟩

end Loops

/-- On a reachable state no order of enumeration and no sort shows: each operation
has one possible result. -/
theorem iteration_order_hidden (config : Config) (sections : List Section) :
    let state := exec config sections newMemoryStore
    (∀ now result, DispatchPendingReturns config now state result ↔
      result = dispatchPending config now state) ∧
    (∀ now result, OverviewReturns config now state result ↔ result = overview config now state) ∧
    (∀ workerID result, RunningAssignmentsReturns workerID state result ↔
      result = Grpc.runningAssignments workerID state) ∧
    (∀ result, SnapshotAssignmentsReturns state result ↔ result = snapshotAssignments state) := by
  intro state
  have formed : WellFormed state := exec_wellFormed config sections
  exact ⟨fun now => dispatchPendingReturns_iff config now formed,
    fun now => overviewReturns_iff config now formed,runningAssignmentsReturns_iff formed,
    snapshotAssignmentsReturns_iff formed⟩

end RdmaPlatform.Scheduler
