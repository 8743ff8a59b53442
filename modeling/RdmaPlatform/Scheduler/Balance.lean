import RdmaPlatform.Scheduler.Selection

/-! Load balance over a whole dispatch. Each assignment goes to a free node of least
load ratio, and a node's load only grows during the dispatch, so a node that received
work was, before its last task, no more loaded than the free nodes are in the end. -/
namespace RdmaPlatform.Scheduler
open Library

/-- The state in which `count` pending tasks have been offered. -/
def offered (config : Config) (now : Time) (state : State) (count : Nat) : State :=
  assignAll config now (((pendingTasks state).map (·.1)).take count)
    (refreshNodeStatesLocked config state now)

/-- Some task was pending and now runs on the worker. -/
def StartedOn (before after : State) (worker : Bytes) : Prop :=
  ∃ id task next, before.tasks.lookup id = some task ∧ task.status = .pending ∧
    after.tasks.lookup id = some next ∧ next.status = .running ∧ next.assignedWorker = worker

/-- Less its last task, no node that grew since `start` is more loaded than a free one. -/
def Balanced (start state : State) : Prop :=
  ∀ worker before node, start.nodes.lookup worker = some before →
    state.nodes.lookup worker = some node → before.runningTasks.toInt < node.runningTasks.toInt →
    ∀ other idle, state.nodes.lookup other = some idle → Free idle →
      (node.runningTasks.toInt - 1) * idle.capacity.toInt ≤
        idle.runningTasks.toInt * node.capacity.toInt

theorem FirstBest.least_loaded {state : State} {key : Bytes} {offset : Nat} {node : Node}
    (chosen : FirstBest state key offset node) (table : NodeTable state)
    (fits : Representable state) {id : Bytes} {other : Node}
    (stored : state.nodes.lookup id = some other) (free : Free other) :
    node.runningTasks.toInt * other.capacity.toInt ≤
      other.runningTasks.toInt * node.capacity.toInt := by
  have loaded := (table.comparable chosen.stored chosen.free).loaded
  have loaded' := (table.comparable stored free).loaded
  have worse := chosen.best id other stored free
  rw [← not_lt,compare_candidates table fits stored chosen.stored free chosen.free,loadRank,loadRank,
    Prod.Lex.toLex_lt_toLex,not_or] at worse
  rw [← not_lt]
  exact fun above => worse.1 ((cross_lt_iff loaded' loaded).mp above)

theorem assign_balanced {config : Config} {now : Time} {start state : State}
    {taskKey nodeKey : Bytes} {offset : Nat} {node : Node} {index : Int} (table : NodeTable state)
    (fits : Representable state) (chosen : FirstBest state nodeKey offset node)
    (balanced : Balanced start state) :
    Balanced start {state with
      nextNodeIndex := index
      tasks := state.tasks.modify taskKey (assigned node now)
      nodes := state.nodes.modify nodeKey (occupied config now)} := by
  have raised : (node.runningTasks + 1).toInt = node.runningTasks.toInt + 1 :=
    Counter.toInt_succ chosen.free.2
  have comparable := table.comparable chosen.stored chosen.free
  -- A node that is free after the assignment was free before it, with at most its present load.
  have earlier (other : Bytes) (idle : Node)
      (found : (state.nodes.modify nodeKey (occupied config now)).lookup other = some idle)
        (free : Free idle) :
      ∃ old, state.nodes.lookup other = some old ∧ Free old ∧ old.capacity = idle.capacity ∧
        old.runningTasks.toInt ≤ idle.runningTasks.toInt := by
    rw [Table.lookup_modify] at found
    split at found
    next same =>
      rw [same,chosen.stored] at found
      cases found
      refine ⟨node,same ▸ chosen.stored,chosen.free,rfl,?_⟩
      change node.runningTasks.toInt ≤ (node.runningTasks + 1).toInt
      omega
    next => exact ⟨idle,found,free,rfl,le_refl _⟩
  intro worker before after began found grew other idle found' free
  obtain ⟨old,stored,free',capacity,grown⟩ := earlier other idle found' free
  rw [Table.lookup_modify] at found
  split at found
  next same =>
    -- The node just chosen was the least loaded.
    rw [same,chosen.stored] at found
    cases found
    have least := chosen.least_loaded table fits stored free'
    change ((node.runningTasks + 1).toInt - 1) * idle.capacity.toInt ≤
      idle.runningTasks.toInt * node.capacity.toInt
    rw [raised,Int.add_sub_cancel,← capacity]
    exact least.trans (Int.mul_le_mul_of_nonneg_right grown
      (comparable.running.trans comparable.below.le))
  next =>
    have positive : 0 ≤ after.capacity.toInt :=
      (Counter.pos_iff.mp (table.capacity worker after found)).le
    rw [← capacity]
    exact (balanced worker before after began found grew other old stored free').trans
      (Int.mul_le_mul_of_nonneg_right grown positive)

theorem assignAll_balanced {config : Config}
    (leastLoaded : config.effectiveStrategy = leastLoadedStrategy) (now : Time) (keys : List Bytes)
    (start state : State) (formed : WellFormed state)
    (fits : ∀ count < keys.length, Representable (assignAll config now (keys.take count) state))
    (balanced : Balanced start state) : Balanced start (assignAll config now keys state) := by
  induction keys generalizing state with
  | nil => exact balanced
  | cons key rest ih =>
    have fit : Representable state := fits 0 (by simp)
    rw [assignAll]
    cases taken : assignTaskLocked config state key now with
    | none => exact balanced
    | some next =>
      obtain ⟨task,nodeKey,node,index,found,pending,selected,stored,shape⟩ :=
        assignTaskLocked_selects taken
      obtain ⟨offset,node',chosen,_⟩ := selectNodeLocked_firstBest leastLoaded formed.nodeTable
        fit selected
      obtain rfl : node' = node := Option.some.inj (chosen.stored.symm.trans stored)
      refine ih next (assign_wellFormed formed taken) ?_ ?_
      · intro count small
        simpa [assignAll,taken] using fits (count + 1) (by simpa using small)
      · rw [shape]
        exact assign_balanced formed.nodeTable fit chosen balanced

/-- The task that a worker started is one of those placed, so the worker's counter grew. -/
theorem StartedOn.grew {config : Config} {now : Time} {before : State} {worker : Bytes} {node : Node}
    (started : StartedOn before (dispatchPending config now before) worker) (formed : WellFormed before)
    (found : (dispatchPending config now before).nodes.lookup worker = some node) :
    ∃ host, before.nodes.lookup worker = some host ∧
      host.runningTasks.toInt < node.runningTasks.toInt := by
  obtain ⟨placed,placement⟩ := dispatchPending_placement config now before formed
  obtain ⟨id,task,next,waiting,pending,moved,running,hosted⟩ := started
  have listed : id ∈ placed.map Prod.fst := by
    by_contra outside
    rw [placement.kept id outside,waiting] at moved
    cases moved
    rw [pending] at running
    cases running
  obtain ⟨pair,member,rfl⟩ := List.mem_map.mp listed
  obtain ⟨_,_,placedTask⟩ := placement.moved pair member
  cases moved.symm.trans placedTask
  cases hosted
  obtain ⟨host,registered,_⟩ := placement.hosted pair member
  obtain ⟨final,there,_,_,_,_,_,grown,_⟩ := placement.grown pair.2 host registered
  cases found.symm.trans there
  have some_ : 0 < (placed.map Prod.snd).count pair.2 :=
    List.count_pos_iff.mpr (List.mem_map_of_mem member)
  exact ⟨host,registered,by omega⟩

/-- After a dispatch with the least-loaded strategy, a worker that started a task had,
before the last one, no higher load ratio than any node with a free slot has now. -/
theorem dispatch_balances_load (config : Config)
    (leastLoaded : config.effectiveStrategy = leastLoadedStrategy) (sections : List Section)
    (now : Time)
    (fits : ∀ count < (pendingTasks (exec config sections newMemoryStore)).length,
      Representable (offered config now (exec config sections newMemoryStore) count)) :
    let before := exec config sections newMemoryStore
    let after := dispatchPending config now before
    ∀ worker node other idle, StartedOn before after worker → after.nodes.lookup worker = some node →
      after.nodes.lookup other = some idle → Free idle →
      (node.runningTasks.toInt - 1) * idle.capacity.toInt ≤
        idle.runningTasks.toInt * node.capacity.toInt := by
  intro before after worker node other idle started found found' free
  have formed : WellFormed before := exec_wellFormed config sections
  have balanced : Balanced (refreshNodeStatesLocked config before now) after := by
    apply assignAll_balanced leastLoaded now _ _ _
      (refresh_wellFormed config.offlineAfter now before formed)
    · intro count small
      rw [List.length_map] at small
      exact fits count small
    · intro worker old node found found' grew
      cases found.symm.trans found'
      exact absurd grew (lt_irrefl _)
  obtain ⟨host,registered,grew⟩ := started.grew formed found
  refine balanced worker (refreshed config.offlineAfter now host) node ?_ found grew other
    idle found' free
  exact (Table.lookup_mapValues _ _ _).trans (by rw [registered]; rfl)

def threeTasks : List Section :=
  twoWorkers ++ List.replicate 3 (.submit ⟨utf8 "llama",utf8 "generate",utf8 "hello",none⟩ 2)

theorem dispatch_balances_load_pair :
    let after := dispatchPending defaultConfig 3 (exec defaultConfig threeTasks newMemoryStore)
    ∃ node idle, after.nodes.lookup (utf8 "worker-1") = some node ∧
      after.nodes.lookup (utf8 "worker-2") = some idle ∧ node.runningTasks = 2 ∧ Free idle ∧
      (node.runningTasks.toInt - 1) * idle.capacity.toInt ≤
        idle.runningTasks.toInt * node.capacity.toInt := by
  intro after
  have full : after.nodes.lookup (utf8 "worker-1") =
      some ⟨utf8 "worker-1",utf8 "127.0.0.1:9001",2,[],2,.busy,1⟩ := by decide
  have free : after.nodes.lookup (utf8 "worker-2") =
      some ⟨utf8 "worker-2",utf8 "127.0.0.1:9002",2,[],1,.ready,1⟩ := by decide
  have given : StartedOn (exec defaultConfig threeTasks newMemoryStore) after (utf8 "worker-1") :=
    ⟨formatTaskID 1,_,_,rfl,rfl,rfl,rfl,rfl⟩
  exact ⟨_,_,full,free,rfl,by decide,
    dispatch_balances_load defaultConfig rfl threeTasks 3 (by decide) _ _ _ _ given full free
      (by decide)⟩

end RdmaPlatform.Scheduler
