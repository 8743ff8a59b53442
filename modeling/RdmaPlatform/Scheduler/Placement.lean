import RdmaPlatform.Scheduler.WellFormed
import RdmaPlatform.Library.Sorting
import Mathlib.Data.Prod.Lex

/-! What one dispatch does, in closed form. The loop over pending tasks nests a
scan over nodes whose load it changes; its effect is a placement of the first
tasks, as many as there are free slots on nodes that are not offline. -/
namespace RdmaPlatform.Scheduler
open Library

def online (config : Config) (now : Time) (node : Node) : Bool :=
  deriveNodeState (some node) now config.offlineAfter ≠ .offline

/-- `max(0, Capacity - RunningTasks)` on a node that is not offline. -/
def slots (config : Config) (now : Time) (node : Node) : Nat :=
  if online config now node then (node.capacity.toInt - node.runningTasks.toInt).toNat else 0

def freeSlots (config : Config) (now : Time) (state : State) : Nat :=
  state.nodes.total (slots config now)

def Stamped (config : Config) (now : Time) (state : State) : Prop :=
  ∀ id node, state.nodes.lookup id = some node →
    node.status = deriveNodeState (some node) now config.offlineAfter

theorem online_iff (config : Config) (now : Time) (node : Node) :
    online config now node = true ↔
      ¬(!isZero node.lastHeartbeat ∧ sub now node.lastHeartbeat > config.offlineAfter) := by
  simp only [online,deriveNodeState]
  split
  next offline => simpa using offline
  next fresh => split <;> simpa using fresh

theorem online_congr (config : Config) (now : Time) {node other : Node}
    (same : node.lastHeartbeat = other.lastHeartbeat) :
    online config now node = online config now other := by
  rw [Bool.eq_iff_iff,online_iff,online_iff,same]

theorem refresh_stamped (config : Config) (now : Time) (state : State) :
    Stamped config now (refreshNodeStatesLocked config state now) := by
  intro id node found
  obtain ⟨old,_,rfl⟩ := Option.map_eq_some_iff.mp ((Table.lookup_mapValues _ _ _).symm.trans found)
  rfl

theorem freeSlots_refresh (config : Config) (now : Time) (state : State) :
    freeSlots config now (refreshNodeStatesLocked config state now) = freeSlots config now state := by
  apply Table.total_mapValues
  intro node
  rfl

theorem eligible_iff (config : Config) (now : Time) {id : Bytes} {node : Node} (sound : node.Sound id)
    (stamped : node.status = deriveNodeState (some node) now config.offlineAfter) :
    eligible node = true ↔ 0 < slots config now node := by
  have positive := sound.capacity
  have reachable : node.status ≠ .offline ↔ online config now node = true := by
    rw [stamped]
    simp [online]
  simp only [eligible,Bool.and_eq_true,decide_eq_true_eq,reachable,gt_iff_lt,positive,decide_true,
    Bool.true_and,Bool.not_eq_true',decide_eq_false_iff_not,ge_iff_le,Int64.not_le,
      Int64.lt_iff_toInt_lt]
  by_cases up : online config now node = true
  · simp [slots,up]
  · simp [slots,up]

theorem slots_occupied (config : Config) (now : Time) {id : Bytes} {node : Node} (sound : node.Sound id)
    (free : eligible node = true)
    (stamped : node.status = deriveNodeState (some node) now config.offlineAfter) :
    slots config now node = slots config now (occupied config now node) + 1 := by
  have below := eligible_below sound free
  have strict := Int64.lt_iff_toInt_lt.mp below
  have room := (eligible_iff config now sound stamped).mp free
  have up : online config now node = true := by
    by_contra down
    simp [slots,down] at room
  have still : online config now (occupied config now node) = true := by
    have same : (occupied config now node).lastHeartbeat = node.lastHeartbeat := rfl
    rw [online_congr config now same]
    exact up
  simp only [slots,up,still,if_true]
  change (node.capacity.toInt - node.runningTasks.toInt).toNat =
    (node.capacity.toInt - (node.runningTasks + 1).toInt).toNat + 1
  rw [Counter.toInt_succ below]
  omega

section Selection

private theorem scan_some (strategy : Strategy) (state : State) (start : Int) (best : Int × Node)
    (offset : Nat) : ∃ better, scan strategy state start (some best) offset = some better := by
  unfold scan
  simp only
  split
  · exact ⟨_,rfl⟩
  · split
    · split <;> exact ⟨_,rfl⟩
    · exact ⟨_,rfl⟩

private theorem fold_scan_some (strategy : Strategy) (state : State) (start : Int) (offsets : List Nat)
    (best : Int × Node) : offsets.foldl (scan strategy state start) (some best) ≠ none := by
  induction offsets generalizing best with
  | nil => simp
  | cons offset rest ih =>
    obtain ⟨better,equal⟩ := scan_some strategy state start best offset
    rw [List.foldl_cons,equal]
    exact ih better

private theorem fold_scan_none (strategy : Strategy) (state : State) (start : Int) (offsets : List Nat)
    (none : offsets.foldl (scan strategy state start) none = none) :
    ∀ offset ∈ offsets, scan strategy state start Option.none offset = Option.none := by
  induction offsets with
  | nil => simp
  | cons offset rest ih =>
    rw [List.foldl_cons] at none
    cases first : scan strategy state start Option.none offset with
    | some best =>
      rw [first] at none
      exact absurd none (fold_scan_some strategy state start rest best)
    | none =>
      rw [first] at none
      intro other member
      rcases List.mem_cons.mp member with same | inside
      · rw [same]
        exact first
      · exact ih none other inside

theorem turn_covers (start : Int) (size position : Nat) (nonneg : 0 ≤ start)
    (inside : position < size) :
    ∃ offset < size, (start.tmod size + (offset : Nat)).tmod size = position := by
  have positive : (0 : Int) < size := by omega
  have base := Int.tmod_nonneg (size : Int) nonneg
  have below := Int.tmod_lt_of_pos start positive
  generalize start.tmod size = first at base below
  by_cases ahead : first ≤ position
  · refine ⟨(position - first).toNat,by omega,?_⟩
    rw [Int.tmod_eq_emod_of_nonneg (by omega)]
    rw [show first + ((position - first).toNat : Int) = position by omega]
    exact Int.emod_eq_of_lt (by omega) (by omega)
  · refine ⟨(position + size - first).toNat,by omega,?_⟩
    rw [Int.tmod_eq_emod_of_nonneg (by omega)]
    rw [show first + ((position + size - first).toNat : Int) = position + size by omega,
      Int.add_emod_right]
    exact Int.emod_eq_of_lt (by omega) (by omega)

theorem selectNodeLocked_complete (config : Config) (state : State) (table : NodeTable state)
    (none : selectNodeLocked config state = none) (id : Bytes) (node : Node)
    (found : state.nodes.lookup id = some node) : eligible node = false := by
  have listed : id ∈ state.nodeOrder :=
    table.order.mem_iff.mpr ((Table.mem_keys_iff _ _).mpr ⟨node,found⟩)
  obtain ⟨position,inside,here⟩ := List.getElem_of_mem listed
  obtain ⟨offset,small,lands⟩ := turn_covers state.nextNodeIndex state.nodeOrder.length position
    table.start inside
  unfold selectNodeLocked at none
  simp only at none
  rw [if_neg (by omega)] at none
  have empty : (List.range state.nodeOrder.length).foldl (scan config.effectiveStrategy state
      (state.nextNodeIndex.tmod state.nodeOrder.length)) Option.none = Option.none := by
    split at none
    next empty => exact empty
    next best index chosen selected =>
      exfalso
      have carried := fold_candidate config.effectiveStrategy state (by omega) index chosen selected
      obtain ⟨key,at_⟩ := carried.2.2
      rw [at_] at none
      cases none
  have skipped := fold_scan_none _ _ _ _ empty offset (List.mem_range.mpr small)
  have at_ : nodeAt state position = some (id,node) := by
    simp [nodeAt,inside,here,found]
  unfold scan at skipped
  simp only [lands,at_] at skipped
  split at skipped
  next => cases skipped
  next skip => simpa using skip

theorem selectNodeLocked_of_refused {config : Config} {state : State} {taskKey : Bytes}
    {task : Task} {now : Time} (found : state.tasks.lookup taskKey = some task)
    (pending : task.status = .pending)
    (refused : assignTaskLocked config state taskKey now = none) :
    selectNodeLocked config state = none := by
  cases chosen : selectNodeLocked config state with
  | none => rfl
  | some pair =>
    obtain ⟨key,selected⟩ := pair
    obtain ⟨node,next,registered,_,_,rfl⟩ := selectNodeLocked_sound _ _ _ _ chosen
    simp [assignTaskLocked,found,pending,chosen,registered] at refused

theorem assignTaskLocked_none (config : Config) (state : State) (taskKey : Bytes) (task : Task)
    (now : Time) (formed : WellFormed state) (stamped : Stamped config now state)
    (found : state.tasks.lookup taskKey = some task) (pending : task.status = .pending)
    (none : assignTaskLocked config state taskKey now = none) : freeSlots config now state = 0 := by
  have nothing := selectNodeLocked_of_refused found pending none
  apply List.sum_eq_zero
  intro weight member
  obtain ⟨⟨id,node⟩,inside,rfl⟩ := List.mem_map.mp member
  have lookup := (Table.mem_entries_iff _ _ _).mp inside
  have idle := selectNodeLocked_complete config state formed.nodeTable nothing id node lookup
  have fits := eligible_iff config now (formed.node id node lookup) (stamped id node lookup)
  by_contra room
  rw [fits.mpr (Nat.pos_of_ne_zero room)] at idle
  cases idle

end Selection

def Grown (before after : Node) (taken : Nat) : Prop :=
  after.id = before.id ∧ after.address = before.address ∧ after.capacity = before.capacity ∧
  after.labels = before.labels ∧ after.lastHeartbeat = before.lastHeartbeat ∧
  after.runningTasks.toInt = before.runningTasks.toInt + taken ∧
  (0 < taken → after.runningTasks.toInt ≤ after.capacity.toInt)

/-- The effect of offering `keys` in order: `placed` lists each task that found a
node with the node it found. -/
structure Placement (config : Config) (now : Time) (keys : List Bytes) (before after : State)
    (placed : List (Bytes × Bytes)) : Prop where
  first : placed.map Prod.fst = keys.take (freeSlots config now before)
  hosted : ∀ pair ∈ placed, ∃ node, before.nodes.lookup pair.2 = some node ∧
    online config now node = true
  moved : ∀ pair ∈ placed, ∃ task, before.tasks.lookup pair.1 = some task ∧
    after.tasks.lookup pair.1 = some {task with
      assignedWorker := pair.2
      status := .running
      message := utf8 "assigned to worker"
      startedAt := some now}
  kept : ∀ id, id ∉ placed.map Prod.fst → after.tasks.lookup id = before.tasks.lookup id
  grown : ∀ worker node, before.nodes.lookup worker = some node →
    ∃ next, after.nodes.lookup worker = some next ∧ Grown node next ((placed.map Prod.snd).count worker)
  absent : ∀ worker, before.nodes.lookup worker = none → after.nodes.lookup worker = none

private theorem placement_nil (config : Config) (now : Time) (keys : List Bytes) (state : State)
    (none : keys.take (freeSlots config now state) = []) :
    Placement config now keys state state [] where
  first := none.symm
  hosted := by simp
  moved := by simp
  kept := fun _ _ => rfl
  grown := fun _ node found => ⟨node,found,rfl,rfl,rfl,rfl,rfl,by simp,by simp⟩
  absent := fun _ found => found

theorem assign_freeSlots (config : Config) (now : Time) (state : State) (taskKey nodeKey : Bytes)
    (node : Node) (index : Int) (formed : WellFormed state) (stamped : Stamped config now state)
    (chosen : state.nodes.lookup nodeKey = some node) (free : eligible node = true) :
    freeSlots config now state = freeSlots config now {state with
      nextNodeIndex := index
      tasks := state.tasks.modify taskKey (assigned node now)
      nodes := state.nodes.modify nodeKey (occupied config now)} + 1 := by
  have moved := Table.total_modify state.nodes nodeKey node (occupied config now)
    (slots config now) chosen
  have one := slots_occupied config now (formed.node nodeKey node chosen) free
    (stamped nodeKey node chosen)
  simp only [freeSlots]
  omega

theorem assign_stamped (config : Config) (now : Time) (state : State) (nodeKey : Bytes)
    (stamped : Stamped config now state) (id : Bytes) (node : Node)
    (found : (state.nodes.modify nodeKey (occupied config now)).lookup id = some node) :
    node.status = deriveNodeState (some node) now config.offlineAfter :=
  Table.modify_forall _ _ _
    (fun _ (node : Node) => node.status = deriveNodeState (some node) now config.offlineAfter)
    stamped (fun _ _ _ => rfl) id node found

private theorem grown_trans {first second third : Node} {m n : Nat}
    (early : Grown first second m) (late : Grown second third n) : Grown first third (m + n) := by
  obtain ⟨id,address,capacity,labels,seen,raised,bounded⟩ := early
  obtain ⟨id',address',capacity',labels',seen',raised',bounded'⟩ := late
  refine ⟨id'.trans id,address'.trans address,capacity'.trans capacity,labels'.trans labels,
    seen'.trans seen,?_,?_⟩
  · rw [raised',raised]
    omega
  · intro some
    by_cases later : 0 < n
    · exact bounded' later
    · have earlier := bounded (by omega)
      rw [capacity',raised']
      omega

private theorem occupied_grown (config : Config) (now : Time) {id : Bytes} {node : Node}
    (sound : node.Sound id) (free : eligible node = true) :
    Grown node (occupied config now node) 1 := by
  have below := eligible_below sound free
  have strict := Int64.lt_iff_toInt_lt.mp below
  have raised := Counter.toInt_succ below
  refine ⟨rfl,rfl,rfl,rfl,rfl,raised,?_⟩
  intro _
  change (node.runningTasks + 1).toInt ≤ node.capacity.toInt
  omega

section Cons
variable {config : Config} {now : Time} {state after : State} {taskKey nodeKey : Bytes}
  {rest : List Bytes}
  {task : Task} {node : Node} {index : Int} {placed : List (Bytes × Bytes)}

/-- A node that is there after one assignment was there before it, as online as then. -/
private theorem hosted_before {worker : Bytes} {other : Node}
    (found : (state.nodes.modify nodeKey (occupied config now)).lookup worker = some other)
    (up : online config now other = true) :
    ∃ old, state.nodes.lookup worker = some old ∧ online config now old = true := by
  rw [Table.lookup_modify] at found
  split at found
  next =>
    obtain ⟨old,registered,rfl⟩ := Option.map_eq_some_iff.mp found
    have unchanged : (occupied config now old).lastHeartbeat = old.lastHeartbeat := rfl
    exact ⟨old,registered,by rwa [online_congr config now unchanged] at up⟩
  next => exact ⟨other,found,up⟩

variable (formed : WellFormed state) (chosen : state.nodes.lookup nodeKey = some node)
  (free : eligible node = true)
  (later : Placement config now rest {state with
    nextNodeIndex := index
    tasks := state.tasks.modify taskKey (assigned node now)
    nodes := state.nodes.modify nodeKey (occupied config now)} after placed)
include formed chosen free later

private theorem grown_cons {worker : Bytes} {old : Node}
    (registered : state.nodes.lookup worker = some old) :
    ∃ next, after.nodes.lookup worker = some next ∧
      Grown old next (((taskKey,nodeKey)::placed).map Prod.snd |>.count worker) := by
  by_cases same : worker = nodeKey
  · subst same
    have equal : old = node := Option.some.inj (registered.symm.trans chosen)
    subst equal
    obtain ⟨next,lookup,grown⟩ := later.grown worker (occupied config now old)
      (by rw [Table.lookup_modify_self,registered]; rfl)
    refine ⟨next,lookup,?_⟩
    rw [List.map_cons,List.count_cons_self,Nat.add_comm]
    exact grown_trans (occupied_grown config now (formed.node worker old chosen) free) grown
  · obtain ⟨next,lookup,grown⟩ := later.grown worker old
      (by rw [Table.lookup_modify_ne _ _ same]; exact registered)
    refine ⟨next,lookup,?_⟩
    rwa [List.map_cons,List.count_cons_of_ne (Ne.symm same)]

private theorem placement_cons (stamped : Stamped config now state)
    (found : state.tasks.lookup taskKey = some task) (apart : taskKey ∉ rest) :
    Placement config now (taskKey::rest) state after ((taskKey,nodeKey)::placed) := by
  have host := formed.node nodeKey node chosen
  have taken := assign_freeSlots config now state taskKey nodeKey node index formed stamped chosen free
  have outside : taskKey ∉ placed.map Prod.fst := by
    rw [later.first]
    exact fun member => apart (List.mem_of_mem_take member)
  have others (id : Bytes) (different : id ≠ taskKey) :
      (state.tasks.modify taskKey (assigned node now)).lookup id = state.tasks.lookup id :=
    Table.lookup_modify_ne _ _ different
  refine ⟨?_,?_,?_,?_,fun worker old registered => grown_cons formed chosen free later registered,?_⟩
  · rw [taken,List.take_succ_cons,List.map_cons,later.first]
  · intro pair member
    rcases List.mem_cons.mp member with same | inside
    · subst same
      have room := (eligible_iff config now host (stamped nodeKey node chosen)).mp free
      refine ⟨node,chosen,?_⟩
      by_contra down
      simp [slots,down] at room
    · obtain ⟨other,lookup,up⟩ := later.hosted pair inside
      exact hosted_before lookup up
  · intro pair member
    rcases List.mem_cons.mp member with same | inside
    · subst same
      refine ⟨task,found,?_⟩
      rw [later.kept taskKey outside,Table.lookup_modify_self,found,← host.key]
      rfl
    · obtain ⟨other,lookup,moved⟩ := later.moved pair inside
      have different : pair.1 ≠ taskKey := fun same =>
        outside (same ▸ List.mem_map_of_mem inside)
      rw [others pair.1 different] at lookup
      exact ⟨other,lookup,moved⟩
  · intro id outer
    have different : id ≠ taskKey := fun same => outer (by simp [same])
    rw [later.kept id (fun member => outer (by simp [member])),others id different]
  · intro worker missing
    apply later.absent worker
    rw [Table.lookup_modify]
    split <;> simp [missing]

end Cons

def AllPending (keys : List Bytes) (state : State) : Prop :=
  ∀ id ∈ keys, ∃ task, state.tasks.lookup id = some task ∧ task.status = .pending

theorem AllPending.next {config : Config} {now : Time} {key : Bytes} {rest : List Bytes}
    {state next : State} (waiting : AllPending (key::rest) state) (apart : key ∉ rest)
    (taken : assignTaskLocked config state key now = some next) : AllPending rest next := by
  intro id member
  have different : id ≠ key := fun same => apart (same ▸ member)
  rw [assign_lookup different taken]
  exact waiting id (List.mem_cons_of_mem _ member)

/-- Offering distinct pending tasks places the first ones, one per free slot. -/
theorem assignAll_placement (config : Config) (now : Time) (keys : List Bytes) (state : State)
    (formed : WellFormed state) (stamped : Stamped config now state) (distinct : keys.Nodup)
    (pending : AllPending keys state) :
    ∃ placed, Placement config now keys state (assignAll config now keys state) placed := by
  induction keys generalizing state with
  | nil => exact ⟨[],placement_nil config now [] state (by simp)⟩
  | cons key rest ih =>
    obtain ⟨apart,tail⟩ := List.nodup_cons.mp distinct
    obtain ⟨task,found,waiting⟩ := pending key (by simp)
    unfold assignAll
    split
    next none =>
      have full := assignTaskLocked_none config state key task now formed stamped found waiting none
      exact ⟨[],placement_nil config now _ state (by simp [full])⟩
    next next ok =>
      have formed' := assign_wellFormed formed ok
      have pending' := pending.next apart ok
      obtain ⟨other,nodeKey,node,index,lookup,_,chosen,free,bounds,rfl⟩ :=
        assignTaskLocked_sound config state next key now ok
      have stamped' : Stamped config now {state with
          nextNodeIndex := index
          tasks := state.tasks.modify key (assigned node now)
          nodes := state.nodes.modify nodeKey (occupied config now)} :=
        assign_stamped config now state nodeKey stamped
      obtain ⟨placed,later⟩ := ih _ formed' stamped' tail pending'
      exact ⟨_,placement_cons formed chosen free later stamped found apart⟩

section Order

def rank (task : Task) : Lex (Time × Bytes) := toLex (task.createdAt,task.id)

theorem earlier_iff (left right : Task) : earlier left right ↔ rank left < rank right := by
  rw [rank,rank,Prod.Lex.toLex_lt_toLex,earlier]
  split
  next same => simp [same]
  next different => simp [different]

theorem mem_pendingTasks (state : State) (id : Bytes) (task : Task) :
    ⟨id,task⟩ ∈ pendingTasks state ↔ state.tasks.lookup id = some task ∧
      task.status = .pending := by
  simp [pendingTasks,Table.mem_entries_iff]

theorem mem_pending_keys (state : State) (id : Bytes) :
    id ∈ (pendingTasks state).map (·.1) ↔
      ∃ task, state.tasks.lookup id = some task ∧ task.status = .pending := by
  rw [List.mem_map]
  constructor
  · rintro ⟨⟨key,task⟩,member,rfl⟩
    exact ⟨task,(mem_pendingTasks state key task).mp member⟩
  · rintro ⟨task,waiting⟩
    exact ⟨⟨id,task⟩,(mem_pendingTasks state id task).mpr waiting,rfl⟩

theorem pending_keys_nodup (state : State) : ((pendingTasks state).map (·.1)).Nodup := by
  have permuted := (List.perm_insertionSort (fun left right : (_ : Bytes) × Task =>
    ¬ earlier right.2 left.2)
    (state.tasks.entries.filter (fun e => e.2.status = .pending))).map (·.1)
  refine permuted.nodup_iff.mpr ?_
  exact (List.Sublist.map _ List.filter_sublist).nodup state.tasks.nodupKeys

theorem pending_keys_sorted (state : State) (formed : WellFormed state) :
    ((pendingTasks state).map (·.1)).Pairwise (fun left right =>
      ∀ first second, state.tasks.lookup left = some first → state.tasks.lookup right = some second →
        rank first < rank second) := by
  have ranked (left right : (_ : Bytes) × Task) :
      earlier left.2 right.2 ↔ rank left.2 < rank right.2 := earlier_iff left.2 right.2
  have sorted := (sorts_insertionSort _ ranked
    (state.tasks.entries.filter (fun e => e.2.status = .pending))).pairwise _ ranked
  have distinct : (pendingTasks state).Pairwise (fun left right => left.1 ≠ right.1) :=
    List.pairwise_map.mp (pending_keys_nodup state)
  rw [List.pairwise_map]
  have both := sorted.and distinct
  refine List.Pairwise.imp_of_mem ?_ both
  rintro ⟨left,first⟩ ⟨right,second⟩ one two ⟨ordered,apart⟩ first' second' found found'
  have here := ((mem_pendingTasks state left first).mp one).1
  have there := ((mem_pendingTasks state right second).mp two).1
  have equal : first' = first := Option.some.inj (found.symm.trans here)
  have equal' : second' = second := Option.some.inj (found'.symm.trans there)
  subst equal equal'
  apply lt_of_le_of_ne ordered
  intro same
  have ids := congrArg (fun key : Lex (Time × Bytes) => (ofLex key).2) same
  simp only [rank,ofLex_toLex] at ids
  rw [(formed.task left first' found).key,(formed.task right second' found').key] at ids
  exact apart ids

end Order

theorem dispatchPending_placement (config : Config) (now : Time) (state : State)
    (formed : WellFormed state) :
    ∃ placed, Placement config now ((pendingTasks state).map (·.1)) state
      (dispatchPending config now state) placed := by
  have refreshedFormed := refresh_wellFormed config.offlineAfter now state formed
  obtain ⟨placed,inner⟩ := assignAll_placement config now ((pendingTasks state).map (·.1))
    (refreshNodeStatesLocked config state now) refreshedFormed (refresh_stamped config now state)
    (pending_keys_nodup state) (fun id member => (mem_pending_keys state id).mp member)
  have lookup (worker : Bytes) : (refreshNodeStatesLocked config state now).nodes.lookup worker =
      (state.nodes.lookup worker).map (refreshed config.offlineAfter now) :=
        Table.lookup_mapValues _ _ _
  refine ⟨placed,?_,?_,inner.moved,inner.kept,?_,?_⟩
  · rw [inner.first,freeSlots_refresh]
  · intro pair member
    obtain ⟨node,found,up⟩ := inner.hosted pair member
    rw [lookup] at found
    obtain ⟨old,registered,rfl⟩ := Option.map_eq_some_iff.mp found
    have unchanged : (refreshed config.offlineAfter now old).lastHeartbeat = old.lastHeartbeat := rfl
    exact ⟨old,registered,by rwa [online_congr config now unchanged] at up⟩
  · intro worker node found
    obtain ⟨next,registered,grown⟩ := inner.grown worker (refreshed config.offlineAfter now node)
      (by rw [lookup,found]; rfl)
    exact ⟨next,registered,grown⟩
  · intro worker missing
    exact inner.absent worker (by rw [lookup,missing]; rfl)

private theorem placed_count {config : Config} {now : Time} {keys : List Bytes} {before after : State}
    {placed : List (Bytes × Bytes)} (placement : Placement config now keys before after placed)
    (worker : Bytes) :
    (placed.map Prod.snd).count worker = (placed.map Prod.fst).countP (fun id =>
      (after.tasks.lookup id).any (fun task => task.assignedWorker = worker)) := by
  rw [List.count_eq_countP,List.countP_map,List.countP_map]
  apply List.countP_congr
  intro pair member
  obtain ⟨task,_,moved⟩ := placement.moved pair member
  simp [moved]

private theorem Placement.started {config : Config} {now : Time} {before after : State}
    {placed : List (Bytes × Bytes)}
    (placement : Placement config now ((pendingTasks before).map (·.1)) before after placed)
    {id : Bytes} (member : id ∈ placed.map Prod.fst) :
    ∃ task next host, before.tasks.lookup id = some task ∧ after.tasks.lookup id = some next ∧
      task.status = .pending ∧ next.status = .running ∧
      before.nodes.lookup next.assignedWorker = some host ∧ online config now host = true := by
  have offered : id ∈ (pendingTasks before).map (·.1) := by
    rw [placement.first] at member
    exact List.mem_of_mem_take member
  obtain ⟨pair,inside,rfl⟩ := List.mem_map.mp member
  obtain ⟨task,found,next⟩ := placement.moved pair inside
  obtain ⟨host,registered,up⟩ := placement.hosted pair inside
  obtain ⟨task',found',waiting⟩ := (mem_pending_keys before pair.1).mp offered
  have same : task' = task := Option.some.inj (found'.symm.trans found)
  exact ⟨task,_,host,found,next,same ▸ waiting,rfl,registered,up⟩

/-- `DispatchPending` is work-conserving, bounded and first-in first-out: with
`order` the pending tasks by creation time and identifier, exactly the first
`min order.length (freeSlots ..)` of them start, each on a node that is not
offline; counters grow by what each node received and stay within capacity. -/
theorem dispatchPending_closed_form (config : Config) (sections : List Section) (now : Time) :
    let before := exec config sections newMemoryStore
    let after := dispatchPending config now before
    ∃ order : List Bytes, order.Nodup ∧
      (∀ id, id ∈ order ↔ ∃ task, before.tasks.lookup id = some task ∧ task.status = .pending) ∧
      order.Pairwise (fun left right => ∀ first second,
        before.tasks.lookup left = some first → before.tasks.lookup right = some second →
          first.createdAt < second.createdAt ∨
            first.createdAt = second.createdAt ∧ first.id < second.id) ∧
      let moved := order.take (min order.length (freeSlots config now before))
      (∀ id ∈ moved, ∃ task next host, before.tasks.lookup id = some task ∧
        after.tasks.lookup id = some next ∧ task.status = .pending ∧ next.status = .running ∧
        before.nodes.lookup next.assignedWorker = some host ∧ online config now host = true) ∧
      (∀ id, id ∉ moved → after.tasks.lookup id = before.tasks.lookup id) ∧
      (∀ worker node, before.nodes.lookup worker = some node →
        ∃ next, after.nodes.lookup worker = some next ∧ next.capacity = node.capacity ∧
          next.runningTasks.toInt = node.runningTasks.toInt +
            moved.countP (fun id => (after.tasks.lookup id).any
              (fun task => task.assignedWorker = worker)) ∧
          (node.runningTasks < next.runningTasks → next.runningTasks ≤ next.capacity)) ∧
      (∀ worker, before.nodes.lookup worker = none → after.nodes.lookup worker = none) := by
  intro before after
  have formed : WellFormed before := exec_wellFormed config sections
  obtain ⟨placed,placement⟩ := dispatchPending_placement config now before formed
  refine ⟨(pendingTasks before).map (·.1),pending_keys_nodup before,mem_pending_keys before,?_,?_⟩
  · refine (pending_keys_sorted before formed).imp ?_
    intro left right ordered first second found found'
    exact Prod.Lex.toLex_lt_toLex.mp (ordered first second found found')
  · intro moved
    have listed : placed.map Prod.fst = moved := by
      rw [placement.first,List.take_eq_take_min,Nat.min_comm]
    refine ⟨?_,?_,?_,placement.absent⟩
    · intro id member
      exact placement.started (by rwa [listed])
    · intro id outside
      exact placement.kept id (by rwa [listed])
    · intro worker node found
      obtain ⟨next,registered,_,_,capacity,_,_,raised,bounded⟩ := placement.grown worker node found
      refine ⟨next,registered,capacity,?_,?_⟩
      · rw [raised,placed_count placement,listed]
      · intro grew
        rw [Int64.lt_iff_toInt_lt,raised] at grew
        exact Int64.le_iff_toInt_le.mpr (bounded (by omega))

end RdmaPlatform.Scheduler
