import RdmaPlatform.Scheduler.Placement
import RdmaPlatform.Scheduler.Strategy
import RdmaPlatform.Library.ArgMin
import Mathlib.Data.List.Rotate

/-! Node selection under the least-loaded strategy. As long as its products fit an
`int64`, the three-level comparison orders free nodes by one rank, so the scan
returns the first free node of least rank in the turn. -/
namespace RdmaPlatform.Scheduler
open Library

def Free (node : Node) : Prop := node.status ≠ .offline ∧ node.runningTasks < node.capacity

instance decidableFree (node : Node) : Decidable (Free node) :=
  inferInstanceAs (Decidable (node.status ≠ .offline ∧ node.runningTasks < node.capacity))

theorem eligible_iff_free {node : Node} (positive : 0 < node.capacity) :
    eligible node = true ↔ Free node := by
  simp [eligible,Free,positive]

/-- The products that the comparison of two free nodes forms do not wrap. -/
def Representable (state : State) : Prop :=
  ∀ left ∈ state.nodes.values, ∀ right ∈ state.nodes.values, Free left → Free right →
    left.runningTasks.toInt * right.capacity.toInt < 2^63

instance decidableRepresentable (state : State) : Decidable (Representable state) :=
  inferInstanceAs (Decidable (∀ left ∈ state.nodes.values, ∀ right ∈ state.nodes.values,
    Free left → Free right → left.runningTasks.toInt * right.capacity.toInt < 2^63))

section Compare

/-- A node as the comparison meets it, with its load in range. -/
structure Comparable (node : Node) : Prop where
  running : 0 ≤ node.runningTasks.toInt
  below : node.runningTasks.toInt < node.capacity.toInt

theorem NodeTable.comparable {state : State} (table : NodeTable state) {id : Bytes} {node : Node}
    (found : state.nodes.lookup id = some node) (free : Free node) : Comparable node :=
  ⟨Counter.nonneg_iff.mp (table.running id node found),Int64.lt_iff_toInt_lt.mp free.2⟩

theorem Comparable.loaded {node : Node} (fit : Comparable node) : Loaded node :=
  ⟨fit.running.trans_lt fit.below,fit.running⟩

theorem Comparable.snapshotRank_eq {node : Node} (fit : Comparable node) :
    snapshotRank node = loadRank node := by
  have below := fit.below
  rw [snapshotRank,loadRank,Int.toNat_of_nonneg (by omega),Int.neg_sub]

theorem compare_neg_iff {left right : Node} (fitLeft : Comparable left) (fitRight : Comparable right)
    (small : left.runningTasks.toInt * right.capacity.toInt < 2^63)
    (small' : right.runningTasks.toInt * left.capacity.toInt < 2^63) :
    leastLoadedStrategy.compare (some left) (some right) < 0 ↔ loadRank left < loadRank right := by
  rw [← fitLeft.snapshotRank_eq,← fitRight.snapshotRank_eq]
  have fit : ProductsFit left right := ⟨small,small'⟩
  exact compare_neg_iff_snapshotRank fitLeft.loaded fitRight.loaded
    (fit.alike fitLeft.loaded fitRight.loaded)

end Compare

section Turn

/-- The position in the registration order that the turn visits at `offset`. -/
def position (state : State) (offset : Nat) : Nat :=
  (state.nextNodeIndex.toNat + offset) % state.nodeOrder.length

def candidate (state : State) (offset : Nat) : Option (Int × Node) :=
  (nodeAt state (position state offset)).bind
    (fun found => if eligible found.2 then some ((position state offset : Int),found.2) else none)

theorem scan_index {state : State} (table : NodeTable state) (offset : Nat) :
    (state.nextNodeIndex.tmod state.nodeOrder.length + offset).tmod state.nodeOrder.length =
      (position state offset : Int) := by
  have start := table.start
  have base := Int.tmod_nonneg (state.nodeOrder.length : Int) start
  rw [Int.tmod_eq_emod_of_nonneg (by omega),Int.tmod_eq_emod_of_nonneg start,Int.emod_add_emod,position]
  push_cast
  rw [Int.toNat_of_nonneg start]

theorem nodeAt_eq_some {state : State} {index : Nat} {key : Bytes} {node : Node} :
    nodeAt state index = some (key,node) ↔ state.nodeOrder[index]? = some key ∧
      state.nodes.lookup key = some node := by
  simp only [nodeAt,Option.bind_eq_bind,Option.bind_eq_some_iff,Option.pure_def,Option.some.injEq,
    Prod.mk.injEq,Int.toNat_natCast]
  constructor
  · rintro ⟨key,listed,node,found,rfl,rfl⟩
    exact ⟨listed,found⟩
  · rintro ⟨listed,found⟩
    exact ⟨key,listed,node,found,rfl,rfl⟩

theorem candidate_eq_some {state : State} {offset : Nat} {index : Int} {node : Node} :
    candidate state offset = some (index,node) ↔
      index = position state offset ∧ eligible node = true ∧
        ∃ key, state.nodeOrder[position state offset]? = some key ∧
          state.nodes.lookup key = some node := by
  simp only [candidate,Option.bind_eq_some_iff,Prod.exists]
  constructor
  · rintro ⟨key,found,there,chosen⟩
    split at chosen
    next free =>
      cases chosen
      exact ⟨rfl,free,key,nodeAt_eq_some.mp there⟩
    next => cases chosen
  · rintro ⟨rfl,free,key,there⟩
    exact ⟨key,node,nodeAt_eq_some.mpr there,by simp [free]⟩

theorem scan_candidate_none {state : State} (table : NodeTable state) (strategy : Strategy)
    (best : Option (Int × Node)) (offset : Nat) (missing : candidate state offset = none) :
    scan strategy state (state.nextNodeIndex.tmod state.nodeOrder.length) best offset = best := by
  simp only [scan,scan_index table]
  cases there : nodeAt state (position state offset) with
  | none => rfl
  | some found =>
    have skipped : eligible found.2 ≠ true := by
      intro free
      simp [candidate,there,free] at missing
    simp [skipped]

theorem scan_candidate_some {state : State} (table : NodeTable state) (strategy : Strategy)
    (best : Option (Int × Node)) (offset : Nat) (found : Int × Node)
    (met : candidate state offset = some found) :
    scan strategy state (state.nextNodeIndex.tmod state.nodeOrder.length) best offset =
      List.argAux (fun left right => strategy.compare (some left.2) (some right.2) < 0) best found := by
  obtain ⟨index,node⟩ := found
  obtain ⟨rfl,free,key,there⟩ := candidate_eq_some.mp met
  simp only [scan,scan_index table,nodeAt_eq_some.mpr there,free,if_true]
  cases best <;> rfl

theorem candidate_free {state : State} (table : NodeTable state) {offset : Nat} {found : Int × Node}
    (met : candidate state offset = some found) :
    ∃ key, state.nodeOrder[position state offset]? = some key ∧
      state.nodes.lookup key = some found.2 ∧ Free found.2 := by
  obtain ⟨_,free,key,listed,stored⟩ := candidate_eq_some.mp met
  exact ⟨key,listed,stored,(eligible_iff_free (table.capacity key found.2 stored)).mp free⟩

theorem candidate_of_free {state : State} (table : NodeTable state) {offset : Nat} {key : Bytes}
    {node : Node} (listed : state.nodeOrder[position state offset]? = some key)
    (stored : state.nodes.lookup key = some node) (free : Free node) :
    candidate state offset = some ((position state offset : Int),node) :=
  candidate_eq_some.mpr ⟨rfl,(eligible_iff_free (table.capacity key node stored)).mpr free,key,
    listed,stored⟩

/-- Every node comes up once in the turn. -/
theorem position_covers {state : State} (table : NodeTable state) {key : Bytes} {node : Node}
    (stored : state.nodes.lookup key = some node) :
    ∃ offset < state.nodeOrder.length, state.nodeOrder[position state offset]? = some key := by
  have listed : key ∈ state.nodeOrder :=
    table.order.mem_iff.mpr ((Table.mem_keys_iff _ _).mpr ⟨node,stored⟩)
  obtain ⟨place,inside,here⟩ := List.getElem_of_mem listed
  obtain ⟨offset,small,lands⟩ := turn_covers state.nextNodeIndex state.nodeOrder.length place
    table.start inside
  rw [scan_index table] at lands
  refine ⟨offset,small,?_⟩
  rw [Int.ofNat_inj.mp lands,List.getElem?_eq_getElem inside,here]

theorem compare_candidates {state : State} (table : NodeTable state) (fits : Representable state)
    {id id' : Bytes} {left right : Node} (stored : state.nodes.lookup id = some left)
    (stored' : state.nodes.lookup id' = some right) (free : Free left) (free' : Free right) :
    leastLoadedStrategy.compare (some left) (some right) < 0 ↔ loadRank left < loadRank right := by
  have member := (Table.mem_values_iff _ _).mpr ⟨id,stored⟩
  have member' := (Table.mem_values_iff _ _).mpr ⟨id',stored'⟩
  exact compare_neg_iff (table.comparable stored free) (table.comparable stored' free')
    (fits left member right member' free free') (fits right member' left member free' free)

/-- The scan keeps the first candidate of least rank. -/
theorem scan_split {state : State} (table : NodeTable state) (strategy : Strategy)
    (ranked : ∀ id id' left right, state.nodes.lookup id = some left →
      state.nodes.lookup id' = some right → Free left → Free right →
      (strategy.compare (some left) (some right) < 0 ↔ loadRank left < loadRank right))
    {best : Int × Node}
    (found : (List.range state.nodeOrder.length).foldl
      (scan strategy state (state.nextNodeIndex.tmod state.nodeOrder.length)) none = some best) :
    (∀ other ∈ (List.range state.nodeOrder.length).filterMap (candidate state), ¬ loadRank other.2 <
      loadRank best.2) ∧ ∃ before after, (List.range state.nodeOrder.length).filterMap
      (candidate state) = before ++ best::after ∧
        ∀ other ∈ before, loadRank best.2 < loadRank other.2 := by
  rw [foldl_scan_eq_argmin _ (fun found => loadRank found.2) (scan_candidate_none table strategy)
    (scan_candidate_some table strategy)] at found
  · refine ⟨?_,argmin_split found⟩
    intro other member
    have least := List.not_lt_of_mem_argmin member found
    exact least
  · intro left member right member'
    obtain ⟨_,_,met⟩ := List.mem_filterMap.mp member
    obtain ⟨_,_,met'⟩ := List.mem_filterMap.mp member'
    obtain ⟨id,_,stored,free⟩ := candidate_free table met
    obtain ⟨id',_,stored',free'⟩ := candidate_free table met'
    exact ranked id id' left.2 right.2 stored stored' free free'

/-- `key` names the first best free node of the turn, met at `offset`. -/
structure FirstBest (state : State) (key : Bytes) (offset : Nat) (node : Node) : Prop where
  inside : offset < state.nodeOrder.length
  listed : state.nodeOrder[position state offset]? = some key
  stored : state.nodes.lookup key = some node
  free : Free node
  best : ∀ id other, state.nodes.lookup id = some other → Free other →
    0 ≤ leastLoadedStrategy.compare (some other) (some node)
  first : ∀ earlier < offset, ∀ id other, state.nodeOrder[position state earlier]? = some id →
    state.nodes.lookup id = some other → Free other → leastLoadedStrategy.compare (some node)
      (some other) < 0

theorem scan_firstBest {state : State} (table : NodeTable state) (fits : Representable state)
    {index : Int} {node : Node}
    (found : (List.range state.nodeOrder.length).foldl
      (scan leastLoadedStrategy state (state.nextNodeIndex.tmod state.nodeOrder.length)) none =
      some (index,node)) :
    ∃ offset key, index = position state offset ∧ FirstBest state key offset node := by
  obtain ⟨least,before,after,split,worse⟩ := scan_split table leastLoadedStrategy
    (fun _ _ _ _ => compare_candidates table fits) found
  obtain ⟨early,late,range,early_eq,late_eq⟩ := List.filterMap_eq_append_iff.mp split
  obtain ⟨skipped,offset,later,late_split,missing,met,_⟩ := List.filterMap_eq_cons_iff.mp late_eq
  obtain ⟨key,listed,stored,free⟩ := candidate_free table met
  have inside : offset ∈ List.range state.nodeOrder.length := by
    rw [range,late_split]
    simp
  refine ⟨offset,key,(candidate_eq_some.mp met).1,List.mem_range.mp inside,listed,stored,free,?_,?_⟩
  · intro id other stored' free'
    obtain ⟨place,small,listed'⟩ := position_covers table stored'
    have member := List.mem_filterMap.mpr ⟨place,List.mem_range.mpr small,
      candidate_of_free table listed' stored' free'⟩
    have bound := least _ member
    rw [← not_lt,compare_candidates table fits stored' stored free' free]
    exact bound
  · intro earlier before_it id other listed' stored' free'
    rw [compare_candidates table fits stored stored' free free']
    have candidate' := candidate_of_free table listed' stored' free'
    have member : earlier ∈ early ++ skipped := by
      rw [late_split,← List.append_assoc] at range
      exact mem_range_before range before_it
    rcases List.mem_append.mp member with front | passed
    · apply worse ((position state earlier : Int),other)
      rw [← early_eq]
      exact List.mem_filterMap.mpr ⟨earlier,front,candidate'⟩
    · rw [missing earlier passed] at candidate'
      cases candidate'

theorem selectNodeLocked_firstBest {config : Config}
    (leastLoaded : config.effectiveStrategy = leastLoadedStrategy) {state next : State}
    {key : Bytes} (table : NodeTable state) (fits : Representable state)
    (selected : selectNodeLocked config state = some (key,next)) :
    ∃ offset node, FirstBest state key offset node ∧
      next =
        {state with nextNodeIndex := ((position state offset + 1) % state.nodeOrder.length : Nat)} := by
  unfold selectNodeLocked at selected
  simp only [leastLoaded] at selected
  split at selected
  next => cases selected
  next =>
    split at selected
    next => cases selected
    next index node found =>
      obtain ⟨offset,key',rfl,first⟩ := scan_firstBest table fits found
      rw [nodeAt_eq_some.mpr ⟨first.listed,first.stored⟩] at selected
      obtain ⟨rfl,rfl⟩ := Prod.mk.inj (Option.some.inj selected)
      refine ⟨offset,node,first,?_⟩
      rw [Int.tmod_eq_emod_of_nonneg (by omega)]
      push_cast
      rfl

theorem selectNodeLocked_none_iff {state : State} (config : Config) (table : NodeTable state) :
    selectNodeLocked config state = none ↔ ∀ id node, state.nodes.lookup id = some node →
      ¬ Free node := by
  constructor
  · intro none id node found free
    have idle := selectNodeLocked_complete config state table none id node found
    rw [(eligible_iff_free (table.capacity id node found)).mpr free] at idle
    cases idle
  · intro full
    cases chosen : selectNodeLocked config state with
    | none => rfl
    | some pair =>
      obtain ⟨node,_,found,free,_⟩ := selectNodeLocked_sound _ _ _ _ chosen
      exact absurd ((eligible_iff_free (table.capacity _ node found)).mp free) (full _ node found)

end Turn

section Rotation

/-- All nodes are free and equally loaded. -/
structure Level (state : State) : Prop where
  free : ∀ node ∈ state.nodes.values, Free node
  capacity : ∀ node ∈ state.nodes.values, ∀ other ∈ state.nodes.values, node.capacity =
    other.capacity
  running : ∀ node ∈ state.nodes.values, ∀ other ∈ state.nodes.values, node.runningTasks =
    other.runningTasks

theorem Level.selects {config : Config} (leastLoaded : config.effectiveStrategy = leastLoadedStrategy)
    {state : State} (table : NodeTable state) (fits : Representable state) (level : Level state)
    (nonempty : 0 < state.nodeOrder.length) :
    ∃ key next, selectNodeLocked config state = some (key,next) ∧
      state.nodeOrder[state.nextNodeIndex.toNat % state.nodeOrder.length]? = some key ∧
      next.nextNodeIndex = ((state.nextNodeIndex.toNat + 1) % state.nodeOrder.length : Nat) := by
  have listed := List.getElem?_eq_getElem (Nat.mod_lt state.nextNodeIndex.toNat nonempty)
  obtain ⟨front,stored⟩ :=
    (Table.mem_keys_iff _ _).mp (table.order.mem_iff.mp (List.mem_of_getElem? listed))
  have member := (Table.mem_values_iff _ _).mpr ⟨_,stored⟩
  have free := level.free front member
  cases selected : selectNodeLocked config state with
  | none => exact absurd free ((selectNodeLocked_none_iff config table).mp selected _ front stored)
  | some pair =>
    obtain ⟨key,next⟩ := pair
    obtain ⟨offset,node,chosen,rfl⟩ := selectNodeLocked_firstBest leastLoaded table fits selected
    -- A later node would have to be strictly better than the one whose turn it is.
    have immediate : offset = 0 := by
      by_contra late
      have better := chosen.first 0 (Nat.pos_of_ne_zero late) _ front listed stored free
      have member' := (Table.mem_values_iff _ _).mpr ⟨_,chosen.stored⟩
      rw [compare_level (level.capacity node member' front member)
        (level.running node member' front member)] at better
      exact absurd better (lt_irrefl 0)
    subst immediate
    refine ⟨key,_,rfl,chosen.listed,?_⟩
    simp [position]

/-- One selection after another, from states that may differ in everything but the
registration order and the rotation. -/
structure Consecutive (config : Config) (order : List Bytes) (states : Nat → State) : Prop where
  listed : ∀ turn < order.length, (states turn).nodeOrder = order
  table : ∀ turn < order.length, NodeTable (states turn)
  fits : ∀ turn < order.length, Representable (states turn)
  level : ∀ turn < order.length, Level (states turn)
  chained : ∀ turn, turn + 1 < order.length → ∀ key next,
    selectNodeLocked config (states turn) = some (key,next) →
    (states (turn + 1)).nextNodeIndex = next.nextNodeIndex

theorem Consecutive.selects {config : Config} {order : List Bytes} {states : Nat → State}
    (run : Consecutive config order states)
    (leastLoaded : config.effectiveStrategy = leastLoadedStrategy) {turn : Nat}
    (small : turn < order.length) :
    ∃ key next, selectNodeLocked config (states turn) = some (key,next) ∧
      order[(states turn).nextNodeIndex.toNat % order.length]? = some key ∧
      next.nextNodeIndex = (((states turn).nextNodeIndex.toNat + 1) % order.length : Nat) := by
  have selects := Level.selects leastLoaded (run.table turn small) (run.fits turn small)
    (run.level turn small)
  rw [run.listed turn small] at selects
  exact selects (by omega)

theorem Consecutive.index {config : Config} {order : List Bytes} {states : Nat → State}
    (run : Consecutive config order states)
    (leastLoaded : config.effectiveStrategy = leastLoadedStrategy) (turn : Nat)
    (small : turn < order.length) :
    (states turn).nextNodeIndex.toNat = ((states 0).nextNodeIndex.toNat + turn) % order.length := by
  induction turn with
  | zero =>
    have inside := (run.table 0 small).inside
    have start := (run.table 0 small).start
    rw [run.listed 0 small] at inside
    rw [Nat.add_zero,Nat.mod_eq_of_lt (by omega)]
  | succ turn ih =>
    obtain ⟨key,next,selected,_,advanced⟩ := run.selects leastLoaded (Nat.lt_of_succ_lt small)
    rw [run.chained turn small key next selected,advanced,Int.toNat_natCast,
      ih (Nat.lt_of_succ_lt small),Nat.mod_add_mod,Nat.add_assoc]

theorem Consecutive.perm {config : Config} {order : List Bytes} {states : Nat → State}
    (run : Consecutive config order states)
    (leastLoaded : config.effectiveStrategy = leastLoadedStrategy) :
    ((List.range order.length).map
      (fun turn => (selectNodeLocked config (states turn)).map Prod.fst)).Perm (order.map some) := by
  have rotated : (List.range order.length).map
    (fun turn => (selectNodeLocked config (states turn)).map Prod.fst) =
      (order.rotate (states 0).nextNodeIndex.toNat).map some := by
    refine List.ext_getElem (by simp) ?_
    intro turn small _
    rw [List.length_map,List.length_range] at small
    obtain ⟨key,next,selected,listed,_⟩ := run.selects leastLoaded small
    rw [run.index leastLoaded turn small,Nat.mod_mod] at listed
    simp only [List.getElem_map,List.getElem_range,List.getElem_rotate,selected,Option.map_some]
    rw [← listed,Nat.add_comm,List.getElem?_eq_getElem]
  rw [rotated]
  exact (List.rotate_perm order _).map some

end Rotation

/-- Under the least-loaded strategy a selection fails exactly when no node is free,
and otherwise takes the first best one of the turn and ends the turn behind it.
Nodes that stay level are taken in rotation. -/
theorem selection_rotating_argmin (config : Config)
    (leastLoaded : config.effectiveStrategy = leastLoadedStrategy) :
    (∀ state, NodeTable state → Representable state →
      (selectNodeLocked config state = none ↔ ∀ id node, state.nodes.lookup id = some node →
        ¬ Free node) ∧
      ∀ key next, selectNodeLocked config state = some (key,next) →
        ∃ offset node, FirstBest state key offset node ∧
          next =
            {state with nextNodeIndex := ((position state offset + 1) % state.nodeOrder.length : Nat)}) ∧
    ∀ order states, Consecutive config order states →
      ((List.range order.length).map
        (fun turn => (selectNodeLocked config (states turn)).map Prod.fst)).Perm (order.map some) :=
  ⟨fun _ table fits => ⟨selectNodeLocked_none_iff config table,
    fun _ _ => selectNodeLocked_firstBest leastLoaded table fits⟩,
    fun _ _ run => run.perm leastLoaded⟩

/-- Two idle workers of two slots each. -/
def twoWorkers : List Section :=
  [.register ⟨utf8 "worker-1",utf8 "127.0.0.1:9001",2,[]⟩ 1,
    .register ⟨utf8 "worker-2",utf8 "127.0.0.1:9002",2,[]⟩ 1]

def idlePair (turn : Nat) : State :=
  {exec defaultConfig twoWorkers newMemoryStore with nextNodeIndex := turn}

theorem idlePair_consecutive :
    Consecutive defaultConfig [utf8 "worker-1",utf8 "worker-2"] idlePair where
  listed := by decide
  table := by
    intro turn small
    have table := (exec_wellFormed defaultConfig twoWorkers).nodeTable
    exact {table with
      start := Int.natCast_nonneg turn
      inside := by
        change (turn : Int) < 2
        change turn < 2 at small
        omega}
  fits := by decide
  level := by
    intro turn _
    have level : Level (idlePair 0) := ⟨by decide,by decide,by decide⟩
    exact ⟨level.free,level.capacity,level.running⟩
  chained := by
    intro turn small key next selected
    change turn + 1 < 2 at small
    obtain rfl : turn = 0 := by omega
    have first : selectNodeLocked defaultConfig (idlePair 0) = some (utf8 "worker-1",idlePair 1) := rfl
    cases first.symm.trans selected
    rfl

theorem selection_rotating_argmin_pair :
    (∃ offset node,
      FirstBest (exec defaultConfig twoWorkers newMemoryStore) (utf8 "worker-1") offset node) ∧
    ((List.range 2).map
      (fun turn => (selectNodeLocked defaultConfig (idlePair turn)).map Prod.fst)).Perm
        [some (utf8 "worker-1"),some (utf8 "worker-2")] := by
  obtain ⟨selects,rotates⟩ := selection_rotating_argmin defaultConfig rfl
  obtain ⟨offset,node,first,_⟩ :=
    (selects _ (exec_wellFormed defaultConfig twoWorkers).nodeTable (by decide)).2 (utf8 "worker-1")
    (idlePair 1) rfl
  exact ⟨⟨offset,node,first⟩,rotates _ idlePair idlePair_consecutive⟩

end RdmaPlatform.Scheduler
