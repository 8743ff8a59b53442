import RdmaPlatform.Scheduler.WellFormed
import Mathlib.Algebra.Order.Field.Rat
import Mathlib.Data.Prod.Lex

/-! The least-loaded strategy: `internal/scheduler/strategy.go`. It compares load
ratios by two products of 64-bit integers. As long as both fit, or wrap equally often,
the three-level comparison orders the nodes by one rank; otherwise it may be turned round. -/
namespace RdmaPlatform.Scheduler
open Library

def loadRatio (node : Node) : ℚ := node.runningTasks.toInt / node.capacity.toInt

/-- Least ratio first, then most free slots, then fewest running tasks. -/
def loadRank (node : Node) : ℚ ×ₗ (ℤ ×ₗ ℤ) :=
  toLex (loadRatio node,toLex (node.runningTasks.toInt - node.capacity.toInt,node.runningTasks.toInt))

/-- The same for nodes that may be over their capacity, which count as having no free slot. -/
def snapshotRank (node : Node) : ℚ ×ₗ (ℤ ×ₗ ℤ) :=
  toLex (loadRatio node,
    toLex (-((node.capacity.toInt - node.runningTasks.toInt).toNat : ℤ),node.runningTasks.toInt))

/-- A node as the store holds it. -/
structure Loaded (node : Node) : Prop where
  capacity : 0 < node.capacity.toInt
  running : 0 ≤ node.runningTasks.toInt

theorem Node.Sound.loaded {id : Bytes} {node : Node} (sound : node.Sound id) : Loaded node :=
  ⟨Counter.pos_iff.mp sound.capacity,Counter.nonneg_iff.mp sound.running⟩

/-- The product that stands for the load of the first node in the comparison with the second. -/
def crossLoad (node other : Node) : Int := node.runningTasks.toInt * other.capacity.toInt

/-- Neither product of the comparison wraps. -/
def ProductsFit (left right : Node) : Prop := crossLoad left right < 2^63 ∧ crossLoad right left < 2^63

instance decidableProductsFit (left right : Node) : Decidable (ProductsFit left right) :=
  inferInstanceAs (Decidable (_ ∧ _))

section Wrapping

/-- How often 2^64 has to be taken off a number until 64 bits hold it. -/
def wraps (number : Int) : Int := (number + 2^63) / 2^64

/-- What is left of it then. -/
def residue (number : Int) : Int := number - 2^64 * wraps number

/-- Two numbers wrap equally often, or the one that wraps more often leaves more. -/
def WrapAlike (left right : Int) : Prop :=
  wraps left = wraps right ∨ wraps left < wraps right ∧ residue left < residue right ∨
    wraps right < wraps left ∧ residue right < residue left

theorem bmod_eq_residue (number : Int) : number.bmod (2^64) = residue number := by
  rw [Int.bmod_def,residue,wraps]
  omega

/-- Residues compare like the numbers exactly if the numbers wrap alike: one wrap is more
than any two residues differ by. -/
theorem residue_compare_iff (left right : Int) :
    ((residue left < residue right ↔ left < right) ∧
      (residue right < residue left ↔ right < left)) ↔ WrapAlike left right := by
  unfold WrapAlike residue wraps
  omega

theorem wrapAlike_of_fit {left right : Int} (nonneg : 0 ≤ left ∧ 0 ≤ right)
    (fit : left < 2^63 ∧ right < 2^63) :
    WrapAlike left right := by
  unfold WrapAlike wraps
  omega

theorem WrapAlike.symm {left right : Int} (alike : WrapAlike left right) : WrapAlike right left := by
  unfold WrapAlike at alike ⊢
  omega

end Wrapping

/-- The two products of the comparison are compared like the exact ones. -/
def ProductsWrapAlike (left right : Node) : Prop :=
  WrapAlike (crossLoad left right) (crossLoad right left)

theorem ProductsWrapAlike.symm {left right : Node} (alike : ProductsWrapAlike left right) :
    ProductsWrapAlike right left :=
  WrapAlike.symm alike

theorem ProductsFit.alike {left right : Node} (load : Loaded left) (load' : Loaded right)
    (fit : ProductsFit left right) :
    ProductsWrapAlike left right :=
  wrapAlike_of_fit ⟨Int.mul_nonneg load.running load'.capacity.le,
    Int.mul_nonneg load'.running load.capacity.le⟩ fit

section Levels

theorem compareAscending_neg_iff (left right : Int64) :
    compareAscending left right < 0 ↔ left.toInt < right.toInt := by
  simp only [compareAscending,gt_iff_lt,Int64.lt_iff_toInt_lt]
  split
  next below => simp [below]
  next above => split <;> simp [above]

theorem compareAscending_eq_zero_iff (left right : Int64) :
    compareAscending left right = 0 ↔ left.toInt = right.toInt := by
  simp only [compareAscending,gt_iff_lt,Int64.lt_iff_toInt_lt]
  split
  next below => simp [below.ne]
  next =>
    split
    next above => simp [above.ne']
    next => simp; omega

theorem compareAscending_swap (left right : Int64) :
    compareAscending left right = -compareAscending right left := by
  simp only [compareAscending,gt_iff_lt,Int64.lt_iff_toInt_lt]
  split
  next below => rw [if_neg (by omega)]
  next => split <;> simp

private theorem levels_neg_iff (first second third : Int) :
    (if first ≠ 0 then first else if second ≠ 0 then second else if third ≠ 0 then third else 0) <
      0 ↔ first < 0 ∨ first = 0 ∧ (second < 0 ∨ second = 0 ∧ third < 0) := by
  split
  next => omega
  next =>
    split
    next => omega
    next => split <;> omega

private theorem levels_neg (first second third : Int) :
    (if -first ≠ 0 then -first else if -second ≠ 0 then -second else if -third ≠ 0 then
      -third else 0) = -(if first ≠ 0 then first else if second ≠ 0 then second
      else if third ≠ 0 then third else 0) := by
  simp only [ne_eq,Int.neg_eq_zero]
  split
  next => rfl
  next =>
    split
    next => rfl
    next => split <;> simp

/-- The comparison is antisymmetric even where its products wrap. -/
theorem compare_swap (left right : Node) :
    leastLoadedStrategy.compare (some left) (some right) = -leastLoadedStrategy.compare (some right)
      (some left) := by
  simp only [leastLoadedStrategy]
  rw [← levels_neg]
  have ratio (first second : NodeLoadSnapshot) : compareLoadRatio first second =
      -compareLoadRatio second first :=
    compareAscending_swap _ _
  have slots (first second : Int64) : compareDescending first second =
      -compareDescending second first :=
    compareAscending_swap _ _
  rw [ratio,slots,compareAscending_swap]

/-- Equal loads tie, whether or not their products fit. -/
theorem compare_level {left right : Node} (capacity : left.capacity = right.capacity)
    (running : left.runningTasks = right.runningTasks) :
    leastLoadedStrategy.compare (some left) (some right) = 0 := by
  have same : snapshotNodeLoad (some left) = snapshotNodeLoad (some right) := by
    simp only [snapshotNodeLoad,capacity,running]
  have tie (value : Int64) : compareAscending value value = 0 :=
    (compareAscending_eq_zero_iff value value).mpr rfl
  simp only [leastLoadedStrategy,same,compareDescending,tie,ne_eq,not_true_eq_false,if_false]
  change (if ¬ compareAscending _ _ = 0 then compareAscending _ _ else 0) = 0
  simp only [tie,not_true_eq_false,if_false]

end Levels

section Exact

/-- What the snapshot of a stored node holds; free slots are counted from zero. -/
theorem Loaded.snapshot {node : Node} (load : Loaded node) :
    (snapshotNodeLoad (some node)).runningTasks = node.runningTasks ∧
    (snapshotNodeLoad (some node)).capacity = node.capacity ∧
    (snapshotNodeLoad (some node)).available.toInt =
      ((node.capacity.toInt - node.runningTasks.toInt).toNat : ℤ) := by
  have capacity := load.capacity
  have running := load.running
  have upper := node.capacity.toInt_lt
  have upper' := node.runningTasks.toInt_lt
  have notNegative : ¬ node.runningTasks < 0 := by
    rw [Int64.lt_iff_toInt_lt,Int64.toInt_zero]
    omega
  have positive : ¬ node.capacity ≤ 0 := by
    rw [Int64.le_iff_toInt_le,Int64.toInt_zero]
    omega
  have difference : (node.capacity - node.runningTasks).toInt =
      node.capacity.toInt - node.runningTasks.toInt := by
    rw [Int64.toInt_sub]
    apply Int.bmod_eq_of_le <;> omega
  simp only [snapshotNodeLoad,if_neg notNegative,if_neg positive,true_and]
  split
  next crowded =>
    rw [Int64.lt_iff_toInt_lt,difference,Int64.toInt_zero] at crowded
    rw [Int64.toInt_zero]
    omega
  next within =>
    rw [Int64.lt_iff_toInt_lt,difference,Int64.toInt_zero] at within
    rw [difference]
    omega

theorem toInt_product (left right : Node) :
    (left.runningTasks * right.capacity).toInt = residue (crossLoad left right) := by
  rw [Int64.toInt_mul]
  exact bmod_eq_residue _

theorem cross_lt_iff {left right : Node} (load : Loaded left) (load' : Loaded right) :
    crossLoad left right < crossLoad right left ↔ loadRatio left < loadRatio right := by
  have positive : (0 : ℚ) < left.capacity.toInt := by exact_mod_cast load.capacity
  have positive' : (0 : ℚ) < right.capacity.toInt := by exact_mod_cast load'.capacity
  rw [loadRatio,loadRatio,div_lt_div_iff₀ positive positive',crossLoad,crossLoad]
  exact_mod_cast Iff.rfl

theorem cross_eq_iff {left right : Node} (load : Loaded left) (load' : Loaded right) :
    crossLoad left right = crossLoad right left ↔ loadRatio left = loadRatio right := by
  have positive : (left.capacity.toInt : ℚ) ≠ 0 := by exact_mod_cast load.capacity.ne'
  have positive' : (right.capacity.toInt : ℚ) ≠ 0 := by exact_mod_cast load'.capacity.ne'
  rw [loadRatio,loadRatio,div_eq_div_iff positive positive',crossLoad,crossLoad]
  exact_mod_cast Iff.rfl

/-- The sign of the exact comparison of the load ratios. -/
def ratioSign (left right : Node) : Int :=
  if loadRatio left < loadRatio right then -1 else if loadRatio right < loadRatio left then 1 else 0

private theorem sign_eq_iff (left right exactLeft exactRight : Int) :
    ((if left < right then -1 else if right < left then 1 else 0 : Int) =
      if exactLeft < exactRight then -1 else if exactRight < exactLeft then 1 else 0) ↔
        (left < right ↔ exactLeft < exactRight) ∧ (right < left ↔ exactRight < exactLeft) := by
  split
  next => split <;> (try split) <;> omega
  next => split <;> split <;> (try split) <;> omega

/-- The comparison of the ratios is exact exactly if its products wrap alike. -/
theorem compareLoadRatio_exact_iff {left right : Node} (load : Loaded left) (load' : Loaded right) :
    compareLoadRatio (snapshotNodeLoad (some left)) (snapshotNodeLoad (some right)) =
      ratioSign left right ↔ ProductsWrapAlike left right := by
  obtain ⟨running,capacity,_⟩ := load.snapshot
  obtain ⟨running',capacity',_⟩ := load'.snapshot
  have compared : compareLoadRatio (snapshotNodeLoad (some left)) (snapshotNodeLoad (some right)) =
      if residue (crossLoad left right) < residue (crossLoad right left) then -1
      else if residue (crossLoad right left) < residue (crossLoad left right) then 1 else 0 := by
    simp only [compareLoadRatio,running,capacity,running',capacity',gt_iff_lt,Int64.lt_iff_toInt_lt,
      toInt_product]
  have exact_ : ratioSign left right =
      if crossLoad left right < crossLoad right left then -1
      else if crossLoad right left < crossLoad left right then 1 else 0 := by
    simp only [ratioSign,cross_lt_iff load load',cross_lt_iff load' load]
  rw [compared,exact_,sign_eq_iff]
  exact residue_compare_iff _ _

/-- The comparison is that of the ranks. -/
theorem compare_neg_iff_snapshotRank {left right : Node} (load : Loaded left) (load' : Loaded right)
    (alike : ProductsWrapAlike left right) :
    leastLoadedStrategy.compare (some left) (some right) < 0 ↔
      snapshotRank left < snapshotRank right := by
  obtain ⟨running,capacity,available⟩ := load.snapshot
  obtain ⟨running',capacity',available'⟩ := load'.snapshot
  obtain ⟨below,above⟩ := (residue_compare_iff _ _).mpr alike
  have level : residue (crossLoad left right) = residue (crossLoad right left) ↔
      crossLoad left right = crossLoad right left := by omega
  simp only [leastLoadedStrategy]
  rw [levels_neg_iff,snapshotRank,snapshotRank,Prod.Lex.toLex_lt_toLex,Prod.Lex.toLex_lt_toLex,
    ← cross_lt_iff load load',← cross_eq_iff load load',← below,← level,← toInt_product,
      ← toInt_product]
  change compareAscending _ _ < 0 ∨ compareAscending _ _ = 0 ∧ (compareAscending _ _ < 0 ∨
    compareAscending _ _ = 0 ∧ compareAscending _ _ < 0) ↔ _
  simp only [compareAscending_neg_iff,compareAscending_eq_zero_iff,running,capacity,available,
    running',capacity',available',neg_lt_neg_iff,neg_inj,
    eq_comm (a := ((right.capacity.toInt - right.runningTasks.toInt).toNat : ℤ))]

theorem compare_trans {left middle right : Node} (load : Loaded left) (load' : Loaded middle)
    (load'' : Loaded right) (alike : ProductsWrapAlike left middle)
    (alike' : ProductsWrapAlike middle right) (alike'' : ProductsWrapAlike left right)
    (first : leastLoadedStrategy.compare (some left) (some middle) ≤ 0)
    (second : leastLoadedStrategy.compare (some middle) (some right) ≤ 0) :
    leastLoadedStrategy.compare (some left) (some right) ≤ 0 := by
  -- Not being worse is not being better the other way round, where the rank decides.
  have level {one other : Node} (load : Loaded one) (load' : Loaded other)
      (alike : ProductsWrapAlike one other) :
      leastLoadedStrategy.compare (some one) (some other) ≤ 0 ↔
        snapshotRank one ≤ snapshotRank other := by
    rw [compare_swap,← not_lt (a := snapshotRank other),
      ← compare_neg_iff_snapshotRank load' load alike.symm]
    omega
  rw [level load load'' alike'']
  exact ((level load load' alike).mp first).trans ((level load' load'' alike').mp second)

end Exact

/-- A node that some run brings into the store. -/
def Occurs (config : Config) (node : Node) : Prop :=
  ∃ sections id, (exec config sections newMemoryStore).nodes.lookup id = some node

theorem Occurs.loaded {config : Config} {node : Node} (occurs : Occurs config node) : Loaded node := by
  obtain ⟨sections,id,found⟩ := occurs
  exact ((exec_wellFormed config sections).node id node found).loaded

/-- The comparison of load ratios is exact exactly on nodes whose products wrap alike, as
those do that fit an `int64`; among such nodes the whole comparison is transitive. It is
antisymmetric on all nodes. -/
theorem load_comparison_exact_iff (config : Config) :
    (∀ left right, Occurs config left → Occurs config right →
      (compareLoadRatio (snapshotNodeLoad (some left)) (snapshotNodeLoad (some right)) =
        ratioSign left right ↔ ProductsWrapAlike left right) ∧
      (ProductsFit left right → ProductsWrapAlike left right)) ∧
    (∀ left right, Occurs config left → Occurs config right →
      leastLoadedStrategy.compare (some left) (some right) =
        -leastLoadedStrategy.compare (some right) (some left)) ∧
    ∀ left middle right, Occurs config left → Occurs config middle → Occurs config right →
      ProductsWrapAlike left middle → ProductsWrapAlike middle right → ProductsWrapAlike left right →
      leastLoadedStrategy.compare (some left) (some middle) ≤ 0 →
      leastLoadedStrategy.compare (some middle) (some right) ≤ 0 →
      leastLoadedStrategy.compare (some left) (some right) ≤ 0 := by
  refine ⟨?_,fun left right _ _ => compare_swap left right,?_⟩
  · intro left right occurs occurs'
    exact ⟨compareLoadRatio_exact_iff occurs.loaded occurs'.loaded,
      fun fit => fit.alike occurs.loaded occurs'.loaded⟩
  · intro left middle right occurs occurs' occurs'' alike alike' alike'' first second
    exact compare_trans occurs.loaded occurs'.loaded occurs''.loaded alike alike' alike'' first second

/-- Two workers with the largest capacity of the gRPC interface, one of them with one
slot in use and the other with one slot free, and a worker of two slots. -/
def wideWorkers : List Section :=
  [.register ⟨utf8 "worker-1",utf8 "127.0.0.1:9001",4294967295,[]⟩ 1,
    .register ⟨utf8 "worker-2",utf8 "127.0.0.1:9002",4294967295,[]⟩ 1,
    .register ⟨utf8 "worker-3",utf8 "127.0.0.1:9003",2,[]⟩ 1,
    .heartbeat ⟨utf8 "worker-1",1,[],[]⟩ 2,.heartbeat ⟨utf8 "worker-2",4294967294,[],[]⟩ 2,
    .heartbeat ⟨utf8 "worker-3",1,[],[]⟩ 2]

def quietWorker : Node := ⟨utf8 "worker-1",utf8 "127.0.0.1:9001",4294967295,[],1,.ready,2⟩
def crowdedWorker : Node := ⟨utf8 "worker-2",utf8 "127.0.0.1:9002",4294967295,[],4294967294,.ready,2⟩
def smallWorker : Node := ⟨utf8 "worker-3",utf8 "127.0.0.1:9003",2,[],1,.ready,2⟩

theorem load_comparison_exact_iff_small :
    compareLoadRatio (snapshotNodeLoad (some quietWorker)) (snapshotNodeLoad (some smallWorker)) =
      ratioSign quietWorker smallWorker := by
  obtain ⟨exactly,fits⟩ := (load_comparison_exact_iff defaultConfig).1 quietWorker smallWorker
    ⟨wideWorkers,utf8 "worker-1",by decide⟩ ⟨wideWorkers,utf8 "worker-3",by decide⟩
  exact exactly.mpr (fits (by decide))

/-- The product of the crowded worker wraps, so it is preferred to the quiet one, which
is preferred to the small one, which is preferred to the crowded one. -/
theorem wrapped_product_prefers_crowded :
    Occurs defaultConfig crowdedWorker ∧ Occurs defaultConfig quietWorker ∧
      Occurs defaultConfig smallWorker ∧
    compareLoadRatio (snapshotNodeLoad (some crowdedWorker)) (snapshotNodeLoad (some quietWorker)) =
      -1 ∧
    ratioSign crowdedWorker quietWorker = 1 ∧
    leastLoadedStrategy.compare (some crowdedWorker) (some quietWorker) ≤ 0 ∧
    leastLoadedStrategy.compare (some quietWorker) (some smallWorker) ≤ 0 ∧
    ¬ leastLoadedStrategy.compare (some crowdedWorker) (some smallWorker) ≤ 0 :=
  ⟨⟨wideWorkers,utf8 "worker-2",by decide⟩,⟨wideWorkers,utf8 "worker-1",by decide⟩,
    ⟨wideWorkers,utf8 "worker-3",by decide⟩,by decide,by decide +kernel,by decide,by decide,by decide⟩

end RdmaPlatform.Scheduler
