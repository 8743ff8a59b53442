import RdmaPlatform.Scheduler.Iteration
import RdmaPlatform.Scheduler.Tables
import RdmaPlatform.Library.NumeralOrder

/-! Task identifiers as a tie-break. Tasks of one creation time are dispatched and listed
by their identifiers, which are compared as strings. Six digits keep the order of
submission; from the millionth task on, an identifier may come before an older one. -/
namespace RdmaPlatform.Scheduler
open Library

/-- The decimal digits of a counter, at least six. -/
def digitCount (counter : UInt64) : Nat := Nat.max 6 (Nat.toDigits 10 counter.toNat).length

/-- The older counter, moved to the left by the digits it has less, is not above the newer one. -/
def InOrder (older newer : UInt64) : Prop :=
  older.toNat * 10^(digitCount newer - digitCount older) ≤ newer.toNat

theorem padded_length_eq (counter : UInt64) :
    (Decimal.padded 6 counter.toNat).length = digitCount counter := by
  rw [Decimal.padded_length,Decimal.decimal,List.length_map,digitCount]

theorem formatTaskID_lt_iff {older newer : UInt64} (ordered : older < newer) :
    formatTaskID older < formatTaskID newer ↔ InOrder older newer := by
  have digits := Decimal.padded_lt_iff 6 (UInt64.lt_iff_toNat_lt.mp ordered)
  have tags : formatTaskID older < formatTaskID newer ↔
      Decimal.padded 6 older.toNat < Decimal.padded 6 newer.toNat := Decimal.append_lt_append_iff _ _ _
  rw [tags,digits,padded_length_eq,padded_length_eq,InOrder]

theorem inOrder_of_digitCount_le {older newer : UInt64} (ordered : older < newer)
    (same : digitCount newer ≤ digitCount older) : InOrder older newer := by
  rw [InOrder,Nat.sub_eq_zero_of_le same,Nat.pow_zero,Nat.mul_one]
  exact (UInt64.lt_iff_toNat_lt.mp ordered).le

theorem inOrder_of_six_digits {older newer : UInt64} (ordered : older < newer)
    (small : newer.toNat < 10^6) :
    InOrder older newer := by
  apply inOrder_of_digitCount_le ordered
  have digits : (Nat.toDigits 10 newer.toNat).length ≤ 6 :=
    (Nat.length_toDigits_le_iff (by decide) (by decide)).mpr small
  unfold digitCount
  change max _ _ ≤ max _ _
  omega

/-- The order of the identifiers in which both lists are sorted. -/
def RankedBefore (state : State) (left right : Bytes) : Prop :=
  ∀ first second, state.tasks.lookup left = some first → state.tasks.lookup right = some second →
    rank first < rank second

theorem mem_overview_tasks (config : Config) (now : Time) (state : State) (task : Task) :
    task ∈ (overview config now state).1.tasks ↔ ∃ stored ∈ state.tasks.values,
      cloneTask stored = task :=
  (List.mem_insertionSort _).trans List.mem_map

theorem overview_ids_perm (config : Config) (now : Time) {state : State} (formed : WellFormed state) :
    ((overview config now state).1.tasks.map (·.id)).Perm state.tasks.keys := by
  have permuted := (List.perm_insertionSort (fun left right => ¬ earlier right left)
    (state.tasks.values.map cloneTask)).map (·.id)
  have keys : (state.tasks.values.map cloneTask).map (·.id) = state.tasks.keys := by
    simp only [Table.values,List.map_map,AList.keys,List.keys]
    apply List.map_congr_left
    rintro ⟨id,task⟩ member
    exact (formed.task id task ((Table.mem_entries_iff _ _ _).mp member)).key
  exact keys ▸ permuted

theorem mem_overview_ids (config : Config) (now : Time) {state : State} (formed : WellFormed state)
    {id : Bytes} {task : Task} (found : state.tasks.lookup id = some task) :
    id ∈ (overview config now state).1.tasks.map (·.id) :=
  (overview_ids_perm config now formed).mem_iff.mpr ((Table.mem_keys_iff _ _).mpr ⟨task,found⟩)

theorem overview_ids_sorted (config : Config) (now : Time) {state : State} (formed : WellFormed state) :
    ((overview config now state).1.tasks.map (·.id)).Pairwise (RankedBefore state) := by
  have sorted := (sorts_insertionSort _ earlier_iff (state.tasks.values.map cloneTask)).pairwise
    _ earlier_iff
  have distinct : (overview config now state).1.tasks.Pairwise (fun left right => left.id ≠ right.id) :=
    List.pairwise_map.mp ((overview_ids_perm config now formed).nodup_iff.mpr state.tasks.nodupKeys)
  have stored (task : Task) (member : task ∈ (overview config now state).1.tasks) (found : Task)
      (lookup : state.tasks.lookup task.id = some found) : rank found = rank task := by
    obtain ⟨original,inside,rfl⟩ := (mem_overview_tasks config now state task).mp member
    have same : found = original := Option.some.inj (lookup.symm.trans (formed.lookup_of_mem inside))
    rw [same]
    rfl
  rw [List.pairwise_map]
  refine List.Pairwise.imp_of_mem ?_ (sorted.and distinct)
  intro left right leftIn rightIn both first second found found'
  rw [stored left leftIn first found,stored right rightIn second found']
  exact lt_of_le_of_ne both.1 (fun same => both.2 (rank_id same))

section Tie

variable {state : State} (formed : WellFormed state) {older newer : UInt64}
  (ordered : older < newer) {first second : Task}
  (found : state.tasks.lookup (formatTaskID older) = some first)
  (found' : state.tasks.lookup (formatTaskID newer) = some second)
    (tie : first.createdAt = second.createdAt)
include formed ordered found found' tie

theorem rankedBefore_iff :
    RankedBefore state (formatTaskID older) (formatTaskID newer) ↔ InOrder older newer := by
  have ids : rank first < rank second ↔ formatTaskID older < formatTaskID newer := by
    rw [← (formed.task _ first found).key,← (formed.task _ second found').key,← earlier_iff,
      earlier,if_pos tie]
  rw [← formatTaskID_lt_iff ordered,← ids]
  constructor
  · intro before
    exact before first second found found'
  · intro before other other' lookup lookup'
    rw [← Option.some.inj (found.symm.trans lookup),← Option.some.inj (found'.symm.trans lookup')]
    exact before

/-- In a list sorted by rank the two stand in the order of submission exactly if they are in order. -/
theorem pair_sublist_iff_inOrder {ids : List Bytes} (sorted : ids.Pairwise (RankedBefore state))
    (olderIn : formatTaskID older ∈ ids) (newerIn : formatTaskID newer ∈ ids) :
    [formatTaskID older,formatTaskID newer].Sublist ids ↔ InOrder older newer := by
  have different : formatTaskID older ≠ formatTaskID newer :=
    formatTaskID_injective.ne (UInt64.ne_of_lt ordered)
  rw [← rankedBefore_iff formed ordered found found' tie]
  refine pair_sublist_iff sorted olderIn newerIn different ?_
  intro before after
  exact lt_asymm (before first second found found') (after second first found' found)

theorem pair_sublist_of_not_inOrder {ids : List Bytes} (sorted : ids.Pairwise (RankedBefore state))
    (olderIn : formatTaskID older ∈ ids) (newerIn : formatTaskID newer ∈ ids)
    (reversed : ¬ InOrder older newer) :
    [formatTaskID newer,formatTaskID older].Sublist ids := by
  have different : formatTaskID older ≠ formatTaskID newer :=
    formatTaskID_injective.ne (UInt64.ne_of_lt ordered)
  refine (pair_sublist_or olderIn newerIn different).resolve_left ?_
  exact mt (pair_sublist_iff_inOrder formed ordered found found' tie sorted olderIn newerIn).mp reversed

end Tie

def Running (state : State) (id : Bytes) : Prop :=
  ∃ task, state.tasks.lookup id = some task ∧ task.status = .running

theorem dispatch_running_iff (config : Config) (now : Time) {state : State}
    (formed : WellFormed state) {id : Bytes} (waiting : id ∈ (pendingTasks state).map (·.1)) :
    Running (dispatchPending config now state) id ↔
      id ∈ ((pendingTasks state).map (·.1)).take (freeSlots config now state) := by
  obtain ⟨placed,placement⟩ := dispatchPending_placement config now state formed
  rw [← placement.first]
  constructor
  · rintro ⟨task,found,running⟩
    by_contra outside
    obtain ⟨before,lookup,pending⟩ := (mem_pending_keys state id).mp waiting
    rw [placement.kept id outside,lookup] at found
    cases found
    rw [pending] at running
    cases running
  · intro member
    obtain ⟨pair,inside,rfl⟩ := List.mem_map.mp member
    obtain ⟨task,_,moved⟩ := placement.moved pair inside
    exact ⟨_,moved,rfl⟩

/-- A dispatch that starts one of two waiting tasks has started the one in front of it. -/
theorem dispatch_starts_first (config : Config) (now : Time) {state : State}
    (formed : WellFormed state) {left right : Bytes}
    (inside : [left,right].Sublist ((pendingTasks state).map (·.1)))
    (started : Running (dispatchPending config now state) right) :
    Running (dispatchPending config now state) left := by
  have leftIn : left ∈ (pendingTasks state).map (·.1) := inside.subset (by simp)
  have rightIn : right ∈ (pendingTasks state).map (·.1) := inside.subset (by simp)
  rw [dispatch_running_iff config now formed leftIn]
  exact mem_take_of_pair_sublist (pending_keys_nodup state) inside
    ((dispatch_running_iff config now formed rightIn).mp started)

/-- Identifiers are ordered as their counters exactly where those are in order, as counters of
six digits and counters of equally many digits are. Two tasks of one creation time are then
listed in the order of their submission, wait in it, and are started in it; otherwise in the
opposite order. -/
theorem submission_order_iff (older newer : UInt64) (ordered : older < newer) :
    (formatTaskID older < formatTaskID newer ↔ InOrder older newer) ∧
    (newer.toNat < 10^6 → InOrder older newer) ∧
    (digitCount newer = digitCount older → InOrder older newer) ∧
    ∀ (config : Config) (sections : List Section) (now : Time) (first second : Task),
      let state := exec config sections newMemoryStore
      state.tasks.lookup (formatTaskID older) = some first →
        state.tasks.lookup (formatTaskID newer) = some second →
      first.createdAt = second.createdAt →
      ([formatTaskID older,formatTaskID newer].Sublist
        ((overview config now state).1.tasks.map (·.id)) ↔ InOrder older newer) ∧
      (first.status = .pending → second.status = .pending →
        ([formatTaskID older,formatTaskID newer].Sublist ((pendingTasks state).map (·.1)) ↔
          InOrder older newer) ∧
        let after := dispatchPending config now state
        (InOrder older newer → Running after (formatTaskID newer) →
          Running after (formatTaskID older)) ∧
        (¬ InOrder older newer → Running after (formatTaskID older) →
          Running after (formatTaskID newer))) := by
  refine ⟨formatTaskID_lt_iff ordered,inOrder_of_six_digits ordered,
    fun same => inOrder_of_digitCount_le ordered same.le,?_⟩
  intro config sections now first second state found found' tie
  have formed : WellFormed state := exec_wellFormed config sections
  refine ⟨pair_sublist_iff_inOrder formed ordered found found' tie
    (overview_ids_sorted config now formed) (mem_overview_ids config now formed found)
    (mem_overview_ids config now formed found'),?_⟩
  intro pending pending'
  have olderIn := (mem_pending_keys state _).mpr ⟨first,found,pending⟩
  have newerIn := (mem_pending_keys state _).mpr ⟨second,found',pending'⟩
  have waiting := pair_sublist_iff_inOrder formed ordered found found' tie
    (pending_keys_sorted state formed) olderIn newerIn
  refine ⟨waiting,?_,?_⟩
  · intro inOrder
    exact dispatch_starts_first config now formed (waiting.mpr inOrder)
  · intro reversed
    exact dispatch_starts_first config now formed
      (pair_sublist_of_not_inOrder formed ordered found found' tie
      (pending_keys_sorted state formed) olderIn newerIn reversed)

def tiedRequest : SubmitTaskRequest := ⟨utf8 "llama",utf8 "generate",utf8 "payload",none⟩

/-- Submissions that all read one clock value. -/
def flood (count : Nat) : List Section := List.replicate count (.submit tiedRequest 2)

theorem flood_succ (config : Config) (count : Nat) :
    exec config (flood (count + 1)) newMemoryStore =
      (submitWrite tiedRequest 2 (exec config (flood count) newMemoryStore)).2 := by
  rw [flood,List.replicate_succ',exec_append]
  exact submit_apply config _ tiedRequest 2 (by decide)

theorem flood_counter (config : Config) (count : Nat) :
    (exec config (flood count) newMemoryStore).taskCounter = .ofNat count := by
  induction count with
  | zero => rfl
  | succ count ih =>
    rw [flood_succ]
    change (exec config (flood count) newMemoryStore).taskCounter + 1 = _
    rw [ih,UInt64.ofNat_add]
    rfl

theorem flood_lookup (config : Config) {count : Nat} {index : UInt64} (issued : 0 < index)
    (inside : index.toNat ≤ count) :
    (exec config (flood count) newMemoryStore).tasks.lookup (formatTaskID index) =
      some (submitted (formatTaskID index) tiedRequest 2) := by
  induction count with
  | zero =>
    have positive := UInt64.lt_iff_toNat_lt.mp issued
    exact absurd inside (Nat.not_le.mpr positive)
  | succ count ih =>
    rw [flood_succ]
    change ((exec config (flood count) newMemoryStore).tasks.put
      (formatTaskID ((exec config (flood count) newMemoryStore).taskCounter + 1)) _).lookup _ = _
    rw [Table.lookup_put]
    split
    next same => rw [same]
    next different =>
      refine ih (Nat.le_of_lt_succ (Nat.lt_of_le_of_ne inside ?_))
      intro last
      refine different (congrArg formatTaskID ?_)
      rw [flood_counter,← UInt64.toNat_inj,UInt64.toNat_add,UInt64.toNat_ofNat',last]
      have below := index.toNat_lt
      have one : (1 : UInt64).toNat = 1 := rfl
      omega

theorem submission_order_iff_two_tasks :
    let state := exec defaultConfig (flood 2) newMemoryStore
    [formatTaskID 1,formatTaskID 2].Sublist ((overview defaultConfig 3 state).1.tasks.map (·.id)) ∧
    [formatTaskID 1,formatTaskID 2].Sublist ((pendingTasks state).map (·.1)) := by
  obtain ⟨_,inOrder,_,ordered⟩ := submission_order_iff 1 2 (by decide)
  obtain ⟨listed,waits⟩ := ordered defaultConfig (flood 2) 3 _ _
    (flood_lookup _ (by decide) (by decide)) (flood_lookup _ (by decide) (by decide)) rfl
  exact ⟨listed.mpr (inOrder (by decide)),(waits rfl rfl).1.mpr (inOrder (by decide))⟩

/-- Of two tasks that were submitted at one time the newer one is listed and waits first. -/
theorem flood_reversed (config : Config) (now : Time) (count : Nat) {older newer : UInt64}
    (issued : 0 < older) (ordered : older < newer) (inside : newer.toNat ≤ count)
    (reversed : ¬ InOrder older newer) :
    let state := exec config (flood count) newMemoryStore
    [formatTaskID newer,formatTaskID older].Sublist ((overview config now state).1.tasks.map (·.id)) ∧
    [formatTaskID newer,formatTaskID older].Sublist ((pendingTasks state).map (·.1)) := by
  intro state
  have formed : WellFormed state := exec_wellFormed config (flood count)
  have below := UInt64.lt_iff_toNat_lt.mp ordered
  have found : state.tasks.lookup (formatTaskID older) = _ :=
    flood_lookup config issued (below.le.trans inside)
  have found' : state.tasks.lookup (formatTaskID newer) = _ :=
    flood_lookup config (UInt64.lt_trans issued ordered) inside
  constructor
  · exact pair_sublist_of_not_inOrder formed ordered found found' rfl
      (overview_ids_sorted config now formed) (mem_overview_ids config now formed found)
      (mem_overview_ids config now formed found') reversed
  · exact pair_sublist_of_not_inOrder formed ordered found found' rfl (pending_keys_sorted state formed)
      ((mem_pending_keys state _).mpr ⟨_,found,rfl⟩)
        ((mem_pending_keys state _).mpr ⟨_,found',rfl⟩) reversed

/-- One free slot, and the two tasks before and after the number of digits grows. -/
def crowded : State where
  nodes := (∅ : Table Bytes Node).put (utf8 "w1") ⟨utf8 "w1",[],1,[],0,.ready,2⟩
  tasks := ((∅ : Table Bytes Task).put (formatTaskID 999999)
    (submitted (formatTaskID 999999) tiedRequest 2)).put (formatTaskID 1000000)
    (submitted (formatTaskID 1000000) tiedRequest 2)
  nodeOrder := [utf8 "w1"]
  nextNodeIndex := 0
  taskCounter := 1000000

/-- The millionth task goes first: its identifier is below that of the task before it, after
a million submissions at one time it is listed and waits in front of it, and it takes the
one free slot from it. -/
theorem millionth_task_overtakes :
    formatTaskID 1000000 < formatTaskID 999999 ∧
    (let state := exec defaultConfig (flood 1000000) newMemoryStore
    [formatTaskID 1000000,formatTaskID 999999].Sublist
      ((overview defaultConfig 3 state).1.tasks.map (·.id)) ∧
    [formatTaskID 1000000,formatTaskID 999999].Sublist ((pendingTasks state).map (·.1))) ∧
    ((dispatchPendingLocked defaultConfig crowded 3).tasks.lookup (formatTaskID 1000000)).map
      (·.status) = some .running ∧
    ((dispatchPendingLocked defaultConfig crowded 3).tasks.lookup (formatTaskID 999999)).map
      (·.status) = some .pending := by
  have reversed : ¬ InOrder 999999 1000000 := by
    unfold InOrder
    decide +kernel
  exact ⟨by decide +kernel,
    flood_reversed defaultConfig 3 1000000 (by decide) (by decide) (by decide) reversed,
    by decide +kernel,by decide +kernel⟩

end RdmaPlatform.Scheduler
