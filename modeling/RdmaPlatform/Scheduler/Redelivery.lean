import RdmaPlatform.Scheduler.Iteration

/-! A running task until it is reported. Nothing but its report changes it, whatever becomes of
its worker: it is not assigned again, and every delivery cycle and every poll of a stream offers
it, to its own worker and to no other. -/
namespace RdmaPlatform.Scheduler
open Library

/-- A task that is running stays as it is. -/
theorem running_kept (config : Config) {before after : List Section}
    (bound : submissions (before ++ after) < 2^64) {id : Bytes} {task : Task}
    (found : (exec config before newMemoryStore).tasks.lookup id = some task)
    (running : task.status = .running) (unreported : ∀ req now, .complete id req now ∉ after) :
    (exec config (before ++ after) newMemoryStore).tasks.lookup id = some task := by
  have composed : ∀ first second third : Task, (first.status = .running → second = first) →
      (second.status = .running → third = second) → first.status = .running → third = first := by
    intro first second third early late runs
    have kept := early runs
    exact (late (kept ▸ runs)).trans kept
  obtain ⟨last,stored,same⟩ := task_history config before after bound id task found
    (fun first second => first.status = .running → second = first) (fun _ _ => rfl) composed (by
      intro step member state current next _ _ moves runs
      cases moves with
      | same => rfl
      | complete req now called => exact (unreported req now (called ▸ member)).elim
      | assign node now pending =>
        rw [pending] at runs
        cases runs)
  rw [same running] at stored
  exact stored

variable {state : State}

/-- What a snapshot says of a running task. -/
theorem mem_snapshot_iff (formed : WellFormed state) {id : Bytes} {task : Task} {node : Node}
    (found : state.tasks.lookup id = some task) (running : task.status = .running)
    (placed : state.nodes.lookup task.assignedWorker = some node) {item : Assignment}
    (named : item.taskID = id) :
    item ∈ snapshotAssignments state ↔ node.address ≠ [] ∧
      item = ⟨id,task.payloadRef,node.address⟩ := by
  have sound := formed.task id task found
  have offered : assignmentOf state task =
      if node.address = [] then none else some ⟨id,task.payloadRef,node.address⟩ := by
    simp [assignmentOf,running,sound.owned running,placed,sound.key]
  rw [snapshotAssignments,(List.perm_insertionSort _ _).mem_iff,List.mem_filterMap]
  constructor
  · rintro ⟨other,stored,made⟩
    have same : other = task := by
      have here := formed.lookup_of_mem stored
      rw [← assignmentOf_taskID made,named,found] at here
      exact (Option.some.inj here).symm
    rw [same,offered] at made
    split at made
    next => cases made
    next addressed => exact ⟨addressed,(Option.some.inj made).symm⟩
  · rintro ⟨addressed,rfl⟩
    exact ⟨task,(Table.mem_values_iff _ _).mpr ⟨id,found⟩,by rw [offered,if_neg addressed]⟩

/-- No task is listed twice. -/
theorem snapshot_nodup (formed : WellFormed state) :
    ((snapshotAssignments state).map Assignment.taskID).Nodup := by
  have ids : state.tasks.values.map Task.id = state.tasks.keys := by
    rw [Table.values,List.map_map]
    refine List.map_congr_left (fun entry member => ?_)
    exact (formed.task _ _ ((Table.mem_entries_iff _ _ _).mp member)).key
  have apart : state.tasks.values.Pairwise (fun first second => first.id ≠ second.id) := by
    rw [← List.pairwise_map (f := Task.id),ids]
    exact state.tasks.nodupKeys
  rw [snapshotAssignments,((List.perm_insertionSort _ _).map _).nodup_iff,List.Nodup,List.pairwise_map]
  refine apart.filterMap (assignmentOf state) ?_
  intro first second different one made other made' same
  rw [assignmentOf_taskID made,assignmentOf_taskID made'] at same
  exact different same

/-- What the streams say of it. -/
theorem mem_runningAssignments_iff (formed : WellFormed state) {id : Bytes} {task copy : Task}
    {worker : Bytes} (found : state.tasks.lookup id = some task) (running : task.status = .running)
    (named : copy.id = id) :
    copy ∈ Grpc.runningAssignments worker state ↔ worker = task.assignedWorker ∧
      copy = cloneTask task := by
  rw [Grpc.runningAssignments,(List.perm_insertionSort _ _).mem_iff,List.mem_map]
  constructor
  · rintro ⟨other,stored,rfl⟩
    obtain ⟨inside,chosen⟩ := List.mem_filter.mp stored
    have here := formed.lookup_of_mem inside
    have same : other = task := by
      rw [show other.id = id from named,found] at here
      exact (Option.some.inj here).symm
    subst same
    exact ⟨(of_decide_eq_true chosen).1.symm,rfl⟩
  · rintro ⟨rfl,rfl⟩
    refine ⟨task,List.mem_filter.mpr ⟨(Table.mem_values_iff _ _).mpr ⟨id,found⟩,?_⟩,rfl⟩
    simp [running]

/-- Whatever is done short of its report, a running task stays as it is, on its worker, and is
offered there: once in every delivery cycle, at the address that its worker has by then, and
among the running assignments of that worker only. -/
theorem offered_until_reported (config : Config) (run : Run) (before after : List Section)
    (split_ : run.sections = before ++ after) (id : Bytes) (task : Task)
    (found : (exec config before newMemoryStore).tasks.lookup id = some task)
    (running : task.status = .running) (unreported : ∀ req now, .complete id req now ∉ after) :
    let final := run.state config
    final.tasks.lookup id = some task ∧
    ∃ node, final.nodes.lookup task.assignedWorker = some node ∧
      (∀ item : Assignment, item.taskID = id →
        (item ∈ snapshotAssignments final ↔ node.address ≠ [] ∧
          item = ⟨id,task.payloadRef,node.address⟩)) ∧
      ((snapshotAssignments final).map Assignment.taskID).Nodup ∧
      ∀ (worker : Bytes) (copy : Task), copy.id = id →
        (copy ∈ Grpc.runningAssignments worker final ↔ worker = task.assignedWorker ∧
          copy = cloneTask task) := by
  intro final
  have formed : WellFormed final := exec_wellFormed config run.sections
  have kept : final.tasks.lookup id = some task := by
    have same := running_kept config (split_ ▸ run.bounded) found running unreported
    rw [← split_] at same
    exact same
  have owned := (formed.task id task kept).owned running
  obtain ⟨node,placed⟩ := (Table.mem_keys_iff _ _).mp (formed.owner id task kept owned)
  exact ⟨kept,node,placed,fun item named => mem_snapshot_iff formed kept running placed named,
    snapshot_nodup formed,fun worker copy named => mem_runningAssignments_iff formed kept running named⟩

/-- The worker of the running task goes offline, and another one with room registers. -/
def stranding : List Section :=
  [.refreshNodeStates 1000000000000,.register ⟨utf8 "worker-2",utf8 "b:2",4,[]⟩ 1000000000001,
    .dispatchPending 1000000000002]

def strandedRun : Run where
  sections := [.register ⟨utf8 "worker-1",utf8 "a:1",1,[]⟩ 1,
    .submit ⟨utf8 "m",utf8 "infer",[],none⟩ 2,.dispatchPending 3] ++ stranding
  bounded := by decide +kernel

theorem offered_until_reported_stranded :
    ((strandedRun.state defaultConfig).nodes.lookup (utf8 "worker-1")).map (·.status) = some .offline ∧
      ∃ task, (strandedRun.state defaultConfig).tasks.lookup (formatTaskID 1) = some task ∧
        task.status = .running ∧ task.assignedWorker = utf8 "worker-1" := by
  have begun : ((exec defaultConfig [.register ⟨utf8 "worker-1",utf8 "a:1",1,[]⟩ 1,
      .submit ⟨utf8 "m",utf8 "infer",[],none⟩ 2,.dispatchPending 3] newMemoryStore).tasks.lookup
        (formatTaskID 1)).map (fun task => (task.status,task.assignedWorker)) =
        some (.running,utf8 "worker-1") := by decide +kernel
  obtain ⟨task,found,same⟩ := Option.map_eq_some_iff.mp begun
  obtain ⟨running,owner⟩ := Prod.mk.inj same
  have kept := offered_until_reported defaultConfig strandedRun _ stranding rfl (formatTaskID 1)
    task found running
    (by simp [stranding])
  exact ⟨by decide +kernel,task,kept.1,running,owner⟩

end RdmaPlatform.Scheduler
