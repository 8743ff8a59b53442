import RdmaPlatform.Worker.Custody
import RdmaPlatform.Library.Transition

/-! `enqueueTask` called from any number of threads. Each receiver has its own place in
the call; a step of one of them is a step of the node with that place for its acceptor.
The set of active ids and the queue have a lock each, so any step may come between the
insertion of an id, the push of its task and the rollback of a refused push. -/
namespace RdmaPlatform.Worker
open Library

/-- The acceptor of `node` is not used: the places are in `receivers`. -/
structure Crew where
  node : Node
  receivers : List Acceptor

def Crew.start (id address : Bytes) (threads receivers : Nat) : Crew :=
  ⟨Node.start id address threads,List.replicate receivers .idle⟩

inductive Access where
  | enqueueTask (receiver : Nat) (task : Task)
  | insertTask (receiver : Nat)
  | pushTask (receiver : Nat)
  | refuseTask (receiver : Nat)
  | work (inner : Local)
  | postResult (consumer : Nat)
  | stopQueue

def Crew.receive (crew : Crew) (index : Nat) (access : Node → Option Node) : Option Crew :=
  match crew.receivers[index]? with
  | none => none
  | some receiver =>
    (access {crew.node with acceptor := receiver}).map (fun next =>
      ⟨{next with acceptor := .idle},crew.receivers.set index next.acceptor⟩)

def Crew.step (crew : Crew) : Access → Option Crew
  | .enqueueTask index task =>
    if crew.receivers[index]? = some .idle then
      some {crew with receivers := crew.receivers.set index (.received task)}
    else none
  | .insertTask index => crew.receive index insertTask
  | .pushTask index => crew.receive index pushTask
  | .refuseTask index => crew.receive index refuseTask
  | .work inner => (crew.node.step inner).map (fun node => {crew with node := node})
  | .postResult index => (postResult index crew.node).map (fun sent => {crew with node := sent.2})
  | .stopQueue => some {crew with node := {crew.node with stopped := true}}

/-- The ids of the tasks in the process: inserted and not pushed or not rolled back,
queued, and popped and not finished. -/
def Crew.held (crew : Crew) : List Bytes :=
  crew.receivers.filterMap Acceptor.holder ++ crew.node.queue.map (fun task => task.id) ++
    crew.node.consumers.filterMap Consumer.holder

structure Crew.Sound (crew : Crew) : Prop where
  free : crew.node.acceptor = .idle
  distinct : crew.node.activeTaskIds.Nodup
  held : crew.node.custody.HeldBeside (fun id => occurrences Acceptor.holder id crew.receivers)

theorem occurrences_eq_count {α : Type} (view : α → Option Bytes) (id : Bytes) (places : List α) :
    occurrences view id places = (places.filterMap view).count id := by
  induction places with
  | nil => rfl
  | cons place rest ih =>
    have split_ : occurrences view id (place::rest) = occurs id (view place) +
        occurrences view id rest := by
      simp [occurrences]
    rw [split_,ih,List.filterMap_cons]
    cases view place with
    | none => simp
    | some other =>
      simp only [occurs_some,List.count_cons,beq_iff_eq]
      omega

theorem Crew.count_held (crew : Crew) (id : Bytes) : crew.held.count id =
    occurrences Acceptor.holder id crew.receivers + occurrences (fun task => some task.id) id
      crew.node.queue + occurrences Consumer.holder id crew.node.consumers := by
  have queued : crew.node.queue.filterMap (fun task => some task.id) =
      crew.node.queue.map (fun task => task.id) :=
    congrFun List.filterMap_eq_map _
  simp only [held,List.count_append,occurrences_eq_count,queued]

theorem heldBeside_iff (others : Bytes → Nat) (node : Node) : node.custody.HeldBeside others ↔
    ∀ id, others id + (occurs id node.acceptor.holder + occurrences (fun task => some task.id) id
      node.queue + occurrences Consumer.holder id node.consumers) =
      if id ∈ node.activeTaskIds then 1 else 0 :=
  Iff.rfl

theorem Crew.Sound.perm {crew : Crew} (sound : crew.Sound) :
    crew.node.activeTaskIds.Perm crew.held := by
  refine List.perm_iff_count.mpr (fun id => ?_)
  have here := (heldBeside_iff _ _).mp sound.held id
  rw [sound.free,Acceptor.holder,occurs_none] at here
  rw [Crew.count_held,List.Nodup.count sound.distinct,← here]
  omega

theorem start_sound (id address : Bytes) (threads receivers : Nat) :
    (Crew.start id address threads receivers).Sound where
  free := rfl
  distinct := List.nodup_nil
  held := by
    intro taskID
    have none_ : occurrences Acceptor.holder taskID (List.replicate receivers .idle) = 0 := by
      simp [occurrences,Acceptor.holder]
    simp only [Crew.start,none_,Nat.zero_add]
    exact start_held id address threads taskID

/-- While a receiver has its place in the node, the other receivers are beside it. -/
theorem receive_sound {crew next : Crew} {index : Nat} {access : Node → Option Node}
    (sound : crew.Sound)
    (handover : ∀ before after : Node, access before = some after →
      Handover true before.custody after.custody)
    (taken : crew.receive index access = some next) : next.Sound := by
  unfold Crew.receive at taken
  split at taken
  next => cases taken
  next receiver at_ =>
    obtain ⟨after,moved,rfl⟩ := Option.map_eq_some_iff.mp taken
    have given := handover _ _ moved
    have inside : ({crew.node with acceptor := receiver} : Node).custody.HeldBeside
        (fun id => occurrences Acceptor.holder id (crew.receivers.set index .idle)) := by
      refine (heldBeside_iff _ _).mpr (fun id => ?_)
      have here := (heldBeside_iff _ _).mp sound.held id
      have place : _ + _ = _ + occurs id none := occurrences_set Acceptor.holder id _ index
        receiver .idle at_
      rw [sound.free,Acceptor.holder,occurs_none] at here
      rw [occurs_none] at place
      rw [← here]
      simp only
      omega
    refine ⟨rfl,handover_nodup given sound.distinct,(heldBeside_iff _ _).mpr (fun id => ?_)⟩
    have here := (heldBeside_iff _ _).mp (handover_heldBeside given inside) id
    have bound : index < crew.receivers.length := (List.getElem?_eq_some_iff.mp at_).1
    have place : _ + occurs id none = _ := occurrences_set Acceptor.holder id
      (crew.receivers.set index .idle) index
      .idle after.acceptor (List.getElem?_set_self bound)
    rw [List.set_set,occurs_none] at place
    simp only [Acceptor.holder,occurs_none]
    rw [← here]
    omega

theorem step_idle {node next : Node} {inner : Local} (taken : node.step inner = some next)
    (free : node.acceptor = .idle) : next.acceptor = .idle := by
  cases inner <;>
    simp only [Node.step,insertTask,pushTask,refuseTask,checkRunning,popTask,startTask,
      completeTask,endReport,finishReported,beginBeat,countRunning,snapshotActive,flagStop,
      closeTransport,stopQueue,free] at taken <;>
    (repeat' split at taken) <;> cases taken <;> first | rfl | exact free

theorem handover_sound {crew : Crew} {next : Node} {inserting : Bool} (sound : crew.Sound)
    (free : next.acceptor = .idle) (given : Handover inserting crew.node.custody next.custody) :
    ({crew with node := next} : Crew).Sound :=
  ⟨free,handover_nodup given sound.distinct,handover_heldBeside given sound.held⟩

theorem Crew.step_sound {crew next : Crew} {access : Access} (sound : crew.Sound)
    (taken : crew.step access = some next) : next.Sound := by
  cases access with
  | enqueueTask index task =>
    simp only [step] at taken
    split at taken
    next at_ =>
      cases taken
      refine ⟨sound.free,sound.distinct,(heldBeside_iff _ _).mpr (fun id => ?_)⟩
      have place : _ + occurs id none = _ + occurs id none :=
        occurrences_set Acceptor.holder id _ index .idle (.received task) at_
      rw [Nat.add_right_cancel place]
      exact sound.held id
    next => cases taken
  | insertTask index => exact receive_sound sound (fun _ _ moved => acceptor_handover moved) taken
  | pushTask index =>
    exact receive_sound sound (fun _ _ moved => queue_handover true (.inl moved)) taken
  | refuseTask index =>
    exact receive_sound sound (fun _ _ moved => queue_handover true (.inr moved)) taken
  | work inner =>
    obtain ⟨after,moved,rfl⟩ := Option.map_eq_some_iff.mp taken
    exact handover_sound sound (step_idle moved sound.free) (step_handover moved)
  | postResult index =>
    obtain ⟨⟨result,after⟩,moved,rfl⟩ := Option.map_eq_some_iff.mp taken
    have free : after.acceptor = .idle := by
      rw [(postResult_inv moved).2]
      exact sound.free
    exact handover_sound sound free (postResult_handover true moved)
  | stopQueue =>
    cases taken
    exact ⟨sound.free,sound.distinct,sound.held⟩

/-- A receiver whose push was refused can always roll back. -/
theorem Crew.refuseTask_rollsBack {crew : Crew} {index : Nat} {task : Task} (sound : crew.Sound)
    (at_ : crew.receivers[index]? = some (.refused task)) :
    ∃ next, crew.step (.refuseTask index) = some next ∧
      next.Sound ∧ next.node.activeTaskIds =
        crew.node.activeTaskIds.filter (fun id => id ≠ task.id) := by
  have taken : crew.step (.refuseTask index) =
      some ⟨finishTask task.id {crew.node with acceptor := .idle},crew.receivers.set index .idle⟩ := by
    rw [step,receive,at_]
    rfl
  exact ⟨_,taken,Crew.step_sound sound taken,rfl⟩

/-- Over every run the active ids are, without repetition, those of the tasks in the
process, so no id is queued or executed twice; the rollback of a refused push leaves its
id in no place and keeps the others. -/
theorem active_eq_held (id address : Bytes) (threads receivers : Nat) (accesses : List Access)
    (final : Crew)
    (ran : Transition.run Crew.step accesses (Crew.start id address threads receivers) = some final) :
    final.node.activeTaskIds.Nodup ∧ final.node.activeTaskIds.Perm final.held ∧ final.held.Nodup ∧
    ∀ index task, final.receivers[index]? = some (.refused task) →
      ∃ next, final.step (.refuseTask index) = some next ∧ task.id ∉ next.held ∧
        ∀ other, other ∈ next.node.activeTaskIds ↔ other ∈ final.node.activeTaskIds ∧
          other ≠ task.id := by
  have sound := Transition.run_kept (fun _ _ _ sound taken => Crew.step_sound sound taken)
    accesses _ final
    (start_sound id address threads receivers) ran
  refine ⟨sound.distinct,sound.perm,sound.perm.nodup_iff.mp sound.distinct,?_⟩
  intro index task at_
  obtain ⟨next,taken,after,active⟩ := Crew.refuseTask_rollsBack sound at_
  have kept (other : Bytes) :
      other ∈ next.node.activeTaskIds ↔ other ∈ final.node.activeTaskIds ∧ other ≠ task.id := by
    simp [active]
  exact ⟨next,taken,fun member => ((kept task.id).mp (after.perm.mem_iff.mpr member)).2 rfl,kept⟩

/-- Two receivers of one task and one of another, of which one is queued, one skipped and
one refused. -/
def refusedPush : List Access :=
  [.enqueueTask 0 ⟨utf8 "task-000001",utf8 "a"⟩,.enqueueTask 1 ⟨utf8 "task-000001",utf8 "a"⟩,
    .enqueueTask 2 ⟨utf8 "task-000002",utf8 "b"⟩,.insertTask 0,.insertTask 1,.pushTask 0,.insertTask 2,
    .work (.checkRunning 0),.work (.popTask 0),.stopQueue,.pushTask 2]

theorem active_eq_held_refused :
    ∃ final, Transition.run Crew.step refusedPush
      (Crew.start (utf8 "w") (utf8 "127.0.0.1:9001") 1 3) = some final ∧
      final.node.activeTaskIds = [utf8 "task-000002",utf8 "task-000001"] ∧
      final.receivers = [.idle,.idle,.refused ⟨utf8 "task-000002",utf8 "b"⟩] ∧ final.held.Nodup := by
  have enabled : (Transition.run Crew.step refusedPush
    (Crew.start (utf8 "w") (utf8 "127.0.0.1:9001") 1 3)).isSome := by decide
  obtain ⟨final,ran⟩ := Option.isSome_iff_exists.mp enabled
  have shown : (Transition.run Crew.step refusedPush
    (Crew.start (utf8 "w") (utf8 "127.0.0.1:9001") 1 3)).map
      (fun final => (final.node.activeTaskIds,final.receivers)) =
        some ([utf8 "task-000002",utf8 "task-000001"],
          [.idle,.idle,.refused ⟨utf8 "task-000002",utf8 "b"⟩]) := by
    decide
  rw [ran,Option.map_some,Option.some.injEq,Prod.mk.injEq] at shown
  exact ⟨final,ran,shown.1,shown.2,(active_eq_held _ _ _ _ _ final ran).2.2.1⟩

end RdmaPlatform.Worker
