import RdmaPlatform.Worker.Node
import RdmaPlatform.Library.Positions
import Mathlib.Algebra.Order.BigOperators.Group.List
import Mathlib.Algebra.Order.Ring.Nat

/-! Where the worker's tasks are. A task the process has taken in is with the accept
thread, in the queue or with a consumer, in one place only, and its identifier is in
`active_task_ids_` exactly as long as it is in one of them. -/
namespace RdmaPlatform.Worker
open Library

structure Custody where
  active : List Bytes
  acceptor : Acceptor
  queue : List Task
  consumers : List Consumer

def Node.custody (node : Node) : Custody := ⟨node.activeTaskIds,node.acceptor,node.queue,node.consumers⟩

def Acceptor.holder : Acceptor → Option Bytes
  | .inserted task | .refused task => some task.id
  | .idle | .received _ => none

def Consumer.holder : Consumer → Option Bytes
  | .popped task | .executing task => some task.id
  | .reporting result => some result.taskID
  | .awaiting taskID | .reported taskID => some taskID
  | .idle | .waiting | .exited => none

def Acceptor.unstarted : Acceptor → Option Bytes
  | .inserted task => some task.id
  | .idle | .received _ | .refused _ => none

def Consumer.unstarted : Consumer → Option Bytes
  | .popped task => some task.id
  | _ => none

/-- What one step of the process does to its tasks. Only an inserting step takes a
task in, and only if its identifier is not active. -/
inductive Handover (inserting : Bool) : Custody → Custody → Prop
  | stay (c) : Handover inserting c c
  | receive (c task) (free : c.acceptor = .idle) :
      Handover inserting c {c with acceptor := .received task}
  | skip (c task) (at_ : c.acceptor = .received task) : Handover inserting c {c with acceptor := .idle}
  | insert (c task) (at_ : c.acceptor = .received task) (unknown : task.id ∉ c.active)
      (allowed : inserting = true) :
      Handover inserting c {c with active := task.id::c.active,acceptor := .inserted task}
  | push (c task) (at_ : c.acceptor = .inserted task) :
      Handover inserting c {c with queue := c.queue ++ [task],acceptor := .idle}
  | refuse (c task) (at_ : c.acceptor = .inserted task) :
      Handover inserting c {c with acceptor := .refused task}
  | drop (c task) (at_ : c.acceptor = .refused task) :
      Handover inserting c {c with active := c.active.filter (fun id => id ≠ task.id),acceptor := .idle}
  | advance (c index old new) (at_ : c.consumers[index]? = some old) (same : new.holder = old.holder)
      (started : new.unstarted = none) :
        Handover inserting c {c with consumers := c.consumers.set index new}
  | pop (c index task rest) (at_ : c.consumers[index]? = some .waiting) (front : c.queue = task::rest) :
      Handover inserting c {c with queue := rest,consumers := c.consumers.set index (.popped task)}
  | finish (c index taskID) (at_ : c.consumers[index]? = some (.reported taskID)) :
      Handover inserting c {c with
        active := c.active.filter (fun id => id ≠ taskID)
        consumers := c.consumers.set index .idle}

theorem acceptor_handover {node next : Node} (taken : insertTask node = some next) :
    Handover true node.custody next.custody := by
  simp only [insertTask] at taken
  split at taken
  next task at_ =>
    split at taken
    next => cases taken; exact .skip _ task at_
    next unknown => cases taken; exact .insert _ task at_ unknown rfl
  next => cases taken

theorem queue_handover {node next : Node} (inserting : Bool)
    (taken : pushTask node = some next ∨ refuseTask node = some next) :
    Handover inserting node.custody next.custody := by
  simp only [pushTask,refuseTask] at taken
  rcases taken with pushed | refused
  · split at pushed
    next task at_ =>
      split at pushed
      next => cases pushed; exact .refuse _ task at_
      next => cases pushed; exact .push _ task at_
    next => cases pushed
  · split at refused
    next task at_ => cases refused; exact .drop _ task at_
    next => cases refused

theorem popTask_handover {node next : Node} {index : Nat} (inserting : Bool)
    (taken : popTask index node = some next) :
    Handover inserting node.custody next.custody := by
  simp only [popTask] at taken
  split at taken
  next at_ =>
    split at taken
    next => cases taken; exact .advance _ index .waiting .exited at_ rfl rfl
    next =>
      split at taken
      next => cases taken
      next task rest front => cases taken; exact .pop _ index task rest at_ front
  next => cases taken

theorem postResult_handover {node next : Node} {index : Nat} {result : TaskResult}
    (inserting : Bool) (taken : postResult index node = some (result,next)) :
    Handover inserting node.custody next.custody := by
  obtain ⟨at_,rfl⟩ := postResult_inv taken
  exact .advance _ index _ (.awaiting result.taskID) at_ rfl rfl

theorem handle_handover (node : Node) (task : Task) (inserting : Bool) (free : node.acceptor = .idle) :
    Handover inserting node.custody (handle task node).custody := by
  unfold handle
  split
  next => exact .receive _ task free
  next => exact .stay _

theorem step_handover {node next : Node} {inner : Local} (taken : node.step inner = some next) :
    Handover (inner = .insertTask) node.custody next.custody := by
  cases inner with
  | insertTask => exact acceptor_handover taken
  | pushTask => exact queue_handover _ (.inl taken)
  | refuseTask => exact queue_handover _ (.inr taken)
  | popTask index => exact popTask_handover _ taken
  | checkRunning index =>
    simp only [Node.step,checkRunning] at taken
    split at taken
    next at_ => cases taken; exact .advance _ index .idle _ at_ (by split <;> rfl) (by split <;> rfl)
    next => cases taken
  | startTask index =>
    simp only [Node.step,startTask] at taken
    split at taken
    next task at_ => cases taken; exact .advance _ index _ (.executing task) at_ rfl rfl
    next => cases taken
  | completeTask index thrown =>
    simp only [Node.step,completeTask] at taken
    split at taken
    next task at_ =>
      cases taken
      exact .advance _ index _ (.reporting (execute task thrown)) at_
        (congrArg some (execute_taskID task thrown)) rfl
    next => cases taken
  | endReport index =>
    simp only [Node.step,endReport] at taken
    split at taken
    next taskID at_ => cases taken; exact .advance _ index _ (.reported taskID) at_ rfl rfl
    next => cases taken
  | finishReported index =>
    simp only [Node.step,finishReported] at taken
    split at taken
    next taskID at_ => cases taken; exact .finish _ index taskID at_
    next => cases taken
  | beginBeat | countRunning | snapshotActive | flagStop | closeTransport | stopQueue =>
    simp only [Node.step,beginBeat,countRunning,snapshotActive,flagStop,closeTransport,
      stopQueue] at taken
    split at taken <;> cases taken
    exact .stay _

def occurs (id : Bytes) (place : Option Bytes) : Nat := if place = some id then 1 else 0

@[simp] theorem occurs_none (id : Bytes) : occurs id none = 0 := rfl

theorem occurs_some (id other : Bytes) : occurs id (some other) = if other = id then 1 else 0 := by
  simp [occurs]

def occurrences {α : Type} (view : α → Option Bytes) (id : Bytes) (places : List α) : Nat :=
  (places.map (fun place => occurs id (view place))).sum

theorem occurrences_set {α : Type} (view : α → Option Bytes) (id : Bytes) (places : List α)
    (index : Nat) (old new : α) (at_ : places[index]? = some old) :
    occurrences view id (places.set index new) + occurs id (view old) =
      occurrences view id places + occurs id (view new) :=
  sum_map_set (fun place => occurs id (view place)) places index old new at_

def Custody.tally (acceptor : Acceptor → Option Bytes) (consumer : Consumer → Option Bytes)
    (c : Custody) (id : Bytes) : Nat :=
  occurs id (acceptor c.acceptor) + occurrences (fun task => some task.id) id c.queue +
    occurrences consumer id c.consumers

def Custody.holding : Custody → Bytes → Nat := Custody.tally Acceptor.holder Consumer.holder

def Custody.unstarted : Custody → Bytes → Nat := Custody.tally Acceptor.unstarted Consumer.unstarted

/-- The active identifiers are those of the tasks in the process, each in one place. -/
def Custody.Held (c : Custody) : Prop := ∀ id, c.holding id = if id ∈ c.active then 1 else 0

/-- The same where tasks are in other places too. -/
def Custody.HeldBeside (others : Bytes → Nat) (c : Custody) : Prop :=
  ∀ id, others id + c.holding id = if id ∈ c.active then 1 else 0

private theorem mem_filter_ne (id other : Bytes) (active : List Bytes) :
    id ∈ active.filter (fun known => known ≠ other) ↔ id ∈ active ∧ ¬ id = other := by
  simp

theorem start_held (id address : Bytes) (threads : Nat) :
    (Node.start id address threads).custody.Held := by
  intro taskID
  simp [Custody.holding,Custody.tally,occurrences,Node.custody,Node.start,Acceptor.holder,
    Consumer.holder]

theorem handover_heldBeside {others : Bytes → Nat} {inserting : Bool} {before after : Custody}
    (handover : Handover inserting before after) (held : before.HeldBeside others) :
    after.HeldBeside others := by
  intro id
  have here := held id
  simp only [Custody.holding,Custody.tally] at here ⊢
  cases handover with
  | stay => exact here
  | receive task at_ | skip task at_ | refuse task at_ =>
    rw [at_] at here
    exact here
  | insert task at_ unknown =>
    rw [at_] at here
    simp only [Acceptor.holder,occurs_none,occurs_some,List.mem_cons] at here ⊢
    by_cases same : id = task.id
    · subst same
      simp only [unknown,if_false] at here
      simp only [true_or,if_true]
      omega
    · simp only [same,Ne.symm same,false_or,if_false]
      exact here
  | push task at_ =>
    rw [at_] at here
    simp only [Acceptor.holder,occurs_none,occurrences,List.map_append,List.map_singleton,
      List.sum_append,List.sum_singleton] at here ⊢
    omega
  | drop task at_ =>
    rw [at_] at here
    simp only [Acceptor.holder,occurs_none,occurs_some,mem_filter_ne] at here ⊢
    by_cases same : id = task.id
    · subst same
      simp only [if_true,not_true,and_false,if_false] at here ⊢
      split at here <;> omega
    · simp only [same,Ne.symm same,not_false_eq_true,and_true,if_false] at here ⊢
      exact here
  | advance index old new at_ same =>
    have moved := occurrences_set Consumer.holder id _ index old new at_
    rw [same] at moved
    simp only
    omega
  | pop index task rest at_ front =>
    have moved := occurrences_set Consumer.holder id _ index _ (.popped task) at_
    rw [front] at here
    simp only [Consumer.holder,occurs_none,occurrences,List.map_cons,List.sum_cons] at here moved ⊢
    omega
  | finish index taskID at_ =>
    -- The consumer held the only copy, so erasing the identifier leaves none behind.
    have moved := occurrences_set Consumer.holder id _ index _ .idle at_
    simp only [Consumer.holder,occurs_none,occurs_some,mem_filter_ne] at moved ⊢
    by_cases same : id = taskID
    · subst same
      simp only [if_true,not_true,and_false,if_false] at moved ⊢
      split at here <;> omega
    · simp only [same,Ne.symm same,not_false_eq_true,and_true,if_false] at moved ⊢
      omega

theorem handover_held {inserting : Bool} {before after : Custody}
    (handover : Handover inserting before after) (held : before.Held) : after.Held := by
  have alone (c : Custody) : c.Held ↔ c.HeldBeside (fun _ => 0) := by
    simp only [Custody.Held,Custody.HeldBeside,Nat.zero_add]
  exact (alone after).mpr (handover_heldBeside handover ((alone before).mp held))

theorem handover_nodup {inserting : Bool} {before after : Custody}
    (handover : Handover inserting before after) (distinct : before.active.Nodup) :
    after.active.Nodup := by
  cases handover with
  | stay | receive | skip | push | refuse | advance | pop => exact distinct
  | insert task at_ unknown => exact List.nodup_cons.mpr ⟨unknown,distinct⟩
  | drop | finish => exact distinct.filter _

theorem handover_unstarted {inserting : Bool} {before after : Custody}
    (handover : Handover inserting before after) (id : Bytes)
    (kept : inserting = true → ∀ task, before.acceptor = .received task →
      task.id ∈ before.active ∨ task.id ≠ id) :
    after.unstarted id ≤ before.unstarted id := by
  simp only [Custody.unstarted,Custody.tally]
  cases handover with
  | stay => exact le_refl _
  | receive task at_ | skip task at_ | drop task at_ | refuse task at_ =>
    simp only [Acceptor.unstarted,occurs_none]
    omega
  | insert task at_ unknown allowed =>
    have other : task.id ≠ id := (kept allowed task at_).resolve_left unknown
    simp only [Acceptor.unstarted,occurs_some,if_neg other]
    omega
  | push task at_ =>
    simp only [Acceptor.unstarted,at_,occurs_none,occurrences,List.map_append,List.map_singleton,
      List.sum_append,List.sum_singleton]
    omega
  | advance index old new at_ _ started =>
    have moved := occurrences_set Consumer.unstarted id _ index old new at_
    rw [started,occurs_none] at moved
    simp only
    omega
  | pop index task rest at_ front =>
    have moved := occurrences_set Consumer.unstarted id _ index _ (.popped task) at_
    simp only [Consumer.unstarted,occurs_none,front,occurrences,List.map_cons,List.sum_cons] at moved ⊢
    omega
  | finish index taskID at_ =>
    have moved := occurrences_set Consumer.unstarted id _ index _ .idle at_
    simp only [Consumer.unstarted,occurs_none] at moved
    simp only
    omega

theorem unstarted_pos {node : Node} {index : Nat} {task : Task}
    (popped : node.consumers[index]? = some (.popped task)) :
    0 < node.custody.unstarted task.id := by
  have moved := occurrences_set Consumer.unstarted task.id _ index _ .idle popped
  simp only [Consumer.unstarted,occurs_none,occurs_some,if_true] at moved
  simp only [Custody.unstarted,Custody.tally,Node.custody]
  omega

theorem unstarted_lt_holder {id : Bytes} {consumers : List Consumer}
    (waits : .awaiting id ∈ consumers) :
    occurrences Consumer.unstarted id consumers < occurrences Consumer.holder id consumers := by
  have each (consumer : Consumer) : occurs id consumer.unstarted ≤ occurs id consumer.holder := by
    cases consumer <;> simp [Consumer.unstarted,Consumer.holder]
  exact List.sum_lt_sum _ _ (fun consumer _ => each consumer)
    ⟨_,waits,by simp [Consumer.unstarted,Consumer.holder,occurs]⟩

/-- So there is no other copy of that task to be started. -/
theorem unstarted_of_awaiting {c : Custody} (held : c.Held) {id : Bytes}
    (waits : .awaiting id ∈ c.consumers) :
    c.unstarted id = 0 := by
  have acceptors : occurs id c.acceptor.unstarted ≤ occurs id c.acceptor.holder := by
    cases c.acceptor <;> simp [Acceptor.unstarted,Acceptor.holder]
  have consumers := unstarted_lt_holder waits
  have bound := held id
  have limit : (if id ∈ c.active then 1 else 0) ≤ 1 := by split <;> omega
  simp only [Custody.holding,Custody.unstarted,Custody.tally] at bound ⊢
  omega

end RdmaPlatform.Worker
