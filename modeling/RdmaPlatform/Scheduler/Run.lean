import RdmaPlatform.Scheduler.WellFormed
import Mathlib.Data.List.Induction

/-! Runs in which the 64-bit task counter does not wrap. Every accepted
submission leaves one entry in the in-memory table, so a run of fewer than 2^64
submissions is any run the store can hold; in such a run each submission finds
its identifier unused. The calls of the task service are runs of their sections. -/
namespace RdmaPlatform.Scheduler
open Library

def Section.submits : Section → Bool
  | .submit req _ => req.model ≠ [] && req.operation ≠ []
  | _ => false

def submissions (sections : List Section) : Nat := sections.countP Section.submits

/-- A run the store can hold. Each accepted submission leaves its own entry in the
task map, whose length is a Go `int`, so no run has 2^64 of them. -/
structure Run where
  sections : List Section
  bounded : submissions sections < 2^64

def Run.state (config : Config) (run : Run) : State := exec config run.sections newMemoryStore

def Issued (state : State) : Prop :=
  ∀ id task, state.tasks.lookup id = some task →
    ∃ counter : UInt64, counter ≤ state.taskCounter ∧ id = formatTaskID counter

def Fresh (state : State) : Prop := state.tasks.lookup (formatTaskID (state.taskCounter + 1)) = none

theorem fresh_of_issued (state : State) (issued : Issued state)
    (room : state.taskCounter.toNat + 1 < 2^64) : Fresh state := by
  have raised : (state.taskCounter + 1).toNat = state.taskCounter.toNat + 1 := by
    rw [UInt64.toNat_add,UInt64.toNat_one]
    exact Nat.mod_eq_of_lt room
  cases found : state.tasks.lookup (formatTaskID (state.taskCounter + 1)) with
  | none => exact found
  | some task =>
    obtain ⟨counter,below,equal⟩ := issued _ task found
    have same := formatTaskID_injective equal
    have bound := UInt64.le_iff_toNat_le.mp below
    rw [← same,raised] at bound
    omega

private theorem change_counter (config : Config) (step : Section) (state next : State)
    (quiet : step.submits = false) (change : Change config step state next) :
    next.taskCounter = state.taskCounter := by
  cases change with
  | register req now => exact admitted_taskCounter req.id state
  | submit req now _ valid => simp_all [Section.submits]
  | heartbeat | release | complete | refresh | assign => rfl

private theorem change_issued (config : Config) (step : Section) (state next : State)
    (quiet : step.submits = false) (issued : Issued state) (change : Change config step state next) :
    Issued next := by
  have kept (taskID : Bytes) (f : Task → Task) (id : Bytes) (task : Task)
      (found : (state.tasks.modify taskID f).lookup id = some task) :
      ∃ counter : UInt64, counter ≤ state.taskCounter ∧ id = formatTaskID counter :=
    Table.modify_forall _ _ _ (fun id _ => ∃ counter : UInt64, counter ≤ state.taskCounter ∧
      id = formatTaskID counter) issued (fun _ _ known => known) id task found
  cases change with
  | register req now =>
    intro id task found
    simp only [admitted_tasks,admitted_taskCounter] at found ⊢
    exact issued id task found
  | submit req now _ valid => simp_all [Section.submits]
  | heartbeat | refresh => exact issued
  | release taskID | complete taskID => exact kept taskID _
  | assign now _ taskKey => exact kept taskKey _

theorem submit_apply (config : Config) (state : State) (req : SubmitTaskRequest) (now : Time)
    (valid : (Section.submit req now).submits = true) :
    apply config state (.submit req now) = (submitWrite req now state).2 := by
  simp only [Section.submits,Bool.and_eq_true,decide_eq_true_eq] at valid
  simp [apply,valid.1,valid.2]

theorem TaskService.submit_run (config : Config) (req : SubmitTaskRequest) (now : Time) (state : State)
    (valid : (Section.submit req now).submits = true) :
    (TaskService.submit config req now state).2 =
      exec config [.submit req now,.dispatchPending now] state ∧
    ∀ task, getTask (formatTaskID (state.taskCounter + 1))
        (exec config [.submit req now,.dispatchPending now] state) = some task →
      (TaskService.submit config req now state).1 = .ok task := by
  have applied := submit_apply config state req now valid
  simp only [Section.submits,Bool.and_eq_true,decide_eq_true_eq] at valid
  have last : exec config [.submit req now,.dispatchPending now] state =
      dispatchPending config now (submitWrite req now state).2 := by
    rw [← applied]
    rfl
  rw [last]
  simp only [TaskService.submit,valid.1,valid.2,if_false]
  constructor
  · split <;> rfl
  · intro task found
    simp only [submitWrite] at found ⊢
    rw [found]

structure Trail (state : State) (issues : Nat) : Prop where
  wellFormed : WellFormed state
  issued : Issued state
  counter : state.taskCounter.toNat = issues

theorem apply_trail (config : Config) (state : State) (issues : Nat) (step : Section)
    (trail : Trail state issues) (room : issues + (if step.submits then 1 else 0) < 2^64) :
    Trail (apply config state step) (issues + (if step.submits then 1 else 0)) := by
  have formed := apply_wellFormed config step state trail.wellFormed
  cases quiet : step.submits with
  | false =>
    have counter := apply_invariant config (fun s => s.taskCounter = state.taskCounter) step state rfl
      (fun state next before change => (change_counter config step state next quiet change).trans
        before)
    have issued := apply_invariant config Issued step state trail.issued
      (fun state next before change => change_issued config step state next quiet before change)
    exact ⟨formed,issued,by simpa [counter] using trail.counter⟩
  | true =>
    cases step with
    | submit req now =>
      rw [submit_apply config state req now quiet] at formed ⊢
      simp only [quiet,if_true] at room
      have raised : (state.taskCounter + 1).toNat = state.taskCounter.toNat + 1 := by
        rw [UInt64.toNat_add,UInt64.toNat_one,trail.counter]
        exact Nat.mod_eq_of_lt room
      refine ⟨formed,?_,by simpa [submitWrite,trail.counter] using raised⟩
      refine Table.put_forall _ _ _ (fun id _ => ∃ counter : UInt64, counter ≤ state.taskCounter + 1 ∧
        id = formatTaskID counter) ?_ ⟨_,UInt64.le_refl _,rfl⟩
      intro id task found
      obtain ⟨counter,below,equal⟩ := trail.issued id task found
      refine ⟨counter,?_,equal⟩
      rw [UInt64.le_iff_toNat_le] at below ⊢
      omega
    | register | heartbeat | complete | dispatchPending | refreshNodeStates | refresh | overview =>
      cases quiet

theorem exec_trail (config : Config) (sections : List Section) (bound : submissions sections < 2^64) :
    Trail (exec config sections newMemoryStore) (submissions sections) := by
  induction sections using List.reverseRecOn with
  | nil =>
    have empty : Issued newMemoryStore := by
      intro id task found
      cases found
    exact ⟨newMemoryStore_wellFormed,empty,rfl⟩
  | append_singleton sections step ih =>
    simp only [submissions,List.countP_append,List.countP_singleton] at bound ⊢
    rw [exec_append]
    exact apply_trail config _ _ step (ih (by simp only [submissions]; omega)) bound

/-- The rule for everything that holds along runs without wrap-around: a property
of the state after `before` that every later change keeps, submissions finding
their identifier fresh. -/
theorem bounded_invariant (config : Config) (before after : List Section)
    (bound : submissions (before ++ after) < 2^64) (Inv : State → Prop)
    (initial : Inv (exec config before newMemoryStore))
    (preserved : ∀ step ∈ after, ∀ state next, Inv state → WellFormed state →
      (step.submits = true → Fresh state) → Change config step state next → Inv next) :
    Inv (exec config (before ++ after) newMemoryStore) := by
  induction after using List.reverseRecOn with
  | nil => simpa using initial
  | append_singleton rest step ih =>
    have split : submissions (before ++ (rest ++ [step])) =
        submissions (before ++ rest) + (if step.submits then 1 else 0) := by
      simp [submissions,List.countP_append,List.countP_singleton,Nat.add_assoc]
    have earlier := ih (by omega) (fun other member => preserved other (by simp [member]))
    have trail := exec_trail config (before ++ rest) (by omega)
    rw [← List.append_assoc,exec_append]
    change Inv (apply config (exec config (before ++ rest) newMemoryStore) step)
    generalize exec config (before ++ rest) newMemoryStore = state at earlier trail
    cases quiet : step.submits with
    | false =>
      have both := apply_invariant config (fun s => Inv s ∧ WellFormed s) step state
        ⟨earlier,trail.wellFormed⟩
        (fun state next holds change => ⟨preserved step (by simp) state next holds.1 holds.2
          (fun submits => by rw [quiet] at submits; cases submits) change,
          change_wellFormed config step state next holds.2 change⟩)
      exact both.1
    | true =>
      cases step with
      | submit req now =>
        rw [submit_apply config state req now quiet]
        have fresh : Fresh state := by
          apply fresh_of_issued state trail.issued
          rw [trail.counter]
          rw [split] at bound
          simpa [quiet] using bound
        have valid : ¬(req.model = [] ∨ req.operation = []) := by
          simpa [Section.submits] using quiet
        exact preserved _ (by simp) state _ earlier trail.wellFormed (fun _ => fresh)
          (.submit req now state valid)
      | register | heartbeat | complete | dispatchPending | refreshNodeStates | refresh | overview =>
        cases quiet

end RdmaPlatform.Scheduler
