import RdmaPlatform.Scheduler.Concurrent
import RdmaPlatform.Library.Transition

/-! Timestamps under concurrency. A call reads the clock before its sections run,
so a section may stamp an object that another call has stamped later. The order
of timestamps holds in every run in which no section does. -/
namespace RdmaPlatform.Scheduler
open Library Library.Transition

structure Task.Ordered (task : Task) : Prop where
  started : ∀ started ∈ task.startedAt, task.createdAt ≤ started
  completed : ∀ started ∈ task.startedAt, ∀ completed ∈ task.completedAt, started ≤ completed

def Ordered (store : State) : Prop := ∀ id task, store.tasks.lookup id = some task → task.Ordered

/-- Between the two states no node's last heartbeat has gone back. -/
def HeartbeatsAdvance (store later : State) : Prop :=
  ∀ id node, store.nodes.lookup id = some node →
    ∃ next, later.nodes.lookup id = some next ∧ node.lastHeartbeat ≤ next.lastHeartbeat

theorem HeartbeatsAdvance.refl (store : State) : HeartbeatsAdvance store store :=
  fun _ node found => ⟨node,found,le_refl _⟩

theorem HeartbeatsAdvance.trans {first second third : State} (early : HeartbeatsAdvance first second)
    (late : HeartbeatsAdvance second third) : HeartbeatsAdvance first third := by
  intro id node found
  obtain ⟨next,there,below⟩ := early id node found
  obtain ⟨last,stored,above⟩ := late id next there
  exact ⟨last,stored,le_trans below above⟩

/-- The section's clock value is not before a time already on an object it may stamp. -/
def Section.Timely (store : State) : Section → Prop
  | .register req now => ∀ node ∈ store.nodes.lookup req.id, node.lastHeartbeat ≤ now
  | .heartbeat req now => ∀ node ∈ store.nodes.lookup req.id, node.lastHeartbeat ≤ now
  | .complete taskID _ now =>
    ∀ task ∈ store.tasks.lookup taskID, ∀ started ∈ task.startedAt, started ≤ now
  | .dispatchPending now =>
    ∀ task ∈ store.tasks.values, task.status = .pending → task.createdAt ≤ now
  | .submit _ _ | .refreshNodeStates _ | .refresh _ | .overview _ => True

instance decidableTimely (store : State) : ∀ step : Section, Decidable (step.Timely store)
  | .register req now | .heartbeat req now =>
    inferInstanceAs (Decidable (∀ node ∈ store.nodes.lookup req.id, node.lastHeartbeat ≤ now))
  | .complete taskID _ now =>
    inferInstanceAs (Decidable (∀ task ∈ store.tasks.lookup taskID, ∀ started ∈ task.startedAt,
      started ≤ now))
  | .dispatchPending now =>
    inferInstanceAs (Decidable (∀ task ∈ store.tasks.values, task.status = .pending →
      task.createdAt ≤ now))
  | .submit _ _ | .refreshNodeStates _ | .refresh _ | .overview _ => .isTrue trivial

private theorem modify_advance {nodes : Table Bytes Node} {key id : Bytes} {f : Node → Node}
    {node : Node} (found : nodes.lookup id = some node)
    (later : id = key → node.lastHeartbeat ≤ (f node).lastHeartbeat) :
    ∃ next, (nodes.modify key f).lookup id = some next ∧ node.lastHeartbeat ≤ next.lastHeartbeat := by
  rw [Table.lookup_modify,found]
  split
  next same => exact ⟨f node,rfl,later same⟩
  next => exact ⟨node,rfl,le_refl _⟩

theorem released_lastHeartbeat (node : Node) : (released node).lastHeartbeat = node.lastHeartbeat := by
  unfold released
  split <;> rfl

theorem change_heartbeats (config : Config) (step : Section) (state next : State)
    (timely : step.Timely state) (change : Change config step state next) :
    HeartbeatsAdvance state next := by
  intro id node found
  cases change with
  | register req now =>
    refine modify_advance (lookup_admitted_of_some req.id found) ?_
    rintro rfl
    exact timely node found
  | heartbeat req now =>
    refine modify_advance found ?_
    rintro rfl
    exact timely node found
  | submit | complete => exact ⟨node,found,le_refl _⟩
  | release => exact modify_advance found (fun _ => (released_lastHeartbeat node).ge)
  | refresh step offlineAfter now =>
    exact ⟨refreshed offlineAfter now node,
      by simp only [Table.lookup_mapValues,found,Option.map_some],le_refl _⟩
  | assign => exact modify_advance found (fun _ => le_refl _)

theorem completed_ordered {task : Task} (req : CompleteTaskRequest) (now : Time)
    (ordered : task.Ordered) (timely : ∀ started ∈ task.startedAt, started ≤ now) :
    (completed req now task).Ordered := by
  refine ⟨ordered.started,?_⟩
  intro started begun finished done
  cases done
  exact timely started begun

theorem assigned_ordered {id : Bytes} {task : Task} (node : Node) (now : Time)
    (sound : task.Sound id) (pending : task.status = .pending) (timely : task.createdAt ≤ now) :
    (assigned node now task).Ordered := by
  have fields := sound.lifecycle
  simp only [Task.Lifecycle,pending] at fields
  constructor
  · intro started begun
    cases begun
    exact timely
  · intro started _ finished done
    change task.completedAt = some finished at done
    rw [fields.2.2] at done
    cases done

theorem change_ordered (config : Config) (step : Section) (state next : State)
    (formed : WellFormed state) (timely : step.Timely state) (ordered : Ordered state)
    (change : Change config step state next) :
    Ordered next := by
  have completion (taskID : Bytes) (req : CompleteTaskRequest) (now : Time)
      (timely : (Section.complete taskID req now).Timely state) :
      ∀ id task, (state.tasks.modify taskID (completed req now)).lookup id = some task → task.Ordered :=
    Table.modify_forall _ _ _ _ ordered
      (fun task found before => completed_ordered req now before (timely task found))
  cases change with
  | register req now =>
    intro id task found
    exact ordered id task (by simpa using found)
  | heartbeat | refresh => exact ordered
  | submit req now =>
    refine Table.put_forall _ _ _ (fun _ => Task.Ordered) ordered ⟨?_,?_⟩
    all_goals
      intro started begun
      cases begun
  | release taskID req now | complete taskID req now => exact completion taskID req now timely
  | assign now _ taskKey nodeKey task node _ found pending =>
    refine Table.modify_forall _ _ _ (fun _ => Task.Ordered) ordered ?_
    intro task' found' _
    cases found.symm.trans found'
    exact assigned_ordered node now (formed.task taskKey task found) pending
      (timely task ((Table.mem_values_iff _ _).mpr ⟨taskKey,found⟩) pending)

/-- A dispatch stays timely through its own changes. -/
theorem change_timely (config : Config) (now : Time) (state next : State)
    (timely : (Section.dispatchPending now).Timely state)
    (change : Change config (.dispatchPending now) state next) :
    (Section.dispatchPending now).Timely next := by
  cases change with
  | refresh => exact timely
  | assign _ _ taskKey =>
    intro task member pending
    obtain ⟨key,found⟩ := (Table.mem_values_iff _ _).mp member
    rw [Table.lookup_modify] at found
    split at found
    next =>
      obtain ⟨old,_,rfl⟩ := Option.map_eq_some_iff.mp found
      cases pending
    next => exact timely task ((Table.mem_values_iff _ _).mpr ⟨key,found⟩) pending

theorem apply_timely (config : Config) (state : State) (step : Section) (formed : WellFormed state)
    (timely : step.Timely state) (ordered : Ordered state) :
    Ordered (apply config state step) ∧ HeartbeatsAdvance state (apply config state step) := by
  by_cases dispatch : ∃ now, step = .dispatchPending now
  · obtain ⟨now,rfl⟩ := dispatch
    have all := apply_invariant config
      (fun next => (WellFormed next ∧ (Section.dispatchPending now).Timely next) ∧ Ordered next ∧
        HeartbeatsAdvance state next) (.dispatchPending now) state ⟨⟨formed,timely⟩,ordered,
          .refl state⟩
      (fun state next holds change =>
        ⟨⟨change_wellFormed config _ state next holds.1.1 change,
          change_timely config now state next holds.1.2 change⟩,
          change_ordered config _ state next holds.1.1 holds.1.2 holds.2.1 change,
          holds.2.2.trans (change_heartbeats config _ state next holds.1.2 change)⟩)
    exact all.2
  · rcases apply_change config state step (fun now same => dispatch ⟨now,same⟩) with same | change
    · rw [same]
      exact ⟨ordered,.refl state⟩
    · exact ⟨change_ordered config step state _ formed timely ordered change,
        change_heartbeats config step state _ timely change⟩

def Server.Timely (server : Server) (event : ServerEvent) : Prop :=
  ∀ access ∈ server.access event, access.Timely server.store

instance decidableServerTimely (server : Server) (event : ServerEvent) :
    Decidable (server.Timely event) :=
  inferInstanceAs (Decidable (∀ access ∈ server.access event, access.Timely server.store))

theorem Server.step_timely (config : Config) (server : Server) (event : ServerEvent)
    (timely : server.Timely event) (formed : WellFormed server.store)
    (ordered : Ordered server.store) :
    WellFormed (server.step config event).store ∧ Ordered (server.step config event).store ∧
      HeartbeatsAdvance server.store (server.step config event).store := by
  rw [step_store]
  cases next : server.access event with
  | none => exact ⟨formed,ordered,.refl _⟩
  | some access =>
    exact ⟨apply_wellFormed config access server.store formed,
      apply_timely config server.store access formed (timely access next) ordered⟩

theorem Server.exec_timely (config : Config) (events : List ServerEvent) (server : Server)
    (timely : Throughout (step config) Timely events server)
    (formed : WellFormed server.store) (ordered : Ordered server.store) :
    WellFormed (server.exec config events).store ∧ Ordered (server.exec config events).store ∧
      HeartbeatsAdvance server.store (server.exec config events).store := by
  refine Throughout.invariant (fun next => WellFormed next.store ∧ Ordered next.store ∧
    HeartbeatsAdvance server.store next.store) ?_ ⟨formed,ordered,.refl _⟩ timely
  intro next event holds timely
  obtain ⟨formed,ordered,advance⟩ := step_timely config next event timely holds.1 holds.2.1
  exact ⟨formed,ordered,holds.2.2.trans advance⟩

/-- In a run whose sections are all timely, every task's times are in order and no
last heartbeat goes back. -/
theorem timestamps_ordered (config : Config) (clock : Time) (before after : List ServerEvent)
    (timely : Throughout (Server.step config) Server.Timely (before ++ after) (.initial clock)) :
    let server := (Server.initial clock).exec config before
    let final := server.exec config after
    Ordered final.store ∧ HeartbeatsAdvance server.store final.store := by
  intro server final
  obtain ⟨early,late⟩ := (throughout_append before after _).mp timely
  have empty : Ordered newMemoryStore := by
    intro id task found
    cases found
  obtain ⟨formed,ordered,_⟩ := Server.exec_timely config before (.initial clock) early
    newMemoryStore_wellFormed empty
  exact (Server.exec_timely config after server late formed ordered).2

/-- A worker registers at time 1. -/
def registering : List ServerEvent :=
  [.start (.call (.register ⟨utf8 "worker-1",utf8 "127.0.0.1:9001",1,[]⟩)),.advance 0,
    .advance 0,.advance 0]

def submission : SubmitTaskRequest := ⟨utf8 "llama",utf8 "generate",[],none⟩

/-- A heartbeat dispatches, with its earlier clock value, a task submitted since. -/
def lateDispatch : List ServerEvent :=
  registering ++ [.start (.call (.heartbeat idleBeat)),.advance 1,.elapse 9,
    .start (.call (.submit submission)),.advance 2,.advance 1]

/-- A completion writes after a dispatch that began later. -/
def lateCompletion : List ServerEvent :=
  registering ++ [.start (.call (.submit submission)),.advance 1,
    .start (.call (.complete (utf8 "task-000001") ⟨true,[]⟩)),.elapse 9,.start .tick,.advance 3,
      .advance 3,.advance 2]

/-- Two heartbeats write in the opposite order of their clock values. -/
def lateHeartbeat : List ServerEvent :=
  registering ++ [.start (.call (.heartbeat idleBeat)),.elapse 9,
    .start (.call (.heartbeat idleBeat)),.advance 2]

/-- Calls one after another are timely. -/
theorem timestamps_ordered_sequential :
    Ordered ((Server.initial 1).exec defaultConfig (registering ++
        [.elapse 9,.start (.call (.submit submission)),.advance 1,.advance 1,.advance 1])).store ∧
      HeartbeatsAdvance ((Server.initial 1).exec defaultConfig registering).store
        ((Server.initial 1).exec defaultConfig (registering ++
          [.elapse 9,.start (.call (.submit submission)),.advance 1,.advance 1,.advance 1])).store :=
  timestamps_ordered defaultConfig 1 registering
    [.elapse 9,.start (.call (.submit submission)),.advance 1,.advance 1,.advance 1] (by decide)

/-- Each of the three orders fails in some run. -/
theorem stale_samples_misorder :
    (¬ ∀ events id task,
      ((Server.initial 1).exec defaultConfig events).store.tasks.lookup id = some task →
      ∀ started ∈ task.startedAt, task.createdAt ≤ started) ∧
    (¬ ∀ events id task,
      ((Server.initial 1).exec defaultConfig events).store.tasks.lookup id = some task →
      ∀ started ∈ task.startedAt, ∀ completed ∈ task.completedAt, started ≤ completed) ∧
    ¬ ∀ before after, HeartbeatsAdvance ((Server.initial 1).exec defaultConfig before).store
      ((Server.initial 1).exec defaultConfig (before ++ after)).store := by
  refine ⟨?_,?_,?_⟩
  · intro always
    have early := always lateDispatch (utf8 "task-000001")
      ⟨utf8 "task-000001",utf8 "llama",utf8 "generate",[],none,.running,utf8 "worker-1",
        utf8 "assigned to worker",10,some 1,none⟩ (by decide) 1 rfl
    exact absurd early (by decide)
  · intro always
    have early := always lateCompletion (utf8 "task-000001")
      ⟨utf8 "task-000001",utf8 "llama",utf8 "generate",[],none,.completed,utf8 "worker-1",
        utf8 "completed",1,some 10,some 1⟩ (by decide) 10 rfl 1 rfl
    exact absurd early (by decide)
  · intro always
    obtain ⟨next,found,later⟩ := always lateHeartbeat [.advance 1] (utf8 "worker-1")
      ⟨utf8 "worker-1",utf8 "127.0.0.1:9001",1,[],0,.ready,10⟩ (by decide)
    have back : ((Server.initial 1).exec defaultConfig
      (lateHeartbeat ++ [.advance 1])).store.nodes.lookup
        (utf8 "worker-1") = some ⟨utf8 "worker-1",utf8 "127.0.0.1:9001",1,[],0,.ready,1⟩ := by decide
    cases back.symm.trans found
    exact absurd later (by decide)

end RdmaPlatform.Scheduler
