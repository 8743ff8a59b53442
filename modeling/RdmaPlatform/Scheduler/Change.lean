import RdmaPlatform.Scheduler.Service
import Mathlib.Logic.Relation

/-! What one critical section can do to the store, said once. A section is a
finite sequence of changes; every invariant of runs is an invariant of changes. -/
namespace RdmaPlatform.Scheduler
open Library

inductive Change (config : Config) : Section → State → State → Prop
  | register (req now state) (named : req.id ≠ []) :
      Change config (.register req now) state
        {admitted req.id state with
          nodes := (admitted req.id state).nodes.modify req.id (registered config req now)}
  | heartbeat (req now state node) (found : state.nodes.lookup req.id = some node) :
      Change config (.heartbeat req now) state
        {state with nodes := state.nodes.modify req.id (beaten config req now)}
  | submit (req now state) (valid : ¬(req.model = [] ∨ req.operation = [])) :
      Change config (.submit req now) state (submitWrite req now state).2
  | release (taskID req now state task) (found : state.tasks.lookup taskID = some task)
      (running : task.status = .running) (owned : task.assignedWorker ≠ []) :
      Change config (.complete taskID req now) state
        {state with
          tasks := state.tasks.modify taskID (completed req now)
          nodes := state.nodes.modify task.assignedWorker released}
  | complete (taskID req now state task) (found : state.tasks.lookup taskID = some task)
      (unowned : ¬(task.status = .running ∧ task.assignedWorker ≠ [])) :
      Change config (.complete taskID req now) state
        {state with tasks := state.tasks.modify taskID (completed req now)}
  | refresh (step offlineAfter now state) :
      Change config step state {state with nodes := state.nodes.mapValues (refreshed offlineAfter now)}
  | assign (now state taskKey nodeKey task node next)
      (found : state.tasks.lookup taskKey = some task) (pending : task.status = .pending)
      (chosen : state.nodes.lookup nodeKey = some node) (free : eligible node = true)
      (bounds : 0 ≤ state.nextNodeIndex → 0 ≤ next ∧ next < state.nodeOrder.length) :
      Change config (.dispatchPending now) state
        {state with
          nextNodeIndex := next
          tasks := state.tasks.modify taskKey (assigned node now)
          nodes := state.nodes.modify nodeKey (occupied config now)}

abbrev Changes (config : Config) (step : Section) := Relation.ReflTransGen (Change config step)

/-- What the scan carries: the best node so far, found eligible at its index. -/
private def Candidate (state : State) (best : Option (Int × Node)) : Prop :=
  ∀ index node, best = some (index,node) →
    eligible node = true ∧ (0 ≤ state.nextNodeIndex → 0 ≤ index ∧
      index < state.nodeOrder.length) ∧ ∃ key, nodeAt state index = some (key,node)

private theorem scan_candidate (strategy : Strategy) (state : State) (best : Option (Int × Node))
    (offset : Nat) (size : state.nodeOrder.length ≠ 0) (carried : Candidate state best) :
    Candidate state (scan strategy state (state.nextNodeIndex.tmod state.nodeOrder.length) best
      offset) := by
  intro index node found
  have fresh (key : Bytes)
      (at_ : nodeAt state ((state.nextNodeIndex.tmod state.nodeOrder.length + offset).tmod
        state.nodeOrder.length) = some (key,node))
      (free : eligible node = true)
      (here : (state.nextNodeIndex.tmod state.nodeOrder.length + offset).tmod
        state.nodeOrder.length = index) :
      eligible node = true ∧
        (0 ≤ state.nextNodeIndex → 0 ≤ index ∧ index < state.nodeOrder.length) ∧
        ∃ key, nodeAt state index = some (key,node) := by
    refine ⟨free,?_,key,here ▸ at_⟩
    intro positive
    have start := Int.tmod_nonneg (state.nodeOrder.length : Int) positive
    have nonempty : (0 : Int) < state.nodeOrder.length := by omega
    rw [← here]
    exact ⟨Int.tmod_nonneg _ (by omega),Int.tmod_lt_of_pos _ nonempty⟩
  unfold scan at found
  simp only at found
  split at found
  next => exact carried index node found
  next key other at_ =>
    split at found
    next free =>
      split at found
      next =>
        obtain ⟨here,same⟩ := Prod.mk.inj (Option.some.inj found)
        subst same
        exact fresh key at_ free here
      next =>
        split at found
        next =>
          obtain ⟨here,same⟩ := Prod.mk.inj (Option.some.inj found)
          subst same
          exact fresh key at_ free here
        next => exact carried index node found
    next => exact carried index node found

theorem fold_candidate (strategy : Strategy) (state : State) (size : state.nodeOrder.length ≠ 0)
    (index : Int) (node : Node)
    (found : (List.range state.nodeOrder.length).foldl (scan strategy state
      (state.nextNodeIndex.tmod state.nodeOrder.length)) none = some (index,node)) :
    eligible node = true ∧ (0 ≤ state.nextNodeIndex → 0 ≤ index ∧
      index < state.nodeOrder.length) ∧ ∃ key, nodeAt state index = some (key,node) := by
  have carried : Candidate state (some (index,node)) := by
    rw [← found]
    apply List.foldlRecOn (motive := Candidate state)
    · intro index node absent
      cases absent
    · intro best carried offset _
      exact scan_candidate strategy state best offset size carried
  exact carried index node rfl

theorem selectNodeLocked_sound (config : Config) (state selected : State) (key : Bytes)
    (ok : selectNodeLocked config state = some (key,selected)) :
    ∃ (node : Node) (next : Int), state.nodes.lookup key = some node ∧ eligible node = true ∧
      (0 ≤ state.nextNodeIndex → 0 ≤ next ∧ next < state.nodeOrder.length) ∧
      selected = {state with nextNodeIndex := next} := by
  unfold selectNodeLocked at ok
  simp only at ok
  split at ok
  next => cases ok
  next size =>
    split at ok
    next => cases ok
    next best index node found =>
      obtain ⟨free,bounds,stored,at_⟩ := fold_candidate _ state size index node found
      simp only [at_,Option.map_some,Option.some.injEq,Prod.mk.injEq] at ok
      obtain ⟨rfl,rfl⟩ := ok
      have lookup : state.nodes.lookup stored = some node := by
        simp only [nodeAt,Option.bind_eq_bind,Option.bind_eq_some_iff,Option.pure_def,
          Option.some.injEq,Prod.mk.injEq] at at_
        obtain ⟨key,_,other,holds,rfl,rfl⟩ := at_
        exact holds
      refine ⟨node,_,lookup,free,?_,rfl⟩
      intro positive
      have inside := bounds positive
      exact ⟨Int.tmod_nonneg _ (by omega),Int.tmod_lt_of_pos _ (by omega)⟩

theorem assignTaskLocked_selects {config : Config} {state next : State} {taskKey : Bytes} {now : Time}
    (ok : assignTaskLocked config state taskKey now = some next) :
    ∃ (task : Task) (nodeKey : Bytes) (node : Node) (index : Int),
      state.tasks.lookup taskKey = some task ∧ task.status = .pending ∧
      selectNodeLocked config state = some (nodeKey,{state with nextNodeIndex := index}) ∧
      state.nodes.lookup nodeKey = some node ∧
      next = {state with
        nextNodeIndex := index
        tasks := state.tasks.modify taskKey (assigned node now)
        nodes := state.nodes.modify nodeKey (occupied config now)} := by
  simp only [assignTaskLocked,Option.bind_eq_bind,Option.bind_eq_some_iff] at ok
  obtain ⟨task,found,ok⟩ := ok
  split at ok
  next => cases ok
  next pending =>
    simp only [Option.bind_eq_some_iff,Option.pure_def,Option.some.injEq] at ok
    obtain ⟨⟨nodeKey,selected⟩,chosen,node,lookup,rfl⟩ := ok
    obtain ⟨_,index,_,_,_,rfl⟩ := selectNodeLocked_sound _ _ _ _ chosen
    exact ⟨task,nodeKey,node,index,found,not_not.mp pending,chosen,lookup,rfl⟩

theorem assignTaskLocked_sound (config : Config) (state next : State) (taskKey : Bytes) (now : Time)
    (ok : assignTaskLocked config state taskKey now = some next) :
    ∃ (task : Task) (nodeKey : Bytes) (node : Node) (index : Int),
      state.tasks.lookup taskKey = some task ∧ task.status = .pending ∧
      state.nodes.lookup nodeKey = some node ∧ eligible node = true ∧
      (0 ≤ state.nextNodeIndex → 0 ≤ index ∧ index < state.nodeOrder.length) ∧
      next = {state with
        nextNodeIndex := index
        tasks := state.tasks.modify taskKey (assigned node now)
        nodes := state.nodes.modify nodeKey (occupied config now)} := by
  obtain ⟨task,nodeKey,node,index,found,pending,chosen,lookup,rfl⟩ := assignTaskLocked_selects ok
  obtain ⟨node',index',registered,free,bounds,moved⟩ := selectNodeLocked_sound _ _ _ _ chosen
  obtain rfl : node' = node := Option.some.inj (registered.symm.trans lookup)
  obtain rfl : index = index' := congrArg State.nextNodeIndex moved
  exact ⟨task,nodeKey,node',index,found,pending,registered,free,bounds,rfl⟩

theorem assign_lookup {config : Config} {now : Time} {state next : State} {key id : Bytes}
    (different : id ≠ key) (taken : assignTaskLocked config state key now = some next) :
    next.tasks.lookup id = state.tasks.lookup id := by
  obtain ⟨_,_,_,_,_,_,_,_,rfl⟩ := assignTaskLocked_selects taken
  exact Table.lookup_modify_ne _ _ different

theorem assignAll_invariant {config : Config} {now : Time} {keys : List Bytes} (Inv : State → Prop)
    (preserved : ∀ key ∈ keys, ∀ state next, Inv state →
      assignTaskLocked config state key now = some next → Inv next)
    (state : State) (initial : Inv state) : Inv (assignAll config now keys state) := by
  induction keys generalizing state with
  | nil => exact initial
  | cons key rest ih =>
    rw [assignAll]
    split
    next => exact initial
    next next taken =>
      exact ih (fun other member => preserved other (by simp [member])) next
        (preserved key (by simp) state next initial taken)

theorem assignAll_changes (config : Config) (now : Time) (keys : List Bytes) (state : State) :
    Changes config (.dispatchPending now) state (assignAll config now keys state) := by
  induction keys generalizing state with
  | nil => exact .refl
  | cons key rest ih =>
    unfold assignAll
    split
    next => exact .refl
    next next ok =>
      obtain ⟨task,nodeKey,node,index,found,pending,chosen,free,bounds,rfl⟩ :=
        assignTaskLocked_sound config state next key now ok
      exact .head (.assign now state key nodeKey task node index found pending chosen free bounds)
        (ih _)

theorem apply_change (config : Config) (state : State) (step : Section)
    (single : ∀ now, step ≠ .dispatchPending now) :
    apply config state step = state ∨ Change config step state (apply config state step) := by
  cases step with
  | register req now =>
    by_cases named : req.id = []
    · exact .inl (by simp only [apply,register,named,if_true])
    · simp only [apply,register,named,if_false]
      exact .inr (.register req now state named)
  | heartbeat req now =>
    by_cases named : req.id = []
    · exact .inl (by simp only [apply,heartbeat,named,if_true])
    · cases found : state.nodes.lookup req.id with
      | none => exact .inl (by simp only [apply,heartbeat,named,if_false,found])
      | some node =>
        simp only [apply,heartbeat,named,if_false,found]
        exact .inr (.heartbeat req now state node found)
  | submit req now =>
    by_cases invalid : req.model = [] ∨ req.operation = []
    · exact .inl (by simp only [apply,invalid,if_true])
    · simp only [apply,invalid,if_false]
      exact .inr (.submit req now state invalid)
  | complete taskID req now =>
    by_cases named : taskID = []
    · exact .inl (by simp only [apply,named,if_true])
    · cases found : state.tasks.lookup taskID with
      | none => exact .inl (by simp only [apply,named,if_false,completeWrite,found])
      | some task =>
        by_cases owned : task.status = .running ∧ task.assignedWorker ≠ []
        · simp only [apply,named,if_false,completeWrite,found,owned,and_self,not_false_eq_true,
            ne_eq,if_true]
          exact .inr (.release taskID req now state task found owned.1 owned.2)
        · simp only [apply,named,if_false,completeWrite,found,owned]
          exact .inr (.complete taskID req now state task found owned)
  | dispatchPending now => exact absurd rfl (single now)
  | refreshNodeStates now => exact .inr (.refresh _ config.offlineAfter now state)
  | refresh now => exact .inr (.refresh _ config.registryOfflineAfter now state)
  | overview now => exact .inr (.refresh _ config.offlineAfter now state)

theorem apply_changes (config : Config) (state : State) (step : Section) :
    Changes config step state (apply config state step) := by
  by_cases dispatch : ∃ now, step = .dispatchPending now
  · obtain ⟨now,rfl⟩ := dispatch
    exact .head (.refresh _ config.offlineAfter now state) (assignAll_changes config now _ _)
  · rcases apply_change config state step (fun now same => dispatch ⟨now,same⟩) with same | change
    · rw [same]
    · exact .single change

end RdmaPlatform.Scheduler
