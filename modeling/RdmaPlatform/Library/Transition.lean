import Mathlib.Data.List.Pairwise
import Mathlib.Data.List.Perm.Basic
import Mathlib.Logic.Function.Iterate
import Mathlib.Logic.Relation

/-! Runs of a system whose steps may be disabled, and the two rules for them: an
invariant of the allowed steps holds in the final state of every run that takes
only such steps, and what it implies of a step holds of every step of the run.
A system without disabled steps runs by folding its step function. -/
namespace RdmaPlatform.Library.Transition

variable {σ ε : Type} (step : σ → ε → Option σ)

/-- The final state of a run; `none` if one of its steps is disabled. -/
def run : List ε → σ → Option σ
  | [], state => some state
  | event::rest, state => (step state event).bind (run rest)

/-- Every step of the run satisfies the condition in the state it is taken from. -/
def Along (Condition : σ → ε → Prop) : List ε → σ → Prop
  | [], _ => True
  | event::rest, state => Condition state event ∧ ∀ next ∈ step state event, Along Condition rest next

instance decidableAlong (Condition : σ → ε → Prop)
    [decide : ∀ state event, Decidable (Condition state event)] :
    ∀ events state, Decidable (Along step Condition events state)
  | [], _ => .isTrue trivial
  | event::rest, state =>
    have := decidableAlong Condition rest
    inferInstanceAs (Decidable (Condition state event ∧
      ∀ next ∈ step state event, Along step Condition rest next))

variable {step}

theorem run_invariant {Inv : σ → Prop} {Condition : σ → ε → Prop}
    (preserved : ∀ state event next, Inv state → Condition state event →
      step state event = some next → Inv next)
    (events : List ε) (state final : σ) (initial : Inv state)
    (allowed : Along step Condition events state) (ran : run step events state = some final) :
    Inv final := by
  induction events generalizing state with
  | nil =>
    cases ran
    exact initial
  | cons event rest ih =>
    obtain ⟨next,taken,later⟩ := Option.bind_eq_some_iff.mp ran
    exact ih next (preserved state event next initial allowed.1 taken) (allowed.2 next taken) later

theorem along_of_forall {Condition : ε → Prop} {events : List ε}
    (allowed : ∀ event ∈ events, Condition event) (state : σ) :
    Along step (fun _ event => Condition event) events state := by
  induction events generalizing state with
  | nil => trivial
  | cons event rest ih =>
    obtain ⟨here,others⟩ := List.forall_mem_cons.mp allowed
    exact ⟨here,fun next _ => ih others next⟩

theorem run_forall {Inv : σ → Prop} {Condition : ε → Prop}
    (preserved : ∀ state event next, Inv state → Condition event →
      step state event = some next → Inv next)
    (events : List ε) (state final : σ) (initial : Inv state)
    (allowed : ∀ event ∈ events, Condition event) (ran : run step events state = some final) :
    Inv final :=
  run_invariant preserved events state final initial (along_of_forall allowed state) ran

theorem run_kept {Inv : σ → Prop}
    (preserved : ∀ state event next, Inv state → step state event = some next → Inv next)
    (events : List ε) (state final : σ) (initial : Inv state)
    (ran : run step events state = some final) :
    Inv final :=
  run_forall (fun state event next inv _ taken => preserved state event next inv taken) events state
    final initial (fun _ _ => trivial) ran

theorem along_invariant {Inv : σ → Prop} {Condition Result : σ → ε → Prop}
    (preserved : ∀ state event next, Inv state → Condition state event →
      step state event = some next → Inv next)
    (implied : ∀ state event, Inv state → Condition state event → Result state event)
    (events : List ε) (state : σ) (initial : Inv state)
    (allowed : Along step Condition events state) :
    Along step Result events state := by
  induction events generalizing state with
  | nil => trivial
  | cons event rest ih =>
    refine ⟨implied state event initial allowed.1,?_⟩
    intro next taken
    exact ih next (preserved state event next initial allowed.1 taken) (allowed.2 next taken)

theorem Along.and {First Second : σ → ε → Prop} {events : List ε} {state : σ}
    (first : Along step First events state) (second : Along step Second events state) :
    Along step (fun state event => First state event ∧ Second state event) events state := by
  induction events generalizing state with
  | nil => trivial
  | cons event rest ih =>
    exact ⟨⟨first.1,second.1⟩,fun next taken => ih (first.2 next taken) (second.2 next taken)⟩

theorem Along.forall {Condition : ε → Prop} {events : List ε} {state final : σ}
    (along : Along step (fun _ event => Condition event) events state)
    (ran : run step events state = some final) :
    ∀ event ∈ events, Condition event := by
  induction events generalizing state with
  | nil => simp
  | cons event rest ih =>
    obtain ⟨next,taken,after⟩ := Option.bind_eq_some_iff.mp ran
    exact List.forall_mem_cons.mpr ⟨along.1,ih (along.2 next taken) after⟩

theorem Along.later {Condition : σ → ε → Prop} {first second : List ε} {state middle : σ}
    (along : Along step Condition (first ++ second) state) (ran : run step first state = some middle) :
    Along step Condition second middle := by
  induction first generalizing state with
  | nil =>
    cases ran
    exact along
  | cons event rest ih =>
    obtain ⟨next,taken,after⟩ := Option.bind_eq_some_iff.mp ran
    exact ih (along.2 next taken) after

section Paths

variable (step) in
/-- One allowed step, whichever event it is. -/
def Moves (Condition : σ → ε → Prop) (state next : σ) : Prop :=
  ∃ event, Condition state event ∧ step state event = some next

theorem exists_run {Condition : σ → ε → Prop} {state final : σ}
    (path : Relation.ReflTransGen (Moves step Condition) state final) :
    ∃ events, Along step Condition events state ∧ run step events state = some final := by
  induction path using Relation.ReflTransGen.head_induction_on with
  | refl => exact ⟨[],trivial,rfl⟩
  | head moves _ ih =>
    obtain ⟨event,allowed,taken⟩ := moves
    obtain ⟨events,along,ran⟩ := ih
    refine ⟨event::events,⟨allowed,fun next other => ?_⟩,?_⟩
    · cases (Option.mem_def.mp other).symm.trans taken
      exact along
    · rw [run,taken]
      exact ran

/-- From where the goal can always be come nearer to, it can be reached. -/
theorem exists_path {Inv Goal : σ → Prop} {Condition : σ → ε → Prop} (distance : σ → Nat)
    (nearer : ∀ state, Inv state → Goal state ∨
      ∃ next, Moves step Condition state next ∧ Inv next ∧ distance next < distance state)
    (state : σ) (initial : Inv state) :
    ∃ final, Relation.ReflTransGen (Moves step Condition) state final ∧ Inv final ∧ Goal final := by
  induction left : distance state using Nat.strongRecOn generalizing state with
  | ind left_ ih =>
    rcases nearer state initial with reached | ⟨next,moves,kept,less⟩
    · exact ⟨state,.refl,initial,reached⟩
    · obtain ⟨final,path,both⟩ := ih (distance next) (left ▸ less) next kept rfl
      exact ⟨final,.head moves path,both⟩

end Paths

section Total

variable {α : Type} (step : σ → ε → σ)

/-- What a run of a system without disabled steps shows at its steps, in order. -/
def outputs (observe : σ → ε → Option α) : List ε → σ → List α
  | [], _ => []
  | event::rest, state => (observe state event).toList ++ outputs observe rest (step state event)

def Throughout (Condition : σ → ε → Prop) : List ε → σ → Prop
  | [], _ => True
  | event::rest, state => Condition state event ∧ Throughout Condition rest (step state event)

instance decidableThroughout (Condition : σ → ε → Prop)
    [decide : ∀ state event, Decidable (Condition state event)] :
    ∀ events state, Decidable (Throughout step Condition events state)
  | [], _ => .isTrue trivial
  | event::rest, state =>
    have := decidableThroughout Condition rest
    inferInstanceAs (Decidable (Condition state event ∧
      Throughout step Condition rest (step state event)))

variable {step}

theorem outputs_append (observe : σ → ε → Option α) (first second : List ε) (state : σ) :
    outputs step observe (first ++ second) state =
      outputs step observe first state ++ outputs step observe second (first.foldl step state) := by
  induction first generalizing state with
  | nil => rfl
  | cons event rest ih => rw [List.cons_append,outputs,outputs,ih,List.append_assoc,List.foldl_cons]

theorem outputs_filterMap {β : Type} (observe : σ → ε → Option α) (g : α → Option β)
    (events : List ε) (state : σ) :
    outputs step (fun state event => (observe state event).bind g) events state =
      (outputs step observe events state).filterMap g := by
  induction events generalizing state with
  | nil => rfl
  | cons event rest ih =>
    rw [outputs,outputs,List.filterMap_append,ih]
    cases observe state event with
    | none => rfl
    | some item =>
      simp only [Option.bind_some,Option.toList_some,List.filterMap_cons,List.filterMap_nil]
      cases g item <;> rfl

/-- What is held at the start and given on the way is what is taken on the way and
held at the end, in order. -/
theorem outputs_conserved {Inv : σ → Prop} {Condition : σ → ε → Prop}
    (taken given : σ → ε → Option α) (held : σ → List α)
    (preserved : ∀ state event, Inv state → Inv (step state event))
    (single : ∀ state event, Inv state → Condition state event →
      (taken state event).toList ++ held (step state event) = held state ++ (given state event).toList)
    (events : List ε) (state : σ) (initial : Inv state)
    (allowed : Throughout step Condition events state) :
    outputs step taken events state ++ held (events.foldl step state) =
      held state ++ outputs step given events state := by
  induction events generalizing state with
  | nil => simp [outputs]
  | cons event rest ih =>
    have later := ih _ (preserved state event initial) allowed.2
    rw [outputs,outputs,List.foldl_cons,List.append_assoc,later,← List.append_assoc,
      single state event initial allowed.1,List.append_assoc]

/-- The same up to order, where what is held may be taken in any order. -/
theorem outputs_perm (taken given : σ → ε → Option α) (held : σ → List α)
    (single : ∀ state event, ((taken state event).toList ++ held (step state event)).Perm
      (held state ++ (given state event).toList))
    (events : List ε) (state : σ) :
    (outputs step taken events state ++ held (events.foldl step state)).Perm
      (held state ++ outputs step given events state) := by
  induction events generalizing state with
  | nil => simp [outputs]
  | cons event rest ih =>
    have later := (ih (step state event)).append_left (taken state event).toList
    have now := (single state event).append_right (outputs step given rest (step state event))
    rw [← List.append_assoc,← List.append_assoc] at later
    rw [outputs,outputs,List.foldl_cons,← List.append_assoc]
    exact later.trans now

/-- Outputs stamped by a counter that moves on with each of them are distinct. -/
theorem outputs_nodup {observe : σ → ε → Option α} (stamp : α → Nat) (counter : σ → Nat)
    (grows : ∀ state event, counter state ≤ counter (step state event))
    (stamped : ∀ state event, ∀ item ∈ observe state event,
      stamp item = counter state ∧ counter state < counter (step state event))
    (events : List ε) (state : σ) :
    (∀ item ∈ outputs step observe events state, counter state ≤ stamp item) ∧
      (outputs step observe events state).Nodup := by
  induction events generalizing state with
  | nil => simp [outputs]
  | cons event rest ih =>
    obtain ⟨later,distinct⟩ := ih (step state event)
    rw [outputs]
    cases shown : observe state event with
    | none =>
      refine ⟨fun item member => ?_,distinct⟩
      exact Nat.le_trans (grows state event) (later item member)
    | some item =>
      obtain ⟨now,moves⟩ := stamped state event item shown
      refine ⟨fun other member => ?_,List.nodup_cons.mpr ⟨fun again => ?_,distinct⟩⟩
      · rcases List.mem_cons.mp member with same | after
        · rw [same]
          exact Nat.le_of_eq now.symm
        · exact Nat.le_trans (grows state event) (later other after)
      · have beyond := later item again
        omega

/-- Where each step that shows something shows the counter and moves it on, a run shows
the counter's values in turn. -/
theorem outputs_counted {Inv : σ → Prop} {observe : σ → ε → Option α} (counter : σ → α)
    (next : α → α) (preserved : ∀ state event, Inv state → Inv (step state event))
    (single : ∀ state event, Inv state →
      observe state event = none ∧ counter (step state event) = counter state ∨
        observe state event = some (counter state) ∧
          counter (step state event) = next (counter state))
    (events : List ε) (state : σ) (initial : Inv state) :
    outputs step observe events state = (List.range (outputs step observe events state).length).map
        (fun turn => next^[turn] (counter state)) ∧
      counter (events.foldl step state) = next^[(outputs step observe events state).length]
        (counter state) := by
  induction events generalizing state with
  | nil => exact ⟨rfl,rfl⟩
  | cons event rest ih =>
    obtain ⟨values,final⟩ := ih (step state event) (preserved state event initial)
    rw [outputs,List.foldl_cons,final]
    rcases single state event initial with ⟨quiet,same⟩ | ⟨shown,moved⟩
    · rw [quiet]
      rw [same] at values ⊢
      exact ⟨values,rfl⟩
    · rw [shown]
      rw [moved] at values ⊢
      refine ⟨?_,rfl⟩
      rw [Option.toList_some,List.singleton_append,List.length_cons,List.range_succ_eq_map,
        List.map_cons,List.map_map]
      exact congrArg (counter state :: ·) values

theorem outputs_congr {Inv : σ → Prop} {Condition : σ → ε → Prop}
      {first second : σ → ε → Option α}
    (preserved : ∀ state event, Inv state → Inv (step state event))
    (single : ∀ state event, Inv state → Condition state event →
      first state event = second state event)
    (events : List ε) (state : σ) (initial : Inv state)
    (allowed : Throughout step Condition events state) :
    outputs step first events state = outputs step second events state := by
  induction events generalizing state with
  | nil => rfl
  | cons event rest ih =>
    rw [outputs,outputs,single state event initial allowed.1,
      ih _ (preserved state event initial) allowed.2]

theorem Throughout.imp {Inv : σ → Prop} {Condition Result : σ → ε → Prop}
    (preserved : ∀ state event, Inv state → Inv (step state event))
    (single : ∀ state event, Inv state → Condition state event → Result state event)
    {events : List ε} {state : σ} (initial : Inv state)
    (allowed : Throughout step Condition events state) :
    Throughout step Result events state := by
  induction events generalizing state with
  | nil => trivial
  | cons event rest ih => exact ⟨single state event initial allowed.1,
    ih (preserved state event initial) allowed.2⟩

theorem Throughout.invariant (Inv : σ → Prop) {Condition : σ → ε → Prop}
    (preserved : ∀ state event, Inv state → Condition state event → Inv (step state event))
    {events : List ε} {state : σ} (initial : Inv state)
    (allowed : Throughout step Condition events state) :
    Inv (events.foldl step state) := by
  induction events generalizing state with
  | nil => exact initial
  | cons event rest ih => exact ih (preserved state event initial allowed.1) allowed.2

theorem Throughout.and {First Second : σ → ε → Prop} {events : List ε} {state : σ}
    (first : Throughout step First events state) (second : Throughout step Second events state) :
    Throughout step (fun state event => First state event ∧ Second state event) events state := by
  induction events generalizing state with
  | nil => trivial
  | cons event rest ih => exact ⟨⟨first.1,second.1⟩,ih first.2 second.2⟩

theorem throughout_append {Condition : σ → ε → Prop} (first second : List ε) (state : σ) :
    Throughout step Condition (first ++ second) state ↔
      Throughout step Condition first state ∧ Throughout step Condition second
        (first.foldl step state) := by
  induction first generalizing state with
  | nil => simp [Throughout]
  | cons event rest ih => simp [Throughout,ih,and_assoc]

theorem throughout_of_forall {Condition : σ → ε → Prop} {events : List ε}
    (always : ∀ state, ∀ event ∈ events, Condition state event) (state : σ) :
    Throughout step Condition events state := by
  induction events generalizing state with
  | nil => trivial
  | cons event rest ih =>
    exact ⟨always state event (by simp),
      ih (fun state other member => always state other (by simp [member])) _⟩

theorem forall_outputs_iff {observe : σ → ε → Option α} {P : α → Prop} (events : List ε)
    (state : σ) :
    (∀ item ∈ outputs step observe events state, P item) ↔
      Throughout step (fun state event => ∀ item ∈ observe state event, P item) events state := by
  induction events generalizing state with
  | nil => simp [outputs,Throughout]
  | cons event rest ih =>
    simp only [outputs,Throughout,List.mem_append,Option.mem_toList,or_imp,forall_and,ih]
    rfl

end Total

/-- Where every step keeps a property or is an exit, a run from a state with the
property ends with it or takes an exit on the way. -/
theorem kept_or_exits {step : σ → ε → σ} {Kept : σ → Prop} {Exit : σ → ε → Prop}
    (single : ∀ state event, Kept state → Kept (step state event) ∨ Exit state event)
    (events : List ε) (state : σ) (initial : Kept state) :
    Kept (events.foldl step state) ∨
      ∃ early event late, events = early ++ event::late ∧ Exit (early.foldl step state) event := by
  induction events generalizing state with
  | nil => exact .inl initial
  | cons event rest ih =>
    rcases single state event initial with kept | out
    · rcases ih _ kept with final | ⟨early,other,late,split,out⟩
      · exact .inl final
      · exact .inr ⟨event::early,other,late,by rw [split]; rfl,out⟩
    · exact .inr ⟨[],event,rest,rfl,out⟩

/-- Where steps commute unless they have one key in common, the order of steps with
distinct keys does not matter. -/
theorem foldl_perm_of_keys {κ : Type} {step : σ → ε → σ} (key : ε → Option κ)
    (commutes : ∀ {first second}, (∀ name ∈ key first, name ∉ key second) →
      ∀ state, step (step state first) second = step (step state second) first)
    {events permuted : List ε} (same : events.Perm permuted)
    (distinct : (events.filterMap key).Nodup) (state : σ) :
    events.foldl step state = permuted.foldl step state := by
  have apart : events.Pairwise (fun first second => ∀ name ∈ key first, name ∉ key second) := by
    refine (List.pairwise_filterMap.mp distinct).imp ?_
    intro first second different name here there
    exact different name here name there rfl
  have symmetric : Std.Symm (fun first second => ∀ name ∈ key first, name ∉ key second) :=
    ⟨fun first second different name here there => different name there here⟩
  refine same.foldl_eq' (fun first firstIn second secondIn state => ?_) state
  by_cases equal : first = second
  · rw [equal]
  · exact commutes (apart.forall firstIn secondIn equal) state

end RdmaPlatform.Library.Transition
