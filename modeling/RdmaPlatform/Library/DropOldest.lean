import RdmaPlatform.Library.BoundedQueue
import RdmaPlatform.Library.Transition

/-! Systems with a bounded queue that drops its oldest item. What they have given and
taken over a whole run is compared with the unbounded queue: the items taken and the
items held are given ones in their order, and all of them unless the queue was full. -/
namespace RdmaPlatform.Library.DropOldest
open Transition

variable {σ ε α : Type}

/-- `roomy` says that no item was given while the queue was full. -/
structure History (bound : Nat) (given taken held : List α) (roomy : Prop) : Prop where
  ordered : (taken ++ held).Sublist given
  recent : held <:+ given
  bounded : 0 < bound → held.length ≤ bound
  whole : taken ++ held = given ↔ roomy

/-- The history of what the items say, where every item given says something. -/
theorem History.filterMap {β : Type} {bound : Nat} {given taken held : List α} {roomy : Prop}
    (history : History bound given taken held roomy) (f : α → Option β)
    (total : ∀ item ∈ given, (f item).isSome = true) :
    History bound (given.filterMap f) (taken.filterMap f) (held.filterMap f) roomy where
  ordered := by
    rw [← List.filterMap_append]
    exact history.ordered.filterMap f
  recent := history.recent.filterMap f
  bounded positive := Nat.le_trans (List.length_filterMap_le f held) (history.bounded positive)
  whole := by
    rw [← history.whole,← List.filterMap_append]
    refine ⟨fun equal => history.ordered.eq_of_length ?_,fun equal => by rw [equal]⟩
    have length (items : List α) (part : ∀ item ∈ items, item ∈ given) :
        (items.filterMap f).length = items.length := by
      rw [List.filterMap_length_eq_length]
      exact fun item member => total item (part item member)
    rw [← length _ (fun item member => history.ordered.subset member),equal,
      length given (fun item member => member)]

/-- Each step of the system gives the queue an item, takes its first item or leaves it. -/
structure Queueing (step : σ → ε → σ) (Inv : σ → Prop) (bound : Nat) (held : σ → List α)
    (given taken : σ → ε → Option α) : Prop where
  preserved : ∀ state event, Inv state → Inv (step state event)
  gives : ∀ state event item, Inv state → given state event = some item →
    taken state event = none ∧ held (step state event) = BoundedQueue.push bound (held state) item
  takes : ∀ state event, Inv state → given state event = none →
    (taken state event).toList ++ held (step state event) = held state

namespace Queueing

variable {step : σ → ε → σ} {Inv : σ → Prop} {bound : Nat} {held : σ → List α}
  {given taken : σ → ε → Option α}

/-- The item that a step drops. -/
def dropped (bound : Nat) (held : σ → List α) (given : σ → ε → Option α) (state : σ)
      (event : ε) :
    Option α :=
  (given state event).bind (fun _ => BoundedQueue.dropped bound (held state))

/-- No item is given to a full queue. -/
def Roomy (bound : Nat) (held : σ → List α) (given : σ → ε → Option α) (state : σ)
      (event : ε) :
    Prop :=
  given state event ≠ none → BoundedQueue.full bound (held state) = false

theorem single (queueing : Queueing step Inv bound held given taken) {state : σ} (inv : Inv state)
    (event : ε) :
    (dropped bound held given state event).toList ++
      ((taken state event).toList ++ held (step state event)) = held state ++
      (given state event).toList := by
  cases gave : given state event with
  | none => simp [dropped,gave,queueing.takes state event inv gave]
  | some item =>
    obtain ⟨nothing,pushed⟩ := queueing.gives state event item inv gave
    simpa [dropped,gave,nothing,pushed] using BoundedQueue.dropped_append_push bound (held state) item

theorem dropped_eq_none_iff (state : σ) (event : ε) :
    dropped bound held given state event = none ↔ Roomy bound held given state event := by
  unfold dropped Roomy
  cases given state event with
  | none => simp
  | some item => simp [BoundedQueue.dropped_eq_none_iff]

theorem sublist (queueing : Queueing step Inv bound held given taken) (events : List ε) (state : σ)
    (inv : Inv state) :
    (outputs step taken events state ++ held (events.foldl step state)).Sublist
      (held state ++ outputs step given events state) := by
  induction events generalizing state with
  | nil => simp [outputs]
  | cons event rest ih =>
    have later := ih (step state event) (queueing.preserved state event inv)
    have now : ((taken state event).toList ++ held (step state event)).Sublist
        (held state ++ (given state event).toList) := by
      rw [← queueing.single inv event]
      exact List.sublist_append_right _ _
    have first := later.append_left (taken state event).toList
    have second := now.append_right (outputs step given rest (step state event))
    rw [← List.append_assoc,← List.append_assoc] at first
    rw [outputs,outputs,List.foldl_cons,← List.append_assoc]
    exact first.trans second

theorem suffix (queueing : Queueing step Inv bound held given taken) (events : List ε) (state : σ)
    (inv : Inv state) :
    held (events.foldl step state) <:+ held state ++ outputs step given events state := by
  induction events generalizing state with
  | nil => simp [outputs]
  | cons event rest ih =>
    have later := ih (step state event) (queueing.preserved state event inv)
    have now : held (step state event) <:+ held state ++ (given state event).toList := by
      rw [← queueing.single inv event,← List.append_assoc]
      exact List.suffix_append _ _
    obtain ⟨gone,equal⟩ := now
    rw [outputs,List.foldl_cons,← List.append_assoc,← equal,List.append_assoc]
    exact later.trans (List.suffix_append _ _)

theorem length_le (queueing : Queueing step Inv bound held given taken) (positive : 0 < bound)
    (events : List ε) (state : σ) (inv : Inv state) (fits : (held state).length ≤ bound) :
    (held (events.foldl step state)).length ≤ bound := by
  induction events generalizing state with
  | nil => exact fits
  | cons event rest ih =>
    refine ih (step state event) (queueing.preserved state event inv) ?_
    cases gave : given state event with
    | none =>
      have split_ := congrArg List.length (queueing.takes state event inv gave)
      rw [List.length_append] at split_
      omega
    | some item =>
      rw [(queueing.gives state event item inv gave).2]
      exact BoundedQueue.length_push_le positive fits item

/-- Every dropped item makes what was taken and is held one shorter than what was given. -/
theorem whole_iff (queueing : Queueing step Inv bound held given taken) (events : List ε) (state : σ)
    (inv : Inv state) :
    outputs step taken events state ++ held (events.foldl step state) =
        held state ++ outputs step given events state ↔
      Throughout step (Roomy bound held given) events state := by
  constructor
  · intro equal
    induction events generalizing state with
    | nil => trivial
    | cons event rest ih =>
      have after := queueing.preserved state event inv
      have sub := queueing.sublist rest (step state event) after
      have now := congrArg List.length (queueing.single inv event)
      have all := congrArg List.length equal
      have shorter := sub.length_le
      simp only [outputs,List.foldl_cons,List.length_append] at now all shorter
      refine ⟨(dropped_eq_none_iff state event).mp ?_,ih _ after (sub.eq_of_length ?_)⟩
      · refine Option.toList_eq_nil_iff.mp (List.eq_nil_of_length_eq_zero ?_)
        omega
      · simp only [List.length_append]
        omega
  · intro roomy
    refine outputs_conserved taken given held queueing.preserved (fun state event inv room => ?_)
      events state inv roomy
    have now := queueing.single inv event
    rwa [(dropped_eq_none_iff state event).mpr room] at now

/-- An item stays in the queue until it is taken or an item given to the full queue
drops it. -/
theorem fate (queueing : Queueing step Inv bound held given taken) {item : α} (events : List ε)
    (state : σ) (inv : Inv state) (queued : item ∈ held state) :
    item ∈ held (events.foldl step state) ∨
      ∃ early event late, events = early ++ event::late ∧
        (taken (early.foldl step state) event = some item ∨
          given (early.foldl step state) event ≠ none ∧
            BoundedQueue.full bound (held (early.foldl step state)) = true ∧
            (held (early.foldl step state)).head? = some item) := by
  have single (state : σ) (event : ε) (kept : Inv state ∧ item ∈ held state) :
      (Inv (step state event) ∧ item ∈ held (step state event)) ∨
        (taken state event = some item ∨
          given state event ≠ none ∧ BoundedQueue.full bound (held state) = true ∧
            (held state).head? = some item) := by
    obtain ⟨inv,queued⟩ := kept
    have after := queueing.preserved state event inv
    cases gave : given state event with
    | none =>
      rw [← queueing.takes state event inv gave] at queued
      rcases List.mem_append.mp queued with out | stays
      · exact .inr (.inl (Option.mem_toList.mp out))
      · exact .inl ⟨after,stays⟩
    | some other =>
      rw [(queueing.gives state event other inv gave).2]
      rcases BoundedQueue.mem_push_or_dropped queued other with stays | lost
      · exact .inl ⟨after,stays⟩
      · exact .inr (.inr ⟨Option.some_ne_none _,lost⟩)
  rcases kept_or_exits single events state ⟨inv,queued⟩ with ⟨_,stays⟩ | exits
  · exact .inl stays
  · exact .inr exits

theorem history (queueing : Queueing step Inv bound held given taken) (events : List ε) (state : σ)
    (inv : Inv state) (empty : held state = []) :
    History bound (outputs step given events state) (outputs step taken events state)
      (held (events.foldl step state)) (Throughout step (Roomy bound held given) events state) := by
  have sublist := queueing.sublist events state inv
  have suffix := queueing.suffix events state inv
  have whole := queueing.whole_iff events state inv
  rw [empty,List.nil_append] at sublist suffix whole
  exact ⟨sublist,suffix,fun positive => queueing.length_le positive events state inv
    (by simp [empty]),whole⟩

/-- A system whose steps access the queue at most once, after preparations that the queue
does not show. -/
theorem lift {τ κ : Type} {above : τ → κ → τ} {Above : τ → Prop}
    (queueing : Queueing step Inv bound held given taken) (view : τ → σ) (prepared : τ → κ → σ)
    (access : τ → κ → Option ε)
    (preserved : ∀ state action, Above state → Above (above state action))
    (based : ∀ state action, Above state → Inv (prepared state action))
    (unseen : ∀ state action, held (prepared state action) = held (view state))
    (single : ∀ state action, Above state → view (above state action) = (access state action).elim
      (prepared state action) (step (prepared state action))) :
    Queueing above Above bound (fun state => held (view state))
      (fun state action => (access state action).bind (given (prepared state action)))
      (fun state action => (access state action).bind (taken (prepared state action))) where
  preserved := preserved
  gives state action item inv gave := by
    obtain ⟨event,accessed,gave⟩ := Option.bind_eq_some_iff.mp gave
    obtain ⟨nothing,pushed⟩ := queueing.gives (prepared state action) event item
      (based state action inv) gave
    rw [single state action inv,accessed,← unseen state action]
    exact ⟨nothing,pushed⟩
  takes state action inv gave := by
    rw [single state action inv,← unseen state action]
    cases accessed : access state action with
    | none => rfl
    | some event =>
      rw [accessed] at gave
      exact queueing.takes (prepared state action) event (based state action inv) gave

end Queueing

end RdmaPlatform.Library.DropOldest
