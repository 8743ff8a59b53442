import Mathlib.Logic.Relation

/-! Wake-ups of a condition variable that guards a queue. Items are put under the lock and
one waiter is notified some time after each; closing the queue notifies all of them. A
waiter tests the queue under the lock before it sleeps, and again when it is woken. Only
numbers count here: of items, of notifications still owed, and of waiters awake and asleep. -/
namespace RdmaPlatform.Library

structure Wakeups where
  items : Nat
  closed : Bool
  owed : Nat
  owedAll : Nat
  awake : Nat
  asleep : Nat

namespace Wakeups

inductive Step : Wakeups → Wakeups → Prop
  | put (items closed owed owedAll awake asleep now) (few : now ≤ items + 1) :
      Step ⟨items,closed,owed,owedAll,awake,asleep⟩ ⟨now,closed,owed + 1,owedAll,awake,asleep⟩
  | notifyOne (items closed owed owedAll awake asleep) :
      Step ⟨items,closed,owed + 1,owedAll,awake,asleep + 1⟩ ⟨items,closed,owed,owedAll,
        awake + 1,asleep⟩
  | notifyNobody (items closed owed owedAll awake) :
      Step ⟨items,closed,owed + 1,owedAll,awake,0⟩ ⟨items,closed,owed,owedAll,awake,0⟩
  | close (items closed owed owedAll awake asleep) :
      Step ⟨items,closed,owed,owedAll,awake,asleep⟩ ⟨items,true,owed,owedAll + 1,awake,asleep⟩
  | notifyAll (items closed owed owedAll awake asleep) :
      Step ⟨items,closed,owed,owedAll + 1,awake,asleep⟩ ⟨items,closed,owed,owedAll,awake + asleep,0⟩
  | enter (items closed owed owedAll awake asleep) :
      Step ⟨items,closed,owed,owedAll,awake,asleep⟩ ⟨items,closed,owed,owedAll,awake + 1,asleep⟩
  | take (items owed owedAll awake asleep) :
      Step ⟨items + 1,false,owed,owedAll,awake + 1,asleep⟩ ⟨items,false,owed,owedAll,awake,asleep⟩
  | leave (items closed owed owedAll awake asleep) (done : closed = true ∨ items = 0) :
      Step ⟨items,closed,owed,owedAll,awake + 1,asleep⟩ ⟨items,closed,owed,owedAll,awake,asleep⟩
  | sleep (owed owedAll awake asleep) :
      Step ⟨0,false,owed,owedAll,awake + 1,asleep⟩ ⟨0,false,owed,owedAll,awake,asleep + 1⟩
  | wake (items closed owed owedAll awake asleep) :
      Step ⟨items,closed,owed,owedAll,awake,asleep + 1⟩ ⟨items,closed,owed,owedAll,awake + 1,asleep⟩
  | rest (state) : Step state state

/-- Nobody sleeps while there is an item for them and no wake-up under way. -/
structure Guarded (state : Wakeups) : Prop where
  items : 0 < state.asleep → state.closed = false → state.items ≤ state.owed + state.awake
  closed : 0 < state.asleep → state.closed = true → 0 < state.owedAll

theorem Step.guarded {state next : Wakeups} (step : Step state next) (guarded : Guarded state) :
    Guarded next := by
  obtain ⟨items,closing⟩ := guarded
  cases step with
  | put items closed owed owedAll awake asleep now few =>
    refine ⟨fun sleeps opened => ?_,closing⟩
    have before := items sleeps opened
    simp only at before ⊢
    omega
  | notifyOne items_ closed owed owedAll awake asleep =>
    refine ⟨fun _ opened => ?_,fun _ closed => closing (Nat.succ_pos _) closed⟩
    have before := items (Nat.succ_pos _) opened
    simp only at before ⊢
    omega
  | notifyNobody | notifyAll =>
    exact ⟨fun sleeps => absurd sleeps (Nat.lt_irrefl 0),fun sleeps => absurd sleeps (Nat.lt_irrefl 0)⟩
  | close => exact ⟨fun _ opened => Bool.noConfusion opened,fun _ _ => Nat.succ_pos _⟩
  | enter items_ closed owed owedAll awake asleep =>
    refine ⟨fun sleeps opened => ?_,closing⟩
    have before := items sleeps opened
    simp only at before ⊢
    omega
  | take items_ owed owedAll awake asleep =>
    refine ⟨fun sleeps opened => ?_,fun _ closed => Bool.noConfusion closed⟩
    have before := items sleeps opened
    simp only at before ⊢
    omega
  | leave items_ closed owed owedAll awake asleep done =>
    refine ⟨fun sleeps opened => ?_,closing⟩
    rcases done with shut | none
    · exact absurd (shut.symm.trans opened) Bool.noConfusion
    · simp only [none]
      omega
  | sleep => exact ⟨fun _ _ => Nat.zero_le _,fun _ closed => Bool.noConfusion closed⟩
  | wake items_ closed owed owedAll awake asleep =>
    refine ⟨fun _ opened => ?_,fun _ closed => closing (Nat.succ_pos _) closed⟩
    have before := items (Nat.succ_pos _) opened
    simp only at before ⊢
    omega
  | rest => exact ⟨items,closing⟩

end Wakeups

end RdmaPlatform.Library
