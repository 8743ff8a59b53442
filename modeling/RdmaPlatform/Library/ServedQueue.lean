import Mathlib.Data.List.Perm.Basic

/-! A first-in first-out queue with several servers. An item is accepted into the queue,
taken from its front into the hands of a server, and done; items are taken in the order in
which they were accepted, and done in any order. -/
namespace RdmaPlatform.Library

variable {α : Type}

structure ServedQueue (accepted taken queue inHand done : List α) : Prop where
  ordered : accepted = taken ++ queue
  served : (done ++ inHand).Perm taken

namespace ServedQueue

variable {accepted taken queue rest inHand hands done : List α} {item : α}

theorem empty : ServedQueue ([] : List α) [] [] [] [] := ⟨rfl,List.Perm.refl _⟩

theorem push (serving : ServedQueue accepted taken queue inHand done) (item : α) :
    ServedQueue (accepted ++ [item]) taken (queue ++ [item]) inHand done where
  ordered := by rw [serving.ordered,List.append_assoc]
  served := serving.served

theorem take (serving : ServedQueue accepted taken (item::rest) inHand done)
    (into : hands.Perm (item::inHand)) :
    ServedQueue accepted (taken ++ [item]) rest hands done where
  ordered := by rw [serving.ordered,List.append_assoc,List.singleton_append]
  served := by
    have moved : (done ++ item::inHand).Perm (item::(done ++ inHand)) := List.perm_middle
    exact (into.append_left done).trans (moved.trans ((serving.served.cons item).trans
      (List.perm_append_singleton item taken).symm))

theorem finish (serving : ServedQueue accepted taken queue inHand done)
    (from_ : inHand.Perm (item::hands)) :
    ServedQueue accepted taken queue hands (done ++ [item]) where
  ordered := serving.ordered
  served := by
    rw [List.append_assoc,List.singleton_append]
    exact (from_.symm.append_left done).trans serving.served

theorem rearrange (serving : ServedQueue accepted taken queue inHand done) (same : hands.Perm inHand) :
    ServedQueue accepted taken queue hands done :=
  ⟨serving.ordered,(same.append_left done).trans serving.served⟩

/-- With nothing queued and empty hands everything accepted was taken in order and done once. -/
theorem settled (serving : ServedQueue accepted taken [] [] done) :
    taken = accepted ∧ done.Perm accepted := by
  have whole : taken = accepted := by rw [serving.ordered,List.append_nil]
  have all := serving.served
  rw [List.append_nil,whole] at all
  exact ⟨whole,all⟩

end ServedQueue

end RdmaPlatform.Library
