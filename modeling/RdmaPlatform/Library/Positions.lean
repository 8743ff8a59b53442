import Mathlib.Data.List.Perm.Basic
import Mathlib.Algebra.BigOperators.Group.List.Basic
import Mathlib.Algebra.Ring.Nat

/-! The positions of several threads, of which one moves: what the threads hold changes by
what that thread holds before and after, and so does any sum over the positions. -/
namespace RdmaPlatform.Library

variable {α β : Type}

theorem filterMap_set_perm (hand : β → Option α) (positions : List β) (index : Nat) (old new : β)
    (at_ : positions[index]? = some old) :
    ((hand old).toList ++ (positions.set index new).filterMap hand).Perm
      ((hand new).toList ++ positions.filterMap hand) := by
  induction positions generalizing index with
  | nil => cases at_
  | cons position rest ih =>
    have split (list : List β) (first : β) : (first::list).filterMap hand = (hand first).toList ++
        list.filterMap hand := by
      cases found : hand first with
      | none => rw [List.filterMap_cons_none found,Option.toList_none,List.nil_append]
      | some item => rw [List.filterMap_cons_some found,Option.toList_some,List.singleton_append]
    cases index with
    | zero =>
      cases at_
      rw [List.set_cons_zero,split,split]
      exact List.perm_append_comm_assoc _ _ _
    | succ index =>
      rw [List.set_cons_succ,split,split]
      exact (List.perm_append_comm_assoc _ _ _).trans
        (((ih index at_).append_left _).trans (List.perm_append_comm_assoc _ _ _))

theorem sum_map_set (weight : β → Nat) (positions : List β) (index : Nat) (old new : β)
    (at_ : positions[index]? = some old) :
    ((positions.set index new).map weight).sum + weight old = (positions.map weight).sum +
      weight new := by
  induction positions generalizing index with
  | nil => cases at_
  | cons position rest ih =>
    cases index with
    | zero =>
      cases at_
      simp only [List.set_cons_zero,List.map_cons,List.sum_cons]
      omega
    | succ index =>
      have later := ih index at_
      simp only [List.set_cons_succ,List.map_cons,List.sum_cons]
      omega

theorem count_set [DecidableEq β] (positions : List β) (index : Nat) (old new item : β)
    (at_ : positions[index]? = some old) :
    (positions.set index new).count item + (if old = item then 1 else 0) =
      positions.count item + (if new = item then 1 else 0) := by
  obtain ⟨inside,rfl⟩ := List.getElem?_eq_some_iff.mp at_
  have present : (if positions[index] = item then 1 else 0) ≤ positions.count item := by
    split
    next same => exact List.count_pos_iff.mpr (same ▸ List.getElem_mem inside)
    next => exact Nat.zero_le _
  rw [List.count_set inside]
  simp only [beq_iff_eq]
  omega

end RdmaPlatform.Library
