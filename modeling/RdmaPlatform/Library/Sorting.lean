import Mathlib.Data.List.Sort
import Mathlib.Order.Lattice

/-! Sorting that need not be stable. A sort may return any permutation of its input
in which no element comes before the one in front of it; where the order ranks the
elements apart there is only one. -/
namespace RdmaPlatform.Library

structure Sorts {α : Type} (less : α → α → Prop) (input output : List α) : Prop where
  perm : output.Perm input
  ordered : output.IsChain (fun left right => ¬ less right left)

section Ranked

variable {α β : Type} [LinearOrder β] {less : α → α → Prop} (rank : α → β)
  (ranked : ∀ left right, less left right ↔ rank left < rank right)
include ranked

private theorem trans_not_less : IsTrans α (fun left right => ¬ less right left) := ⟨by
  intro first second third
  simp only [ranked,not_lt]
  exact le_trans⟩

private theorem isChain_iff_pairwise (list : List α) :
    list.IsChain (fun left right => ¬ less right left) ↔
      list.Pairwise (fun left right => ¬ less right left) := by
  have := trans_not_less rank ranked
  exact List.isChain_iff_pairwise

theorem sorts_insertionSort [DecidableRel less] (input : List α) :
    Sorts less input (input.insertionSort (fun left right => ¬ less right left)) := by
  have : Std.Total (fun left right => ¬ less right left) := ⟨by
    intro left right
    simp only [ranked,not_lt]
    exact le_total _ _⟩
  have := trans_not_less rank ranked
  refine ⟨List.perm_insertionSort _ _,?_⟩
  rw [isChain_iff_pairwise rank ranked]
  exact List.pairwise_insertionSort _ _

theorem Sorts.pairwise {input output : List α} (sorted : Sorts less input output) :
    output.Pairwise (fun left right => rank left ≤ rank right) := by
  refine ((isChain_iff_pairwise rank ranked _).mp sorted.ordered).imp ?_
  intro left right above
  rwa [ranked,not_lt] at above

/-- Elements of equal rank are equal, so every sort of every arrangement of the
input returns the same list. -/
theorem Sorts.eq_insertionSort [DecidableRel less] {input other output : List α}
    (sorted : Sorts less other output) (same : other.Perm input)
    (apart : ∀ left ∈ input, ∀ right ∈ input, rank left = rank right → left = right) :
    output = input.insertionSort (fun left right => ¬ less right left) := by
  have reference := sorts_insertionSort rank ranked input
  apply List.Perm.eq_of_pairwise _ (sorted.pairwise rank ranked) (reference.pairwise rank ranked)
  · exact sorted.perm.trans (same.trans reference.perm.symm)
  · intro left right inside inside' above below
    apply apart left _ right _ (le_antisymm above below)
    · exact (sorted.perm.trans same).mem_iff.mp inside
    · exact reference.perm.mem_iff.mp inside'

end Ranked

theorem pair_sublist_or {α : Type} {list : List α} {left right : α} (leftIn : left ∈ list)
    (rightIn : right ∈ list) (different : left ≠ right) :
    [left,right].Sublist list ∨ [right,left].Sublist list := by
  induction list with
  | nil => cases leftIn
  | cons head rest ih =>
    rcases List.mem_cons.mp leftIn with rfl | leftLater
    · have later : right ∈ rest := (List.mem_cons.mp rightIn).resolve_left different.symm
      exact .inl (.cons_cons _ (List.singleton_sublist.mpr later))
    · rcases List.mem_cons.mp rightIn with rfl | rightLater
      · exact .inr (.cons_cons _ (List.singleton_sublist.mpr leftLater))
      · rcases ih leftLater rightLater with inside | inside
        · exact .inl (inside.cons _)
        · exact .inr (inside.cons _)

/-- In a sorted list two elements stand in the order of the sort. -/
theorem pair_sublist_iff {α : Type} {R : α → α → Prop} {list : List α} (sorted : list.Pairwise R)
    {left right : α} (leftIn : left ∈ list) (rightIn : right ∈ list) (different : left ≠ right)
    (asymmetric : R left right → ¬ R right left) :
    [left,right].Sublist list ↔ R left right := by
  have ordered (first second : α) (inside : [first,second].Sublist list) : R first second :=
    List.pairwise_iff_forall_sublist.mp sorted inside
  constructor
  · exact ordered left right
  · intro related
    rcases pair_sublist_or leftIn rightIn different with inside | reversed
    · exact inside
    · exact absurd (ordered right left reversed) (asymmetric related)

/-- The first of two elements is among the first ones of a list if the second is. -/
theorem mem_take_of_pair_sublist {α : Type} {list : List α} (distinct : list.Nodup) {left right : α}
    (inside : [left,right].Sublist list) {count : Nat} (taken : right ∈ list.take count) :
    left ∈ list.take count := by
  rw [← List.take_append_drop count list] at inside distinct
  obtain ⟨front,back,parts,early,late⟩ := List.sublist_append_iff.mp inside
  cases front with
  | nil =>
    rw [List.nil_append] at parts
    have dropped : right ∈ list.drop count := late.subset (by simp [← parts])
    exact absurd rfl ((List.nodup_append.mp distinct).2.2 right taken right dropped)
  | cons head rest =>
    have first : left = head := (List.cons.inj parts).1
    exact early.subset (by simp [first])

end RdmaPlatform.Library
