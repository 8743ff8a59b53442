import Mathlib.Data.List.MinMax

/-! Scans for a first best element. A scan that skips some indices and replaces its
incumbent only by a strictly better candidate returns the first minimum of the
candidates, if its comparison ranks them. -/
namespace RdmaPlatform.Library

variable {ι α β : Type} [LinearOrder β]

omit [LinearOrder β] in
private theorem foldl_argAux_congr {less other : α → α → Prop} [DecidableRel less]
    [DecidableRel other] (all list : List α) (same : ∀ x ∈ all, ∀ y ∈ all, less x y ↔ other x y)
    (inside : list ⊆ all) (best : Option α) (held : ∀ x ∈ best, x ∈ all) :
    list.foldl (List.argAux less) best = list.foldl (List.argAux other) best := by
  induction list generalizing best with
  | nil => rfl
  | cons candidate rest ih =>
    have member : candidate ∈ all := inside List.mem_cons_self
    have later : rest ⊆ all := fun x listed => inside (List.mem_cons_of_mem _ listed)
    cases best with
    | none =>
      refine ih later (some candidate) ?_
      intro x kept
      exact Option.some.inj kept ▸ member
    | some incumbent =>
      have known := held incumbent rfl
      simp only [List.foldl_cons,List.argAux,same candidate member incumbent known]
      refine ih later _ ?_
      intro x kept
      split at kept
      next => exact Option.some.inj kept ▸ member
      next => exact Option.some.inj kept ▸ known

omit [LinearOrder β] in
private theorem foldl_filterMap_steps {γ : Type} {scan : γ → ι → γ} {take : γ → α → γ}
    {candidate : ι → Option α}
    (skips : ∀ best index, candidate index = none → scan best index = best)
    (takes : ∀ best index found, candidate index = some found → scan best index = take best found)
    (indices : List ι) (best : γ) :
    indices.foldl scan best = (indices.filterMap candidate).foldl take best := by
  induction indices generalizing best with
  | nil => rfl
  | cons index rest ih =>
    cases here : candidate index with
    | none => rw [List.filterMap_cons_none here,List.foldl_cons,skips best index here,ih]
    | some found => rw [List.filterMap_cons_some here,List.foldl_cons,List.foldl_cons,
      takes best index found here,ih]

theorem foldl_scan_eq_argmin (less : α → α → Prop) [DecidableRel less] (rank : α → β)
    {scan : Option α → ι → Option α} {candidate : ι → Option α}
    (skips : ∀ best index, candidate index = none → scan best index = best)
    (takes : ∀ best index found, candidate index = some found →
      scan best index = List.argAux less best found)
    (indices : List ι)
    (ranked : ∀ x ∈ indices.filterMap candidate, ∀ y ∈ indices.filterMap candidate, less x y ↔
      rank x < rank y) :
    indices.foldl scan none = (indices.filterMap candidate).argmin rank := by
  rw [foldl_filterMap_steps skips takes,List.argmin]
  exact foldl_argAux_congr _ _ ranked (List.Subset.refl _) none (by simp)

/-- The minimum found has only worse elements before it. -/
theorem argmin_split {rank : α → β} {list : List α} {best : α}
    (found : list.argmin rank = some best) :
    ∃ before after, list = before ++ best::after ∧ ∀ x ∈ before, rank best < rank x := by
  induction list with
  | nil => cases found
  | cons first rest ih =>
    rw [List.argmin_cons] at found
    cases least : rest.argmin rank with
    | none =>
      rw [least] at found
      cases found
      exact ⟨[],rest,rfl,by simp⟩
    | some other =>
      simp only [least] at found
      split at found
      next better =>
        cases found
        obtain ⟨before,after,rfl,worse⟩ := ih least
        exact ⟨first::before,after,rfl,by simpa using ⟨better,worse⟩⟩
      next =>
        cases found
        exact ⟨[],rest,rfl,by simp⟩

/-- In a range, what is smaller than `offset` stands before it. -/
theorem mem_range_before {size offset earlier : Nat} {front back : List Nat}
    (split : List.range size = front ++ offset::back) (before : earlier < offset) :
    earlier ∈ front := by
  rw [List.range_eq_range',List.range'_eq_append_iff] at split
  obtain ⟨length,_,rfl,rest⟩ := split
  obtain ⟨start,_⟩ := List.range'_eq_cons_iff.mp rest.symm
  rw [List.mem_range'_1]
  omega

end RdmaPlatform.Library
