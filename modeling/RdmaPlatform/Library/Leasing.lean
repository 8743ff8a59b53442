import Mathlib.Data.List.Perm.Basic
import Mathlib.Data.List.Nodup

/-! Keys that are lent and given back. The known keys are the free and the lent ones;
a key is made only when none is free, so there are never more than the first ones or
the most that were ever lent at once. -/
namespace RdmaPlatform.Library

variable {κ : Type} [DecidableEq κ]

structure Leasing (floor : Nat) (free held known : List κ) (peak : Nat) : Prop where
  distinct : known.Nodup
  parted : (free ++ held).Perm known
  grown : known.length = Nat.max floor peak

namespace Leasing

variable {floor peak : Nat} {free rest held known : List κ} {key : κ}

omit [DecidableEq κ] in
theorem nodup (leasing : Leasing floor free held known peak) : (free ++ held).Nodup :=
  leasing.parted.nodup_iff.mpr leasing.distinct

omit [DecidableEq κ] in
theorem length_eq (leasing : Leasing floor free held known peak) :
    free.length + held.length = known.length := by
  rw [← List.length_append,leasing.parted.length_eq]

omit [DecidableEq κ] in
theorem empty : Leasing 0 ([] : List κ) [] [] 0 := ⟨List.nodup_nil,List.Perm.refl _,rfl⟩

omit [DecidableEq κ] in
/-- One more of the first keys, before any is lent. -/
theorem add (leasing : Leasing floor free [] known 0) (fresh : key ∉ known) :
    Leasing (floor + 1) (free ++ [key]) [] (key::known) 0 := by
  refine ⟨List.nodup_cons.mpr ⟨fresh,leasing.distinct⟩,?_,?_⟩
  · have parted := leasing.parted
    rw [List.append_nil] at parted ⊢
    exact (List.perm_append_singleton key free).trans (parted.cons key)
  · have grown : known.length = max floor 0 := leasing.grown
    change _ = max (floor + 1) 0
    rw [List.length_cons]
    omega

omit [DecidableEq κ] in
theorem not_mem_held (leasing : Leasing floor free held known peak) (member : key ∈ free) :
    key ∉ held :=
  fun lent => (List.nodup_append.mp leasing.nodup).2.2 key member key lent rfl

omit [DecidableEq κ] in
theorem take (leasing : Leasing floor (key::rest) held known peak) :
    Leasing floor rest (key::held) known (Nat.max peak (held.length + 1)) := by
  have size := leasing.length_eq
  have grown : known.length = max floor peak := leasing.grown
  refine ⟨leasing.distinct,List.perm_middle.trans leasing.parted,?_⟩
  -- A free key was known already, so one more lent key is no new peak.
  rw [List.length_cons] at size
  change _ = max floor (max peak _)
  omega

omit [DecidableEq κ] in
theorem grow (leasing : Leasing floor [] held known peak) (fresh : key ∉ known) :
    Leasing floor [] (key::held) (key::known) (Nat.max peak (held.length + 1)) := by
  have size := leasing.length_eq
  have grown : known.length = max floor peak := leasing.grown
  refine ⟨List.nodup_cons.mpr ⟨fresh,leasing.distinct⟩,leasing.parted.cons key,?_⟩
  rw [List.length_nil] at size
  change _ = max floor (max peak _)
  rw [List.length_cons]
  omega

theorem giveBack (leasing : Leasing floor free held known peak) (member : key ∈ known)
    (out : key ∉ free) :
    Leasing floor (free ++ [key]) (held.filter (fun other => other ≠ key)) known peak := by
  have lent : key ∈ held :=
    (List.mem_append.mp (leasing.parted.mem_iff.mpr member)).resolve_left out
  have distinct : held.Nodup := (List.nodup_append.mp leasing.nodup).2.1
  have removed : (key::held.filter (fun other => other ≠ key)).Perm held := by
    have erased : held.erase key = held.filter (fun other => other ≠ key) := by
      rw [distinct.erase_eq_filter]
      refine List.filter_congr (fun other _ => ?_)
      by_cases same : other = key <;> simp [same]
    rw [← erased]
    exact (List.perm_cons_erase lent).symm
  refine ⟨leasing.distinct,?_,leasing.grown⟩
  rw [List.append_assoc,List.singleton_append]
  exact (removed.append_left free).trans leasing.parted

/-- What is not lent is given back without effect. -/
theorem filter_unlent (leasing : Leasing floor free held known peak)
    (unlent : key ∉ known ∨ key ∈ free) :
    held.filter (fun other => other ≠ key) = held := by
  have absent : key ∉ held := by
    rcases unlent with unknown | inside
    · exact fun lent => unknown (leasing.parted.mem_iff.mp (List.mem_append_right _ lent))
    · exact leasing.not_mem_held inside
  exact List.filter_eq_self.mpr
    (fun other member => decide_eq_true (ne_of_mem_of_not_mem member absent))

end Leasing

end RdmaPlatform.Library
