import Mathlib.Order.Lattice
import Mathlib.Data.List.Pairwise

/-! A map as the list of its entries in key order, which is what iterating over a
`std::map` visits. Two maps with the same entries are equal. -/
namespace RdmaPlatform.Library

variable {κ ν : Type} [LinearOrder κ]

def assignEntry (key : κ) (value : ν) : List (κ × ν) → List (κ × ν)
  | [] => [(key,value)]
  | entry::rest =>
    if key < entry.1 then (key,value)::entry::rest
    else if key = entry.1 then (key,value)::rest
    else entry::assignEntry key value rest

theorem mem_assignEntry {key : κ} {value : ν} {entries : List (κ × ν)} {entry : κ × ν}
    (member : entry ∈ assignEntry key value entries) : entry = (key,value) ∨ entry ∈ entries := by
  induction entries with
  | nil => simpa [assignEntry] using member
  | cons first rest ih =>
    rw [assignEntry] at member
    split at member
    next => simpa using member
    next =>
      split at member
      next =>
        rcases List.mem_cons.mp member with here | later
        · exact .inl here
        · exact .inr (List.mem_cons_of_mem _ later)
      next =>
        rcases List.mem_cons.mp member with here | later
        · exact .inr (by simp [here])
        · rcases ih later with same | old
          · exact .inl same
          · exact .inr (List.mem_cons_of_mem _ old)

theorem assignEntry_sorted (key : κ) (value : ν) (entries : List (κ × ν))
    (sorted : entries.Pairwise (fun left right => left.1 < right.1)) :
    (assignEntry key value entries).Pairwise (fun left right => left.1 < right.1) := by
  induction entries with
  | nil => simp [assignEntry]
  | cons first rest ih =>
    have tail := List.pairwise_cons.mp sorted
    rw [assignEntry]
    split
    next below =>
      refine List.pairwise_cons.mpr ⟨?_,sorted⟩
      intro other member
      rcases List.mem_cons.mp member with here | later
      · rw [here]; exact below
      · exact below.trans (tail.1 other later)
    next notBelow =>
      split
      next same => exact List.pairwise_cons.mpr ⟨fun other member => same ▸ tail.1 other member,
        tail.2⟩
      next different =>
        refine List.pairwise_cons.mpr ⟨?_,ih tail.2⟩
        intro other member
        rcases mem_assignEntry member with new | old
        · rw [new]; exact lt_of_le_of_ne (not_lt.mp notBelow) (Ne.symm different)
        · exact tail.1 other old

theorem assignEntry_last (key : κ) (value : ν) (entries : List (κ × ν))
    (above : ∀ entry ∈ entries, entry.1 < key) :
    assignEntry key value entries = entries ++ [(key,value)] := by
  induction entries with
  | nil => rfl
  | cons first rest ih =>
    have below := above first (by simp)
    rw [assignEntry,if_neg below.asymm,if_neg below.ne',
      ih (fun entry member => above entry (by simp [member]))]
    rfl

structure SortedMap (κ ν : Type) [LinearOrder κ] where
  entries : List (κ × ν)
  sorted : entries.Pairwise (fun left right => left.1 < right.1)
  deriving DecidableEq

namespace SortedMap

def empty : SortedMap κ ν := ⟨[],List.Pairwise.nil⟩

def assign (m : SortedMap κ ν) (key : κ) (value : ν) : SortedMap κ ν :=
  ⟨assignEntry key value m.entries,assignEntry_sorted key value m.entries m.sorted⟩

@[ext] theorem ext {first second : SortedMap κ ν} (same : first.entries = second.entries) :
    first = second := by
  cases first
  cases second
  cases same
  rfl

private theorem entries_foldl_assign (entries : List (κ × ν)) (m : SortedMap κ ν)
    (sorted : (m.entries ++ entries).Pairwise (fun left right => left.1 < right.1)) :
    (entries.foldl (fun m entry => m.assign entry.1 entry.2) m).entries = m.entries ++ entries := by
  induction entries generalizing m with
  | nil => simp
  | cons entry rest ih =>
    have above := (List.pairwise_append.mp sorted).2.2
    have placed : (m.assign entry.1 entry.2).entries = m.entries ++ [entry] :=
      assignEntry_last entry.1 entry.2 m.entries
        (fun other member => above other member entry (by simp))
    have later := ih (m.assign entry.1 entry.2) (by rw [placed]; simpa using sorted)
    rw [placed] at later
    simpa using later

theorem foldl_assign_entries (m : SortedMap κ ν) :
    m.entries.foldl (fun m entry => m.assign entry.1 entry.2) empty = m := by
  ext1
  simpa [empty] using entries_foldl_assign m.entries empty (by simpa [empty] using m.sorted)

end SortedMap

end RdmaPlatform.Library
