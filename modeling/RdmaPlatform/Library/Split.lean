import Mathlib.Data.List.TakeWhile

/-! Text with separators: the cut at the first separator, as `find` with two
`substr` calls makes it, and the terminated lines that `getline` reads. -/
namespace RdmaPlatform.Library

variable {α : Type} [DecidableEq α]

def cut (sep : α) : List α → Option (List α × List α)
  | [] => none
  | first::rest =>
    if first = sep then some ([],rest) else (cut sep rest).map (fun parts => (first::parts.1,parts.2))

theorem cut_append (sep : α) (left right : List α) (absent : sep ∉ left) :
    cut sep (left ++ sep::right) = some (left,right) := by
  induction left with
  | nil => simp [cut]
  | cons first rest ih =>
    simp only [List.mem_cons,not_or] at absent
    simp [cut,Ne.symm absent.1,ih absent.2]

theorem cut_eq_some {sep : α} {text left right : List α} (found : cut sep text = some (left,right)) :
    text = left ++ sep::right ∧ sep ∉ left := by
  induction text generalizing left with
  | nil => cases found
  | cons first rest ih =>
    rw [cut] at found
    split at found
    next same =>
      cases found
      simp [same]
    next different =>
      obtain ⟨⟨inner,after⟩,inside,equal⟩ := Option.map_eq_some_iff.mp found
      cases equal
      obtain ⟨parts,absent⟩ := ih inside
      simp [parts,absent,Ne.symm different]

theorem cut_eq_none {sep : α} {text : List α} : cut sep text = none ↔ sep ∉ text := by
  induction text with
  | nil => simp [cut]
  | cons first rest ih =>
    rw [cut]
    split
    next same => simp [same]
    next different => simp [ih,Ne.symm different]

theorem cut_eq_takeWhile {sep : α} {text : List α} (inside : sep ∈ text) :
    cut sep text =
      some (text.takeWhile (fun item => item ≠ sep),
        (text.dropWhile (fun item => item ≠ sep)).tail) := by
  induction text with
  | nil => cases inside
  | cons first rest ih =>
    by_cases same : first = sep
    · simp [cut,same]
    · have later : sep ∈ rest := (List.mem_cons.mp inside).resolve_left (Ne.symm same)
      simp [cut,same,ih later]

/-- The text in front of the first separator, or all of it. -/
theorem fst_cut_getD (sep : α) (text : List α) :
    ((cut sep text).map Prod.fst).getD text = text.takeWhile (fun item => item ≠ sep) := by
  by_cases inside : sep ∈ text
  · rw [cut_eq_takeWhile inside]
    rfl
  · rw [cut_eq_none.mpr inside]
    symm
    rw [Option.map_none,Option.getD_none,List.takeWhile_eq_self_iff]
    intro item member
    simpa using ne_of_mem_of_not_mem member inside

/-- The lines `getline` yields until it fails: a last line needs no separator,
and a separator at the end opens no further line. -/
def lines (sep : α) : List α → List (List α)
  | [] => []
  | first::rest =>
    if first = sep then []::lines sep rest
    else
      match lines sep rest with
      | [] => [[first]]
      | line::others => (first::line)::others

def unlines (sep : α) (texts : List (List α)) : List α := texts.flatMap (fun line => line ++ [sep])

theorem lines_append (sep : α) (line rest : List α) (absent : sep ∉ line) :
    lines sep (line ++ sep::rest) = line::lines sep rest := by
  induction line with
  | nil => simp [lines]
  | cons first others ih =>
    simp only [List.mem_cons,not_or] at absent
    simp [lines,Ne.symm absent.1,ih absent.2]

theorem lines_unlines (sep : α) (texts : List (List α)) (absent : ∀ line ∈ texts, sep ∉ line) :
    lines sep (unlines sep texts) = texts := by
  induction texts with
  | nil => rfl
  | cons line rest ih =>
    have first := lines_append sep line (unlines sep rest) (absent line (by simp))
    have later := ih (fun other member => absent other (by simp [member]))
    rw [later] at first
    simpa [unlines] using first

theorem not_mem_of_mem_lines {sep : α} {text line : List α} (member : line ∈ lines sep text) :
    sep ∉ line := by
  induction text generalizing line with
  | nil => cases member
  | cons first rest ih =>
    rw [lines] at member
    split at member
    next =>
      rcases List.mem_cons.mp member with empty | later
      · simp [empty]
      · exact ih later
    next different =>
      split at member
      next =>
        rw [List.mem_singleton.mp member]
        simpa using Ne.symm different
      next head others read =>
        rcases List.mem_cons.mp member with here | later
        · have inside : sep ∉ head := ih (by simp [read])
          simp [here,Ne.symm different,inside]
        · exact ih (by simp [read,later])

end RdmaPlatform.Library
