import Mathlib.Data.List.DropRight

/-! Text without the blanks at its two ends, as `find_first_not_of` and
`find_last_not_of` with one `substr` call leave it. -/
namespace RdmaPlatform.Library

variable {α : Type} (blank : α → Bool)

def trim (text : List α) : List α := (text.dropWhile blank).rdropWhile blank

variable {blank} {left text right : List α}

theorem rdropWhile_append_of_pos (blanks : ∀ item ∈ right, blank item = true) :
    (text ++ right).rdropWhile blank = text.rdropWhile blank := by
  rw [List.rdropWhile,List.reverse_append,List.dropWhile_append_of_pos,List.rdropWhile]
  exact fun item member => blanks item (List.mem_reverse.mp member)

theorem trim_append_left (blanks : ∀ item ∈ left, blank item = true) :
    trim blank (left ++ text) = trim blank text := by
  rw [trim,List.dropWhile_append_of_pos blanks,trim]

theorem trim_append_right (blanks : ∀ item ∈ right, blank item = true) :
    trim blank (text ++ right) = trim blank text := by
  rw [trim,trim,List.dropWhile_append]
  split
  next empty =>
    have none_ : text.dropWhile blank = [] := by simpa using empty
    have gone : right.dropWhile blank = [] := List.dropWhile_eq_nil_iff.mpr blanks
    rw [none_,gone]
  next => exact rdropWhile_append_of_pos blanks

theorem trim_of_solid (solid : ∀ item ∈ text, blank item = false) : trim blank text = text := by
  have first : text.dropWhile blank = text := by
    rw [List.dropWhile_eq_self_iff]
    intro nonempty
    simp [solid _ (List.getElem_mem nonempty)]
  rw [trim,first,List.rdropWhile_eq_self_iff]
  intro nonempty
  simp [solid _ (List.getLast_mem nonempty)]

theorem trim_dropWhile (text : List α) : trim blank (text.dropWhile blank) = trim blank text := by
  rw [trim,List.dropWhile_idempotent,trim]

theorem trim_rdropWhile (text : List α) : trim blank (text.rdropWhile blank) = trim blank text := by
  have blanks (item : α) (member : item ∈ text.rtakeWhile blank) : blank item = true :=
    List.mem_rtakeWhile_imp member
  rw [← trim_append_right blanks,List.rdropWhile_append_rtakeWhile]

theorem trim_eq_nil_iff : trim blank text = [] ↔ ∀ item ∈ text, blank item = true := by
  rw [trim,List.rdropWhile_eq_nil_iff]
  constructor
  · intro rest item member
    rw [← List.takeWhile_append_dropWhile (p := blank) (l := text)] at member
    rcases List.mem_append.mp member with before | after
    · exact List.mem_takeWhile_imp before
    · exact rest item after
  · exact fun blanks item member => blanks item ((List.dropWhile_sublist _).subset member)

theorem dropWhile_append_cons {sep : α} (solid : blank sep = false) (left right : List α) :
    (left ++ sep::right).dropWhile blank = left.dropWhile blank ++ sep::right := by
  rw [List.dropWhile_append]
  split
  next empty =>
    have none_ : left.dropWhile blank = [] := by simpa using empty
    rw [none_,List.dropWhile_cons_of_neg (by simp [solid]),List.nil_append]
  next => rfl

/-- What is trimmed from a text with a solid item in it lies before that item or after it. -/
theorem trim_append_cons {sep : α} (solid : blank sep = false) (left right : List α) :
    trim blank (left ++ sep::right) = left.dropWhile blank ++ sep::right.rdropWhile blank := by
  have ending := dropWhile_append_cons solid right.reverse (left.dropWhile blank).reverse
  rw [trim,dropWhile_append_cons solid,List.rdropWhile,List.reverse_append,List.reverse_cons,
    List.append_assoc,List.singleton_append,ending,List.reverse_append,List.reverse_cons,
    List.reverse_reverse,List.append_assoc,List.singleton_append,List.rdropWhile]

end RdmaPlatform.Library
