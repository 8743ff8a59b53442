import RdmaPlatform.Library.Decimal
import Mathlib.Tactic.Linarith
import Mathlib.Tactic.Ring

/-! Decimal numerals in the bytewise order. A numeral comes before a longer one exactly
where its value, moved to the left by the missing places, is not above the other value. -/
namespace RdmaPlatform.Library.Decimal

theorem value_foldl (digits : Bytes) (initial : Nat) :
    digits.foldl (fun acc d => 10 * acc + (d.toNat - 48)) initial = initial * 10^digits.length +
      value digits := by
  induction digits generalizing initial with
  | nil => simp [value]
  | cons digit rest ih =>
    have first := ih (10 * 0 + (digit.toNat - 48))
    rw [value,List.foldl_cons,List.foldl_cons,ih,first,List.length_cons,pow_succ]
    ring

theorem value_cons (digit : UInt8) (rest : Bytes) :
    value (digit::rest) = (digit.toNat - 48) * 10^rest.length + value rest := by
  rw [value,List.foldl_cons,value_foldl,Nat.mul_zero,Nat.zero_add]

theorem value_lt_pow {digits : Bytes} (all : ∀ digit ∈ digits, IsDigit digit) :
    value digits < 10^digits.length := by
  induction digits with
  | nil => decide
  | cons digit rest ih =>
    have later := ih (fun other member => all other (by simp [member]))
    have bound : digit.toNat - 48 ≤ 9 := by
      have upper := (all digit (by simp)).2
      omega
    rw [value_cons,List.length_cons,pow_succ]
    nlinarith

theorem value_cons_lt {first second : UInt8} {left right : Bytes} (digit : IsDigit first)
    (ordered : first < second) (digits : ∀ digit ∈ left, IsDigit digit)
    (same : left.length = right.length) :
    value (first::left) < value (second::right) := by
  have below := value_lt_pow digits
  have step : first.toNat - 48 + 1 ≤ second.toNat - 48 := by
    have lower := digit.1
    have above := UInt8.lt_iff_toNat_lt.mp ordered
    omega
  calc value (first::left) = (first.toNat - 48) * 10^left.length + value left := value_cons first left
    _ < (first.toNat - 48 + 1) * 10^left.length := by rw [Nat.add_mul,Nat.one_mul]; omega
    _ ≤ (second.toNat - 48) * 10^left.length := Nat.mul_le_mul_right _ step
    _ ≤ value (second::right) := by rw [value_cons,same]; exact Nat.le_add_right _ _

/-- Numerals of one length are ordered by their values. -/
theorem lt_iff_value_lt {left right : Bytes} (leftDigits : ∀ digit ∈ left, IsDigit digit)
    (rightDigits : ∀ digit ∈ right, IsDigit digit) (same : left.length = right.length) :
    left < right ↔ value left < value right := by
  induction left generalizing right with
  | nil =>
    cases List.eq_nil_of_length_eq_zero same.symm
    simp
  | cons first left ih =>
    cases right with
    | nil => cases same
    | cons second right =>
      have lengths : left.length = right.length := Nat.succ.inj same
      simp only [List.forall_mem_cons] at leftDigits rightDigits
      rw [List.cons_lt_cons_iff]
      rcases lt_trichotomy first second with below | equal | above
      · exact iff_of_true (.inl below) (value_cons_lt leftDigits.1 below leftDigits.2 lengths)
      · have tail := ih leftDigits.2 rightDigits.2 lengths
        subst equal
        rw [value_cons,value_cons,lengths]
        simp only [UInt8.lt_irrefl,false_or,true_and,tail]
        omega
      · have reverse := value_cons_lt rightDigits.1 above rightDigits.2 lengths.symm
        refine iff_of_false ?_ (Nat.not_lt.mpr reverse.le)
        rintro (below | ⟨equal,_⟩)
        · exact UInt8.lt_asymm above below
        · exact above.ne' equal

theorem value_append (front back : Bytes) :
    value (front ++ back) = value front * 10^back.length + value back := by
  rw [value,List.foldl_append,value_foldl]
  rfl

theorem append_lt_append_iff (front left right : Bytes) :
    front ++ left < front ++ right ↔ left < right := by
  induction front with
  | nil => rfl
  | cons byte rest ih => simpa [List.cons_lt_cons_iff] using ih

/-- A string is before a longer one if it is before the start of it or is that start. -/
theorem lt_append_iff {left front : Bytes} (back : Bytes) (same : left.length = front.length) :
    left < front ++ back ↔ left < front ∨ left = front ∧ back ≠ [] := by
  induction left generalizing front with
  | nil =>
    cases List.eq_nil_of_length_eq_zero same.symm
    cases back <;> simp
  | cons first left ih =>
    cases front with
    | nil => cases same
    | cons second front =>
      have tail : left < front ++ back ↔ left < front ∨ left = front ∧ back ≠ [] :=
        ih (Nat.succ.inj same)
      rw [List.cons_append,List.cons_lt_cons_iff,List.cons_lt_cons_iff,List.cons.injEq,tail]
      tauto

theorem lt_iff_shifted_le {left right : Bytes} (leftDigits : ∀ digit ∈ left, IsDigit digit)
    (rightDigits : ∀ digit ∈ right, IsDigit digit) (shorter : left.length ≤ right.length)
    (different : value left ≠ value right) :
    left < right ↔ value left * 10^(right.length - left.length) ≤ value right := by
  obtain ⟨front,back,rfl,same⟩ : ∃ front back, right = front ++ back ∧ left.length = front.length :=
    ⟨right.take left.length,right.drop left.length,(List.take_append_drop _ _).symm,by simp [shorter]⟩
  simp only [List.forall_mem_append] at rightDigits
  have places : (front ++ back).length - left.length = back.length := by simp [same]
  have low := value_lt_pow rightDigits.2
  rw [lt_append_iff back same,lt_iff_value_lt leftDigits rightDigits.1 same,places,value_append]
  rw [value_append] at different
  rcases lt_trichotomy (value left) (value front) with below | equal | above
  · refine iff_of_true (.inl below) ?_
    exact Nat.le_add_right_of_le (Nat.mul_le_mul_right _ below.le)
  · have start : left = front := by
      refine le_antisymm (not_lt.mp ?_) (not_lt.mp ?_)
      · exact mt (lt_iff_value_lt rightDigits.1 leftDigits same.symm).mp equal.not_gt
      · exact mt (lt_iff_value_lt leftDigits rightDigits.1 same).mp equal.not_lt
    have longer : back ≠ [] := by
      rintro rfl
      exact different (equal.trans (Nat.mul_one _).symm)
    rw [equal]
    exact iff_of_true (.inr ⟨start,longer⟩) (Nat.le_add_right _ _)
  · refine iff_of_false ?_ ?_
    · rintro (below | ⟨rfl,_⟩)
      · exact lt_asymm above below
      · exact lt_irrefl _ above
    · have step : (value front + 1) * 10^back.length ≤ value left * 10^back.length :=
        Nat.mul_le_mul_right _ above
      rw [Nat.add_mul,Nat.one_mul] at step
      omega

theorem decimal_length_le {first second : Nat} (ordered : first ≤ second) :
    (decimal first).length ≤ (decimal second).length := by
  have positive : 0 < (decimal second).length := List.length_pos_iff.mpr (decimal_ne_nil second)
  simp only [decimal,List.length_map] at positive ⊢
  rw [Nat.length_toDigits_le_iff Nat.one_lt_ofNat positive]
  exact Nat.lt_of_le_of_lt ordered ((Nat.length_toDigits_le_iff Nat.one_lt_ofNat positive).mp
    (Nat.le_refl _))

theorem padded_length (width n : Nat) : (padded width n).length = Nat.max width (decimal n).length := by
  rw [padded,List.length_append,List.length_replicate]
  change _ = max _ _
  omega

theorem padded_lt_iff (width : Nat) {first second : Nat} (ordered : first < second) :
    padded width first < padded width second ↔
      first * 10^((padded width second).length - (padded width first).length) ≤ second := by
  have shorter : (padded width first).length ≤ (padded width second).length := by
    have digits := decimal_length_le ordered.le
    rw [padded_length,padded_length]
    change max _ _ ≤ max _ _
    omega
  have different : value (padded width first) ≠ value (padded width second) := by
    rw [value_padded,value_padded]
    exact ordered.ne
  rw [lt_iff_shifted_le (padded_digits width first) (padded_digits width second) shorter different,
    value_padded,value_padded]

end RdmaPlatform.Library.Decimal
