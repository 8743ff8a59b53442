import RdmaPlatform.Library.Bytes

/-! Decimal numerals as bytes, plain and zero-padded to a minimum width. Both
are read back by the positional value, which ignores leading zeros. -/
namespace RdmaPlatform.Library.Decimal

def digitByte (c : Char) : UInt8 := UInt8.ofNat c.toNat

def decimal (n : Nat) : Bytes := (Nat.toDigits 10 n).map digitByte

def padded (width n : Nat) : Bytes :=
  List.replicate (width - (decimal n).length) 48 ++ decimal n

def value (digits : Bytes) : Nat := digits.foldl (fun acc d => 10 * acc + (d.toNat - 48)) 0

def IsDigit (b : UInt8) : Prop := 48 ≤ b.toNat ∧ b.toNat ≤ 57

instance (b : UInt8) : Decidable (IsDigit b) := by
  unfold IsDigit; infer_instance

/-- By a walk over the text, not over all bytes. -/
instance decidableAllDigits (text : Bytes) : Decidable (∀ b ∈ text, IsDigit b) :=
  List.decidableBAll IsDigit text

theorem digitByte_toNat (c : Char) (digit : c.isDigit) : (digitByte c).toNat = c.toNat := by
  have bounds : c.toNat ≤ 57 := by
    simp only [Char.isDigit,Bool.and_eq_true,decide_eq_true_eq] at digit
    exact digit.2
  simp only [digitByte,UInt8.toNat_ofNat']
  omega

theorem decimal_digits (n : Nat) (b : UInt8) (member : b ∈ decimal n) : IsDigit b := by
  obtain ⟨c,inside,rfl⟩ := List.mem_map.mp member
  have digit := Nat.isDigit_of_mem_toDigits (by decide) (by decide) inside
  rw [IsDigit,digitByte_toNat c digit]
  simp only [Char.isDigit,Bool.and_eq_true,decide_eq_true_eq] at digit
  exact ⟨digit.1,digit.2⟩

theorem decimal_ne_nil (n : Nat) : decimal n ≠ [] := by
  simp [decimal,Nat.toDigits_ne_nil]

theorem padded_digits (width n : Nat) (b : UInt8) (member : b ∈ padded width n) : IsDigit b := by
  rcases List.mem_append.mp member with zero | digit
  · rw [List.eq_of_mem_replicate zero]
    exact ⟨by decide,by decide⟩
  · exact decimal_digits n b digit

private theorem fold_digits (digits : List Char) (initial : Nat) (all : ∀ c ∈ digits, c.isDigit) :
    (digits.map digitByte).foldl (fun acc d => 10 * acc + (d.toNat - 48)) initial =
      Nat.ofDigitChars 10 digits initial := by
  induction digits generalizing initial with
  | nil => rfl
  | cons c rest ih =>
    simp only [List.map_cons,List.foldl_cons,Nat.ofDigitChars_cons]
    rw [digitByte_toNat c (all c (by simp)),ih _ (fun d inside => all d (by simp [inside]))]
    rfl

theorem value_decimal (n : Nat) : value (decimal n) = n := by
  rw [value,decimal,fold_digits _ _ (fun c inside =>
    Nat.isDigit_of_mem_toDigits (by decide) (by decide) inside)]
  exact Nat.ofDigitChars_ten_toDigits

theorem decimal_head (n : Nat) :
    decimal n = [48] ∨ ∃ first rest, decimal n = first::rest ∧ first ≠ 48 := by
  induction n using Nat.strong_induction_on with
  | _ n ih =>
    by_cases small : n < 10
    · have single : decimal n = [digitByte n.digitChar] := by
        rw [decimal,Nat.toDigits_of_lt_base small]
        rfl
      by_cases zero : digitByte n.digitChar = 48
      · exact .inl (by rw [single,zero])
      · exact .inr ⟨_,[],single,zero⟩
    · have split : decimal n = decimal (n / 10) ++ decimal (n % 10) := by
        have digits := Nat.toDigits_append_toDigits (b := 10) (n := n / 10) (d := n % 10) (by decide)
          (by omega) (by omega)
        rw [Nat.div_add_mod n 10] at digits
        simp only [decimal,← digits,List.map_append]
      have positive : n / 10 ≠ 0 := by omega
      rcases ih (n / 10) (by omega) with zero | ⟨first,rest,equal,nonzero⟩
      · have back := value_decimal (n / 10)
        rw [zero] at back
        exact absurd back.symm positive
      · exact .inr ⟨first,rest ++ decimal (n % 10),by rw [split,equal]; rfl,nonzero⟩

private theorem value_zeros (count : Nat) (digits : Bytes) :
    value (List.replicate count 48 ++ digits) = value digits := by
  induction count with
  | zero => rfl
  | succ count ih =>
    rw [List.replicate_succ,List.cons_append,← ih]
    rfl

theorem value_padded (width n : Nat) : value (padded width n) = n := by
  rw [padded,value_zeros,value_decimal]

def signed (n : Int) : Bytes := if n < 0 then 45::decimal n.natAbs else decimal n.natAbs

theorem padded_injective (width : Nat) : Function.Injective (padded width) :=
  Function.LeftInverse.injective (value_padded width)

end RdmaPlatform.Library.Decimal
