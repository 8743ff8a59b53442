import Mathlib.Data.List.Lex

/-! Byte strings, the values of string types that carry arbitrary bytes. They
are ordered bytewise from the left, as the comparison operators of such string
types order them. -/
namespace RdmaPlatform.Library

abbrev Bytes := List UInt8

def utf8 (literal : String) : Bytes := literal.toList.flatMap String.utf8EncodeChar

instance linearOrderUInt8 : LinearOrder UInt8 where
  le_refl := UInt8.le_refl
  le_trans _ _ _ := UInt8.le_trans
  lt_iff_le_not_ge _ _ := by simp only [UInt8.le_iff_toNat_le,UInt8.lt_iff_toNat_lt]; omega
  le_antisymm _ _ := UInt8.le_antisymm
  le_total := UInt8.le_total
  toDecidableLE := inferInstance
  toDecidableEq := inferInstance
  toDecidableLT := inferInstance

instance decidableMemByte (byte : UInt8) (bytes : Bytes) : Decidable (byte ∈ bytes) := inferInstance

instance decidableMemBytes (bytes : Bytes) (list : List Bytes) : Decidable (bytes ∈ list) :=
  inferInstance

end RdmaPlatform.Library
