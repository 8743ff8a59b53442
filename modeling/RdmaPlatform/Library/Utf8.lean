import RdmaPlatform.Library.Bytes

/-! UTF-8 as a decoder sees it: the well-formed byte sequences by the ranges of
their bytes, and the replacement of every other byte by U+FFFD. The encoding of
a text is left as it is. -/
namespace RdmaPlatform.Library.Utf8

def inRange (low high : Nat) (byte : UInt8) : Bool := low ≤ byte.toNat && byte.toNat ≤ high

def continues : Nat → Bytes → Bool
  | 0, _ => true
  | _+1, [] => false
  | count+1, byte::rest => inRange 0x80 0xBF byte && continues count rest

def follows (low high more : Nat) : Bytes → Bool
  | [] => false
  | byte::rest => inRange low high byte && continues more rest

def sequenceLength : Bytes → Option Nat
  | [] => none
  | byte::rest =>
    if byte.toNat ≤ 0x7F then some 1
    else if inRange 0xC2 0xDF byte then if follows 0x80 0xBF 0 rest then some 2 else none
    else if inRange 0xE0 0xE0 byte then if follows 0xA0 0xBF 1 rest then some 3 else none
    else if inRange 0xED 0xED byte then if follows 0x80 0x9F 1 rest then some 3 else none
    else if inRange 0xE1 0xEF byte then if follows 0x80 0xBF 1 rest then some 3 else none
    else if inRange 0xF0 0xF0 byte then if follows 0x90 0xBF 2 rest then some 4 else none
    else if inRange 0xF1 0xF3 byte then if follows 0x80 0xBF 2 rest then some 4 else none
    else if inRange 0xF4 0xF4 byte then if follows 0x80 0x8F 2 rest then some 4 else none
    else none

/-- Copy `pending` bytes of a sequence already recognised, then go on. -/
def toValidFrom (pending : Nat) : Bytes → Bytes
  | [] => []
  | byte::rest =>
    match pending with
    | left+1 => byte::toValidFrom left rest
    | 0 =>
      match sequenceLength (byte::rest) with
      | some length => byte::toValidFrom (length - 1) rest
      | none => [0xEF,0xBF,0xBD] ++ toValidFrom 0 rest

def toValid (bytes : Bytes) : Bytes := toValidFrom 0 bytes

theorem sequenceLength_encode (c : Char) (rest : Bytes) :
    sequenceLength (String.utf8EncodeChar c ++ rest) = some (String.utf8EncodeChar c).length := by
  have scalar : c.val.toNat < 0xD800 ∨ 0xDFFF < c.val.toNat ∧ c.val.toNat < 0x110000 := c.valid
  have small (n : Nat) (bound : n < 256) : (UInt8.ofNat n).toNat = n := by
    rw [UInt8.toNat_ofNat']
    exact Nat.mod_eq_of_lt bound
  unfold String.utf8EncodeChar
  generalize c.val.toNat = v at scalar
  simp only
  split
  next one =>
    simp only [List.cons_append,List.nil_append,sequenceLength,small v (by omega)]
    rw [if_pos one]
    rfl
  next =>
  split
  next two =>
    simp only [List.cons_append,List.nil_append,sequenceLength,follows,continues,inRange,
      small (v / 64 % 32 + 192) (by omega),small (v % 64 + 128) (by omega),Bool.and_true]
    rw [if_neg (by omega),if_pos (by simp; omega),if_pos (by simp; omega)]
    rfl
  next =>
  split
  next three =>
    simp only [List.cons_append,List.nil_append,sequenceLength,follows,continues,inRange,
      small (v / 4096 % 16 + 224) (by omega),small (v / 64 % 64 + 128) (by omega),
      small (v % 64 + 128) (by omega),Bool.and_true]
    rw [if_neg (by omega),if_neg (by simp)]
    by_cases lowest : v / 4096 % 16 + 224 = 224
    · rw [if_pos (by simp; omega),if_pos (by simp; omega)]
      rfl
    · rw [if_neg (by simp; omega)]
      by_cases surrogate : v / 4096 % 16 + 224 = 237
      · rw [if_pos (by simp; omega),if_pos (by simp; omega)]
        rfl
      · rw [if_neg (by simp; omega),if_pos (by simp; omega),if_pos (by simp; omega)]
        rfl
  next =>
    simp only [List.cons_append,List.nil_append,sequenceLength,follows,continues,inRange,
      small (v / 262144 % 8 + 240) (by omega),small (v / 4096 % 64 + 128) (by omega),
      small (v / 64 % 64 + 128) (by omega),small (v % 64 + 128) (by omega),Bool.and_true]
    rw [if_neg (by omega),if_neg (by simp),if_neg (by simp),if_neg (by simp),if_neg (by simp)]
    by_cases lowest : v / 262144 % 8 + 240 = 240
    · rw [if_pos (by simp; omega),if_pos (by simp; omega)]
      rfl
    · rw [if_neg (by simp; omega)]
      by_cases highest : v / 262144 % 8 + 240 = 244
      · rw [if_neg (by simp; omega),if_pos (by simp; omega),if_pos (by simp; omega)]
        rfl
      · rw [if_pos (by simp; omega),if_pos (by simp; omega)]
        rfl

private theorem toValidFrom_pending (bytes rest : Bytes) :
    toValidFrom bytes.length (bytes ++ rest) = bytes ++ toValidFrom 0 rest := by
  induction bytes with
  | nil => rfl
  | cons byte others ih => simp [toValidFrom,ih]

theorem toValid_encode (c : Char) (rest : Bytes) :
    toValid (String.utf8EncodeChar c ++ rest) = String.utf8EncodeChar c ++ toValid rest := by
  have recognised := sequenceLength_encode c rest
  cases encoded : String.utf8EncodeChar c with
  | nil =>
    have size := String.length_utf8EncodeChar c
    rw [encoded] at size
    exact absurd size.symm (Char.utf8Size_pos c).ne'
  | cons byte others =>
    rw [encoded] at recognised
    have copied := toValidFrom_pending others rest
    simp only [toValid,List.cons_append,toValidFrom] at recognised ⊢
    rw [recognised]
    simpa using copied

theorem toValid_utf8 (text : String) : toValid (utf8 text) = utf8 text := by
  have all (chars : List Char) :
      toValid (chars.flatMap String.utf8EncodeChar) = chars.flatMap String.utf8EncodeChar := by
    induction chars with
    | nil => rfl
    | cons c rest ih => rw [List.flatMap_cons,toValid_encode,ih]
  exact all text.toList

end RdmaPlatform.Library.Utf8
