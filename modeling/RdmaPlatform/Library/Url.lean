import RdmaPlatform.Library.Json

/-! Percent escapes in the path of a URL. A path travels with escapes, is compared and split
with them, and each of its parts is then read without them. -/
namespace RdmaPlatform.Library.Url
open Json (hexDigit)

def percent : UInt8 := 37

def slash : UInt8 := 47

/-- The text behind the escapes; none if one of them is malformed. -/
def unescape : Bytes → Option Bytes
  | [] => some []
  | 37::high::low::rest => do
    let first ← hexDigit high
    let second ← hexDigit low
    let text ← unescape rest
    return UInt8.ofNat (16 * first + second)::text
  | byte::rest => if byte = percent then none else (unescape rest).map (byte::·)

def isAlphanumeric (byte : UInt8) : Bool :=
  48 ≤ byte ∧ byte ≤ 57 ∨ 65 ≤ byte ∧ byte ≤ 90 ∨ 97 ≤ byte ∧ byte ≤ 122

/-- The bytes of a path that are not escaped when it is written. -/
def isPlain (byte : UInt8) : Bool := isAlphanumeric byte ∨ byte ∈ utf8 "-_.~$&+,/:;=@"

/-- The bytes that a path may hold beside its escapes: some more than those. -/
def isValid (byte : UInt8) : Bool := isPlain byte ∨ byte ∈ utf8 "!()*[]%" ∨ byte = 39

def hexByte (digit : Nat) : UInt8 := UInt8.ofNat (if digit < 10 then 48 + digit else 55 + digit)

def escapeByte (byte : UInt8) : Bytes :=
  if isPlain byte then [byte] else [percent,hexByte (byte.toNat / 16),hexByte (byte.toNat % 16)]

def escape (text : Bytes) : Bytes := text.flatMap escapeByte

/-- The escapes of a path are kept if it is a valid path, and are made anew if it is not. -/
def escapedPath (path : Bytes) : Option Bytes :=
  (unescape path).map (fun text => if path.all isValid then path else escape text)

section Escapes

theorem hexDigit_hexByte {digit : Nat} (small : digit < 16) :
    hexDigit (hexByte digit) = some digit := by
  have all : ∀ digit < 16, hexDigit (hexByte digit) = some digit := by decide
  exact all digit small

theorem unescape_cons {byte : UInt8} (plain : byte ≠ percent) (rest : Bytes) :
    unescape (byte::rest) = (unescape rest).map (byte::·) := by
  rw [unescape.eq_3,if_neg plain]
  rintro _ _ _ rfl
  exact absurd rfl plain

theorem unescape_escapeByte (byte : UInt8) (rest : Bytes) :
    unescape (escapeByte byte ++ rest) = (unescape rest).map (byte::·) := by
  unfold escapeByte
  split
  next plain =>
    refine unescape_cons ?_ rest
    rintro rfl
    revert plain
    decide
  next =>
    have small := byte.toNat_lt
    have whole : UInt8.ofNat (16 * (byte.toNat / 16) + byte.toNat % 16) = byte := by
      rw [Nat.div_add_mod,UInt8.ofNat_toNat]
    simp only [percent,List.cons_append,List.nil_append,unescape,
      hexDigit_hexByte (show byte.toNat / 16 < 16 by omega),
      hexDigit_hexByte (Nat.mod_lt byte.toNat (by decide : 16 > 0)),Option.bind_eq_bind,
      Option.bind_some,whole]
    cases unescape rest <;> rfl

/-- What is escaped is read back. -/
theorem unescape_escape (text : Bytes) : unescape (escape text) = some text := by
  induction text with
  | nil => rfl
  | cons byte rest ih =>
    rw [escape,List.flatMap_cons,unescape_escapeByte,← escape,ih]
    rfl

theorem escape_ne {text other : Bytes} (itself : escape other = other) (differs : text ≠ other) :
    escape text ≠ other := by
  intro same
  have read := unescape_escape text
  rw [same,← itself,unescape_escape] at read
  exact differs (Option.some.inj read).symm

/-- A text without percent signs is read as it is. -/
theorem unescape_plain {text : Bytes} (plain : percent ∉ text) : unescape text = some text := by
  induction text with
  | nil => rfl
  | cons byte rest ih =>
    obtain ⟨other,later⟩ := List.ne_and_not_mem_of_not_mem_cons plain
    rw [unescape_cons (Ne.symm other),ih later]
    rfl

theorem slash_not_mem_escape {text : Bytes} (apart : slash ∉ text) : slash ∉ escape text := by
  intro member
  obtain ⟨byte,inside,written⟩ := List.mem_flatMap.mp member
  unfold escapeByte at written
  split at written
  next => exact apart (List.mem_singleton.mp written ▸ inside)
  next =>
    have digit : ∀ digit < 16, hexByte digit ≠ slash := by decide
    have small := byte.toNat_lt
    simp only [List.mem_cons,List.not_mem_nil,or_false] at written
    rcases written with same | same | same
    · cases same
    · exact digit _ (by omega) same.symm
    · exact digit _ (by omega) same.symm

theorem escape_append (first second : Bytes) :
    escape (first ++ second) = escape first ++ escape second :=
  List.flatMap_append

/-- A path without percent signs is escaped as it is, or made anew. -/
theorem escapedPath_plain {path : Bytes} (plain : percent ∉ path) :
    escapedPath path = some path ∨ escapedPath path = some (escape path) := by
  rw [escapedPath,unescape_plain plain,Option.map_some]
  split
  · exact .inl rfl
  · exact .inr rfl

end Escapes

end RdmaPlatform.Library.Url
