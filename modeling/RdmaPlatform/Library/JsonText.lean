import RdmaPlatform.Library.Json

/-! What compact JSON texts read as. Each rule gives the reading of a text from
the readings of its parts; a part that is no JSON makes the whole no JSON. -/
namespace RdmaPlatform.Library.Json

def Follow (rest : Bytes) : Prop :=
  rest = [] ∨ ∃ byte more, rest = byte::more ∧
    (byte = comma ∨ byte = closeBracket ∨ byte = closeBrace)

/-- `text` is read as `result` wherever it stands, `none` being no value. -/
structure Reads (depth : Nat) (text : Bytes) (result : Option Json) : Prop where
  start : ∃ byte more, text = byte::more ∧ isSpace byte = false ∧ byte ≠ closeBracket
  read : ∀ limit rest, depth ≤ limit → Follow rest →
    value limit (text ++ rest) = result.map (fun json => (json,rest))

theorem Reads.mono {depth deeper : Nat} {text : Bytes} {result : Option Json}
    (reads : Reads depth text result) (below : depth ≤ deeper) : Reads deeper text result :=
  ⟨reads.start,fun limit rest bound follow => reads.read limit rest (below.trans bound) follow⟩

theorem skip_cons {byte : UInt8} (rest : Bytes) (visible : isSpace byte = false) :
    skip (byte::rest) = byte::rest := by
  simp [skip,visible]

theorem parse_of_reads {depth : Nat} {text : Bytes} {result : Option Json}
    (reads : Reads depth text result) (bound : depth ≤ text.length + 1) : parse text = result := by
  have whole := reads.read (text.length + 1) [] bound (.inl rfl)
  rw [List.append_nil] at whole
  rw [parse,whole]
  cases result with
  | none => rfl
  | some json => rfl

theorem reads_string (literal : Bytes) (content : Option Bytes)
    (body : ∀ rest, stringBody 0 (literal ++ quote::rest) = content.map (fun bytes => (bytes,rest))) :
    Reads 1 (quote::literal ++ [quote]) (content.map (fun bytes => .string (Utf8.toValid bytes))) := by
  refine ⟨⟨quote,literal ++ [quote],rfl,by decide,by decide⟩,?_⟩
  intro limit rest bound follow
  obtain ⟨depth,rfl⟩ := Nat.exists_eq_add_of_le' bound
  have shape : quote::literal ++ [quote] ++ rest = quote::(literal ++ quote::rest) := by simp
  rw [shape,value,skip_cons _ (by decide)]
  simp only
  rw [if_neg (by decide),if_neg (by decide),if_pos trivial,body rest]
  cases content <;> rfl

theorem reads_bool (flag : Bool) :
    Reads 1 (if flag then utf8 "true" else utf8 "false") (some (.bool flag)) := by
  cases flag with
  | true =>
    refine ⟨⟨116,_,rfl,by decide,by decide⟩,?_⟩
    intro limit rest bound follow
    obtain ⟨depth,rfl⟩ := Nat.exists_eq_add_of_le' bound
    rfl
  | false =>
    refine ⟨⟨102,_,rfl,by decide,by decide⟩,?_⟩
    intro limit rest bound follow
    obtain ⟨depth,rfl⟩ := Nat.exists_eq_add_of_le' bound
    rfl

theorem spanDigits_append (digits rest : Bytes) (all : ∀ byte ∈ digits, Decimal.IsDigit byte)
    (stop : ∀ byte more, rest = byte::more → ¬ Decimal.IsDigit byte) :
    spanDigits (digits ++ rest) = (digits,rest) := by
  have taken : ∀ byte ∈ digits, decide (Decimal.IsDigit byte) = true := fun byte member => by
    simp [all byte member]
  rw [spanDigits,List.takeWhile_append_of_pos taken,List.dropWhile_append_of_pos taken]
  cases rest with
  | nil => simp
  | cons byte more => simp [stop byte more rfl]

theorem follow_stop {rest : Bytes} (follow : Follow rest) (byte : UInt8) (more : Bytes)
    (equal : rest = byte::more) :
    ¬ Decimal.IsDigit byte ∧ byte ≠ 46 ∧ byte ≠ 101 ∧ byte ≠ 69 := by
  rcases follow with empty | ⟨other,others,shape,kind⟩
  · rw [empty] at equal
    cases equal
  · rw [shape] at equal
    cases equal
    rcases kind with rfl | rfl | rfl <;> decide

theorem unsignedNumber_decimal (n : Nat) (rest : Bytes) (follow : Follow rest) :
    unsignedNumber (Decimal.decimal n ++ rest) = some (Decimal.decimal n,rest) := by
  have stop := follow_stop follow
  have integer : integerPart (Decimal.decimal n ++ rest) = some (Decimal.decimal n,rest) := by
    rcases Decimal.decimal_head n with zero | ⟨first,others,shape,nonzero⟩
    · rw [zero]
      rfl
    · have spanned := spanDigits_append (Decimal.decimal n) rest (Decimal.decimal_digits n)
        (fun byte more equal => (stop byte more equal).1)
      rw [shape] at spanned ⊢
      unfold integerPart
      split
      next same =>
        cases same
        exact absurd rfl nonzero
      next => rw [spanned]; simp
  have fraction : fractionPart rest = some ([],rest) := by
    unfold fractionPart
    split
    next more => exact absurd rfl (stop 46 more rfl).2.1
    next => rfl
  have exponent : exponentPart rest = some ([],rest) := by
    unfold exponentPart
    split
    next => rfl
    next byte more =>
      have other := stop byte more rfl
      rw [if_neg (by simp [other.2.2.1,other.2.2.2])]
  simp [unsignedNumber,integer,fraction,exponent]

/-- A number starts with a minus sign or a digit, which no other value does. -/
theorem numberStart_apart {byte : UInt8} (lead : byte = 45 ∨ Decimal.IsDigit byte) :
    isSpace byte = false ∧ byte ≠ closeBracket ∧ byte ≠ openBrace ∧ byte ≠ openBracket ∧
      byte ≠ quote ∧ byte ≠ 116 ∧ byte ≠ 102 ∧ byte ≠ 110 := by
  rcases lead with rfl | digit
  · decide
  · refine ⟨?_,?_,?_,?_,?_,?_,?_,?_⟩
    · simp only [isSpace,Bool.or_eq_false_iff,decide_eq_false_iff_not]
      refine ⟨⟨⟨?_,?_⟩,?_⟩,?_⟩ <;> (rintro rfl; exact absurd digit (by decide))
    all_goals (rintro rfl; exact absurd digit (by decide))

theorem reads_number {text more : Bytes} {byte : UInt8} (shape : text = byte::more)
    (lead : byte = 45 ∨ Decimal.IsDigit byte)
    (scanned : ∀ rest, Follow rest → numberLiteral (text ++ rest) = some (text,rest)) :
    Reads 1 text (some (.number text)) := by
  obtain ⟨visible,close,brace,bracket,quoted,true_,false_,null_⟩ := numberStart_apart lead
  refine ⟨⟨byte,more,shape,visible,close⟩,?_⟩
  intro limit rest bound follow
  obtain ⟨depth,rfl⟩ := Nat.exists_eq_add_of_le' bound
  have read := scanned rest follow
  rw [shape] at read ⊢
  rw [List.cons_append,value,skip_cons _ visible]
  simp only [brace,bracket,quoted,true_,false_,null_,if_false]
  rw [← List.cons_append,read]
  rfl

theorem reads_integer (n : Int) : Reads 1 (Decimal.signed n) (some (.number (Decimal.signed n))) := by
  unfold Decimal.signed
  split
  next =>
    refine reads_number rfl (.inl rfl) ?_
    intro rest follow
    simp [numberLiteral,unsignedNumber_decimal n.natAbs rest follow]
  next =>
    obtain ⟨first,others,shape⟩ := List.exists_cons_of_ne_nil (Decimal.decimal_ne_nil n.natAbs)
    have isDigit : Decimal.IsDigit first := Decimal.decimal_digits n.natAbs first (by rw [shape]; simp)
    refine reads_number shape (.inr isDigit) ?_
    intro rest follow
    have unsigned := unsignedNumber_decimal n.natAbs rest follow
    rw [shape] at unsigned ⊢
    unfold numberLiteral
    split
    next same =>
      cases same
      exact absurd isDigit (by decide)
    next => exact unsigned

def collect {α : Type} : List (Option α) → Option (List α)
  | [] => some []
  | none::_ => none
  | some first::rest => (collect rest).map (fun others => first::others)

def joinComma : List Bytes → Bytes
  | [] => []
  | [text] => text
  | text::rest => text ++ comma::joinComma rest

theorem length_le_joinComma (texts : List Bytes) : texts.length ≤ (joinComma texts).length + 1 := by
  induction texts with
  | nil => simp
  | cons text rest ih =>
    cases rest with
    | nil => simp
    | cons next others =>
      simp only [joinComma,List.length_append,List.length_cons] at ih ⊢
      omega

theorem follow_comma (rest : Bytes) : Follow (comma::rest) := .inr ⟨comma,rest,rfl,.inl rfl⟩

theorem follow_closeBracket (rest : Bytes) : Follow (closeBracket::rest) :=
  .inr ⟨closeBracket,rest,rfl,.inr (.inl rfl)⟩

theorem follow_closeBrace (rest : Bytes) : Follow (closeBrace::rest) :=
  .inr ⟨closeBrace,rest,rfl,.inr (.inr rfl)⟩

theorem elements_joinComma (depth limit count : Nat) (texts : List Bytes)
    (results : List (Option Json)) (rest : Bytes) (bound : depth ≤ limit) (some_ : texts ≠ [])
    (room : texts.length ≤ count) (all : List.Forall₂ (Reads depth) texts results) :
    elements (value limit) count (joinComma texts ++ closeBracket::rest) =
      (collect results).map (fun items => (items,rest)) := by
  induction all generalizing count with
  | nil => exact absurd rfl some_
  | @cons text result texts results reads others ih =>
    obtain ⟨count,rfl⟩ : ∃ less, count = less + 1 :=
      Nat.exists_eq_add_of_le' (Nat.le_trans (Nat.le_add_left 1 _) room)
    cases texts with
    | nil =>
      cases others
      rw [joinComma,elements,reads.read limit _ bound (follow_closeBracket rest)]
      cases result with
      | none => rfl
      | some json =>
        simp only [Option.map_some,skip_cons rest (show isSpace closeBracket = false by decide)]
        rw [if_neg (by decide)]
        rfl
    | cons next more =>
      have tail := ih count (by simp) (by simpa using room)
      rw [joinComma,List.append_assoc,List.cons_append,elements,
        reads.read limit _ bound (follow_comma _)]
      · cases result with
        | none => rfl
        | some json =>
          simp only [Option.map_some,skip_cons _ (show isSpace comma = false by decide),if_true,
            tail,collect]
          cases collect results <;> rfl
      · simp

theorem reads_array (depth : Nat) (texts : List Bytes) (results : List (Option Json))
    (some_ : texts ≠ []) (all : List.Forall₂ (Reads depth) texts results) :
    Reads (depth + 1) (openBracket::joinComma texts ++ [closeBracket])
      ((collect results).map .array) := by
  refine ⟨⟨openBracket,_,rfl,by decide,by decide⟩,?_⟩
  intro limit rest bound follow
  obtain ⟨limit,rfl⟩ := Nat.exists_eq_add_of_le' (Nat.le_trans (Nat.le_add_left 1 depth) bound)
  have shape : openBracket::joinComma texts ++ [closeBracket] ++ rest =
      openBracket::(joinComma texts ++ closeBracket::rest) := by simp
  have inner : (skip (joinComma texts ++ closeBracket::rest)).head? ≠ some closeBracket := by
    cases all with
    | nil => exact absurd rfl some_
    | @cons text result texts results reads others =>
      obtain ⟨byte,more,rfl,visible,open_⟩ := reads.start
      cases texts with
      | nil => simp [joinComma,skip_cons _ visible,open_]
      | cons next others => simp [joinComma,skip_cons _ visible,open_]
  have room : texts.length ≤ (joinComma texts ++ closeBracket::rest).length := by
    have counted := length_le_joinComma texts
    simp only [List.length_append,List.length_cons]
    omega
  rw [shape,value,skip_cons _ (by decide)]
  simp only
  rw [if_neg (by decide),if_pos trivial,if_neg inner,
    elements_joinComma depth limit _ texts results rest (by omega) some_ room all]
  cases collect results <;> rfl

structure Member where
  name : Bytes
  text : Bytes
  result : Option Json

def Member.render (member : Member) : Bytes := quote::member.name ++ quote::colon::member.text

structure Member.Reads (depth : Nat) (member : Member) : Prop where
  valid : Utf8.toValid member.name = member.name
  plain : ∀ rest, stringBody 0 (member.name ++ quote::rest) = some (member.name,rest)
  text : Json.Reads depth member.text member.result

theorem memberName_render (depth : Nat) (member : Member) (rest : Bytes) (reads : member.Reads depth) :
    memberName (member.render ++ rest) = some (member.name,member.text ++ rest) := by
  have shape : member.render ++ rest =
      quote::(member.name ++ quote::(colon::(member.text ++ rest))) := by
    simp [Member.render]
  rw [shape,memberName,skip_cons _ (by decide)]
  simp only [if_true]
  rw [reads.plain]
  simp only [skip_cons _ (show isSpace colon = false by decide),if_true,reads.valid]

theorem members_joinComma (depth limit count : Nat) (fields : List Member) (rest : Bytes)
    (bound : depth ≤ limit) (some_ : fields ≠ []) (room : fields.length ≤ count)
    (all : ∀ member ∈ fields, member.Reads depth) :
    members (value limit) count (joinComma (fields.map Member.render) ++ closeBrace::rest) =
      (collect (fields.map (fun member => member.result.map (fun json => (member.name,json))))).map
        (fun entries => (entries,rest)) := by
  induction fields generalizing count with
  | nil => exact absurd rfl some_
  | cons member others ih =>
    have reads := all member (by simp)
    obtain ⟨count,rfl⟩ : ∃ less, count = less + 1 :=
      Nat.exists_eq_add_of_le' (Nat.le_trans (Nat.le_add_left 1 _) room)
    cases others with
    | nil =>
      simp only [List.map_cons,List.map_nil,joinComma]
      rw [members,memberName_render depth member _ reads]
      simp only
      rw [reads.text.read limit _ bound (follow_closeBrace rest)]
      cases member.result with
      | none => rfl
      | some json =>
        simp only [Option.map_some,skip_cons rest (show isSpace closeBrace = false by decide)]
        rw [if_neg (by decide)]
        rfl
    | cons next more =>
      have tail := ih count (by simp) (by simpa using room)
        (fun other inside => all other (by simp [inside]))
      simp only [List.map_cons,joinComma,List.append_assoc,List.cons_append] at tail ⊢
      rw [members,memberName_render depth member _ reads]
      simp only
      rw [reads.text.read limit _ bound (follow_comma _)]
      cases member.result with
      | none => rfl
      | some json =>
        simp only [Option.map_some,skip_cons _ (show isSpace comma = false by decide),if_true,
          tail,collect]
        generalize collect _ = found
        cases found <;> rfl

theorem reads_object (depth : Nat) (fields : List Member) (some_ : fields ≠ [])
    (all : ∀ member ∈ fields, member.Reads depth) :
    Reads (depth + 1) (openBrace::joinComma (fields.map Member.render) ++ [closeBrace])
      ((collect (fields.map (fun member => member.result.map (fun json => (member.name,json))))).map
        .object) := by
  refine ⟨⟨openBrace,_,rfl,by decide,by decide⟩,?_⟩
  intro limit rest bound follow
  obtain ⟨limit,rfl⟩ := Nat.exists_eq_add_of_le' (Nat.le_trans (Nat.le_add_left 1 depth) bound)
  have shape : openBrace::joinComma (fields.map Member.render) ++ [closeBrace] ++ rest =
      openBrace::(joinComma (fields.map Member.render) ++ closeBrace::rest) := by simp
  have inner : (skip (joinComma (fields.map Member.render) ++ closeBrace::rest)).head? ≠
      some closeBrace := by
    obtain ⟨member,others,rfl⟩ := List.exists_cons_of_ne_nil some_
    have visible : isSpace quote = false := by decide
    have open_ : quote ≠ closeBrace := by decide
    cases others with
    | nil => simp [joinComma,Member.render,skip_cons _ visible,open_]
    | cons next more => simp [joinComma,Member.render,skip_cons _ visible,open_]
  have room : fields.length ≤ (joinComma (fields.map Member.render) ++ closeBrace::rest).length := by
    have counted := length_le_joinComma (fields.map Member.render)
    simp only [List.length_append,List.length_cons,List.length_map] at counted ⊢
    omega
  rw [shape,value,skip_cons _ (by decide)]
  simp only
  rw [if_pos trivial,if_neg inner,members_joinComma depth limit _ fields rest (by omega) some_ room all]
  generalize collect _ = found
  cases found <;> rfl

end RdmaPlatform.Library.Json
