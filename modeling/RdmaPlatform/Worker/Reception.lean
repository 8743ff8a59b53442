import RdmaPlatform.Worker.Transport

/-! What the receive loop makes of a byte stream, whatever its chunks. The line it
parses is the stream up to the first newline; the end of the stream ends the loop as a
newline does, so a stream that was cut off is parsed as the line it would have been. -/
namespace RdmaPlatform.Worker
open Library Scheduler

/-- The bytes up to the first newline, less one carriage return at the end. -/
def receivedLine (bytes : Bytes) : Bytes :=
  let line := bytes.takeWhile (fun byte => byte ≠ newline)
  if line.getLast? = some carriageReturn then line.dropLast else line

theorem receivedLine_eq (bytes : Bytes) : receivedLine bytes = stripReturn (firstLine bytes) := by
  rw [firstLine_eq_takeWhile]
  rfl

theorem handleClient_eq_parseTask {events : List Received} {bytes : Bytes}
    (delivered : Delivers events bytes) :
    handleClient events = (parseTask (firstLine bytes)).toList := by
  rw [handleClient,receive_firstLine events bytes [] delivered (by simp)]
  rfl

theorem takeWhile_eq_nil_iff_head (line : Bytes) (inside : bar ∈ line) :
    line.takeWhile (fun byte => byte ≠ bar) = [] ↔ line.head? = some bar := by
  cases line with
  | nil => cases inside
  | cons head rest => simp [List.takeWhile_cons]

theorem parseTask_eq (payload : Bytes) :
    let line := stripReturn payload
    (parseTask payload).toList =
      if bar ∈ line ∧ line.head? ≠ some bar then
        [⟨line.takeWhile (fun byte => byte ≠ bar),(line.dropWhile (fun byte => byte ≠ bar)).tail⟩]
      else [] := by
  dsimp only
  unfold parseTask
  generalize stripReturn payload = line
  by_cases inside : bar ∈ line
  · rw [if_neg (List.ne_nil_of_mem inside),cut_eq_takeWhile inside]
    simp only [inside,true_and,takeWhile_eq_nil_iff_head line inside]
    by_cases leading : line.head? = some bar
    · simp [leading]
    · simp [leading]
  · simp [cut_eq_none.mpr inside,inside]

/-- The handler is called as the line of the stream says, however the stream is cut into
chunks and whatever interrupts and timeouts come between them. -/
theorem reception_independent (bytes : Bytes) (first second : List Received)
    (whole : Delivers first bytes) (whole' : Delivers second bytes) :
    let line := receivedLine bytes
    handleClient first = handleClient second ∧
    handleClient first =
      if bar ∈ line ∧ line.head? ≠ some bar then
        [⟨line.takeWhile (fun byte => byte ≠ bar),(line.dropWhile (fun byte => byte ≠ bar)).tail⟩]
      else [] := by
  intro line
  have parsed : (parseTask (firstLine bytes)).toList = _ := parseTask_eq (firstLine bytes)
  rw [← receivedLine_eq] at parsed
  rw [handleClient_eq_parseTask whole,handleClient_eq_parseTask whole']
  exact ⟨rfl,parsed⟩

theorem reception_independent_return :
    handleClient [.data (utf8 "task-0|a"),.timedOut true,.data (utf8 "|b\r\nc|d"),.closed] =
      handleClient [.data (utf8 "task-0|a|b\r"),.interrupted,.data (utf8 "\nc|d"),.closed] ∧
    handleClient [.data (utf8 "task-0|a"),.timedOut true,.data (utf8 "|b\r\nc|d"),.closed] =
      [⟨utf8 "task-0",utf8 "a|b"⟩] :=
  reception_independent (utf8 "task-0|a|b\r\nc|d") _ _
    (.data (utf8 "task-0|a") _ (utf8 "|b\r\nc|d") (by decide) (by decide)
      (.timedOut _ _ (.data (utf8 "|b\r\nc|d") _ [] (by decide) (by decide) .closed)))
    (.data (utf8 "task-0|a|b\r") _ (utf8 "\nc|d") (by decide) (by decide)
      (.interrupted _ _ (.data (utf8 "\nc|d") _ [] (by decide) (by decide) .closed)))

section Truncated
variable {events : List Received} {bytes : Bytes}

theorem handleClient_of_header (name rest : Bytes) (delivered : Delivers events (name ++ bar::rest))
    (plain : newline ∉ name) (single : bar ∉ name) (named : name ≠ []) :
    handleClient events ≠ [] := by
  have header : newline ∉ name ++ [bar] := by
    rw [List.mem_append]
    exact not_or.mpr ⟨plain,by decide⟩
  rw [handleClient_eq_parseTask delivered,List.append_cons,firstLine_append_plain _ _ header,
    List.append_assoc,List.singleton_append,parseTask_append name _ named single]
  simp

theorem handleClient_of_no_bar (delivered : Delivers events bytes) (none_ : bar ∉ firstLine bytes) :
    handleClient events = [] := by
  have absent : bar ∉ stripReturn (firstLine bytes) := by
    unfold stripReturn
    split
    next => exact fun member => none_ (List.dropLast_subset _ member)
    next => exact none_
  have parsed : (parseTask (firstLine bytes)).toList = _ := parseTask_eq (firstLine bytes)
  rw [handleClient_eq_parseTask delivered,parsed,if_neg (fun both => absent both.1)]

theorem handleClient_of_leading_bar (rest : Bytes) (delivered : Delivers events (bar::rest)) :
    handleClient events = [] := by
  have parsed : (parseTask (firstLine (bar::rest))).toList = _ := parseTask_eq (firstLine (bar::rest))
  have line : firstLine (bar::rest) = bar::firstLine rest :=
    firstLine_append_plain [bar] rest (by decide)
  have stripped : stripReturn (bar::firstLine rest) = bar::stripReturn (firstLine rest) :=
    stripReturn_append [] (firstLine rest)
  rw [handleClient_eq_parseTask delivered,parsed,line,stripped,if_neg (fun both => both.2 rfl)]

end Truncated

/-- The piece of an identifier up to its first bar or newline. -/
def leadingPiece (id : Bytes) : Bytes := id.takeWhile (fun byte => byte ≠ bar ∧ byte ≠ newline)

theorem leadingPiece_plain {id : Bytes} {byte : UInt8} (member : byte ∈ leadingPiece id) :
    byte ≠ bar ∧ byte ≠ newline := by
  simpa using List.mem_takeWhile_imp member

/-- Behind its leading piece an identifier goes on with a bar or a newline; the one with
neither is followed by the bar of its frame. -/
theorem leadingPiece_next (id : Bytes) : ∃ next more, id ++ [bar] = leadingPiece id ++ next::more ∧
    (next = bar ∨ next = newline) ∧
      (next = newline ↔ id[(leadingPiece id).length]? = some newline) := by
  induction id with
  | nil => exact ⟨bar,[],rfl,.inl rfl,by simp [leadingPiece,show bar ≠ newline by decide]⟩
  | cons first rest ih =>
    by_cases special : first = bar ∨ first = newline
    · have ends : leadingPiece (first::rest) = [] := by
        rw [leadingPiece,List.takeWhile_cons_of_neg]
        simpa using fun other => special.resolve_left other
      exact ⟨first,rest ++ [bar],by simp [ends],special,by simp [ends]⟩
    · have goesOn : leadingPiece (first::rest) = first::leadingPiece rest := by
        rw [leadingPiece,List.takeWhile_cons_of_pos,leadingPiece]
        simpa using special
      obtain ⟨next,more,split_,kind,newline_⟩ := ih
      exact ⟨next,more,by simp [goesOn,split_],kind,by simp [goesOn,newline_]⟩

/-- A part that is longer than the front of the whole has the byte behind it. -/
theorem prefix_reaches {part front rest : Bytes} {next : UInt8} (begins : part <+: front ++ next::rest)
    (long : front.length < part.length) : ∃ tail, part = front ++ next::tail := by
  have whole : front ++ [next] <+: front ++ next::rest := ⟨rest,by simp⟩
  obtain ⟨tail,equal⟩ := List.prefix_of_prefix_length_le whole begins
    (by simpa using Nat.succ_le_of_lt long)
  exact ⟨tail,by simp [← equal]⟩

/-- A frame of which only a part arrived calls no handler exactly if the part ends before
the bar behind the identifier's leading piece, or if that piece is empty or ends at a
newline. An identifier with no bar and no newline is its own leading piece. -/
theorem truncated_ignored_iff (item : Assignment) (received : Bytes) (events : List Received)
    (part : received <+: item.frame) (delivered : Delivers events received) :
    handleClient events = [] ↔
      received.length ≤ (leadingPiece item.taskID).length ∨ leadingPiece item.taskID = [] ∨
        item.taskID[(leadingPiece item.taskID).length]? = some newline := by
  obtain ⟨next,more,split_,special,ended⟩ := leadingPiece_next item.taskID
  generalize named : leadingPiece item.taskID = name at *
  have noBar : bar ∉ name := fun member => (leadingPiece_plain (named ▸ member)).1 rfl
  have noNewline : newline ∉ name := fun member => (leadingPiece_plain (named ▸ member)).2 rfl
  rw [← ended]
  rw [frame_eq,List.append_cons,split_,List.append_assoc,List.cons_append] at part
  rcases Nat.lt_or_ge name.length received.length with long | short
  · -- The part reaches the byte behind the piece.
    obtain ⟨rest,equal⟩ := prefix_reaches part long
    rw [equal] at delivered
    have beyond : ¬received.length ≤ name.length := Nat.not_le.mpr long
    simp only [beyond,false_or]
    rcases special with same | same
    · rw [same] at delivered ⊢
      by_cases empty : name = []
      · rw [empty] at delivered
        exact iff_of_true (handleClient_of_leading_bar rest delivered) (.inl empty)
      · refine iff_of_false (handleClient_of_header name rest delivered noNewline noBar empty) ?_
        exact not_or.mpr ⟨empty,by decide⟩
    · rw [same] at delivered
      refine iff_of_true (handleClient_of_no_bar delivered ?_) (.inr same)
      rwa [firstLine_append name rest noNewline]
  · have inside : received <+: name :=
      List.prefix_of_prefix_length_le part (List.prefix_append _ _) short
    have plain : newline ∉ received := fun member => noNewline (inside.subset member)
    refine iff_of_true (handleClient_of_no_bar delivered ?_) (.inl short)
    rw [firstLine_self received plain]
    exact fun member => noBar (inside.subset member)

theorem truncated_ignored_iff_identifier :
    utf8 "task-000" <+: Assignment.frame ⟨formatTaskID 1,utf8 "hello",utf8 "127.0.0.1:9001"⟩ ∧
    handleClient [.data (utf8 "task-"),.interrupted,.data (utf8 "000"),.closed] = [] :=
  have part : utf8 "task-000" <+: Assignment.frame ⟨formatTaskID 1,utf8 "hello",
    utf8 "127.0.0.1:9001"⟩ := by decide
  ⟨part,(truncated_ignored_iff _ _ _ part
    (.data (utf8 "task-") _ (utf8 "000") (by decide) (by decide)
      (.interrupted _ _ (.data (utf8 "000") _ [] (by decide) (by decide) .closed)))).mpr
        (.inl (by decide))⟩

/-- A connection that breaks inside the prompt has the worker run the part of the prompt
that arrived. -/
theorem truncated_frame_runs :
    let frame := Assignment.frame ⟨formatTaskID 1,utf8 "hello",utf8 "127.0.0.1:9001"⟩
    utf8 "task-000001|hel" <+: frame ∧ utf8 "task-000001|hel" ≠ frame ∧
    Delivers [.data (utf8 "task-000001|hel"),.closed] (utf8 "task-000001|hel") ∧
    handleClient [.data (utf8 "task-000001|hel"),.closed] = [⟨utf8 "task-000001",utf8 "hel"⟩] := by
  refine ⟨by decide,by decide,?_,by decide⟩
  exact .data (utf8 "task-000001|hel") [.closed] [] (by decide) (by decide) .closed

end RdmaPlatform.Worker
