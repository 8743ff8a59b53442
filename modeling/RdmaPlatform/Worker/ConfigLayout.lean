import RdmaPlatform.Library.Transition
import RdmaPlatform.Worker.Config
import Mathlib.Data.List.Perm.Basic
import Mathlib.Logic.Relation

/-! The layout of a configuration file does not matter. Two files that differ by blank
lines, comments, blanks around lines, keys and values, lines with unknown keys, and the
order of lines with distinct keys are both refused or load the same configuration. -/
namespace RdmaPlatform.Worker
open Library

/-- The key of a line that has one. -/
def lineKey (line : Bytes) : Option Bytes := ((parseLine line).toOption.bind id).map Prod.fst

def Blank (text : Bytes) : Prop := ∀ byte ∈ text, isBlank byte = true

/-- One difference in layout between two files, given by their lines. -/
inductive Relayout : List Bytes → List Bytes → Prop
  | blankLine (before after line) (blank : Blank line) :
      Relayout (before ++ after) (before ++ line::after)
  | comment (before after line text) :
      Relayout (before ++ line::after) (before ++ (line ++ numberSign::text)::after)
  | aroundLine (before after line left right) (blankLeft : Blank left) (blankRight : Blank right) :
      Relayout (before ++ line::after) (before ++ (left ++ line ++ right)::after)
  | aroundColon (before after key value left right) (first : colon ∉ key) (blankLeft : Blank left)
      (blankRight : Blank right) :
      Relayout (before ++ (key ++ colon::value)::after)
        (before ++ (key ++ left ++ colon::(right ++ value))::after)
  | unknownKey (before after key value) (first : colon ∉ key) (shown : numberSign ∉ key)
      (unknown : ∀ field : Field, trim key ≠ field.name) :
      Relayout (before ++ after) (before ++ (key ++ colon::value)::after)
  | permutation (before after lines permuted) (same : lines.Perm permuted)
      (distinct : (lines.filterMap lineKey).Nodup) :
      Relayout (before ++ lines ++ after) (before ++ permuted ++ after)

theorem beforeComment_eq (line : Bytes) :
    beforeComment line = line.takeWhile (fun byte => byte ≠ numberSign) :=
  fst_cut_getD numberSign line

theorem parseLine_congr {line other : Bytes}
    (same : trim (beforeComment line) = trim (beforeComment other)) :
    parseLine line = parseLine other := by
  simp only [parseLine,same]

theorem Blank.shown {text : Bytes} (blank : Blank text) : numberSign ∉ text :=
  fun inside => absurd (blank _ inside) (by decide)

theorem beforeComment_append_shown {front : Bytes} (shown : numberSign ∉ front) (rest : Bytes) :
    beforeComment (front ++ rest) = front ++ beforeComment rest := by
  rw [beforeComment_eq,beforeComment_eq]
  refine List.takeWhile_append_of_pos (fun byte member => ?_)
  exact decide_eq_true (ne_of_mem_of_not_mem member shown)

/-- What follows a comment sign is not read. -/
theorem beforeComment_append_hidden {front : Bytes} (hidden : numberSign ∈ front) (rest : Bytes) :
    beforeComment (front ++ rest) = beforeComment front := by
  obtain ⟨left,right,rfl,absent⟩ := List.eq_append_cons_of_mem hidden
  have cutAt (tail : Bytes) : beforeComment (left ++ numberSign::tail) = left := by
    rw [beforeComment,cut_append numberSign left tail absent]
    rfl
  rw [List.append_assoc,List.cons_append,cutAt,cutAt]

theorem beforeComment_self {line : Bytes} (shown : numberSign ∉ line) : beforeComment line = line := by
  rw [beforeComment,cut_eq_none.mpr shown]
  rfl

theorem parseLine_comment (line text : Bytes) :
    parseLine (line ++ numberSign::text) = parseLine line := by
  apply parseLine_congr
  by_cases hidden : numberSign ∈ line
  · rw [beforeComment_append_hidden hidden]
  · rw [beforeComment_append_shown hidden,beforeComment_self hidden,beforeComment,cut]
    simp

theorem parseLine_aroundLine (line : Bytes) {left right : Bytes} (blankLeft : Blank left)
    (blankRight : Blank right) :
    parseLine (left ++ line ++ right) = parseLine line := by
  apply parseLine_congr
  rw [List.append_assoc,beforeComment_append_shown blankLeft.shown]
  by_cases hidden : numberSign ∈ line
  · rw [beforeComment_append_hidden hidden]
    exact trim_append_left blankLeft
  · rw [beforeComment_append_shown hidden,beforeComment_self hidden,beforeComment_self blankRight.shown]
    exact (trim_append_left blankLeft).trans (trim_append_right blankRight)

theorem colon_solid : isBlank colon = false := by decide

/-- A line with a colon outside a comment is split at the first one. -/
theorem parseLine_entry {key : Bytes} (first : colon ∉ key) (shown : numberSign ∉ key) (value : Bytes) :
    parseLine (key ++ colon::value) = .ok (some (trim key,trim (beforeComment value))) := by
  have visible : numberSign ∉ key ++ [colon] := by
    simp only [List.mem_append,List.mem_singleton,not_or]
    exact ⟨shown,by decide⟩
  have text : beforeComment (key ++ colon::value) = key ++ colon::beforeComment value := by
    have read := beforeComment_append_shown visible value
    rwa [List.append_assoc,List.append_assoc] at read
  have trimmed : trim (key ++ colon::beforeComment value) =
      key.dropWhile isBlank ++ colon::(beforeComment value).rdropWhile isBlank :=
    trim_append_cons colon_solid key _
  have absent : colon ∉ key.dropWhile isBlank := fun inside =>
    first ((List.dropWhile_sublist _).subset inside)
  simp only [parseLine,text,trimmed]
  rw [if_neg (by simp),cut_append colon _ _ absent]
  simp only [trim,trim_dropWhile,trim_rdropWhile]

theorem parseLine_aroundColon {key left right : Bytes} (value : Bytes) (first : colon ∉ key)
    (blankLeft : Blank left) (blankRight : Blank right) :
    parseLine (key ++ left ++ colon::(right ++ value)) = parseLine (key ++ colon::value) := by
  by_cases hidden : numberSign ∈ key
  · apply parseLine_congr
    rw [List.append_assoc,beforeComment_append_hidden hidden,beforeComment_append_hidden hidden]
  · have firstStill : colon ∉ key ++ left := by
      rw [List.mem_append,not_or]
      exact ⟨first,fun inside => absurd (blankLeft _ inside) (by decide)⟩
    have shownStill : numberSign ∉ key ++ left := by
      rw [List.mem_append,not_or]
      exact ⟨hidden,blankLeft.shown⟩
    rw [parseLine_entry firstStill shownStill,parseLine_entry first hidden,
      beforeComment_append_shown blankRight.shown]
    simp only [trim,trim_append_left blankRight,trim_append_right blankLeft]

theorem Field.ofKey_eq_some {key : Bytes} {field : Field} (known : Field.ofKey key = some field) :
    key = field.name := by
  unfold Field.ofKey at known
  grind

theorem Field.ofKey_eq_none {key : Bytes} (unknown : ∀ field : Field, key ≠ field.name) :
    Field.ofKey key = none := by
  simp only [Field.ofKey,if_neg (unknown _)]

/-- An assignment of the loop with the value it has read. -/
inductive Setting where
  | workerID (text : Bytes)
  | listenPort (number : Int32)
  | schedulerAddr (text : Bytes)
  | heartbeatInterval (number : Int32)
  | threads (number : Int32)

def Setting.field : Setting → Field
  | .workerID _ => .workerID
  | .listenPort _ => .listenPort
  | .schedulerAddr _ => .schedulerAddr
  | .heartbeatInterval _ => .heartbeatInterval
  | .threads _ => .threads

def Setting.apply (setting : Setting) (loaded : WorkerConfig) : WorkerConfig :=
  match setting with
  | .workerID text => {loaded with workerID := text}
  | .listenPort number => {loaded with listenPort := number}
  | .schedulerAddr text => {loaded with schedulerAddr := text}
  | .heartbeatInterval number => {loaded with heartbeatInterval := number}
  | .threads number => {loaded with threads := number}

theorem Setting.apply_comm {first second : Setting} (different : first.field ≠ second.field)
    (loaded : WorkerConfig) :
    second.apply (first.apply loaded) = first.apply (second.apply loaded) := by
  cases first <;> cases second <;> first | rfl | exact absurd rfl different

theorem Field.assign_cases (field : Field) (value : Bytes) :
    (∃ text, ∀ loaded, field.assign value loaded = .error text) ∨
    ∃ setting : Setting, setting.field = field ∧ ∀ loaded,
      field.assign value loaded = .ok (setting.apply loaded) := by
  have number (setting : Int32 → Setting) (fields : ∀ read, (setting read).field = field)
      (assigned : ∀ loaded, field.assign value loaded =
        (field.readInt value).map (fun read => (setting read).apply loaded)) :
      (∃ text, ∀ loaded, field.assign value loaded = .error text) ∨
      ∃ setting : Setting, setting.field = field ∧ ∀ loaded,
        field.assign value loaded = .ok (setting.apply loaded) := by
    cases read : field.readInt value with
    | error text => exact .inl ⟨text,fun loaded => by rw [assigned,read,Except.map]⟩
    | ok parsed => exact .inr ⟨setting parsed,fields parsed,fun loaded => by
      rw [assigned,read,Except.map]⟩
  cases field with
  | workerID => exact .inr ⟨.workerID value,rfl,fun _ => rfl⟩
  | listenPort => exact number .listenPort (fun _ => rfl) (fun _ => rfl)
  | schedulerAddr => exact .inr ⟨.schedulerAddr value,rfl,fun _ => rfl⟩
  | heartbeatInterval => exact number .heartbeatInterval (fun _ => rfl) (fun _ => rfl)
  | threads => exact number .threads (fun _ => rfl) (fun _ => rfl)

/-- A round of the loop without the text of its error. -/
def readLine (loaded : Option WorkerConfig) (line : Bytes) : Option WorkerConfig :=
  loaded.bind (fun config => (loadLine config line).toOption)

theorem readLine_congr {line other : Bytes} (same : parseLine line = parseLine other)
    (loaded : Option WorkerConfig) :
    readLine loaded line = readLine loaded other := by
  simp only [readLine,loadLine,same]

theorem readLine_keyless {line : Bytes} (keyless : parseLine line = .ok none)
    (loaded : Option WorkerConfig) :
    readLine loaded line = loaded := by
  cases loaded <;> simp [readLine,loadLine,keyless,Except.toOption,pure,Except.pure,bind,Except.bind]

theorem readLine_unknown {line key value : Bytes} (entry : parseLine line = .ok (some (key,value)))
    (unknown : Field.ofKey key = none) (loaded : Option WorkerConfig) :
    readLine loaded line = loaded := by
  cases loaded <;> simp [readLine,loadLine,entry,unknown,Except.toOption,pure,Except.pure,bind,
    Except.bind]

/-- A line is refused, or skipped, or sets the field that its key names, whatever was read before it. -/
theorem readLine_cases (line : Bytes) :
    (∀ loaded, readLine loaded line = none) ∨ (∀ loaded, readLine loaded line = loaded) ∨
    ∃ setting : Setting, lineKey line = some setting.field.name ∧
      ∀ loaded, readLine loaded line = loaded.map setting.apply := by
  cases parsed : parseLine line with
  | error text =>
    refine .inl (fun loaded => ?_)
    cases loaded <;> simp [readLine,loadLine,parsed,Except.toOption,bind,Except.bind]
  | ok entry =>
    rcases entry with _ | ⟨key,value⟩
    · exact .inr (.inl (readLine_keyless parsed))
    · cases known : Field.ofKey key with
      | none => exact .inr (.inl (readLine_unknown parsed known))
      | some field =>
        have loads (config : WorkerConfig) : loadLine config line = field.assign value config := by
          simp only [loadLine,parsed,known,bind,Except.bind]
        rcases field.assign_cases value with ⟨text,refused⟩ | ⟨setting,sets,assigned⟩
        · refine .inl (fun loaded => ?_)
          cases loaded <;> simp [readLine,loads,refused,Except.toOption]
        · refine .inr (.inr ⟨setting,?_,fun loaded => ?_⟩)
          · simp [lineKey,parsed,Except.toOption,Field.ofKey_eq_some known,sets]
          · cases loaded <;> simp [readLine,loads,assigned,Except.toOption]

theorem readLine_comm {line other : Bytes} (different : ∀ key ∈ lineKey line, key ∉ lineKey other)
    (loaded : Option WorkerConfig) :
    readLine (readLine loaded line) other = readLine (readLine loaded other) line := by
  rcases readLine_cases line with refused | skipped | ⟨first,firstKey,sets⟩ <;>
    rcases readLine_cases other with refusedOther | skippedOther | ⟨second,secondKey,setsOther⟩
  case inr.inr.inr.inr =>
    have apart : first.field ≠ second.field := by
      intro same
      exact different _ firstKey (by rw [secondKey,same,Option.mem_def])
    simp only [sets,setsOther,Option.map_map]
    congr 1
    exact funext (Setting.apply_comm apart)
  all_goals simp_all

theorem foldlM_toOption (texts : List Bytes) (config : WorkerConfig) :
    (texts.foldlM loadLine config).toOption = texts.foldl readLine (some config) := by
  have refused (texts : List Bytes) : texts.foldl readLine none = none := by
    induction texts with
    | nil => rfl
    | cons line rest ih => exact ih
  induction texts generalizing config with
  | nil => rfl
  | cons line rest ih =>
    rw [List.foldlM_cons,List.foldl_cons,readLine,Option.bind_some]
    cases loadLine config line with
    | error text => exact (refused rest).symm
    | ok loaded => exact ih loaded

section Lines
variable (before after : List Bytes) {line : Bytes} (loaded : Option WorkerConfig)

theorem read_rewritten {other : Bytes} (same : parseLine line = parseLine other) :
    (before ++ line::after).foldl readLine loaded = (before ++ other::after).foldl readLine loaded := by
  rw [List.foldl_append,List.foldl_append,List.foldl_cons,List.foldl_cons,readLine_congr same]

theorem read_inserted (skipped : ∀ loaded, readLine loaded line = loaded) :
    (before ++ after).foldl readLine loaded = (before ++ line::after).foldl readLine loaded := by
  rw [List.foldl_append,List.foldl_append,List.foldl_cons,skipped]

end Lines

/-- The lines are read to the same end whatever their layout. -/
theorem Relayout.read {first second : List Bytes} (related : Relayout first second)
    (loaded : Option WorkerConfig) :
    first.foldl readLine loaded = second.foldl readLine loaded := by
  cases related with
  | blankLine before after line blank =>
    have empty : trim (beforeComment line) = [] := by
      rw [beforeComment_self blank.shown]
      exact trim_eq_nil_iff.mpr blank
    have keyless : parseLine line = .ok none := by simp only [parseLine,empty,if_true]
    exact read_inserted before after loaded (readLine_keyless keyless)
  | comment before after line text =>
    exact read_rewritten before after loaded (parseLine_comment line text).symm
  | aroundLine before after line left right blankLeft blankRight =>
    exact read_rewritten before after loaded (parseLine_aroundLine line blankLeft blankRight).symm
  | aroundColon before after key value left right first blankLeft blankRight =>
    exact read_rewritten before after loaded
      (parseLine_aroundColon value first blankLeft blankRight).symm
  | unknownKey before after key value first shown unknown =>
    exact read_inserted before after loaded
      (readLine_unknown (parseLine_entry first shown value) (Field.ofKey_eq_none unknown))
  | permutation before after lines permuted same distinct =>
    have block := Transition.foldl_perm_of_keys lineKey readLine_comm same distinct
      (before.foldl readLine loaded)
    rw [List.foldl_append,List.foldl_append,List.foldl_append,List.foldl_append,block]

theorem readConfig_toOption (content : Bytes) (config : WorkerConfig) :
    (readConfig content config).toOption =
      ((lines newline content).foldl readLine (some config)).filter
        (fun loaded => (checkLoaded loaded).isOk) := by
  rw [← foldlM_toOption]
  unfold readConfig
  cases read : (lines newline content).foldlM loadLine config with
  | error text => rfl
  | ok loaded =>
    change (checkLoaded loaded >>= fun _ => pure loaded).toOption =
      if (checkLoaded loaded).isOk then some loaded else none
    cases checkLoaded loaded <;> rfl

/-- The result and the configuration after the call, without the text that is logged. -/
theorem loadConfig_eq (path content : Bytes) (config : WorkerConfig) :
    (loadConfig path (some content) config).1.isOk = (readConfig content config).toOption.isSome ∧
      (loadConfig path (some content) config).2 = (readConfig content config).toOption.getD config := by
  cases read : readConfig content config <;>
    simp [loadConfig,read,Except.toOption,Except.isOk,Except.toBool]

theorem read_eqvGen {first second : List Bytes} (related : Relation.EqvGen Relayout first second)
    (loaded : Option WorkerConfig) : first.foldl readLine loaded = second.foldl readLine loaded := by
  induction related with
  | rel first second step => exact step.read loaded
  | refl => rfl
  | symm first second _ ih => exact ih.symm
  | trans first second third _ _ ih ihLater => exact ih.trans ihLater

/-- Loading is all or nothing, checks what it loads, and depends on no layout: files whose
lines are related by changes of layout are both refused or load one configuration. -/
theorem loadConfig_atomic_and_layout_free (config : WorkerConfig) :
    (∀ path file, (∃ text, loadConfig path file config = (.error text,config)) ∨
      ∃ loaded, loadConfig path file config = (.ok (),loaded) ∧ loaded.Valid) ∧
    ∀ path otherPath first second,
      Relation.EqvGen Relayout (lines newline first) (lines newline second) →
      (loadConfig path (some first) config).1.isOk =
        (loadConfig otherPath (some second) config).1.isOk ∧
      (loadConfig path (some first) config).2 = (loadConfig otherPath (some second) config).2 := by
  refine ⟨fun path file => loadConfig_cases path file config,?_⟩
  intro path otherPath first second related
  have read : (readConfig first config).toOption = (readConfig second config).toOption := by
    rw [readConfig_toOption,readConfig_toOption,read_eqvGen related]
  obtain ⟨result,after⟩ := loadConfig_eq path first config
  obtain ⟨otherResult,otherAfter⟩ := loadConfig_eq otherPath second config
  rw [result,after,otherResult,otherAfter,read]
  exact ⟨rfl,rfl⟩

private def plainFile : Bytes := utf8 "worker_id: w\nlisten_port:9100\n"
private def laidOutFile : Bytes := utf8 "listen_port\t: 9100\n \nregion: eu\n worker_id: w# me"

theorem loadConfig_atomic_and_layout_free_two_files :
    (loadConfig (utf8 "a") (some plainFile) .default).1.isOk =
      (loadConfig (utf8 "b") (some laidOutFile) .default).1.isOk ∧
    (loadConfig (utf8 "a") (some plainFile) .default).2 =
      (loadConfig (utf8 "b") (some laidOutFile) .default).2 := by
  refine (loadConfig_atomic_and_layout_free .default).2 (utf8 "a") (utf8 "b") plainFile laidOutFile ?_
  let worker := utf8 "worker_id: w"
  let port := utf8 "listen_port" ++ colon::utf8 "9100"
  let spaced := utf8 "listen_port" ++ utf8 "\t" ++ colon::(utf8 " " ++ utf8 "9100")
  let region := utf8 "region" ++ colon::utf8 " eu"
  let marked := worker ++ numberSign::utf8 " me"
  have plain : lines newline plainFile = [worker,port] := by decide +kernel
  have laidOut : lines newline laidOutFile = [spaced,utf8 " ",region,utf8 " " ++ marked ++ []] := by
    decide +kernel
  rw [plain,laidOut]
  have blank (text : Bytes) (all : text.all isBlank = true) : Blank text := List.all_eq_true.mp all
  have permuted : Relayout [worker,port] [port,worker] :=
    .permutation [] [] [worker,port] [port,worker] (.swap _ _ _) (by decide +kernel)
  have split : Relayout [port,worker] [spaced,worker] :=
    .aroundColon [] [worker] _ _ _ _ (by decide +kernel) (blank _ (by decide +kernel))
      (blank _ (by decide +kernel))
  have parted : Relayout [spaced,worker] [spaced,utf8 " ",worker] :=
    .blankLine [spaced] [worker] _ (blank _ (by decide +kernel))
  have extended : Relayout [spaced,utf8 " ",worker] [spaced,utf8 " ",region,worker] :=
    .unknownKey [spaced,utf8 " "] [worker] _ _ (by decide +kernel) (by decide +kernel)
      (fun field => by cases field <;> decide +kernel)
  have remarked : Relayout [spaced,utf8 " ",region,worker] [spaced,utf8 " ",region,marked] :=
    .comment [spaced,utf8 " ",region] [] worker (utf8 " me")
  have indented : Relayout [spaced,utf8 " ",region,marked] [spaced,utf8 " ",region,utf8 " " ++
      marked ++ []] :=
    .aroundLine [spaced,utf8 " ",region] [] marked (utf8 " ") [] (blank _ (by decide +kernel))
      (blank _ (by decide +kernel))
  exact (((((Relation.EqvGen.rel _ _ permuted).trans _ _ _ (.rel _ _ split)).trans _ _ _
    (.rel _ _ parted)).trans _ _ _ (.rel _ _ extended)).trans _ _ _ (.rel _ _ remarked)).trans _ _ _
    (.rel _ _ indented)

end RdmaPlatform.Worker
