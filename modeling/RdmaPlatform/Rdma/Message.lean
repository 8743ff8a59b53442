import RdmaPlatform.Library.Bytes
import RdmaPlatform.Library.Split
import RdmaPlatform.Library.SortedMap

/-! The text codec of the RDMA messages: `rdma/task_message.h` and
`rdma/result_message.h`. A message is one `key=value` line per field and one
`meta:key=value` line per metadata entry. The two readers differ only in the
fields they know. -/
namespace RdmaPlatform.Rdma
open Library

def newline : UInt8 := 10
def equals : UInt8 := 61
def metaTag : Bytes := utf8 "meta:"

abbrev Metadata := SortedMap Bytes Bytes

def readLine {μ : Type} (setMeta setField : Bytes → Bytes → μ → μ) (message : μ) (line : Bytes) :
    μ :=
  if line = [] then message
  else if metaTag.isPrefixOf line then
    match cut equals (line.drop 5) with
    | none => message
    | some (key,value) => setMeta key value message
  else
    match cut equals line with
    | none => message
    | some (key,value) => setField key value message

def read {μ : Type} (setMeta setField : Bytes → Bytes → μ → μ) (initial : μ) (payload : Bytes) :
    μ :=
  (lines newline payload).foldl (readLine setMeta setField) initial

def writeField (name value : Bytes) : Bytes := name ++ utf8 "=" ++ value ++ utf8 "\n"

def writeMetadata (metadata : Metadata) : Bytes :=
  metadata.entries.flatMap (fun entry => metaTag ++ entry.1 ++ utf8 "=" ++ entry.2 ++ utf8 "\n")

structure TaskMessage where
  taskId : Bytes
  kind : Bytes
  sourceNode : Bytes
  targetNode : Bytes
  description : Bytes
  metadata : Metadata
  deriving DecidableEq

namespace TaskMessage

def serialize (message : TaskMessage) : Bytes :=
  writeField (utf8 "task_id") message.taskId ++ writeField (utf8 "kind") message.kind ++
    writeField (utf8 "source_node") message.sourceNode ++ writeField (utf8 "target_node")
      message.targetNode ++
    writeField (utf8 "description") message.description ++ writeMetadata message.metadata

def setMeta (key value : Bytes) (message : TaskMessage) : TaskMessage :=
  {message with metadata := message.metadata.assign key value}

def setField (key value : Bytes) (message : TaskMessage) : TaskMessage :=
  if key = utf8 "task_id" then {message with taskId := value}
  else if key = utf8 "kind" then {message with kind := value}
  else if key = utf8 "source_node" then {message with sourceNode := value}
  else if key = utf8 "target_node" then {message with targetNode := value}
  else if key = utf8 "description" then {message with description := value}
  else message

def deserialize (payload : Bytes) : TaskMessage :=
  read setMeta setField ⟨[],[],[],[],[],.empty⟩ payload

end TaskMessage

structure ResultMessage where
  taskId : Bytes
  workerNode : Bytes
  targetNode : Bytes
  success : Bool
  detail : Bytes
  metadata : Metadata
  deriving DecidableEq

namespace ResultMessage

def serialize (message : ResultMessage) : Bytes :=
  writeField (utf8 "task_id") message.taskId ++ writeField (utf8 "worker_node") message.workerNode ++
    writeField (utf8 "target_node") message.targetNode ++
    writeField (utf8 "success") (if message.success then utf8 "1" else utf8 "0") ++
    writeField (utf8 "detail") message.detail ++ writeMetadata message.metadata

def setMeta (key value : Bytes) (message : ResultMessage) : ResultMessage :=
  {message with metadata := message.metadata.assign key value}

def setField (key value : Bytes) (message : ResultMessage) : ResultMessage :=
  if key = utf8 "task_id" then {message with taskId := value}
  else if key = utf8 "worker_node" then {message with workerNode := value}
  else if key = utf8 "target_node" then {message with targetNode := value}
  else if key = utf8 "success" then {message with success := value = utf8 "1"}
  else if key = utf8 "detail" then {message with detail := value}
  else message

def deserialize (payload : Bytes) : ResultMessage :=
  read setMeta setField ⟨[],[],[],false,[],.empty⟩ payload

end ResultMessage

section Reader

variable {μ : Type} (setMeta setField : Bytes → Bytes → μ → μ)

/-- A written field is read back as one. The name decides that the line is not a
metadata line and holds no separator, so the value is free. -/
theorem readLine_field (message : μ) (name value : Bytes) (named : name ≠ [])
    (plain : name.head? ≠ metaTag.head?) (absent : equals ∉ name) :
    readLine setMeta setField message (name ++ equals::value) = setField name value message := by
  obtain ⟨first,rest,rfl⟩ := List.exists_cons_of_ne_nil named
  have field : metaTag.isPrefixOf (first::rest ++ equals::value) = false := by
    have different : ¬ (109 : UInt8) = first := fun same => plain (by rw [← same]; rfl)
    change (109 == first && _) = false
    rw [beq_eq_false_iff_ne.mpr different,Bool.false_and]
  rw [readLine,if_neg (by simp),field,cut_append equals (first::rest) value absent]
  rfl

theorem readLine_metadata (message : μ) (key value : Bytes) (absent : equals ∉ key) :
    readLine setMeta setField message (metaTag ++ key ++ equals::value) =
      setMeta key value message := by
  have tagged : metaTag.isPrefixOf (metaTag ++ key ++ equals::value) = true := by
    rw [List.append_assoc]
    exact List.isPrefixOf_iff_prefix.mpr (List.prefix_append _ _)
  have rest : (metaTag ++ key ++ equals::value).drop 5 = key ++ equals::value := by
    rw [List.append_assoc]
    rfl
  rw [readLine,if_neg (by simp),tagged,rest,cut_append equals key value absent]
  rfl

/-- A property of messages that survives every field and entry read from a line
holds of everything the reader returns. -/
theorem read_invariant (Inv : μ → Prop) (initial : μ) (payload : Bytes) (start : Inv initial)
    (field : ∀ key value message, newline ∉ value → Inv message → Inv (setField key value message))
    (metadata : ∀ key value message, newline ∉ key → equals ∉ key → newline ∉ value →
      Inv message → Inv (setMeta key value message)) :
    Inv (read setMeta setField initial payload) := by
  have step (message : μ) (line : Bytes) (single : newline ∉ line) (before : Inv message) :
      Inv (readLine setMeta setField message line) := by
    unfold readLine
    split
    next => exact before
    next =>
      split
      next =>
        split
        next => exact before
        next key value found =>
          obtain ⟨parts,absent⟩ := cut_eq_some found
          have inside : newline ∉ line.drop 5 := fun member => single (List.mem_of_mem_drop member)
          rw [parts] at inside
          simp only [List.mem_append,List.mem_cons,not_or] at inside
          exact metadata key value message inside.1 absent inside.2.2 before
      next =>
        split
        next => exact before
        next key value found =>
          obtain ⟨parts,_⟩ := cut_eq_some found
          rw [parts] at single
          simp only [List.mem_append,List.mem_cons,not_or] at single
          exact field key value message single.2.2 before
  have all : ∀ line ∈ lines newline payload, newline ∉ line := fun _ member =>
    not_mem_of_mem_lines member
  rw [read]
  generalize lines newline payload = texts at all
  induction texts generalizing initial with
  | nil => exact start
  | cons line rest ih =>
    exact ih (readLine setMeta setField initial line) (step initial line (all line (by simp)) start)
      (fun other member => all other (by simp [member]))

def FieldName (name : Bytes) : Prop :=
  name ≠ [] ∧ name.head? ≠ metaTag.head? ∧ equals ∉ name ∧ newline ∉ name

instance (name : Bytes) : Decidable (FieldName name) := by
  unfold FieldName; infer_instance

def CleanMetadata (metadata : Metadata) : Prop :=
  ∀ entry ∈ metadata.entries, newline ∉ entry.1 ∧ newline ∉ entry.2 ∧ equals ∉ entry.1

theorem clean_assign (metadata : Metadata) (key value : Bytes) (clean : CleanMetadata metadata)
    (key_ : newline ∉ key) (plain : equals ∉ key) (value_ : newline ∉ value) :
    CleanMetadata (metadata.assign key value) := by
  intro entry member
  rcases mem_assignEntry member with new | old
  · rw [new]
    exact ⟨key_,value_,plain⟩
  · exact clean entry old

def writeLines (fields : List (Bytes × Bytes)) (metadata : Metadata) : Bytes :=
  fields.flatMap (fun field => writeField field.1 field.2) ++ writeMetadata metadata

private theorem writeLines_eq (fields : List (Bytes × Bytes)) (metadata : Metadata) :
    writeLines fields metadata =
      unlines newline (fields.map (fun field => field.1 ++ equals::field.2) ++
      metadata.entries.map (fun entry => metaTag ++ entry.1 ++ equals::entry.2)) := by
  have separator : utf8 "=" = [equals] := rfl
  have terminator : utf8 "\n" = [newline] := rfl
  simp [writeLines,writeField,writeMetadata,unlines,separator,terminator,List.flatMap_map]

theorem read_writeLines (initial : μ) (fields : List (Bytes × Bytes)) (metadata : Metadata)
    (named : ∀ field ∈ fields, FieldName field.1) (single : ∀ field ∈ fields, newline ∉ field.2)
    (clean : CleanMetadata metadata) :
    read setMeta setField initial (writeLines fields metadata) =
      metadata.entries.foldl (fun message entry => setMeta entry.1 entry.2 message)
        (fields.foldl (fun message field => setField field.1 field.2 message) initial) := by
  have whole : ∀ line ∈ fields.map (fun field => field.1 ++ equals::field.2) ++
      metadata.entries.map (fun entry => metaTag ++ entry.1 ++ equals::entry.2), newline ∉ line := by
    intro line member
    rcases List.mem_append.mp member with written | tagged
    · obtain ⟨field,inside,rfl⟩ := List.mem_map.mp written
      simp only [List.mem_append,List.mem_cons,not_or]
      exact ⟨(named field inside).2.2.2,by decide,single field inside⟩
    · obtain ⟨entry,inside,rfl⟩ := List.mem_map.mp tagged
      obtain ⟨key,value,_⟩ := clean entry inside
      simp only [List.mem_append,List.mem_cons,not_or]
      exact ⟨⟨by decide,key⟩,by decide,value⟩
  rw [read,writeLines_eq,lines_unlines newline _ whole,List.foldl_append,List.foldl_map,List.foldl_map]
  have fieldsRead : fields.foldl (fun message field =>
      readLine setMeta setField message (field.1 ++ equals::field.2)) initial =
      fields.foldl (fun message field => setField field.1 field.2 message) initial := by
    apply List.foldl_ext
    intro message field member
    obtain ⟨nonempty,plain,absent,_⟩ := named field member
    exact readLine_field setMeta setField message field.1 field.2 nonempty plain absent
  rw [fieldsRead]
  apply List.foldl_ext
  intro message entry member
  exact readLine_metadata setMeta setField message entry.1 entry.2 (clean entry member).2.2

end Reader

/-- A kind of message: how it is read, and what is written of it. -/
structure Format (μ : Type) where
  setMeta : Bytes → Bytes → μ → μ
  setField : Bytes → Bytes → μ → μ
  initial : μ
  fields : μ → List (Bytes × Bytes)
  metadata : μ → Metadata
  withMetadata : Metadata → μ → μ
  named : ∀ message, ∀ field ∈ fields message, FieldName field.1
  blank : (∀ field ∈ fields initial, newline ∉ field.2) ∧ CleanMetadata (metadata initial)
  setField_fields : ∀ key value message, ∀ field ∈ fields (setField key value message),
    field ∈ fields message ∨ field.2 = value ∨ newline ∉ field.2
  setField_metadata : ∀ key value message, metadata (setField key value message) = metadata message
  setMeta_fields : ∀ key value message, fields (setMeta key value message) = fields message
  setMeta_metadata : ∀ key value message, metadata (setMeta key value message) =
    (metadata message).assign key value
  withMetadata_assign : ∀ key value table message,
    setMeta key value (withMetadata table message) = withMetadata (table.assign key value) message
  withMetadata_self : ∀ message, withMetadata (metadata message) message = message
  refilled : ∀ message, (fields message).foldl
    (fun message field => setField field.1 field.2 message) initial = withMetadata .empty message

namespace Format
variable {μ : Type} (format : Format μ)

def write (message : μ) : Bytes := writeLines (format.fields message) (format.metadata message)

def read (payload : Bytes) : μ := Rdma.read format.setMeta format.setField format.initial payload

def Clean (message : μ) : Prop :=
  (∀ field ∈ format.fields message, newline ∉ field.2) ∧ CleanMetadata (format.metadata message)

theorem foldl_setMeta (entries : List (Bytes × Bytes)) (table : Metadata) (message : μ) :
    entries.foldl (fun message entry => format.setMeta entry.1 entry.2 message)
      (format.withMetadata table message) =
      format.withMetadata (entries.foldl (fun table entry => table.assign entry.1 entry.2) table)
      message := by
  induction entries generalizing table with
  | nil => rfl
  | cons entry rest ih => rw [List.foldl_cons,format.withMetadata_assign,ih,List.foldl_cons]

theorem read_write (message : μ) (clean : format.Clean message) :
    format.read (format.write message) = message := by
  rw [read,write,read_writeLines _ _ _ _ _ (format.named message) clean.1 clean.2,format.refilled,
    foldl_setMeta,SortedMap.foldl_assign_entries,format.withMetadata_self]

theorem read_clean (payload : Bytes) : format.Clean (format.read payload) := by
  refine read_invariant format.setMeta format.setField format.Clean _ payload format.blank ?_ ?_
  · intro key value message single before
    refine ⟨fun field member => ?_,by rw [format.setField_metadata]; exact before.2⟩
    rcases format.setField_fields key value message field member with old | new | plain
    · exact before.1 field old
    · rw [new]
      exact single
    · exact plain
  · intro key value message key_ plain value_ before
    refine ⟨by rw [format.setMeta_fields]; exact before.1,?_⟩
    rw [format.setMeta_metadata]
    exact clean_assign _ key value before.2 key_ plain value_

/-- Exactly the clean messages are read back, and whatever is read is clean. -/
theorem read_write_iff (message : μ) :
    format.read (format.write message) = message ↔ format.Clean message := by
  refine ⟨fun same => ?_,format.read_write message⟩
  rw [← same]
  exact format.read_clean _

theorem read_write_read (payload : Bytes) :
    format.read (format.write (format.read payload)) = format.read payload :=
  format.read_write _ (format.read_clean payload)

end Format

namespace TaskMessage

def Clean (message : TaskMessage) : Prop :=
  newline ∉ message.taskId ∧ newline ∉ message.kind ∧ newline ∉ message.sourceNode ∧
    newline ∉ message.targetNode ∧ newline ∉ message.description ∧ CleanMetadata message.metadata

def format : Format TaskMessage where
  setMeta := setMeta
  setField := setField
  initial := ⟨[],[],[],[],[],.empty⟩
  fields message :=
    [(utf8 "task_id",message.taskId),(utf8 "kind",message.kind),(utf8 "source_node",message.sourceNode),
      (utf8 "target_node",message.targetNode),(utf8 "description",message.description)]
  metadata message := message.metadata
  withMetadata table message := {message with metadata := table}
  named message := by
    simp only [List.forall_mem_cons]
    exact ⟨by decide,by decide,by decide,by decide,by decide,by simp⟩
  blank := by simp [CleanMetadata,SortedMap.empty]
  setField_fields key value message := by
    unfold setField
    (repeat' split) <;> simp +contextual
  setField_metadata key value message := by
    unfold setField
    (repeat' split) <;> rfl
  setMeta_fields _ _ _ := rfl
  setMeta_metadata _ _ _ := rfl
  withMetadata_assign _ _ _ _ := rfl
  withMetadata_self _ := rfl
  refilled _ := rfl

theorem format_write (message : TaskMessage) : format.write message = message.serialize := by
  simp [serialize,Format.write,format,writeLines]

theorem format_clean (message : TaskMessage) : format.Clean message ↔ message.Clean := by
  simp [Format.Clean,format,Clean,and_assoc]

theorem deserialize_serialize (message : TaskMessage) (clean : message.Clean) :
    deserialize message.serialize = message := by
  rw [← format_write]
  exact format.read_write message (message.format_clean.mpr clean)

end TaskMessage

namespace ResultMessage

def Clean (message : ResultMessage) : Prop :=
  newline ∉ message.taskId ∧ newline ∉ message.workerNode ∧ newline ∉ message.targetNode ∧
    newline ∉ message.detail ∧ CleanMetadata message.metadata

def format : Format ResultMessage where
  setMeta := setMeta
  setField := setField
  initial := ⟨[],[],[],false,[],.empty⟩
  fields message :=
    [(utf8 "task_id",message.taskId),(utf8 "worker_node",message.workerNode),
      (utf8 "target_node",message.targetNode),(utf8 "success",if message.success then utf8 "1"
      else utf8 "0"),(utf8 "detail",message.detail)]
  metadata message := message.metadata
  withMetadata table message := {message with metadata := table}
  named message := by
    simp only [List.forall_mem_cons]
    exact ⟨by decide,by decide,by decide,by decide,by decide,by simp⟩
  blank := by
    simp [CleanMetadata,SortedMap.empty]
    decide
  setField_fields key value message := by
    have flag : newline ∉ utf8 "1" ∧ newline ∉ utf8 "0" := by decide
    unfold setField
    (repeat' split) <;> simp +contextual [flag]
  setField_metadata key value message := by
    unfold setField
    (repeat' split) <;> rfl
  setMeta_fields _ _ _ := rfl
  setMeta_metadata _ _ _ := rfl
  withMetadata_assign _ _ _ _ := rfl
  withMetadata_self _ := rfl
  refilled message := by
    obtain ⟨_,_,_,success,_,_⟩ := message
    cases success <;> rfl

theorem format_write (message : ResultMessage) : format.write message = message.serialize := by
  simp [serialize,Format.write,format,writeLines]

theorem format_clean (message : ResultMessage) : format.Clean message ↔ message.Clean := by
  have flag : newline ∉ (if message.success then utf8 "1" else utf8 "0") := by split <;> decide
  simp [Format.Clean,format,Clean,flag,and_assoc]

theorem deserialize_serialize (message : ResultMessage) (clean : message.Clean) :
    deserialize message.serialize = message := by
  rw [← format_write]
  exact format.read_write message (message.format_clean.mpr clean)

end ResultMessage

/-- The codec round-trips exactly the clean messages, and whatever a reader
returns is clean. -/
theorem text_codec_domain :
    (∀ message : TaskMessage, TaskMessage.deserialize message.serialize = message ↔
      newline ∉ message.taskId ∧ newline ∉ message.kind ∧ newline ∉ message.sourceNode ∧
        newline ∉ message.targetNode ∧ newline ∉ message.description ∧
        ∀ entry ∈ message.metadata.entries, newline ∉ entry.1 ∧ newline ∉ entry.2 ∧
          equals ∉ entry.1) ∧
    (∀ message : ResultMessage, ResultMessage.deserialize message.serialize = message ↔
      newline ∉ message.taskId ∧ newline ∉ message.workerNode ∧ newline ∉ message.targetNode ∧
        newline ∉ message.detail ∧
        ∀ entry ∈ message.metadata.entries, newline ∉ entry.1 ∧ newline ∉ entry.2 ∧
          equals ∉ entry.1) ∧
    (∀ payload, TaskMessage.deserialize (TaskMessage.deserialize payload).serialize =
      TaskMessage.deserialize payload) ∧
    (∀ payload, ResultMessage.deserialize (ResultMessage.deserialize payload).serialize =
      ResultMessage.deserialize payload) := by
  refine ⟨fun message => ?_,fun message => ?_,fun payload => ?_,fun payload => ?_⟩
  · rw [← TaskMessage.format_write]
    exact (TaskMessage.format.read_write_iff message).trans message.format_clean
  · rw [← ResultMessage.format_write]
    exact (ResultMessage.format.read_write_iff message).trans message.format_clean
  · rw [← TaskMessage.format_write]
    exact TaskMessage.format.read_write_read payload
  · rw [← ResultMessage.format_write]
    exact ResultMessage.format.read_write_read payload

end RdmaPlatform.Rdma
