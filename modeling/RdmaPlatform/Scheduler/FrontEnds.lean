import RdmaPlatform.Scheduler.Grpc

/-! The HTTP front end, `internal/api`, beside the gRPC one. Both submit to and read
from the same task records, but only gRPC gives the reserved metadata key a
meaning and keeps it out of sight. -/
namespace RdmaPlatform.Scheduler.FrontEnds
open Library Grpc

/-- What `writeError` is called with; a service's error goes with it. -/
inductive HttpError where
  | invalidBody
  | badRequest (cause : Error)
  | notFound (cause : Error)
  | taskNotFound

/-- A handler that calls a service with its decoded body; there is none if `decodeJSON` refuses
it. -/
def callService {α β : Type} (failed : Error → HttpError)
    (service : α → State → Except Error β × State) (decoded : Option α) (state : State) :
    Except HttpError β × State :=
  match decoded with
  | none => (.error .invalidBody,state)
  | some req =>
    match service req state with
    | (.error error,state) => (.error (failed error),state)
    | (.ok value,state) => (.ok value,state)

theorem callService_state {α β : Type} (failed : Error → HttpError)
    (service : α → State → Except Error β × State) (req : α) (state : State) :
    (callService failed service (some req) state).2 = (service req state).2 := by
  rw [callService]
  rcases service req state with ⟨_ | _,_⟩ <;> rfl

def handleRegister (config : Config) (decoded : Option RegisterNodeRequest) (now : Time) :
    State → Except HttpError Node × State :=
  callService .badRequest (fun req => NodeService.register config req now) decoded

def handleHeartbeat (config : Config) (decoded : Option Scheduler.HeartbeatRequest) (now : Time) :
    State → Except HttpError Node × State :=
  callService .notFound (fun req => NodeService.heartbeat config req now) decoded

def handleSubmitTask (config : Config) (decoded : Option SubmitTaskRequest) (now : Time) :
    State → Except HttpError Task × State :=
  callService .badRequest (fun req => TaskService.submit config req now) decoded

def handleCompleteTask (config : Config) (taskID : Bytes) (decoded : Option CompleteTaskRequest)
    (now : Time) :
    State → Except HttpError Task × State :=
  callService .notFound (fun req => TaskService.complete config taskID req now) decoded

def handleStatus (config : Config) (now : Time) (state : State) : StatusResponse × State :=
  overview config now state

def handleGetTask (taskID : Bytes) (state : State) : Except HttpError Task :=
  match Scheduler.getTask taskID state with
  | none => .error .taskNotFound
  | some task => .ok task

inductive Submission where
  | http (req : SubmitTaskRequest)
  | grpc (spec : TaskSpec)

namespace Submission

def request : Submission → SubmitTaskRequest
  | .http req => req
  | .grpc spec => modelReq spec

def perform (config : Config) (now : Time) (state : State) : Submission → State
  | .http req => (handleSubmitTask config (some req) now state).2
  | .grpc spec => (submitTask config (some spec) now state).2

def Accepted (submission : Submission) : Prop :=
  submission.request.model ≠ [] ∧ submission.request.operation ≠ []

theorem Accepted.submits {submission : Submission} (accepted : submission.Accepted) (now : Time) :
    (Section.submit submission.request now).submits = true := by
  simp [Section.submits,accepted.1,accepted.2]

/-- Through either front end a submission runs the same two sections. -/
theorem perform_run (config : Config) (now : Time) (state : State) (submission : Submission)
    (accepted : submission.Accepted) :
    submission.perform config now state =
      exec config [.submit submission.request now,.dispatchPending now] state := by
  rw [← (TaskService.submit_run config submission.request now state (accepted.submits now)).1]
  cases submission with
  | http req => exact callService_state _ _ req state
  | grpc spec =>
    simp only [perform,submitTask,request]
    split <;> simp_all

/-- Nothing in the record depends on the reserved key. -/
def Plain : Submission → Prop
  | .http req => req.metadata.bind (fun m => m.lookup inputSourceMetadataKey) = none
  | .grpc spec => spec.input.bind (·.source) = none

end Submission

/-- What the two reads of a task should have in common. -/
structure Agree (submission : Submission) (task : Task) (info : TaskInfo) : Prop where
  metadata : ∀ key, task.metadata.bind (fun m => m.lookup key) =
    info.spec.metadata.bind (fun m => m.lookup key)
  source : ∀ req, submission = .http req → info.spec.input =
    some ⟨some (.payloadRef req.payloadRef)⟩

theorem shown_metadata_iff (task : Task) :
    (∀ key, (cloneTask task).metadata.bind (fun m => m.lookup key) =
      (toTaskInfo (cloneTask task)).spec.metadata.bind (fun m => m.lookup key)) ↔
      task.metadata.bind (fun m => m.lookup inputSourceMetadataKey) = none := by
  have shown (key : Bytes) : (toTaskInfo (cloneTask task)).spec.metadata.bind (fun m => m.lookup key) =
      if key = inputSourceMetadataKey then none else task.metadata.bind (fun m => m.lookup key) := by
    rw [← lookup_cloneMetadata task.metadata]
    exact lookup_publicMetadata (cloneMetadata task.metadata) key
  constructor
  · intro same
    have reserved := same inputSourceMetadataKey
    rw [shown,if_pos rfl,cloneTask,lookup_cloneMetadata] at reserved
    exact reserved
  · intro absent key
    rw [shown,cloneTask,lookup_cloneMetadata]
    split
    next reserved => rw [reserved,absent]
    next => rfl

theorem shown_source (task : Task)
    (absent : task.metadata.bind (fun m => m.lookup inputSourceMetadataKey) = none) :
    (toTaskInfo (cloneTask task)).spec.input = some ⟨some (.payloadRef task.payloadRef)⟩ := by
  have tag : (cloneTask task).metadata.get inputSourceMetadataKey = [] := by
    rw [cloneTask,get_cloneMetadata,Metadata.get,absent]
    rfl
  simp only [toTaskInfo,toTaskSpec,tag]
  rw [if_neg (by decide),if_neg (by decide)]
  rfl

theorem Submission.request_plain_iff (submission : Submission) :
    submission.request.metadata.bind (fun m => m.lookup inputSourceMetadataKey) = none ↔
      submission.Plain := by
  cases submission with
  | http req => rfl
  | grpc spec =>
    simp only [request,Plain,modelReq]
    cases source : spec.input.bind (·.source) with
    | none => simp [lookup_publicMetadata]
    | some kind => cases kind <;> simp [Table.lookup_put]

/-- The two front ends agree on a task exactly when it was submitted over HTTP
without the reserved key, or over gRPC without an input source. -/
theorem views_agree_iff (config : Config) (run : Run) (before after : List Section)
    (submission : Submission) (now : Time)
    (split : run.sections = before ++ .submit submission.request now::after)
    (accepted : submission.Accepted) :
    ∃ task info,
      handleGetTask (nextTaskID (exec config before newMemoryStore)) (run.state config) = .ok task ∧
      Grpc.getTask (nextTaskID (exec config before newMemoryStore)) (run.state config) = .ok info ∧
      (Agree submission task info ↔ submission.Plain) := by
  obtain ⟨task,stored,content⟩ := stored_content config before after submission.request now
    (split ▸ run.bounded) (accepted.submits now)
  rw [← split] at stored
  have read : Scheduler.getTask (nextTaskID (exec config before newMemoryStore)) (run.state config) =
      some (cloneTask task) := by
    rw [Scheduler.getTask,Run.state,stored]
    rfl
  refine ⟨cloneTask task,toTaskInfo (cloneTask task),by rw [handleGetTask,read],
    by rw [Grpc.getTask,read],?_⟩
  simp only [Task.content,Prod.mk.injEq] at content
  obtain ⟨_,_,payloadRef,metadata⟩ := content
  have plain : task.metadata.bind (fun m => m.lookup inputSourceMetadataKey) = none ↔
      submission.Plain := by
    rw [← submission.request_plain_iff,metadata]
    exact Eq.congr (lookup_cloneMetadata _ _) rfl
  rw [← plain]
  constructor
  · intro agree
    exact (shown_metadata_iff task).mp agree.metadata
  · intro absent
    refine ⟨(shown_metadata_iff task).mpr absent,?_⟩
    rintro req rfl
    rw [shown_source task absent,payloadRef]
    rfl

def httpSubmission (metadata : Metadata) : Submission :=
  .http ⟨utf8 "llama",utf8 "generate",utf8 "payload-1",metadata⟩

def submissionRun (submission : Submission) : Run where
  sections := [] ++ .submit submission.request 2::[.dispatchPending 2]
  bounded := by
    have few : submissions ([] ++ .submit submission.request 2::[.dispatchPending 2]) ≤ 2 :=
      List.countP_le_length
    omega

theorem views_agree_iff_http :
    ∃ task info,
      handleGetTask (utf8 "task-000001")
        ((submissionRun (httpSubmission none)).state defaultConfig) = .ok task ∧
      Grpc.getTask (utf8 "task-000001")
        ((submissionRun (httpSubmission none)).state defaultConfig) = .ok info ∧
      Agree (httpSubmission none) task info := by
  obtain ⟨task,info,http,grpc,agree⟩ := views_agree_iff defaultConfig
    (submissionRun (httpSubmission none)) [] _ (httpSubmission none) 2 rfl ⟨by decide,by decide⟩
  exact ⟨task,info,http,grpc,agree.mpr rfl⟩

/-- A prompt sent over gRPC shows its tag over HTTP, and a tag sent over HTTP turns
a payload reference into a prompt. -/
theorem views_disagree :
    (¬ ∀ submission : Submission, submission.Accepted → ∀ task info,
      handleGetTask (utf8 "task-000001") ((submissionRun submission).state defaultConfig) = .ok task →
      Grpc.getTask (utf8 "task-000001") ((submissionRun submission).state defaultConfig) = .ok info →
      ∀ key, task.metadata.bind (fun m => m.lookup key) =
        info.spec.metadata.bind (fun m => m.lookup key)) ∧
    ¬ ∀ req : SubmitTaskRequest, req.model ≠ [] → req.operation ≠ [] → ∀ info,
      Grpc.getTask (utf8 "task-000001") ((submissionRun (.http req)).state defaultConfig) = .ok info →
      info.spec.input = some ⟨some (.payloadRef req.payloadRef)⟩ := by
  constructor
  · intro same
    have shown := same (.grpc promptSpec) ⟨by decide,by decide⟩ _ _ rfl rfl inputSourceMetadataKey
    exact absurd shown (by decide)
  · intro same
    have shown := same ⟨utf8 "llama",utf8 "generate",utf8 "payload-1",
      some ((∅ : Table Bytes Bytes).put inputSourceMetadataKey inputSourcePrompt)⟩ (by decide)
        (by decide) _ rfl
    exact absurd shown (by decide)

end RdmaPlatform.Scheduler.FrontEnds
