import RdmaPlatform.Worker.Node
import RdmaPlatform.Library.Transition

/-! What a heartbeat says against what was the case. The run of a node is watched: the
contents that `active_task_ids_` has had since the heartbeat in progress began, and those that
its two arguments were read from, are recorded and go with the heartbeat when it is sent. The
arguments are read one after the other, in either order. -/
namespace RdmaPlatform.Worker
open Library

/-- Who sends a heartbeat; the timer after `runningTaskCount` read the contents `counted` and
`snapshotActiveTaskIDs` the contents `listed`. -/
inductive Origin where
  | timer (counted listed : List Bytes)
  | stop
  deriving DecidableEq

/-- A heartbeat that was sent: its two arguments, its text, and the contents of
`active_task_ids_` from its begin to its transmission. -/
structure Heartbeat where
  origin : Origin
  runningTasks : Int32
  activeTaskIDs : List Bytes
  body : Bytes
  moments : List (List Bytes)
  deriving DecidableEq

/-- The count is that of the list, and the list was the contents at one moment. -/
def Heartbeat.Truthful (heartbeat : Heartbeat) : Prop :=
  heartbeat.runningTasks.toInt = heartbeat.activeTaskIDs.length ∧
    heartbeat.activeTaskIDs ∈ heartbeat.moments
  deriving Decidable

/-- `counted` and `listed` are what the heartbeat in progress has read, once it has. -/
structure Watch where
  node : Node
  moments : List (List Bytes)
  counted : List Bytes
  listed : List Bytes
  closing : Bool
  sent : List Heartbeat

def Watch.start (id address : Bytes) (threads : Nat) : Watch :=
  ⟨Node.start id address threads,[[]],[],[],false,[]⟩

/-- `beginLast` is the call of `sendHeartbeat` in `stop`, after the timer was joined. -/
inductive Move where
  | handle (task : Task)
  | work (inner : Local)
  | postResult (consumer : Nat)
  | endBeat
  | beginLast
  | silence

def Watch.advance (watch : Watch) (next : Node) : Watch :=
  {watch with node := next,moments := watch.moments ++ [next.activeTaskIds]}

/-- What is recorded of a step of the process. -/
def Watch.work (watch : Watch) (next : Node) : Local → Watch
  | .beginBeat => {watch with node := next,moments := [next.activeTaskIds],counted := [],listed := []}
  | .countRunning => {watch.advance next with counted := watch.node.activeTaskIds}
  | .snapshotActive => {watch.advance next with listed := watch.node.activeTaskIds}
  | _ => watch.advance next

theorem Watch.work_node (watch : Watch) (next : Node) (inner : Local) :
    (watch.work next inner).node = next ∧ (watch.work next inner).closing = watch.closing := by
  cases inner <;> exact ⟨rfl,rfl⟩

def Watch.step (watch : Watch) : Move → Option Watch
  | .handle task =>
    if watch.node.acceptor = .idle ∧ watch.node.phase ≠ .closed ∧ watch.node.phase ≠ .drained then
      some (watch.advance (Worker.handle task watch.node))
    else none
  | .work inner => (watch.node.step inner).map (fun next => watch.work next inner)
  | .postResult index => (Worker.postResult index watch.node).map (fun posted => watch.advance posted.2)
  | .endBeat =>
    match watch.node.beat with
    | some ⟨some count,some ids⟩ =>
      (Worker.endBeat watch.node).map (fun posted => {watch with
        node := posted.2
        sent := watch.sent ++ [⟨.timer watch.counted watch.listed,count,ids,posted.1,watch.moments⟩]})
    | _ => none
  | .beginLast =>
    if watch.node.phase = .flagged ∧ watch.node.beat = none ∧ watch.closing = false then
      some {watch with moments := [watch.node.activeTaskIds],closing := true}
    else none
  | .silence =>
    if watch.closing then
      (Worker.silence watch.node).map (fun posted => {watch with
        node := posted.2
        sent := watch.sent ++ [⟨.stop,0,[],posted.1,watch.moments⟩]})
    else none

/-- What the heartbeat in progress has read so far is as recorded. -/
structure Beat.Read (moments : List (List Bytes)) (counted listed : List Bytes) (beat : Beat) :
    Prop where
  counted : ∀ count ∈ beat.runningTasks, counted ∈ moments ∧ count = Int32.ofNat counted.length
  listed : ∀ ids ∈ beat.activeTaskIDs, listed ∈ moments ∧ ids = listed

theorem Beat.Read.mono {moments more : List (List Bytes)} {counted listed : List Bytes}
    {beat : Beat} (read : beat.Read moments counted listed) (grown : moments ⊆ more) :
    beat.Read more counted listed where
  counted count present := (read.counted count present).imp_left (grown ·)
  listed ids present := (read.listed ids present).imp_left (grown ·)

theorem beginBeat_read {node next : Node} (taken : beginBeat node = some next)
    (moments : List (List Bytes)) (counted listed : List Bytes) :
    ∀ beat ∈ next.beat, beat.Read moments counted listed := by
  simp only [beginBeat] at taken
  split at taken <;> cases taken
  intro beat present
  cases present
  exact ⟨by simp,by simp⟩

/-- Only the three steps of a heartbeat change it. -/
theorem step_beat {node next : Node} {inner : Local} (taken : node.step inner = some next)
    (other : inner ≠ .beginBeat ∧ inner ≠ .countRunning ∧ inner ≠ .snapshotActive) :
    next.beat = node.beat := by
  cases inner with
  | beginBeat => exact absurd rfl other.1
  | countRunning => exact absurd rfl other.2.1
  | snapshotActive => exact absurd rfl other.2.2
  | _ =>
    simp only [Node.step,insertTask,pushTask,refuseTask,checkRunning,popTask,startTask,
      completeTask,endReport,finishReported,flagStop,closeTransport,stopQueue] at taken
    (repeat' split at taken) <;> cases taken <;> rfl

/-- What a sent heartbeat says, and exactly when that is the truth. -/
def Heartbeat.Reported (id : Bytes) (heartbeat : Heartbeat) : Prop :=
  heartbeat.body = heartbeatBody id heartbeat.runningTasks heartbeat.activeTaskIDs ∧
  match heartbeat.origin with
  | .timer counted listed => counted ∈ heartbeat.moments ∧ listed ∈ heartbeat.moments ∧
    heartbeat.runningTasks = Int32.ofNat counted.length ∧ heartbeat.activeTaskIDs = listed ∧
    (heartbeat.Truthful ↔ (Int32.ofNat counted.length).toInt = listed.length) ∧
    (counted.length < 2^31 → (heartbeat.Truthful ↔ counted.length = listed.length))
  | .stop => heartbeat.runningTasks = 0 ∧ heartbeat.activeTaskIDs = [] ∧
    (heartbeat.Truthful ↔ [] ∈ heartbeat.moments)

theorem reported_timer {id : Bytes} {count : Int32} {ids counted listed : List Bytes}
    {moments : List (List Bytes)} (read : Beat.Read moments counted listed ⟨some count,some ids⟩) :
    Heartbeat.Reported id ⟨.timer counted listed,count,ids,heartbeatBody id count ids,moments⟩ := by
  obtain ⟨inside,rfl⟩ := read.listed ids rfl
  obtain ⟨before,rfl⟩ := read.counted count rfl
  have exact_ : Heartbeat.Truthful ⟨.timer counted ids,Int32.ofNat counted.length,ids,
      heartbeatBody id (Int32.ofNat counted.length) ids,moments⟩ ↔
        (Int32.ofNat counted.length).toInt = ids.length :=
    ⟨fun truthful => truthful.1,fun same => ⟨same,inside⟩⟩
  refine ⟨rfl,before,inside,rfl,rfl,exact_,fun small => ?_⟩
  rw [exact_,Int32.toInt_ofNat_of_lt small,Int.ofNat_inj]

theorem reported_stop (id : Bytes) (moments : List (List Bytes)) :
    Heartbeat.Reported id ⟨.stop,0,[],heartbeatBody id 0 [],moments⟩ :=
  ⟨rfl,rfl,rfl,fun truthful => truthful.2,fun empty => ⟨rfl,empty⟩⟩

structure Watch.Sound (id : Bytes) (watch : Watch) : Prop where
  named : watch.node.id = id
  current : watch.node.activeTaskIds ∈ watch.moments
  read : ∀ beat ∈ watch.node.beat, beat.Read watch.moments watch.counted watch.listed
  reported : ∀ heartbeat ∈ watch.sent, heartbeat.Reported id

theorem Watch.Sound.advance {id : Bytes} {watch : Watch} {next : Node} (sound : watch.Sound id)
    (named : next.id = watch.node.id) (same : next.beat = watch.node.beat) :
    (watch.advance next).Sound id where
  named := named.trans sound.named
  current := List.mem_append_right _ (List.mem_singleton.mpr rfl)
  read := fun beat present => (sound.read beat (same ▸ present)).mono (List.subset_append_left _ _)
  reported := sound.reported

/-- One of the two arguments of a heartbeat is read, or neither. -/
theorem Watch.Sound.work {id : Bytes} {watch : Watch} {next : Node} {inner : Local}
    (sound : watch.Sound id) (taken : watch.node.step inner = some next) :
    (watch.work next inner).Sound id := by
  have named := (Node.step_id taken).trans sound.named
  have grown : watch.moments ⊆ (watch.advance next).moments := List.subset_append_left _ _
  have current : next.activeTaskIds ∈ (watch.advance next).moments :=
    List.mem_append_right _ (List.mem_singleton.mpr rfl)
  cases inner with
  | beginBeat => exact ⟨named,List.mem_singleton.mpr rfl,beginBeat_read taken _ _ _,sound.reported⟩
  | countRunning =>
    refine ⟨named,current,?_,sound.reported⟩
    simp only [Node.step,countRunning] at taken
    split at taken <;> cases taken
    next ids begun =>
      intro beat present
      cases present
      refine ⟨fun count counted => ?_,((sound.read _ begun).mono grown).listed⟩
      cases counted
      exact ⟨grown sound.current,rfl⟩
  | snapshotActive =>
    refine ⟨named,current,?_,sound.reported⟩
    simp only [Node.step,snapshotActive] at taken
    split at taken <;> cases taken
    next count begun =>
      intro beat present
      cases present
      refine ⟨((sound.read _ begun).mono grown).counted,fun ids listed => ?_⟩
      cases listed
      exact ⟨grown sound.current,rfl⟩
  | _ => exact sound.advance (Node.step_id taken) (step_beat taken (by simp))

theorem Watch.Sound.send {id : Bytes} {watch : Watch} {next : Node} {heartbeat : Heartbeat}
    (sound : watch.Sound id) (named : next.id = watch.node.id)
    (same : next.activeTaskIds = watch.node.activeTaskIds)
    (read : ∀ beat ∈ next.beat, beat.Read watch.moments watch.counted watch.listed)
    (reported : heartbeat.Reported id) :
    ({watch with node := next,sent := watch.sent ++ [heartbeat]} : Watch).Sound id where
  named := named.trans sound.named
  current := by
    simp only [same]
    exact sound.current
  read := read
  reported := by
    intro other member
    rcases List.mem_append.mp member with earlier | now
    · exact sound.reported other earlier
    · rw [List.mem_singleton.mp now]
      exact reported

theorem Watch.step_sound {id : Bytes} {watch next : Watch} {move : Move} (sound : watch.Sound id)
    (taken : watch.step move = some next) : next.Sound id := by
  cases move with
  | handle task =>
    simp only [step] at taken
    split at taken <;> cases taken
    refine sound.advance ?_ ?_
    · unfold Worker.handle
      split <;> rfl
    · unfold Worker.handle
      split <;> rfl
  | work inner =>
    obtain ⟨after,moved,rfl⟩ := Option.map_eq_some_iff.mp taken
    exact sound.work moved
  | postResult index =>
    obtain ⟨⟨result,after⟩,moved,rfl⟩ := Option.map_eq_some_iff.mp taken
    obtain ⟨_,rfl⟩ := postResult_inv moved
    exact sound.advance rfl rfl
  | endBeat =>
    simp only [step] at taken
    split at taken
    next count ids begun =>
      have posted : Worker.endBeat watch.node =
          some (heartbeatBody watch.node.id count ids,{watch.node with beat := none}) := by
        simp only [Worker.endBeat,begun]
      rw [posted,sound.named] at taken
      cases taken
      exact sound.send rfl rfl (by simp) (reported_timer (sound.read _ begun))
    next => cases taken
  | beginLast =>
    simp only [step] at taken
    split at taken <;> cases taken
    next quiet =>
      refine ⟨sound.named,List.mem_singleton.mpr rfl,?_,sound.reported⟩
      simp [quiet.2.1]
  | silence =>
    simp only [step] at taken
    split at taken
    next =>
      obtain ⟨⟨body,after⟩,moved,rfl⟩ := Option.map_eq_some_iff.mp taken
      simp only [Worker.silence] at moved
      split at moved <;> cases moved
      refine sound.send rfl rfl sound.read ?_
      rw [← sound.named]
      exact reported_stop watch.node.id watch.moments
    next => cases taken

theorem start_watched (id address : Bytes) (threads : Nat) :
    (Watch.start id address threads).Sound id where
  named := rfl
  current := List.mem_singleton.mpr rfl
  read := by simp [Watch.start,Node.start]
  reported := by simp [Watch.start]

/-- Over every run, the count of a heartbeat of the timer is the number of active tasks when
`runningTaskCount` read them, and its list the active tasks when `snapshotActiveTaskIDs` did. It
is truthful exactly if the number, as an `int`, was the same at the two reads; the heartbeat of
`stop` is truthful exactly if no task was active at some moment of it. -/
theorem heartbeat_truthful_iff (id address : Bytes) (threads : Nat) (moves : List Move)
    (final : Watch)
    (ran : Transition.run Watch.step moves (Watch.start id address threads) = some final)
    (heartbeat : Heartbeat) (sent : heartbeat ∈ final.sent) :
    heartbeat.Reported id :=
  (Transition.run_kept (fun _ _ _ sound taken => Watch.step_sound sound taken) moves _ final
    (start_watched id address threads) ran).reported heartbeat sent

/-- A consumer takes the only task, and then `late` happens. -/
def countedTask (late : List Move) : List Move :=
  [.handle ⟨utf8 "task-000001",utf8 "hello"⟩,.work .insertTask,.work .pushTask,.work (.checkRunning 0),
    .work (.popTask 0)] ++ late

def steadyBeat : List Move :=
  countedTask [.work .beginBeat,.work .countRunning,.work .snapshotActive,.endBeat]

/-- The task finishes after it was counted and before the list is made. -/
def tornBeat : List Move :=
  countedTask [.work (.startTask 0),.work (.completeTask 0 none),.postResult 0,.work (.endReport 0),
    .work .beginBeat,.work .countRunning,.work (.finishReported 0),.work .snapshotActive,.endBeat]

/-- The worker is stopped while it runs a task. -/
def stoppedBusy : List Move := countedTask [.work (.startTask 0),.work .flagStop,.beginLast,.silence]

def watchedSends (moves : List Move) : Option (List Heartbeat) :=
  (Transition.run Watch.step moves (Watch.start (utf8 "w") (utf8 "127.0.0.1:9001") 1)).map
    (fun final => final.sent)

theorem heartbeat_truthful_iff_steady : ∃ heartbeat, watchedSends steadyBeat = some [heartbeat] ∧
    heartbeat.origin = .timer [utf8 "task-000001"] [utf8 "task-000001"] ∧ heartbeat.Truthful := by
  let heartbeat : Heartbeat := ⟨.timer [utf8 "task-000001"] [utf8 "task-000001"],1,[utf8 "task-000001"],
    heartbeatBody (utf8 "w") 1 [utf8 "task-000001"],
      [[utf8 "task-000001"],[utf8 "task-000001"],[utf8 "task-000001"]]⟩
  have sends : watchedSends steadyBeat = some [heartbeat] := by decide +kernel
  obtain ⟨final,ran,sent⟩ := Option.map_eq_some_iff.mp sends
  have reported := heartbeat_truthful_iff _ _ _ _ final ran heartbeat
    (by rw [sent]; exact List.mem_singleton.mpr rfl)
  obtain ⟨_,_,_,_,_,truthful,_⟩ := reported
  exact ⟨heartbeat,sends,rfl,truthful.mpr rfl⟩

theorem torn_heartbeat_lies :
    (watchedSends tornBeat).map (fun sent => sent.map (fun heartbeat =>
      (heartbeat.body,decide heartbeat.Truthful))) =
        some [(utf8 "\x7b\"id\":\"w\",\"running_tasks\":1,\"status\":\"busy\"\x7d",false)] ∧
    (watchedSends stoppedBusy).map (fun sent => sent.map (fun heartbeat =>
      (heartbeat.moments,heartbeat.body,decide heartbeat.Truthful))) =
        some [([[utf8 "task-000001"]],
          utf8 "\x7b\"id\":\"w\",\"running_tasks\":0,\"status\":\"ready\"\x7d",false)] := by
  decide +kernel

end RdmaPlatform.Worker
