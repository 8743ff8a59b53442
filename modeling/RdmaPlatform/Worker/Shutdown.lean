import RdmaPlatform.Worker.Heartbeats
import RdmaPlatform.Library.Positions

/-! The end of a worker: `WorkerNode::stop`. The flag is lowered, the timer joined, a last
heartbeat sent, the accept thread joined and the queue stopped; then the consumers leave
their loops. Apart from taking in a task and beginning a heartbeat, every step of a worker
uses up an effort that is bounded, so it comes to rest, and when it stops, to its end. Network
calls are taken to return: a heartbeat and a report wait for their answer, and the accept thread
for the rest of a line, as long as the other side likes. -/
namespace RdmaPlatform.Worker
open Library

def Acceptor.effort : Acceptor → Nat
  | .idle => 0
  | .refused _ => 1
  | .inserted _ => 8
  | .received _ => 9

def Consumer.effort : Consumer → Nat
  | .exited => 0
  | .waiting => 1
  | .idle => 2
  | .reported _ => 3
  | .awaiting _ => 4
  | .reporting _ => 5
  | .executing _ => 6
  | .popped _ => 7

def Beat.effort (beat : Beat) : Nat :=
  1 + (if beat.runningTasks = none then 1 else 0) + (if beat.activeTaskIDs = none then 1 else 0)

def Phase.effort : Phase → Nat
  | .started => 4
  | .flagged => 3
  | .silenced => 2
  | .closed => 1
  | .drained => 0

/-- The most steps that a worker still takes without a new task or heartbeat. -/
def Node.effort (node : Node) : Nat :=
  node.acceptor.effort + 7 * node.queue.length + (node.consumers.map Consumer.effort).sum +
    (node.beat.map Beat.effort).getD 0 + node.phase.effort

/-- The steps of the accept thread and of the consumers. -/
def Local.serves : Local → Bool
  | .insertTask | .pushTask | .refuseTask | .checkRunning _ | .popTask _ | .startTask _
  | .completeTask _ _
  | .endReport _ | .finishReported _ => true
  | .beginBeat | .countRunning | .snapshotActive | .flagStop | .closeTransport | .stopQueue => false

section Effort
variable {node next : Node} {index : Nat}

theorem setConsumer_effort {old new : Consumer} (at_ : node.consumers[index]? = some old)
    (less : new.effort < old.effort) : (node.setConsumer index new).effort < node.effort := by
  have moved := sum_map_set Consumer.effort node.consumers index old new at_
  simp only [Node.effort,Node.setConsumer]
  omega

theorem step_effort {inner : Local} (taken : node.step inner = some next) (quiet : inner ≠ .beginBeat) :
    next.effort < node.effort := by
  cases inner with
  | insertTask =>
    simp only [Node.step,insertTask] at taken
    split at taken
    next task at_ => split at taken <;> cases taken <;> simp [Node.effort,at_,Acceptor.effort]
    next => cases taken
  | pushTask =>
    simp only [Node.step,pushTask] at taken
    split at taken
    next task at_ =>
      split at taken <;> cases taken
      · simp [Node.effort,at_,Acceptor.effort]
      · simp only [Node.effort,at_,Acceptor.effort,List.length_append,List.length_singleton]
        omega
    next => cases taken
  | refuseTask =>
    simp only [Node.step,refuseTask] at taken
    split at taken
    next task at_ =>
      cases taken
      simp [Node.effort,finishTask,at_,Acceptor.effort]
    next => cases taken
  | checkRunning index =>
    simp only [Node.step,checkRunning] at taken
    split at taken
    next at_ =>
      cases taken
      exact setConsumer_effort at_ (by split <;> simp [Consumer.effort])
    next => cases taken
  | popTask index =>
    simp only [Node.step,popTask] at taken
    split at taken
    next at_ =>
      split at taken
      next =>
        cases taken
        exact setConsumer_effort at_ Nat.one_pos
      next =>
        split at taken
        next => cases taken
        next task rest front =>
          cases taken
          have moved := sum_map_set Consumer.effort node.consumers index .waiting (.popped task) at_
          simp only [Consumer.effort] at moved
          simp only [Node.effort,Node.setConsumer,front,List.length_cons]
          omega
    next => cases taken
  | startTask index | completeTask index thrown | endReport index | finishReported index =>
    simp only [Node.step,startTask,completeTask,endReport,finishReported] at taken
    split at taken
    next at_ =>
      cases taken
      exact setConsumer_effort at_ (by simp [Consumer.effort])
    next => cases taken
  | beginBeat => exact absurd rfl quiet
  | countRunning =>
    simp only [Node.step,countRunning] at taken
    split at taken
    next ids begun =>
      cases taken
      simp [Node.effort,begun,Beat.effort]
    next => cases taken
  | snapshotActive =>
    simp only [Node.step,snapshotActive] at taken
    split at taken
    next count begun =>
      cases taken
      simp [Node.effort,begun,Beat.effort]
    next => cases taken
  | flagStop =>
    simp only [Node.step,flagStop] at taken
    split at taken
    next place =>
      cases taken
      simp [Node.effort,place,Phase.effort]
    next => cases taken
  | closeTransport =>
    simp only [Node.step,closeTransport] at taken
    split at taken
    next both =>
      cases taken
      simp [Node.effort,both.1,Phase.effort]
    next => cases taken
  | stopQueue =>
    simp only [Node.step,stopQueue] at taken
    split at taken
    next place =>
      cases taken
      simp [Node.effort,place,Phase.effort]
    next => cases taken

theorem step_begun {inner : Local} (taken : node.step inner = some next)
    (begun : node.phase ≠ .started) :
    next.phase ≠ .started := by
  cases inner <;>
    simp only [Node.step,insertTask,pushTask,refuseTask,checkRunning,popTask,startTask,
      completeTask,endReport,finishReported,beginBeat,countRunning,snapshotActive,flagStop,
      closeTransport,stopQueue] at taken <;>
    (repeat' split at taken) <;> cases taken <;> first | exact begun | exact Phase.noConfusion

theorem postResult_effort {result : TaskResult} (taken : postResult index node = some (result,next)) :
    next.effort < node.effort := by
  obtain ⟨at_,rfl⟩ := postResult_inv taken
  exact setConsumer_effort at_ (by simp [Consumer.effort])

theorem acceptor_moves (busy : node.acceptor ≠ .idle) :
    ∃ inner next, (inner.serves = true ∧ inner.throws = none) ∧ node.step inner = some next := by
  cases place : node.acceptor with
  | idle => exact absurd place busy
  | received task =>
    by_cases known : task.id ∈ node.activeTaskIds
    · exact ⟨.insertTask,_,⟨rfl,rfl⟩,by simp only [Node.step,insertTask,place,known,if_true]; rfl⟩
    · exact ⟨.insertTask,_,⟨rfl,rfl⟩,by simp only [Node.step,insertTask,place,known,if_false]; rfl⟩
  | inserted task =>
    cases stopped : node.stopped with
    | true => exact ⟨.pushTask,_,⟨rfl,rfl⟩,by simp only [Node.step,pushTask,place,stopped]; rfl⟩
    | false => exact ⟨.pushTask,_,⟨rfl,rfl⟩,by simp only [Node.step,pushTask,place,stopped]; rfl⟩
  | refused task => exact ⟨.refuseTask,_,⟨rfl,rfl⟩,by simp only [Node.step,refuseTask,place]; rfl⟩

/-- A consumer that neither waits nor has ended can go on, without an exception. -/
theorem consumer_moves {consumer : Consumer} (at_ : node.consumers[index]? = some consumer)
    (busy : consumer ≠ .waiting) (alive : consumer ≠ .exited) :
    (∃ inner next, (inner.serves = true ∧ inner.throws = none) ∧ node.step inner = some next) ∨
      ∃ result next, postResult index node = some (result,next) := by
  cases consumer with
  | waiting => exact absurd rfl busy
  | exited => exact absurd rfl alive
  | idle => exact .inl ⟨.checkRunning index,_,⟨rfl,rfl⟩,
    by simp only [Node.step,checkRunning,at_]; rfl⟩
  | popped task => exact .inl ⟨.startTask index,_,⟨rfl,rfl⟩,
    by simp only [Node.step,startTask,at_]; rfl⟩
  | executing task => exact .inl ⟨.completeTask index none,_,⟨rfl,rfl⟩,
    by simp only [Node.step,completeTask,at_]; rfl⟩
  | reporting result => exact .inr ⟨result,_,by simp only [postResult,at_]; rfl⟩
  | awaiting taskID => exact .inl ⟨.endReport index,_,⟨rfl,rfl⟩,
    by simp only [Node.step,endReport,at_]; rfl⟩
  | reported taskID => exact .inl ⟨.finishReported index,_,⟨rfl,rfl⟩,
    by simp only [Node.step,finishReported,at_]; rfl⟩

end Effort

/-- What holds in each phase of `stop`; `closing` if the last heartbeat was begun. -/
def Phase.Fits (node : Node) (closing : Bool) : Phase → Prop
  | .started => closing = false
  | .flagged => node.running = false ∧ (closing = true → node.beat = none)
  | .silenced => node.running = false ∧ closing = true ∧ node.beat = none
  | .closed => node.running = false ∧ closing = true ∧ node.beat = none ∧ node.acceptor = .idle
  | .drained =>
    node.running = false ∧ closing = true ∧ node.beat = none ∧ node.acceptor = .idle ∧
    node.stopped = true

theorem Phase.Fits.congr {phase : Phase} {node next : Node} {closing : Bool}
    (fits : phase.Fits node closing) (running : next.running = node.running)
    (beat : next.beat = node.beat) (stopped : next.stopped = node.stopped)
    (idle : node.acceptor = .idle → next.acceptor = .idle) : phase.Fits next closing := by
  cases phase with
  | started => exact fits
  | flagged | silenced => simpa only [Phase.Fits,running,beat] using fits
  | closed =>
    simp only [Phase.Fits,running,beat] at fits ⊢
    exact ⟨fits.1,fits.2.1,fits.2.2.1,idle fits.2.2.2⟩
  | drained =>
    simp only [Phase.Fits,running,beat,stopped] at fits ⊢
    exact ⟨fits.1,fits.2.1,fits.2.2.1,idle fits.2.2.2.1,fits.2.2.2.2⟩

theorem Phase.Fits.stopped {phase : Phase} {node : Node} {closing : Bool}
    (fits : phase.Fits node closing) (begun : phase ≠ .started) : node.running = false := by
  cases phase with
  | started => exact absurd rfl begun
  | flagged | silenced | closed | drained => exact fits.1

/-- The accept thread and the consumers leave the flags, the heartbeat and the phase alone. -/
theorem serves_fixed {node next : Node} {inner : Local} (serves : inner.serves = true)
    (taken : node.step inner = some next) :
    next.phase = node.phase ∧ next.running = node.running ∧ next.beat = node.beat ∧
      next.stopped = node.stopped ∧ (node.acceptor = .idle → next.acceptor = .idle) := by
  cases inner with
  | insertTask | pushTask | refuseTask | checkRunning | popTask | startTask | completeTask | endReport
  | finishReported =>
    simp only [Node.step,insertTask,pushTask,refuseTask,checkRunning,popTask,startTask,
      completeTask,endReport,finishReported] at taken
    (repeat' split at taken) <;> cases taken <;> simp_all [Node.setConsumer,finishTask]
  | beginBeat | countRunning | snapshotActive | flagStop | closeTransport | stopQueue => cases serves

def Watch.Fits (watch : Watch) : Prop := watch.node.phase.Fits watch.node watch.closing

/-- A step of the process between the heartbeats keeps what the phase says. -/
theorem step_fits {node next : Node} {inner : Local} {closing : Bool}
    (fits : node.phase.Fits node closing) (taken : node.step inner = some next) :
    next.phase.Fits next closing := by
  cases serves : inner.serves with
  | true =>
    obtain ⟨phase,running,beat,stopped,idle⟩ := serves_fixed serves taken
    rw [phase]
    exact fits.congr running beat stopped idle
  | false =>
    cases inner with
    | insertTask | pushTask | refuseTask | checkRunning | popTask | startTask | completeTask | endReport
    | finishReported => cases serves
    | beginBeat =>
      simp only [Node.step,beginBeat] at taken
      split at taken
      next both =>
        cases taken
        -- A heartbeat begins only while the flag is up.
        by_cases begun : node.phase = .started
        · simp only [begun] at fits ⊢
          exact fits
        · exact absurd ((fits.stopped begun).symm.trans both.2) Bool.noConfusion
      next => cases taken
    | countRunning | snapshotActive =>
      simp only [Node.step,countRunning,snapshotActive] at taken
      split at taken
      next begun =>
        cases taken
        cases place : node.phase with
        | started => simpa only [place,Phase.Fits] using fits
        | flagged =>
          simp only [place,Phase.Fits,begun] at fits ⊢
          exact ⟨fits.1,fun closing => absurd (fits.2 closing) (by simp)⟩
        | silenced | closed | drained => simp [place,Phase.Fits,begun] at fits
      next => cases taken
    | flagStop =>
      simp only [Node.step,flagStop] at taken
      split at taken
      next place =>
        cases taken
        simp only [place] at fits
        exact ⟨rfl,fun closing => absurd (fits.symm.trans closing) Bool.noConfusion⟩
      next => cases taken
    | closeTransport =>
      simp only [Node.step,closeTransport] at taken
      split at taken
      next both =>
        cases taken
        simp only [both.1] at fits
        exact ⟨fits.1,fits.2.1,fits.2.2,both.2⟩
      next => cases taken
    | stopQueue =>
      simp only [Node.step,stopQueue] at taken
      split at taken
      next place =>
        cases taken
        simp only [place] at fits
        exact ⟨fits.1,fits.2.1,fits.2.2.1,fits.2.2.2,rfl⟩
      next => cases taken

def Move.hands : Move → Bool
  | .handle _ => true
  | _ => false

/-- What one move of a watched worker is to its node. -/
inductive Moves (watch : Watch) : Move → Watch → Prop
  | handle (task next) (free : watch.node.acceptor = .idle)
      (early : watch.node.phase ≠ .closed ∧ watch.node.phase ≠ .drained)
        (same : next.closing = watch.closing)
      (node : next.node = Worker.handle task watch.node) : Moves watch (.handle task) next
  | work (inner next) (taken : watch.node.step inner = some next.node)
      (same : next.closing = watch.closing) :
      Moves watch (.work inner) next
  | postResult (index result next)
      (taken : Worker.postResult index watch.node = some (result,next.node))
      (same : next.closing = watch.closing) : Moves watch (.postResult index) next
  | endBeat (count ids next) (begun : watch.node.beat = some ⟨some count,some ids⟩)
      (node : next.node = {watch.node with beat := none}) (same : next.closing = watch.closing) :
      Moves watch .endBeat next
  | beginLast (next) (place : watch.node.phase = .flagged) (quiet : watch.node.beat = none)
      (first : watch.closing = false) (node : next.node = watch.node) (now : next.closing = true) :
      Moves watch .beginLast next
  | silence (next) (place : watch.node.phase = .flagged) (quiet : watch.node.beat = none)
      (begun : watch.closing = true) (node : next.node = {watch.node with phase := .silenced})
      (same : next.closing = watch.closing) : Moves watch .silence next

theorem Watch.step_moves {watch next : Watch} {move : Move} (taken : watch.step move = some next) :
    Moves watch move next := by
  cases move with
  | handle task =>
    simp only [Watch.step] at taken
    split at taken
    next guard =>
      cases taken
      exact .handle task _ guard.1 guard.2 rfl rfl
    next => cases taken
  | work inner =>
    obtain ⟨node,moved,rfl⟩ := Option.map_eq_some_iff.mp taken
    obtain ⟨node_,same⟩ := watch.work_node node inner
    exact .work inner _ (node_.symm ▸ moved) same
  | postResult index =>
    obtain ⟨⟨result,node⟩,moved,rfl⟩ := Option.map_eq_some_iff.mp taken
    exact .postResult index result _ moved rfl
  | endBeat =>
    simp only [Watch.step] at taken
    split at taken
    next count ids begun =>
      obtain ⟨⟨body,node⟩,moved,rfl⟩ := Option.map_eq_some_iff.mp taken
      exact .endBeat count ids _ begun (endBeat_inv moved) rfl
    next => cases taken
  | beginLast =>
    simp only [Watch.step] at taken
    split at taken
    next guard =>
      cases taken
      exact .beginLast _ guard.1 guard.2.1 guard.2.2 rfl rfl
    next => cases taken
  | silence =>
    simp only [Watch.step] at taken
    split at taken
    next begun =>
      obtain ⟨⟨body,node⟩,moved,rfl⟩ := Option.map_eq_some_iff.mp taken
      have same := silence_inv moved
      unfold Worker.silence at moved
      split at moved
      next guard => exact .silence _ guard.1 guard.2 begun same rfl
      next => cases moved
    next => cases taken

theorem Watch.step_fits {watch next : Watch} {move : Move} (fits : watch.Fits)
    (taken : watch.step move = some next) :
    next.Fits := by
  unfold Watch.Fits at fits ⊢
  cases Watch.step_moves taken with
  | handle task _ free early same node =>
    rw [node,same]
    unfold Worker.handle
    split
    next runs =>
      by_cases begun : watch.node.phase = .started
      · simp only [begun] at fits ⊢
        exact fits
      · exact absurd ((fits.stopped begun).symm.trans runs) Bool.noConfusion
    next => exact fits
  | work inner _ moved same =>
    rw [same]
    exact Worker.step_fits fits moved
  | postResult index result _ moved same =>
    rw [same,(postResult_inv moved).2]
    exact fits.congr rfl rfl rfl (fun idle => idle)
  | endBeat count ids _ begun node same =>
    rw [node,same]
    cases place : watch.node.phase with
    | started => simpa only [place,Phase.Fits] using fits
    | flagged =>
      rw [place] at fits
      exact ⟨fits.1,fun _ => rfl⟩
    | silenced | closed | drained => simp [place,Phase.Fits,begun] at fits
  | beginLast _ place quiet first node now =>
    rw [node,now,place]
    rw [place] at fits
    exact ⟨fits.1,fun _ => quiet⟩
  | silence _ place quiet begun node same =>
    rw [node,same,begun]
    rw [place] at fits
    exact ⟨fits.1,rfl,quiet⟩

/-- All threads of the worker have ended. -/
structure Node.Ended (node : Node) : Prop where
  phase : node.phase = .drained
  acceptor : node.acceptor = .idle
  beat : node.beat = none
  consumers : ∀ consumer ∈ node.consumers, consumer = .exited

def Watch.effort (watch : Watch) : Nat := watch.node.effort + if watch.closing then 0 else 1

/-- Once `stop` has begun, every move uses up some effort; a task that arrives is dropped. -/
theorem Watch.step_effort {watch next : Watch} {move : Move} (fits : watch.Fits)
    (begun : watch.node.phase ≠ .started) (taken : watch.step move = some next) :
    next.node.phase ≠ .started ∧
      (move.hands = true ∧ next.node = watch.node ∨ next.effort < watch.effort) := by
  have stopped := fits.stopped begun
  unfold Watch.effort
  cases Watch.step_moves taken with
  | handle task _ free early same node =>
    rw [Worker.handle,if_neg (by simp [stopped])] at node
    rw [node]
    exact ⟨begun,.inl ⟨rfl,rfl⟩⟩
  | work inner _ moved same =>
    have quiet : inner ≠ .beginBeat := by
      rintro rfl
      simp [Node.step,beginBeat,stopped] at moved
    have less := Worker.step_effort moved quiet
    refine ⟨step_begun moved begun,.inr ?_⟩
    rw [same]
    omega
  | postResult index result _ moved same =>
    have less := postResult_effort moved
    refine ⟨?_,.inr ?_⟩
    · rw [(postResult_inv moved).2]
      exact begun
    · rw [same]
      omega
  | endBeat count ids _ begun_ node same =>
    rw [node,same]
    refine ⟨begun,.inr ?_⟩
    simp [Node.effort,begun_,Beat.effort]
  | beginLast _ place quiet first node now =>
    rw [node,now,first]
    exact ⟨begun,.inr (Nat.lt_succ_self _)⟩
  | silence _ place quiet begun_ node same =>
    rw [node,same]
    refine ⟨Phase.noConfusion,.inr ?_⟩
    simp [Node.effort,place,Phase.effort]

/-- A worker that stops can go on until all its threads have ended. -/
theorem Watch.goes_on {watch : Watch} (fits : watch.Fits) (begun : watch.node.phase ≠ .started)
    (running : ¬ watch.node.Ended) :
    ∃ move next, move.hands = false ∧ watch.step move = some next := by
  have works (inner : Local) (enabled : (watch.node.step inner).isSome = true) :
      ∃ move next, move.hands = false ∧ watch.step move = some next := by
    obtain ⟨node,taken⟩ := Option.isSome_iff_exists.mp enabled
    exact ⟨.work inner,_,rfl,by simp only [Watch.step,taken,Option.map_some]; rfl⟩
  unfold Watch.Fits at fits
  cases place : watch.node.phase with
  | started => exact absurd place begun
  | flagged =>
    rw [place] at fits
    cases beat : watch.node.beat with
    | none =>
      cases closing : watch.closing with
      | false =>
        exact ⟨.beginLast,_,rfl,by simp only [Watch.step,place,beat,closing,and_self,if_true]; rfl⟩
      | true =>
        exact ⟨.silence,_,rfl,
          by simp only [Watch.step,closing,if_true,Worker.silence,place,beat,and_self]; rfl⟩
    | some reads =>
      obtain ⟨count,ids⟩ := reads
      cases count with
      | none => exact works .countRunning (by simp [Node.step,countRunning,beat])
      | some count =>
        cases ids with
        | none => exact works .snapshotActive (by simp [Node.step,snapshotActive,beat])
        | some ids => exact ⟨.endBeat,_,rfl,by simp only [Watch.step,beat,Worker.endBeat]; rfl⟩
  | silenced =>
    by_cases free : watch.node.acceptor = .idle
    · exact works .closeTransport (by simp [Node.step,closeTransport,place,free])
    · obtain ⟨inner,next,_,taken⟩ := acceptor_moves free
      exact works inner (by rw [taken]; rfl)
  | closed => exact works .stopQueue (by simp [Node.step,stopQueue,place])
  | drained =>
    rw [place] at fits
    obtain ⟨_,_,quiet,free,stopped⟩ := fits
    have some_ : ∃ consumer ∈ watch.node.consumers, consumer ≠ .exited := by
      by_contra all
      refine running ⟨place,free,quiet,fun consumer member => ?_⟩
      by_contra alive
      exact all ⟨consumer,member,alive⟩
    obtain ⟨consumer,member,alive⟩ := some_
    obtain ⟨index,at_⟩ := List.mem_iff_getElem?.mp member
    by_cases waits : consumer = .waiting
    · subst waits
      exact works (.popTask index) (by simp [Node.step,popTask,at_,stopped])
    · rcases consumer_moves at_ waits alive with ⟨inner,next,_,taken⟩ | ⟨result,next,taken⟩
      · exact works inner (by rw [taken]; rfl)
      · exact ⟨.postResult index,_,rfl,by simp only [Watch.step,taken,Option.map_some]; rfl⟩

/-- A worker that has ended does nothing any more. -/
theorem Watch.ended_still {watch : Watch} (ended : watch.node.Ended) (fits : watch.Fits) (move : Move) :
    watch.step move = none := by
  obtain ⟨phase,acceptor,beat,consumers⟩ := ended
  have stopped := fits.stopped (by rw [phase]; exact Phase.noConfusion)
  have gone (index : Nat) : watch.node.consumers[index]? = none ∨
      watch.node.consumers[index]? = some .exited := by
    cases at_ : watch.node.consumers[index]? with
    | none => exact .inl rfl
    | some consumer => rw [consumers consumer (List.mem_of_getElem? at_)]; exact .inr rfl
  cases move with
  | handle task => simp [Watch.step,phase]
  | work inner =>
    cases inner with
    | checkRunning index | popTask index | startTask index | completeTask index thrown | endReport index
    | finishReported index =>
      rcases gone index with at_ | at_ <;>
        simp [Watch.step,Node.step,checkRunning,popTask,startTask,completeTask,endReport,
          finishReported,at_]
    | insertTask | pushTask | refuseTask =>
      simp [Watch.step,Node.step,insertTask,pushTask,refuseTask,acceptor]
    | beginBeat | countRunning | snapshotActive =>
      simp [Watch.step,Node.step,beginBeat,countRunning,snapshotActive,beat,stopped]
    | flagStop | closeTransport | stopQueue =>
      simp [Watch.step,Node.step,flagStop,closeTransport,stopQueue,phase]
  | postResult index => rcases gone index with at_ | at_ <;> simp [Watch.step,Worker.postResult,at_]
  | endBeat => simp [Watch.step,beat]
  | beginLast => simp [Watch.step,phase]
  | silence => simp [Watch.step,Worker.silence,phase]

end RdmaPlatform.Worker
