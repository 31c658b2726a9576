import DdsAbstract.Node.LoopRefinement
import DdsAbstract.Zenoh.Shutdown

namespace DdsAbstract.Zenoh
open Node.ReceiveLoop (View Stage Turn Contained Lasts)

variable {s s' t : System} {n : Nat} {a : Action} {timedOut : Bool} {outcome : HandlerOutcome}

def WorkerPc.stage : WorkerPc → Stage
  | .exited => .exited
  | .atLoop => .atLoop
  | .atQueueLock | .atPredicate | .inWait | .atRelock _ | .atFront => .receiving
  | .atDispatch incoming => .dispatching incoming.message
  | .atReport => .reporting
  | .atPendingLock incoming payload | .atFind incoming payload
  | .atStateLock incoming _ payload | .atStore incoming _ payload =>
    .replying incoming.message payload

def Dispatched.handled (d : Dispatched) : DdsIncomingMessage × HandlerOutcome :=
  (d.entry.message,d.outcome)

def System.view (n : Nat) (s : System) : View :=
  ⟨s.stopRequested,s.worker.stage,(s.dispatched.drop n).map Dispatched.handled⟩

def Unstarted (_ : System) (a : Action) : Prop := a ≠ .clearStop ∧ a ≠ .startWorker

theorem view_stage {stage : Stage} (hs : s'.stopRequested = s.stopRequested)
    (hd : s'.dispatched = s.dispatched) (hw : s'.worker.stage = stage) :
    s'.view n = { s.view n with stage := stage } := by
  rw [System.view,System.view,hs,hw,hd]

theorem view_dispatched {incoming : Queued} (present : n ≤ s.dispatched.length)
    (hs : s'.stopRequested = s.stopRequested)
    (hd : s'.dispatched = s.dispatched ++ [⟨incoming,outcome,s.opens⟩])
    (hw : s'.worker.stage = .afterDispatch incoming.message outcome.response) :
    s'.view n = { s.view n with
      stage := .afterDispatch incoming.message outcome.response
      handled := (s.view n).handled ++ [(incoming.message,outcome)] } := by
  rw [System.view,hs,hw,hd,List.drop_append_of_le_length present,List.map_append]
  rfl

theorem stage_afterDispatch (incoming : Queued) (response : Option DdsBytes) :
    (WorkerPc.afterDispatch incoming response).stage = .afterDispatch incoming.message response := by
  cases response with
  | none => rfl
  | some response =>
    cases hk : incoming.message.kind <;>
      simp only [WorkerPc.afterDispatch,Stage.afterDispatch,hk] <;> rfl

theorem worker_stage (h : s.workerStep timedOut outcome = some s')
    (hd : s'.dispatched = s.dispatched) :
    Stage.Move s.stopRequested s.worker.stage s'.worker.stage := by
  unfold System.workerStep at h
  cases hpc : s.worker <;> simp only [hpc,acquire_map_eq_some] at h
  case exited => cases h
  case atLoop =>
    obtain rfl := Option.some.inj h
    cases flag : s.stopRequested with
    | true => exact .leave rfl
    | false => exact .poll rfl
  case atQueueLock | atPendingLock | atStateLock =>
    obtain ⟨-,rfl⟩ := h
    exact .still _
  case atRelock timedOut =>
    obtain ⟨-,rfl⟩ := h
    cases timedOut <;> exact .still _
  case atPredicate =>
    split at h <;> obtain rfl := Option.some.inj h <;> exact .still _
  case inWait =>
    obtain rfl := Option.some.inj h
    exact .still _
  case atFront =>
    split at h <;> obtain rfl := Option.some.inj h
    · exact .nothing
    · exact .message _
  case atDispatch incoming =>
    obtain rfl := Option.some.inj h
    simp at hd
  case atReport =>
    obtain rfl := Option.some.inj h
    exact .report
  case atFind =>
    split at h <;> obtain rfl := Option.some.inj h
    · exact .reply _ _
    · exact .still _
  case atStore =>
    obtain rfl := Option.some.inj h
    exact .reply _ _

theorem worker_turn (present : n ≤ s.dispatched.length)
    (h : s.workerStep timedOut outcome = some s') :
    s.dispatched <+: s'.dispatched ∧ Turn (s.view n) (s'.view n) := by
  have stop := (worker_frame h).stopRequested
  have quiet (hd : s'.dispatched = s.dispatched) :
      s.dispatched <+: s'.dispatched ∧ Turn (s.view n) (s'.view n) :=
    ⟨hd ▸ List.prefix_rfl,.move _ (worker_stage h hd) (view_stage stop hd rfl)⟩
  cases worker_move h with
  | dispatch incoming was now queue dispatched callbacks =>
    refine ⟨dispatched ▸ List.prefix_append _ _,.dispatch incoming.message outcome ?_
      (view_dispatched present stop dispatched (now ▸ stage_afterDispatch _ _))⟩
    rw [System.view,was]
    rfl
  | poll was now queue dispatched callbacks => exact quiet dispatched
  | pop incoming was now queue dispatched callbacks => exact quiet dispatched
  | lockPending incoming payload was now queue dispatched callbacks => exact quiet dispatched
  | miss incoming payload was now lookup queue dispatched callbacks => exact quiet dispatched
  | find incoming payload state was now lookup queue dispatched callbacks => exact quiet dispatched
  | lockState incoming payload state was now queue dispatched callbacks => exact quiet dispatched
  | store incoming payload state was now queue dispatched callbacks => exact quiet dispatched

structure Aside (s s' : System) : Prop where
  worker : s'.worker = s.worker
  dispatched : s'.dispatched = s.dispatched
  stopRequested : s'.stopRequested = s.stopRequested ∨ s'.stopRequested = true

theorem step_aside (hC : Unstarted s a) (h : step s a = some s') :
    Aside s s' ∨ ∃ timedOut outcome, a = .worker timedOut outcome := by
  cases a with
  | arrive payload =>
    obtain rfl := Option.some.inj h
    have frame := arrive_frame (s := s) payload
    refine .inl ⟨frame.worker,frame.dispatched,.inl ?_⟩
    unfold System.arrive
    split <;> rfl
  | callback k ok =>
    have frame := callback_frame h
    exact .inl ⟨frame.worker,frame.dispatched,.inl frame.stopRequested⟩
  | worker timedOut outcome => exact .inr ⟨timedOut,outcome,rfl⟩
  | close c pick =>
    have frame := close_frame h
    exact .inl ⟨frame.worker,frame.dispatched,.inl frame.stopRequested⟩
  | openTransport o ok =>
    obtain rfl := Option.some.inj h
    obtain ⟨isOpen,openers,opens,he⟩ := openStep_fields (s := s) o ok
    exact he ▸ .inl ⟨rfl,rfl,.inl rfl⟩
  | requestStop =>
    obtain rfl := Option.some.inj h
    exact .inl ⟨rfl,rfl,.inr rfl⟩
  | clearStop => exact absurd rfl hC.1
  | startWorker => exact absurd rfl hC.2

theorem Aside.turn (h : Aside s s') : Turn (s.view n) (s'.view n) := by
  rcases h.stopRequested with same | stopped
  · refine .still ?_
    rw [System.view,System.view,same,h.worker,h.dispatched]
  · refine .stop ?_
    rw [System.view,System.view,stopped,h.worker,h.dispatched]

theorem step_turn (present : n ≤ s.dispatched.length) (hC : Unstarted s a)
    (h : step s a = some s') : s.dispatched <+: s'.dispatched ∧ Turn (s.view n) (s'.view n) := by
  rcases step_aside hC h with aside | ⟨timedOut,outcome,rfl⟩
  · exact ⟨aside.dispatched ▸ List.prefix_rfl,aside.turn⟩
  · exact worker_turn present h

structure Loops (handlers : Node.ReceiveLoop.Callback → Option Nat) (s t : System)
    (bs : List Node.ReceiveLoop.Action) (u : Node.ReceiveLoop.System) (more : List Dispatched) :
    Prop where
  dispatched : t.dispatched = s.dispatched ++ more
  handled : u.trace.filterMap Node.ReceiveLoop.Event.handles = more.map Dispatched.handled
  stopRequested : u.stopRequested = t.stopRequested
  pc : u.pc = t.worker.stage.pc
  contained : Contained handlers bs u

theorem zenoh_worker_refines_loop (handlers : Node.ReceiveLoop.Callback → Option Nat) (s r t : System)
    (as : List Action) (started : s.startWorker = some r)
    (cond : Transition.Meets step Unstarted r as) (h : Transition.run step r as = some t) :
    ∃ bs u more, Transition.run Node.ReceiveLoop.step (.started true handlers) bs = some u ∧
      Loops handlers s t bs u more := by
  obtain ⟨-,now⟩ := startWorker_some started
  have base : s.dispatched <+: r.dispatched := now ▸ List.prefix_rfl
  have fresh : r.view s.dispatched.length = ⟨s.stopRequested,.atLoop,[]⟩ := by
    rw [now]
    simp [System.view,WorkerPc.stage]
  obtain ⟨bs,u,run,⟨⟨more,same⟩,shows⟩,contained⟩ := Node.ReceiveLoop.run_shows
    (System.view s.dispatched.length) (I := fun t => s.dispatched <+: t.dispatched)
    (fun q a t hq hC ha => by
      obtain ⟨grows,turn⟩ := step_turn hq.length_le hC ha
      exact ⟨hq.trans grows,turn⟩) handlers base fresh cond h
  refine ⟨bs,u,more,run,same.symm,?_,shows.stopRequested,shows.pc,contained⟩
  rw [shows.handled,System.view,← same,List.drop_left]

def opened : List Action := [.openTransport 0 true,.openTransport 0 true]

def servedOnce : List Action :=
  [.worker false .notSet,.arrive (some [1])] ++ callbackSteps 0 7 ++
    workerSteps 8 (.returns [2]) ++ [.requestStop] ++ workerSteps 1 .notSet

theorem zenoh_worker_refines_loop_served : ∃ s r t,
    Transition.run step (.initial true) opened = some s ∧ s.startWorker = some r ∧
      Transition.run step r servedOnce = some t ∧
      t.dispatched.map Dispatched.handled = [(⟨.request,[1],['1']⟩,.returns [2])] ∧
      ∃ bs u more, Transition.run Node.ReceiveLoop.step (.started true fun _ => none) bs = some u ∧
        Loops (fun _ => none) s t bs u more := by
  refine ⟨_,_,_,rfl,rfl,rfl,rfl,?_⟩
  refine zenoh_worker_refines_loop (fun _ => none) _ _ _ servedOnce rfl ?_ rfl
  exact Transition.meets_of_forall (P := fun a : Action => a ≠ .clearStop ∧ a ≠ .startWorker)
    (by decide)

def Action.isWorker : Action → Bool
  | .worker .. => true
  | _ => false

theorem WorkerPc.toExit_le (pc : WorkerPc) : pc.toExit ≤ 10 := by
  cases pc <;> simp [toExit]

theorem step_toExit (stopped : s.stopRequested = true) (hC : Unstarted s a)
    (h : step s a = some s') : s'.worker.toExit ≤ s.worker.toExit ∧
      (a.isWorker = true → s'.worker.toExit < s.worker.toExit) := by
  cases hw : a.isWorker with
  | true =>
    cases a <;> cases hw
    exact ⟨Nat.le_of_lt (worker_toExit stopped h),fun _ => worker_toExit stopped h⟩
  | false =>
    rcases step_aside hC h with aside | ⟨timedOut,outcome,rfl⟩
    · exact ⟨Nat.le_of_eq (by rw [aside.worker]),nofun⟩
    · cases hw

theorem zenoh_stop_prompt (s t : System) (as : List Action) (stopped : s.stopRequested = true)
    (cond : Transition.Meets step Unstarted s as) (h : Transition.run step s as = some t) :
    as.countP Action.isWorker ≤ 10 ∧
      (t.dispatched = s.dispatched ∨ ∃ d, t.dispatched = s.dispatched ++ [d]) := by
  obtain ⟨⟨kept,lasts⟩,count⟩ := Transition.run_turns_le
    (I := fun q => s.dispatched <+: q.dispatched ∧ Lasts (s.view 0) (q.view 0))
    Action.isWorker (fun q => q.worker.toExit)
    (fun q a r hq hC ha => by
      obtain ⟨grows,turn⟩ := step_turn (Nat.zero_le _) hC ha
      exact ⟨⟨hq.1.trans grows,hq.2.turn turn⟩,step_toExit hq.2.stopRequested hC ha⟩)
    ⟨List.prefix_rfl,.refl stopped⟩ cond h
  have exit := s.worker.toExit_le
  refine ⟨by omega,Trace.eq_or_snoc_of_prefix kept ?_⟩
  have few := lasts.few
  have room := (s.view 0).stage.toDispatch_le
  simp only [System.view,List.length_map,List.drop_zero] at few room
  omega

def twoQueued : List Action :=
  bringUp ++ [.arrive (some [1])] ++ callbackSteps 0 7 ++ [.arrive (some [2])] ++
    callbackSteps 1 7 ++ [.worker false .notSet,.requestStop]

theorem zenoh_stop_prompt_queued : ∃ s t,
    Transition.run step (.initial true) twoQueued = some s ∧ s.stopRequested = true ∧
      Transition.run step s (workerSteps 8 (.returns [3])) = some t ∧
      t.worker = .exited ∧ t.queue.length = 1 ∧
      (workerSteps 8 (.returns [3])).countP Action.isWorker ≤ 10 ∧
        (t.dispatched = s.dispatched ∨ ∃ d, t.dispatched = s.dispatched ++ [d]) := by
  refine ⟨_,_,rfl,rfl,rfl,rfl,rfl,?_⟩
  refine zenoh_stop_prompt _ _ (workerSteps 8 (.returns [3])) rfl ?_ rfl
  exact Transition.meets_of_forall (P := fun a : Action => a ≠ .clearStop ∧ a ≠ .startWorker)
    (by decide)

end DdsAbstract.Zenoh
