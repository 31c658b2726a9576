import DdsAbstract.Zenoh.Transport

namespace DdsAbstract.Zenoh

variable {s s' : System} {k c pick o : Nat} {ok timedOut : Bool} {outcome : HandlerOutcome}

theorem acquire_map_eq_some {l : Lock} {t : Thread} {f : System → System} :
    (s.acquire l t).map f = some s' ↔
      s.locks l = none ∧ f { s with locks := Function.update s.locks l (some t) } = s' := by
  simp [System.acquire]

def CallbackPc.afterPush : CallbackPc → Bool
  | .atStateLock | .atPredicate | .inWait | .atRelock | .atReply | .atEraseLock | .atErase
  | .atUnlock | .left => true
  | _ => false

def CallbackPc.afterReply : CallbackPc → Bool
  | .atEraseLock | .atErase | .atUnlock | .left => true
  | _ => false

def CallbackPc.registered : CallbackPc → Bool
  | .atPayload | .atQueueLock | .atEnqueueCheck | .atPush | .atStateLock | .atPredicate | .inWait
  | .atRelock | .atReply | .atEraseLock | .atErase => true
  | _ => false

structure CallbackFrame (s s' : System) (k : Nat) : Prop where
  isOpen : s'.isOpen = s.isOpen
  isServer : s'.isServer = s.isServer
  nextId : s'.nextId = s.nextId
  stopRequested : s'.stopRequested = s.stopRequested
  arrived : s'.arrived = s.arrived
  worker : s'.worker = s.worker
  closers : s'.closers = s.closers
  openers : s'.openers = s.openers
  opens : s'.opens = s.opens
  dispatched : s'.dispatched = s.dispatched
  others : ∀ j, j ≠ k → s'.callbacks j = s.callbacks j
  present : (s.callbacks k).pc ≠ .absent
  id : (s'.callbacks k).id = (s.callbacks k).id
  payload : (s'.callbacks k).payload = (s.callbacks k).payload
  state : (s'.callbacks k).state = (s.callbacks k).state
  afterPush : (s.callbacks k).pc.afterPush → (s'.callbacks k).pc.afterPush
  afterReply : (s.callbacks k).pc.afterReply → (s'.callbacks k).pc.afterReply
  registered : (s'.callbacks k).pc.registered →
    (s.callbacks k).pc.registered ∨ (s.callbacks k).pc = .atInsert

inductive CallbackMove (s s' : System) (k : Nat) : Prop
  | quiet (pc : (s.callbacks k).pc ≠ .atInsert) (pending : s'.pending = s.pending)
      (queue : s'.queue = s.queue)
      (enqueued : (s'.callbacks k).enqueued = (s.callbacks k).enqueued)
      (replies : (s'.callbacks k).replies = (s.callbacks k).replies)
  | insert (pc : (s.callbacks k).pc = .atInsert)
      (pending : s'.pending = s.pending.insert (s.callbacks k).id k) (queue : s'.queue = s.queue)
      (enqueued : (s'.callbacks k).enqueued = (s.callbacks k).enqueued)
      (replies : (s'.callbacks k).replies = (s.callbacks k).replies)
  | push (pc : (s.callbacks k).pc = .atPush) (pc' : (s'.callbacks k).pc = s.afterEnqueue)
      (pending : s'.pending = s.pending) (queue : s'.queue = s.queue ++ [⟨s.messageOf k,k,s.opens⟩])
      (enqueued : (s'.callbacks k).enqueued = true)
      (replies : (s'.callbacks k).replies = (s.callbacks k).replies)
  | reply (value : DdsBytes) (pc : (s.callbacks k).pc = .atReply)
      (pc' : (s'.callbacks k).pc = .atEraseLock) (sent : (s.callbacks k).state.value = some value)
      (pending : s'.pending = s.pending) (queue : s'.queue = s.queue)
      (enqueued : (s'.callbacks k).enqueued = (s.callbacks k).enqueued)
      (replies : (s'.callbacks k).replies = value :: (s.callbacks k).replies)
  | erase (pc : (s.callbacks k).pc = .atErase) (pc' : (s'.callbacks k).pc = .atUnlock)
      (pending : s'.pending = s.pending.erase (s.callbacks k).id) (queue : s'.queue = s.queue)
      (enqueued : (s'.callbacks k).enqueued = (s.callbacks k).enqueued)
      (replies : (s'.callbacks k).replies = (s.callbacks k).replies)

theorem callback_frame (h : s.callbackStep k ok = some s') : CallbackFrame s s' k := by
  unfold System.callbackStep at h
  cases hpc : (s.callbacks k).pc <;> simp only [hpc,acquire_map_eq_some] at h
  case absent | left => cases h
  case atPendingLock | atQueueLock | atStateLock | atRelock | atEraseLock =>
    obtain ⟨-,rfl⟩ := h
    constructor <;> simp +contextual [System.goto,System.setCallback,hpc,CallbackPc.afterPush,
      CallbackPc.afterReply,CallbackPc.registered]
  case atInsert | atPayload | inWait | atErase | atUnlock =>
    obtain rfl := Option.some.inj h
    constructor <;> simp +contextual [System.goto,System.setCallback,System.release,hpc,
      CallbackPc.afterPush,CallbackPc.afterReply,CallbackPc.registered]
  case atOpenCheck | atEnqueueCheck | atPush | atPredicate =>
    split at h <;> obtain rfl := Option.some.inj h <;> constructor <;>
      simp +contextual [System.goto,System.setCallback,System.release,System.pushBack,hpc,
        CallbackPc.afterPush,CallbackPc.afterReply,CallbackPc.registered]
  case atReply =>
    split at h
    · obtain rfl := Option.some.inj h
      constructor <;> simp +contextual [System.goto,System.setCallback,hpc,CallbackPc.afterPush,
        CallbackPc.afterReply,CallbackPc.registered]
    · split at h <;> obtain rfl := Option.some.inj h <;> constructor <;>
        simp +contextual [System.goto,System.setCallback,System.release,hpc,CallbackPc.afterPush,
          CallbackPc.afterReply,CallbackPc.registered]

theorem callback_move (h : s.callbackStep k ok = some s') : CallbackMove s s' k := by
  unfold System.callbackStep at h
  cases hpc : (s.callbacks k).pc <;> simp only [hpc,acquire_map_eq_some] at h
  case absent | left => cases h
  case atPendingLock | atQueueLock | atStateLock | atRelock | atEraseLock =>
    obtain ⟨-,rfl⟩ := h
    apply CallbackMove.quiet <;> simp [hpc,System.goto,System.setCallback]
  case atPayload | inWait | atUnlock =>
    obtain rfl := Option.some.inj h
    apply CallbackMove.quiet <;> simp [hpc,System.goto,System.setCallback,System.release]
  case atOpenCheck | atEnqueueCheck | atPredicate =>
    split at h <;> obtain rfl := Option.some.inj h <;> apply CallbackMove.quiet <;>
      simp [hpc,System.goto,System.setCallback,System.release]
  case atInsert =>
    obtain rfl := Option.some.inj h
    apply CallbackMove.insert hpc <;> simp [System.goto,System.setCallback,System.release]
  case atErase =>
    obtain rfl := Option.some.inj h
    apply CallbackMove.erase hpc <;> simp [System.goto,System.setCallback,System.release]
  case atPush =>
    split at h <;> obtain rfl := Option.some.inj h
    · apply CallbackMove.push hpc <;>
        simp [System.setCallback,System.release,System.pushBack]
    · apply CallbackMove.quiet <;> simp [hpc,System.goto,System.setCallback,System.release]
  case atReply =>
    split at h
    · obtain rfl := Option.some.inj h
      apply CallbackMove.quiet <;> simp [hpc,System.goto,System.setCallback]
    · rename_i value hvalue
      split at h <;> obtain rfl := Option.some.inj h
      · apply CallbackMove.reply value hpc <;> simp [System.setCallback,hvalue]
      · apply CallbackMove.quiet <;> simp [hpc,System.goto,System.setCallback,System.release]

structure WorkerFrame (s s' : System) : Prop where
  isOpen : s'.isOpen = s.isOpen
  isServer : s'.isServer = s.isServer
  nextId : s'.nextId = s.nextId
  stopRequested : s'.stopRequested = s.stopRequested
  arrived : s'.arrived = s.arrived
  pending : s'.pending = s.pending
  closers : s'.closers = s.closers
  openers : s'.openers = s.openers
  opens : s'.opens = s.opens

def WorkerPc.incoming : WorkerPc → Option Queued
  | .atDispatch incoming => some incoming
  | .atPendingLock incoming _ => some incoming
  | .atFind incoming _ => some incoming
  | .atStateLock incoming _ _ => some incoming
  | .atStore incoming _ _ => some incoming
  | _ => none

def WorkerPc.afterDispatch (incoming : Queued) : Option DdsBytes → WorkerPc
  | none => .atReport
  | some response =>
    match incoming.message.kind with
    | .broadcast => .atLoop
    | .request => .atPendingLock incoming response

inductive WorkerMove (s s' : System) (outcome : HandlerOutcome) : Prop
  | poll (was : s.worker.incoming = none) (now : s'.worker.incoming = none)
      (queue : s'.queue = s.queue) (dispatched : s'.dispatched = s.dispatched)
      (callbacks : s'.callbacks = s.callbacks)
  | pop (incoming : Queued) (was : s.worker = .atFront) (now : s'.worker = .atDispatch incoming)
      (queue : s.queue = incoming :: s'.queue) (dispatched : s'.dispatched = s.dispatched)
      (callbacks : s'.callbacks = s.callbacks)
  | dispatch (incoming : Queued) (was : s.worker = .atDispatch incoming)
      (now : s'.worker = .afterDispatch incoming outcome.response) (queue : s'.queue = s.queue)
      (dispatched : s'.dispatched = s.dispatched ++ [⟨incoming,outcome,s.opens⟩])
      (callbacks : s'.callbacks = s.callbacks)
  | lockPending (incoming : Queued) (payload : DdsBytes)
      (was : s.worker = .atPendingLock incoming payload) (now : s'.worker = .atFind incoming payload)
      (queue : s'.queue = s.queue) (dispatched : s'.dispatched = s.dispatched)
      (callbacks : s'.callbacks = s.callbacks)
  | miss (incoming : Queued) (payload : DdsBytes) (was : s.worker = .atFind incoming payload)
      (now : s'.worker = .atLoop)
      (lookup : s.pending.lookup incoming.message.correlationId = none)
      (queue : s'.queue = s.queue) (dispatched : s'.dispatched = s.dispatched)
      (callbacks : s'.callbacks = s.callbacks)
  | find (incoming : Queued) (payload : DdsBytes) (state : Nat)
      (was : s.worker = .atFind incoming payload)
      (now : s'.worker = .atStateLock incoming state payload)
      (lookup : s.pending.lookup incoming.message.correlationId = some state)
      (queue : s'.queue = s.queue) (dispatched : s'.dispatched = s.dispatched)
      (callbacks : s'.callbacks = s.callbacks)
  | lockState (incoming : Queued) (payload : DdsBytes) (state : Nat)
      (was : s.worker = .atStateLock incoming state payload)
      (now : s'.worker = .atStore incoming state payload)
      (queue : s'.queue = s.queue) (dispatched : s'.dispatched = s.dispatched)
      (callbacks : s'.callbacks = s.callbacks)
  | store (incoming : Queued) (payload : DdsBytes) (state : Nat)
      (was : s.worker = .atStore incoming state payload) (now : s'.worker = .atLoop)
      (queue : s'.queue = s.queue) (dispatched : s'.dispatched = s.dispatched)
      (callbacks : s'.callbacks = Function.update s.callbacks state { s.callbacks state with
        state := ⟨some payload,(s.callbacks state).state.cancelled⟩ })

theorem worker_frame (h : s.workerStep timedOut outcome = some s') : WorkerFrame s s' := by
  unfold System.workerStep at h
  cases hpc : s.worker <;> simp only [hpc,acquire_map_eq_some] at h
  case exited => cases h
  case atQueueLock | atRelock | atPendingLock | atStateLock =>
    obtain ⟨-,rfl⟩ := h
    constructor <;> rfl
  case atPredicate | atFront | atFind =>
    split at h <;> obtain rfl := Option.some.inj h <;> constructor <;> rfl
  all_goals
    obtain rfl := Option.some.inj h
    constructor <;> rfl

theorem worker_move (h : s.workerStep timedOut outcome = some s') : WorkerMove s s' outcome := by
  unfold System.workerStep at h
  cases hpc : s.worker <;> simp only [hpc,acquire_map_eq_some] at h
  case exited => cases h
  case atLoop =>
    obtain rfl := Option.some.inj h
    apply WorkerMove.poll <;> simp only [hpc] <;> first | rfl | (split <;> rfl)
  case atQueueLock =>
    obtain ⟨-,rfl⟩ := h
    apply WorkerMove.poll <;> simp [hpc,WorkerPc.incoming]
  case atRelock =>
    obtain ⟨-,rfl⟩ := h
    apply WorkerMove.poll <;> simp only [hpc] <;> first | rfl | (split <;> rfl)
  case atPredicate =>
    split at h <;> obtain rfl := Option.some.inj h <;> apply WorkerMove.poll <;>
      simp [hpc,WorkerPc.incoming,System.release]
  case inWait | atReport =>
    obtain rfl := Option.some.inj h
    apply WorkerMove.poll <;> simp [hpc,WorkerPc.incoming]
  case atFront =>
    split at h <;> obtain rfl := Option.some.inj h
    · apply WorkerMove.poll <;> simp [hpc,WorkerPc.incoming,System.release]
    · rename_i incoming rest hq
      exact .pop incoming hpc rfl hq rfl rfl
  case atDispatch incoming =>
    obtain rfl := Option.some.inj h
    exact .dispatch incoming hpc rfl rfl rfl rfl
  case atPendingLock incoming payload =>
    obtain ⟨-,rfl⟩ := h
    exact .lockPending incoming payload hpc rfl rfl rfl rfl
  case atFind incoming payload =>
    split at h <;> obtain rfl := Option.some.inj h <;> rename_i hl
    · exact .miss incoming payload hpc rfl hl rfl rfl rfl
    · exact .find incoming payload _ hpc rfl hl rfl rfl rfl
  case atStateLock incoming state payload =>
    obtain ⟨-,rfl⟩ := h
    exact .lockState incoming payload state hpc rfl rfl rfl rfl
  case atStore incoming state payload =>
    obtain rfl := Option.some.inj h
    exact .store incoming payload state hpc rfl rfl rfl rfl

structure CloseFrame (s s' : System) (c : Nat) : Prop where
  isServer : s'.isServer = s.isServer
  queue : s'.queue = s.queue
  pending : s'.pending = s.pending
  nextId : s'.nextId = s.nextId
  stopRequested : s'.stopRequested = s.stopRequested
  arrived : s'.arrived = s.arrived
  worker : s'.worker = s.worker
  openers : s'.openers = s.openers
  opens : s'.opens = s.opens
  dispatched : s'.dispatched = s.dispatched
  others : ∀ d, d ≠ c → s'.closers d = s.closers d

inductive CloseMove (s s' : System) : Prop
  | quiet (callbacks : s'.callbacks = s.callbacks)
  | cancel (state : Nat)
      (callbacks : s'.callbacks = Function.update s.callbacks state { s.callbacks state with
        state := ⟨(s.callbacks state).state.value,true⟩ })

theorem close_frame (h : s.closeStep c pick = some s') : CloseFrame s s' c := by
  unfold System.closeStep at h
  cases hpc : s.closers c <;> simp only [hpc,acquire_map_eq_some] at h
  case idle =>
    split at h <;> obtain rfl := Option.some.inj h
    · exact ⟨rfl,rfl,rfl,rfl,rfl,rfl,rfl,rfl,rfl,rfl,fun d hd => by simp [System.setCloser,hd]⟩
    · exact ⟨rfl,rfl,rfl,rfl,rfl,rfl,rfl,rfl,rfl,rfl,fun d hd => rfl⟩
  case atQueueLock | atPendingLock | atStateLock =>
    obtain ⟨-,rfl⟩ := h
    exact ⟨rfl,rfl,rfl,rfl,rfl,rfl,rfl,rfl,rfl,rfl,fun d hd => by simp [System.setCloser,hd]⟩
  case cancelling todo =>
    cases todo with
    | nil =>
      obtain rfl := Option.some.inj h
      exact ⟨rfl,rfl,rfl,rfl,rfl,rfl,rfl,rfl,rfl,rfl,fun d hd => by
        simp [System.setCloser,System.release,hd]⟩
    | cons p ps =>
      obtain ⟨q,-,rfl⟩ := Option.map_eq_some_iff.mp h
      exact ⟨rfl,rfl,rfl,rfl,rfl,rfl,rfl,rfl,rfl,rfl,fun d hd => by simp [System.setCloser,hd]⟩
  case atNotify | atCancel =>
    obtain rfl := Option.some.inj h
    exact ⟨rfl,rfl,rfl,rfl,rfl,rfl,rfl,rfl,rfl,rfl,fun d hd => by
      simp [System.setCloser,System.setCallback,System.release,hd]⟩

theorem close_move (h : s.closeStep c pick = some s') : CloseMove s s' := by
  unfold System.closeStep at h
  cases hpc : s.closers c <;> simp only [hpc,acquire_map_eq_some] at h
  case idle => split at h <;> obtain rfl := Option.some.inj h <;> exact .quiet rfl
  case atQueueLock | atPendingLock | atStateLock =>
    obtain ⟨-,rfl⟩ := h
    exact .quiet rfl
  case atNotify =>
    obtain rfl := Option.some.inj h
    exact .quiet rfl
  case cancelling todo =>
    cases todo with
    | nil =>
      obtain rfl := Option.some.inj h
      exact .quiet rfl
    | cons p ps =>
      obtain ⟨q,-,rfl⟩ := Option.map_eq_some_iff.mp h
      exact .quiet rfl
  case atCancel state todo =>
    obtain rfl := Option.some.inj h
    exact .cancel state rfl

structure ArriveFrame (s s' : System) (payload : Option DdsBytes) : Prop where
  isServer : s'.isServer = s.isServer
  queue : s'.queue = s.queue
  pending : s'.pending = s.pending
  locks : s'.locks = s.locks
  worker : s'.worker = s.worker
  closers : s'.closers = s.closers
  openers : s'.openers = s.openers
  opens : s'.opens = s.opens
  dispatched : s'.dispatched = s.dispatched
  arrived : s'.arrived = s.arrived + 1
  nextId : s'.nextId = if s.isServer then (s.nextId + 1) % 2 ^ 64 else s.nextId
  newest : s'.callbacks s.arrived =
    ⟨if s.isServer then .atPendingLock else .atPayload,
      if s.isServer then Nat.toDigits 10 s'.nextId else [],payload,⟨none,false⟩,false,[]⟩
  others : ∀ j, j ≠ s.arrived → s'.callbacks j = s.callbacks j

theorem arrive_frame (payload : Option DdsBytes) : ArriveFrame s (s.arrive payload) payload := by
  cases hserver : s.isServer <;>
    simp only [System.arrive,hserver,Bool.false_eq_true,if_false,if_true] <;>
    exact ⟨by simp [hserver],rfl,rfl,rfl,rfl,rfl,rfl,rfl,rfl,rfl,by simp [hserver],
      by simp [hserver],fun j hj => by simp [hj]⟩

theorem openStep_fields (o : Nat) (ok : Bool) :
    ∃ isOpen openers opens,
      s.openStep o ok = { s with isOpen := isOpen, openers := openers, opens := opens } := by
  unfold System.openStep
  split
  · exact ⟨_,_,_,rfl⟩
  · split <;> exact ⟨_,_,_,rfl⟩

theorem startWorker_some (h : s.startWorker = some s') :
    s.worker = .exited ∧ s' = { s with worker := .atLoop } := by
  simp only [System.startWorker,Option.ite_none_right_eq_some,Option.some.injEq] at h
  exact ⟨h.1,h.2.symm⟩

def ServerReply.settled (r : ServerReply) : Bool := r.value.isSome || r.cancelled

structure CallbackKept (a b : Callback) : Prop where
  pc : b.pc = a.pc
  id : b.id = a.id
  payload : b.payload = a.payload
  enqueued : b.enqueued = a.enqueued
  replies : b.replies = a.replies
  settled : a.state.settled → b.state.settled

theorem CallbackKept.refl (a : Callback) : CallbackKept a a := ⟨rfl,rfl,rfl,rfl,rfl,fun h => h⟩

theorem callbackKept_update {state : Nat} {r : ServerReply}
    (hr : (s.callbacks state).state.settled → r.settled) (j : Nat) :
    CallbackKept (s.callbacks j)
      (Function.update s.callbacks state { s.callbacks state with state := r } j) := by
  by_cases hj : j = state
  · subst hj
    rw [Function.update_self]
    exact ⟨rfl,rfl,rfl,rfl,rfl,hr⟩
  · simpa [hj] using CallbackKept.refl (s.callbacks j)

theorem worker_kept (h : s.workerStep timedOut outcome = some s') (j : Nat) :
    CallbackKept (s.callbacks j) (s'.callbacks j) := by
  cases worker_move h with
  | store incoming payload state was now queue dispatched callbacks =>
    rw [callbacks]
    exact callbackKept_update (by simp [ServerReply.settled]) j
  | _ =>
    rename_i callbacks
    rw [callbacks]
    exact .refl _

theorem close_kept (h : s.closeStep c pick = some s') (j : Nat) :
    CallbackKept (s.callbacks j) (s'.callbacks j) := by
  cases close_move h with
  | quiet callbacks =>
    rw [callbacks]
    exact .refl _
  | cancel state callbacks =>
    rw [callbacks]
    exact callbackKept_update (by simp [ServerReply.settled]) j

end DdsAbstract.Zenoh
