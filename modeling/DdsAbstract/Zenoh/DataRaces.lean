import DdsAbstract.Zenoh.LockOrder

namespace DdsAbstract.Zenoh

-- What more than one thread reads and writes without an atomic.
inductive Shared where
  | queue
  | pending
  | reply (k : Nat)
  deriving DecidableEq, Repr

namespace Shared

def guard : Shared → Lock
  | .queue => .queueMutex
  | .pending => .pendingMutex
  | .reply k => .stateMutex k

def Value : Shared → Type
  | .queue => List Queued
  | .pending => AList (fun _ : StdString => Nat)
  | .reply _ => ServerReply

end Shared

namespace System

def get (s : System) : (x : Shared) → x.Value
  | .queue => s.queue
  | .pending => s.pending
  | .reply k => (s.callbacks k).state

def put (s : System) : (x : Shared) → x.Value → System
  | .queue, v => { s with queue := v }
  | .pending, v => { s with pending := v }
  | .reply k, v => s.setCallback k { s.callbacks k with state := v }

end System

def Action.thread : Action → Option Thread
  | .callback k _ => some (.callback k)
  | .worker _ _ => some .worker
  | .close c _ => some (.closer c)
  | _ => none

variable {s s' : System} {x : Shared} {k c pick : Nat} {ok timedOut : Bool}
  {outcome : HandlerOutcome}

theorem put_get (s : System) (x : Shared) : s.put x (s.get x) = s := by
  cases x with
  | queue | pending => rfl
  | reply k => simp [System.put,System.get,System.setCallback]

theorem get_put (s : System) (x : Shared) (v : x.Value) : (s.put x v).get x = v := by
  cases x with
  | queue | pending => rfl
  | reply k => simp [System.put,System.get,System.setCallback]

structure PutFrame (s : System) (x : Shared) (v : x.Value) : Prop where
  isOpen : (s.put x v).isOpen = s.isOpen
  isServer : (s.put x v).isServer = s.isServer
  stopRequested : (s.put x v).stopRequested = s.stopRequested
  locks : (s.put x v).locks = s.locks
  worker : (s.put x v).worker = s.worker
  closers : (s.put x v).closers = s.closers
  queue : x ≠ .queue → (s.put x v).queue = s.queue
  pending : x ≠ .pending → (s.put x v).pending = s.pending
  callback : ∀ k, x ≠ .reply k → (s.put x v).callbacks k = s.callbacks k
  pc : ∀ k, ((s.put x v).callbacks k).pc = (s.callbacks k).pc
  id : ∀ k, ((s.put x v).callbacks k).id = (s.callbacks k).id
  payload : ∀ k, ((s.put x v).callbacks k).payload = (s.callbacks k).payload

theorem put_frame (s : System) (x : Shared) (v : x.Value) : PutFrame s x v := by
  cases x with
  | queue =>
    exact ⟨rfl,rfl,rfl,rfl,rfl,rfl,fun h => absurd rfl h,fun _ => rfl,fun _ _ => rfl,fun _ => rfl,
      fun _ => rfl,fun _ => rfl⟩
  | pending =>
    exact ⟨rfl,rfl,rfl,rfl,rfl,rfl,fun _ => rfl,fun h => absurd rfl h,fun _ _ => rfl,fun _ => rfl,
      fun _ => rfl,fun _ => rfl⟩
  | reply j =>
    refine ⟨rfl,rfl,rfl,rfl,rfl,rfl,fun _ => rfl,fun _ => rfl,?_,?_,?_,?_⟩
    · intro k hk
      have hne : k ≠ j := fun h => hk (h ▸ rfl)
      simp [System.put,System.setCallback,hne]
    all_goals
      intro k
      by_cases hk : k = j
      · subst hk
        simp [System.put,System.setCallback]
      · simp [System.put,System.setCallback,hk]

theorem put_release (s : System) (x : Shared) (v : x.Value) (l : Lock) :
    (s.put x v).release l = (s.release l).put x v := by
  cases x <;> rfl

theorem put_acquire (s : System) (x : Shared) (v : x.Value) (l : Lock) (t : Thread) :
    (s.put x v).acquire l t = (s.acquire l t).map (·.put x v) := by
  simp only [System.acquire,(put_frame s x v).locks]
  split
  · cases x <;> rfl
  · rfl

theorem put_setCloser (s : System) (x : Shared) (v : x.Value) (c : Nat) (pc : CloserPc) :
    (s.put x v).setCloser c pc = (s.setCloser c pc).put x v := by
  cases x <;> rfl

theorem put_setCallback (s : System) (x : Shared) (v : x.Value) (k : Nat) {f : Callback → Callback}
    (hf : ∀ c r, f { c with state := r } = { f c with state := r }) :
    (s.put x v).setCallback k (f ((s.put x v).callbacks k)) =
      (s.setCallback k (f (s.callbacks k))).put x v := by
  cases x with
  | queue | pending => rfl
  | reply j =>
    by_cases hk : k = j
    · subst hk
      simp only [System.put,System.setCallback,Function.update_self,Function.update_idem]
      rw [hf (s.callbacks k) v]
    · have hj : j ≠ k := Ne.symm hk
      simp [System.put,System.setCallback,hk,hj,Function.update_comm hk]

theorem put_goto (s : System) (x : Shared) (v : x.Value) (k : Nat) (pc : CallbackPc) :
    (s.put x v).goto k pc = (s.goto k pc).put x v :=
  put_setCallback s x v k (f := fun c => { c with pc := pc }) (fun _ _ => rfl)

theorem put_setPending (s : System) (v : x.Value) (h : x ≠ .pending)
    (p : AList (fun _ : StdString => Nat)) :
    { s.put x v with pending := p } = ({ s with pending := p } : System).put x v := by
  cases x with
  | pending => exact absurd rfl h
  | queue | reply => rfl

theorem put_locked {t : Thread} {l : Lock} {f : System → System}
    (h : (s.acquire l t).map f = some s') (v : x.Value)
    (commutes : ∀ u : System, f (u.put x v) = (f u).put x v) :
    ((s.put x v).acquire l t).map f = some (s'.put x v) := by
  obtain ⟨u,hu,rfl⟩ := Option.map_eq_some_iff.mp h
  rw [put_acquire,hu]
  exact congrArg some (commutes u)

theorem put_branch {p : Prop} [Decidable p] {a b : System}
    (h : (if p then some a else some b) = some s') (v : x.Value) :
    (if p then some (a.put x v) else some (b.put x v)) = some (s'.put x v) := by
  by_cases hp : p
  · rw [if_pos hp] at h ⊢
    obtain rfl := Option.some.inj h
    rfl
  · rw [if_neg hp] at h ⊢
    obtain rfl := Option.some.inj h
    rfl

theorem put_afterEnqueue (s : System) (x : Shared) (v : x.Value) :
    (s.put x v).afterEnqueue = s.afterEnqueue := by
  simp only [System.afterEnqueue,(put_frame s x v).isServer]

theorem put_pushBack (s : System) (v : x.Value) (apart : x ≠ .queue) (k : Nat) :
    (s.put x v).pushBack k = (s.pushBack k).put x v := by
  have frame := put_frame s x v
  cases x with
  | queue => exact absurd rfl apart
  | pending => rfl
  | reply j =>
    have message : (s.put (.reply j) v).messageOf k = s.messageOf k := by
      simp only [System.messageOf,frame.isServer,frame.payload,frame.id]
    rw [System.pushBack,message]
    rfl

theorem push_local (hpc : (s.callbacks k).pc = .atPush) (h : s.callbackStep k ok = some s')
    (apart : x ≠ .queue) (v : x.Value) : (s.put x v).callbackStep k ok = some (s'.put x v) := by
  have same := (put_frame s x v).pc k
  simp only [System.callbackStep,hpc] at h same ⊢
  simp only [same]
  rw [put_pushBack s v apart,put_afterEnqueue,put_release,put_release,put_goto]
  cases ok with
  | false =>
    obtain rfl := Option.some.inj h
    rfl
  | true =>
    obtain rfl := Option.some.inj h
    have moved := put_setCallback ((s.pushBack k).release .queueMutex) x v k
      (f := fun c => { c with pc := s.afterEnqueue, enqueued := true }) (fun _ _ => rfl)
    refine congrArg some (Eq.trans ?_ moved)
    cases x <;> rfl

theorem reply_local (hpc : (s.callbacks k).pc = .atReply) (h : s.callbackStep k ok = some s')
    (apart : x ≠ .reply k) (v : x.Value) : (s.put x v).callbackStep k ok = some (s'.put x v) := by
  have own := (put_frame s x v).callback k apart
  simp only [System.callbackStep,own,hpc] at h ⊢
  cases hvalue : (s.callbacks k).state.value with
  | none =>
    rw [hvalue] at h
    obtain rfl := Option.some.inj h
    exact congrArg some (put_goto s x v k _)
  | some value =>
    rw [hvalue] at h
    cases ok with
    | false =>
      obtain rfl := Option.some.inj h
      simp only [Bool.false_eq_true,if_false,put_release,put_goto]
    | true =>
      obtain rfl := Option.some.inj h
      have moved := put_setCallback s x v k
        (f := fun c => { c with pc := .atEraseLock, replies := value :: c.replies })
        (fun _ _ => rfl)
      rw [own] at moved
      exact congrArg some moved

theorem callback_local (h : s.callbackStep k ok = some s')
    (outside : ¬ s.Holds (.callback k) x.guard) (v : x.Value) :
    (s.put x v).callbackStep k ok = some (s'.put x v) := by
  have frame := put_frame s x v
  have same := frame.pc k
  have unlocked : x.guard ∉ (s.callbacks k).pc.held k := outside
  cases hpc : (s.callbacks k).pc <;>
    simp only [hpc,CallbackPc.held,List.mem_cons,List.not_mem_nil,or_false] at same unlocked
  case atPush =>
    have apart : x ≠ .queue := fun hx => unlocked (hx ▸ rfl)
    exact push_local hpc h apart v
  case atReply =>
    have apart : x ≠ .reply k := fun hx => unlocked (hx ▸ rfl)
    exact reply_local hpc h apart v
  all_goals simp only [System.callbackStep,hpc,same] at h ⊢
  case absent | left => cases h
  case atPendingLock | atQueueLock | atStateLock | atRelock | atEraseLock =>
    exact put_locked h v (fun u => put_goto u x v k _)
  case atOpenCheck =>
    rw [frame.isOpen,put_release,put_goto,put_goto]
    exact put_branch h v
  case atInsert =>
    have apart : x ≠ .pending := fun hx => unlocked (hx ▸ rfl)
    obtain rfl := Option.some.inj h
    rw [frame.pending apart,frame.id,put_setPending s v apart,put_release,put_goto]
  case atPayload | inWait | atUnlock =>
    obtain rfl := Option.some.inj h
    simp only [put_release,put_goto]
  case atEnqueueCheck =>
    rw [frame.isOpen,put_afterEnqueue,put_release,put_goto,put_goto]
    exact put_branch h v
  case atPredicate =>
    have own := frame.callback k (fun hx => unlocked (hx ▸ rfl))
    rw [own,put_release,put_goto,put_goto]
    exact put_branch h v
  case atErase =>
    have apart : x ≠ .pending := fun hx => unlocked (.inl (hx ▸ rfl))
    obtain rfl := Option.some.inj h
    rw [frame.pending apart,frame.id,put_setPending s v apart,put_release,put_goto]

theorem put_setWorker (s : System) (x : Shared) (v : x.Value) (pc : WorkerPc) :
    { s.put x v with worker := pc } = ({ s with worker := pc } : System).put x v := by
  cases x <;> rfl

theorem worker_local (h : s.workerStep timedOut outcome = some s')
    (outside : ¬ s.Holds .worker x.guard) (v : x.Value) :
    (s.put x v).workerStep timedOut outcome = some (s'.put x v) := by
  have frame := put_frame s x v
  have unlocked : x.guard ∉ s.worker.held := outside
  unfold System.workerStep at h ⊢
  rw [frame.worker]
  cases hpc : s.worker <;> simp only [hpc,WorkerPc.held,List.mem_cons,
    List.not_mem_nil,or_false] at h unlocked ⊢
  case exited => cases h
  case atLoop | atDispatch | inWait | atReport =>
    obtain rfl := Option.some.inj h
    cases x <;> rfl
  case atQueueLock | atRelock | atPendingLock | atStateLock =>
    exact put_locked h v (fun u => put_setWorker u x v _)
  case atPredicate =>
    have apart : x ≠ .queue := fun hx => unlocked (hx ▸ rfl)
    have same : ((s.put x v).stopRequested || !(s.put x v).queue.isEmpty || !(s.put x v).isOpen) =
        (s.stopRequested || !s.queue.isEmpty || !s.isOpen) := by
      rw [frame.stopRequested,frame.queue apart,frame.isOpen]
    rw [same,put_release,put_setWorker,put_setWorker]
    exact put_branch h v
  case atFront =>
    have apart : x ≠ .queue := fun hx => unlocked (hx ▸ rfl)
    rw [frame.queue apart,put_release]
    cases hq : s.queue <;> rw [hq] at h <;> obtain rfl := Option.some.inj h
    · exact congrArg some (put_setWorker _ x v _)
    · cases x with
      | queue => exact absurd rfl apart
      | pending | reply => rfl
  case atFind e payload =>
    have apart : x ≠ .pending := fun hx => unlocked (hx ▸ rfl)
    rw [frame.pending apart,put_release]
    cases hl : s.pending.lookup e.message.correlationId <;> rw [hl] at h <;>
      obtain rfl := Option.some.inj h <;> exact congrArg some (put_setWorker _ x v _)
  case atStore e state payload =>
    have apart : x ≠ .reply state := fun hx => unlocked (hx ▸ rfl)
    obtain rfl := Option.some.inj h
    rw [frame.callback state apart,put_release]
    cases x with
    | queue | pending => rfl
    | reply j =>
      have hj : state ≠ j := fun hx => apart (hx ▸ rfl)
      simp [System.put,System.setCallback,System.release,Function.update_comm hj,Ne.symm hj]

theorem close_local (h : s.closeStep c pick = some s')
    (before : ¬ s.Holds (.closer c) x.guard) (after : ¬ s'.Holds (.closer c) x.guard) (v : x.Value) :
    (s.put x v).closeStep c pick = some (s'.put x v) := by
  have frame := put_frame s x v
  have unlocked : x.guard ∉ (s.closers c).held := before
  unfold System.closeStep at h ⊢
  rw [frame.closers]
  cases hpc : s.closers c <;> simp only [hpc,CloserPc.held,List.mem_cons,
    List.not_mem_nil,or_false] at h unlocked ⊢
  case idle =>
    rw [frame.isOpen]
    cases hopen : s.isOpen <;> rw [hopen] at h <;> obtain rfl := Option.some.inj h
    · rfl
    · cases x <;> rfl
  case atQueueLock | atStateLock => exact put_locked h v (fun u => put_setCloser u x v c _)
  case atNotify =>
    obtain rfl := Option.some.inj h
    rw [put_release,put_setCloser]
  case atPendingLock =>
    have apart : x ≠ .pending := by
      rintro rfl
      obtain ⟨-,rfl⟩ := acquire_map_eq_some.mp h
      exact after (by simp [System.Holds,System.held,System.setCloser,CloserPc.held,Shared.guard])
    rw [frame.pending apart]
    exact put_locked h v (fun u => put_setCloser u x v c _)
  case cancelling todo =>
    cases todo with
    | nil =>
      obtain rfl := Option.some.inj h
      change some (((s.put x v).release .pendingMutex).setCloser c .idle) = _
      rw [put_release,put_setCloser]
    | cons p ps =>
      obtain ⟨q,hq,rfl⟩ := Option.map_eq_some_iff.mp h
      simp only [hq,Option.map_some,put_setCloser]
  case atCancel state todo =>
    have apart : x ≠ .reply state := fun hx => unlocked (.inr (hx ▸ rfl))
    obtain rfl := Option.some.inj h
    rw [frame.callback state apart,put_release]
    cases x with
    | queue | pending => rfl
    | reply j =>
      have hj : state ≠ j := fun hx => apart (hx ▸ rfl)
      simp [System.put,System.setCallback,System.release,System.setCloser,Function.update_comm hj,
        Ne.symm hj]

theorem arrive_local (payload : Option DdsBytes) (hx : x ≠ .reply s.arrived) (v : x.Value) :
    (s.put x v).arrive payload = (s.arrive payload).put x v := by
  unfold System.arrive
  rw [(put_frame s x v).isServer]
  cases x with
  | queue | pending => cases s.isServer <;> rfl
  | reply j =>
    have hj : s.arrived ≠ j := fun h => hx (h ▸ rfl)
    cases s.isServer <;> simp [System.put,System.setCallback,Function.update_comm hj,Ne.symm hj]

theorem step_local {a : Action} (h : step s a = some s')
    (hx : ∀ payload, a = .arrive payload → x ≠ .reply s.arrived)
    (before : ∀ t, a.thread = some t → ¬ s.Holds t x.guard)
    (after : ∀ t, a.thread = some t → ¬ s'.Holds t x.guard) (v : x.Value) :
    step (s.put x v) a = some (s'.put x v) := by
  have frame := put_frame s x v
  cases a with
  | callback k ok => exact callback_local h (before _ rfl) v
  | worker timedOut outcome => exact worker_local h (before _ rfl) v
  | close c pick => exact close_local h (before _ rfl) (after _ rfl) v
  | arrive payload =>
    obtain rfl := Option.some.inj h
    exact congrArg some (arrive_local payload (hx payload rfl) v)
  | openTransport o ok =>
    obtain rfl := Option.some.inj h
    have openers : (s.put x v).openers = s.openers := by cases x <;> rfl
    unfold step System.openStep
    rw [frame.isOpen,openers]
    by_cases ho : s.openers o
    · simp only [ho,if_true]
      cases x <;> rfl
    · cases s.isOpen <;> simp only [ho,if_true,Bool.false_eq_true,if_false]
      cases x <;> rfl
  | requestStop | clearStop =>
    obtain rfl := Option.some.inj h
    cases x <;> rfl
  | startWorker =>
    obtain ⟨hexit,rfl⟩ := startWorker_some h
    unfold step System.startWorker
    rw [frame.worker,if_pos hexit]
    cases x <;> rfl

def Outside (s : System) (a : Action) (x : Shared) : Prop :=
  ∀ t, a.thread = some t → s.locks x.guard ≠ some t

-- `arrive` makes the reply of the new callback.
theorem zenoh_race_free (isServer : Bool) (as : List Action) (s : System)
    (h : Transition.run step (System.initial isServer) as = some s) (a : Action) (s' : System)
    (hs : step s a = some s') (x : Shared)
    (hx : ∀ payload, a = .arrive payload → x ≠ .reply s.arrived)
    (before : Outside s a x) (after : Outside s' a x) :
    s'.get x = s.get x ∧ ∀ v, step (s.put x v) a = some (s'.put x v) := by
  have hi := run_lockInvariant h
  have hi' := step_lockInvariant hi hs
  have unread := step_local hs hx (fun t ht hh => before t ht ((hi.locks t _).mpr hh))
    (fun t ht hh => after t ht ((hi'.locks t _).mpr hh))
  refine ⟨?_,unread⟩
  have written := unread (s.get x)
  rw [put_get,hs] at written
  rw [Option.some.inj written,get_put]

def queryRegistered : List Action := bringUp ++ [.arrive (some [1])] ++ callbackSteps 0 3

theorem zenoh_race_free_payload : ∃ s s',
    Transition.run step (System.initial true) queryRegistered = some s ∧
      step s (.callback 0 true) = some s' ∧ s'.get .queue = s.get .queue ∧
      ∀ v, step (s.put .queue v) (.callback 0 true) = some (s'.put .queue v) :=
  ⟨_,_,rfl,rfl,zenoh_race_free true queryRegistered _ rfl (.callback 0 true) _ rfl .queue
    (fun _ h => by cases h) (fun _ _ h => by cases h) (fun _ _ h => by cases h)⟩

end DdsAbstract.Zenoh
