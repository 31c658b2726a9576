import DdsAbstract.Lib.Locks
import DdsAbstract.Lib.Transition
import DdsAbstract.Zenoh.Steps

namespace DdsAbstract.Zenoh

def CallbackPc.held (k : Nat) : CallbackPc → List Lock
  | .atOpenCheck => [.pendingMutex]
  | .atInsert => [.pendingMutex]
  | .atEnqueueCheck => [.queueMutex]
  | .atPush => [.queueMutex]
  | .atPredicate => [.stateMutex k]
  | .atReply => [.stateMutex k]
  | .atEraseLock => [.stateMutex k]
  | .atErase => [.pendingMutex,.stateMutex k]
  | .atUnlock => [.stateMutex k]
  | _ => []

def CallbackPc.wants (k : Nat) : CallbackPc → Option Lock
  | .atPendingLock => some .pendingMutex
  | .atQueueLock => some .queueMutex
  | .atStateLock => some (.stateMutex k)
  | .atRelock => some (.stateMutex k)
  | .atEraseLock => some .pendingMutex
  | _ => none

def WorkerPc.held : WorkerPc → List Lock
  | .atPredicate => [.queueMutex]
  | .atFront => [.queueMutex]
  | .atFind _ _ => [.pendingMutex]
  | .atStore _ state _ => [.stateMutex state]
  | _ => []

def WorkerPc.wants : WorkerPc → Option Lock
  | .atQueueLock => some .queueMutex
  | .atRelock _ => some .queueMutex
  | .atPendingLock _ _ => some .pendingMutex
  | .atStateLock _ state _ => some (.stateMutex state)
  | _ => none

def CloserPc.held : CloserPc → List Lock
  | .atNotify => [.queueMutex]
  | .cancelling _ => [.pendingMutex]
  | .atStateLock _ _ => [.pendingMutex]
  | .atCancel state _ => [.pendingMutex,.stateMutex state]
  | _ => []

def CloserPc.wants : CloserPc → Option Lock
  | .atQueueLock => some .queueMutex
  | .atPendingLock => some .pendingMutex
  | .atStateLock state _ => some (.stateMutex state)
  | _ => none

namespace System

def held (s : System) : Thread → List Lock
  | .callback k => (s.callbacks k).pc.held k
  | .worker => s.worker.held
  | .closer c => (s.closers c).held

def wants (s : System) : Thread → Option Lock
  | .callback k => (s.callbacks k).pc.wants k
  | .worker => s.worker.wants
  | .closer c => (s.closers c).wants

def Holds (s : System) (t : Thread) (l : Lock) : Prop := l ∈ s.held t

def LocksMatch (s : System) : Prop := Locks.Matches s.locks s.Holds

def LockMove (s s' : System) (t : Thread) : Prop :=
  Locks.Move s.locks s'.locks s.Holds s'.Holds t

end System

variable {s s' : System} {t : Thread} {k c pick : Nat} {ok timedOut : Bool}
  {outcome : HandlerOutcome}

theorem lockMove_keep (locks : s'.locks = s.locks) (others : ∀ u, u ≠ t → s'.held u = s.held u)
    (held : s'.held t = s.held t) : s.LockMove s' t := by
  refine .keep locks ?_
  intro u m
  by_cases hu : u = t
  · simp [System.Holds,hu,held]
  · simp [System.Holds,others u hu]

theorem lockMove_acquire (l : Lock) (free : s.locks l = none)
    (locks : s'.locks = Function.update s.locks l (some t))
    (others : ∀ u, u ≠ t → s'.held u = s.held u)
    (held : ∀ m, m ∈ s'.held t ↔ m ∈ s.held t ∨ m = l) : s.LockMove s' t := by
  refine .acquire l free locks ?_
  intro u m
  by_cases hu : u = t
  · simp [System.Holds,hu,held]
  · simp [System.Holds,others u hu,hu]

theorem lockMove_release (l : Lock) (locks : s'.locks = Function.update s.locks l none)
    (others : ∀ u, u ≠ t → s'.held u = s.held u) (mem : l ∈ s.held t)
    (held : ∀ m, m ∈ s'.held t ↔ m ∈ s.held t ∧ m ≠ l) : s.LockMove s' t := by
  refine .release l mem locks ?_
  intro u m
  by_cases hu : u = t
  · simp [System.Holds,hu,held]
  · simp [System.Holds,others u hu,hu]

theorem callback_others (h : s.callbackStep k ok = some s') (u : Thread) (hu : u ≠ .callback k) :
    s'.held u = s.held u := by
  have hf := callback_frame h
  cases u with
  | callback j => simp [System.held,hf.others j (by simpa using hu)]
  | worker => simp [System.held,hf.worker]
  | closer c => simp [System.held,hf.closers]

theorem afterEnqueue_held (s : System) (k : Nat) : s.afterEnqueue.held k = [] := by
  cases hs : s.isServer <;> simp [System.afterEnqueue,hs,CallbackPc.held]

theorem goto_held (s : System) (k : Nat) (pc : CallbackPc) :
    (s.goto k pc).held (.callback k) = pc.held k := by
  simp [System.held,System.goto,System.setCallback]

theorem held_of_pc {pc : CallbackPc} (hpc : (s.callbacks k).pc = pc) :
    s.held (.callback k) = pc.held k := by
  rw [System.held,hpc]

theorem push_lockMove (hpc : (s.callbacks k).pc = .atPush) (h : s.callbackStep k ok = some s') :
    s.LockMove s' (.callback k) := by
  have others := callback_others h
  simp only [System.callbackStep,hpc] at h
  split at h <;> obtain rfl := Option.some.inj h
  · refine lockMove_release .queueMutex rfl others (by simp [held_of_pc hpc,CallbackPc.held]) ?_
    simp only [System.held,System.setCallback,Function.update_self,afterEnqueue_held,hpc]
    simp [CallbackPc.held]
  · refine lockMove_release .queueMutex rfl others ?_ ?_ <;>
      simp [held_of_pc hpc,goto_held,CallbackPc.held]

theorem reply_lockMove (hpc : (s.callbacks k).pc = .atReply) (h : s.callbackStep k ok = some s') :
    s.LockMove s' (.callback k) := by
  have others := callback_others h
  simp only [System.callbackStep,hpc] at h
  split at h
  · obtain rfl := Option.some.inj h
    exact lockMove_keep rfl others ((goto_held s k _).trans (held_of_pc hpc).symm)
  · split at h <;> obtain rfl := Option.some.inj h
    · refine lockMove_keep rfl others ?_
      simp [System.held,System.setCallback,hpc,CallbackPc.held]
    · refine lockMove_release (.stateMutex k) rfl others ?_ ?_ <;>
        simp [held_of_pc hpc,goto_held,CallbackPc.held]

theorem callback_lockMove (h : s.callbackStep k ok = some s') : s.LockMove s' (.callback k) := by
  have others := callback_others h
  cases hpc : (s.callbacks k).pc
  case atPush => exact push_lockMove hpc h
  case atReply => exact reply_lockMove hpc h
  all_goals simp only [System.callbackStep,hpc,acquire_map_eq_some] at h
  case absent | left => cases h
  case atPendingLock | atQueueLock | atStateLock | atRelock | atEraseLock =>
    obtain ⟨hl,rfl⟩ := h
    refine lockMove_acquire _ hl rfl others ?_
    simp [held_of_pc hpc,goto_held,CallbackPc.held,or_comm]
  case atOpenCheck =>
    split at h <;> obtain rfl := Option.some.inj h
    · exact lockMove_keep rfl others ((goto_held s k _).trans (held_of_pc hpc).symm)
    · refine lockMove_release .pendingMutex rfl others ?_ ?_ <;>
        simp [held_of_pc hpc,goto_held,CallbackPc.held]
  case atInsert =>
    obtain rfl := Option.some.inj h
    refine lockMove_release .pendingMutex rfl others ?_ ?_ <;>
      simp [held_of_pc hpc,goto_held,CallbackPc.held]
  case atPayload | inWait =>
    obtain rfl := Option.some.inj h
    refine lockMove_keep rfl others ((goto_held s k _).trans (Eq.trans ?_ (held_of_pc hpc).symm))
    cases ok <;> rfl
  case atEnqueueCheck =>
    split at h <;> obtain rfl := Option.some.inj h
    · exact lockMove_keep rfl others ((goto_held s k _).trans (held_of_pc hpc).symm)
    · refine lockMove_release .queueMutex rfl others (by simp [held_of_pc hpc,CallbackPc.held]) ?_
      simp only [goto_held,afterEnqueue_held,held_of_pc hpc]
      simp [CallbackPc.held]
  case atPredicate =>
    split at h <;> obtain rfl := Option.some.inj h
    · exact lockMove_keep rfl others ((goto_held s k _).trans (held_of_pc hpc).symm)
    · refine lockMove_release (.stateMutex k) rfl others ?_ ?_ <;>
        simp [held_of_pc hpc,goto_held,CallbackPc.held]
  case atErase =>
    obtain rfl := Option.some.inj h
    refine lockMove_release .pendingMutex rfl others (by simp [held_of_pc hpc,CallbackPc.held]) ?_
    intro m
    simp only [held_of_pc hpc,goto_held,CallbackPc.held,List.mem_cons,List.not_mem_nil,or_false]
    grind
  case atUnlock =>
    obtain rfl := Option.some.inj h
    refine lockMove_release (.stateMutex k) rfl others ?_ ?_ <;>
      simp [held_of_pc hpc,goto_held,CallbackPc.held]

theorem worker_others (h : s.workerStep timedOut outcome = some s') (u : Thread)
    (hu : u ≠ .worker) : s'.held u = s.held u := by
  cases u with
  | worker => exact absurd rfl hu
  | closer c => simp [System.held,(worker_frame h).closers]
  | callback j => simp [System.held,(worker_kept h j).pc]

theorem worker_lockMove (h : s.workerStep timedOut outcome = some s') : s.LockMove s' .worker := by
  have others := worker_others h
  unfold System.workerStep at h
  cases hpc : s.worker <;> simp only [hpc,acquire_map_eq_some] at h
  case exited => cases h
  case atLoop =>
    obtain rfl := Option.some.inj h
    refine lockMove_keep rfl others ?_
    cases s.stopRequested <;> simp [System.held,hpc,WorkerPc.held]
  case atQueueLock =>
    obtain ⟨hl,rfl⟩ := h
    refine lockMove_acquire .queueMutex hl rfl others ?_
    simp [System.held,hpc,WorkerPc.held]
  case atPredicate =>
    split at h <;> obtain rfl := Option.some.inj h
    · refine lockMove_keep rfl others ?_
      simp [System.held,hpc,WorkerPc.held]
    · refine lockMove_release .queueMutex rfl others ?_ ?_ <;>
        simp [System.held,hpc,WorkerPc.held]
  case inWait | atReport =>
    obtain rfl := Option.some.inj h
    refine lockMove_keep rfl others ?_
    simp [System.held,hpc,WorkerPc.held]
  case atRelock timedOut =>
    obtain ⟨hl,rfl⟩ := h
    refine lockMove_acquire .queueMutex hl rfl others ?_
    cases timedOut <;> simp [System.held,hpc,WorkerPc.held]
  case atFront =>
    split at h <;> obtain rfl := Option.some.inj h <;>
      refine lockMove_release .queueMutex rfl others ?_ ?_ <;>
      simp [System.held,hpc,WorkerPc.held]
  case atDispatch incoming =>
    obtain rfl := Option.some.inj h
    refine lockMove_keep rfl others ?_
    cases hr : outcome.response <;> cases hk : incoming.message.kind <;>
      simp [System.held,hpc,WorkerPc.held]
  case atPendingLock incoming payload =>
    obtain ⟨hl,rfl⟩ := h
    refine lockMove_acquire .pendingMutex hl rfl others ?_
    simp [System.held,hpc,WorkerPc.held]
  case atFind incoming payload =>
    split at h <;> obtain rfl := Option.some.inj h <;>
      refine lockMove_release .pendingMutex rfl others ?_ ?_ <;>
      simp [System.held,hpc,WorkerPc.held]
  case atStateLock incoming state payload =>
    obtain ⟨hl,rfl⟩ := h
    refine lockMove_acquire (.stateMutex state) hl rfl others ?_
    simp [System.held,hpc,WorkerPc.held]
  case atStore incoming state payload =>
    obtain rfl := Option.some.inj h
    refine lockMove_release (.stateMutex state) rfl others ?_ ?_ <;>
      simp [System.held,hpc,WorkerPc.held]

theorem close_others (h : s.closeStep c pick = some s') (u : Thread) (hu : u ≠ .closer c) :
    s'.held u = s.held u := by
  cases u with
  | worker => simp [System.held,(close_frame h).worker]
  | callback j => simp [System.held,(close_kept h j).pc]
  | closer d =>
    have hd : d ≠ c := by simpa using hu
    simp only [System.held,(close_frame h).others d hd]

theorem close_lockMove (h : s.closeStep c pick = some s') : s.LockMove s' (.closer c) := by
  have others := close_others h
  unfold System.closeStep at h
  cases hpc : s.closers c <;> simp only [hpc,acquire_map_eq_some] at h
  case idle =>
    split at h <;> obtain rfl := Option.some.inj h
    · refine lockMove_keep rfl others ?_
      simp [System.held,System.setCloser,hpc,CloserPc.held]
    · exact lockMove_keep rfl others rfl
  case atQueueLock =>
    obtain ⟨hl,rfl⟩ := h
    refine lockMove_acquire .queueMutex hl rfl others ?_
    simp [System.held,System.setCloser,hpc,CloserPc.held]
  case atNotify =>
    obtain rfl := Option.some.inj h
    refine lockMove_release .queueMutex rfl others ?_ ?_ <;>
      simp [System.held,System.setCloser,System.release,hpc,CloserPc.held]
  case atPendingLock =>
    obtain ⟨hl,rfl⟩ := h
    refine lockMove_acquire .pendingMutex hl rfl others ?_
    simp [System.held,System.setCloser,hpc,CloserPc.held]
  case cancelling todo =>
    cases todo with
    | nil =>
      obtain rfl := Option.some.inj h
      refine lockMove_release .pendingMutex rfl others ?_ ?_ <;>
        simp [System.held,System.setCloser,System.release,hpc,CloserPc.held]
    | cons p ps =>
      obtain ⟨q,-,rfl⟩ := Option.map_eq_some_iff.mp h
      refine lockMove_keep rfl others ?_
      simp [System.held,System.setCloser,hpc,CloserPc.held]
  case atStateLock state todo =>
    obtain ⟨hl,rfl⟩ := h
    refine lockMove_acquire (.stateMutex state) hl rfl others ?_
    simp [System.held,System.setCloser,hpc,CloserPc.held]
  case atCancel state todo =>
    obtain rfl := Option.some.inj h
    refine lockMove_release (.stateMutex state) rfl others ?_ ?_
    · simp [System.held,hpc,CloserPc.held]
    · intro m
      simp only [System.held,System.setCloser,System.setCallback,hpc,CloserPc.held,
        Function.update_self,List.mem_cons,List.not_mem_nil,or_false]
      grind

theorem locksMatch_initial (isServer : Bool) : (System.initial isServer).LocksMatch := by
  intro t l
  cases t <;> simp [System.initial,System.Holds,System.held,CallbackPc.held,WorkerPc.held,
    CloserPc.held]

theorem locksMatch_congr (h : s.LocksMatch) (locks : s'.locks = s.locks)
    (held : ∀ u, s'.held u = s.held u) : s'.LocksMatch := by
  intro u l
  rw [locks,System.Holds,held u]
  exact h u l

theorem arrive_held (payload : Option DdsBytes) (habsent : ∀ k, s.arrived ≤ k →
    (s.callbacks k).pc = .absent) (u : Thread) : (s.arrive payload).held u = s.held u := by
  have hf := arrive_frame (s := s) payload
  cases u with
  | worker => simp only [System.held,hf.worker]
  | closer c => simp only [System.held,hf.closers]
  | callback j =>
    by_cases hj : j = s.arrived
    · have hpc := habsent j (by omega)
      subst hj
      simp only [System.held,hf.newest,hpc]
      cases s.isServer <;> rfl
    · simp only [System.held,hf.others j hj]

theorem step_locksMatch {a : Action} (habsent : ∀ k, s.arrived ≤ k → (s.callbacks k).pc = .absent)
    (h : s.LocksMatch) (ha : step s a = some s') : s'.LocksMatch := by
  cases a with
  | callback k ok => exact h.move (callback_lockMove ha)
  | worker timedOut outcome => exact h.move (worker_lockMove ha)
  | close c pick => exact h.move (close_lockMove ha)
  | arrive payload =>
    obtain rfl := Option.some.inj ha
    exact locksMatch_congr h (arrive_frame payload).locks (arrive_held payload habsent)
  | openTransport o ok =>
    obtain ⟨isOpen,openers,opens,he⟩ := openStep_fields (s := s) o ok
    obtain rfl := Option.some.inj ha
    rw [he]
    exact locksMatch_congr h rfl (fun u => by cases u <;> rfl)
  | requestStop | clearStop =>
    obtain rfl := Option.some.inj ha
    exact locksMatch_congr h rfl (fun u => by cases u <;> rfl)
  | startWorker =>
    obtain ⟨hw,rfl⟩ := startWorker_some ha
    refine locksMatch_congr h rfl (fun u => ?_)
    cases u <;> simp [System.held,hw,WorkerPc.held]

end DdsAbstract.Zenoh
