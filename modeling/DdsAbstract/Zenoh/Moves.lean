import Mathlib.Data.List.Perm.Basic
import DdsAbstract.Zenoh.Steps

namespace DdsAbstract.Zenoh

variable {s s' : System} {k c pick : Nat} {ok timedOut : Bool} {outcome : HandlerOutcome}

theorem callback_waits (h : s.callbackStep k ok = some s')
    (now : (s'.callbacks k).pc = .inWait) : (s.callbacks k).state.settled = false := by
  unfold System.callbackStep at h
  cases hpc : (s.callbacks k).pc <;> simp only [hpc,acquire_map_eq_some] at h
  case absent | left => cases h
  case atPendingLock | atQueueLock | atStateLock | atRelock | atEraseLock =>
    obtain ⟨-,rfl⟩ := h
    simp [System.goto,System.setCallback] at now
  case atInsert | inWait | atErase | atUnlock =>
    obtain rfl := Option.some.inj h
    simp [System.goto,System.setCallback] at now
  case atPayload =>
    obtain rfl := Option.some.inj h
    cases ok <;> simp [System.goto,System.setCallback] at now
  case atOpenCheck =>
    split at h <;> obtain rfl := Option.some.inj h <;> simp [System.goto,System.setCallback] at now
  case atEnqueueCheck | atPush =>
    split at h <;> obtain rfl := Option.some.inj h <;> cases hs : s.isServer <;>
      simp [System.goto,System.setCallback,System.afterEnqueue,hs] at now
  case atPredicate =>
    split at h
    · obtain rfl := Option.some.inj h
      simp [System.goto,System.setCallback] at now
    · rename_i unsettled
      simpa [ServerReply.settled] using unsettled
  case atReply =>
    split at h
    · obtain rfl := Option.some.inj h
      simp [System.goto,System.setCallback] at now
    · split at h <;> obtain rfl := Option.some.inj h <;>
        simp [System.goto,System.setCallback] at now

theorem worker_waits (h : s.workerStep timedOut outcome = some s') (now : s'.worker = .inWait) :
    s'.queue = [] ∧ s'.stopRequested = false ∧ s'.isOpen = true := by
  unfold System.workerStep at h
  cases hpc : s.worker <;> simp only [hpc,acquire_map_eq_some] at h
  case exited => cases h
  case atLoop =>
    obtain rfl := Option.some.inj h
    cases hs : s.stopRequested <;> simp [hs] at now
  case atQueueLock | atPendingLock | atStateLock =>
    obtain ⟨-,rfl⟩ := h
    cases now
  case atRelock timedOut =>
    obtain ⟨-,rfl⟩ := h
    cases timedOut <;> cases now
  case atPredicate =>
    split at h <;> obtain rfl := Option.some.inj h
    · cases now
    · rename_i idle
      simp only [Bool.or_eq_true,Bool.not_eq_true',List.isEmpty_eq_false_iff,not_or] at idle
      have queue : s.queue = [] := by simpa using idle.1.2
      have stop : s.stopRequested = false := by simpa using idle.1.1
      have opened : s.isOpen = true := by simpa using idle.2
      exact ⟨queue,stop,opened⟩
  case atFront | atFind =>
    split at h <;> obtain rfl := Option.some.inj h <;> cases now
  case atDispatch e =>
    obtain rfl := Option.some.inj h
    cases hr : outcome.response <;> cases hk : e.message.kind <;> simp [hr,hk] at now
  case inWait | atReport | atStore =>
    obtain rfl := Option.some.inj h
    cases now

theorem push_ok (h : s.callbackStep k ok = some s')
    (grown : s'.queue ≠ s.queue) : (s.callbacks k).pc = .atPush ∧ ok = true := by
  cases callback_move h with
  | push pc pc' pending queue he hr =>
    refine ⟨pc,?_⟩
    cases ok with
    | true => rfl
    | false =>
      simp only [System.callbackStep,pc,Bool.false_eq_true,if_false,Option.some.injEq] at h
      exact absurd (h ▸ rfl) grown
  | quiet pc pending queue he hr | insert pc pending queue he hr
  | reply value pc pc' sent pending queue he hr | erase pc pc' pending queue he hr =>
    exact absurd queue grown

inductive EntryMove (s s' : System) (k : Nat) : Prop
  | checks (now : (s'.callbacks k).pc = .atInsert) (isOpen : s.isOpen = true)
  | inserts (was : (s.callbacks k).pc = .atInsert) (after : (s'.callbacks k).pc.afterPush = false)
      (now : (s'.callbacks k).pc ≠ .atInsert)
  | skips (was : (s.callbacks k).pc = .atEnqueueCheck) (isClosed : s.isOpen = false)
      (now : (s'.callbacks k).pc ≠ .atInsert)
  | leaves (now : (s'.callbacks k).pc.registered = false) (now' : (s'.callbacks k).pc ≠ .atInsert)
  | stays (now : (s'.callbacks k).pc ≠ .atInsert)
      (registered : (s'.callbacks k).pc.registered = true → (s.callbacks k).pc.registered = true)
      (skipped : (s'.callbacks k).pc.afterPush = true → (s'.callbacks k).enqueued = false →
        (s.callbacks k).pc.afterPush = true ∧ (s.callbacks k).enqueued = false)

theorem entry_move (hserver : s.isServer = true) (h : s.callbackStep k ok = some s') :
    EntryMove s s' k := by
  unfold System.callbackStep at h
  cases hpc : (s.callbacks k).pc <;> simp only [hpc,acquire_map_eq_some] at h
  case absent | left => cases h
  case atPendingLock | atQueueLock | atStateLock | atRelock | atEraseLock =>
    obtain ⟨-,rfl⟩ := h
    apply EntryMove.stays <;> simp [System.goto,System.setCallback,hpc,CallbackPc.registered,
      CallbackPc.afterPush]
  case atOpenCheck =>
    split at h <;> obtain rfl := Option.some.inj h
    · exact .checks (by simp [System.goto,System.setCallback]) ‹_›
    · apply EntryMove.leaves <;>
        simp [System.goto,System.setCallback,CallbackPc.registered]
  case atInsert =>
    obtain rfl := Option.some.inj h
    apply EntryMove.inserts hpc <;> simp [System.goto,System.setCallback,CallbackPc.afterPush]
  case atPayload =>
    obtain rfl := Option.some.inj h
    cases ok
    · apply EntryMove.leaves <;> simp [System.goto,System.setCallback,CallbackPc.registered]
    · apply EntryMove.stays <;> simp [System.goto,System.setCallback,hpc,CallbackPc.registered,
        CallbackPc.afterPush]
  case atEnqueueCheck =>
    split at h <;> obtain rfl := Option.some.inj h
    · apply EntryMove.stays <;> simp [System.goto,System.setCallback,hpc,CallbackPc.registered,
        CallbackPc.afterPush]
    · rename_i hopen
      exact .skips hpc (by simpa using hopen)
        (by simp [System.goto,System.setCallback,System.afterEnqueue,hserver])
  case atPush =>
    split at h <;> obtain rfl := Option.some.inj h
    · apply EntryMove.stays <;> simp [System.setCallback,System.afterEnqueue,hserver,hpc,
        CallbackPc.registered]
    · apply EntryMove.leaves <;> simp [System.goto,System.setCallback,CallbackPc.registered]
  case atPredicate =>
    split at h <;> obtain rfl := Option.some.inj h <;> apply EntryMove.stays <;>
      simp [System.goto,System.setCallback,System.release,hpc,CallbackPc.registered,CallbackPc.afterPush]
  case inWait | atErase | atUnlock =>
    obtain rfl := Option.some.inj h
    apply EntryMove.stays <;> simp [System.goto,System.setCallback,System.release,hpc,
      CallbackPc.registered,CallbackPc.afterPush]
  case atReply =>
    split at h
    · obtain rfl := Option.some.inj h
      apply EntryMove.stays <;> simp [System.goto,System.setCallback,hpc,CallbackPc.registered,
        CallbackPc.afterPush]
    · split at h <;> obtain rfl := Option.some.inj h
      · apply EntryMove.stays <;> simp [System.setCallback,hpc,CallbackPc.registered,
          CallbackPc.afterPush]
      · apply EntryMove.leaves <;> simp [System.goto,System.setCallback,CallbackPc.registered]

theorem worker_state (h : s.workerStep timedOut outcome = some s')
    (apart : ∀ e payload, s.worker ≠ .atStore e k payload) :
    s'.callbacks k = s.callbacks k := by
  cases worker_move h with
  | store e payload state was now queue dispatched callbacks =>
    have hk : k ≠ state := fun hk => apart e payload (hk ▸ was)
    rw [callbacks,Function.update_of_ne hk]
  | _ =>
    rename_i callbacks
    rw [callbacks]

theorem close_state (h : s.closeStep c pick = some s')
    (apart : ∀ todo, s.closers c ≠ .atCancel k todo) : s'.callbacks k = s.callbacks k := by
  unfold System.closeStep at h
  cases hpc : s.closers c <;> simp only [hpc,acquire_map_eq_some] at h
  case idle =>
    split at h <;> obtain rfl := Option.some.inj h <;> rfl
  case atQueueLock | atPendingLock | atStateLock =>
    obtain ⟨-,rfl⟩ := h
    rfl
  case atNotify =>
    obtain rfl := Option.some.inj h
    rfl
  case cancelling todo =>
    cases todo with
    | nil =>
      obtain rfl := Option.some.inj h
      rfl
    | cons p ps =>
      obtain ⟨q,-,rfl⟩ := Option.map_eq_some_iff.mp h
      rfl
  case atCancel state todo =>
    have hk : k ≠ state := fun hk => apart todo (hk ▸ hpc)
    obtain rfl := Option.some.inj h
    simp [System.setCloser,System.setCallback,System.release,hk]

inductive ClosePhase (s s' : System) (c : Nat) : Prop
  | closed (was : s.closers c = .idle) (isClosed : s.isOpen = false) (same : s' = s)
  | exchange (was : s.closers c = .idle) (now : s'.closers c = .atQueueLock) (opened : s.isOpen = true)
      (isClosed : s'.isOpen = false)
  | lockQueue (was : s.closers c = .atQueueLock) (now : s'.closers c = .atNotify)
      (isOpen : s'.isOpen = s.isOpen)
  | notify (was : s.closers c = .atNotify) (now : s'.closers c = .atPendingLock)
      (isOpen : s'.isOpen = s.isOpen)
  | snapshot (was : s.closers c = .atPendingLock) (free : s.locks .pendingMutex = none)
      (now : s'.closers c = .cancelling (s.pending.entries.map (·.2))) (isOpen : s'.isOpen = s.isOpen)
  | ends (was : s.closers c = .cancelling []) (now : s'.closers c = .idle)
      (isOpen : s'.isOpen = s.isOpen)
  | picks (state : Nat) (todo rest : List Nat) (was : s.closers c = .cancelling todo)
      (now : s'.closers c = .atStateLock state rest) (covers : ∀ p ∈ todo, p ∈ state :: rest)
      (isOpen : s'.isOpen = s.isOpen)
  | lockState (state : Nat) (todo : List Nat) (was : s.closers c = .atStateLock state todo)
      (now : s'.closers c = .atCancel state todo) (isOpen : s'.isOpen = s.isOpen)
  | cancel (state : Nat) (todo : List Nat) (was : s.closers c = .atCancel state todo)
      (now : s'.closers c = .cancelling todo)
      (cancelled : (s'.callbacks state).state.cancelled = true) (isOpen : s'.isOpen = s.isOpen)

theorem mem_cons_eraseIdx {todo : List Nat} {p : Nat} (hp : todo[pick]? = some p) :
    ∀ q ∈ todo, q ∈ p :: todo.eraseIdx pick := by
  obtain ⟨hlt,rfl⟩ := List.getElem?_eq_some_iff.mp hp
  exact fun q hq => (List.getElem_cons_eraseIdx_perm hlt).mem_iff.mpr hq

theorem close_phase (h : s.closeStep c pick = some s') :
    ClosePhase s s' c := by
  unfold System.closeStep at h
  cases hpc : s.closers c <;> simp only [hpc,acquire_map_eq_some] at h
  case idle =>
    split at h <;> obtain rfl := Option.some.inj h
    · exact .exchange hpc (by simp [System.setCloser]) ‹_› rfl
    · rename_i hopen
      exact .closed hpc (by simpa using hopen) rfl
  case atQueueLock =>
    obtain ⟨-,rfl⟩ := h
    exact .lockQueue hpc (by simp [System.setCloser]) rfl
  case atNotify =>
    obtain rfl := Option.some.inj h
    exact .notify hpc (by simp [System.setCloser]) rfl
  case atPendingLock =>
    obtain ⟨free,rfl⟩ := h
    exact .snapshot hpc free (by simp [System.setCloser]) rfl
  case cancelling todo =>
    cases todo with
    | nil =>
      obtain rfl := Option.some.inj h
      exact .ends hpc (by simp [System.setCloser]) rfl
    | cons p ps =>
      obtain ⟨q,hq,rfl⟩ := Option.map_eq_some_iff.mp h
      exact .picks q _ _ hpc (by simp [System.setCloser]) (mem_cons_eraseIdx hq) rfl
  case atStateLock state todo =>
    obtain ⟨-,rfl⟩ := h
    exact .lockState state todo hpc (by simp [System.setCloser]) rfl
  case atCancel state todo =>
    obtain rfl := Option.some.inj h
    exact .cancel state todo hpc (by simp [System.setCloser])
      (by simp [System.setCloser,System.setCallback,System.release]) rfl

end DdsAbstract.Zenoh
