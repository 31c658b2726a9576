import DdsAbstract.Zenoh.Running

namespace DdsAbstract.Zenoh

variable {s s' : System} {delivered : List DdsBytes} {outcome : HandlerOutcome}

structure Serving (s : System) (delivered : List DdsBytes) : Prop extends Flow s delivered where
  alive : s.worker ≠ .exited
  notStopped : s.stopRequested = false
  closers : ∀ c, s.closers c = .idle

def QueueReady (s : System) : Prop :=
  s.locks .queueMutex = none ∨ s.locks .queueMutex = some .worker

def WorkerPc.rank : WorkerPc → Nat
  | .atReport => 6
  | .atLoop | .inWait => 5
  | .atQueueLock | .atRelock false => 4
  | .atPredicate | .atRelock true => 3
  | .atFront => 2
  | .atDispatch _ => 1
  | _ => 0

theorem rank_le (pc : WorkerPc) : pc.rank ≤ 6 := by
  cases pc with
  | atRelock timedOut => cases timedOut <;> simp [WorkerPc.rank]
  | _ => simp [WorkerPc.rank]

def backlogRank (m : Nat) (s : System) : Nat := 6 * (m - s.dispatched.length) + s.worker.rank

theorem queue_free (hl : LockInvariant s) (hq : QueueReady s)
    (hw : Lock.queueMutex ∉ s.worker.held) : s.locks .queueMutex = none := by
  rcases hq with hq | hq
  · exact hq
  · exact absurd ((hl.locks .worker .queueMutex).mp hq) hw

theorem worker_serving {timedOut : Bool} (hs : Serving s delivered)
    (h : s.workerStep timedOut outcome = some s') : Serving s' delivered := by
  have frame := worker_frame h
  exact ⟨(worker_flow hs.toFlow h).1,Lifecycle.worker_alive hs.notStopped h,
    frame.stopRequested.trans hs.notStopped,fun c => frame.closers ▸ hs.closers c⟩

theorem callback_serving {k : Nat} {ok : Bool} (hs : Serving s delivered)
    (h : s.callbackStep k ok = some s') : Serving s' delivered := by
  have frame := callback_frame h
  exact ⟨(callback_flow hs.toFlow h).1,frame.worker ▸ hs.alive,
    frame.stopRequested.trans hs.notStopped,fun c => frame.closers ▸ hs.closers c⟩

theorem worker_enabled (hs : Serving s delivered) (hq : QueueReady s) (outcome : HandlerOutcome) :
    ∃ t, s.workerStep true outcome = some t ∧ QueueReady t := by
  have free := queue_free hs.locks hq
  have working := hs.worker
  have alive := hs.alive
  cases hpc : s.worker <;> simp only [hpc,WorkerPc.incoming,WorkerPc.held] at free working alive
  case exited => exact absurd rfl alive
  case atLoop =>
    exact ⟨{ s with worker := .atQueueLock },by simp [System.workerStep,hpc,hs.notStopped],hq⟩
  case atQueueLock | atRelock =>
    have unlocked : s.locks .queueMutex = none := by simpa using free
    refine ⟨_,by simp only [System.workerStep,hpc,System.acquire,unlocked,if_true]; rfl,.inr ?_⟩
    simp
  case atPredicate =>
    by_cases hp : s.stopRequested || !s.queue.isEmpty || !s.isOpen
    · exact ⟨{ s with worker := .atFront },by simp only [System.workerStep,hpc,if_pos hp],hq⟩
    · exact ⟨{ s.release .queueMutex with worker := .inWait },
        by simp only [System.workerStep,hpc,if_neg hp],.inl (by simp [System.release])⟩
  case inWait | atReport | atDispatch =>
    refine ⟨_,by simp only [System.workerStep,hpc]; rfl,?_⟩
    exact hq
  case atFront =>
    cases hqueue : s.queue with
    | nil =>
      exact ⟨{ s.release .queueMutex with worker := .atLoop },
        by simp only [System.workerStep,hpc,hqueue],.inl (by simp [System.release])⟩
    | cons e rest =>
      exact ⟨{ s.release .queueMutex with queue := rest, worker := .atDispatch e },
        by simp only [System.workerStep,hpc,hqueue],.inl (by simp [System.release])⟩
  all_goals simp at working

theorem worker_falls {timedOut : Bool} {m : Nat} (hf : Flow s delivered)
    (hstop : s.stopRequested = false) (hm : m ≤ (accepted s).length)
    (behind : s.dispatched.length < m) (h : s.workerStep timedOut outcome = some s') :
    backlogRank m s' < backlogRank m s := by
  have working := hf.worker
  have list := congrArg List.length (worker_accepted h)
  have waiting : s.worker.undispatched = [] → s.queue ≠ [] := by
    intro hw hq
    simp [accepted,hw,hq] at hm
    omega
  unfold System.workerStep at h
  cases hpc : s.worker <;>
    simp only [hpc,WorkerPc.incoming,WorkerPc.undispatched,acquire_map_eq_some] at h working waiting
  case exited => cases h
  case atLoop =>
    obtain rfl := Option.some.inj h
    simp [backlogRank,hpc,hstop,WorkerPc.rank]
  case atQueueLock =>
    obtain ⟨-,rfl⟩ := h
    simp [backlogRank,hpc,WorkerPc.rank]
  case atPredicate =>
    have hqueue : s.queue.isEmpty = false := by simpa using waiting trivial
    simp only [hqueue,Bool.not_false,Bool.or_true,Bool.true_or,if_true] at h
    obtain rfl := Option.some.inj h
    simp [backlogRank,hpc,WorkerPc.rank]
  case inWait =>
    obtain rfl := Option.some.inj h
    cases timedOut <;> simp [backlogRank,hpc,WorkerPc.rank]
  case atRelock timedOut =>
    obtain ⟨-,rfl⟩ := h
    cases timedOut <;> simp [backlogRank,hpc,WorkerPc.rank]
  case atFront =>
    cases hqueue : s.queue with
    | nil => exact absurd hqueue (waiting trivial)
    | cons e rest =>
      rw [hqueue] at h
      obtain rfl := Option.some.inj h
      simp [backlogRank,hpc,WorkerPc.rank,System.release]
  case atDispatch e =>
    have kind := hf.kinds e (by simp [accepted,hpc,WorkerPc.undispatched])
    obtain rfl := Option.some.inj h
    simp only [backlogRank,hpc,kind,List.length_append,List.length_singleton,WorkerPc.rank]
    cases outcome.response <;> simp only <;> omega
  case atReport =>
    obtain rfl := Option.some.inj h
    simp [backlogRank,hpc,WorkerPc.rank]
  all_goals simp at working

def Action.ofWorkOrSample (outcome : HandlerOutcome) : Action → Bool
  | .callback .. => true
  | .worker _ o => o = outcome
  | _ => false

theorem push_releases {k : Nat} (hpc : (s.callbacks k).pc = .atPush) :
    ∃ t, s.callbackStep k true = some t ∧ t.locks .queueMutex = none := by
  refine ⟨_,by simp only [System.callbackStep,hpc,if_true]; rfl,?_⟩
  simp [System.release,System.setCallback]

theorem step_accepted_grows {a : Action} (h : step s a = some s') : accepted s <+: accepted s' := by
  cases step_accepted h with
  | same list => exact list ▸ List.prefix_rfl
  | push k pc enqueued list => exact list ▸ List.prefix_append _ _

theorem run_accepted_grows {as : List Action} (h : Transition.run step s as = some s') :
    accepted s <+: accepted s' :=
  Transition.run_invariant (I := fun t => accepted s <+: accepted t)
    (fun _ _ _ hp ht => hp.trans (step_accepted_grows ht)) List.prefix_rfl h

theorem queue_released (hs : Serving s delivered) (outcome : HandlerOutcome) : ∃ as t,
    (∀ a ∈ as, a.ofWorkOrSample outcome = true) ∧ Transition.run step s as = some t ∧
      Serving t delivered ∧ QueueReady t := by
  cases hl : s.locks .queueMutex with
  | none => exact ⟨[],s,by simp,rfl,hs,.inl hl⟩
  | some owner =>
    have holds := (hs.locks.locks owner .queueMutex).mp hl
    cases owner with
    | worker => exact ⟨[],s,by simp,rfl,hs,.inr hl⟩
    | closer c => simp [System.Holds,System.held,hs.closers c,CloserPc.held] at holds
    | callback k =>
      have pushing {r : System} (hr : Serving r delivered) (hpc : (r.callbacks k).pc = .atPush) :
          ∃ as t, (∀ a ∈ as, a.ofWorkOrSample outcome = true) ∧ Transition.run step r as = some t ∧
            Serving t delivered ∧ QueueReady t := by
        obtain ⟨t,ht,free⟩ := push_releases hpc
        exact ⟨[.callback k true],t,by simp [Action.ofWorkOrSample],Transition.run_single ht,
          callback_serving hr ht,.inl free⟩
      cases hpc : (s.callbacks k).pc <;>
        simp [System.Holds,System.held,hpc,CallbackPc.held] at holds
      case atPush => exact pushing hs hpc
      case atEnqueueCheck =>
        cases hopen : s.isOpen with
        | true =>
          have ht : s.callbackStep k true = some (s.goto k .atPush) := by
            simp [System.callbackStep,hpc,hopen]
          obtain ⟨as,t,has,hrun,hserving,hready⟩ :=
            pushing (callback_serving hs ht) (by simp [System.goto,System.setCallback])
          exact ⟨.callback k true :: as,t,by simpa [Action.ofWorkOrSample] using has,
            Transition.run_cons_iff.mpr ⟨_,ht,hrun⟩,hserving,hready⟩
        | false =>
          have ht : s.callbackStep k true =
              some ((s.release .queueMutex).goto k s.afterEnqueue) := by
            simp [System.callbackStep,hpc,hopen]
          exact ⟨[.callback k true],_,by simp [Action.ofWorkOrSample],Transition.run_single ht,
            callback_serving hs ht,.inl (by simp [System.release,System.goto,System.setCallback])⟩

theorem drains (hs : Serving s delivered) (outcome : HandlerOutcome) : ∃ as t,
    (∀ a ∈ as, a.ofWorkOrSample outcome = true) ∧ Transition.run step s as = some t ∧
      (accepted s).length ≤ t.dispatched.length ∧ accepted s <+: accepted t := by
  obtain ⟨as,r,has,hr,serving,ready⟩ := queue_released hs outcome
  have longer := (run_accepted_grows hr).length_le
  let Behind (u : System) := Serving u delivered ∧ QueueReady u ∧
    (accepted s).length ≤ (accepted u).length
  have progress : ∀ u, Behind u → ¬ (accepted s).length ≤ u.dispatched.length →
      ∃ a t, a.ofWorkOrSample outcome = true ∧ step u a = some t ∧ Behind t ∧
        ((accepted s).length ≤ t.dispatched.length ∨
          backlogRank (accepted s).length t < backlogRank (accepted s).length u) := by
    rintro u ⟨hu,hready,hlen⟩ behind
    obtain ⟨t,ht,hready'⟩ := worker_enabled hu hready outcome
    refine ⟨.worker true outcome,t,by simp [Action.ofWorkOrSample],ht,
      ⟨worker_serving hu ht,hready',worker_accepted ht ▸ hlen⟩,.inr ?_⟩
    exact worker_falls hu.toFlow hu.notStopped hlen (by omega) ht
  obtain ⟨bs,t,hbs,ht,-,done⟩ :=
    Transition.exists_run_of_measure (backlogRank (accepted s).length) progress
      ⟨serving,ready,longer⟩
  have whole := Transition.run_trans hr ht
  refine ⟨as ++ bs,t,?_,whole,done,run_accepted_grows whole⟩
  intro a ha
  rcases List.mem_append.mp ha with ha | ha
  · exact has a ha
  · exact hbs a ha

end DdsAbstract.Zenoh
