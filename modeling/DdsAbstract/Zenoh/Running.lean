import DdsAbstract.Zenoh.Lifecycle
import DdsAbstract.Zenoh.Samples

namespace DdsAbstract.Zenoh

variable {s s' : System} {a : Action} {delivered : List DdsBytes}

def Action.ofOwner : Action → Bool
  | .close .. | .openTransport .. | .requestStop | .clearStop | .startWorker => true
  | _ => false

structure OwnerFrame (s s' : System) : Prop where
  isServer : s'.isServer = s.isServer
  arrived : s'.arrived = s.arrived
  dispatched : s'.dispatched = s.dispatched
  accepted : accepted s' = accepted s
  worker : s'.worker = s.worker ∨ s'.worker = .atLoop
  callbacks : ∀ j, CallbackKept (s.callbacks j) (s'.callbacks j)

theorem owner_frame (ha : a.ofOwner = true) (h : step s a = some s') : OwnerFrame s s' := by
  cases a with
  | close c pick =>
    have frame := close_frame h
    exact ⟨frame.isServer,frame.arrived,frame.dispatched,
      by simp only [accepted,frame.dispatched,frame.worker,frame.queue],.inl frame.worker,
      close_kept h⟩
  | openTransport o ok =>
    obtain ⟨isOpen,openers,opens,he⟩ := openStep_fields (s := s) o ok
    obtain rfl := Option.some.inj h
    rw [he]
    exact ⟨rfl,rfl,rfl,rfl,.inl rfl,fun _ => .refl _⟩
  | requestStop | clearStop =>
    obtain rfl := Option.some.inj h
    exact ⟨rfl,rfl,rfl,rfl,.inl rfl,fun _ => .refl _⟩
  | startWorker =>
    obtain ⟨hexit,rfl⟩ := startWorker_some h
    exact ⟨rfl,rfl,rfl,by simp [accepted,hexit,WorkerPc.undispatched],.inr rfl,fun _ => .refl _⟩
  | _ => cases ha

theorem owner_flow (hf : Flow s delivered) (ha : a.ofOwner = true) (h : step s a = some s') :
    Flow s' delivered := by
  have frame := owner_frame ha h
  refine hf.kept (step_lockInvariant hf.locks h) frame.isServer frame.arrived frame.accepted
    frame.callbacks ?_
  rcases frame.worker with hw | hw
  · rw [hw]
    exact hf.worker
  · rw [hw]
    exact .inl rfl

namespace Lifecycle

variable {n n' : Node} {ok : Bool} {pick : Nat}

theorem closeStep_simulates {next : LifePc} (h : n.closeStep pick next = some n') :
    Zenoh.step n.system (.close 0 pick) = some n'.system ∧
      n'.life = if n'.system.closers 0 = .idle then next else n.life := by
  obtain ⟨t,ht,rfl⟩ := Option.map_eq_some_iff.mp h
  exact ⟨ht,rfl⟩

theorem lifeStep_simulates (h : n.lifeStep ok pick = some n') :
    n'.system = n.system ∨
      ∃ a : Zenoh.Action, a.ofOwner = true ∧ Zenoh.step n.system a = some n'.system := by
  unfold Node.lifeStep at h
  cases hl : n.life <;> simp only [hl] at h
  case atOpen =>
    split at h <;> obtain rfl := Option.some.inj h
    · exact .inl rfl
    · exact .inr ⟨.openTransport 0 ok,rfl,rfl⟩
  case opening =>
    obtain rfl := Option.some.inj h
    exact .inr ⟨.openTransport 0 ok,rfl,rfl⟩
  case atReady =>
    split at h
    · obtain ⟨t,ht,rfl⟩ := Option.map_eq_some_iff.mp h
      exact .inr ⟨.startWorker,rfl,ht⟩
    · obtain rfl := Option.some.inj h
      exact .inl rfl
  case rollback | closing => exact .inr ⟨.close 0 pick,rfl,(closeStep_simulates h).1⟩
  case atSpawn =>
    obtain rfl := Option.some.inj h
    exact .inr ⟨.clearStop,rfl,rfl⟩
  case atFlag =>
    obtain rfl := Option.some.inj h
    exact .inr ⟨.requestStop,rfl,rfl⟩
  case atJoin =>
    split at h
    · obtain rfl := Option.some.inj h
      exact .inl rfl
    · cases h
  case stopped | opened | running =>
    obtain rfl := Option.some.inj h
    exact .inl rfl

structure Running (n : Node) : Prop where
  worker : n.life = .running → n.system.worker ≠ .exited
  notStopped : n.life = .atReady ∨ n.life = .running → n.system.stopRequested = false
  idle : ∀ c, n.system.closers c ≠ .idle → c = 0 ∧ (n.life = .rollback ∨ n.life = .closing)

theorem worker_alive {s s' : System} {timedOut : Bool} {outcome : HandlerOutcome}
    (hs : s.stopRequested = false) (h : s.workerStep timedOut outcome = some s') :
    s'.worker ≠ .exited := by
  unfold System.workerStep at h
  cases hpc : s.worker <;> simp only [hpc,acquire_map_eq_some] at h
  case exited => cases h
  case atLoop =>
    obtain rfl := Option.some.inj h
    simp [hs]
  case atQueueLock | atPendingLock | atStateLock =>
    obtain ⟨-,rfl⟩ := h
    simp
  case atRelock timedOut =>
    obtain ⟨-,rfl⟩ := h
    cases timedOut <;> simp
  case atPredicate | atFront | atFind =>
    split at h <;> obtain rfl := Option.some.inj h <;> simp
  case atDispatch e =>
    obtain rfl := Option.some.inj h
    cases outcome.response <;> cases e.message.kind <;> simp
  case inWait | atReport | atStore =>
    obtain rfl := Option.some.inj h
    simp

theorem lifeStep_running (hr : Running n) (h : n.lifeStep ok pick = some n') : Running n' := by
  have closes {next : LifePc} (hnext : ¬ (next = .atReady ∨ next = .running)) (hlife : n.life = .rollback ∨ n.life = .closing)
      (hc : n.closeStep pick next = some n') : Running n' := by
    obtain ⟨hstep,life⟩ := closeStep_simulates hc
    have frame := close_frame hstep
    have notRunning : ¬ (n'.life = .atReady ∨ n'.life = .running) := by
      rw [life]
      split
      · exact hnext
      · rcases hlife with hl | hl <;> simp [hl]
    refine ⟨fun hl => absurd (.inr hl) notRunning,fun hl => absurd hl notRunning,?_⟩
    intro c hbusy
    have zero : c = 0 := by
      by_contra hne
      rw [frame.others c hne] at hbusy
      exact hne (hr.idle c hbusy).1
    subst zero
    rw [life,if_neg hbusy]
    exact ⟨rfl,hlife⟩
  -- Outside of `Close` no closer is busy, and only `atReady` leads to `running`.
  have other {m : Node} (hquiet : ¬ (n.life = .rollback ∨ n.life = .closing))
      (closers : m.system.closers = n.system.closers)
      (hm : ¬ (m.life = .atReady ∨ m.life = .running)) : Running m :=
    ⟨fun hl => absurd (.inr hl) hm,fun hl => absurd hl hm,
      fun c hbusy => absurd (hr.idle c (closers ▸ hbusy)).2 hquiet⟩
  unfold Node.lifeStep at h
  cases hl : n.life <;> simp only [hl] at h
  case rollback => exact closes (by simp) (.inl hl) h
  case closing => exact closes (by simp) (.inr hl) h
  case atOpen =>
    split at h <;> obtain rfl := Option.some.inj h
    · exact other (by simp [hl]) rfl (by simp)
    · refine other (by simp [hl]) ?_ (by simp)
      obtain ⟨isOpen,openers,opens,he⟩ := openStep_fields (s := n.system) 0 ok
      rw [he]
  case opening =>
    obtain rfl := Option.some.inj h
    refine other (by simp [hl]) ?_ (by cases ok <;> simp)
    obtain ⟨isOpen,openers,opens,he⟩ := openStep_fields (s := n.system) 0 ok
    rw [he]
  case atReady =>
    split at h
    · obtain ⟨t,ht,rfl⟩ := Option.map_eq_some_iff.mp h
      obtain ⟨-,rfl⟩ := startWorker_some ht
      exact ⟨fun _ => by simp,fun _ => hr.notStopped (.inl hl),
        fun c hbusy => absurd (hr.idle c hbusy).2 (by simp [hl])⟩
    · obtain rfl := Option.some.inj h
      exact other (by simp [hl]) rfl (by simp)
  case stopped | opened =>
    obtain rfl := Option.some.inj h
    exact other (by simp [hl]) rfl (by cases ok <;> simp)
  case atSpawn =>
    obtain rfl := Option.some.inj h
    exact ⟨fun now => (by cases ok <;> cases now),fun _ => rfl,
      fun c hbusy => absurd (hr.idle c hbusy).2 (by simp [hl])⟩
  case running | atFlag =>
    obtain rfl := Option.some.inj h
    exact other (by simp [hl]) rfl (by simp)
  case atJoin =>
    split at h
    · obtain rfl := Option.some.inj h
      exact other (by simp [hl]) rfl (by simp)
    · cases h

theorem callback_running {t : System} {k : Nat} (hr : Running n)
    (h : n.system.callbackStep k ok = some t) : Running { n with system := t } := by
  have frame := callback_frame h
  refine ⟨fun hl => ?_,fun hl => ?_,fun c hbusy => hr.idle c (frame.closers ▸ hbusy)⟩
  · exact frame.worker ▸ hr.worker hl
  · exact frame.stopRequested.trans (hr.notStopped hl)

theorem worker_running {t : System} {timedOut : Bool} {outcome : HandlerOutcome} (hr : Running n)
    (h : n.system.workerStep timedOut outcome = some t) : Running { n with system := t } := by
  have frame := worker_frame h
  refine ⟨fun hl => ?_,fun hl => ?_,fun c hbusy => hr.idle c (frame.closers ▸ hbusy)⟩
  · exact worker_alive (hr.notStopped (.inr hl)) h
  · exact frame.stopRequested.trans (hr.notStopped hl)

theorem arrive_running (hr : Running n) (payload : Option DdsBytes) :
    Running { n with system := n.system.arrive payload } := by
  have frame := arrive_frame (s := n.system) payload
  have stop : (n.system.arrive payload).stopRequested = n.system.stopRequested := by
    unfold System.arrive
    split <;> rfl
  refine ⟨fun hl => ?_,fun hl => ?_,fun c hbusy => hr.idle c (frame.closers ▸ hbusy)⟩
  · exact frame.worker ▸ hr.worker hl
  · exact stop.trans (hr.notStopped hl)

theorem running_initial (isServer : Bool) : Running (.initial isServer) := by
  constructor <;> simp [Node.initial,System.initial]

end Lifecycle

theorem flow_initial : Flow (.initial false) [] := by
  refine ⟨rfl,⟨fun _ _ => rfl,locksMatch_initial false⟩,?_,?_,?_,.inl rfl,?_⟩ <;>
    simp [System.initial,accepted,payloads,inFlight,WorkerPc.undispatched]

end DdsAbstract.Zenoh
