import DdsAbstract.Zenoh.Moves
import DdsAbstract.Zenoh.Restart
import DdsAbstract.Zenoh.Running

namespace DdsAbstract.Zenoh.Lifecycle

-- `asleep` of a thread that is blocked in its condition variable and has not been woken.
structure Waiting where
  node : Node
  asleep : Thread → Bool

def inWait (s : System) : Thread → Bool
  | .callback k => (s.callbacks k).pc = .inWait
  | .worker => s.worker = .inWait
  | .closer _ => false

def notified (n : Node) : Action → Thread → Bool
  | .life _ _, t =>
    (n.life = .rollback || n.life = .closing) &&
      match n.system.closers 0 with
      | .atNotify => t = .worker
      | .atCancel state _ => t = .callback state
      | _ => false
  | .arrive _, _ => false
  | .callback k ok, t => (n.system.callbacks k).pc = .atPush && ok && t = .worker
  | .worker _ _, t =>
    match n.system.worker with
    | .atStore _ state _ => t = .callback state
    | _ => false

namespace Waiting

-- Only the worker's wait has a deadline.
def blocked (w : Waiting) : Lifecycle.Action → Bool
  | .callback k _ => w.asleep (.callback k)
  | .worker timedOut _ => w.asleep .worker && !timedOut
  | _ => false

def follow (w : Waiting) (a : Lifecycle.Action) (n : Node) : Waiting where
  node := n
  asleep := fun t =>
    inWait n.system t && (!inWait w.node.system t || w.asleep t && !notified w.node a t)

inductive Action where
  | act (a : Lifecycle.Action)
  | spurious (t : Thread)
  deriving DecidableEq, Repr

def step (w : Waiting) : Action → Option Waiting
  | .act a => if w.blocked a then none else (Lifecycle.step w.node a).map (w.follow a)
  | .spurious t => some { w with asleep := Function.update w.asleep t false }

def initial (isServer : Bool) : Waiting := ⟨.initial isServer,fun _ => false⟩

end Waiting

variable {n n' : Node} {w w' : Waiting} {ok : Bool} {pick : Nat}

inductive LifeMove (n n' : Node) (ok : Bool) (pick : Nat) : Prop
  | rest (system : n'.system = n.system) (was : n.life ≠ .rollback ∧ n.life ≠ .closing)
      (now : n'.life ≠ .running ∧ n'.life ≠ .closing)
      (served : n.life.serving = true → n'.life.serving = true ∨ n.system.worker = .exited)
  | open (was : n.life = .atOpen ∧ n.system.isOpen = false ∨ n.life = .opening)
      (now : n'.life.serving = false) (system : n'.system = n.system.openStep 0 ok)
  | clear (was : n.life = .atSpawn) (now : n'.life.serving = false)
      (system : n'.system = { n.system with stopRequested := false })
  | start (was : n.life = .atReady) (now : n'.life = .running) (exited : n.system.worker = .exited)
      (system : n'.system = { n.system with worker := .atLoop })
  | flag (was : n.life = .atFlag) (now : n'.life = .closing)
      (system : n'.system = { n.system with stopRequested := true })
  | close (next : LifePc) (was : n.life = .rollback ∧ next = .stopped ∨ n.life = .closing ∧ next = .atJoin)
      (now : n'.life = if n'.system.closers 0 = .idle then next else n.life)
      (moved : n.system.closeStep 0 pick = some n'.system)

theorem life_move (h : n.lifeStep ok pick = some n') : LifeMove n n' ok pick := by
  unfold Node.lifeStep at h
  cases hl : n.life <;> simp only [hl] at h
  case stopped | opened | running =>
    obtain rfl := Option.some.inj h
    cases ok <;> exact .rest rfl (by simp [hl]) (by simp) (by simp [hl,LifePc.serving])
  case atSpawn =>
    obtain rfl := Option.some.inj h
    exact .clear hl (by cases ok <;> rfl) rfl
  case atOpen =>
    split at h <;> obtain rfl := Option.some.inj h
    · exact .rest rfl (by simp [hl]) (by simp) (by simp [hl,LifePc.serving])
    · rename_i hopen
      exact .open (.inl ⟨hl,by simpa using hopen⟩) rfl rfl
  case opening =>
    obtain rfl := Option.some.inj h
    exact .open (.inr hl) (by cases ok <;> rfl) rfl
  case atReady =>
    split at h
    · obtain ⟨t,ht,rfl⟩ := Option.map_eq_some_iff.mp h
      obtain ⟨exited,same⟩ := startWorker_some ht
      exact .start hl rfl exited same
    · obtain rfl := Option.some.inj h
      exact .rest rfl (by simp [hl]) (by simp) (by simp [hl,LifePc.serving])
  case atFlag =>
    obtain rfl := Option.some.inj h
    exact .flag hl rfl rfl
  case rollback =>
    obtain ⟨moved,now⟩ := closeStep_simulates h
    exact .close .stopped (.inl ⟨hl,rfl⟩) now moved
  case closing =>
    obtain ⟨moved,now⟩ := closeStep_simulates h
    exact .close .atJoin (.inr ⟨hl,rfl⟩) now moved
  case atJoin =>
    split at h
    · obtain rfl := Option.some.inj h
      exact .rest rfl (by simp [hl]) (by simp) (fun _ => .inr ‹_›)
    · cases h

def SignalToCome (n : Node) : Prop :=
  n.life = .closing ∧
    (n.system.closers 0 = .idle ∧ n.system.isOpen = true ∨ n.system.closers 0 = .atQueueLock ∨
      n.system.closers 0 = .atNotify)

structure Dormant (n : Node) : Prop where
  waits : n.system.worker = .inWait
  queue : n.system.queue = []
  signal : n.system.stopRequested = false ∧ n.system.isOpen = true ∨ SignalToCome n

structure NoLostWakeup (w : Waiting) : Prop where
  reply : ∀ k, w.asleep (.callback k) = true →
    (w.node.system.callbacks k).pc = .inWait ∧ (w.node.system.callbacks k).state.settled = false
  worker : w.asleep .worker = true → Dormant w.node

structure Alert (w : Waiting) : Prop extends NoLostWakeup w where
  running : Running w.node
  serving : w.node.system.worker = .exited ∨ w.node.life.serving = true

theorem Dormant.kept (h : Dormant n) (worker : n'.system.worker = n.system.worker)
    (queue : n'.system.queue = n.system.queue)
    (stop : n'.system.stopRequested = n.system.stopRequested)
    (isOpen : n'.system.isOpen = n.system.isOpen) (closers : n'.system.closers = n.system.closers)
    (life : n'.life = n.life) : Dormant n' := by
  refine ⟨worker.trans h.waits,queue.trans h.queue,?_⟩
  rw [stop,isOpen,SignalToCome,life,closers,isOpen]
  exact h.signal

theorem close_dormant (h : Dormant n) (was : n.life = .closing)
    (now : n'.life = if n'.system.closers 0 = .idle then .atJoin else n.life)
    (moved : n.system.closeStep 0 pick = some n'.system)
    (silent : n.system.closers 0 ≠ .atNotify) : Dormant n' := by
  have frame := close_frame moved
  refine ⟨frame.worker.trans h.waits,frame.queue.trans h.queue,?_⟩
  have stays (isOpen : n'.system.isOpen = n.system.isOpen)
      (begun : n.system.closers 0 ≠ .idle ∧ n.system.closers 0 ≠ .atQueueLock) :
      n'.system.stopRequested = false ∧ n'.system.isOpen = true ∨ SignalToCome n' := by
    rw [isOpen,frame.stopRequested]
    rcases h.signal with signal | ⟨-,⟨idle,-⟩ | lock | notify⟩
    · exact .inl signal
    · exact absurd idle begun.1
    · exact absurd lock begun.2
    · exact absurd notify silent
  cases close_phase moved with
  | closed was' isClosed same =>
    rcases h.signal with ⟨-,opened⟩ | ⟨-,⟨-,opened⟩ | lock | notify⟩
    · rw [isClosed] at opened
      cases opened
    · rw [isClosed] at opened
      cases opened
    · rw [was'] at lock
      cases lock
    · exact absurd notify silent
  | exchange was' now' opened isClosed =>
    exact .inr ⟨by rw [now,now',if_neg (by simp),was],.inr (.inl now')⟩
  | lockQueue was' now' isOpen =>
    exact .inr ⟨by rw [now,now',if_neg (by simp),was],.inr (.inr now')⟩
  | notify was' now' isOpen => exact absurd was' silent
  | snapshot was' free now' isOpen => exact stays isOpen (by simp [was'])
  | ends was' now' isOpen => exact stays isOpen (by simp [was'])
  | picks state todo rest was' now' covers isOpen => exact stays isOpen (by simp [was'])
  | lockState state todo was' now' isOpen => exact stays isOpen (by simp [was'])
  | cancel state todo was' now' cancelled isOpen => exact stays isOpen (by simp [was'])

theorem life_dormant (running : Running n)
    (serving : n.system.worker = .exited ∨ n.life.serving = true)
    (moved : n.lifeStep ok pick = some n') (now : n'.system.worker = .inWait)
    (before : n.system.worker = .inWait → Dormant n ∧
      notified n (.life ok pick) .worker = false) : Dormant n' := by
  cases life_move moved with
  | rest system was now' served =>
    obtain ⟨dormant,-⟩ := before (system ▸ now)
    refine ⟨now,system ▸ dormant.queue,.inl ?_⟩
    rcases dormant.signal with signal | ⟨hl,-⟩
    · exact system ▸ signal
    · exact absurd hl was.2
  | «open» was now' system =>
    obtain ⟨isOpen,openers,opens,fields⟩ := openStep_fields (s := n.system) 0 ok
    rw [system,fields] at now
    have busy : n.life.serving = true := serving.resolve_left (by rw [now]; simp)
    rcases was with ⟨was,-⟩ | was <;> rw [was] at busy <;> cases busy
  | clear was now' system =>
    rw [system] at now
    have busy : n.life.serving = true := serving.resolve_left (by rw [now]; simp)
    rw [was] at busy
    cases busy
  | start was now' exited system =>
    rw [system] at now
    cases now
  | flag was now' system =>
    rw [system] at now
    obtain ⟨dormant,-⟩ := before now
    have idle : n.system.closers 0 = .idle := by
      by_contra hbusy
      rcases (running.idle 0 hbusy).2 with hl | hl <;> rw [was] at hl <;> cases hl
    have opened : n.system.isOpen = true := by
      rcases dormant.signal with ⟨-,opened⟩ | ⟨hl,-⟩
      · exact opened
      · rw [was] at hl
        cases hl
    refine ⟨by rw [system]; exact now,by rw [system]; exact dormant.queue,.inr ⟨now',.inl ?_⟩⟩
    rw [system]
    exact ⟨idle,opened⟩
  | close next was now' moved =>
    have frame := close_frame moved
    rw [frame.worker] at now
    rcases was with ⟨was,-⟩ | ⟨was,rfl⟩
    · rcases serving with exited | busy
      · rw [exited] at now
        cases now
      · rw [was] at busy
        cases busy
    · obtain ⟨dormant,silent⟩ := before now
      refine close_dormant dormant was now' moved ?_
      intro notify
      simp [notified,was,notify] at silent

theorem follow_asleep {a : Action} {t : Thread} (h : (w.follow a n').asleep t = true) :
    inWait n'.system t = true ∧
      (inWait w.node.system t = true → w.asleep t = true ∧ notified w.node a t = false) := by
  simp only [Waiting.follow,Bool.and_eq_true,Bool.or_eq_true,Bool.not_eq_true'] at h
  refine ⟨h.1,fun was => ?_⟩
  rcases h.2 with not | ⟨asleep,silent⟩
  · rw [was] at not
    cases not
  · exact ⟨asleep,silent⟩

theorem follow_reply {a : Action} {k : Nat} (h : NoLostWakeup w)
    (moved : Lifecycle.step w.node a = some n')
    (asleep : (w.follow a n').asleep (.callback k) = true) :
    (n'.system.callbacks k).pc = .inWait ∧ (n'.system.callbacks k).state.settled = false := by
  obtain ⟨now,before⟩ := follow_asleep asleep
  have now : (n'.system.callbacks k).pc = .inWait := by simpa [inWait] using now
  have waited : (w.node.system.callbacks k).pc = .inWait → w.asleep (.callback k) = true ∧
      notified w.node a (.callback k) = false := fun hpc => before (by simpa [inWait] using hpc)
  have kept (same : n'.system.callbacks k = w.node.system.callbacks k) :
      (n'.system.callbacks k).pc = .inWait ∧ (n'.system.callbacks k).state.settled = false := by
    rw [same] at now ⊢
    exact h.reply k (waited now).1
  cases a with
  | callback j ok =>
    obtain ⟨t,ht,rfl⟩ := Option.map_eq_some_iff.mp moved
    have frame := callback_frame ht
    by_cases hk : k = j
    · subst hk
      exact ⟨now,frame.state ▸ callback_waits ht now⟩
    · exact kept (frame.others k hk)
  | worker timedOut outcome =>
    obtain ⟨t,ht,rfl⟩ := Option.map_eq_some_iff.mp moved
    have silent := (waited ((worker_kept ht k).pc ▸ now)).2
    refine kept (worker_state ht ?_)
    intro e payload hpc
    simp [notified,hpc] at silent
  | arrive payload =>
    obtain rfl := Option.some.inj moved
    have frame := arrive_frame (s := w.node.system) payload
    refine kept (frame.others k ?_)
    rintro rfl
    rw [frame.newest] at now
    cases hs : w.node.system.isServer <;> simp [hs] at now
  | life ok pick =>
    cases life_move moved with
    | rest system was now' served => exact kept (by rw [system])
    | «open» was now' system =>
      obtain ⟨isOpen,openers,opens,fields⟩ := openStep_fields (s := w.node.system) 0 ok
      exact kept (by rw [system,fields])
    | clear was now' system => exact kept (by rw [system])
    | start was now' exited system => exact kept (by rw [system])
    | flag was now' system => exact kept (by rw [system])
    | close next was now' closed =>
      have silent := (waited ((close_kept closed k).pc ▸ now)).2
      refine kept (close_state closed ?_)
      intro todo hpc
      rcases was with ⟨was,-⟩ | ⟨was,-⟩ <;> simp [notified,was,hpc] at silent

theorem follow_worker {a : Action} (h : Alert w) (moved : Lifecycle.step w.node a = some n')
    (asleep : (w.follow a n').asleep .worker = true) : Dormant n' := by
  obtain ⟨now,before⟩ := follow_asleep asleep
  have now : n'.system.worker = .inWait := by simpa [inWait] using now
  have waited : w.node.system.worker = .inWait → w.asleep .worker = true ∧
      notified w.node a .worker = false := fun hpc => before (by simpa [inWait] using hpc)
  cases a with
  | callback j ok =>
    obtain ⟨t,ht,rfl⟩ := Option.map_eq_some_iff.mp moved
    have frame := callback_frame ht
    obtain ⟨slept,silent⟩ := waited (frame.worker ▸ now)
    have queue : t.queue = w.node.system.queue := by
      by_contra grown
      obtain ⟨hpc,hok⟩ := push_ok ht grown
      simp [notified,hpc,hok] at silent
    exact (h.worker slept).kept frame.worker queue frame.stopRequested frame.isOpen frame.closers rfl
  | worker timedOut outcome =>
    obtain ⟨t,ht,rfl⟩ := Option.map_eq_some_iff.mp moved
    obtain ⟨queue,undisturbed⟩ := worker_waits ht now
    exact ⟨now,queue,.inl undisturbed⟩
  | arrive payload =>
    obtain rfl := Option.some.inj moved
    have frame := arrive_frame (s := w.node.system) payload
    obtain ⟨slept,-⟩ := waited (frame.worker ▸ now)
    refine (h.worker slept).kept frame.worker frame.queue ?_ ?_ frame.closers rfl <;>
      simp only [System.arrive] <;> split <;> rfl
  | life ok pick =>
    exact life_dormant h.running h.serving moved now
      (fun was => ⟨h.worker (waited was).1,(waited was).2⟩)

theorem life_serving (h : n.system.worker = .exited ∨ n.life.serving = true)
    (moved : n.lifeStep ok pick = some n') :
    n'.system.worker = .exited ∨ n'.life.serving = true := by
  cases life_move moved with
  | rest system was now served =>
    rw [system]
    rcases h with exited | busy
    · exact .inl exited
    · exact (served busy).symm
  | «open» was now system =>
    obtain ⟨isOpen,openers,opens,fields⟩ := openStep_fields (s := n.system) 0 ok
    rw [system,fields]
    refine .inl (h.resolve_right ?_)
    rcases was with ⟨was,-⟩ | was <;> simp [was,LifePc.serving]
  | clear was now system =>
    rw [system]
    exact .inl (h.resolve_right (by simp [was,LifePc.serving]))
  | start was now exited system => exact .inr (by rw [now]; rfl)
  | flag was now system => exact .inr (by rw [now]; rfl)
  | close next was now closed =>
    rw [(close_frame closed).worker]
    rcases h with exited | busy
    · exact .inl exited
    · rcases was with ⟨was,-⟩ | ⟨was,rfl⟩
      · rw [was] at busy
        cases busy
      · right
        rw [now,was]
        split <;> rfl

theorem step_running {a : Action} (h : Running n) (moved : Lifecycle.step n a = some n') :
    Running n' := by
  cases a with
  | life ok pick => exact lifeStep_running h moved
  | arrive payload =>
    obtain rfl := Option.some.inj moved
    exact arrive_running h payload
  | callback k ok =>
    obtain ⟨t,ht,rfl⟩ := Option.map_eq_some_iff.mp moved
    exact callback_running h ht
  | worker timedOut outcome =>
    obtain ⟨t,ht,rfl⟩ := Option.map_eq_some_iff.mp moved
    exact worker_running h ht

theorem step_serving {a : Action} (h : n.system.worker = .exited ∨ n.life.serving = true)
    (moved : Lifecycle.step n a = some n') :
    n'.system.worker = .exited ∨ n'.life.serving = true := by
  cases a with
  | life ok pick => exact life_serving h moved
  | arrive payload =>
    obtain rfl := Option.some.inj moved
    simp only [(arrive_frame (s := n.system) payload).worker]
    exact h
  | callback k ok =>
    obtain ⟨t,ht,rfl⟩ := Option.map_eq_some_iff.mp moved
    simp only [(callback_frame ht).worker]
    exact h
  | worker timedOut outcome =>
    obtain ⟨t,ht,rfl⟩ := Option.map_eq_some_iff.mp moved
    exact .inr (h.resolve_left (worker_started ht))

theorem follow_alert {a : Action} (h : Alert w) (moved : Lifecycle.step w.node a = some n') :
    Alert (w.follow a n') :=
  ⟨⟨fun _ => follow_reply h.toNoLostWakeup moved,follow_worker h moved⟩,
    step_running h.running moved,step_serving h.serving moved⟩

theorem step_alert {a : Waiting.Action} (h : Alert w) (moved : Waiting.step w a = some w') :
    Alert w' := by
  cases a with
  | act a =>
    simp only [Waiting.step,Option.ite_none_left_eq_some] at moved
    obtain ⟨n',hn,rfl⟩ := Option.map_eq_some_iff.mp moved.2
    exact follow_alert h hn
  | spurious t =>
    obtain rfl := Option.some.inj moved
    have woken {u : Thread} (hu : Function.update w.asleep t false u = true) : w.asleep u = true := by
      by_cases same : u = t
      · subst same
        simp at hu
      · simpa [same] using hu
    exact ⟨⟨fun k hk => h.reply k (woken hk),fun hw => h.worker (woken hw)⟩,h.running,h.serving⟩

theorem alert_initial (isServer : Bool) : Alert (.initial isServer) :=
  ⟨⟨nofun,nofun⟩,running_initial isServer,.inl rfl⟩

theorem zenoh_no_lost_wakeup (isServer : Bool) (as : List Waiting.Action) (w : Waiting)
    (h : Transition.run Waiting.step (.initial isServer) as = some w) : NoLostWakeup w :=
  (Transition.run_invariant (I := Alert) (fun _ _ _ hi hs => step_alert hi hs)
    (alert_initial isServer) h).toNoLostWakeup

def Waiting.serverUp : List Waiting.Action :=
  List.replicate 6 (.act (.life true 0)) ++ List.replicate 3 (.act (.worker false .notSet))

def queryAsleep : List Waiting.Action :=
  .act (.arrive (some [1])) :: List.replicate 9 (.act (.callback 0 true))

theorem zenoh_no_lost_wakeup_asleep : ∃ w,
    Transition.run Waiting.step (.initial true) (Waiting.serverUp ++ queryAsleep) = some w ∧
      w.asleep (.callback 0) = true ∧ w.node.system.worker = .inWait ∧ w.asleep .worker = false ∧
        NoLostWakeup w := by
  refine ⟨_,rfl,rfl,rfl,rfl,?_⟩
  exact zenoh_no_lost_wakeup true (Waiting.serverUp ++ queryAsleep) _ rfl

end DdsAbstract.Zenoh.Lifecycle
