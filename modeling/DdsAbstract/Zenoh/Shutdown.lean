import DdsAbstract.Zenoh.Answers

namespace DdsAbstract.Zenoh

variable {s s' : System} {k c pick : Nat} {outcome : HandlerOutcome}

def WorkerPc.toExit : WorkerPc → Nat
  | .exited => 0
  | .atLoop => 1
  | .atReport | .atStore .. => 2
  | .atStateLock .. => 3
  | .atFind .. => 4
  | .atPendingLock .. => 5
  | .atDispatch .. => 6
  | .atFront => 7
  | .atPredicate => 8
  | .atRelock _ | .atQueueLock => 9
  | .inWait => 10

def CloserPc.toGo (entries : Nat) : CloserPc → Nat
  | .idle => 3 * entries + 7
  | .atQueueLock => 3 * entries + 6
  | .atNotify => 3 * entries + 5
  | .atPendingLock => 3 * entries + 4
  | .cancelling todo => 3 * todo.length + 3
  | .atStateLock _ todo => 3 * todo.length + 5
  | .atCancel _ todo => 3 * todo.length + 4

theorem worker_toExit {timedOut : Bool} (stopped : s.stopRequested = true)
    (h : s.workerStep timedOut outcome = some s') : s'.worker.toExit < s.worker.toExit := by
  unfold System.workerStep at h
  cases hpc : s.worker <;> simp only [hpc,acquire_map_eq_some] at h
  case exited => cases h
  case atLoop =>
    obtain rfl := Option.some.inj h
    simp [stopped,WorkerPc.toExit]
  case atQueueLock | atPendingLock | atStateLock =>
    obtain ⟨-,rfl⟩ := h
    simp [WorkerPc.toExit]
  case atRelock timedOut =>
    obtain ⟨-,rfl⟩ := h
    cases timedOut <;> simp [WorkerPc.toExit]
  case atPredicate =>
    simp only [stopped,Bool.true_or,if_true] at h
    obtain rfl := Option.some.inj h
    simp [WorkerPc.toExit]
  case atFront | atFind =>
    split at h <;> obtain rfl := Option.some.inj h <;> simp [WorkerPc.toExit]
  case atDispatch e =>
    obtain rfl := Option.some.inj h
    cases hr : outcome.response <;> cases hk : e.message.kind <;> simp [WorkerPc.toExit]
  case inWait | atReport | atStore =>
    obtain rfl := Option.some.inj h
    simp [WorkerPc.toExit]

theorem close_toGo (h : s.closeStep c pick = some s') (ongoing : s'.closers c ≠ .idle) :
    (s'.closers c).toGo s'.pending.entries.length < (s.closers c).toGo s.pending.entries.length := by
  have pending := (close_frame h).pending
  unfold System.closeStep at h
  cases hpc : s.closers c <;> simp only [hpc,acquire_map_eq_some] at h
  case idle =>
    split at h <;> obtain rfl := Option.some.inj h
    · simp [System.setCloser,CloserPc.toGo]
    · exact absurd hpc ongoing
  case atQueueLock | atPendingLock | atStateLock =>
    obtain ⟨-,rfl⟩ := h
    simp [System.setCloser,CloserPc.toGo]
  case atNotify | atCancel =>
    obtain rfl := Option.some.inj h
    simp [System.setCloser,System.setCallback,System.release,CloserPc.toGo]
  case cancelling todo =>
    cases todo with
    | nil =>
      obtain rfl := Option.some.inj h
      simp [System.setCloser] at ongoing
    | cons p ps =>
      obtain ⟨q,hq,rfl⟩ := Option.map_eq_some_iff.mp h
      have hlt := (List.getElem?_eq_some_iff.mp hq).1
      simp only [System.setCloser,Function.update_self,CloserPc.toGo,List.length_eraseIdx_of_lt hlt,
        List.length_cons]
      omega

theorem closer_moves (free : ∀ l, (s.closers c).wants = some l → s.locks l = none) :
    ∃ t, s.closeStep c 0 = some t := by
  unfold System.closeStep
  cases hpc : s.closers c <;> rw [hpc] at free
  case idle =>
    simp only
    split <;> exact ⟨_,rfl⟩
  case atQueueLock | atPendingLock | atStateLock =>
    exact ⟨_,acquire_map_eq_some.mpr ⟨free _ rfl,rfl⟩⟩
  case cancelling todo => cases todo <;> exact ⟨_,rfl⟩
  all_goals exact ⟨_,rfl⟩

theorem close_cancels {todo : List Nat} (was : s.closers c = .atCancel k todo)
    (h : s.closeStep c pick = some s') : (s'.callbacks k).state.settled = true := by
  simp only [System.closeStep,was,Option.some.injEq] at h
  simp [← h,System.setCloser,System.setCallback,ServerReply.settled]

namespace Lifecycle

variable {w w' : Waiting}

structure LifeTurn (w w' : Waiting) (ok : Bool) (pick : Nat) : Prop where
  moved : w.node.lifeStep ok pick = some w'.node
  asleep : ∀ t, w'.asleep t = (inWait w'.node.system t && (!inWait w.node.system t ||
    w.asleep t && !notified w.node (.life ok pick) t))

theorem lifeTurn_iff {ok : Bool} :
    w.step (.act (.life ok pick)) = some w' ↔ LifeTurn w w' ok pick := by
  simp only [Waiting.step,Option.ite_none_left_eq_some]
  constructor
  · rintro ⟨-,moved⟩
    obtain ⟨n',hn,rfl⟩ := Option.map_eq_some_iff.mp moved
    exact ⟨hn,fun _ => rfl⟩
  · intro h
    refine ⟨by simp [Waiting.blocked],?_⟩
    obtain ⟨node,asleep⟩ := w'
    simp only [Lifecycle.step,h.moved,Option.map_some,Option.some.injEq,Waiting.follow,
      Waiting.mk.injEq,true_and]
    exact funext fun t => (h.asleep t).symm

def Node.toGo (n : Node) : Nat :=
  match n.life with
  | .closing => (n.system.closers 0).toGo n.system.pending.entries.length
  | .atJoin => 1
  | _ => 0

def Waiting.toStop (w : Waiting) : Nat :=
  4 * w.load + w.node.toGo + w.node.system.worker.toExit

structure Stopping (w : Waiting) : Prop where
  alert : Alert w
  tracked : Tracked w.node
  few : w.node.system.arrived < 2 ^ 64
  noOverlap : NoOverlap w.node.system
  stage : w.node.life = .closing ∨ w.node.life = .atJoin ∨ w.node.life = .stopped
  flagged : w.node.life ≠ .stopped → w.node.system.stopRequested = true
  isClosed : w.node.life = .closing ∧ w.node.system.closers 0 = .idle ∨
    w.node.system.isOpen = false

def Waiting.Stops (w : Waiting) : Waiting.Action → Prop
  | .act (.life _ pick) => w.node.life ≠ .stopped ∧ CloseApart w.node.system (.close 0 pick)
  | .act (.callback k ok) => ok = true ∧ CloseApart w.node.system (.callback k ok)
  | .act (.worker timedOut _) => timedOut = false
  | _ => False

theorem Stopping.exited (h : Stopping w) (stopped : w.node.life = .stopped) :
    w.node.system.worker = .exited := by
  refine h.alert.serving.resolve_right ?_
  rw [stopped]
  nofun

theorem Stopping.callback (h : Stopping w) (ht : CallbackTurn w w' k)
    (apart : CloseApart w.node.system (.callback k true)) : Stopping w' := by
  have frame := callback_frame ht.moved
  refine ⟨callbackTurn_alert ht h.alert,callbackTurn_tracked ht h.tracked,?_,
    step_noOverlap (a := .callback k true) h.noOverlap apart ht.moved,?_,?_,?_⟩
  · rw [frame.arrived]
    exact h.few
  · rw [ht.life]
    exact h.stage
  · rw [ht.life,frame.stopRequested]
    exact h.flagged
  · rw [ht.life,frame.closers,frame.isOpen]
    exact h.isClosed

theorem Stopping.worker (h : Stopping w) (ht : WorkerTurn w w' outcome) : Stopping w' := by
  have frame := worker_frame ht.moved
  refine ⟨step_alert h.alert (workerTurn_iff.mpr ht),?_,?_,?_,?_,?_,?_⟩
  · refine step_tracked (a := .worker false outcome) h.tracked trivial ?_
    simp only [Lifecycle.step,ht.moved,Option.map_some,← ht.life]
  · rw [frame.arrived]
    exact h.few
  · exact step_noOverlap (a := .worker false outcome) h.noOverlap trivial ht.moved
  · rw [ht.life]
    exact h.stage
  · rw [ht.life,frame.stopRequested]
    exact h.flagged
  · rw [ht.life,frame.closers,frame.isOpen]
    exact h.isClosed

inductive StopMove (n n' : Node) (pick : Nat) : Prop
  | close (was : n.life = .closing) (moved : n.system.closeStep 0 pick = some n'.system)
      (now : n'.life = if n'.system.closers 0 = .idle then .atJoin else .closing)
  | join (was : n.life = .atJoin) (now : n'.life = .stopped) (same : n'.system = n.system)

theorem Stopping.stop_move (h : Stopping w) {ok : Bool} (running : w.node.life ≠ .stopped)
    (ht : LifeTurn w w' ok pick) : StopMove w.node w'.node pick := by
  have moved := ht.moved
  rcases h.stage with was | was | was
  · rw [Node.lifeStep,was] at moved
    obtain ⟨step,now⟩ := closeStep_simulates moved
    exact .close was step (was ▸ now)
  · simp only [Node.lifeStep,was,Option.ite_none_right_eq_some,Option.some.injEq] at moved
    exact .join was (by rw [← moved.2]) (by rw [← moved.2])
  · exact absurd was running

theorem Stopping.life (h : Stopping w) {ok : Bool} (running : w.node.life ≠ .stopped)
    (apart : CloseApart w.node.system (.close 0 pick)) (ht : LifeTurn w w' ok pick) :
    Stopping w' := by
  have alert := step_alert h.alert (lifeTurn_iff.mpr ht)
  have tracked : Tracked w'.node := by
    refine step_tracked (a := .life ok pick) h.tracked ?_ ht.moved
    intro _ opening
    rcases h.stage with was | was | was <;> rw [was] at opening <;> cases opening
  cases h.stop_move running ht with
  | close was moved now =>
    have frame := close_frame moved
    refine ⟨alert,tracked,?_,step_noOverlap h.noOverlap apart moved,?_,?_,?_⟩
    · rw [frame.arrived]
      exact h.few
    · rw [now]
      split
      · exact .inr (.inl rfl)
      · exact .inl rfl
    · rw [frame.stopRequested]
      exact fun _ => h.flagged running
    · right
      have closed (begun : w.node.system.closers 0 ≠ .idle)
          (same : w'.node.system.isOpen = w.node.system.isOpen) :
          w'.node.system.isOpen = false :=
        same.trans (h.isClosed.resolve_left (fun idle => begun idle.2))
      cases close_phase moved with
      | closed was' isClosed same => exact same ▸ isClosed
      | exchange was' now' opened isClosed => exact isClosed
      | lockQueue was' now' isOpen => exact closed (by simp [was']) isOpen
      | notify was' now' isOpen => exact closed (by simp [was']) isOpen
      | snapshot was' free now' isOpen => exact closed (by simp [was']) isOpen
      | ends was' now' isOpen => exact closed (by simp [was']) isOpen
      | picks state todo rest was' now' covers isOpen => exact closed (by simp [was']) isOpen
      | lockState state todo was' now' isOpen => exact closed (by simp [was']) isOpen
      | cancel state todo was' now' cancelled isOpen => exact closed (by simp [was']) isOpen
  | join was now same =>
    refine ⟨alert,tracked,same ▸ h.few,same ▸ h.noOverlap,.inr (.inr now),
      fun busy => absurd now busy,.inr ?_⟩
    refine same ▸ h.isClosed.resolve_left (fun closing => ?_)
    rw [was] at closing
    cases closing.1

theorem Stopping.life_load (h : Stopping w) {ok : Bool} (running : w.node.life ≠ .stopped)
    (ht : LifeTurn w w' ok pick) : w'.load ≤ w.load := by
  have arrived : w'.node.system.arrived = w.node.system.arrived := by
    cases h.stop_move running ht with
    | close was moved now => exact (close_frame moved).arrived
    | join was now same => rw [same]
  unfold Waiting.load
  rw [arrived]
  refine Finset.sum_le_sum fun k _ => ?_
  cases h.stop_move running ht with
  | close was moved now =>
    have kept := close_kept moved k
    refine work_le_of_kept kept fun waits asleep => ?_
    by_cases cancels : ∃ todo, w.node.system.closers 0 = .atCancel k todo
    · obtain ⟨todo,was'⟩ := cancels
      exact .inr (close_cancels was' moved)
    · left
      have silent : notified w.node (.life ok pick) (.callback k) = false := by
        simp only [notified,was]
        split <;> simp
        rename_i state todo was'
        rintro rfl
        exact cancels ⟨todo,was'⟩
      simp [ht.asleep,inWait,kept.pc,waits,asleep,silent]
  | join was now same =>
    refine work_le_of_kept (same ▸ .refl _) fun waits asleep => .inl ?_
    have silent : notified w.node (.life ok pick) (.callback k) = false := by
      simp [notified,was]
    simp [ht.asleep,inWait,same,waits,asleep,silent]

theorem Stopping.life_falls (h : Stopping w) {ok : Bool} (running : w.node.life ≠ .stopped)
    (ht : LifeTurn w w' ok pick) : w'.toStop < w.toStop := by
  have load := h.life_load running ht
  unfold Waiting.toStop Node.toGo
  cases h.stop_move running ht with
  | close was moved now =>
    rw [now,was,(close_frame moved).worker]
    by_cases idle : w'.node.system.closers 0 = .idle
    · have left : 1 < (w.node.system.closers 0).toGo w.node.system.pending.entries.length := by
        cases w.node.system.closers 0 <;> simp only [CloserPc.toGo] <;> omega
      rw [if_pos idle]
      simp only
      omega
    · have left := close_toGo moved idle
      rw [if_neg idle]
      simp only
      omega
  | join was now same =>
    rw [now,was,same]
    simp only
    omega

theorem pending_length (h : s.callbackStep k true = some s') :
    s'.pending.entries.length ≤ s.pending.entries.length + 1 := by
  cases callback_move h with
  | insert pc pending queue he hr =>
    rw [pending,AList.entries_insert,List.length_cons]
    exact Nat.succ_le_succ (List.kerase_sublist _ _).length_le
  | erase pc pc' pending queue he hr =>
    rw [pending]
    exact Nat.le_succ_of_le (List.kerase_sublist _ _).length_le
  | quiet pc pending queue he hr | push pc pc' pending queue he hr
  | reply value pc pc' sent pending queue he hr =>
    rw [pending]
    exact Nat.le_succ _

theorem callbackTurn_toStop (ht : CallbackTurn w w' k) (present : k < w.node.system.arrived) :
    w'.toStop < w.toStop := by
  have load := callbackTurn_load ht present
  have entries := pending_length ht.moved
  have go : w'.node.toGo ≤ w.node.toGo + 3 := by
    rw [Node.toGo,Node.toGo,ht.life,(callback_frame ht.moved).closers]
    split
    · cases w.node.system.closers 0 <;> simp only [CloserPc.toGo] <;> omega
    · omega
    · omega
  unfold Waiting.toStop
  rw [(callback_frame ht.moved).worker]
  omega

theorem Stopping.worker_falls (h : Stopping w) (ht : WorkerTurn w w' outcome) :
    w'.toStop < w.toStop := by
  have running : w.node.life ≠ .stopped := fun stopped => worker_started ht.moved (h.exited stopped)
  have load := workerTurn_load ht
  have exit := worker_toExit (h.flagged running) ht.moved
  have same : w'.node.toGo = w.node.toGo := by
    rw [Node.toGo,Node.toGo,ht.life,(worker_frame ht.moved).closers,(worker_frame ht.moved).pending]
  unfold Waiting.toStop
  omega

theorem Stopping.step (h : Stopping w) {b : Waiting.Action} (hb : w.Stops b)
    (moved : w.step b = some w') : Stopping w' ∧ w'.toStop < w.toStop := by
  cases b with
  | spurious t => exact hb.elim
  | act a =>
    cases a with
    | life ok pick =>
      have turn := lifeTurn_iff.mp moved
      exact ⟨h.life hb.1 hb.2 turn,h.life_falls hb.1 turn⟩
    | callback k ok =>
      obtain ⟨rfl,apart⟩ := hb
      have turn := callbackTurn_iff.mp moved
      exact ⟨h.callback turn apart,
        callbackTurn_toStop turn (callback_arrived h.tracked.wellFormed turn.moved)⟩
    | worker timedOut outcome =>
      obtain rfl : timedOut = false := hb
      have turn := workerTurn_iff.mp moved
      exact ⟨h.worker turn,h.worker_falls turn⟩
    | arrive payload => exact hb.elim

def Continues : Waiting.Action → Prop
  | .act (.life ok _) | .act (.callback _ ok) => ok = true
  | .act (.worker timedOut _) => timedOut = false
  | _ => False

def MayRun (w : Waiting) : Thread → Prop
  | .callback k => ((w.node.system.callbacks k).pc ≠ .absent ∧
      (w.node.system.callbacks k).pc ≠ .left) ∧ w.asleep (.callback k) = false
  | .worker => w.node.system.worker ≠ .exited ∧ w.asleep .worker = false
  | .closer c => c = 0 ∧ w.node.life = .closing

theorem Stopping.mayRun_of_holds (h : Stopping w) {l : Lock} {t : Thread}
    (ht : w.node.system.Holds t l) : MayRun w t := by
  have notWaiting (waits : InConditionWait w.node.system t) : False :=
    not_holds_of_inConditionWait waits l ht
  cases t with
  | callback k =>
    refine ⟨alive_of_holds ht,?_⟩
    by_contra slept
    exact notWaiting (.inl (h.alert.reply k (by simpa using slept)).1)
  | worker =>
    refine ⟨fun exited => ?_,?_⟩
    · rw [System.Holds,System.held,exited] at ht
      cases ht
    · by_contra slept
      exact notWaiting (.inl (h.alert.worker (by simpa using slept)).waits)
  | closer c =>
    have busy : w.node.system.closers c ≠ .idle := by
      intro idle
      rw [System.Holds,System.held,idle] at ht
      cases ht
    obtain ⟨own,stage | stage⟩ := h.alert.running.idle c busy
    · rcases h.stage with was | was | was <;> rw [stage] at was <;> cases was
    · exact ⟨own,stage⟩

theorem Stopping.mayRun_turn {t : Thread} (ht : MayRun w t)
    (free : ∀ l, w.node.system.wants t = some l → w.node.system.locks l = none) :
    ∃ b v, Continues b ∧ w.step b = some v := by
  cases t with
  | callback k =>
    obtain ⟨s,hs⟩ := callback_enabled ht.1 free
    exact ⟨.act (.callback k true),w.follow (.callback k true) ⟨s,w.node.life⟩,rfl,
      callbackTurn_iff.mpr ⟨ht.2,hs,rfl,fun _ => rfl⟩⟩
  | worker =>
    obtain ⟨s,hs⟩ := worker_moves (.returns []) ht.1 free
    exact ⟨.act (.worker false (.returns [])),w.follow (.worker false (.returns [])) ⟨s,w.node.life⟩,
      rfl,workerTurn_iff.mpr ⟨ht.2,hs,rfl,fun _ => rfl⟩⟩
  | closer c =>
    obtain ⟨rfl,closing⟩ := ht
    obtain ⟨s,hs⟩ := closer_moves free
    have moved : w.node.lifeStep true 0 =
        some ⟨s,if s.closers 0 = .idle then .atJoin else w.node.life⟩ := by
      simp [Node.lifeStep,closing,Node.closeStep,hs]
    exact ⟨.act (.life true 0),w.follow (.life true 0) _,rfl,
      lifeTurn_iff.mpr ⟨moved,fun _ => rfl⟩⟩

def Ended (w : Waiting) : Prop := w.node.life = .stopped ∧ Returned w

theorem Stopping.turns (h : Stopping w) (busy : ¬ Ended w) :
    ∃ b v, Continues b ∧ w.step b = some v := by
  have unblocked {t : Thread} (ht : MayRun w t) :
      ∃ b v, Continues b ∧ w.step b = some v := by
    obtain ⟨u,hu,free⟩ := Locks.exists_unblocked (waitRank w.node.system)
      (fun _ _ => rank_descends h.tracked.locks.locks h.noOverlap) t
    refine Stopping.mayRun_turn ?_ free
    rcases hu with rfl | ⟨l,owned⟩
    · exact ht
    · exact h.mayRun_of_holds ((h.tracked.locks.locks _ l).mp owned)
  rcases h.stage with was | was | was
  · exact unblocked (t := .closer 0) ⟨rfl,was⟩
  · by_cases exited : w.node.system.worker = .exited
    · have moved : w.node.lifeStep true 0 = some { w.node with life := .stopped } := by
        simp [Node.lifeStep,was,exited]
      exact ⟨.act (.life true 0),w.follow (.life true 0) _,rfl,
        lifeTurn_iff.mpr ⟨moved,fun _ => rfl⟩⟩
    · refine unblocked (t := .worker) ⟨exited,?_⟩
      by_contra slept
      rcases (h.alert.worker (by simpa using slept)).signal with ⟨flag,-⟩ | ⟨closing,-⟩
      · rw [h.flagged (by simp [was])] at flag
        cases flag
      · rw [was] at closing
        cases closing
  · have isClosed : w.node.system.isOpen = false := by
      refine h.isClosed.resolve_left (fun closing => ?_)
      rw [was] at closing
      cases closing.1
    have draining : Draining w := ⟨h.alert,h.tracked,h.few,was,isClosed⟩
    obtain ⟨k,v,turn⟩ := draining.turns (fun returned => busy ⟨was,returned⟩)
    exact ⟨.act (.callback k true),v,rfl,callbackTurn_iff.mpr turn⟩

def Flagged (n : Node) : Prop := n.life = .closing → n.system.stopRequested = true

theorem step_flagged {n n' : Node} {a : Action} (h : Flagged n)
    (moved : Lifecycle.step n a = some n') : Flagged n' := by
  intro closing
  cases a with
  | life ok pick =>
    cases life_move moved with
    | rest system was now served => exact absurd closing now.2
    | «open» was now system =>
      rw [closing] at now
      cases now
    | clear was now system =>
      rw [closing] at now
      cases now
    | start was now exited system =>
      rw [closing] at now
      cases now
    | flag was now system => rw [system]
    | close next was now closed =>
      rw [(close_frame closed).stopRequested]
      refine h ?_
      rcases was with ⟨was,rfl⟩ | ⟨was,-⟩
      · rw [closing,was] at now
        split at now <;> cases now
      · exact was
  | arrive payload =>
    obtain rfl := Option.some.inj moved
    have stop : (n.system.arrive payload).stopRequested = n.system.stopRequested := by
      unfold System.arrive
      split <;> rfl
    exact stop.trans (h closing)
  | callback k ok =>
    obtain ⟨t,ht,rfl⟩ := Option.map_eq_some_iff.mp moved
    exact (callback_frame ht).stopRequested.trans (h closing)
  | worker timedOut outcome =>
    obtain ⟨t,ht,rfl⟩ := Option.map_eq_some_iff.mp moved
    exact (worker_frame ht).stopRequested.trans (h closing)

theorem step_waiting_flagged {a : Waiting.Action} (h : Flagged w.node)
    (moved : Waiting.step w a = some w') : Flagged w'.node := by
  cases a with
  | act a =>
    simp only [Waiting.step,Option.ite_none_left_eq_some] at moved
    obtain ⟨n',hn,rfl⟩ := Option.map_eq_some_iff.mp moved.2
    exact step_flagged h hn
  | spurious t =>
    obtain rfl := Option.some.inj moved
    exact h

theorem zenoh_stop_terminates (as bs : List Waiting.Action) (w v : Waiting)
    (quiet : Transition.Meets Waiting.step Waiting.Quietly (.initial true) as)
    (h : Transition.run Waiting.step (.initial true) as = some w)
    (few : w.node.system.arrived < 2 ^ 64) (closing : w.node.life = .closing)
    (begins : w.node.system.closers 0 = .idle)
    (stops : Transition.Meets Waiting.step Waiting.Stops w bs)
    (h' : Transition.run Waiting.step w bs = some v) :
    bs.length ≤ 76 * w.node.system.arrived + 3 * w.node.system.pending.entries.length + 17 ∧
      (Ended v ∨ ∃ b u, Continues b ∧ v.step b = some u) := by
  have alert : Alert w := Transition.run_invariant (I := Alert)
    (fun _ _ _ hi hs => step_alert hi hs) (alert_initial true) h
  have tracked : Tracked w.node := Transition.run_invariant_of_meets (I := fun w => Tracked w.node)
    (fun _ _ _ hi hC hs => step_waiting_tracked hi hC hs) tracked_initial quiet h
  have flagged : Flagged w.node := Transition.run_invariant (I := fun w => Flagged w.node)
    (fun _ _ _ hi hs => step_waiting_flagged hi hs)
    (fun closing => by cases closing) h
  have apart : NoOverlap w.node.system := by
    intro c p hp
    by_cases idle : w.node.system.closers c = .idle
    · rw [idle] at hp
      cases hp
    · obtain ⟨rfl,-⟩ := alert.running.idle c idle
      exact absurd begins idle
  have stopping : Stopping w :=
    ⟨alert,tracked,few,apart,.inl closing,fun _ => flagged closing,.inl ⟨closing,begins⟩⟩
  obtain ⟨stopping',length⟩ := Transition.run_length_le (I := Stopping) Waiting.toStop
    (fun _ _ _ hu hC moved => hu.step hC moved) stopping stops h'
  refine ⟨?_,?_⟩
  · have load := load_le w
    have exit : w.node.system.worker.toExit ≤ 10 := by
      cases w.node.system.worker <;> simp [WorkerPc.toExit]
    have go : w.node.toGo = 3 * w.node.system.pending.entries.length + 7 := by
      simp [Node.toGo,closing,begins,CloserPc.toGo]
    unfold Waiting.toStop at length
    omega
  · by_cases ended : Ended v
    · exact .inl ended
    · exact .inr (stopping'.turns ended)

def stops (w : Waiting) : Waiting.Action → Bool
  | .act (.life _ pick) => w.node.life ≠ .stopped && closeApart w.node.system (.close 0 pick)
  | .act (.callback k ok) => ok && closeApart w.node.system (.callback k ok)
  | .act (.worker timedOut _) => !timedOut
  | _ => false

theorem stops_sound (w : Waiting) (b : Waiting.Action) (h : stops w b = true) : w.Stops b := by
  cases b with
  | spurious t => cases h
  | act a =>
    cases a with
    | life ok pick =>
      simp only [stops,Bool.and_eq_true,decide_eq_true_eq] at h
      exact ⟨h.1,closeApart_sound _ _ h.2⟩
    | callback k ok =>
      simp only [stops,Bool.and_eq_true] at h
      exact ⟨h.1,closeApart_sound _ _ h.2⟩
    | worker timedOut outcome => simpa [stops,Waiting.Stops] using h
    | arrive payload => cases h

def stopBegins : List Waiting.Action := List.replicate 2 (.act (.life true 0))

def stopEnds : List Waiting.Action :=
  List.replicate 8 (.act (.life true 0)) ++ List.replicate 7 (.act (.worker false .throws)) ++
    [.act (.life true 0)]

theorem zenoh_stop_terminates_asleep : ∃ w v,
    Transition.run Waiting.step (.initial true) (Waiting.serverUp ++ queryAsleep ++ stopBegins) =
        some w ∧
      Transition.run Waiting.step w stopEnds = some v ∧
      16 ≤ 76 * w.node.system.arrived + 3 * w.node.system.pending.entries.length + 17 ∧
        (Ended v ∨ ∃ b u, Continues b ∧ v.step b = some u) := by
  refine ⟨_,_,rfl,rfl,?_⟩
  exact zenoh_stop_terminates (Waiting.serverUp ++ queryAsleep ++ stopBegins) stopEnds _ _
    (Transition.meets_of_holdsAlong (P := fun _ => Waiting.succeeds) quietly_of_succeeds rfl) rfl
    (by decide) rfl rfl (Transition.meets_of_holdsAlong stops_sound rfl) rfl

end Lifecycle

end DdsAbstract.Zenoh
