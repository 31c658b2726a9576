import DdsAbstract.Zenoh.Abandonment
import DdsAbstract.Zenoh.Progress

namespace DdsAbstract.Zenoh

def WorkerPc.toGo (empty asleep : Bool) : WorkerPc → Nat
  | .exited => 0
  | .inWait => if asleep then 0 else 8
  | .atPredicate => 6
  | .atRelock timedOut => if timedOut then 12 else 7
  | .atQueueLock => 9
  | .atLoop => 10
  | .atReport | .atStore .. => 11
  | .atFront => if empty then 11 else 5
  | .atStateLock .. => 12
  | .atFind .. => 13
  | .atPendingLock .. => 14
  | .atDispatch .. => 15

theorem worker_moves {s : System} (outcome : HandlerOutcome) (alive : s.worker ≠ .exited)
    (free : ∀ l, s.worker.wants = some l → s.locks l = none) :
    ∃ t, s.workerStep false outcome = some t := by
  unfold System.workerStep
  cases hpc : s.worker <;> rw [hpc] at alive free
  case exited => exact absurd rfl alive
  case atQueueLock | atRelock | atPendingLock | atStateLock =>
    exact ⟨_,acquire_map_eq_some.mpr ⟨free _ rfl,rfl⟩⟩
  case atPredicate =>
    simp only
    split <;> exact ⟨_,rfl⟩
  case atFront => cases s.queue <;> exact ⟨_,rfl⟩
  case atFind e payload =>
    simp only
    split <;> exact ⟨_,rfl⟩
  all_goals exact ⟨_,rfl⟩

namespace Lifecycle

variable {w w' : Waiting} {k : Nat} {outcome : HandlerOutcome}

namespace Waiting

def toGo (w : Waiting) : Nat :=
  16 * w.node.system.queue.length +
    w.node.system.worker.toGo w.node.system.queue.isEmpty (w.asleep .worker)

def distance (w : Waiting) : Nat := 32 * w.load + w.toGo

end Waiting

structure WorkerTurn (w w' : Waiting) (outcome : HandlerOutcome) : Prop where
  awake : w.asleep .worker = false
  moved : w.node.system.workerStep false outcome = some w'.node.system
  life : w'.node.life = w.node.life
  asleep : ∀ t, w'.asleep t = (inWait w'.node.system t && (!inWait w.node.system t ||
    w.asleep t && !notified w.node (.worker false outcome) t))

theorem workerTurn_iff :
    w.step (.act (.worker false outcome)) = some w' ↔ WorkerTurn w w' outcome := by
  simp only [Waiting.step,Option.ite_none_left_eq_some]
  constructor
  · rintro ⟨awake,moved⟩
    obtain ⟨n',hn,rfl⟩ := Option.map_eq_some_iff.mp moved
    obtain ⟨t,ht,rfl⟩ := Option.map_eq_some_iff.mp hn
    exact ⟨by simpa [Waiting.blocked] using awake,ht,rfl,fun _ => rfl⟩
  · intro h
    refine ⟨by simp [Waiting.blocked,h.awake],?_⟩
    obtain ⟨node,asleep⟩ := w'
    obtain ⟨system,life⟩ := node
    obtain rfl : life = w.node.life := h.life
    simp only [Lifecycle.step,h.moved,Option.map_some,Option.some.injEq,Waiting.follow,
      Waiting.mk.injEq,true_and]
    exact funext fun t => (h.asleep t).symm

theorem workerTurn_toGo (h : WorkerTurn w w' outcome)
    (started : w.node.system.stopRequested = false) (opened : w.node.system.isOpen = true) :
    w'.toGo < w.toGo := by
  have moved := h.moved
  simp only [Waiting.toGo,h.asleep,h.awake,inWait]
  unfold System.workerStep at moved
  cases hpc : w.node.system.worker <;> simp only [hpc,acquire_map_eq_some] at moved
  case exited => cases moved
  case atLoop =>
    obtain same := Option.some.inj moved
    simp [← same,started,WorkerPc.toGo]
  case atQueueLock | atPendingLock | atStateLock =>
    obtain ⟨-,same⟩ := moved
    simp [← same,WorkerPc.toGo]
  case atRelock timedOut =>
    obtain ⟨-,same⟩ := moved
    cases timedOut <;> cases hq : w.node.system.queue <;> simp [← same,hq,WorkerPc.toGo]
  case atPredicate =>
    split at moved <;> rename_i waits <;> obtain same := Option.some.inj moved
    · have queue : w.node.system.queue.isEmpty = false := by simpa [started,opened] using waits
      simp only [← same,queue,WorkerPc.toGo]
      simp
    · simp [← same,System.release,WorkerPc.toGo]
  case atFront =>
    cases hq : w.node.system.queue <;> rw [hq] at moved <;> obtain same := Option.some.inj moved
    · simp [← same,System.release,hq,WorkerPc.toGo]
    · simp [← same,System.release,WorkerPc.toGo]
      omega
  case atFind =>
    split at moved <;> obtain same := Option.some.inj moved <;>
      simp [← same,System.release,WorkerPc.toGo]
  case atDispatch e =>
    obtain same := Option.some.inj moved
    cases hr : outcome.response <;> cases hk : e.message.kind <;>
      simp [← same,hr,hk,WorkerPc.toGo]
  case inWait | atReport | atStore =>
    obtain same := Option.some.inj moved
    simp [← same,System.release,System.setCallback,WorkerPc.toGo]

theorem work_le_of_kept {c c' : Callback} {asleep asleep' : Bool} (kept : CallbackKept c c')
    (woken : c.pc = .inWait → asleep = true → asleep' = true ∨ c'.state.settled = true) :
    c'.pc.work c'.state.settled asleep' ≤ c.pc.work c.state.settled asleep := by
  have settled := kept.settled
  rw [kept.pc]
  cases hpc : c.pc <;> rw [hpc] at woken <;> simp only [CallbackPc.work] <;> grind

theorem store_settles {s s' : System} (h : s.workerStep false outcome = some s') {e : Queued}
    {payload : DdsBytes} (was : s.worker = .atStore e k payload) :
    (s'.callbacks k).state.settled = true := by
  simp only [System.workerStep,was,Option.some.injEq] at h
  simp [← h,System.setCallback,ServerReply.settled]

theorem workerTurn_load (h : WorkerTurn w w' outcome) : w'.load ≤ w.load := by
  unfold Waiting.load
  rw [(worker_frame h.moved).arrived]
  refine Finset.sum_le_sum fun k _ => ?_
  have kept := worker_kept h.moved k
  refine work_le_of_kept kept fun waits asleep => ?_
  by_cases store : ∃ e payload, w.node.system.worker = .atStore e k payload
  · obtain ⟨e,payload,was⟩ := store
    exact .inr (store_settles h.moved was)
  · left
    have silent : notified w.node (.worker false outcome) (.callback k) = false := by
      simp only [notified]
      split
      · rename_i e state payload was
        simp only [decide_eq_false_iff_not,Thread.callback.injEq]
        rintro rfl
        exact store ⟨e,payload,was⟩
      · rfl
    simp [h.asleep,inWait,kept.pc,waits,asleep,silent]

theorem workerTurn_falls (h : WorkerTurn w w' outcome)
    (started : w.node.system.stopRequested = false) (opened : w.node.system.isOpen = true) :
    w'.distance < w.distance := by
  have load := workerTurn_load h
  have toGo := workerTurn_toGo h started opened
  unfold Waiting.distance
  omega

theorem toGo_le (pc : WorkerPc) (asleep asleep' : Bool) {empty empty' : Bool}
    (grown : empty' = true → empty = true) : pc.toGo empty' asleep' ≤ pc.toGo empty asleep + 8 := by
  cases pc <;> simp only [WorkerPc.toGo] <;> grind

theorem callbackTurn_toGo (h : CallbackTurn w w' k) : w'.toGo ≤ w.toGo + 24 := by
  unfold Waiting.toGo
  rw [(callback_frame h.moved).worker]
  cases callback_move h.moved with
  | push pc pc' pending queue he hr =>
    have grown : w'.node.system.queue.isEmpty = true → w.node.system.queue.isEmpty = true := by
      simp [queue]
    have go := toGo_le w.node.system.worker (w.asleep .worker) (w'.asleep .worker) grown
    have longer := congrArg List.length queue
    rw [List.length_append,List.length_singleton] at longer
    omega
  | quiet pc pending queue he hr | insert pc pending queue he hr
  | reply value pc pc' sent pending queue he hr | erase pc pc' pending queue he hr =>
    rw [queue]
    have go := toGo_le w.node.system.worker (w.asleep .worker) (w'.asleep .worker)
      (fun h : w.node.system.queue.isEmpty = true => h)
    omega

theorem callbackTurn_distance (h : CallbackTurn w w' k) (present : k < w.node.system.arrived) :
    w'.distance < w.distance := by
  have load := callbackTurn_load h present
  have toGo := callbackTurn_toGo h
  unfold Waiting.distance
  omega

def Serves : Waiting.Action → Prop
  | .act (.callback _ ok) => ok = true
  | .act (.worker timedOut outcome) => timedOut = false ∧ outcome.response.isSome = true
  | _ => False

def AtRest (w : Waiting) : Prop := Returned w ∧ w.asleep .worker = true

structure Engaged (w : Waiting) : Prop where
  alert : Alert w
  tracked : Tracked w.node
  served : Served w.node.system
  few : w.node.system.arrived < 2 ^ 64
  running : w.node.life = .running
  isOpen : w.node.system.isOpen = true

theorem Engaged.callback (h : Engaged w) (ht : CallbackTurn w w' k) : Engaged w' := by
  have frame := callback_frame ht.moved
  refine ⟨callbackTurn_alert ht h.alert,callbackTurn_tracked ht h.tracked,
    callback_served h.tracked.wellFormed h.served ht.moved,?_,?_,?_⟩
  · rw [frame.arrived]
    exact h.few
  · rw [ht.life]
    exact h.running
  · rw [frame.isOpen]
    exact h.isOpen

theorem Engaged.worker (h : Engaged w) (ht : WorkerTurn w w' outcome)
    (answers : outcome.response.isSome = true) : Engaged w' := by
  have frame := worker_frame ht.moved
  refine ⟨step_alert h.alert (workerTurn_iff.mpr ht),?_,?_,?_,?_,?_⟩
  · refine step_tracked (a := .worker false outcome) h.tracked trivial ?_
    simp only [Lifecycle.step,ht.moved,Option.map_some,← ht.life]
  · refine worker_served h.tracked.wellFormed h.served ?_ ht.moved
    intro e was silent
    rw [silent] at answers
    cases answers
  · rw [frame.arrived]
    exact h.few
  · rw [ht.life]
    exact h.running
  · rw [frame.isOpen]
    exact h.isOpen

theorem Engaged.idle (h : Engaged w) (c : Nat) : w.node.system.closers c = .idle := by
  by_contra busy
  rcases (h.alert.running.idle c busy).2 with hl | hl <;> rw [h.running] at hl <;> cases hl

theorem Engaged.noOverlap (h : Engaged w) : NoOverlap w.node.system := by
  intro c p hp
  rw [h.idle c] at hp
  cases hp

theorem Engaged.not_toCancel (h : Engaged w) (p : Nat) : ¬ ToCancel w.node.system p := by
  rintro ⟨c,hc⟩
  rw [h.idle c] at hc
  cases hc

theorem Engaged.awake (h : Engaged w) (asleep : w.asleep .worker = true) (k : Nat) :
    w.asleep (.callback k) = false := by
  by_contra slept
  obtain ⟨waits,unsettled⟩ := h.alert.reply k (by simpa using slept)
  have dormant := h.alert.worker asleep
  have registered : (w.node.system.callbacks k).pc.registered = true := by rw [waits]; rfl
  have settled : (w.node.system.callbacks k).state.settled = true := by
    cases enqueued : (w.node.system.callbacks k).enqueued with
    | false =>
      refine ((h.tracked.released h.few k).skipped registered ?_ enqueued).resolve_right
        (h.not_toCancel k)
      rw [waits]
      rfl
    | true =>
      rcases h.served _ k (h.tracked.registered h.few k registered) enqueued with
        ⟨e,he,-⟩ | serves | settled
      · rw [dormant.queue] at he
        cases he
      · rw [dormant.waits] at serves
        exact serves.elim
      · exact settled
  rw [settled] at unsettled
  cases unsettled

def CanRun (w : Waiting) : Thread → Prop
  | .callback k => ((w.node.system.callbacks k).pc ≠ .absent ∧
      (w.node.system.callbacks k).pc ≠ .left) ∧ w.asleep (.callback k) = false
  | .worker => w.asleep .worker = false
  | .closer _ => False

theorem Engaged.canRun_of_holds (h : Engaged w) {l : Lock} {t : Thread}
    (ht : w.node.system.Holds t l) : CanRun w t := by
  have notWaiting (waits : InConditionWait w.node.system t) : False :=
    not_holds_of_inConditionWait waits l ht
  cases t with
  | callback k =>
    refine ⟨alive_of_holds ht,?_⟩
    by_contra slept
    exact notWaiting (.inl (h.alert.reply k (by simpa using slept)).1)
  | worker =>
    by_contra slept
    exact notWaiting (.inl (h.alert.worker (by simpa [CanRun] using slept)).waits)
  | closer c =>
    rw [System.Holds,System.held,h.idle c] at ht
    cases ht

theorem Engaged.turn (h : Engaged w) {t : Thread} (ht : CanRun w t)
    (free : ∀ l, w.node.system.wants t = some l → w.node.system.locks l = none) :
    ∃ b v, Serves b ∧ w.step b = some v := by
  cases t with
  | callback k =>
    obtain ⟨s,hs⟩ := callback_enabled ht.1 free
    exact ⟨.act (.callback k true),w.follow (.callback k true) ⟨s,w.node.life⟩,rfl,
      callbackTurn_iff.mpr ⟨ht.2,hs,rfl,fun _ => rfl⟩⟩
  | worker =>
    obtain ⟨s,hs⟩ := worker_moves (.returns []) (h.alert.running.worker h.running) free
    exact ⟨.act (.worker false (.returns [])),w.follow (.worker false (.returns [])) ⟨s,w.node.life⟩,
      ⟨rfl,rfl⟩,workerTurn_iff.mpr ⟨ht,hs,rfl,fun _ => rfl⟩⟩
  | closer c => exact ht.elim

theorem Engaged.turns (h : Engaged w) (busy : ¬ AtRest w) : ∃ b v, Serves b ∧ w.step b = some v := by
  have runnable : ∃ t, CanRun w t := by
    cases asleep : w.asleep .worker with
    | false => exact ⟨.worker,asleep⟩
    | true =>
      simp only [AtRest,asleep,and_true,Returned,not_forall,not_or] at busy
      obtain ⟨k,alive⟩ := busy
      exact ⟨.callback k,alive,h.awake asleep k⟩
  obtain ⟨t,ht⟩ := runnable
  obtain ⟨u,hu,free⟩ := Locks.exists_unblocked (waitRank w.node.system)
    (fun _ _ => rank_descends h.tracked.locks.locks h.noOverlap) t
  refine h.turn ?_ free
  rcases hu with rfl | ⟨l,owned⟩
  · exact ht
  · exact h.canRun_of_holds ((h.tracked.locks.locks _ l).mp owned)

theorem Engaged.step (h : Engaged w) {b : Waiting.Action} (hb : Serves b)
    (moved : w.step b = some w') : Engaged w' ∧ w'.distance < w.distance := by
  cases b with
  | spurious t => exact hb.elim
  | act a =>
    cases a with
    | callback k ok =>
      obtain rfl : ok = true := hb
      have turn := callbackTurn_iff.mp moved
      exact ⟨h.callback turn,
        callbackTurn_distance turn (callback_arrived h.tracked.wellFormed turn.moved)⟩
    | worker timedOut outcome =>
      obtain ⟨rfl,answers⟩ := hb
      have turn := workerTurn_iff.mp moved
      exact ⟨h.worker turn answers,
        workerTurn_falls turn (h.alert.running.notStopped (.inr h.running)) h.isOpen⟩
    | _ => exact hb.elim

structure Owes (w : Waiting) (k : Nat) : Prop where
  uncancelled : (w.node.system.callbacks k).state.cancelled = false
  answered : (w.node.system.callbacks k).replies = [] →
    (w.node.system.callbacks k).pc ≠ .absent ∧ (w.node.system.callbacks k).pc.afterReply = false

theorem callback_owes (h : CallbackTurn w w' k) (he : Engaged w) (ho : Owes w k) :
    Owes w' k := by
  have state := (callback_frame h.moved).state
  refine ⟨state ▸ ho.uncancelled,?_⟩
  have isOpen := he.isOpen
  have hserver := he.tracked.wellFormed.server
  have moved := h.moved
  have before := ho.answered
  unfold System.callbackStep at moved
  cases hpc : (w.node.system.callbacks k).pc <;>
    simp only [hpc,acquire_map_eq_some,isOpen,if_true] at moved before
  case absent | left => cases moved
  case atPendingLock | atQueueLock | atStateLock | atRelock =>
    obtain ⟨-,same⟩ := moved
    simp [← same,System.goto,System.setCallback,CallbackPc.afterReply]
  case atOpenCheck | atInsert | atPayload | atEnqueueCheck | inWait =>
    obtain same := Option.some.inj moved
    simp [← same,System.goto,System.setCallback,CallbackPc.afterReply]
  case atPush =>
    obtain same := Option.some.inj moved
    simp [← same,System.setCallback,System.afterEnqueue,hserver,CallbackPc.afterReply]
  case atPredicate =>
    split at moved <;> obtain same := Option.some.inj moved <;>
      simp [← same,System.goto,System.setCallback,CallbackPc.afterReply]
  case atReply =>
    have settled := he.tracked.decided k hpc
    simp only [ServerReply.settled,ho.uncancelled,Bool.or_false] at settled
    obtain ⟨value,sent⟩ := Option.isSome_iff_exists.mp settled
    rw [sent] at moved
    obtain same := Option.some.inj moved
    simp [← same,System.setCallback]
  case atEraseLock =>
    obtain ⟨-,same⟩ := moved
    intro unanswered
    cases (before (by simpa [← same,System.goto,System.setCallback] using unanswered)).2
  case atErase | atUnlock =>
    obtain same := Option.some.inj moved
    intro unanswered
    cases (before (by simpa [← same,System.goto,System.setCallback,System.release]
      using unanswered)).2

theorem worker_owes (h : WorkerTurn w w' outcome) (ho : Owes w k) : Owes w' k := by
  have kept := worker_kept h.moved k
  refine ⟨?_,?_⟩
  · cases worker_move h.moved with
    | store e payload state was now queue dispatched callbacks =>
      rw [callbacks]
      by_cases hk : k = state
      · subst hk
        simpa using ho.uncancelled
      · rw [Function.update_of_ne hk]
        exact ho.uncancelled
    | _ =>
      rename_i callbacks
      rw [callbacks]
      exact ho.uncancelled
  · rw [kept.replies,kept.pc]
    exact ho.answered

theorem Engaged.owes (h : Engaged w) {b : Waiting.Action} (hb : Serves b)
    (moved : w.step b = some w') (ho : Owes w k) : Owes w' k := by
  cases b with
  | spurious t => exact hb.elim
  | act a =>
    cases a with
    | callback j ok =>
      obtain rfl : ok = true := hb
      have turn := callbackTurn_iff.mp moved
      by_cases hj : k = j
      · subst hj
        exact callback_owes turn h ho
      · have same := (callback_frame turn.moved).others k hj
        exact ⟨same ▸ ho.uncancelled,same ▸ ho.answered⟩
    | worker timedOut outcome =>
      obtain ⟨rfl,-⟩ := hb
      exact worker_owes (workerTurn_iff.mp moved) ho
    | _ => exact hb.elim

def Waiting.Orderly (w : Waiting) : Waiting.Action → Prop
  | .act (.worker timedOut outcome) => AnswersOrSettled w.node.system (.worker timedOut outcome)
  | a => w.Quietly a

theorem orderly_quietly {a : Waiting.Action} (h : w.Orderly a) : w.Quietly a := by
  cases a with
  | spurious t => trivial
  | act a => cases a <;> first | exact h | trivial

theorem step_waiting_served {a : Waiting.Action} (h : Served w.node.system)
    (ht : Tracked w.node) (hC : w.Orderly a) (moved : Waiting.step w a = some w') :
    Served w'.node.system := by
  cases a with
  | spurious t =>
    obtain rfl := Option.some.inj moved
    exact h
  | act a =>
    simp only [Waiting.step,Option.ite_none_left_eq_some] at moved
    obtain ⟨n',hn,rfl⟩ := Option.map_eq_some_iff.mp moved.2
    cases a with
    | worker timedOut outcome =>
      obtain ⟨t,hs,rfl⟩ := Option.map_eq_some_iff.mp hn
      exact worker_served ht.wellFormed h hC hs
    | callback k ok =>
      obtain ⟨t,hs,rfl⟩ := Option.map_eq_some_iff.mp hn
      exact callback_served ht.wellFormed h hs
    | arrive payload =>
      obtain rfl := Option.some.inj hn
      exact step_served (a := .arrive payload) ht.wellFormed h trivial rfl
    | life ok pick =>
      rcases lifeStep_simulates hn with same | ⟨b,owner,hb⟩
      · exact same ▸ h
      · refine step_served ht.wellFormed h ?_ hb
        cases b <;> trivial

structure Answering (w v : Waiting) (steps : Nat) : Prop where
  bounded : steps ≤ 608 * w.node.system.arrived + 16 * w.node.system.queue.length + 15
  live : AtRest v ∨ ∃ b v', Serves b ∧ v.step b = some v'
  answered : Returned v → ∀ k, Owes w k → (v.node.system.callbacks k).replies ≠ []

theorem distance_le (w : Waiting) :
    w.distance ≤ 608 * w.node.system.arrived + 16 * w.node.system.queue.length + 15 := by
  have load := load_le w
  have toGo : w.node.system.worker.toGo w.node.system.queue.isEmpty (w.asleep .worker) ≤ 15 := by
    cases w.node.system.worker <;> simp only [WorkerPc.toGo] <;> grind
  unfold Waiting.distance Waiting.toGo
  omega

theorem zenoh_server_answers (as bs : List Waiting.Action) (w v : Waiting)
    (orderly : Transition.Meets Waiting.step Waiting.Orderly (.initial true) as)
    (h : Transition.run Waiting.step (.initial true) as = some w)
    (few : w.node.system.arrived < 2 ^ 64) (running : w.node.life = .running)
    (isOpen : w.node.system.isOpen = true) (serves : ∀ b ∈ bs, Serves b)
    (h' : Transition.run Waiting.step w bs = some v) : Answering w v bs.length := by
  have alert : Alert w := Transition.run_invariant (I := Alert)
    (fun _ _ _ hi hs => step_alert hi hs) (alert_initial true) h
  obtain ⟨tracked,served⟩ : Tracked w.node ∧ Served w.node.system :=
    Transition.run_invariant_of_meets (I := fun w => Tracked w.node ∧ Served w.node.system)
      (fun _ _ _ hi hC hs => ⟨step_waiting_tracked hi.1 (orderly_quietly hC) hs,
        step_waiting_served hi.2 hi.1 hC hs⟩)
      ⟨tracked_initial,fun i p hl => by cases hl⟩ orderly h
  have engaged : Engaged w := ⟨alert,tracked,served,few,running,isOpen⟩
  have serving : Transition.Meets Waiting.step (fun _ => Serves) w bs :=
    Transition.meets_of_forall serves
  have steps := Transition.run_length_le (I := fun u => Engaged u ∧ ∀ k, Owes w k → Owes u k)
    Waiting.distance
    (fun u b u' hu hb moved => ⟨⟨(hu.1.step hb moved).1,fun k ho => hu.1.owes hb moved (hu.2 k ho)⟩,
      (hu.1.step hb moved).2⟩)
    ⟨engaged,fun _ ho => ho⟩ serving h'
  obtain ⟨⟨engaged',owes⟩,length⟩ := steps
  refine ⟨by have := distance_le w; omega,?_,?_⟩
  · by_cases rest : AtRest v
    · exact .inl rest
    · exact .inr (engaged'.turns rest)
  · intro returned k ho unanswered
    obtain ⟨present,replying⟩ := (owes k ho).answered unanswered
    rcases returned k with hpc | hpc
    · exact present hpc
    · rw [hpc] at replying
      cases replying

def orderly (w : Waiting) : Waiting.Action → Bool
  | .act (.worker timedOut outcome) => answersOrSettled w.node.system (.worker timedOut outcome)
  | a => Waiting.succeeds a

theorem orderly_sound (w : Waiting) (a : Waiting.Action) (h : orderly w a = true) : w.Orderly a := by
  cases a with
  | spurious t => trivial
  | act a =>
    cases a with
    | worker timedOut outcome =>
      exact answersOrSettled_sound w.node.system (.worker timedOut outcome) h
    | life ok pick => exact quietly_of_succeeds w (.act (.life ok pick)) h
    | _ => trivial

def serveQuery : List Waiting.Action :=
  List.replicate 9 (.act (.worker false (.returns [2]))) ++
    List.replicate 7 (.act (.callback 0 true))

theorem zenoh_server_answers_asleep : ∃ w v,
    Transition.run Waiting.step (.initial true) (Waiting.serverUp ++ queryAsleep) = some w ∧
      Transition.run Waiting.step w serveQuery = some v ∧ Answering w v 16 := by
  refine ⟨_,_,rfl,rfl,?_⟩
  exact zenoh_server_answers (Waiting.serverUp ++ queryAsleep) serveQuery _ _
    (Transition.meets_of_holdsAlong orderly_sound rfl) rfl (by decide) rfl rfl
    (by simp [serveQuery,Serves,HandlerOutcome.response]) rfl

end Lifecycle

end DdsAbstract.Zenoh
