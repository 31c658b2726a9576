import Mathlib.Algebra.Order.BigOperators.Group.Finset
import DdsAbstract.Zenoh.Release

namespace DdsAbstract.Zenoh

def CallbackPc.work (settled asleep : Bool) : CallbackPc → Nat
  | .absent | .left => 0
  | .atUnlock => 1
  | .atErase => 2
  | .atEraseLock => 3
  | .atReply => 4
  | .atPredicate => if settled then 5 else 10
  | .atStateLock | .atRelock => if settled then 6 else 11
  | .inWait => if settled then 7 else if asleep then 9 else 12
  | .atPush => 13
  | .atEnqueueCheck => 14
  | .atQueueLock => 15
  | .atPayload => 16
  | .atInsert => 17
  | .atOpenCheck => 18
  | .atPendingLock => 19

namespace Lifecycle

variable {w w' : Waiting} {k : Nat}

namespace Waiting

def work (w : Waiting) (k : Nat) : Nat :=
  (w.node.system.callbacks k).pc.work (w.node.system.callbacks k).state.settled
    (w.asleep (.callback k))

def load (w : Waiting) : Nat := ∑ k ∈ Finset.range w.node.system.arrived, w.work k

end Waiting

structure CallbackTurn (w w' : Waiting) (k : Nat) : Prop where
  awake : w.asleep (.callback k) = false
  moved : w.node.system.callbackStep k true = some w'.node.system
  life : w'.node.life = w.node.life
  asleep : ∀ t, w'.asleep t = (inWait w'.node.system t && (!inWait w.node.system t ||
    w.asleep t && !notified w.node (.callback k true) t))

theorem callbackTurn_iff :
    w.step (.act (.callback k true)) = some w' ↔ CallbackTurn w w' k := by
  simp only [Waiting.step,Option.ite_none_left_eq_some]
  constructor
  · rintro ⟨awake,moved⟩
    obtain ⟨n',hn,rfl⟩ := Option.map_eq_some_iff.mp moved
    obtain ⟨t,ht,rfl⟩ := Option.map_eq_some_iff.mp hn
    exact ⟨by simpa [Waiting.blocked] using awake,ht,rfl,fun _ => rfl⟩
  · intro h
    refine ⟨by simp [Waiting.blocked,h.awake],?_⟩
    obtain ⟨node,asleep⟩ := w'
    obtain ⟨system,life⟩ := node
    obtain rfl : life = w.node.life := h.life
    simp only [Lifecycle.step,h.moved,Option.map_some,Option.some.injEq,Waiting.follow,
      Waiting.mk.injEq,true_and]
    exact funext fun t => (h.asleep t).symm

theorem callbackTurn_others (h : CallbackTurn w w' k) {j : Nat} (hj : j ≠ k) :
    w'.work j = w.work j := by
  have same := (callback_frame h.moved).others j hj
  simp only [Waiting.work,same,h.asleep,inWait,notified]
  by_cases waits : (w.node.system.callbacks j).pc = .inWait
  · simp [waits]
  · cases hpc : (w.node.system.callbacks j).pc <;> simp [hpc,CallbackPc.work] at waits ⊢

theorem callbackTurn_falls (h : CallbackTurn w w' k) : w'.work k < w.work k := by
  have state := (callback_frame h.moved).state
  have asleep := h.asleep (.callback k)
  have moved := h.moved
  simp only [Waiting.work,asleep,state,h.awake,inWait]
  unfold System.callbackStep at moved
  cases hpc : (w.node.system.callbacks k).pc <;> simp only [hpc,acquire_map_eq_some] at moved
  case absent | left => cases moved
  case atPendingLock | atQueueLock | atEraseLock =>
    obtain ⟨-,same⟩ := moved
    simp [← same,System.goto,System.setCallback,CallbackPc.work]
  case atStateLock | atRelock =>
    obtain ⟨-,same⟩ := moved
    cases hs : (w.node.system.callbacks k).state.settled <;>
      simp [← same,System.goto,System.setCallback,CallbackPc.work]
  case atInsert | atPayload | atErase | atUnlock =>
    obtain same := Option.some.inj moved
    simp [← same,System.goto,System.setCallback,System.release,CallbackPc.work]
  case inWait =>
    obtain same := Option.some.inj moved
    cases hs : (w.node.system.callbacks k).state.settled <;>
      simp [← same,System.goto,System.setCallback,CallbackPc.work]
  case atOpenCheck =>
    split at moved <;> obtain same := Option.some.inj moved <;>
      simp [← same,System.goto,System.setCallback,System.release,CallbackPc.work]
  case atEnqueueCheck | atPush =>
    split at moved <;> obtain same := Option.some.inj moved <;>
      cases hs : (w.node.system.callbacks k).state.settled <;> cases ho : w.node.system.isServer <;>
        simp [← same,System.goto,System.setCallback,System.release,System.afterEnqueue,ho,
          CallbackPc.work]
  case atPredicate =>
    split at moved <;> rename_i hs <;> obtain same := Option.some.inj moved
    · have settled : (w.node.system.callbacks k).state.settled = true := hs
      simp [← same,System.goto,System.setCallback,settled,CallbackPc.work]
    · have unsettled : (w.node.system.callbacks k).state.settled = false := by
        simpa [ServerReply.settled] using hs
      simp [← same,System.goto,System.setCallback,System.release,unsettled,CallbackPc.work]
  case atReply =>
    cases hv : (w.node.system.callbacks k).state.value <;> rw [hv] at moved <;>
      obtain same := Option.some.inj moved <;>
        simp [← same,System.goto,System.setCallback,CallbackPc.work]

theorem callbackTurn_load (h : CallbackTurn w w' k) (present : k < w.node.system.arrived) :
    w'.load < w.load := by
  unfold Waiting.load
  rw [(callback_frame h.moved).arrived]
  refine Finset.sum_lt_sum (fun j _ => ?_) ⟨k,Finset.mem_range.mpr present,callbackTurn_falls h⟩
  by_cases hj : j = k
  · subst hj
    exact (callbackTurn_falls h).le
  · exact (callbackTurn_others h hj).le

theorem callbackTurn_alert (h : CallbackTurn w w' k) (ha : Alert w) : Alert w' :=
  step_alert ha (callbackTurn_iff.mpr h)

theorem callbackTurn_tracked (h : CallbackTurn w w' k) (ht : Tracked w.node) : Tracked w'.node := by
  refine step_tracked (a := .callback k true) ht trivial ?_
  simp only [Lifecycle.step,h.moved,Option.map_some,← h.life]

structure Draining (w : Waiting) : Prop where
  alert : Alert w
  tracked : Tracked w.node
  few : w.node.system.arrived < 2 ^ 64
  stopped : w.node.life = .stopped
  isClosed : w.node.system.isOpen = false

def Returned (w : Waiting) : Prop :=
  ∀ k, (w.node.system.callbacks k).pc = .absent ∨ (w.node.system.callbacks k).pc = .left

theorem Draining.turn (h : Draining w) (ht : CallbackTurn w w' k) : Draining w' := by
  have frame := callback_frame ht.moved
  refine ⟨callbackTurn_alert ht h.alert,callbackTurn_tracked ht h.tracked,?_,?_,?_⟩
  · rw [frame.arrived]
    exact h.few
  · rw [ht.life]
    exact h.stopped
  · rw [frame.isOpen]
    exact h.isClosed

theorem Draining.idle (h : Draining w) (c : Nat) : w.node.system.closers c = .idle := by
  by_contra busy
  rcases (h.alert.running.idle c busy).2 with hl | hl <;> rw [h.stopped] at hl <;> cases hl

theorem Draining.exited (h : Draining w) : w.node.system.worker = .exited := by
  refine h.alert.serving.resolve_right ?_
  rw [h.stopped]
  nofun

theorem Draining.settled (h : Draining w)
    (hk : (w.node.system.callbacks k).pc.registered = true) :
    (w.node.system.callbacks k).state.settled = true := by
  rcases (h.tracked.released h.few k).registered hk with settled | opened | ⟨c,hc⟩
  · exact settled
  · rw [h.isClosed] at opened
    cases opened
  · rw [h.idle c] at hc
    cases hc

theorem Draining.awake (h : Draining w) (k : Nat) : w.asleep (.callback k) = false := by
  by_contra asleep
  obtain ⟨waits,unsettled⟩ := h.alert.reply k (by simpa using asleep)
  rw [h.settled (by rw [waits]; rfl)] at unsettled
  cases unsettled

theorem Draining.noOverlap (h : Draining w) : NoOverlap w.node.system := by
  intro c p hp
  rw [h.idle c] at hp
  cases hp

theorem Draining.owner (h : Draining w) {l : Lock} {t : Thread}
    (ht : w.node.system.locks l = some t) : ∃ j, t = .callback j := by
  have holds := (h.tracked.locks.locks t l).mp ht
  cases t with
  | callback j => exact ⟨j,rfl⟩
  | worker =>
    rw [System.Holds,System.held,h.exited] at holds
    cases holds
  | closer c =>
    rw [System.Holds,System.held,h.idle c] at holds
    cases holds

theorem alive_of_holds {s : System} {l : Lock} (h : s.Holds (.callback k) l) :
    (s.callbacks k).pc ≠ .absent ∧ (s.callbacks k).pc ≠ .left := by
  constructor <;> intro hpc <;> rw [System.Holds,System.held,hpc] at h <;> cases h

theorem Draining.turns (h : Draining w) (left : ¬ Returned w) :
    ∃ j w', CallbackTurn w w' j := by
  simp only [Returned,not_forall,not_or] at left
  obtain ⟨k,alive⟩ := left
  obtain ⟨u,hu,free⟩ := Locks.exists_unblocked (waitRank w.node.system)
    (fun _ _ => rank_descends h.tracked.locks.locks h.noOverlap) (.callback k)
  have callback : ∃ j, u = .callback j ∧ (w.node.system.callbacks j).pc ≠ .absent ∧
      (w.node.system.callbacks j).pc ≠ .left := by
    rcases hu with rfl | ⟨l,owned⟩
    · exact ⟨k,rfl,alive⟩
    · obtain ⟨j,rfl⟩ := h.owner owned
      exact ⟨j,rfl,alive_of_holds ((h.tracked.locks.locks _ l).mp owned)⟩
  obtain ⟨j,rfl,alive⟩ := callback
  obtain ⟨t,ht⟩ := callback_enabled alive free
  exact ⟨j,w.follow (.callback j true) ⟨t,w.node.life⟩,h.awake j,ht,rfl,fun _ => rfl⟩

def Waiting.Quietly (w : Waiting) : Waiting.Action → Prop
  | .act a => OpenFailsQuietly w.node a
  | .spurious _ => True

theorem step_waiting_tracked {a : Waiting.Action} (h : Tracked w.node) (hC : w.Quietly a)
    (moved : Waiting.step w a = some w') : Tracked w'.node := by
  cases a with
  | act a =>
    simp only [Waiting.step,Option.ite_none_left_eq_some] at moved
    obtain ⟨n',hn,rfl⟩ := Option.map_eq_some_iff.mp moved.2
    exact step_tracked h hC hn
  | spurious t =>
    obtain rfl := Option.some.inj moved
    exact h

theorem tracked_initial : Tracked (.initial true) := by
  refine ⟨wellFormed_initial,⟨fun _ _ => rfl,locksMatch_initial true⟩,fun _ _ h => ?_,
    fun _ h => ?_,fun _ _ => ?_⟩
  · cases h
  · cases h
  · refine ⟨?_,?_,?_⟩ <;> nofun

theorem load_le (w : Waiting) : w.load ≤ 19 * w.node.system.arrived := by
  have work (k : Nat) : w.work k ≤ 19 := by
    unfold Waiting.work
    cases (w.node.system.callbacks k).pc <;> simp only [CallbackPc.work] <;> grind
  calc w.load ≤ ∑ _k ∈ Finset.range w.node.system.arrived, 19 := Finset.sum_le_sum fun k _ => work k
    _ = 19 * w.node.system.arrived := by simp [Nat.mul_comm]

theorem zenoh_stop_releases (as bs : List Waiting.Action) (w v : Waiting)
    (quiet : Transition.Meets Waiting.step Waiting.Quietly (.initial true) as)
    (h : Transition.run Waiting.step (.initial true) as = some w)
    (few : w.node.system.arrived < 2 ^ 64) (stopped : w.node.life = .stopped)
    (isClosed : w.node.system.isOpen = false)
    (callbacks : ∀ b ∈ bs, ∃ k, b = .act (.callback k true))
    (h' : Transition.run Waiting.step w bs = some v) :
    bs.length ≤ 19 * w.node.system.arrived ∧
      (Returned v ∨ ∃ k v', v.step (.act (.callback k true)) = some v') := by
  have alert : Alert w := Transition.run_invariant (I := Alert)
    (fun _ _ _ hi hs => step_alert hi hs) (alert_initial true) h
  have tracked : Tracked w.node := Transition.run_invariant_of_meets (I := fun w => Tracked w.node)
    (fun _ _ _ hi hC hs => step_waiting_tracked hi hC hs) tracked_initial quiet h
  have draining : Draining w := ⟨alert,tracked,few,stopped,isClosed⟩
  obtain ⟨draining',length⟩ := Transition.run_length_le (I := Draining) Waiting.load
    (C := fun _ b => ∃ k, b = Waiting.Action.act (.callback k true))
    (by
      rintro u _ u' hu ⟨k,rfl⟩ moved
      have turn := callbackTurn_iff.mp moved
      exact ⟨hu.turn turn,callbackTurn_load turn (callback_arrived hu.tracked.wellFormed turn.moved)⟩)
    draining (Transition.meets_of_forall callbacks) h'
  refine ⟨by have := load_le w; omega,?_⟩
  by_cases returned : Returned v
  · exact .inl returned
  · obtain ⟨k,v',turn⟩ := draining'.turns returned
    exact .inr ⟨k,v',callbackTurn_iff.mpr turn⟩

def Waiting.succeeds : Waiting.Action → Bool
  | .act (.life ok _) => ok
  | _ => true

theorem quietly_of_succeeds (w : Waiting) (a : Waiting.Action) (h : Waiting.succeeds a = true) :
    w.Quietly a := by
  cases a with
  | spurious t => trivial
  | act a =>
    cases a with
    | life ok pick =>
      intro failed
      rw [Waiting.succeeds,failed] at h
      cases h
    | _ => trivial

def stopServer : List Waiting.Action :=
  List.replicate 10 (.act (.life true 0)) ++ List.replicate 7 (.act (.worker false .throws)) ++
    [.act (.life true 0)]

theorem zenoh_stop_releases_asleep : ∃ w v,
    Transition.run Waiting.step (.initial true) (Waiting.serverUp ++ queryAsleep ++ stopServer) =
        some w ∧
      Transition.run Waiting.step w (List.replicate 7 (.act (.callback 0 true))) = some v ∧
      7 ≤ 19 * w.node.system.arrived ∧
        (Returned v ∨ ∃ k v', v.step (.act (.callback k true)) = some v') := by
  refine ⟨_,_,rfl,rfl,?_⟩
  exact zenoh_stop_releases (Waiting.serverUp ++ queryAsleep ++ stopServer)
    (List.replicate 7 (.act (.callback 0 true))) _ _
    (Transition.meets_of_holdsAlong (P := fun _ => Waiting.succeeds) quietly_of_succeeds rfl) rfl
    (by decide) rfl rfl (by simp) rfl

end Lifecycle

end DdsAbstract.Zenoh
