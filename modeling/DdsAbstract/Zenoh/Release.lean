import DdsAbstract.Zenoh.Wakeups
import DdsAbstract.Zenoh.LockOrder
import DdsAbstract.Zenoh.Correlation

namespace DdsAbstract.Zenoh

variable {s s' : System} {k c pick : Nat} {ok timedOut : Bool} {outcome : HandlerOutcome}

def CloserPc.beforeSnapshot : CloserPc → Bool
  | .atQueueLock | .atNotify | .atPendingLock => true
  | _ => false

def CloserPc.reaches (p : Nat) : CloserPc → Prop
  | .idle => False
  | .atQueueLock | .atNotify | .atPendingLock => True
  | .cancelling todo => p ∈ todo
  | .atStateLock state todo | .atCancel state todo => p ∈ state :: todo

def ToCancel (s : System) (p : Nat) : Prop := ∃ c, (s.closers c).reaches p

structure Released (s : System) (k : Nat) : Prop where
  entering : (s.callbacks k).pc = .atInsert →
    s.isOpen = true ∨ ∃ c, (s.closers c).beforeSnapshot = true
  registered : (s.callbacks k).pc.registered = true →
    (s.callbacks k).state.settled = true ∨ s.isOpen = true ∨ ToCancel s k
  skipped : (s.callbacks k).pc.registered = true → (s.callbacks k).pc.afterPush = true →
    (s.callbacks k).enqueued = false → (s.callbacks k).state.settled = true ∨ ToCancel s k

theorem reaches_of_beforeSnapshot {pc : CloserPc} (h : pc.beforeSnapshot = true) (p : Nat) :
    pc.reaches p := by
  cases pc <;> trivial

theorem Released.kept (h : Released s k) (isOpen : s'.isOpen = s.isOpen)
    (closers : s'.closers = s.closers) (kept : CallbackKept (s.callbacks k) (s'.callbacks k)) :
    Released s' k := by
  refine ⟨?_,?_,?_⟩
  · rw [kept.pc,isOpen,closers]
    exact h.entering
  · rw [kept.pc,isOpen,ToCancel,closers]
    exact fun hr => (h.registered hr).imp_left kept.settled
  · rw [kept.pc,kept.enqueued,ToCancel,closers]
    exact fun hr ha he => (h.skipped hr ha he).imp_left kept.settled

theorem callback_released (hserver : s.isServer = true) (hr : ∀ j, Released s j)
    (h : s.callbackStep k ok = some s') (j : Nat) : Released s' j := by
  have frame := callback_frame h
  by_cases hj : j = k
  · subst hj
    have own := hr j
    have rest (entering : (s'.callbacks j).pc ≠ .atInsert)
        (registered : (s'.callbacks j).pc.registered = true →
          (s.callbacks j).state.settled = true ∨ s.isOpen = true ∨ ToCancel s j)
        (skipped : (s'.callbacks j).pc.registered = true → (s'.callbacks j).pc.afterPush = true →
          (s'.callbacks j).enqueued = false →
          (s.callbacks j).state.settled = true ∨ ToCancel s j) : Released s' j := by
      refine ⟨fun now => absurd now entering,?_,?_⟩ <;> simpa only [frame.isOpen,ToCancel,frame.closers,frame.state]
    cases entry_move hserver h with
    | checks now isOpen =>
      refine ⟨fun _ => .inl (frame.isOpen.trans isOpen),?_,?_⟩ <;> rw [now] <;> nofun
    | inserts was after now =>
      refine rest now (fun _ => .inr ?_) (fun _ ha => by rw [after] at ha; cases ha)
      rcases own.entering was with opened | ⟨c,before⟩
      · exact .inl opened
      · exact .inr ⟨c,reaches_of_beforeSnapshot before j⟩
    | skips was isClosed now =>
      have covered := own.registered (by rw [was]; rfl)
      refine rest now (fun _ => covered) (fun _ _ _ => ?_)
      rw [isClosed] at covered
      simpa using covered
    | leaves now now' =>
      refine rest now' ?_ ?_ <;>
        · intro reg
          rw [now] at reg
          cases reg
    | stays now registered skipped =>
      refine rest now (fun reg => own.registered (registered reg)) (fun reg ha he => ?_)
      obtain ⟨after,apart⟩ := skipped ha he
      exact own.skipped (registered reg) after apart
  · exact (hr j).kept frame.isOpen frame.closers (by rw [frame.others j hj]; exact .refl _)

theorem worker_released (hr : ∀ j, Released s j) (h : s.workerStep timedOut outcome = some s')
    (j : Nat) : Released s' j :=
  (hr j).kept (worker_frame h).isOpen (worker_frame h).closers (worker_kept h j)

theorem arrive_released (hr : ∀ j, Released s j) (payload : Option DdsBytes) (j : Nat)
    (hserver : s.isServer = true) : Released (s.arrive payload) j := by
  have frame := arrive_frame (s := s) payload
  by_cases hj : j = s.arrived
  · subst hj
    refine ⟨?_,?_,?_⟩ <;> rw [frame.newest,hserver] <;> nofun
  · refine (hr j).kept ?_ frame.closers (by rw [frame.others j hj]; exact .refl _)
    simp only [System.arrive]
    split <;> rfl

theorem open_released (hr : ∀ j, Released s j) (o : Nat)
    (quiet : ok = false → s.isOpen = true → ∀ j, (s.callbacks j).pc ≠ .atInsert ∧
      ((s.callbacks j).pc.registered = true → (s.callbacks j).state.settled = true)) (j : Nat) :
    Released (s.openStep o ok) j := by
  have own := hr j
  unfold System.openStep
  by_cases ho : s.openers o
  · rw [if_pos ho]
    cases hok : ok with
    | true => exact own.kept (by simp) rfl (.refl _)
    | false =>
      cases hopen : s.isOpen with
      | false => exact own.kept (by simp [hopen]) rfl (.refl _)
      | true =>
        obtain ⟨entering,settled⟩ := quiet hok hopen j
        exact ⟨fun now => absurd now entering,fun reg => .inl (settled reg),own.skipped⟩
  · rw [if_neg ho]
    split
    · exact own
    · exact ⟨fun _ => .inl rfl,fun _ => .inr (.inl rfl),own.skipped⟩

theorem toCancel_step {p : Nat} (few : s.arrived < 2 ^ 64) (registered : Registered s)
    (hp : (s.callbacks p).pc.registered = true) (h : s.closeStep c pick = some s')
    (hc : ToCancel s p) : (s'.callbacks p).state.settled = true ∨ ToCancel s' p := by
  obtain ⟨d,hd⟩ := hc
  by_cases hdc : d = c
  · subst hdc
    have stays (now : (s'.closers d).reaches p) :
        (s'.callbacks p).state.settled = true ∨ ToCancel s' p := .inr ⟨d,now⟩
    cases close_phase h with
    | closed was isClosed same => exact .inr (same ▸ ⟨d,hd⟩)
    | exchange was now opened isClosed => exact stays (by rw [now]; trivial)
    | lockQueue was now isOpen => exact stays (by rw [now]; trivial)
    | notify was now isOpen => exact stays (by rw [now]; trivial)
    | snapshot was free now isOpen =>
      have entry := AList.mem_lookup_iff.mp (registered few p hp)
      refine stays ?_
      rw [now]
      exact List.mem_map.mpr ⟨_,entry,rfl⟩
    | ends was now isOpen =>
      rw [was] at hd
      cases hd
    | picks state todo rest was now covers isOpen =>
      rw [was] at hd
      exact stays (by rw [now]; exact covers p hd)
    | lockState state todo was now isOpen =>
      rw [was] at hd
      exact stays (by rw [now]; exact hd)
    | cancel state todo was now cancelled isOpen =>
      rw [was] at hd
      rcases List.mem_cons.mp hd with rfl | hd
      · exact .inl (by simp [ServerReply.settled,cancelled])
      · exact stays (by rw [now]; exact hd)
  · exact .inr ⟨d,by rw [(close_frame h).others d hdc]; exact hd⟩

theorem beforeSnapshot_step {p : Nat} (hl : s.LocksMatch) (hp : (s.callbacks p).pc = .atInsert)
    (h : s.closeStep c pick = some s') (hb : ∃ d, (s.closers d).beforeSnapshot = true) :
    ∃ d, (s'.closers d).beforeSnapshot = true := by
  obtain ⟨d,hd⟩ := hb
  by_cases hdc : d = c
  · subst hdc
    cases close_phase h with
    | closed was isClosed same => exact ⟨d,same ▸ hd⟩
    | exchange was now opened isClosed => exact ⟨d,by rw [now]; rfl⟩
    | lockQueue was now isOpen => exact ⟨d,by rw [now]; rfl⟩
    | notify was now isOpen => exact ⟨d,by rw [now]; rfl⟩
    | snapshot was free now isOpen =>
      have held : s.Holds (.callback p) .pendingMutex := by
        simp [System.Holds,System.held,hp,CallbackPc.held]
      rw [(hl _ _).mpr held] at free
      cases free
    | ends was now isOpen | picks state todo rest was now covers isOpen
    | lockState state todo was now isOpen | cancel state todo was now cancelled isOpen =>
      rw [was] at hd
      cases hd
  · exact ⟨d,by rw [(close_frame h).others d hdc]; exact hd⟩

theorem close_isOpen (h : s.closeStep c pick = some s') :
    s'.isOpen = s.isOpen ∨ (s'.closers c).beforeSnapshot = true := by
  cases close_phase h with
  | closed was isClosed same => exact .inl (by rw [same])
  | exchange was now opened isClosed => exact .inr (by rw [now]; rfl)
  | lockQueue was now isOpen | notify was now isOpen | snapshot was free now isOpen
  | ends was now isOpen | picks state todo rest was now covers isOpen
  | lockState state todo was now isOpen | cancel state todo was now cancelled isOpen =>
    exact .inl isOpen

theorem close_released (few : s.arrived < 2 ^ 64) (hl : s.LocksMatch) (registered : Registered s)
    (hr : ∀ j, Released s j) (h : s.closeStep c pick = some s') (j : Nat) : Released s' j := by
  have own := hr j
  have kept := close_kept h j
  refine ⟨?_,?_,?_⟩
  · intro now
    rw [kept.pc] at now
    rcases own.entering now with opened | before
    · exact (close_isOpen h).imp (·.trans opened) (⟨c,·⟩)
    · exact .inr (beforeSnapshot_step hl now h before)
  · intro reg
    rw [kept.pc] at reg
    rcases own.registered reg with settled | opened | toCancel
    · exact .inl (kept.settled settled)
    · exact .inr ((close_isOpen h).imp (·.trans opened)
        (fun before => ⟨c,reaches_of_beforeSnapshot before j⟩))
    · exact (toCancel_step few registered reg h toCancel).imp_right .inr
  · intro reg after apart
    rw [kept.pc] at reg after
    rw [kept.enqueued] at apart
    rcases own.skipped reg after apart with settled | toCancel
    · exact .inl (kept.settled settled)
    · exact toCancel_step few registered reg h toCancel

theorem callback_enabled (alive : (s.callbacks k).pc ≠ .absent ∧ (s.callbacks k).pc ≠ .left)
    (free : ∀ l, (s.callbacks k).pc.wants k = some l → s.locks l = none) :
    ∃ t, s.callbackStep k true = some t := by
  unfold System.callbackStep
  cases hpc : (s.callbacks k).pc <;> rw [hpc] at alive free <;> simp only [hpc]
  case absent => exact absurd rfl alive.1
  case left => exact absurd rfl alive.2
  case atPendingLock | atQueueLock | atStateLock | atRelock | atEraseLock =>
    exact ⟨_,acquire_map_eq_some.mpr ⟨free _ rfl,rfl⟩⟩
  case atOpenCheck | atEnqueueCheck | atPredicate =>
    split <;> exact ⟨_,rfl⟩
  case atReply =>
    cases (s.callbacks k).state.value <;> exact ⟨_,rfl⟩
  all_goals exact ⟨_,rfl⟩

def Decided (s : System) : Prop :=
  ∀ k, (s.callbacks k).pc = .atReply → (s.callbacks k).state.settled = true

theorem callback_decides (h : s.callbackStep k ok = some s')
    (now : (s'.callbacks k).pc = .atReply) : (s.callbacks k).state.settled = true := by
  rcases callback_finishing h (by rw [now]; rfl) with finishing | ⟨-,settled⟩
  · unfold System.callbackStep at h
    cases hpc : (s.callbacks k).pc <;> simp only [hpc,acquire_map_eq_some,CallbackPc.finishing,
      Bool.false_eq_true] at h finishing
    case atReply =>
      split at h
      · obtain rfl := Option.some.inj h
        simp [System.goto,System.setCallback] at now
      · split at h <;> obtain rfl := Option.some.inj h <;>
          simp [System.goto,System.setCallback] at now
    case atEraseLock =>
      obtain ⟨-,rfl⟩ := h
      simp [System.goto,System.setCallback] at now
  · exact settled

theorem step_decided {a : Action} (hd : Decided s) (h : step s a = some s') : Decided s' := by
  have same (kept : ∀ j, CallbackKept (s.callbacks j) (s'.callbacks j)) : Decided s' :=
    fun j now => (kept j).settled (hd j ((kept j).pc ▸ now))
  cases a with
  | callback k ok =>
    have frame := callback_frame h
    intro j now
    by_cases hj : j = k
    · subst hj
      exact frame.state ▸ callback_decides h now
    · rw [frame.others j hj] at now ⊢
      exact hd j now
  | worker timedOut outcome => exact same (worker_kept h)
  | close c pick => exact same (close_kept h)
  | arrive payload =>
    obtain rfl := Option.some.inj h
    have frame := arrive_frame (s := s) payload
    intro j now
    by_cases hj : j = s.arrived
    · subst hj
      rw [frame.newest] at now
      cases hs : s.isServer <;> simp [hs] at now
    · rw [frame.others j hj] at now ⊢
      exact hd j now
  | openTransport o ok =>
    obtain ⟨isOpen,openers,opens,he⟩ := openStep_fields (s := s) o ok
    obtain rfl := Option.some.inj h
    rw [he]
    exact hd
  | requestStop | clearStop =>
    obtain rfl := Option.some.inj h
    exact hd
  | startWorker =>
    obtain ⟨-,rfl⟩ := startWorker_some h
    exact hd

namespace Lifecycle

variable {n n' : Node} {w w' : Waiting} {pick : Nat} {a : Action}

theorem step_simulates (h : Lifecycle.step n a = some n') :
    n'.system = n.system ∨ ∃ b : Zenoh.Action, Zenoh.step n.system b = some n'.system := by
  cases a with
  | life ok pick =>
    rcases lifeStep_simulates h with same | ⟨b,-,hb⟩
    · exact .inl same
    · exact .inr ⟨b,hb⟩
  | arrive payload =>
    obtain rfl := Option.some.inj h
    exact .inr ⟨.arrive payload,rfl⟩
  | callback k ok =>
    obtain ⟨t,ht,rfl⟩ := Option.map_eq_some_iff.mp h
    exact .inr ⟨.callback k ok,ht⟩
  | worker timedOut outcome =>
    obtain ⟨t,ht,rfl⟩ := Option.map_eq_some_iff.mp h
    exact .inr ⟨.worker timedOut outcome,ht⟩

-- The source declares the queryable last: where an `Open` fails no query of its own is waiting.
def OpenFailsQuietly (n : Node) : Action → Prop
  | .life ok _ => ok = false → n.life = .opening → ∀ k,
      (n.system.callbacks k).pc ≠ .atInsert ∧
        ((n.system.callbacks k).pc.registered = true →
          (n.system.callbacks k).state.settled = true)
  | _ => True

structure Tracked (n : Node) : Prop where
  wellFormed : WellFormed n.system
  locks : LockInvariant n.system
  registered : Registered n.system
  decided : Decided n.system
  released : n.system.arrived < 2 ^ 64 → ∀ k, Released n.system k

theorem life_released {ok : Bool} (h : Tracked n) (few : n.system.arrived < 2 ^ 64)
    (hC : OpenFailsQuietly n (.life ok pick)) (moved : n.lifeStep ok pick = some n') (k : Nat) :
    Released n'.system k := by
  have released := h.released few
  cases life_move moved with
  | rest system was now served =>
    rw [system]
    exact released k
  | «open» was now system =>
    rw [system]
    refine open_released released 0 (fun hok hopen => ?_) k
    rcases was with ⟨-,isClosed⟩ | was
    · rw [isClosed] at hopen
      cases hopen
    · exact hC hok was
  | clear was now system =>
    rw [system]
    exact (released k).kept rfl rfl (.refl _)
  | start was now exited system =>
    rw [system]
    exact (released k).kept rfl rfl (.refl _)
  | flag was now system =>
    rw [system]
    exact (released k).kept rfl rfl (.refl _)
  | close next was now closed =>
    exact close_released few h.locks.locks h.registered released closed k

theorem step_tracked (h : Tracked n) (hC : OpenFailsQuietly n a)
    (moved : Lifecycle.step n a = some n') : Tracked n' := by
  rcases step_simulates moved with same | ⟨b,hb⟩
  · exact ⟨same ▸ h.wellFormed,same ▸ h.locks,same ▸ h.registered,same ▸ h.decided,same ▸ h.released⟩
  · refine ⟨step_wellFormed h.wellFormed hb,step_lockInvariant h.locks hb,
      step_registered h.wellFormed h.registered hb,step_decided h.decided hb,fun few k => ?_⟩
    have before := Nat.lt_of_le_of_lt (step_arrived hb) few
    have released := h.released before
    cases a with
    | life ok pick => exact life_released h before hC moved k
    | arrive payload =>
      obtain rfl := Option.some.inj moved
      exact arrive_released released payload k h.wellFormed.server
    | callback j ok =>
      obtain ⟨t,ht,rfl⟩ := Option.map_eq_some_iff.mp moved
      exact callback_released h.wellFormed.server released ht k
    | worker timedOut outcome =>
      obtain ⟨t,ht,rfl⟩ := Option.map_eq_some_iff.mp moved
      exact worker_released released ht k

end Lifecycle

end DdsAbstract.Zenoh
