import DdsAbstract.Zenoh.Locks
import DdsAbstract.Zenoh.Invariant

namespace DdsAbstract.Zenoh

variable {s s' : System} {k c pick : Nat} {ok timedOut : Bool} {outcome : HandlerOutcome}

def CyclicWait (s : System) : Prop := Locks.CyclicWait s.locks s.wants

def InConditionWait (s : System) : Thread → Prop
  | .callback k => (s.callbacks k).pc = .inWait ∨ (s.callbacks k).pc = .atRelock
  | .worker => s.worker = .inWait ∨ ∃ timedOut, s.worker = .atRelock timedOut
  | .closer _ => False

def LockOrderSafe (s : System) : Prop :=
  ¬ CyclicWait s ∧ ∀ t, InConditionWait s t → ∀ l, s.locks l ≠ some t

def CallbackPc.finishing : CallbackPc → Bool
  | .atReply | .atEraseLock => true
  | _ => false

def CloserPc.remaining : CloserPc → List Nat
  | .cancelling todo => todo
  | .atStateLock state todo => state :: todo
  | .atCancel _ todo => todo
  | _ => []

def CloseApart (s : System) : Action → Prop
  | .close c _ => s.closers c = .atPendingLock →
      ∀ i p, s.pending.lookup i = some p → (s.callbacks p).pc.finishing = false
  | .callback k _ => (s.callbacks k).pc = .atPredicate → (s.callbacks k).state.settled →
      ∀ c, k ∉ (s.closers c).remaining
  | _ => True

def NoOverlap (s : System) : Prop :=
  ∀ c p, p ∈ (s.closers c).remaining → (s.callbacks p).pc.finishing = false

theorem callback_finishing (h : s.callbackStep k ok = some s')
    (hf : (s'.callbacks k).pc.finishing) : (s.callbacks k).pc.finishing ∨
      (s.callbacks k).pc = .atPredicate ∧ (s.callbacks k).state.settled := by
  unfold System.callbackStep at h
  cases hpc : (s.callbacks k).pc <;> simp only [hpc,acquire_map_eq_some] at h
  case absent | left => cases h
  case atPendingLock | atQueueLock | atStateLock | atRelock | atEraseLock =>
    obtain ⟨-,rfl⟩ := h
    simp [System.goto,System.setCallback,CallbackPc.finishing] at hf ⊢
  case atInsert | inWait | atErase | atUnlock =>
    obtain rfl := Option.some.inj h
    simp [System.goto,System.setCallback,System.release,CallbackPc.finishing] at hf
  case atPayload =>
    obtain rfl := Option.some.inj h
    cases ok <;> simp [System.goto,System.setCallback,CallbackPc.finishing] at hf
  case atOpenCheck =>
    split at h <;> obtain rfl := Option.some.inj h <;>
      simp [System.goto,System.setCallback,System.release,CallbackPc.finishing] at hf
  case atEnqueueCheck | atPush =>
    split at h <;> obtain rfl := Option.some.inj h <;> cases hs : s.isServer <;>
      simp [System.goto,System.setCallback,System.release,System.afterEnqueue,hs,
        CallbackPc.finishing] at hf
  case atPredicate =>
    split at h <;> obtain rfl := Option.some.inj h
    · exact .inr ⟨rfl,‹_›⟩
    · simp [System.goto,System.setCallback,System.release,CallbackPc.finishing] at hf
  case atReply => exact .inl rfl

theorem close_remaining {p : Nat} (h : s.closeStep c pick = some s')
    (hp : p ∈ (s'.closers c).remaining) : p ∈ (s.closers c).remaining ∨
      s.closers c = .atPendingLock ∧ ∃ i, s.pending.lookup i = some p := by
  unfold System.closeStep at h
  cases hpc : s.closers c <;> simp only [hpc,acquire_map_eq_some] at h
  case idle =>
    split at h <;> obtain rfl := Option.some.inj h
    · simp [System.setCloser,CloserPc.remaining] at hp
    · simp [hpc,CloserPc.remaining] at hp
  case atQueueLock =>
    obtain ⟨-,rfl⟩ := h
    simp [System.setCloser,CloserPc.remaining] at hp
  case atNotify =>
    obtain rfl := Option.some.inj h
    simp [System.setCloser,CloserPc.remaining] at hp
  case atPendingLock =>
    obtain ⟨-,rfl⟩ := h
    simp only [System.setCloser,Function.update_self,CloserPc.remaining,List.mem_map] at hp
    obtain ⟨⟨i,q⟩,hm,rfl⟩ := hp
    exact .inr ⟨rfl,i,AList.mem_lookup_iff.mpr hm⟩
  case cancelling todo =>
    cases todo with
    | nil =>
      obtain rfl := Option.some.inj h
      simp [System.setCloser,CloserPc.remaining] at hp
    | cons q qs =>
      obtain ⟨r,hr,rfl⟩ := Option.map_eq_some_iff.mp h
      simp only [System.setCloser,Function.update_self,CloserPc.remaining,List.mem_cons] at hp
      rcases hp with rfl | hp
      · exact .inl (List.mem_of_getElem? hr)
      · exact .inl (List.mem_of_mem_eraseIdx hp)
  case atStateLock state todo =>
    obtain ⟨-,rfl⟩ := h
    simp only [System.setCloser,Function.update_self,CloserPc.remaining] at hp
    exact .inl (List.mem_cons_of_mem _ hp)
  case atCancel state todo =>
    obtain rfl := Option.some.inj h
    simp only [System.setCloser,Function.update_self,CloserPc.remaining] at hp
    exact .inl hp

theorem step_noOverlap {a : Action} (hn : NoOverlap s) (hC : CloseApart s a)
    (h : step s a = some s') : NoOverlap s' := by
  intro d p hp
  cases a with
  | callback k ok =>
    have hf := callback_frame h
    rw [hf.closers] at hp
    by_cases hpk : p = k
    · subst hpk
      by_contra hfin
      rcases callback_finishing h (by simpa using hfin) with hx | ⟨hx,hset⟩
      · simp [hn d p hp] at hx
      · exact hC hx hset d hp
    · rw [hf.others p hpk]
      exact hn d p hp
  | worker timedOut outcome =>
    rw [(worker_frame h).closers] at hp
    rw [(worker_kept h p).pc]
    exact hn d p hp
  | close c pick =>
    rw [(close_kept h p).pc]
    by_cases hd : d = c
    · subst hd
      rcases close_remaining h hp with hp | ⟨hx,i,hi⟩
      · exact hn d p hp
      · exact hC hx i p hi
    · rw [(close_frame h).others d hd] at hp
      exact hn d p hp
  | arrive payload =>
    obtain rfl := Option.some.inj h
    have hf := arrive_frame (s := s) payload
    rw [hf.closers] at hp
    by_cases hpa : p = s.arrived
    · subst hpa
      rw [hf.newest]
      cases s.isServer <;> rfl
    · rw [hf.others p hpa]
      exact hn d p hp
  | openTransport o ok =>
    obtain ⟨isOpen,openers,opens,he⟩ := openStep_fields (s := s) o ok
    obtain rfl := Option.some.inj h
    rw [he] at hp ⊢
    exact hn d p hp
  | requestStop | clearStop =>
    obtain rfl := Option.some.inj h
    exact hn d p hp
  | startWorker =>
    obtain ⟨-,rfl⟩ := startWorker_some h
    exact hn d p hp

theorem step_absent {a : Action} (hs : ∀ k, s.arrived ≤ k → (s.callbacks k).pc = .absent)
    (h : step s a = some s') : ∀ k, s'.arrived ≤ k → (s'.callbacks k).pc = .absent := by
  intro j hj
  cases a with
  | callback k ok =>
    have hf := callback_frame h
    rw [hf.arrived] at hj
    by_cases hjk : j = k
    · exact absurd (hjk ▸ hs j hj) hf.present
    · rw [hf.others j hjk]
      exact hs j hj
  | worker timedOut outcome =>
    rw [(worker_kept h j).pc]
    exact hs j ((worker_frame h).arrived ▸ hj)
  | close c pick =>
    rw [(close_kept h j).pc]
    exact hs j ((close_frame h).arrived ▸ hj)
  | arrive payload =>
    obtain rfl := Option.some.inj h
    have hf := arrive_frame (s := s) payload
    rw [hf.arrived] at hj
    rw [hf.others j (by omega)]
    exact hs j (by omega)
  | openTransport o ok =>
    obtain ⟨isOpen,openers,opens,he⟩ := openStep_fields (s := s) o ok
    obtain rfl := Option.some.inj h
    rw [he] at hj ⊢
    exact hs j hj
  | requestStop | clearStop =>
    obtain rfl := Option.some.inj h
    exact hs j hj
  | startWorker =>
    obtain ⟨-,rfl⟩ := startWorker_some h
    exact hs j hj

structure LockInvariant (s : System) : Prop where
  absent : ∀ k, s.arrived ≤ k → (s.callbacks k).pc = .absent
  locks : s.LocksMatch

theorem step_lockInvariant {a : Action} (hi : LockInvariant s) (ha : step s a = some s') :
    LockInvariant s' :=
  ⟨step_absent hi.absent ha,step_locksMatch hi.absent hi.locks ha⟩

theorem run_lockInvariant {isServer : Bool} {as : List Action}
    (h : Transition.run step (System.initial isServer) as = some s) : LockInvariant s := by
  refine Transition.run_invariant (I := LockInvariant) ?_ ?_ h
  · exact fun _ _ _ hi ha => step_lockInvariant hi ha
  · exact ⟨fun _ _ => rfl,locksMatch_initial isServer⟩

theorem not_holds_of_inConditionWait {t : Thread} (h : InConditionWait s t) (l : Lock) :
    ¬ s.Holds t l := by
  cases t with
  | callback k => rcases h with h | h <;> simp [System.Holds,System.held,h,CallbackPc.held]
  | worker => rcases h with h | ⟨_,h⟩ <;> simp [System.Holds,System.held,h,WorkerPc.held]
  | closer c => exact h.elim

def waitRank (s : System) (t : Thread) : Nat :=
  match t, s.wants t with
  | _, none => 0
  | _, some .queueMutex => 1
  | _, some .pendingMutex => 2
  | .closer _, some (.stateMutex _) => 1
  | _, some (.stateMutex _) => 3

def RankWithin (s : System) (t : Thread) : Lock → Prop
  | .queueMutex => waitRank s t = 0
  | .pendingMutex => waitRank s t ≤ 1
  | .stateMutex p => waitRank s t = 0 ∨
      waitRank s t = 2 ∧ t = .callback p ∧ (s.callbacks p).pc = .atEraseLock

theorem rankWithin_of_rest {t : Thread} {l : Lock} (h : s.wants t = none) : RankWithin s t l := by
  have rest : waitRank s t = 0 := by simp [waitRank,h]
  cases l <;> simp [RankWithin,rest]

theorem rank_of_holds {t : Thread} {l : Lock} (h : s.Holds t l) : RankWithin s t l := by
  cases t with
  | callback k =>
    cases hpc : (s.callbacks k).pc <;> simp_all [System.Holds,System.held,CallbackPc.held]
    case atErase => exact rankWithin_of_rest (by simp [System.wants,CallbackPc.wants,hpc])
    all_goals simp_all [RankWithin,waitRank,System.wants,CallbackPc.wants]
  | worker =>
    cases hpc : s.worker <;> simp_all [System.Holds,System.held,WorkerPc.held] <;>
      simp_all [RankWithin,waitRank,System.wants,WorkerPc.wants]
  | closer c =>
    cases hpc : s.closers c <;> simp_all [System.Holds,System.held,CloserPc.held]
    case atCancel => exact rankWithin_of_rest (by simp [System.wants,CloserPc.wants,hpc])
    all_goals simp_all [RankWithin,waitRank,System.wants,CloserPc.wants]

theorem rank_descends (hl : s.LocksMatch) (hn : NoOverlap s) {t u : Thread}
    (h : Locks.WaitsFor s.locks s.wants t u) : waitRank s u < waitRank s t := by
  obtain ⟨l,hw,ho⟩ := h
  have hu := rank_of_holds ((hl u l).mp ho)
  cases l with
  | queueMutex =>
    rw [hu]
    simp [waitRank,hw]
  | pendingMutex =>
    simp only [waitRank,hw]
    exact Nat.lt_succ_of_le hu
  | stateMutex p =>
    rcases hu with hr | ⟨hr,-,hpc⟩
    · rw [hr]
      cases t <;> simp [waitRank,hw]
    · rw [hr]
      cases t with
      | callback k => simp [waitRank,hw]
      | worker => simp [waitRank,hw]
      | closer c =>
        have hmem : p ∈ (s.closers c).remaining := by
          cases hc : s.closers c <;> simp_all [System.wants,CloserPc.wants,CloserPc.remaining]
        have hfin := hn c p hmem
        rw [hpc] at hfin
        cases hfin

theorem zenoh_lockOrder_safe (isServer : Bool) (as : List Action) (s : System)
    (apart : Transition.Meets step CloseApart (System.initial isServer) as)
    (h : Transition.run step (System.initial isServer) as = some s) : LockOrderSafe s := by
  have hi := run_lockInvariant h
  have hn : NoOverlap s := Transition.run_invariant_of_meets (I := NoOverlap)
    (fun _ _ _ hn hC ha => step_noOverlap hn hC ha) (by simp [NoOverlap,System.initial,CloserPc.remaining]) apart h
  refine ⟨Locks.not_cyclicWait_of_rank (waitRank s) (fun t u ht => rank_descends hi.locks hn ht),?_⟩
  intro t ht l ho
  exact not_holds_of_inConditionWait ht l ((hi.locks t l).mp ho)

def closeApart (s : System) : Action → Bool
  | .close c _ => s.closers c ≠ .atPendingLock ||
      s.pending.entries.all (fun e => !(s.callbacks e.2).pc.finishing)
  | .callback k _ => (s.callbacks k).pc ≠ .atPredicate || !(s.callbacks k).state.settled
  | _ => true

theorem closeApart_sound (s : System) (a : Action) (h : closeApart s a = true) :
    CloseApart s a := by
  cases a with
  | close c pick =>
    simp only [closeApart,Bool.or_eq_true,decide_eq_true_eq,List.all_eq_true,
      Bool.not_eq_true'] at h
    intro hc i p hp
    rcases h with h | h
    · exact absurd hc h
    · exact h ⟨i,p⟩ (AList.mem_lookup_iff.mp hp)
  | callback k ok =>
    simp only [closeApart,Bool.or_eq_true,decide_eq_true_eq,Bool.not_eq_true'] at h
    intro hpc hset
    rcases h with h | h
    · exact absurd hpc h
    · rw [h] at hset
      cases hset
  | _ => trivial

def waitingThenClosed : List Action :=
  bringUp ++ [.arrive (some [1])] ++ callbackSteps 0 9 ++ [.requestStop] ++
    List.replicate 6 (.close 0 0)

theorem zenoh_lockOrder_safe_waiting : ∃ s,
    Transition.run step (System.initial true) waitingThenClosed = some s ∧ LockOrderSafe s :=
  ⟨_,rfl,zenoh_lockOrder_safe true waitingThenClosed _
    (Transition.meets_of_holdsAlong closeApart_sound rfl) rfl⟩

def answeredThenClosed : List Action :=
  bringUp ++ [.arrive (some [1])] ++ callbackSteps 0 9 ++ workerSteps 8 (.returns [2]) ++
    callbackSteps 0 4 ++ [.requestStop] ++ List.replicate 5 (.close 0 0)

theorem zenoh_lockOrder_counterexample :
    ¬ ∀ (isServer : Bool) (as : List Action) (s : System),
      Transition.run step (System.initial isServer) as = some s → LockOrderSafe s := by
  intro h
  have hs : ∃ s, Transition.run step (System.initial true) answeredThenClosed = some s ∧
      CyclicWait s :=
    ⟨_,rfl,Locks.cyclicWait_of_pair (t := .closer 0) (u := .callback 0)
      ⟨.stateMutex 0,rfl,rfl⟩ ⟨.pendingMutex,rfl,rfl⟩⟩
  obtain ⟨s,hrun,hcycle⟩ := hs
  exact (h true answeredThenClosed s hrun).1 hcycle

end DdsAbstract.Zenoh
