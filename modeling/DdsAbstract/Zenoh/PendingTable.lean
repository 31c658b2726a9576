import DdsAbstract.Zenoh.Invariant

namespace DdsAbstract.Zenoh

variable {s s' : System} {a : Action} {k : Nat} {ok : Bool}

-- The payload conversion, `Enqueue` or `query.reply` throws in this step.
def calleeThrows (s : System) : Action → Bool
  | .callback k false =>
    match (s.callbacks k).pc with
    | .atPayload | .atPush => true
    | .atReply => (s.callbacks k).state.value.isSome
    | _ => false
  | _ => false

def CallbackPc.returns : CallbackPc → Bool
  | .atOpenCheck | .atUnlock => true
  | _ => false

def Holds (s : System) (i : StdString) (p : Nat) : Prop :=
  (s.callbacks p).pc.registered = true ∧ (s.callbacks p).id = i

def PendingKeys (s : System) : Prop := ∀ i, i ∈ s.pending ↔ ∃ p, Holds s i p

def PendingExact (s : System) : Prop := ∀ i p, s.pending.lookup i = some p ↔ Holds s i p

structure CleanExit (s s' : System) : Prop where
  ownGone : ∀ k, (s.callbacks k).pc.registered = true → (s'.callbacks k).pc.registered = false →
    (s.callbacks k).id ∉ s'.pending
  othersKept : ∀ k, (s.callbacks k).pc.registered = true →
    (s'.callbacks k).pc.registered = false →
    ∀ i, i ≠ (s.callbacks k).id → s'.pending.lookup i = s.pending.lookup i
  contained : ∀ k, (s.callbacks k).pc ≠ .left → (s'.callbacks k).pc = .left →
    (s.callbacks k).pc.returns = true

def EntersFresh (s : System) : Action → Prop
  | .callback k _ => (s.callbacks k).pc = .atInsert → (s.callbacks k).id ∉ s.pending
  | _ => True

def LeavesByErase (s : System) (a : Action) : Prop := calleeThrows s a = false ∧ EntersFresh s a

inductive QueryMove (s s' : System) (k : Nat) : Prop
  | stays (pending : s'.pending = s.pending)
      (registered : (s'.callbacks k).pc.registered = (s.callbacks k).pc.registered)
  | enters (pc : (s.callbacks k).pc = .atInsert)
      (pending : s'.pending = s.pending.insert (s.callbacks k).id k)
      (registered : (s'.callbacks k).pc.registered = true)
  | leaves (was : (s.callbacks k).pc.registered = true)
      (pending : s'.pending = s.pending.erase (s.callbacks k).id)
      (registered : (s'.callbacks k).pc.registered = false)

theorem query_move (hserver : s.isServer = true) (hok : calleeThrows s (.callback k ok) = false)
    (h : s.callbackStep k ok = some s') : QueryMove s s' k := by
  unfold System.callbackStep at h
  cases hpc : (s.callbacks k).pc <;> simp only [hpc,acquire_map_eq_some] at h
  case absent | left => cases h
  case atPendingLock | atQueueLock | atStateLock | atRelock | atEraseLock =>
    obtain ⟨-,rfl⟩ := h
    exact .stays rfl (by simp [System.goto,System.setCallback,hpc,CallbackPc.registered])
  case atOpenCheck | atEnqueueCheck | atPredicate =>
    split at h <;> obtain rfl := Option.some.inj h <;>
      exact .stays rfl (by simp [System.goto,System.setCallback,System.release,System.afterEnqueue,
        hserver,hpc,CallbackPc.registered])
  case inWait | atUnlock =>
    obtain rfl := Option.some.inj h
    exact .stays rfl
      (by simp [System.goto,System.setCallback,System.release,hpc,CallbackPc.registered])
  case atInsert =>
    obtain rfl := Option.some.inj h
    exact .enters hpc rfl
      (by simp [System.goto,System.setCallback,System.release,CallbackPc.registered])
  case atErase =>
    obtain rfl := Option.some.inj h
    exact .leaves (by simp [hpc,CallbackPc.registered]) rfl
      (by simp [System.goto,System.setCallback,System.release,CallbackPc.registered])
  case atPayload =>
    obtain rfl := Option.some.inj h
    cases ok with
    | false => simp [calleeThrows,hpc] at hok
    | true => exact .stays rfl (by simp [System.goto,System.setCallback,hpc,CallbackPc.registered])
  case atPush =>
    cases ok with
    | false => simp [calleeThrows,hpc] at hok
    | true =>
      obtain rfl := Option.some.inj h
      exact .stays rfl (by simp [System.pushBack,System.setCallback,System.release,
        System.afterEnqueue,hserver,hpc,CallbackPc.registered])
  case atReply =>
    cases hvalue : (s.callbacks k).state.value with
    | none =>
      rw [hvalue] at h
      obtain rfl := Option.some.inj h
      exact .stays rfl (by simp [System.goto,System.setCallback,hpc,CallbackPc.registered])
    | some value =>
      cases ok with
      | false => simp [calleeThrows,hpc,hvalue] at hok
      | true =>
        rw [hvalue] at h
        obtain rfl := Option.some.inj h
        exact .stays rfl (by simp [System.setCallback,hpc,CallbackPc.registered])

theorem query_returns (hserver : s.isServer = true) (hok : calleeThrows s (.callback k ok) = false)
    (h : s.callbackStep k ok = some s') (left : (s'.callbacks k).pc = .left) :
    (s.callbacks k).pc.returns = true := by
  unfold System.callbackStep at h
  cases hpc : (s.callbacks k).pc <;> simp only [hpc,acquire_map_eq_some] at h
  case absent | left => cases h
  case atOpenCheck | atUnlock => rfl
  case atPendingLock | atQueueLock | atStateLock | atRelock | atEraseLock =>
    obtain ⟨-,rfl⟩ := h
    simp [System.goto,System.setCallback] at left
  case atInsert | inWait | atErase =>
    obtain rfl := Option.some.inj h
    simp [System.goto,System.setCallback,System.release] at left
  case atEnqueueCheck | atPredicate =>
    split at h <;> obtain rfl := Option.some.inj h <;>
      simp [System.goto,System.setCallback,System.release,System.afterEnqueue,hserver] at left
  case atPayload =>
    obtain rfl := Option.some.inj h
    cases ok with
    | false => simp [calleeThrows,hpc] at hok
    | true => simp [System.goto,System.setCallback] at left
  case atPush =>
    cases ok with
    | false => simp [calleeThrows,hpc] at hok
    | true =>
      obtain rfl := Option.some.inj h
      simp [System.setCallback,System.afterEnqueue,System.pushBack,System.release,hserver] at left
  case atReply =>
    cases hvalue : (s.callbacks k).state.value with
    | none =>
      rw [hvalue] at h
      obtain rfl := Option.some.inj h
      simp [System.goto,System.setCallback] at left
    | some value =>
      cases ok with
      | false => simp [calleeThrows,hpc,hvalue] at hok
      | true =>
        rw [hvalue] at h
        obtain rfl := Option.some.inj h
        simp [System.setCallback] at left

theorem PendingExact.keys (h : PendingExact s) : PendingKeys s := by
  intro i
  rw [← AList.lookup_isSome,Option.isSome_iff_exists]
  exact exists_congr (h i)

theorem exact_of_kept (he : PendingExact s) (pending : s'.pending = s.pending)
    (kept : ∀ j, (s'.callbacks j).id = (s.callbacks j).id ∧
      (s'.callbacks j).pc.registered = (s.callbacks j).pc.registered) : PendingExact s' := by
  intro i p
  rw [pending,he i p,Holds,Holds,(kept p).1,(kept p).2]

theorem callback_exact (hw : WellFormed s) (he : PendingExact s)
    (hC : LeavesByErase s (.callback k ok)) (h : s.callbackStep k ok = some s') :
    PendingExact s' := by
  have frame := callback_frame h
  have others {j : Nat} (hj : j ≠ k) (i : StdString) : Holds s' i j ↔ Holds s i j := by
    rw [Holds,Holds,frame.others j hj]
  cases query_move hw.server hC.1 h with
  | stays pending registered =>
    refine exact_of_kept he pending (fun j => ?_)
    by_cases hj : j = k
    · exact hj ▸ ⟨frame.id,registered⟩
    · rw [frame.others j hj]
      exact ⟨rfl,rfl⟩
  | enters pc pending registered =>
    have fresh : s.pending.lookup (s.callbacks k).id = none :=
      AList.lookup_eq_none.mpr (hC.2 pc)
    intro i p
    rw [pending]
    by_cases hi : i = (s.callbacks k).id
    · subst hi
      rw [AList.lookup_insert,Option.some.injEq]
      constructor
      · rintro rfl
        exact ⟨registered,frame.id⟩
      · intro hp
        by_contra hne
        rw [(he _ p).mpr ((others (Ne.symm hne) _).mp hp)] at fresh
        cases fresh
    · rw [AList.lookup_insert_ne hi,he i p]
      by_cases hp : p = k
      · subst hp
        refine iff_of_false (fun hold => ?_) (fun hnew => hi (frame.id ▸ hnew.2).symm)
        rw [Holds,pc] at hold
        cases hold.1
      · exact (others hp i).symm
  | leaves was pending registered =>
    intro i p
    rw [pending]
    by_cases hi : i = (s.callbacks k).id
    · subst hi
      rw [AList.lookup_erase]
      refine iff_of_false (by simp) (fun hnew => ?_)
      by_cases hp : p = k
      · subst hp
        rw [Holds,registered] at hnew
        cases hnew.1
      · have own := (he _ k).mpr ⟨was,rfl⟩
        rw [(he _ p).mpr ((others hp _).mp hnew)] at own
        exact hp (Option.some.inj own)
    · rw [AList.lookup_erase_ne hi,he i p]
      by_cases hp : p = k
      · subst hp
        exact iff_of_false (fun hold => hi hold.2.symm)
          (fun hnew => hi (frame.id ▸ hnew.2).symm)
      · exact (others hp i).symm

theorem step_exact (hw : WellFormed s) (he : PendingExact s) (hC : LeavesByErase s a)
    (h : step s a = some s') : PendingExact s' := by
  cases a with
  | callback k ok => exact callback_exact hw he hC h
  | worker timedOut outcome =>
    refine exact_of_kept he (worker_frame h).pending (fun j => ⟨(worker_kept h j).id,?_⟩)
    rw [(worker_kept h j).pc]
  | close c pick =>
    refine exact_of_kept he (close_frame h).pending (fun j => ⟨(close_kept h j).id,?_⟩)
    rw [(close_kept h j).pc]
  | arrive payload =>
    obtain rfl := Option.some.inj h
    have frame := arrive_frame (s := s) payload
    intro i p
    rw [frame.pending,he i p]
    by_cases hp : p = s.arrived
    · subst hp
      have absent := (hw.fresh s.arrived le_rfl).1
      refine iff_of_false ?_ ?_
      · rw [Holds,absent]
        exact fun hold => by cases hold.1
      · rw [Holds,frame.newest,hw.server]
        exact fun hnew => by cases hnew.1
    · rw [Holds,Holds,frame.others p hp]
  | openTransport o ok =>
    obtain ⟨isOpen,openers,opens,same⟩ := openStep_fields (s := s) o ok
    obtain rfl := Option.some.inj h
    rw [same]
    exact he
  | requestStop | clearStop =>
    obtain rfl := Option.some.inj h
    exact he
  | startWorker =>
    obtain ⟨-,rfl⟩ := startWorker_some h
    exact he

theorem cleanExit_of_registered
    (kept : ∀ j, (s.callbacks j).pc.registered = true → (s'.callbacks j).pc.registered = true)
    (contained : ∀ j, (s.callbacks j).pc ≠ .left → (s'.callbacks j).pc = .left →
      (s.callbacks j).pc.returns = true) : CleanExit s s' := by
  refine ⟨fun j hj hj' => ?_,fun j hj hj' => ?_,contained⟩
  all_goals
    rw [kept j hj] at hj'
    cases hj'

theorem cleanExit_of_unmoved (same : ∀ j, (s'.callbacks j).pc = (s.callbacks j).pc) :
    CleanExit s s' :=
  cleanExit_of_registered (fun j hj => by rwa [same]) (fun j hj hj' => absurd (same j ▸ hj') hj)

theorem arrive_cleanExit (hw : WellFormed s) (payload : Option DdsBytes) :
    CleanExit s (s.arrive payload) := by
  have frame := arrive_frame (s := s) payload
  refine cleanExit_of_registered (fun j hj => ?_) (fun j hj hj' => ?_)
  · rw [frame.others j (by have := registered_present hw hj; omega)]
    exact hj
  · by_cases hja : j = s.arrived
    · rw [hja,frame.newest,hw.server] at hj'
      cases hj'
    · rw [frame.others j hja] at hj'
      exact absurd hj' hj

theorem callback_cleanExit (hw : WellFormed s) (hok : calleeThrows s (.callback k ok) = false)
    (h : s.callbackStep k ok = some s') : CleanExit s s' := by
  have frame := callback_frame h
  have others {j : Nat} (hj : j ≠ k) (hreg : (s.callbacks j).pc.registered = true) :
      (s'.callbacks j).pc.registered = true := by rwa [frame.others j hj]
  have contained (j : Nat) (hj : (s.callbacks j).pc ≠ .left) (hj' : (s'.callbacks j).pc = .left) :
      (s.callbacks j).pc.returns = true := by
    by_cases hjk : j = k
    · subst hjk
      exact query_returns hw.server hok h hj'
    · rw [frame.others j hjk] at hj'
      exact absurd hj' hj
  cases query_move hw.server hok h with
  | stays pending registered =>
    refine cleanExit_of_registered (fun j hj => ?_) contained
    by_cases hjk : j = k
    · subst hjk
      rwa [registered]
    · exact others hjk hj
  | enters pc pending registered =>
    refine cleanExit_of_registered (fun j hj => ?_) contained
    by_cases hjk : j = k
    · subst hjk
      exact registered
    · exact others hjk hj
  | leaves was pending registered =>
    have only {j : Nat} (hj : (s.callbacks j).pc.registered = true)
        (hj' : (s'.callbacks j).pc.registered = false) : j = k := by
      by_contra hjk
      rw [others hjk hj] at hj'
      cases hj'
    refine ⟨?_,?_,contained⟩
    · intro j hj hj'
      obtain rfl := only hj hj'
      rw [pending,AList.mem_erase]
      exact fun hm => hm.1 rfl
    · intro j hj hj' i hi
      obtain rfl := only hj hj'
      rw [pending,AList.lookup_erase_ne hi]

theorem step_cleanExit (hw : WellFormed s) (hC : LeavesByErase s a) (h : step s a = some s') :
    CleanExit s s' := by
  cases a with
  | callback k ok => exact callback_cleanExit hw hC.1 h
  | worker timedOut outcome => exact cleanExit_of_unmoved (fun j => (worker_kept h j).pc)
  | close c pick => exact cleanExit_of_unmoved (fun j => (close_kept h j).pc)
  | arrive payload =>
    obtain rfl := Option.some.inj h
    exact arrive_cleanExit hw payload
  | openTransport o ok =>
    obtain ⟨isOpen,openers,opens,same⟩ := openStep_fields (s := s) o ok
    obtain rfl := Option.some.inj h
    exact cleanExit_of_unmoved (fun j => by rw [same])
  | requestStop | clearStop =>
    obtain rfl := Option.some.inj h
    exact cleanExit_of_unmoved (fun _ => rfl)
  | startWorker =>
    obtain ⟨-,rfl⟩ := startWorker_some h
    exact cleanExit_of_unmoved (fun _ => rfl)

theorem zenoh_pending_exact (as : List Action) (s : System)
    (meets : Transition.Meets step LeavesByErase (System.initial true) as)
    (h : Transition.run step (System.initial true) as = some s) :
    PendingKeys s ∧ Transition.Each step (fun s _ t => CleanExit s t) (System.initial true) as := by
  have hI : ∀ s a t, WellFormed s ∧ PendingExact s → LeavesByErase s a → step s a = some t →
      WellFormed t ∧ PendingExact t :=
    fun _ _ _ hs hC ht => ⟨step_wellFormed hs.1 ht,step_exact hs.1 hs.2 hC ht⟩
  have hinit : WellFormed (System.initial true) ∧ PendingExact (System.initial true) := by
    refine ⟨wellFormed_initial,?_⟩
    intro i p
    simp [System.initial,Holds,CallbackPc.registered]
  refine ⟨(Transition.run_invariant_of_meets hI hinit meets h).2.keys,?_⟩
  exact Transition.each_of_meets hI (fun _ _ _ hs hC ht => step_cleanExit hs.1 hC ht) hinit meets

def leavesByErase (s : System) (a : Action) : Bool :=
  !calleeThrows s a &&
    match a with
    | .callback k _ => (s.callbacks k).pc ≠ .atInsert || (s.pending.lookup (s.callbacks k).id).isNone
    | _ => true

theorem leavesByErase_sound (s : System) (a : Action) (h : leavesByErase s a = true) :
    LeavesByErase s a := by
  simp only [leavesByErase,Bool.and_eq_true,Bool.not_eq_true'] at h
  refine ⟨h.1,?_⟩
  cases a with
  | callback k ok =>
    intro hpc
    have fresh := h.2
    simp only [hpc,ne_eq,not_true_eq_false,decide_false,Bool.false_or,Option.isNone_iff_eq_none]
      at fresh
    exact AList.lookup_eq_none.mp fresh
  | _ => trivial

def answeredQuery : List Action :=
  bringUp ++ [.arrive (some [1])] ++ callbackSteps 0 9 ++ workerSteps 8 (.returns [7]) ++
    callbackSteps 0 3

theorem zenoh_pending_exact_answered : ∃ s,
    Transition.run step (System.initial true) (answeredQuery ++ callbackSteps 0 4) = some s ∧
      s.pending.entries = [] ∧ PendingKeys s ∧
      Transition.Each step (fun s _ t => CleanExit s t) (System.initial true) (answeredQuery ++ callbackSteps 0 4) :=
  ⟨_,rfl,rfl,zenoh_pending_exact (answeredQuery ++ callbackSteps 0 4) _
    (Transition.meets_of_holdsAlong leavesByErase_sound (by decide)) rfl⟩

theorem zenoh_pending_exact_counterexample :
    ¬ ∀ (as : List Action) (s : System), Transition.run step (System.initial true) as = some s →
      PendingKeys s ∧ Transition.Each step (fun s _ t => CleanExit s t) (System.initial true) as := by
  intro h
  let s := (Transition.run step (System.initial true) (answeredQuery ++ [.callback 0 false])).get rfl
  have hrun : Transition.run step (System.initial true) (answeredQuery ++ [.callback 0 false]) =
      some s := rfl
  obtain ⟨p,registered,-⟩ := ((h _ s hrun).1 ['1']).mp (AList.lookup_isSome.mp rfl)
  cases p with
  | zero => cases registered
  | succ p =>
    rw [((run_wellFormed hrun).fresh (p + 1) (by simp [show s.arrived = 1 from rfl])).1] at registered
    cases registered

end DdsAbstract.Zenoh
