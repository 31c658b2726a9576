import DdsAbstract.Zenoh.Invariant

namespace DdsAbstract.Zenoh

variable {s s' : System} {k c pick : Nat} {ok timedOut : Bool} {outcome : HandlerOutcome}

def WorkerPc.serves (p : Nat) : WorkerPc → Prop
  | .atDispatch incoming => incoming.callback = p
  | .atPendingLock incoming _ => incoming.callback = p
  | .atFind incoming _ => incoming.callback = p
  | .atStateLock _ state _ => state = p
  | .atStore _ state _ => state = p
  | _ => False

def Awaiting (s : System) (p : Nat) : Prop :=
  (∃ e ∈ s.queue, e.callback = p) ∨ s.worker.serves p ∨ (s.callbacks p).state.settled

def Served (s : System) : Prop :=
  ∀ i p, s.pending.lookup i = some p → (s.callbacks p).enqueued → Awaiting s p

def AnswersOrSettled (s : System) : Action → Prop
  | .worker _ outcome => ∀ e, s.worker = .atDispatch e → outcome.response = none →
      ∀ p, s.pending.lookup e.message.correlationId = some p → (s.callbacks p).state.settled
  | _ => True

theorem Awaiting.mono {p : Nat} (h : Awaiting s p) (queue : ∀ e ∈ s.queue, e ∈ s'.queue)
    (worker : s.worker.serves p → Awaiting s' p)
    (settled : (s.callbacks p).state.settled → (s'.callbacks p).state.settled) : Awaiting s' p := by
  rcases h with ⟨e,he,hp⟩ | h | h
  · exact .inl ⟨e,queue e he,hp⟩
  · exact worker h
  · exact .inr (.inr (settled h))

theorem callback_served (hw : WellFormed s) (hs : Served s) (h : s.callbackStep k ok = some s') :
    Served s' := by
  have hf := callback_frame h
  have state (p : Nat) : (s'.callbacks p).state = (s.callbacks p).state := by
    by_cases hp : p = k
    · rw [hp]; exact hf.state
    · rw [hf.others p hp]
  have keep (p : Nat) (hq : ∀ e ∈ s.queue, e ∈ s'.queue) (ha : Awaiting s p) : Awaiting s' p :=
    ha.mono hq (fun hx => .inr (.inl (hf.worker ▸ hx))) (fun hx => state p ▸ hx)
  have before (p : Nat) (he : (s'.callbacks k).enqueued = (s.callbacks k).enqueued)
      (hx : (s'.callbacks p).enqueued) : (s.callbacks p).enqueued := by
    by_cases hp : p = k
    · rw [hp] at hx ⊢; exact he ▸ hx
    · exact hf.others p hp ▸ hx
  intro i p hl hx
  cases callback_move h with
  | quiet pc pending queue he hr =>
    exact keep p (fun e hm => queue ▸ hm) (hs i p (pending ▸ hl) (before p he hx))
  | insert pc pending queue he hr =>
    have hx' := before p he hx
    rw [pending] at hl
    by_cases hi : i = (s.callbacks k).id
    · subst hi
      rw [AList.lookup_insert] at hl
      obtain rfl := Option.some.inj hl
      have := hw.enqueued k hx'
      simp [pc,CallbackPc.afterPush] at this
    · rw [AList.lookup_insert_ne hi] at hl
      exact keep p (fun e hm => queue ▸ hm) (hs i p hl hx')
  | push pc pc' pending queue he hr =>
    by_cases hp : p = k
    · subst hp
      exact .inl ⟨_,queue ▸ List.mem_append_right _ (List.mem_singleton_self _),rfl⟩
    · rw [hf.others p hp] at hx
      exact keep p (fun e hm => queue ▸ List.mem_append_left _ hm) (hs i p (pending ▸ hl) hx)
  | reply value pc pc' sent pending queue he hr =>
    exact keep p (fun e hm => queue ▸ hm) (hs i p (pending ▸ hl) (before p he hx))
  | erase pc pc' pending queue he hr =>
    rw [pending] at hl
    by_cases hi : i = (s.callbacks k).id
    · subst hi
      rw [AList.lookup_erase] at hl
      cases hl
    · rw [AList.lookup_erase_ne hi] at hl
      exact keep p (fun e hm => queue ▸ hm) (hs i p hl (before p he hx))

theorem named_id {e : Queued} (h : Named s e) : e.message.correlationId = (s.callbacks e.callback).id := by
  rw [h.2]
  rfl

theorem worker_served (hw : WellFormed s) (hs : Served s)
    (hC : AnswersOrSettled s (.worker timedOut outcome))
    (h : s.workerStep timedOut outcome = some s') : Served s' := by
  have hf := worker_frame h
  have kept := worker_kept h
  intro i p hl hx
  rw [hf.pending] at hl
  rw [(kept p).enqueued] at hx
  have hi := (hw.pending i p hl).2
  have ha := hs i p hl hx
  have moves (queue : s'.queue = s.queue) (worker : s.worker.serves p → Awaiting s' p) :
      Awaiting s' p := ha.mono (fun e hm => queue ▸ hm) worker (kept p).settled
  have lookup_of {e : Queued} (he : Named s e) (hp : e.callback = p) :
      s.pending.lookup e.message.correlationId = some p := by
    rw [named_id he,hp,← hi]
    exact hl
  cases worker_move h with
  | poll was now queue dispatched callbacks =>
    refine moves queue ?_
    intro hv
    cases hpc : s.worker <;> simp_all [WorkerPc.serves,WorkerPc.incoming]
  | pop e was now queue dispatched callbacks =>
    rcases ha with ⟨e',he,hp⟩ | hv | hset
    · rw [queue,List.mem_cons] at he
      rcases he with rfl | he
      · exact .inr (.inl (by rw [now]; exact hp))
      · exact .inl ⟨e',he,hp⟩
    · rw [was] at hv
      exact hv.elim
    · exact .inr (.inr ((kept p).settled hset))
  | dispatch e was now queue dispatched callbacks =>
    have he : Named s e := hw.incoming e (by rw [was]; rfl)
    refine moves queue ?_
    intro hv
    rw [was] at hv
    have hp : e.callback = p := hv
    have hkind : e.message.kind = .request := by
      rw [he.2]
      simp [System.messageOf,hw.server]
    cases hr : outcome.response with
    | none => exact .inr (.inr ((kept p).settled (hC e was hr p (lookup_of he hp))))
    | some response =>
      refine .inr (.inl ?_)
      rw [now,hr]
      simp [WorkerPc.afterDispatch,hkind,WorkerPc.serves,hp]
  | lockPending e payload was now queue dispatched callbacks =>
    refine moves queue ?_
    intro hv
    rw [was] at hv
    exact .inr (.inl (by rw [now]; exact hv))
  | miss e payload was now lookup queue dispatched callbacks =>
    refine moves queue ?_
    intro hv
    rw [was] at hv
    have he : Named s e := hw.incoming e (by rw [was]; rfl)
    rw [lookup_of he hv] at lookup
    cases lookup
  | find e payload state was now lookup queue dispatched callbacks =>
    refine moves queue ?_
    intro hv
    rw [was] at hv
    have he : Named s e := hw.incoming e (by rw [was]; rfl)
    rw [lookup_of he hv] at lookup
    obtain rfl := Option.some.inj lookup
    exact .inr (.inl (by rw [now]; rfl))
  | lockState e payload state was now queue dispatched callbacks =>
    refine moves queue ?_
    intro hv
    rw [was] at hv
    exact .inr (.inl (by rw [now]; exact hv))
  | store e payload state was now queue dispatched callbacks =>
    refine moves queue ?_
    intro hv
    rw [was] at hv
    have hp : state = p := hv
    subst hp
    exact .inr (.inr (by rw [callbacks]; simp [ServerReply.settled]))

theorem step_served {a : Action} (hw : WellFormed s) (hs : Served s) (hC : AnswersOrSettled s a)
    (h : step s a = some s') : Served s' := by
  cases a with
  | callback k ok => exact callback_served hw hs h
  | worker timedOut outcome => exact worker_served hw hs hC h
  | close c pick =>
    have hf := close_frame h
    have kept := close_kept h
    intro i p hl hx
    rw [(kept p).enqueued] at hx
    refine (hs i p (hf.pending ▸ hl) hx).mono (fun e hm => hf.queue ▸ hm) ?_ (kept p).settled
    exact fun hv => .inr (.inl (hf.worker ▸ hv))
  | arrive payload =>
    obtain rfl := Option.some.inj h
    have hf := arrive_frame (s := s) payload
    intro i p hl hx
    rw [hf.pending] at hl
    have hlt := (hw.pending i p hl).1
    have hp : (s.arrive payload).callbacks p = s.callbacks p := hf.others p (by omega)
    rw [hp] at hx
    refine (hs i p hl hx).mono (fun e hm => hf.queue ▸ hm) ?_ (fun hset => hp ▸ hset)
    exact fun hv => .inr (.inl (hf.worker ▸ hv))
  | openTransport o ok =>
    obtain ⟨isOpen,openers,opens,he⟩ := openStep_fields (s := s) o ok
    obtain rfl := Option.some.inj h
    rw [he]
    exact hs
  | requestStop | clearStop =>
    obtain rfl := Option.some.inj h
    exact hs
  | startWorker =>
    obtain ⟨hexit,rfl⟩ := startWorker_some h
    intro i p hl hx
    refine (hs i p hl hx).mono (fun e hm => hm) ?_ (fun hset => hset)
    intro hv
    rw [hexit] at hv
    exact hv.elim

def Finished (s : System) (k : Nat) : Prop :=
  (s.callbacks k).enqueued ∧ ∀ e ∈ s.queue, e.callback ≠ k

-- The second half speaks of the callbacks themselves; ids of live callbacks may coincide only
-- after 2 ^ 64 queries.
def NoQueryAbandoned (s : System) : Prop :=
  s.worker = .atLoop →
    (∀ i p, s.pending.lookup i = some p → Finished s p →
      (s.callbacks p).state.value.isSome ∨ (s.callbacks p).state.cancelled) ∧
    (s.arrived < 2 ^ 64 → ∀ k, (s.callbacks k).pc = .inWait → Finished s k →
      (s.callbacks k).state.value.isSome ∨ (s.callbacks k).state.cancelled)

theorem settled_of_served (hs : Served s) (hloop : s.worker = .atLoop) {i : StdString} {p : Nat}
    (hl : s.pending.lookup i = some p) (hp : Finished s p) :
    (s.callbacks p).state.value.isSome ∨ (s.callbacks p).state.cancelled := by
  rcases hs i p hl hp.1 with ⟨e,he,hep⟩ | hv | hset
  · exact absurd hep (hp.2 e he)
  · rw [hloop] at hv
    exact hv.elim
  · simpa [ServerReply.settled] using hset

theorem zenoh_no_query_abandoned (as : List Action) (s : System)
    (answers : Transition.Meets step AnswersOrSettled (System.initial true) as)
    (h : Transition.run step (System.initial true) as = some s) : NoQueryAbandoned s := by
  have hi : WellFormed s ∧ Served s := by
    refine Transition.run_invariant_of_meets (I := fun s => WellFormed s ∧ Served s) ?_ ?_ answers h
    · exact fun _ _ _ hi hC hs => ⟨step_wellFormed hi.1 hs,step_served hi.1 hi.2 hC hs⟩
    · exact ⟨wellFormed_initial,fun i p hl => by cases hl⟩
  intro hloop
  refine ⟨fun i p hl hp => settled_of_served hi.2 hloop hl hp,?_⟩
  intro hlt k hpc hk
  exact settled_of_served hi.2 hloop (run_registered h hlt k (by rw [hpc]; rfl)) hk

def answersOrSettled (s : System) : Action → Bool
  | .worker _ outcome =>
    match s.worker with
    | .atDispatch _ => outcome.response.isSome
    | _ => true
  | _ => true

theorem answersOrSettled_sound (s : System) (a : Action) (h : answersOrSettled s a = true) :
    AnswersOrSettled s a := by
  cases a with
  | worker timedOut outcome =>
    intro e he hr
    simp [answersOrSettled,he,hr] at h
  | _ => trivial

def queryAnswered : List Action :=
  bringUp ++ [.arrive (some [1])] ++ callbackSteps 0 9 ++ workerSteps 8 (.returns [2])

theorem zenoh_no_query_abandoned_answered : ∃ s,
    Transition.run step (System.initial true) queryAnswered = some s ∧ NoQueryAbandoned s :=
  ⟨_,rfl,zenoh_no_query_abandoned queryAnswered _
    (Transition.meets_of_holdsAlong answersOrSettled_sound rfl) rfl⟩

def handlerThrew : List Action :=
  bringUp ++ [.arrive (some [1])] ++ callbackSteps 0 9 ++ workerSteps 5 .throws

theorem zenoh_no_query_abandoned_counterexample :
    ¬ ∀ (as : List Action) (s : System),
      Transition.run step (System.initial true) as = some s → NoQueryAbandoned s := by
  intro h
  have hs : ∃ s, Transition.run step (System.initial true) handlerThrew = some s ∧
      ¬ NoQueryAbandoned s := by
    refine ⟨_,rfl,?_⟩
    intro hn
    have := (hn rfl).1 (correlationId 0) 0 rfl ⟨rfl,fun e he => by cases he⟩
    revert this
    decide
  obtain ⟨s,hrun,hbad⟩ := hs
  exact hbad (h handlerThrew s hrun)

end DdsAbstract.Zenoh
