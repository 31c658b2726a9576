import DdsAbstract.Zenoh.Steps
import DdsAbstract.Lib.Transition

namespace DdsAbstract.Zenoh

variable {s s' : System} {k c pick o : Nat} {ok timedOut : Bool} {outcome : HandlerOutcome}

def correlationId (k : Nat) : StdString := Nat.toDigits 10 ((k + 1) % 2 ^ 64)

theorem correlationId_inj {j k : Nat} (hj : j + 1 < 2 ^ 64) (hk : k + 1 < 2 ^ 64)
    (h : correlationId j = correlationId k) : j = k := by
  have digits := congrArg (fun l => Nat.ofDigitChars 10 l 0) h
  simp only [correlationId,Nat.ofDigitChars_ten_toDigits] at digits
  omega

def Named (s : System) (e : Queued) : Prop :=
  e.callback < s.arrived ∧ e.message = s.messageOf e.callback

structure WellFormed (s : System) : Prop where
  server : s.isServer = true
  fresh : ∀ k, s.arrived ≤ k →
    (s.callbacks k).pc = .absent ∧ (s.callbacks k).enqueued = false ∧ (s.callbacks k).replies = []
  nextId : s.nextId = s.arrived % 2 ^ 64
  id : ∀ k, k < s.arrived → (s.callbacks k).id = correlationId k
  pending : ∀ i p, s.pending.lookup i = some p → p < s.arrived ∧ i = (s.callbacks p).id
  queue : ∀ e ∈ s.queue, Named s e
  incoming : ∀ e, s.worker.incoming = some e → Named s e
  dispatched : ∀ d ∈ s.dispatched, Named s d.entry
  enqueued : ∀ k, (s.callbacks k).enqueued → (s.callbacks k).pc.afterPush
  unanswered : ∀ k, ¬ (s.callbacks k).pc.afterReply → (s.callbacks k).replies = []

structure Stable (s s' : System) : Prop where
  isServer : s'.isServer = s.isServer
  arrived : s.arrived ≤ s'.arrived
  id : ∀ k, k < s.arrived → (s'.callbacks k).id = (s.callbacks k).id
  payload : ∀ k, k < s.arrived → (s'.callbacks k).payload = (s.callbacks k).payload

theorem Named.stable {e : Queued} (h : Named s e) (hs : Stable s s') : Named s' e := by
  refine ⟨Nat.lt_of_lt_of_le h.1 hs.arrived,h.2.trans ?_⟩
  simp [System.messageOf,hs.isServer,hs.id _ h.1,hs.payload _ h.1]

theorem callback_stable (h : s.callbackStep k ok = some s') : Stable s s' := by
  have hf := callback_frame h
  refine ⟨hf.isServer,le_of_eq hf.arrived.symm,?_,?_⟩ <;> intro j _ <;> by_cases hj : j = k
  · rw [hj]; exact hf.id
  · rw [hf.others j hj]
  · rw [hj]; exact hf.payload
  · rw [hf.others j hj]

theorem callback_arrived (hw : WellFormed s) (h : s.callbackStep k ok = some s') :
    k < s.arrived := by
  by_contra hk
  exact (callback_frame h).present (hw.fresh k (by omega)).1

theorem worker_stable (h : s.workerStep timedOut outcome = some s') : Stable s s' := by
  have hf := worker_frame h
  exact ⟨hf.isServer,le_of_eq hf.arrived.symm,fun j _ => (worker_kept h j).id,
    fun j _ => (worker_kept h j).payload⟩

theorem close_stable (h : s.closeStep c pick = some s') : Stable s s' := by
  have hf := close_frame h
  exact ⟨hf.isServer,le_of_eq hf.arrived.symm,fun j _ => (close_kept h j).id,
    fun j _ => (close_kept h j).payload⟩

theorem callback_wellFormed_of (hw : WellFormed s) (h : s.callbackStep k ok = some s')
    (pending : ∀ i p, s'.pending.lookup i = some p → p < s.arrived ∧ i = (s.callbacks p).id)
    (queue : ∀ e ∈ s'.queue, Named s' e)
    (enqueued : (s'.callbacks k).enqueued → (s'.callbacks k).pc.afterPush)
    (unanswered : ¬ (s'.callbacks k).pc.afterReply → (s'.callbacks k).replies = []) :
    WellFormed s' := by
  have hf := callback_frame h
  have hs := callback_stable h
  have hk := callback_arrived hw h
  refine ⟨hf.isServer.trans hw.server,?_,?_,?_,?_,queue,?_,?_,?_,?_⟩
  · intro j hj
    rw [hf.arrived] at hj
    rw [hf.others j (by omega)]
    exact hw.fresh j hj
  · rw [hf.nextId,hf.arrived]
    exact hw.nextId
  · intro j hj
    rw [hf.arrived] at hj
    exact (hs.id j hj).trans (hw.id j hj)
  · intro i p hp
    obtain ⟨hlt,hi⟩ := pending i p hp
    exact ⟨hf.arrived ▸ hlt,hi.trans (hs.id p hlt).symm⟩
  · exact fun e he => (hw.incoming e (hf.worker ▸ he)).stable hs
  · exact fun d hd => (hw.dispatched d (hf.dispatched ▸ hd)).stable hs
  · intro j
    by_cases hj : j = k
    · subst hj; exact enqueued
    · rw [hf.others j hj]; exact hw.enqueued j
  · intro j
    by_cases hj : j = k
    · subst hj; exact unanswered
    · rw [hf.others j hj]; exact hw.unanswered j

theorem callback_wellFormed (hw : WellFormed s) (h : s.callbackStep k ok = some s') :
    WellFormed s' := by
  have hf := callback_frame h
  have hs := callback_stable h
  have hk := callback_arrived hw h
  have keepQueue (hq : s'.queue = s.queue) : ∀ e ∈ s'.queue, Named s' e :=
    fun e he => (hw.queue e (hq ▸ he)).stable hs
  have keepEnqueued (he : (s'.callbacks k).enqueued = (s.callbacks k).enqueued) :
      (s'.callbacks k).enqueued → (s'.callbacks k).pc.afterPush :=
    fun hx => hf.afterPush (hw.enqueued k (he ▸ hx))
  have keepReplies (hr : (s'.callbacks k).replies = (s.callbacks k).replies) :
      ¬ (s'.callbacks k).pc.afterReply → (s'.callbacks k).replies = [] :=
    fun hx => hr ▸ hw.unanswered k (fun hy => hx (hf.afterReply hy))
  cases callback_move h with
  | quiet pc pending queue he hr =>
    exact callback_wellFormed_of hw h (pending ▸ hw.pending) (keepQueue queue) (keepEnqueued he)
      (keepReplies hr)
  | insert pc pending queue he hr =>
    refine callback_wellFormed_of hw h ?_ (keepQueue queue) (keepEnqueued he) (keepReplies hr)
    intro i p hp
    rw [pending] at hp
    by_cases hi : i = (s.callbacks k).id
    · subst hi
      rw [AList.lookup_insert] at hp
      obtain rfl := Option.some.inj hp
      exact ⟨hk,rfl⟩
    · rw [AList.lookup_insert_ne hi] at hp
      exact hw.pending i p hp
  | push pc pc' pending queue he hr =>
    refine callback_wellFormed_of hw h (pending ▸ hw.pending) ?_ ?_ (keepReplies hr)
    · intro e hm
      rw [queue,List.mem_append,List.mem_singleton] at hm
      rcases hm with hm | rfl
      · exact (hw.queue e hm).stable hs
      · exact Named.stable ⟨hk,rfl⟩ hs
    · simp [pc',System.afterEnqueue,hw.server,CallbackPc.afterPush]
  | reply value pc pc' sent pending queue he hr =>
    refine callback_wellFormed_of hw h (pending ▸ hw.pending) (keepQueue queue) (keepEnqueued he) ?_
    simp [pc',CallbackPc.afterReply]
  | erase pc pc' pending queue he hr =>
    refine callback_wellFormed_of hw h ?_ (keepQueue queue) (keepEnqueued he) (keepReplies hr)
    intro i p hp
    rw [pending] at hp
    by_cases hi : i = (s.callbacks k).id
    · subst hi
      rw [AList.lookup_erase] at hp
      cases hp
    · rw [AList.lookup_erase_ne hi] at hp
      exact hw.pending i p hp

theorem wellFormed_of_kept (hw : WellFormed s) (hs : Stable s s') (arrived : s'.arrived = s.arrived)
    (nextId : s'.nextId = s.nextId) (pending : s'.pending = s.pending)
    (kept : ∀ j, CallbackKept (s.callbacks j) (s'.callbacks j)) (queue : ∀ e ∈ s'.queue, Named s e)
    (incoming : ∀ e, s'.worker.incoming = some e → Named s e)
    (dispatched : ∀ d ∈ s'.dispatched, Named s d.entry) : WellFormed s' := by
  refine ⟨hs.isServer.trans hw.server,?_,?_,?_,?_,?_,?_,?_,?_,?_⟩
  · intro j hj
    rw [(kept j).pc,(kept j).enqueued,(kept j).replies]
    exact hw.fresh j (arrived ▸ hj)
  · rw [nextId,arrived]
    exact hw.nextId
  · intro j hj
    rw [(kept j).id]
    exact hw.id j (arrived ▸ hj)
  · intro i p hp
    rw [arrived,(kept p).id]
    exact hw.pending i p (pending ▸ hp)
  · exact fun e he => (queue e he).stable hs
  · exact fun e he => (incoming e he).stable hs
  · exact fun d hd => (dispatched d hd).stable hs
  · intro j
    rw [(kept j).pc,(kept j).enqueued]
    exact hw.enqueued j
  · intro j
    rw [(kept j).pc,(kept j).replies]
    exact hw.unanswered j

theorem afterDispatch_incoming {e e' : Queued} {response : Option DdsBytes}
    (h : (WorkerPc.afterDispatch e response).incoming = some e') : e' = e := by
  unfold WorkerPc.afterDispatch at h
  split at h
  · cases h
  · split at h
    · cases h
    · exact (Option.some.inj h).symm

theorem worker_wellFormed (hw : WellFormed s) (h : s.workerStep timedOut outcome = some s') :
    WellFormed s' := by
  have hf := worker_frame h
  have base := wellFormed_of_kept hw (worker_stable h) hf.arrived hf.nextId hf.pending (worker_kept h)
  cases worker_move h with
  | poll was now queue dispatched callbacks =>
    refine base (queue ▸ hw.queue) ?_ (dispatched ▸ hw.dispatched)
    intro e he
    rw [now] at he
    cases he
  | pop e was now queue dispatched callbacks =>
    refine base ?_ ?_ (dispatched ▸ hw.dispatched)
    · exact fun e' he => hw.queue e' (queue ▸ List.mem_cons_of_mem _ he)
    · intro e' he
      rw [now] at he
      obtain rfl := Option.some.inj he
      exact hw.queue _ (queue ▸ List.mem_cons_self)
  | dispatch e was now queue dispatched callbacks =>
    have he : Named s e := hw.incoming e (by rw [was]; rfl)
    refine base (queue ▸ hw.queue) ?_ ?_
    · intro e' he'
      rw [now] at he'
      exact afterDispatch_incoming he' ▸ he
    · intro d hd
      rw [dispatched,List.mem_append,List.mem_singleton] at hd
      rcases hd with hd | rfl
      · exact hw.dispatched d hd
      · exact he
  | miss e payload was now lookup queue dispatched callbacks =>
    refine base (queue ▸ hw.queue) ?_ (dispatched ▸ hw.dispatched)
    intro e' he
    rw [now] at he
    cases he
  | store e payload state was now queue dispatched callbacks =>
    refine base (queue ▸ hw.queue) ?_ (dispatched ▸ hw.dispatched)
    intro e' he
    rw [now] at he
    cases he
  | lockPending e payload was now queue dispatched callbacks =>
    refine base (queue ▸ hw.queue) ?_ (dispatched ▸ hw.dispatched)
    exact fun e' he => hw.incoming e' (by rw [was]; rw [now] at he; exact he)
  | find e payload state was now lookup queue dispatched callbacks =>
    refine base (queue ▸ hw.queue) ?_ (dispatched ▸ hw.dispatched)
    exact fun e' he => hw.incoming e' (by rw [was]; rw [now] at he; exact he)
  | lockState e payload state was now queue dispatched callbacks =>
    refine base (queue ▸ hw.queue) ?_ (dispatched ▸ hw.dispatched)
    exact fun e' he => hw.incoming e' (by rw [was]; rw [now] at he; exact he)

theorem close_wellFormed (hw : WellFormed s) (h : s.closeStep c pick = some s') : WellFormed s' := by
  have hf := close_frame h
  exact wellFormed_of_kept hw (close_stable h) hf.arrived hf.nextId hf.pending (close_kept h)
    (hf.queue ▸ hw.queue) (hf.worker ▸ hw.incoming) (hf.dispatched ▸ hw.dispatched)

theorem arrive_stable (payload : Option DdsBytes) : Stable s (s.arrive payload) := by
  have hf := arrive_frame (s := s) payload
  refine ⟨hf.isServer,?_,?_,?_⟩
  · rw [hf.arrived]
    exact Nat.le_succ _
  · exact fun j hj => by rw [hf.others j (by omega)]
  · exact fun j hj => by rw [hf.others j (by omega)]

theorem arrive_wellFormed (hw : WellFormed s) (payload : Option DdsBytes) :
    WellFormed (s.arrive payload) := by
  have hs := arrive_stable (s := s) payload
  have hf := arrive_frame (s := s) payload
  have nextId : (s.arrive payload).nextId = (s.arrived + 1) % 2 ^ 64 := by
    rw [hf.nextId,hw.server,if_pos rfl,hw.nextId,Nat.mod_add_mod]
  refine ⟨hs.isServer.trans hw.server,?_,?_,?_,?_,?_,?_,?_,?_,?_⟩
  · intro j hj
    rw [hf.arrived] at hj
    rw [hf.others j (by omega)]
    exact hw.fresh j (by omega)
  · rw [nextId,hf.arrived]
  · intro j hj
    rw [hf.arrived] at hj
    by_cases hja : j = s.arrived
    · subst hja
      rw [hf.newest,nextId,hw.server]
      rfl
    · rw [hf.others j hja]
      exact hw.id j (by omega)
  · intro i p hp
    obtain ⟨hlt,hi⟩ := hw.pending i p (hf.pending ▸ hp)
    exact ⟨Nat.lt_of_lt_of_le hlt hs.arrived,hi.trans (hs.id p hlt).symm⟩
  · intro e he
    exact (hw.queue e (hf.queue ▸ he)).stable hs
  · intro e he
    exact (hw.incoming e (hf.worker ▸ he)).stable hs
  · intro d hd
    exact (hw.dispatched d (hf.dispatched ▸ hd)).stable hs
  · intro j
    by_cases hja : j = s.arrived
    · subst hja
      simp [hf.newest,hw.server]
    · rw [hf.others j hja]
      exact hw.enqueued j
  · intro j
    by_cases hja : j = s.arrived
    · subst hja
      simp [hf.newest,hw.server]
    · rw [hf.others j hja]
      exact hw.unanswered j

theorem wellFormed_initial : WellFormed (System.initial true) := by
  constructor <;> simp [System.initial,WorkerPc.incoming]

theorem step_wellFormed {a : Action} (hw : WellFormed s) (h : step s a = some s') :
    WellFormed s' := by
  cases a with
  | arrive payload =>
    obtain rfl := Option.some.inj h
    exact arrive_wellFormed hw payload
  | callback k ok => exact callback_wellFormed hw h
  | worker timedOut outcome => exact worker_wellFormed hw h
  | close c pick => exact close_wellFormed hw h
  | openTransport o ok =>
    obtain ⟨isOpen,openers,opens,he⟩ := openStep_fields (s := s) o ok
    obtain rfl := Option.some.inj h
    rw [he]
    exact ⟨hw.server,hw.fresh,hw.nextId,hw.id,hw.pending,hw.queue,hw.incoming,hw.dispatched,
      hw.enqueued,hw.unanswered⟩
  | requestStop | clearStop =>
    obtain rfl := Option.some.inj h
    exact ⟨hw.server,hw.fresh,hw.nextId,hw.id,hw.pending,hw.queue,hw.incoming,hw.dispatched,
      hw.enqueued,hw.unanswered⟩
  | startWorker =>
    obtain ⟨-,rfl⟩ := startWorker_some h
    refine ⟨hw.server,hw.fresh,hw.nextId,hw.id,hw.pending,hw.queue,?_,hw.dispatched,hw.enqueued,
      hw.unanswered⟩
    intro e he
    cases he

def Registered (s : System) : Prop :=
  s.arrived < 2 ^ 64 →
    ∀ k, (s.callbacks k).pc.registered → s.pending.lookup (s.callbacks k).id = some k

theorem registered_present (hw : WellFormed s) (h : (s.callbacks k).pc.registered) :
    k < s.arrived := by
  by_contra hk
  rw [(hw.fresh k (by omega)).1] at h
  cases h

theorem id_ne (hw : WellFormed s) (hlt : s.arrived < 2 ^ 64) {j k : Nat} (hj : j < s.arrived)
    (hk : k < s.arrived) (hjk : j ≠ k) : (s.callbacks j).id ≠ (s.callbacks k).id := by
  rw [hw.id j hj,hw.id k hk]
  exact fun h => hjk (correlationId_inj (by omega) (by omega) h)

theorem callback_registered (hw : WellFormed s) (hr : Registered s)
    (h : s.callbackStep k ok = some s') : Registered s' := by
  have hf := callback_frame h
  have hk := callback_arrived hw h
  intro hlt j hj
  rw [hf.arrived] at hlt
  by_cases hjk : j = k
  · subst hjk
    rw [hf.id]
    have hpc := hf.registered hj
    cases callback_move h with
    | quiet pc pending queue he hrep =>
      rw [pending]
      exact hr hlt j (hpc.resolve_right pc)
    | insert pc pending queue he hrep => rw [pending,AList.lookup_insert]
    | push pc pc' pending queue he hrep =>
      rw [pending]
      exact hr hlt j (by rw [pc]; rfl)
    | reply value pc pc' sent pending queue he hrep =>
      rw [pending]
      exact hr hlt j (by rw [pc]; rfl)
    | erase pc pc' pending queue he hrep =>
      rw [pc'] at hj
      cases hj
  · rw [hf.others j hjk] at hj ⊢
    have hl := hr hlt j hj
    have hne := id_ne hw hlt (registered_present hw hj) hk hjk
    cases callback_move h with
    | quiet pc pending queue he hrep => rw [pending]; exact hl
    | insert pc pending queue he hrep => rw [pending,AList.lookup_insert_ne hne]; exact hl
    | push pc pc' pending queue he hrep => rw [pending]; exact hl
    | reply value pc pc' sent pending queue he hrep => rw [pending]; exact hl
    | erase pc pc' pending queue he hrep => rw [pending,AList.lookup_erase_ne hne]; exact hl

theorem registered_of_kept (hr : Registered s) (arrived : s'.arrived = s.arrived)
    (pending : s'.pending = s.pending)
    (kept : ∀ j, CallbackKept (s.callbacks j) (s'.callbacks j)) : Registered s' := by
  intro hlt j hj
  rw [(kept j).pc] at hj
  rw [(kept j).id,pending]
  exact hr (arrived ▸ hlt) j hj

theorem arrive_registered (hw : WellFormed s) (hr : Registered s) (payload : Option DdsBytes) :
    Registered (s.arrive payload) := by
  have hf := arrive_frame (s := s) payload
  intro hlt j hj
  rw [hf.arrived] at hlt
  by_cases hja : j = s.arrived
  · subst hja
    simp [hf.newest,hw.server,CallbackPc.registered] at hj
  · rw [hf.others j hja] at hj ⊢
    rw [hf.pending]
    exact hr (by omega) j hj

theorem step_registered {a : Action} (hw : WellFormed s) (hr : Registered s)
    (h : step s a = some s') : Registered s' := by
  cases a with
  | arrive payload =>
    obtain rfl := Option.some.inj h
    exact arrive_registered hw hr payload
  | callback k ok => exact callback_registered hw hr h
  | worker timedOut outcome =>
    exact registered_of_kept hr (worker_frame h).arrived (worker_frame h).pending (worker_kept h)
  | close c pick =>
    exact registered_of_kept hr (close_frame h).arrived (close_frame h).pending (close_kept h)
  | openTransport o ok =>
    obtain ⟨isOpen,openers,opens,he⟩ := openStep_fields (s := s) o ok
    obtain rfl := Option.some.inj h
    rw [he]
    exact hr
  | requestStop | clearStop =>
    obtain rfl := Option.some.inj h
    exact hr
  | startWorker =>
    obtain ⟨-,rfl⟩ := startWorker_some h
    exact hr

theorem run_registered {as : List Action} (h : Transition.run step (System.initial true) as = some s) :
    Registered s := by
  refine (Transition.run_invariant (I := fun s => WellFormed s ∧ Registered s) ?_ ?_ h).2
  · exact fun _ _ _ hi hs => ⟨step_wellFormed hi.1 hs,step_registered hi.1 hi.2 hs⟩
  · exact ⟨wellFormed_initial,fun _ k hk => by cases hk⟩

theorem run_wellFormed {as : List Action} (h : Transition.run step (System.initial true) as = some s) :
    WellFormed s :=
  Transition.run_invariant (I := WellFormed) (fun _ _ _ hw hs => step_wellFormed hw hs)
    wellFormed_initial h

end DdsAbstract.Zenoh
