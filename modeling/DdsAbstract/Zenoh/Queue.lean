import DdsAbstract.Zenoh.Invariant

namespace DdsAbstract.Zenoh

variable {s s' : System} {k c pick : Nat} {ok timedOut : Bool} {outcome : HandlerOutcome}

def WorkerPc.undispatched : WorkerPc → List Queued
  | .atDispatch incoming => [incoming]
  | _ => []

def accepted (s : System) : List Queued :=
  s.dispatched.map (·.entry) ++ s.worker.undispatched ++ s.queue

theorem undispatched_of_incoming (h : s.worker.incoming = none) : s.worker.undispatched = [] := by
  cases hpc : s.worker <;> simp_all [WorkerPc.incoming,WorkerPc.undispatched]

theorem afterDispatch_undispatched (e : Queued) (response : Option DdsBytes) :
    (WorkerPc.afterDispatch e response).undispatched = [] := by
  unfold WorkerPc.afterDispatch
  split
  · rfl
  · split <;> rfl

theorem worker_accepted (h : s.workerStep timedOut outcome = some s') :
    accepted s' = accepted s := by
  unfold accepted
  cases worker_move h with
  | poll was now queue dispatched callbacks =>
    rw [queue,dispatched,undispatched_of_incoming was,undispatched_of_incoming now]
  | pop e was now queue dispatched callbacks =>
    rw [queue,dispatched,was,now]
    simp [WorkerPc.undispatched]
  | dispatch e was now queue dispatched callbacks =>
    rw [queue,dispatched,was,now,afterDispatch_undispatched]
    simp [WorkerPc.undispatched]
  | lockPending e payload was now queue dispatched callbacks => rw [queue,dispatched,was,now]; rfl
  | miss e payload was now lookup queue dispatched callbacks => rw [queue,dispatched,was,now]; rfl
  | find e payload state was now lookup queue dispatched callbacks =>
    rw [queue,dispatched,was,now]; rfl
  | lockState e payload state was now queue dispatched callbacks =>
    rw [queue,dispatched,was,now]; rfl
  | store e payload state was now queue dispatched callbacks => rw [queue,dispatched,was,now]; rfl

inductive AcceptedStep (s s' : System) : Prop
  | same (list : accepted s' = accepted s)
  | push (k : Nat) (pc : (s.callbacks k).pc = .atPush) (enqueued : (s'.callbacks k).enqueued)
      (list : accepted s' = accepted s ++ [⟨s.messageOf k,k,s.opens⟩])

theorem step_accepted {a : Action} (h : step s a = some s') : AcceptedStep s s' := by
  cases a with
  | callback k ok =>
    have hf := callback_frame h
    have keep (hq : s'.queue = s.queue) : accepted s' = accepted s := by
      simp only [accepted,hf.dispatched,hf.worker,hq]
    cases callback_move h with
    | push pc pc' pending queue he hr =>
      refine .push k pc he ?_
      simp only [accepted,hf.dispatched,hf.worker,queue,List.append_assoc]
    | quiet pc pending queue he hr => exact .same (keep queue)
    | insert pc pending queue he hr => exact .same (keep queue)
    | reply value pc pc' sent pending queue he hr => exact .same (keep queue)
    | erase pc pc' pending queue he hr => exact .same (keep queue)
  | worker timedOut outcome => exact .same (worker_accepted h)
  | close c pick =>
    have hf := close_frame h
    exact .same (by simp only [accepted,hf.dispatched,hf.worker,hf.queue])
  | arrive payload =>
    obtain rfl := Option.some.inj h
    have hf := arrive_frame (s := s) payload
    exact .same (by simp only [accepted,hf.dispatched,hf.worker,hf.queue])
  | openTransport o ok =>
    obtain ⟨isOpen,openers,opens,he⟩ := openStep_fields (s := s) o ok
    obtain rfl := Option.some.inj h
    rw [he]
    exact .same rfl
  | requestStop | clearStop =>
    obtain rfl := Option.some.inj h
    exact .same rfl
  | startWorker =>
    obtain ⟨hexit,rfl⟩ := startWorker_some h
    refine .same ?_
    simp [accepted,hexit,WorkerPc.undispatched]

theorem step_enqueued {a : Action} (hw : WellFormed s) (h : step s a = some s') (j : Nat)
    (hj : (s.callbacks j).enqueued) : (s'.callbacks j).enqueued := by
  cases a with
  | callback k ok =>
    have hf := callback_frame h
    by_cases hjk : j = k
    · subst hjk
      cases callback_move h with
      | push pc pc' pending queue he hr => exact he
      | quiet pc pending queue he hr => exact he ▸ hj
      | insert pc pending queue he hr => exact he ▸ hj
      | reply value pc pc' sent pending queue he hr => exact he ▸ hj
      | erase pc pc' pending queue he hr => exact he ▸ hj
    · rw [hf.others j hjk]
      exact hj
  | worker timedOut outcome => exact (worker_kept h j).enqueued ▸ hj
  | close c pick => exact (close_kept h j).enqueued ▸ hj
  | arrive payload =>
    obtain rfl := Option.some.inj h
    by_cases hja : j = s.arrived
    · rw [(hw.fresh j (by omega)).2.1] at hj
      cases hj
    · rw [(arrive_frame payload).others j hja]
      exact hj
  | openTransport o ok =>
    obtain ⟨isOpen,openers,opens,he⟩ := openStep_fields (s := s) o ok
    obtain rfl := Option.some.inj h
    rw [he]
    exact hj
  | requestStop | clearStop =>
    obtain rfl := Option.some.inj h
    exact hj
  | startWorker =>
    obtain ⟨-,rfl⟩ := startWorker_some h
    exact hj

structure AcceptedOnce (s : System) : Prop where
  nodup : ((accepted s).map (·.callback)).Nodup
  enqueued : ∀ e ∈ accepted s, (s.callbacks e.callback).enqueued

theorem step_acceptedOnce {a : Action} (hw : WellFormed s) (ho : AcceptedOnce s)
    (h : step s a = some s') : AcceptedOnce s' := by
  cases step_accepted h with
  | same list =>
    refine ⟨list ▸ ho.nodup,fun e he => step_enqueued hw h _ (ho.enqueued e (list ▸ he))⟩
  | push k pc enqueued list =>
    have hnew : ∀ e ∈ accepted s, e.callback ≠ k := by
      rintro e he rfl
      have := hw.enqueued _ (ho.enqueued e he)
      rw [pc] at this
      cases this
    refine ⟨?_,?_⟩
    · rw [list,List.map_append,List.nodup_append]
      refine ⟨ho.nodup,by simp,?_⟩
      intro j hj l hl
      obtain ⟨e,he,rfl⟩ := List.mem_map.mp hj
      obtain rfl : l = k := by simpa using hl
      exact hnew e he
    · intro e he
      rw [list,List.mem_append,List.mem_singleton] at he
      rcases he with he | rfl
      · exact step_enqueued hw h _ (ho.enqueued e he)
      · exact enqueued

theorem run_acceptedOnce {as : List Action}
    (h : Transition.run step (System.initial true) as = some s) : AcceptedOnce s := by
  refine (Transition.run_invariant (I := fun s => WellFormed s ∧ AcceptedOnce s) ?_ ?_ h).2
  · exact fun _ _ _ hi hs => ⟨step_wellFormed hi.1 hs,step_acceptedOnce hi.1 hi.2 hs⟩
  · refine ⟨wellFormed_initial,?_,?_⟩ <;>
      simp [accepted,System.initial,WorkerPc.undispatched]

theorem dispatched_unique (ho : AcceptedOnce s) {d d' : Dispatched} (hd : d ∈ s.dispatched)
    (hd' : d' ∈ s.dispatched) (h : d.entry.callback = d'.entry.callback) : d = d' := by
  have hn : (s.dispatched.map (fun d => d.entry.callback)).Nodup := by
    have := ho.nodup
    simp only [accepted,List.map_append,List.map_map,List.append_assoc] at this
    exact (List.nodup_append.mp this).1
  exact List.inj_on_of_nodup_map hn hd hd' h

end DdsAbstract.Zenoh
