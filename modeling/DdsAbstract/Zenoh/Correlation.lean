import DdsAbstract.Zenoh.Queue

namespace DdsAbstract.Zenoh

variable {s s' : System} {k c pick : Nat} {ok timedOut : Bool} {outcome : HandlerOutcome}

def Answered (s : System) (k : Nat) (r : DdsBytes) : Prop :=
  ∃ d ∈ s.dispatched, d.entry.callback = k ∧ d.outcome.response = some r

def WorkerPc.carried : WorkerPc → Option (Queued × DdsBytes)
  | .atPendingLock incoming payload => some (incoming,payload)
  | .atFind incoming payload => some (incoming,payload)
  | .atStateLock incoming _ payload => some (incoming,payload)
  | .atStore incoming _ payload => some (incoming,payload)
  | _ => none

def WorkerPc.found : WorkerPc → Option (Queued × Nat)
  | .atStateLock incoming state _ => some (incoming,state)
  | .atStore incoming state _ => some (incoming,state)
  | _ => none

structure Correlated (s : System) : Prop where
  value : ∀ k r, (s.callbacks k).state.value = some r → Answered s k r
  carried : ∀ e r, s.worker.carried = some (e,r) → Answered s e.callback r
  found : ∀ e p, s.worker.found = some (e,p) → p = e.callback
  replies : ∀ k r, r ∈ (s.callbacks k).replies → Answered s k r
  single : ∀ k, (s.callbacks k).replies.length ≤ 1

theorem Answered.mono {r : DdsBytes} (h : Answered s k r)
    (hd : ∀ d ∈ s.dispatched, d ∈ s'.dispatched) : Answered s' k r := by
  obtain ⟨d,hm,hk,hr⟩ := h
  exact ⟨d,hd d hm,hk,hr⟩

theorem callback_correlated (hw : WellFormed s) (hc : Correlated s)
    (h : s.callbackStep k ok = some s') : Correlated s' := by
  have hf := callback_frame h
  have mono {j : Nat} {r : DdsBytes} (ha : Answered s j r) : Answered s' j r :=
    ha.mono (fun d hd => hf.dispatched ▸ hd)
  have base (replies : ∀ r ∈ (s'.callbacks k).replies, Answered s k r)
      (single : (s'.callbacks k).replies.length ≤ 1) : Correlated s' := by
    refine ⟨?_,?_,?_,?_,?_⟩
    · intro j r hv
      by_cases hjk : j = k
      · subst hjk
        exact mono (hc.value j r (hf.state ▸ hv))
      · exact mono (hc.value j r (hf.others j hjk ▸ hv))
    · exact fun e r he => mono (hc.carried e r (hf.worker ▸ he))
    · exact fun e p he => hc.found e p (hf.worker ▸ he)
    · intro j r hr
      by_cases hjk : j = k
      · subst hjk
        exact mono (replies r hr)
      · exact mono (hc.replies j r (hf.others j hjk ▸ hr))
    · intro j
      by_cases hjk : j = k
      · subst hjk
        exact single
      · exact hf.others j hjk ▸ hc.single j
  have same (hr : (s'.callbacks k).replies = (s.callbacks k).replies) : Correlated s' :=
    base (hr ▸ hc.replies k) (hr ▸ hc.single k)
  cases callback_move h with
  | quiet pc pending queue he hr => exact same hr
  | insert pc pending queue he hr => exact same hr
  | push pc pc' pending queue he hr => exact same hr
  | erase pc pc' pending queue he hr => exact same hr
  | reply value pc pc' sent pending queue he hr =>
    have hnil : (s.callbacks k).replies = [] := hw.unanswered k (by simp [pc,CallbackPc.afterReply])
    rw [hnil] at hr
    refine base ?_ (by simp [hr])
    intro r hm
    obtain rfl : r = value := by simpa [hr] using hm
    exact hc.value k r sent

theorem worker_base (hc : Correlated s) (h : s.workerStep timedOut outcome = some s')
    (dispatched : ∀ d ∈ s.dispatched, d ∈ s'.dispatched)
    (value : ∀ j r, (s'.callbacks j).state.value = some r → Answered s j r)
    (carried : ∀ e r, s'.worker.carried = some (e,r) → Answered s' e.callback r)
    (found : ∀ e p, s'.worker.found = some (e,p) → p = e.callback) : Correlated s' := by
  have kept := worker_kept h
  refine ⟨fun j r hv => (value j r hv).mono dispatched,carried,found,?_,?_⟩
  · intro j r hr
    rw [(kept j).replies] at hr
    exact (hc.replies j r hr).mono dispatched
  · intro j
    rw [(kept j).replies]
    exact hc.single j

theorem worker_correlated (hw : WellFormed s) (hlt : s.arrived < 2 ^ 64) (hc : Correlated s)
    (h : s.workerStep timedOut outcome = some s') : Correlated s' := by
  have none_carried {w : WorkerPc} (hi : w.incoming = none) : w.carried = none ∧ w.found = none := by
    cases w <;> simp_all [WorkerPc.incoming,WorkerPc.carried,WorkerPc.found]
  have carried (same : s'.worker.carried = s.worker.carried)
      (dispatched : s'.dispatched = s.dispatched) :
      ∀ e r, s'.worker.carried = some (e,r) → Answered s' e.callback r :=
    fun e r he => (hc.carried e r (same ▸ he)).mono (fun d hd => dispatched ▸ hd)
  cases worker_move h with
  | poll was now queue dispatched callbacks =>
    obtain ⟨hcar,hfou⟩ := none_carried now
    refine worker_base hc h (fun d hd => dispatched ▸ hd) (callbacks ▸ hc.value) ?_ ?_
    · simp [hcar]
    · simp [hfou]
  | pop e was now queue dispatched callbacks =>
    refine worker_base hc h (fun d hd => dispatched ▸ hd) (callbacks ▸ hc.value) ?_ ?_
    · simp [now,WorkerPc.carried]
    · simp [now,WorkerPc.found]
  | dispatch e was now queue dispatched callbacks =>
    refine worker_base hc h (fun d hd => dispatched ▸ List.mem_append_left _ hd)
      (callbacks ▸ hc.value) ?_ ?_
    · intro e' r he
      rw [now] at he
      cases hr : outcome.response with
      | none => simp [WorkerPc.afterDispatch,hr,WorkerPc.carried] at he
      | some response =>
        cases hk : e.message.kind <;> simp only [WorkerPc.afterDispatch,hr,hk,WorkerPc.carried,
          Option.some.injEq,Prod.mk.injEq,reduceCtorEq] at he
        obtain ⟨rfl,rfl⟩ := he
        exact ⟨⟨e,outcome,s.opens⟩,dispatched ▸ List.mem_append_right _ (List.mem_singleton_self _),
          rfl,hr⟩
    · intro e' p he
      rw [now] at he
      unfold WorkerPc.afterDispatch at he
      split at he
      · cases he
      · split at he <;> cases he
  | lockPending e payload was now queue dispatched callbacks =>
    refine worker_base hc h (fun d hd => dispatched ▸ hd) (callbacks ▸ hc.value) ?_ ?_
    · exact carried (by rw [was,now]; rfl) dispatched
    · simp [now,WorkerPc.found]
  | miss e payload was now lookup queue dispatched callbacks =>
    refine worker_base hc h (fun d hd => dispatched ▸ hd) (callbacks ▸ hc.value) ?_ ?_
    · simp [now,WorkerPc.carried]
    · simp [now,WorkerPc.found]
  | find e payload state was now lookup queue dispatched callbacks =>
    refine worker_base hc h (fun d hd => dispatched ▸ hd) (callbacks ▸ hc.value) ?_ ?_
    · exact carried (by rw [was,now]; rfl) dispatched
    · intro e' p he
      rw [now] at he
      simp only [WorkerPc.found,Option.some.injEq,Prod.mk.injEq] at he
      obtain ⟨rfl,rfl⟩ := he
      have hnamed : Named s e := hw.incoming e (by rw [was]; rfl)
      obtain ⟨hp,hid⟩ := hw.pending _ state lookup
      by_contra hne
      refine id_ne hw hlt hp hnamed.1 hne ?_
      rw [← hid,hnamed.2]
      rfl
  | lockState e payload state was now queue dispatched callbacks =>
    refine worker_base hc h (fun d hd => dispatched ▸ hd) (callbacks ▸ hc.value) ?_ ?_
    · exact carried (by rw [was,now]; rfl) dispatched
    · intro e' p he
      rw [now] at he
      exact hc.found e' p (by rw [was]; exact he)
  | store e payload state was now queue dispatched callbacks =>
    refine worker_base hc h (fun d hd => dispatched ▸ hd) ?_ ?_ ?_
    · intro j r hv
      rw [callbacks] at hv
      by_cases hj : j = state
      · subst hj
        obtain rfl : payload = r := by simpa using hv
        have hfound : j = e.callback := hc.found e j (by rw [was]; rfl)
        exact hfound ▸ hc.carried e payload (by rw [was]; rfl)
      · rw [Function.update_of_ne hj] at hv
        exact hc.value j r hv
    · simp [now,WorkerPc.carried]
    · simp [now,WorkerPc.found]

theorem close_correlated (hc : Correlated s) (h : s.closeStep c pick = some s') :
    Correlated s' := by
  have hf := close_frame h
  have kept := close_kept h
  have mono {j : Nat} {r : DdsBytes} (ha : Answered s j r) : Answered s' j r :=
    ha.mono (fun d hd => hf.dispatched ▸ hd)
  have value (j : Nat) : (s'.callbacks j).state.value = (s.callbacks j).state.value := by
    cases close_move h with
    | quiet callbacks => rw [callbacks]
    | cancel state callbacks =>
      rw [callbacks]
      by_cases hj : j = state
      · subst hj; simp
      · simp [hj]
  refine ⟨?_,?_,?_,?_,?_⟩
  · exact fun j r hv => mono (hc.value j r (value j ▸ hv))
  · exact fun e r he => mono (hc.carried e r (hf.worker ▸ he))
  · exact fun e p he => hc.found e p (hf.worker ▸ he)
  · exact fun j r hr => mono (hc.replies j r ((kept j).replies ▸ hr))
  · exact fun j => (kept j).replies ▸ hc.single j

theorem arrive_correlated (hc : Correlated s) (payload : Option DdsBytes) :
    Correlated (s.arrive payload) := by
  have hf := arrive_frame (s := s) payload
  have mono {j : Nat} {r : DdsBytes} (ha : Answered s j r) : Answered (s.arrive payload) j r :=
    ha.mono (fun d hm => hf.dispatched ▸ hm)
  refine ⟨?_,?_,?_,?_,?_⟩
  · intro j r hv
    by_cases hja : j = s.arrived
    · subst hja
      rw [hf.newest] at hv
      cases hv
    · rw [hf.others j hja] at hv
      exact mono (hc.value j r hv)
  · exact fun e r he => mono (hc.carried e r (hf.worker ▸ he))
  · exact fun e p he => hc.found e p (hf.worker ▸ he)
  · intro j r hr
    by_cases hja : j = s.arrived
    · subst hja
      rw [hf.newest] at hr
      cases hr
    · rw [hf.others j hja] at hr
      exact mono (hc.replies j r hr)
  · intro j
    by_cases hja : j = s.arrived
    · subst hja
      rw [hf.newest]
      exact Nat.zero_le 1
    · rw [hf.others j hja]
      exact hc.single j

theorem step_arrived {a : Action} (h : step s a = some s') : s.arrived ≤ s'.arrived := by
  cases a with
  | callback k ok => exact (callback_stable h).arrived
  | worker timedOut outcome => exact (worker_stable h).arrived
  | close c pick => exact (close_stable h).arrived
  | arrive payload =>
    obtain rfl := Option.some.inj h
    exact (arrive_stable payload).arrived
  | openTransport o ok =>
    obtain ⟨isOpen,openers,opens,he⟩ := openStep_fields (s := s) o ok
    obtain rfl := Option.some.inj h
    rw [he]
  | requestStop | clearStop =>
    obtain rfl := Option.some.inj h
    exact Nat.le_refl _
  | startWorker =>
    obtain ⟨-,rfl⟩ := startWorker_some h
    exact Nat.le_refl _

theorem step_correlated {a : Action} (hw : WellFormed s) (hlt : s.arrived < 2 ^ 64)
    (hc : Correlated s) (h : step s a = some s') : Correlated s' := by
  cases a with
  | callback k ok => exact callback_correlated hw hc h
  | worker timedOut outcome => exact worker_correlated hw hlt hc h
  | close c pick => exact close_correlated hc h
  | arrive payload =>
    obtain rfl := Option.some.inj h
    exact arrive_correlated hc payload
  | openTransport o ok =>
    obtain ⟨isOpen,openers,opens,he⟩ := openStep_fields (s := s) o ok
    obtain rfl := Option.some.inj h
    rw [he]
    exact ⟨hc.value,hc.carried,hc.found,hc.replies,hc.single⟩
  | requestStop | clearStop =>
    obtain rfl := Option.some.inj h
    exact ⟨hc.value,hc.carried,hc.found,hc.replies,hc.single⟩
  | startWorker =>
    obtain ⟨-,rfl⟩ := startWorker_some h
    refine ⟨hc.value,?_,?_,hc.replies,hc.single⟩ <;> intro _ _ he <;> cases he

theorem run_correlated {as : List Action} (few : s.arrived < 2 ^ 64)
    (h : Transition.run step (System.initial true) as = some s) : Correlated s := by
  have hi : WellFormed s ∧ (s.arrived < 2 ^ 64 → Correlated s) := by
    refine Transition.run_invariant
      (I := fun s => WellFormed s ∧ (s.arrived < 2 ^ 64 → Correlated s)) ?_ ?_ h
    · rintro s a t ⟨hw,hc⟩ hs
      refine ⟨step_wellFormed hw hs,fun hlt => ?_⟩
      have := step_arrived hs
      exact step_correlated hw (by omega) (hc (by omega)) hs
    · refine ⟨wellFormed_initial,fun _ => ?_⟩
      constructor <;> simp [System.initial,WorkerPc.carried,WorkerPc.found]
  exact hi.2 few

structure ServerCorrelation (s : System) : Prop where
  reply : ∀ k r, r ∈ (s.callbacks k).replies → ∃ d ∈ s.dispatched,
    d.entry.message = ⟨.request,(s.callbacks k).payload.getD [],(s.callbacks k).id⟩ ∧
    d.outcome.response = some r ∧
    ∀ d' ∈ s.dispatched, d'.entry.message.correlationId = (s.callbacks k).id → d' = d
  once : ∀ k, (s.callbacks k).replies.length ≤ 1
  distinct : ∀ j k, (s.callbacks j).pc ≠ .absent → (s.callbacks k).pc ≠ .absent →
    (s.callbacks j).id = (s.callbacks k).id → j = k
  stale : ∀ e payload timedOut outcome s', s.worker = .atFind e payload →
    s.pending.lookup e.message.correlationId = none →
    step s (.worker timedOut outcome) = some s' →
    s'.worker = .atLoop ∧ s'.callbacks = s.callbacks ∧ s'.pending = s.pending
  own : ∀ timedOut outcome s' k, step s (.worker timedOut outcome) = some s' →
    (∀ e, s.worker.incoming = some e → e.message.correlationId ≠ (s.callbacks k).id) →
    s'.callbacks k = s.callbacks k

theorem present_of_pc (hw : WellFormed s) (h : (s.callbacks k).pc ≠ .absent) : k < s.arrived := by
  by_contra hk
  exact h (hw.fresh k (by omega)).1

theorem reply_dispatched (hw : WellFormed s) (ho : AcceptedOnce s) (few : s.arrived < 2 ^ 64)
    {r : DdsBytes} (h : Answered s k r) : ∃ d ∈ s.dispatched,
      d.entry.message = ⟨.request,(s.callbacks k).payload.getD [],(s.callbacks k).id⟩ ∧
      d.outcome.response = some r ∧
      ∀ d' ∈ s.dispatched, d'.entry.message.correlationId = (s.callbacks k).id → d' = d := by
  obtain ⟨d,hd,rfl,hr⟩ := h
  have hn := hw.dispatched d hd
  refine ⟨d,hd,?_,hr,?_⟩
  · rw [hn.2]
    simp [System.messageOf,hw.server]
  · intro d' hd' hid
    have hn' := hw.dispatched d' hd'
    refine dispatched_unique ho hd' hd ?_
    by_contra hne
    rw [hn'.2] at hid
    exact id_ne hw few hn'.1 hn.1 hne hid

theorem stale_reply {e : Queued} {payload : DdsBytes} (hpc : s.worker = .atFind e payload)
    (hnone : s.pending.lookup e.message.correlationId = none)
    (h : s.workerStep timedOut outcome = some s') :
    s'.worker = .atLoop ∧ s'.callbacks = s.callbacks ∧ s'.pending = s.pending := by
  have hp := (worker_frame h).pending
  cases worker_move h with
  | miss e' payload' was now lookup queue dispatched callbacks => exact ⟨now,callbacks,hp⟩
  | find e' payload' state was now lookup queue dispatched callbacks =>
    rw [hpc] at was
    cases was
    rw [hnone] at lookup
    cases lookup
  | poll was now queue dispatched callbacks => rw [hpc] at was; cases was
  | pop e' was now queue dispatched callbacks => rw [hpc] at was; cases was
  | dispatch e' was now queue dispatched callbacks => rw [hpc] at was; cases was
  | lockPending e' payload' was now queue dispatched callbacks => rw [hpc] at was; cases was
  | lockState e' payload' state was now queue dispatched callbacks => rw [hpc] at was; cases was
  | store e' payload' state was now queue dispatched callbacks => rw [hpc] at was; cases was

theorem reply_own (hw : WellFormed s) (hc : Correlated s)
    (h : s.workerStep timedOut outcome = some s')
    (hid : ∀ e, s.worker.incoming = some e → e.message.correlationId ≠ (s.callbacks k).id) :
    s'.callbacks k = s.callbacks k := by
  cases worker_move h with
  | store e payload state was now queue dispatched callbacks =>
    have hin : s.worker.incoming = some e := by rw [was]; rfl
    have hfound : state = e.callback := hc.found e state (by rw [was]; rfl)
    have hk : k ≠ state := by
      rintro rfl
      refine hid e hin ?_
      rw [(hw.incoming e hin).2,hfound]
      rfl
    rw [callbacks,Function.update_of_ne hk]
  | poll was now queue dispatched callbacks => rw [callbacks]
  | pop e was now queue dispatched callbacks => rw [callbacks]
  | dispatch e was now queue dispatched callbacks => rw [callbacks]
  | lockPending e payload was now queue dispatched callbacks => rw [callbacks]
  | miss e payload was now lookup queue dispatched callbacks => rw [callbacks]
  | find e payload state was now lookup queue dispatched callbacks => rw [callbacks]
  | lockState e payload state was now queue dispatched callbacks => rw [callbacks]

theorem zenoh_server_correlation (as : List Action) (s : System) (few : s.arrived < 2 ^ 64)
    (h : Transition.run step (System.initial true) as = some s) : ServerCorrelation s := by
  have hw := run_wellFormed h
  have ho := run_acceptedOnce h
  have hc := run_correlated few h
  refine ⟨?_,hc.single,?_,?_,?_⟩
  · exact fun k r hr => reply_dispatched hw ho few (hc.replies k r hr)
  · intro j k hj hk hid
    by_contra hne
    exact id_ne hw few (present_of_pc hw hj) (present_of_pc hw hk) hne hid
  · exact fun e payload timedOut outcome s' hpc hnone hs => stale_reply hpc hnone hs
  · exact fun timedOut outcome s' k hs hid => reply_own hw hc hs hid

def twoQueriesAnswered : List Action :=
  bringUp ++ [.arrive (some [1]),.arrive none] ++ callbackSteps 1 9 ++ callbackSteps 0 9 ++
    workerSteps 9 .notSet ++ workerSteps 8 (.returns [7]) ++ callbackSteps 0 4 ++ callbackSteps 1 4

theorem zenoh_server_correlation_two : ∃ s,
    Transition.run step (System.initial true) twoQueriesAnswered = some s ∧
    (s.callbacks 0).replies = [[7]] ∧ (s.callbacks 1).replies = [[]] ∧ ServerCorrelation s :=
  ⟨_,rfl,rfl,rfl,zenoh_server_correlation twoQueriesAnswered _ (by decide) rfl⟩

end DdsAbstract.Zenoh
