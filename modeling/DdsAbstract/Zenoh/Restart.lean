import DdsAbstract.Zenoh.Lifecycle
import DdsAbstract.Zenoh.Queue

namespace DdsAbstract.Zenoh.Lifecycle

variable {n n' : Node} {s s' : System} {a : Action} {k pick : Nat} {ok : Bool}

def RestartIsolated (s : System) : Prop := ∀ d ∈ s.dispatched, d.entry.epoch = d.epoch

def QueueEmptyAtOpen (n : Node) : Action → Prop
  | .life _ _ => n.life = .atOpen → n.system.isOpen = false → n.system.queue = []
  | _ => True

structure OwnEpoch (s : System) : Prop where
  backlog : ∀ e ∈ s.worker.undispatched ++ s.queue, e.epoch = s.opens
  dispatched : RestartIsolated s

def LifePc.serving : LifePc → Bool
  | .running | .atFlag | .closing | .atJoin => true
  | _ => false

structure Isolated (n : Node) : Prop where
  own : OwnEpoch n.system
  opener : n.system.openers 0 = true ↔ n.life = .opening
  worker : n.system.worker = .exited ∨ n.life.serving = true

theorem OwnEpoch.same (h : OwnEpoch s) (worker : s'.worker = s.worker) (queue : s'.queue = s.queue)
    (opens : s'.opens = s.opens) (dispatched : s'.dispatched = s.dispatched) : OwnEpoch s' :=
  ⟨by rw [worker,queue,opens]; exact h.backlog,fun d hd => h.dispatched d (dispatched ▸ hd)⟩

theorem callback_ownEpoch (h : OwnEpoch s) (ha : s.callbackStep k ok = some s') : OwnEpoch s' := by
  have hf := callback_frame ha
  have keep (queue : s'.queue = s.queue) : OwnEpoch s' :=
    h.same hf.worker queue hf.opens hf.dispatched
  cases callback_move ha with
  | push pc pc' pending queue he hr =>
    refine ⟨?_,fun d hd => h.dispatched d (hf.dispatched ▸ hd)⟩
    rw [hf.worker,queue,hf.opens,← List.append_assoc]
    intro e he
    rcases List.mem_append.mp he with he | he
    · exact h.backlog e he
    · rw [List.mem_singleton.mp he]
  | quiet pc pending queue he hr => exact keep queue
  | insert pc pending queue he hr => exact keep queue
  | reply value pc pc' sent pending queue he hr => exact keep queue
  | erase pc pc' pending queue he hr => exact keep queue

theorem worker_ownEpoch {timedOut : Bool} {outcome : HandlerOutcome} (h : OwnEpoch s)
    (ha : s.workerStep timedOut outcome = some s') : OwnEpoch s' := by
  have hf := worker_frame ha
  have keep (backlog : s'.worker.undispatched ++ s'.queue = s.worker.undispatched ++ s.queue)
      (dispatched : s'.dispatched = s.dispatched) : OwnEpoch s' :=
    ⟨by rw [backlog,hf.opens]; exact h.backlog,fun d hd => h.dispatched d (dispatched ▸ hd)⟩
  cases worker_move ha with
  | poll was now queue dispatched callbacks =>
    exact keep (by rw [queue,undispatched_of_incoming was,undispatched_of_incoming now]) dispatched
  | pop e was now queue dispatched callbacks =>
    exact keep (by rw [was,now,queue]; rfl) dispatched
  | dispatch e was now queue dispatched callbacks =>
    refine ⟨?_,?_⟩
    · rw [now,afterDispatch_undispatched,queue,hf.opens]
      exact fun x hx => h.backlog x (List.mem_append_right _ hx)
    · intro d hd
      rw [dispatched,List.mem_append,List.mem_singleton] at hd
      rcases hd with hd | rfl
      · exact h.dispatched d hd
      · exact h.backlog e (by simp [was,WorkerPc.undispatched])
  | lockPending e payload was now queue dispatched callbacks =>
    exact keep (by rw [was,now,queue]; rfl) dispatched
  | miss e payload was now lookup queue dispatched callbacks =>
    exact keep (by rw [was,now,queue]; rfl) dispatched
  | find e payload state was now lookup queue dispatched callbacks =>
    exact keep (by rw [was,now,queue]; rfl) dispatched
  | lockState e payload state was now queue dispatched callbacks =>
    exact keep (by rw [was,now,queue]; rfl) dispatched
  | store e payload state was now queue dispatched callbacks =>
    exact keep (by rw [was,now,queue]; rfl) dispatched

theorem worker_started {timedOut : Bool} {outcome : HandlerOutcome}
    (ha : s.workerStep timedOut outcome = some s') : s.worker ≠ .exited := by
  intro hw
  simp [System.workerStep,hw] at ha

theorem close_ownEpoch {c : Nat} (h : OwnEpoch s) (ha : s.closeStep c pick = some s') :
    OwnEpoch s' :=
  have hf := close_frame ha
  h.same hf.worker hf.queue hf.opens hf.dispatched

theorem closeStep_isolated {next : LifePc} (h : Isolated n) (hlife : n.life ≠ .opening)
    (hnext : n.life.serving = true → next.serving = true) (hopening : next ≠ .opening)
    (ha : n.closeStep pick next = some n') : Isolated n' := by
  obtain ⟨t,ht,rfl⟩ := Option.map_eq_some_iff.mp ha
  have hf := close_frame ht
  refine ⟨close_ownEpoch h.own ht,?_,?_⟩
  · simp only [hf.openers,h.opener,hlife,false_iff]
    split <;> assumption
  · simp only [hf.worker]
    rcases h.worker with hw | hw
    · exact .inl hw
    · right
      split
      · exact hnext hw
      · exact hw

theorem exchange_ownEpoch (h : OwnEpoch s) (hw : s.worker = .exited) (ho : s.isOpen = false)
    (hn : s.openers 0 = false) (hq : s.queue = []) :
    OwnEpoch (s.openStep 0 ok) ∧ (s.openStep 0 ok).openers 0 = true ∧
      (s.openStep 0 ok).worker = .exited := by
  simp only [System.openStep,hn,ho,Bool.false_eq_true,if_false,Function.update_self]
  exact ⟨⟨by simp [hw,hq,WorkerPc.undispatched],h.dispatched⟩,trivial,hw⟩

theorem finish_ownEpoch (h : OwnEpoch s) (hn : s.openers 0 = true) :
    OwnEpoch (s.openStep 0 ok) ∧ (s.openStep 0 ok).openers 0 = false ∧
      (s.openStep 0 ok).worker = s.worker := by
  simp only [System.openStep,hn,if_true,Function.update_self]
  exact ⟨h.same rfl rfl rfl rfl,trivial,trivial⟩

theorem lifeStep_isolated (h : Isolated n) (hC : QueueEmptyAtOpen n (.life ok pick))
    (ha : n.lifeStep ok pick = some n') : Isolated n' := by
  have opener := h.opener
  have hworker := h.worker
  unfold Node.lifeStep at ha
  cases hl : n.life <;> simp only [hl,LifePc.serving,Bool.false_eq_true,or_false,
    reduceCtorEq,iff_false,iff_true,Bool.not_eq_true] at ha opener hworker
  case atOpen =>
    split at ha
    · obtain rfl := Option.some.inj ha
      exact ⟨h.own,by simp [opener],.inl hworker⟩
    · rename_i ho
      obtain rfl := Option.some.inj ha
      have closed : n.system.isOpen = false := by simpa using ho
      obtain ⟨own,hopener,hexit⟩ :=
        exchange_ownEpoch h.own hworker closed opener (hC hl closed)
      exact ⟨own,by simp [hopener],.inl hexit⟩
  case opening =>
    obtain rfl := Option.some.inj ha
    obtain ⟨own,hopener,hexit⟩ := finish_ownEpoch h.own opener
    refine ⟨own,?_,.inl (hexit.trans hworker)⟩
    simp only [hopener,Bool.false_eq_true,false_iff]
    split <;> simp
  case stopped | opened =>
    obtain rfl := Option.some.inj ha
    refine ⟨h.own,?_,.inl hworker⟩
    simp only [opener,Bool.false_eq_true,false_iff]
    split <;> simp
  case atSpawn =>
    obtain rfl := Option.some.inj ha
    refine ⟨h.own.same rfl rfl rfl rfl,?_,.inl hworker⟩
    simp only [opener,Bool.false_eq_true,false_iff]
    split <;> simp
  case atReady =>
    split at ha
    · obtain ⟨t,ht,rfl⟩ := Option.map_eq_some_iff.mp ha
      simp only [System.startWorker,hworker,if_true,Option.some.injEq] at ht
      subst ht
      refine ⟨⟨?_,h.own.dispatched⟩,by simp [opener],.inr rfl⟩
      simpa [hworker,WorkerPc.undispatched] using h.own.backlog
    · obtain rfl := Option.some.inj ha
      exact ⟨h.own,by simp [opener],.inr rfl⟩
  case rollback =>
    exact closeStep_isolated h (by simp [hl]) (by simp [hl,LifePc.serving]) (by simp) ha
  case closing =>
    exact closeStep_isolated h (by simp [hl]) (fun _ => rfl) (by simp) ha
  case running =>
    obtain rfl := Option.some.inj ha
    exact ⟨h.own,by simp [opener],.inr rfl⟩
  case atFlag =>
    obtain rfl := Option.some.inj ha
    exact ⟨h.own.same rfl rfl rfl rfl,by simp [opener],.inr rfl⟩
  case atJoin =>
    split at ha
    · obtain rfl := Option.some.inj ha
      exact ⟨h.own,by simp [opener],.inl ‹_›⟩
    · cases ha

theorem step_isolated (h : Isolated n) (hC : QueueEmptyAtOpen n a) (ha : step n a = some n') :
    Isolated n' := by
  cases a with
  | life ok pick => exact lifeStep_isolated h hC ha
  | arrive payload =>
    obtain rfl := Option.some.inj ha
    have hf := arrive_frame (s := n.system) payload
    exact ⟨h.own.same hf.worker hf.queue hf.opens hf.dispatched,hf.openers ▸ h.opener,
      hf.worker ▸ h.worker⟩
  | callback k ok =>
    obtain ⟨t,ht,rfl⟩ := Option.map_eq_some_iff.mp ha
    have hf := callback_frame ht
    exact ⟨callback_ownEpoch h.own ht,hf.openers ▸ h.opener,hf.worker ▸ h.worker⟩
  | worker timedOut outcome =>
    obtain ⟨t,ht,rfl⟩ := Option.map_eq_some_iff.mp ha
    have hf := worker_frame ht
    exact ⟨worker_ownEpoch h.own ht,hf.openers ▸ h.opener,
      .inr (h.worker.resolve_left (worker_started ht))⟩

theorem isolated_initial (isServer : Bool) : Isolated (.initial isServer) := by
  refine ⟨⟨?_,?_⟩,?_,.inl rfl⟩ <;>
    simp [Node.initial,System.initial,WorkerPc.undispatched,RestartIsolated]

theorem run_restartIsolated {isServer : Bool} {as : List Action}
    (emptied : Transition.Meets step QueueEmptyAtOpen (.initial isServer) as)
    (h : Transition.run step (.initial isServer) as = some n) : RestartIsolated n.system :=
  (Transition.run_invariant_of_meets (I := Isolated) (fun _ _ _ hi hC ha => step_isolated hi hC ha)
    (isolated_initial isServer) emptied h).own.dispatched

end DdsAbstract.Zenoh.Lifecycle
