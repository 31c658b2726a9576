import DdsAbstract.Zenoh.LockOrder
import DdsAbstract.Zenoh.Queue

namespace DdsAbstract.Zenoh

variable {s s' : System} {k : Nat} {ok : Bool} {delivered : List DdsBytes}

def CallbackPc.sampling : CallbackPc → Bool
  | .atPayload | .atQueueLock | .atEnqueueCheck | .atPush => true
  | _ => false

def payloads (entries : List Queued) : List DdsBytes := entries.map (·.message.payload)

def pushed (s : System) (k : Nat) (ok : Bool) : List Queued :=
  if (s.callbacks k).pc = .atPush ∧ ok then [⟨s.messageOf k,k,s.opens⟩] else []

def inFlight (s : System) : List DdsBytes :=
  match s.arrived with
  | 0 => []
  | k + 1 => if (s.callbacks k).pc.sampling then [(s.messageOf k).payload] else []

-- `delivered` are the samples for which the backend has called `on_sample`, one after the other.
structure Flow (s : System) (delivered : List DdsBytes) : Prop where
  isServer : s.isServer = false
  locks : LockInvariant s
  early : ∀ j, j + 1 < s.arrived → (s.callbacks j).pc = .left
  current : ∀ j, j + 1 = s.arrived →
    (s.callbacks j).pc.sampling = true ∨ (s.callbacks j).pc = .left
  kinds : ∀ e ∈ accepted s, e.message.kind = .broadcast
  worker : s.worker.incoming = none ∨ ∃ e, s.worker = .atDispatch e
  order : (payloads (accepted s) ++ inFlight s).Sublist delivered

inductive SampleMove (s s' : System) (k : Nat) (ok : Bool) : Prop
  | goes (now : (s'.callbacks k).pc.sampling = true) (pushed : pushed s k ok = [])
  | leaves (now : (s'.callbacks k).pc = .left) (pushed : pushed s k ok = [])
  | pushes (now : (s'.callbacks k).pc = .left) (pushed : pushed s k ok = [⟨s.messageOf k,k,s.opens⟩])

theorem sample_move (hs : s.isServer = false) (hk : (s.callbacks k).pc.sampling = true)
    (h : s.callbackStep k ok = some s') :
    accepted s' = accepted s ++ pushed s k ok ∧ SampleMove s s' k ok := by
  unfold System.callbackStep at h
  cases hpc : (s.callbacks k).pc <;> simp only [hpc,CallbackPc.sampling] at h hk
  case atPayload =>
    obtain rfl := Option.some.inj h
    refine ⟨by simp [pushed,hpc,accepted,System.goto,System.setCallback],?_⟩
    cases ok
    · exact .leaves (by simp [System.goto,System.setCallback]) (by simp [pushed,hpc])
    · exact .goes (by simp [System.goto,System.setCallback,CallbackPc.sampling]) (by simp [pushed,hpc])
  case atQueueLock =>
    obtain ⟨-,rfl⟩ := acquire_map_eq_some.mp h
    refine ⟨by simp [pushed,hpc,accepted,System.goto,System.setCallback],?_⟩
    exact .goes (by simp [System.goto,System.setCallback,CallbackPc.sampling]) (by simp [pushed,hpc])
  case atEnqueueCheck =>
    split at h <;> obtain rfl := Option.some.inj h
    · refine ⟨by simp [pushed,hpc,accepted,System.goto,System.setCallback],?_⟩
      exact .goes (by simp [System.goto,System.setCallback,CallbackPc.sampling])
        (by simp [pushed,hpc])
    · refine ⟨by simp [pushed,hpc,accepted,System.goto,System.setCallback,System.release],?_⟩
      exact .leaves (by simp [System.goto,System.setCallback,System.release,System.afterEnqueue,hs])
        (by simp [pushed,hpc])
  case atPush =>
    split at h <;> obtain rfl := Option.some.inj h <;> rename_i hok
    · refine ⟨by simp [pushed,hpc,hok,accepted,System.pushBack,System.setCallback,System.release],?_⟩
      exact .pushes (by simp [System.setCallback,System.release,System.afterEnqueue,hs])
        (by simp [pushed,hpc,hok])
    · refine ⟨by simp [pushed,hok,accepted,System.goto,System.setCallback,System.release],?_⟩
      exact .leaves (by simp [System.goto,System.setCallback,System.release]) (by simp [pushed,hok])
  all_goals cases hk

theorem inFlight_current (h : k + 1 = s.arrived) :
    inFlight s = if (s.callbacks k).pc.sampling then [(s.messageOf k).payload] else [] := by
  simp only [inFlight,← h]

theorem callback_current (hf : Flow s delivered) (h : s.callbackStep k ok = some s') :
    k + 1 = s.arrived ∧ (s.callbacks k).pc.sampling = true := by
  have absent := (callback_frame h).present
  have here : ¬ (s.callbacks k).pc = .left := by
    intro hl
    simp [System.callbackStep,hl] at h
  have hlt : k < s.arrived := by
    by_contra hge
    exact absent (hf.locks.absent k (by omega))
  have current : k + 1 = s.arrived := by
    by_contra hne
    exact here (hf.early k (by omega))
  exact ⟨current,(hf.current k current).resolve_right here⟩

theorem callback_flow (hf : Flow s delivered) (h : s.callbackStep k ok = some s') :
    Flow s' delivered ∧ accepted s' = accepted s ++ pushed s k ok := by
  have frame := callback_frame h
  obtain ⟨current,sampling⟩ := callback_current hf h
  obtain ⟨list,move⟩ := sample_move hf.isServer sampling h
  have locks : LockInvariant s' := step_lockInvariant (a := .callback k ok) hf.locks h
  have same : (s'.messageOf k).payload = (s.messageOf k).payload := by
    simp only [System.messageOf,frame.payload]
  have before : inFlight s = [(s.messageOf k).payload] := by
    rw [inFlight_current current,sampling]
    rfl
  have after := inFlight_current (s := s') (k := k) (by rw [frame.arrived,current])
  have order := hf.order
  rw [before] at order
  refine ⟨⟨frame.isServer.trans hf.isServer,locks,?_,?_,?_,?_,?_⟩,list⟩
  · intro j hj
    rw [frame.arrived] at hj
    rw [frame.others j (by omega)]
    exact hf.early j hj
  · intro j hj
    obtain rfl : j = k := by
      rw [frame.arrived] at hj
      omega
    cases move with
    | goes now pushed => exact .inl now
    | leaves now pushed => exact .inr now
    | pushes now pushed => exact .inr now
  · intro e he
    rw [list,List.mem_append] at he
    rcases he with he | he
    · exact hf.kinds e he
    · cases move with
      | goes now pushed | leaves now pushed =>
        rw [pushed] at he
        cases he
      | pushes now pushed =>
        rw [pushed,List.mem_singleton] at he
        rw [he]
        simp [System.messageOf,hf.isServer]
  · rw [frame.worker]
    exact hf.worker
  · rw [list,after]
    cases move with
    | goes now pushed =>
      rw [pushed,List.append_nil,now,if_pos rfl,same]
      exact order
    | leaves now pushed =>
      rw [pushed,List.append_nil,now,if_neg (by decide),List.append_nil]
      exact (List.sublist_append_left _ _).trans order
    | pushes now pushed =>
      rw [pushed,now,if_neg (by decide),payloads,List.map_append,List.append_nil]
      exact order

theorem Flow.kept (hf : Flow s delivered) (locks : LockInvariant s')
    (isServer : s'.isServer = s.isServer) (arrived : s'.arrived = s.arrived)
    (list : accepted s' = accepted s) (kept : ∀ j, CallbackKept (s.callbacks j) (s'.callbacks j))
    (worker : s'.worker.incoming = none ∨ ∃ e, s'.worker = .atDispatch e) : Flow s' delivered := by
  have flight : inFlight s' = inFlight s := by
    cases harrived : s.arrived with
    | zero => simp [inFlight,arrived,harrived]
    | succ k =>
      simp only [inFlight,arrived,harrived,(kept k).pc,System.messageOf,(kept k).payload]
  refine ⟨isServer.trans hf.isServer,locks,?_,?_,?_,worker,?_⟩
  · intro j hj
    rw [(kept j).pc]
    exact hf.early j (arrived ▸ hj)
  · intro j hj
    rw [(kept j).pc]
    exact hf.current j (arrived ▸ hj)
  · rw [list]
    exact hf.kinds
  · rw [list,flight]
    exact hf.order

theorem worker_flow {timedOut : Bool} {outcome : HandlerOutcome} (hf : Flow s delivered)
    (h : s.workerStep timedOut outcome = some s') :
    Flow s' delivered ∧ accepted s' = accepted s := by
  have frame := worker_frame h
  have list := worker_accepted h
  have locks : LockInvariant s' := step_lockInvariant (a := .worker timedOut outcome) hf.locks h
  refine ⟨hf.kept locks frame.isServer frame.arrived list (worker_kept h) ?_,list⟩
  cases worker_move h with
  | poll was now queue dispatched callbacks => exact .inl now
  | pop e was now queue dispatched callbacks => exact .inr ⟨e,now⟩
  | dispatch e was now queue dispatched callbacks =>
    have kind := hf.kinds e (by simp [accepted,was,WorkerPc.undispatched])
    rw [now]
    left
    cases outcome.response <;> simp [WorkerPc.afterDispatch,kind,WorkerPc.incoming]
  | lockPending e payload was now queue dispatched callbacks
  | miss e payload was now lookup queue dispatched callbacks
  | find e payload state was now lookup queue dispatched callbacks
  | lockState e payload state was now queue dispatched callbacks
  | store e payload state was now queue dispatched callbacks =>
    have idle := hf.worker
    rw [was] at idle
    simp [WorkerPc.incoming] at idle

theorem arrive_flow (hf : Flow s delivered) (data : DdsBytes)
    (settled : ∀ j, j + 1 = s.arrived → (s.callbacks j).pc = .left) :
    Flow (s.arrive (some data)) (delivered ++ [data]) ∧
      accepted (s.arrive (some data)) = accepted s := by
  have frame := arrive_frame (s := s) (some data)
  have list : accepted (s.arrive (some data)) = accepted s := by
    simp only [accepted,frame.dispatched,frame.worker,frame.queue]
  have step : step s (.arrive (some data)) = some (s.arrive (some data)) := rfl
  have before : inFlight s = [] := by
    cases harrived : s.arrived with
    | zero => simp [inFlight,harrived]
    | succ k =>
      simp only [inFlight,harrived,settled k harrived.symm]
      rfl
  have newest := frame.newest
  rw [hf.isServer] at newest
  refine ⟨⟨frame.isServer.trans hf.isServer,?_,?_,?_,?_,?_,?_⟩,list⟩
  · exact step_lockInvariant hf.locks step
  · intro j hj
    rw [frame.arrived] at hj
    rw [frame.others j (by omega)]
    by_cases hlast : j + 1 = s.arrived
    · exact settled j hlast
    · exact hf.early j (by omega)
  · intro j hj
    obtain rfl : j = s.arrived := by
      rw [frame.arrived] at hj
      omega
    rw [newest]
    exact .inl rfl
  · rw [list]
    exact hf.kinds
  · rw [frame.worker]
    exact hf.worker
  · have after : inFlight (s.arrive (some data)) = [data] := by
      rw [inFlight_current frame.arrived.symm,System.messageOf,newest]
      rfl
    have order := hf.order
    rw [before,List.append_nil] at order
    rw [list,after]
    exact order.append (List.Sublist.refl _)

end DdsAbstract.Zenoh
