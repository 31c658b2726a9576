import DdsAbstract.Python.Binding

namespace DdsAbstract.Python

variable {s s' : System} {t : Thread} {ok : Bool} {op : Operation} {received : Received}

namespace CallPc

@[simp] def holdsGil : CallPc → Bool
  | .atCallbackLock _ | .atCallbackStore _ | .atEnsureNotRunning | .atOpen | .atSpawn | .atReady
  | .atPublish => true
  | .atCheck stopper | .atFlag stopper | .atClose stopper | .atJoin stopper => stopper ≠ .method
  | _ => false

@[simp] def releasedGil : CallPc → Bool
  | .atCheck stopper | .atFlag stopper | .atClose stopper | .atJoin stopper => stopper = .method
  | .atRequest | .atReacquire => true
  | _ => false

@[simp] def starting : CallPc → Bool
  | .atOpen | .atSpawn => true
  | _ => false

@[simp] def stopsFor (stopper : Stopper) : CallPc → Bool
  | .atCheck w | .atFlag w | .atClose w | .atJoin w => w = stopper
  | _ => false

end CallPc

namespace WorkerPc

@[simp] def polling : WorkerPc → Bool
  | .exited | .atConfigure | .atLoop => false
  | _ => true

@[simp] def carries (callback : Callback) : WorkerPc → Bool
  | .atGil c | .inCallback c => c = callback
  | _ => false

@[simp] def copying : WorkerPc → Bool
  | .atCopy _ => true
  | _ => false

end WorkerPc

structure CallFrame (s s' : System) (t : Thread) : Prop where
  hasTransport : s'.hasTransport = s.hasTransport
  destroyed : s'.destroyed = s.destroyed
  others : ∀ u, u ≠ t → s'.calls u = s.calls u
  present : s.calls t ≠ .outside
  gil : s'.gil = s.gil ∨ (s.gil = none ∧ s'.gil = some t ∧ s'.calls t = .outside)
  holdsGil : (s'.calls t).holdsGil = true → (s.calls t).holdsGil = true
  releasedGil : (s'.calls t).releasedGil = true → (s.calls t).releasedGil = true
  starting : (s'.calls t).starting = true → (s.calls t).starting = true ∨ s.joinable = false
  failed : (s'.calls t).stopsFor .failedStart = true →
    (s.calls t).stopsFor .failedStart = true ∨ s.ready = some false
  destructing : (s'.calls t).stopsFor .destructor = true →
    (s.calls t).stopsFor .destructor = true
  destructs : (s.calls t).stopsFor .destructor = true →
    s'.calls t = .outside ∨ (s'.calls t).stopsFor .destructor = true
  mutex : (s'.callbackMutex = s.callbackMutex ∧ ∀ c, s.calls t ≠ .atCallbackStore c) ∨
    (s'.callbackMutex = some t ∧ ∃ c, s'.calls t = .atCallbackStore c) ∨ s'.callbackMutex = none
  kept : ∀ c, s.registered c = true → s'.registered c = true
  registered : s'.registered = s.registered ∨ ∃ c, s.calls t = .atCallbackStore c
  references : s'.references = s.references ∨
    (s'.references = s.references.erase t ∧ s'.calls t = .outside)
  worker : (s'.worker = s.worker ∧ s'.ready = s.ready ∧
      (s'.joinable = s.joinable ∨ (s.worker = .exited ∧ s'.joinable = false))) ∨
    (s.calls t = .atSpawn ∧ s'.calls t = .atReady ∧ s'.worker = .atConfigure ∧ s'.ready = none ∧
      s'.joinable = true)

theorem call_frame (h : s.callStep t ok = some s') : CallFrame s s' t := by
  unfold System.callStep at h
  cases hpc : s.calls t <;> simp only [hpc] at h
  case outside => cases h
  case atCallbackLock callback =>
    split at h
    · obtain rfl := Option.some.inj h
      constructor <;> simp +contextual [hpc]
    · cases h
  case atCallbackStore callback =>
    obtain rfl := Option.some.inj h
    constructor <;> simp +contextual [hpc,Function.update_apply]
  case atEnsureNotRunning =>
    obtain rfl := Option.some.inj h
    cases hj : s.joinable <;> constructor <;> simp +contextual [hpc,hj]
  case atOpen =>
    obtain rfl := Option.some.inj h
    cases ok <;> constructor <;> simp +contextual [hpc]
  case atSpawn =>
    split at h <;> obtain rfl := Option.some.inj h <;> constructor <;> simp +contextual [hpc]
  case atReady =>
    split at h
    · cases h
    all_goals
      obtain rfl := Option.some.inj h
      rename_i hr
      constructor <;> simp +contextual [hpc,hr]
  case atPublish | atRequest | atFlag stopper | atClose stopper =>
    obtain rfl := Option.some.inj h
    constructor <;> simp +contextual [hpc]
  case atCheck stopper =>
    obtain rfl := Option.some.inj h
    cases stopper <;> cases hj : s.joinable <;> constructor <;> simp +contextual [hpc]
  case atJoin stopper =>
    split at h
    · obtain rfl := Option.some.inj h
      constructor <;> simp +contextual [hpc]
    · split at h
      · obtain rfl := Option.some.inj h
        rename_i hexit
        cases stopper <;> constructor <;> simp +contextual [hpc,hexit]
      · cases h
  case atReacquire =>
    split at h
    · obtain rfl := Option.some.inj h
      rename_i hg
      constructor <;> simp +contextual [hpc,hg]
    · cases h

structure WorkerFrame (s s' : System) : Prop where
  hasTransport : s'.hasTransport = s.hasTransport
  destroyed : s'.destroyed = s.destroyed
  calls : s'.calls = s.calls
  references : s'.references = s.references
  joinable : s'.joinable = s.joinable
  registered : s'.registered = s.registered
  present : s.worker ≠ .exited
  gil : (s'.gil = s.gil ∧ ∀ c, s.worker ≠ .inCallback c) ∨
    (s.gil = none ∧ s'.gil = some .worker ∧ ∃ c, s'.worker = .inCallback c) ∨
    (s.gil = some .worker ∧ s'.gil = none)
  idle : ∀ c, s.worker = .inCallback c → s.calls .worker = .outside
  ready : (s.worker ≠ .atConfigure ∧ s'.worker ≠ .atConfigure ∧ s'.ready = s.ready) ∨
    s'.ready = some true ∨ (s'.ready = some false ∧ s'.worker = .exited)
  polling : s'.worker.polling = true → s.worker.polling = true ∨ s.hasTransport = true
  carries : ∀ c, s'.worker.carries c = true → s.worker.carries c = true ∨ s.registered c = true
  mutex : (s'.callbackMutex = s.callbackMutex ∧ s.worker.copying = false) ∨
    (s'.callbackMutex = some .worker ∧ s'.worker.copying = true) ∨ s'.callbackMutex = none

theorem afterCallback_pc (s : System) (callback : Callback) (ok : Bool) :
    s.afterCallback callback ok = .atLoop ∨ s.afterCallback callback ok = .atReply ∨
      s.afterCallback callback ok = .atCatch := by
  cases callback <;> cases ok <;> cases hs : s.isServer <;> simp [System.afterCallback,hs]

theorem worker_frame (h : s.workerStep received ok = some s') : WorkerFrame s s' := by
  unfold System.workerStep at h
  cases hpc : s.worker <;> simp only [hpc] at h
  case exited => cases h
  case atConfigure =>
    obtain rfl := Option.some.inj h
    cases ok <;> constructor <;> simp +contextual [hpc]
  case atLoop =>
    obtain rfl := Option.some.inj h
    cases s.stopRequested <;> cases ht : s.hasTransport <;> constructor <;>
      simp +contextual [hpc,ht]
  case atReceive =>
    obtain rfl := Option.some.inj h
    cases received <;> constructor <;> simp +contextual [hpc]
  case atLock callback =>
    split at h
    · obtain rfl := Option.some.inj h
      constructor <;> simp +contextual [hpc]
    · cases h
  case atCopy callback =>
    obtain rfl := Option.some.inj h
    cases hr : s.registered callback with
    | true => constructor <;> simp +contextual [hpc,hr]
    | false =>
      rcases afterCallback_pc s callback true with hn | hn | hn <;> constructor <;>
        simp +contextual [hpc,hn]
  case atGil callback =>
    split at h
    · obtain rfl := Option.some.inj h
      rename_i hg
      constructor <;> simp +contextual [hpc,hg]
    · cases h
  case inCallback callback =>
    split at h
    · obtain rfl := Option.some.inj h
      rename_i hg
      rcases afterCallback_pc s callback ok with hn | hn | hn <;> constructor <;>
        simp +contextual [hpc,hg,hn]
    · cases h
  case atReply =>
    obtain rfl := Option.some.inj h
    cases ok <;> constructor <;> simp +contextual [hpc]
  case atCatch =>
    obtain rfl := Option.some.inj h
    cases s.stopRequested <;> constructor <;> simp +contextual [hpc]

structure InvokeFrame (s s' : System) (t : Thread) (op : Operation) : Prop where
  hasTransport : s'.hasTransport = s.hasTransport
  joinable : s'.joinable = s.joinable
  ready : s'.ready = s.ready
  worker : s'.worker = s.worker
  registered : s'.registered = s.registered
  mutex : s'.callbackMutex = s.callbackMutex
  others : ∀ u, u ≠ t → s'.calls u = s.calls u
  inPython : s.inPython t = true
  held : s.gil = some t
  alive : s.destroyed = false
  gil : s'.gil = s.gil ∧ (s'.calls t).releasedGil = false ∨
    s'.gil = none ∧ (s'.calls t).holdsGil = false
  pc : (s'.calls t).starting = false ∧ (s'.calls t).stopsFor .failedStart = false ∧
    ∀ c, s'.calls t ≠ .atCallbackStore c
  destroys : (op = .destroy ∧ s.references = ∅ ∧ s'.references = s.references ∧
      s'.destroyed = true ∧ s'.calls t = .atCheck .destructor) ∨
    (op ≠ .destroy ∧ s'.references = insert t s.references ∧ s'.destroyed = s.destroyed ∧
      (s'.calls t).stopsFor .destructor = false)

theorem invoke_frame (h : s.invoke t op = some s') : InvokeFrame s s' t op := by
  unfold System.invoke at h
  split at h
  · rename_i hc
    obtain ⟨u,hu,rfl⟩ := Option.map_eq_some_iff.mp h
    obtain ⟨hpy,hgil,halive⟩ := hc
    cases op <;> simp only [System.enter] at hu
    case register callback | start | stop =>
      obtain rfl := Option.some.inj hu
      constructor <;> simp_all
    case publish =>
      split at hu
      · obtain rfl := Option.some.inj hu
        constructor <;> simp_all
      · cases hu
    case request =>
      split at hu
      · cases hu
      · obtain rfl := Option.some.inj hu
        constructor <;> simp_all
    case destroy =>
      split at hu
      · obtain rfl := Option.some.inj hu
        constructor <;> simp_all
      · cases hu
  · cases h

theorem inPython_outside (h : s.inPython t = true) : s.calls t = .outside := by
  unfold System.inPython at h
  simp only [Bool.and_eq_true,decide_eq_true_eq] at h
  exact h.1

theorem inPython_worker (h : s.inPython .worker = true) : ∃ c, s.worker = .inCallback c := by
  unfold System.inPython at h
  cases hw : s.worker <;> simp [hw] at h
  exact ⟨_,rfl⟩

end DdsAbstract.Python
