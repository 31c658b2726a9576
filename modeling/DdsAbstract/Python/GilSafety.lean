import DdsAbstract.Python.Steps

namespace DdsAbstract.Python

variable {s s' : System} {a : Action} {t : Thread} {ok : Bool} {op : Operation}
  {received : Received}

def callable (s : System) : Bool :=
  s.hasTransport && (s.registered .message || s.registered .error)

structure GilHeld (s : System) : Prop where
  holds : ∀ t, (s.calls t).holdsGil = true → s.gil = some t
  released : ∀ t, (s.calls t).releasedGil = true → s.gil ≠ some t
  owner : s.gil = some .worker → ∃ c, s.worker = .inCallback c
  nested : s.calls .worker ≠ .outside → ∃ c, s.worker = .inCallback c

structure WorkerKnown (s : System) : Prop where
  starting : ∀ t, (s.calls t).starting = true → s.joinable = false
  joined : s.joinable = false → s.worker = .exited
  unready : s.ready = none → s.worker = .exited ∨ s.worker = .atConfigure
  failedReady : s.ready = some false → s.worker = .exited
  failed : ∀ t, (s.calls t).stopsFor .failedStart = true → s.worker = .exited
  polling : s.worker.polling = true → s.hasTransport = true
  carrying : ∀ c, s.worker.carries c = true → s.registered c = true
  mutex : s.callbackMutex = some .worker →
    s.worker.copying = true ∨ ∃ c, s.calls .worker = .atCallbackStore c

structure Lifetime (s : System) : Prop where
  references : ∀ t, s.calls t ≠ .outside →
    (s.calls t).stopsFor .destructor = true ∨ t ∈ s.references
  gone : s.destroyed = true → s.references = ∅
  destructing : ∀ t, (s.calls t).stopsFor .destructor = true → s.destroyed = true
  quiet : ∀ t, t ≠ .worker → (s.calls t).stopsFor .destructor = true →
    s.joinable = true → callable s = false

theorem starting_holds {pc : CallPc} (h : pc.starting = true) : pc.holdsGil = true := by
  cases pc <;> simp at h ⊢

theorem stopsFor_holds {pc : CallPc} {stopper : Stopper} (hs : stopper ≠ .method)
    (h : pc.stopsFor stopper = true) : pc.holdsGil = true := by
  cases pc <;> simp at h ⊢ <;> exact h ▸ hs

theorem call_worker (hw : WorkerKnown s) (h : s.callStep t ok = some s')
    (hc : s.worker ≠ .exited) : s'.worker = s.worker := by
  rcases (call_frame h).worker with ⟨same,-,-⟩ | ⟨spawn,-⟩
  · exact same
  · exact absurd (hw.joined (hw.starting t (by simp [spawn]))) hc

theorem call_inCallback (hw : WorkerKnown s) (h : s.callStep t ok = some s')
    (hc : ∃ c, s.worker = .inCallback c) : ∃ c, s'.worker = .inCallback c := by
  obtain ⟨c,hc⟩ := hc
  exact ⟨c,(call_worker hw h (by simp [hc])).trans hc⟩

theorem call_held (hg : GilHeld s) (hw : WorkerKnown s) (h : s.callStep t ok = some s') :
    GilHeld s' := by
  have frame := call_frame h
  refine ⟨?_,?_,?_,?_⟩
  · intro u hu
    by_cases hut : u = t
    · subst hut
      rcases frame.gil with same | ⟨-,-,outside⟩
      · exact same.trans (hg.holds u (frame.holdsGil hu))
      · simp [outside] at hu
    · rw [frame.others u hut] at hu
      rcases frame.gil with same | ⟨free,-,-⟩
      · exact same.trans (hg.holds u hu)
      · simp [hg.holds u hu] at free
  · intro u hu
    by_cases hut : u = t
    · subst hut
      rcases frame.gil with same | ⟨-,-,outside⟩
      · rw [same]
        exact hg.released u (frame.releasedGil hu)
      · simp [outside] at hu
    · rw [frame.others u hut] at hu
      rcases frame.gil with same | ⟨-,taken,-⟩
      · rw [same]
        exact hg.released u hu
      · rw [taken]
        intro hc
        exact hut (Option.some.inj hc).symm
  · intro howner
    rcases frame.gil with same | ⟨-,taken,-⟩
    · exact call_inCallback hw h (hg.owner (same ▸ howner))
    · obtain rfl : t = .worker := Option.some.inj (taken ▸ howner)
      exact call_inCallback hw h (hg.nested frame.present)
  · intro hcalls
    by_cases hut : t = .worker
    · subst hut
      exact call_inCallback hw h (hg.nested frame.present)
    · rw [frame.others .worker (Ne.symm hut)] at hcalls
      exact call_inCallback hw h (hg.nested hcalls)

theorem call_known (hg : GilHeld s) (hw : WorkerKnown s) (h : s.callStep t ok = some s') :
    WorkerKnown s' := by
  have frame := call_frame h
  -- Only `Start` makes the worker joinable, under the GIL that every other starter would hold.
  have spawned : s.calls t = .atSpawn → s.worker = .exited ∧
      ∀ u, (s.calls u).holdsGil = true → u = t := by
    intro spawn
    refine ⟨hw.joined (hw.starting t (by simp [spawn])),?_⟩
    intro u hu
    have held := hg.holds u hu
    rw [hg.holds t (by simp [spawn])] at held
    exact (Option.some.inj held).symm
  refine ⟨?_,?_,?_,?_,?_,?_,?_,?_⟩
  · intro u hu
    have idle : s.joinable = false := by
      by_cases hut : u = t
      · subst hut
        exact (frame.starting hu).elim (hw.starting u) id
      · exact hw.starting u (frame.others u hut ▸ hu)
    rcases frame.worker with ⟨-,-,same | ⟨-,joinable⟩⟩ | ⟨spawn,now,-⟩
    · exact same.trans idle
    · exact joinable
    · by_cases hut : u = t
      · simp [hut,now] at hu
      · rw [frame.others u hut] at hu
        exact absurd ((spawned spawn).2 u (starting_holds hu)) hut
  · intro hj
    rcases frame.worker with ⟨same,-,joinable | ⟨exited,-⟩⟩ | ⟨-,-,-,-,joinable⟩
    · exact same.trans (hw.joined (joinable ▸ hj))
    · exact same.trans exited
    · simp [joinable] at hj
  · intro hr
    rcases frame.worker with ⟨same,ready,-⟩ | ⟨-,-,now,-⟩
    · rw [same]
      exact hw.unready (ready ▸ hr)
    · exact .inr now
  · intro hr
    rcases frame.worker with ⟨same,ready,-⟩ | ⟨-,-,-,ready,-⟩
    · exact same.trans (hw.failedReady (ready ▸ hr))
    · simp [ready] at hr
  · intro u hu
    rcases frame.worker with ⟨same,-⟩ | ⟨spawn,now,-⟩
    · rw [same]
      by_cases hut : u = t
      · subst hut
        exact (frame.failed hu).elim (hw.failed u) hw.failedReady
      · exact hw.failed u (frame.others u hut ▸ hu)
    · by_cases hut : u = t
      · simp [hut,now] at hu
      · rw [frame.others u hut] at hu
        exact absurd ((spawned spawn).2 u (stopsFor_holds (by simp) hu)) hut
  · rcases frame.worker with ⟨same,-,-⟩ | ⟨-,-,now,-⟩
    · rw [same,frame.hasTransport]
      exact hw.polling
    · simp [now]
  · intro c hc
    rcases frame.worker with ⟨same,-,-⟩ | ⟨-,-,now,-⟩
    · exact frame.kept c (hw.carrying c (same ▸ hc))
    · simp [now] at hc
  · intro hm
    rcases frame.mutex with ⟨same,notStoring⟩ | ⟨taken,c,storing⟩ | free
    · rcases hw.mutex (same ▸ hm) with copying | ⟨c,storing⟩
      · have alive : s.worker ≠ .exited := by
          intro hexit
          simp [hexit] at copying
        exact .inl ((call_worker hw h alive).symm ▸ copying)
      · by_cases hut : t = .worker
        · exact absurd (hut ▸ storing) (notStoring c)
        · exact .inr ⟨c,(frame.others .worker (Ne.symm hut)).trans storing⟩
    · obtain rfl : t = .worker := Option.some.inj (taken ▸ hm)
      exact .inr ⟨c,storing⟩
    · simp [free] at hm

theorem call_lifetime (hl : Lifetime s) (h : s.callStep t ok = some s') : Lifetime s' := by
  have frame := call_frame h
  refine ⟨?_,?_,?_,?_⟩
  · intro u hu
    by_cases hut : u = t
    · subst hut
      rcases hl.references u frame.present with destructing | referenced
      · exact .inl ((frame.destructs destructing).resolve_left hu)
      · rcases frame.references with same | ⟨-,outside⟩
        · exact .inr (same ▸ referenced)
        · exact absurd outside hu
    · rw [frame.others u hut] at hu ⊢
      rcases hl.references u hu with destructing | referenced
      · exact .inl destructing
      · rcases frame.references with same | ⟨erased,-⟩
        · exact .inr (same ▸ referenced)
        · exact .inr (erased ▸ Finset.mem_erase.mpr ⟨hut,referenced⟩)
  · intro hd
    have gone := hl.gone (frame.destroyed ▸ hd)
    rcases frame.references with same | ⟨erased,-⟩
    · exact same.trans gone
    · simp [erased,gone]
  · intro u hu
    rw [frame.destroyed]
    by_cases hut : u = t
    · subst hut
      exact hl.destructing u (frame.destructing hu)
    · exact hl.destructing u (frame.others u hut ▸ hu)
  · intro u hu hd hj
    have before : (s.calls u).stopsFor .destructor = true := by
      by_cases hut : u = t
      · subst hut
        exact frame.destructing hd
      · exact frame.others u hut ▸ hd
    have own : (s.calls t).stopsFor .destructor = true := by
      refine (hl.references t frame.present).resolve_right ?_
      simp [hl.gone (hl.destructing u before)]
    have registered : s'.registered = s.registered := by
      rcases frame.registered with same | ⟨c,storing⟩
      · exact same
      · simp [storing] at own
    have joinable : s.joinable = true := by
      rcases frame.worker with ⟨-,-,same | ⟨-,joined⟩⟩ | ⟨spawn,-⟩
      · exact same ▸ hj
      · simp [joined] at hj
      · simp [spawn] at own
    simp only [callable,frame.hasTransport,registered]
    exact hl.quiet u hu before joinable

theorem worker_outside (hg : GilHeld s) (h : s.workerStep received ok = some s') :
    s.calls .worker = .outside := by
  by_contra hbusy
  obtain ⟨c,hc⟩ := hg.nested hbusy
  exact hbusy ((worker_frame h).idle c hc)

theorem worker_held (hg : GilHeld s) (h : s.workerStep received ok = some s') : GilHeld s' := by
  have frame := worker_frame h
  have outside := worker_outside hg h
  have busy {u : Thread} (hu : s.calls u ≠ .outside) : u ≠ .worker := fun hw => hu (hw ▸ outside)
  refine ⟨?_,?_,?_,?_⟩
  · intro u hu
    rw [frame.calls] at hu
    have held := hg.holds u hu
    rcases frame.gil with ⟨same,-⟩ | ⟨free,-⟩ | ⟨mine,-⟩
    · exact same.trans held
    · simp [held] at free
    · rw [held] at mine
      exact absurd (Option.some.inj mine) (busy (by intro hc; simp [hc] at hu))
  · intro u hu
    rw [frame.calls] at hu
    rcases frame.gil with ⟨same,-⟩ | ⟨-,taken,-⟩ | ⟨-,free⟩
    · rw [same]
      exact hg.released u hu
    · rw [taken]
      intro hc
      exact busy (by intro hc; simp [hc] at hu) (Option.some.inj hc).symm
    · simp [free]
  · intro howner
    rcases frame.gil with ⟨same,idle⟩ | ⟨-,-,c,now⟩ | ⟨-,free⟩
    · obtain ⟨c,hc⟩ := hg.owner (same ▸ howner)
      exact absurd hc (idle c)
    · exact ⟨c,now⟩
    · simp [free] at howner
  · intro hcalls
    exact absurd (frame.calls ▸ outside) hcalls

theorem worker_known (hg : GilHeld s) (hw : WorkerKnown s) (h : s.workerStep received ok = some s') :
    WorkerKnown s' := by
  have frame := worker_frame h
  refine ⟨?_,?_,?_,?_,?_,?_,?_,?_⟩
  · rw [frame.calls,frame.joinable]
    exact hw.starting
  · intro hj
    exact absurd (hw.joined (frame.joinable ▸ hj)) frame.present
  · intro hr
    rcases frame.ready with ⟨was,-,same⟩ | ready | ⟨ready,-⟩
    · exact absurd (hw.unready (same ▸ hr)) (by simp [was,frame.present])
    · simp [ready] at hr
    · simp [ready] at hr
  · intro hr
    rcases frame.ready with ⟨-,-,same⟩ | ready | ⟨-,now⟩
    · exact absurd (hw.failedReady (same ▸ hr)) frame.present
    · simp [ready] at hr
    · exact now
  · intro u hu
    exact absurd (hw.failed u (frame.calls ▸ hu)) frame.present
  · intro hp
    rw [frame.hasTransport]
    exact (frame.polling hp).elim hw.polling id
  · intro c hc
    rw [frame.registered]
    exact (frame.carries c hc).elim (hw.carrying c) id
  · intro hm
    rcases frame.mutex with ⟨same,idle⟩ | ⟨-,copying⟩ | free
    · rcases hw.mutex (same ▸ hm) with copying | ⟨c,storing⟩
      · rw [copying] at idle
        cases idle
      · simp [worker_outside hg h] at storing
    · exact .inl copying
    · simp [free] at hm

theorem worker_lifetime (hl : Lifetime s) (h : s.workerStep received ok = some s') :
    Lifetime s' := by
  have frame := worker_frame h
  refine ⟨?_,?_,?_,?_⟩
  · rw [frame.calls,frame.references]
    exact hl.references
  · rw [frame.destroyed,frame.references]
    exact hl.gone
  · rw [frame.calls,frame.destroyed]
    exact hl.destructing
  · rw [frame.calls,frame.joinable]
    simp only [callable,frame.hasTransport,frame.registered]
    exact hl.quiet

theorem gil_held {g : Option Thread} (hg : GilHeld s) (hpy : s.inPython t = true)
    (hgil : (s.gil = none ∧ g = some t) ∨ (s.gil = some t ∧ g = none)) :
    GilHeld { s with gil := g } := by
  have outside := inPython_outside hpy
  refine ⟨?_,?_,?_,hg.nested⟩
  · intro u hu
    have held := hg.holds u hu
    rcases hgil with ⟨free,-⟩ | ⟨mine,-⟩
    · simp [held] at free
    · obtain rfl : u = t := Option.some.inj (held.symm.trans mine)
      simp [outside] at hu
  · intro u hu hc
    rcases hgil with ⟨-,taken⟩ | ⟨-,free⟩
    · obtain rfl : t = u := Option.some.inj (taken.symm.trans hc)
      simp [outside] at hu
    · simp [free] at hc
  · intro howner
    rcases hgil with ⟨-,taken⟩ | ⟨-,free⟩
    · obtain rfl : t = .worker := Option.some.inj (taken.symm.trans howner)
      exact inPython_worker hpy
    · simp [free] at howner

theorem gil_known {g : Option Thread} (hw : WorkerKnown s) : WorkerKnown { s with gil := g } :=
  ⟨hw.starting,hw.joined,hw.unready,hw.failedReady,hw.failed,hw.polling,hw.carrying,hw.mutex⟩

theorem gil_lifetime {g : Option Thread} (hl : Lifetime s) : Lifetime { s with gil := g } :=
  ⟨hl.references,hl.gone,hl.destructing,hl.quiet⟩

theorem invoke_held (hg : GilHeld s) (h : s.invoke t op = some s') : GilHeld s' := by
  have frame := invoke_frame h
  have alone {u : Thread} (hut : u ≠ t) : (s.calls u).holdsGil = false := by
    by_contra hu
    have held := hg.holds u (by simpa using hu)
    exact hut (Option.some.inj (held.symm.trans frame.held))
  refine ⟨?_,?_,?_,?_⟩
  · intro u hu
    by_cases hut : u = t
    · subst hut
      rcases frame.gil with ⟨same,-⟩ | ⟨-,released⟩
      · exact same.trans frame.held
      · rw [released] at hu
        cases hu
    · rw [frame.others u hut,alone hut] at hu
      cases hu
  · intro u hu
    rcases frame.gil with ⟨same,kept⟩ | ⟨free,-⟩
    · by_cases hut : u = t
      · subst hut
        rw [kept] at hu
        cases hu
      · rw [frame.others u hut] at hu
        rw [same]
        exact hg.released u hu
    · simp [free]
  · intro howner
    rw [frame.worker]
    rcases frame.gil with ⟨same,-⟩ | ⟨free,-⟩
    · exact hg.owner (same ▸ howner)
    · simp [free] at howner
  · intro hcalls
    rw [frame.worker]
    by_cases hut : t = .worker
    · exact inPython_worker (hut ▸ frame.inPython)
    · rw [frame.others .worker (Ne.symm hut)] at hcalls
      exact hg.nested hcalls

theorem invoke_known (hw : WorkerKnown s) (h : s.invoke t op = some s') : WorkerKnown s' := by
  have frame := invoke_frame h
  obtain ⟨notStarting,notFailed,notStoring⟩ := frame.pc
  refine ⟨?_,?_,?_,?_,?_,?_,?_,?_⟩
  · intro u hu
    rw [frame.joinable]
    by_cases hut : u = t
    · rw [hut,notStarting] at hu
      cases hu
    · exact hw.starting u (frame.others u hut ▸ hu)
  · rw [frame.joinable,frame.worker]
    exact hw.joined
  · rw [frame.ready,frame.worker]
    exact hw.unready
  · rw [frame.ready,frame.worker]
    exact hw.failedReady
  · intro u hu
    rw [frame.worker]
    by_cases hut : u = t
    · rw [hut,notFailed] at hu
      cases hu
    · exact hw.failed u (frame.others u hut ▸ hu)
  · rw [frame.worker,frame.hasTransport]
    exact hw.polling
  · rw [frame.worker,frame.registered]
    exact hw.carrying
  · intro hm
    rw [frame.worker]
    rcases hw.mutex (frame.mutex ▸ hm) with copying | ⟨c,storing⟩
    · exact .inl copying
    · by_cases hut : t = .worker
      · subst hut
        simp [inPython_outside frame.inPython] at storing
      · exact .inr ⟨c,(frame.others .worker (Ne.symm hut)).trans storing⟩

def DestroysAtRest (s : System) : Action → Prop
  | .invoke (.python _) .destroy => s.joinable = true → callable s = false
  | _ => True

theorem invoke_lifetime (hl : Lifetime s) (hC : DestroysAtRest s (.invoke t op))
    (h : s.invoke t op = some s') : Lifetime s' := by
  have frame := invoke_frame h
  have quietOthers : callable s' = callable s := by
    simp only [callable,frame.hasTransport,frame.registered]
  have alone {u : Thread} (hut : u ≠ t) : (s'.calls u).stopsFor .destructor = false := by
    by_contra hu
    rw [frame.others u hut] at hu
    have := hl.destructing u (by simpa using hu)
    simp [frame.alive] at this
  rcases frame.destroys with ⟨hop,unused,references,destroyed,pc⟩ | ⟨hop,references,destroyed,pc⟩
  · subst hop
    refine ⟨?_,?_,?_,?_⟩
    · intro u hu
      by_cases hut : u = t
      · subst hut
        simp [pc]
      · rw [frame.others u hut] at hu ⊢
        rw [references]
        exact hl.references u hu
    · exact fun _ => references.trans unused
    · exact fun _ _ => destroyed
    · intro u hu hd hj
      obtain rfl : u = t := by
        by_contra hut
        rw [alone hut] at hd
        cases hd
      rw [quietOthers]
      cases u with
      | worker => exact absurd rfl hu
      | python n => exact hC (frame.joinable ▸ hj)
  · have noDestructor : ∀ u, (s'.calls u).stopsFor .destructor = false := by
      intro u
      by_cases hut : u = t
      · exact hut ▸ pc
      · exact alone hut
    refine ⟨?_,?_,?_,?_⟩
    · intro u hu
      rw [references]
      by_cases hut : u = t
      · exact .inr (hut ▸ Finset.mem_insert_self _ _)
      · rw [frame.others u hut] at hu ⊢
        exact (hl.references u hu).imp id Finset.mem_insert_of_mem
    · intro hd
      simp [destroyed,frame.alive] at hd
    · intro u hu
      rw [noDestructor u] at hu
      cases hu
    · intro u _ hd
      rw [noDestructor u] at hd
      cases hd

structure GilInvariant (s : System) : Prop where
  held : GilHeld s
  known : WorkerKnown s
  lifetime : Lifetime s

theorem step_gilInvariant (hs : GilInvariant s) (hC : DestroysAtRest s a) (h : step s a = some s') :
    GilInvariant s' := by
  obtain ⟨held,known,lifetime⟩ := hs
  unfold step at h
  split at h
  · cases h
  · cases a with
    | takeGil t =>
      simp only [System.takeGil,Option.ite_none_right_eq_some,Option.some.injEq] at h
      obtain ⟨⟨hpy,free⟩,rfl⟩ := h
      exact ⟨gil_held held hpy (.inl ⟨free,rfl⟩),gil_known known,gil_lifetime lifetime⟩
    | dropGil t =>
      simp only [System.dropGil,Option.ite_none_right_eq_some,Option.some.injEq] at h
      obtain ⟨⟨hpy,mine⟩,rfl⟩ := h
      exact ⟨gil_held held hpy (.inr ⟨mine,rfl⟩),gil_known known,gil_lifetime lifetime⟩
    | invoke t op => exact ⟨invoke_held held h,invoke_known known h,invoke_lifetime lifetime hC h⟩
    | call t ok => exact ⟨call_held held known h,call_known held known h,call_lifetime lifetime h⟩
    | worker received ok =>
      exact ⟨worker_held held h,worker_known held known h,worker_lifetime lifetime h⟩

theorem gilInvariant_initial (isServer hasTransport : Bool) :
    GilInvariant (.initial isServer hasTransport) := by
  refine ⟨?_,?_,?_⟩ <;> constructor <;> simp [System.initial]

theorem waiting_carries (h : workerWaitsForGil s = true) :
    s.worker.polling = true ∧ ∃ c, s.worker.carries c = true := by
  unfold workerWaitsForGil at h
  cases hw : s.worker <;> simp [hw] at h ⊢

theorem waiting_outside (h : workerWaitsForGil s = true) :
    s.worker.copying = false ∧ ∀ c, s.worker = .inCallback c →
      ∀ d, s.calls .worker ≠ .atCallbackStore d := by
  unfold workerWaitsForGil at h
  cases hw : s.worker <;> simp only [hw,Bool.and_false] at h <;> try cases h
  case atGil => simp
  case inCallback =>
    refine ⟨rfl,?_⟩
    intro c hc d storing
    simp [storing] at h

theorem callable_of_waiting (hw : WorkerKnown s) (h : workerWaitsForGil s = true) :
    callable s = true := by
  obtain ⟨polling,c,carries⟩ := waiting_carries h
  have registered := hw.carrying c carries
  simp only [callable,hw.polling polling,Bool.true_and,Bool.or_eq_true]
  cases c with
  | message => exact .inl registered
  | error => exact .inr registered

theorem not_deadlock (hs : GilInvariant s) : ¬ Deadlock s := by
  rintro ⟨t,hgil,hwaits,hworker⟩
  obtain ⟨held,known,lifetime⟩ := hs
  obtain ⟨polling,-⟩ := waiting_carries hworker
  unfold waitsForWorker at hwaits
  split at hwaits
  case h_1 stopper hpc =>
    simp only [Bool.and_eq_true,decide_eq_true_eq] at hwaits
    obtain ⟨⟨other,joinable⟩,alive⟩ := hwaits
    cases stopper with
    | method => exact held.released t (by simp [hpc]) hgil
    | failedStart => exact alive (known.failed t (by simp [hpc]))
    | destructor =>
      have quiet := lifetime.quiet t other (by simp [hpc]) joinable
      rw [callable_of_waiting known hworker] at quiet
      cases quiet
  case h_2 callback hpc =>
    obtain ⟨notCopying,notStoring⟩ := waiting_outside hworker
    rcases known.mutex (by simpa using hwaits) with copying | ⟨c,storing⟩
    · rw [copying] at notCopying
      cases notCopying
    · obtain ⟨d,hd⟩ := held.nested (by simp [storing])
      exact notStoring d hd c storing
  case h_3 hpc =>
    rcases known.unready (by simpa using hwaits) with hw | hw
    all_goals simp [hw] at polling
  case h_4 => cases hwaits

theorem gil_safe (isServer hasTransport : Bool) (as : List Action) (s : System)
    (meets : Transition.Meets step DestroysAtRest (.initial isServer hasTransport) as)
    (h : Transition.run step (.initial isServer hasTransport) as = some s) : ¬ Deadlock s :=
  not_deadlock (Transition.run_invariant_of_meets
    (fun _ _ _ hs hC ha => step_gilInvariant hs hC ha)
    (gilInvariant_initial isServer hasTransport) meets h)

def destroysAtRest (s : System) : Action → Bool
  | .invoke (.python _) .destroy => !s.joinable || !callable s
  | _ => true

theorem destroysAtRest_sound (s : System) (a : Action) (h : destroysAtRest s a = true) :
    DestroysAtRest s a := by
  unfold destroysAtRest at h
  unfold DestroysAtRest
  split at h
  · intro hj
    simpa [hj] using h
  · trivial

def requestArrives : List Action :=
  [.takeGil (.python 0),.invoke (.python 0) (.register .message)] ++
    List.replicate 2 (.call (.python 0) true) ++ [.invoke (.python 0) .start] ++
    List.replicate 3 (.call (.python 0) true) ++ [.worker .nothing true,.call (.python 0) true] ++
    List.replicate 4 (.worker .message true)

def destroyedRunning : List Action :=
  requestArrives ++ [.invoke (.python 0) .destroy] ++ List.replicate 3 (.call (.python 0) true)

def stoppedThenDestroyed : List Action :=
  requestArrives ++ [.invoke (.python 0) .stop] ++ List.replicate 3 (.call (.python 0) true) ++
    List.replicate 4 (.worker .nothing true) ++ List.replicate 2 (.call (.python 0) true) ++
    [.invoke (.python 0) .destroy,.call (.python 0) true]

theorem gil_safe_stopped : ∃ s,
    Transition.run step (.initial true true) stoppedThenDestroyed = some s ∧ s.destroyed = true ∧
      ¬ Deadlock s :=
  ⟨_,rfl,rfl,gil_safe true true stoppedThenDestroyed _
    (Transition.meets_of_holdsAlong destroysAtRest_sound rfl) rfl⟩

theorem gil_safe_counterexample :
    ¬ ∀ (as : List Action) (s : System),
      Transition.run step (.initial true true) as = some s → ¬ Deadlock s := by
  intro h
  exact h destroyedRunning _ rfl ⟨.python 0,rfl,rfl,rfl⟩

end DdsAbstract.Python
