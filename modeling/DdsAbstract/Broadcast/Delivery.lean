import DdsAbstract.Broadcast.Order

namespace DdsAbstract.Broadcast

variable {s s' : System} {c : Nat} {n : Zenoh.Lifecycle.Node} {z : ZeroMq.Node.System}
  {outcome : HandlerOutcome} {delivered : List DdsBytes}

def Action.ofLife (c : Nat) : Action → Bool
  | .client d (.zeroMq (.life ..)) | .client d (.zenoh (.life ..)) => d = c
  | _ => false

def Action.ofWorker (c : Nat) : Action → Bool
  | .client d (.zeroMq (.worker ..)) | .client d (.zenoh (.worker ..)) => d = c
  | _ => false

def Action.ofReceiver (c : Nat) (outcome : HandlerOutcome) : Action → Bool
  | .client d (.zeroMq (.worker o)) | .client d (.zenoh (.worker _ o)) => d = c ∧ o = outcome
  | .client d (.zenoh (.callback ..)) => d = c
  | _ => false

def Action.ofZenoh (c : Nat) : Zenoh.Action → Action
  | .callback k ok => .client c (.zenoh (.callback k ok))
  | .worker timedOut outcome => .client c (.zenoh (.worker timedOut outcome))
  | _ => .drop c

def invoked (s : System) (c : Nat) : List DdsBytes :=
  ((s.handled c).filter (fun d => d.outcome ≠ .notSet)).map (·.payload)

def Client.waiting : Client → List DdsBytes
  | .zeroMq s => (ZeroMq.Node.pending s).map (·.data)
  | .zenoh n => Zenoh.payloads (n.system.worker.undispatched ++ n.system.queue)

def Client.running : Client → Prop
  | .zeroMq s => s.life = .running
  | .zenoh n => n.life = .running

def received (s : System) (c : Nat) : List DdsBytes :=
  (s.handled c).map (·.payload) ++ (s.clients c).waiting

def Serves (s : System) (c : Nat) : Prop := (s.clients c).running

def backlog (m : Nat) (c : Nat) (s : System) : Nat :=
  match s.clients c with
  | .zeroMq z => 6 * (m - (s.handled c).length) + z.worker.rank
  | .zenoh n => Zenoh.backlogRank m n.system

theorem zenoh_ok (h : Ordered s) (hc : s.clients c = .zenoh n) : ∃ delivered,
    Zenoh.Flow n.system delivered ∧ Zenoh.Lifecycle.Running n ∧
      s.accepted c = Zenoh.payloads (Zenoh.accepted n.system) ∧ s.handled c = entries n := by
  obtain ⟨delivered,-,ok⟩ := h.clients c
  rw [hc] at ok
  exact ⟨delivered,ok⟩

theorem zeroMq_ok (h : Ordered s) (hc : s.clients c = .zeroMq z) : ZeroMq.Node.Listening z := by
  obtain ⟨delivered,-,ok⟩ := h.clients c
  rw [hc] at ok
  exact ok.1

theorem received_zeroMq (hc : s.clients c = .zeroMq z) :
    received s c = (s.handled c).map (·.payload) ++ (ZeroMq.Node.pending z).map (·.data) := by
  rw [received,hc]
  rfl

theorem handled_length (hh : s.handled c = entries n) :
    (s.handled c).length = n.system.dispatched.length := by
  rw [hh,entries,List.length_map]

theorem accepted_eq (h : Ordered s) (hc : s.clients c = .zenoh n) : s.accepted c = received s c := by
  obtain ⟨-,-,-,hacc,hhand⟩ := zenoh_ok h hc
  rw [received,hacc,hhand,hc]
  simp [Zenoh.payloads,Zenoh.accepted,entries,Client.waiting]

theorem zenoh_serving (h : Ordered s) (hc : s.clients c = .zenoh n) (hl : n.life = .running) :
    ∃ delivered, Zenoh.Serving n.system delivered := by
  obtain ⟨delivered,flow,running,-,-⟩ := zenoh_ok h hc
  refine ⟨delivered,flow,running.worker hl,running.notStopped (.inr hl),?_⟩
  intro closer
  by_contra hbusy
  rcases (running.idle closer hbusy).2 with closing | closing
  all_goals
    rw [hl] at closing
    cases closing

inductive ClientMove (s s' : System) (c : Nat) (a : Action) : Prop
  | rests (client : s'.clients c = s.clients c) (accepted : s'.accepted c = s.accepted c)
      (handled : s'.handled c = s.handled c) (turn : a.ofWorker c = false)
  | receives (data : DdsBytes) (client : (s.clients c).deliver data = some (s'.clients c))
      (accepted : s'.accepted c = s.accepted c) (handled : s'.handled c = s.handled c)
      (turn : a.ofWorker c = false)
  | acts (action : ClientAction) (same : a = .client c action)
      (client : (s.clients c).step action = some (s'.clients c))
      (accepted : s'.accepted c = s.accepted c ++ (s.clients c).acceptedNow action)
      (handled : s'.handled c = s.handled c ++ (s.clients c).handledNow action)

theorem step_client {a : Action} (h : step s a = some s') : ClientMove s s' c a := by
  cases a with
  | server action =>
    obtain rfl := Option.some.inj h
    exact .rests rfl rfl rfl rfl
  | publish n data ok =>
    obtain ⟨server,-,rfl⟩ := Option.map_eq_some_iff.mp h
    exact .rests rfl rfl rfl rfl
  | drop d =>
    cases hw : s.wire d <;> simp only [step,hw] at h
    case nil => cases h
    case cons data rest =>
      obtain rfl := Option.some.inj h
      exact .rests rfl rfl rfl rfl
  | deliver d =>
    cases hw : s.wire d <;> simp only [step,hw] at h
    case nil => cases h
    case cons data rest =>
      obtain ⟨client,hclient,rfl⟩ := Option.map_eq_some_iff.mp h
      by_cases hd : c = d
      · subst hd
        exact .receives data (by simpa using hclient) rfl rfl rfl
      · exact .rests (by simp [hd]) rfl rfl rfl
  | client d action =>
    obtain ⟨client,hclient,rfl⟩ := Option.map_eq_some_iff.mp h
    by_cases hd : c = d
    · subst hd
      exact .acts action rfl (by simpa using hclient) (by simp) (by simp)
    · refine .rests (by simp [hd]) (by simp [hd]) (by simp [hd]) ?_
      simp only [Action.ofWorker]
      split <;> simp_all [eq_comm]

theorem step_logs {a : Action} (h : step s a = some s') :
    s.accepted c <+: s'.accepted c ∧ s.handled c <+: s'.handled c := by
  cases step_client (c := c) h with
  | rests client accepted handled turn | receives data client accepted handled turn =>
    rw [accepted,handled]
    exact ⟨List.prefix_rfl,List.prefix_rfl⟩
  | acts action same client accepted handled =>
    rw [accepted,handled]
    exact ⟨List.prefix_append _ _,List.prefix_append _ _⟩

inductive ZenohTurn (n : Zenoh.Lifecycle.Node) (t : Zenoh.System) : ClientAction → Prop
  | callback (k : Nat) (ok : Bool) (moved : n.system.callbackStep k ok = some t) :
    ZenohTurn n t (.zenoh (.callback k ok))
  | worker (timedOut : Bool) (outcome : HandlerOutcome)
    (moved : n.system.workerStep timedOut outcome = some t) :
    ZenohTurn n t (.zenoh (.worker timedOut outcome))

theorem zenoh_acts {action : ClientAction} {client : Client}
    (ha : (Action.client c action).ofLife c = false)
    (h : (Client.zenoh n).step action = some client) :
    ∃ t, client = .zenoh { n with system := t } ∧ ZenohTurn n t action := by
  cases action with
  | zeroMq action => cases h
  | zenoh action =>
    cases action with
    | life ok pick => simp [Action.ofLife] at ha
    | arrive payload => cases h
    | callback k ok =>
      obtain ⟨m,hm,rfl⟩ := Option.map_eq_some_iff.mp h
      obtain ⟨t,ht,rfl⟩ := Option.map_eq_some_iff.mp hm
      exact ⟨t,rfl,.callback k ok ht⟩
    | worker timedOut outcome =>
      obtain ⟨m,hm,rfl⟩ := Option.map_eq_some_iff.mp h
      obtain ⟨t,ht,rfl⟩ := Option.map_eq_some_iff.mp hm
      exact ⟨t,rfl,.worker timedOut outcome ht⟩

inductive ZeroMqTurn (z t : ZeroMq.Node.System) : ClientAction → Prop
  | beside (action : ZeroMq.Node.Action) (life : t.life = z.life) (worker : t.worker = z.worker)
    (pending : ZeroMq.Node.pending t = ZeroMq.Node.pending z)
    (quiet : (Client.zeroMq z).handledNow (.zeroMq action) = [])
    (turn : (Action.client c (.zeroMq action)).ofWorker c = false) :
    ZeroMqTurn z t (.zeroMq action)
  | worker (outcome : HandlerOutcome) (moved : z.workerStep outcome = some t) :
    ZeroMqTurn z t (.zeroMq (.worker outcome))

theorem zeroMq_acts {action : ClientAction} {client : Client} (hl : ZeroMq.Node.Listening z)
    (ha : (Action.client c action).ofLife c = false)
    (h : (Client.zeroMq z).step action = some client) :
    ∃ t, client = .zeroMq t ∧ ZeroMqTurn (c := c) z t action := by
  cases action with
  | zenoh action => cases h
  | zeroMq action =>
    cases action with
    | life ok => simp [Action.ofLife] at ha
    | worker outcome =>
      obtain ⟨t,ht,rfl⟩ := Option.map_eq_some_iff.mp h
      exact ⟨t,rfl,.worker outcome ht⟩
    | call m ok =>
      obtain ⟨t,ht,rfl⟩ := Option.map_eq_some_iff.mp h
      have frame := (ZeroMq.Node.call_move ht).1
      exact ⟨t,rfl,.beside _ frame.life frame.worker (ZeroMq.Node.call_pending ht) rfl rfl⟩
    | arrive channel data =>
      cases channel with
      | broadcast => cases h
      | request =>
        obtain rfl := Option.some.inj h
        obtain ⟨beside,-,-,worker⟩ := ZeroMq.Node.arrive_beside (s := z) (c := .request) data
        exact ⟨_,rfl,.beside _ beside.life worker (hl.request_pending data) rfl rfl⟩

theorem step_serves {a : Action} (h : Ordered s) (hs : Serves s c) (ha : a.ofLife c = false)
    (hstep : step s a = some s') : Serves s' c := by
  unfold Serves at hs ⊢
  cases step_client (c := c) hstep with
  | rests client accepted handled turn => rwa [client]
  | receives data client accepted handled turn =>
    cases hc : s.clients c with
    | zeroMq z =>
      rw [hc] at client hs
      rw [← Option.some.inj client]
      exact (ZeroMq.Node.arrive_beside data).1.life.trans hs
    | zenoh n =>
      rw [hc] at client hs
      simp only [Client.deliver,Option.ite_none_right_eq_some,Option.some.injEq] at client
      rw [← client.2]
      exact hs
  | acts action same client accepted handled =>
    subst same
    cases hc : s.clients c with
    | zeroMq z =>
      rw [hc] at client hs
      obtain ⟨t,now,turn⟩ := zeroMq_acts (zeroMq_ok h hc) ha client
      rw [now]
      cases turn with
      | beside action life worker pending quiet turn => exact life.trans hs
      | worker outcome moved => exact (ZeroMq.Node.worker_frame moved).life.trans hs
    | zenoh n =>
      rw [hc] at client hs
      obtain ⟨t,now,-⟩ := zenoh_acts ha client
      rw [now]
      exact hs

theorem zeroMq_received (h : Ordered s) (hc : s.clients c = .zeroMq z) {a : Action}
    (ha : a.ofLife c = false) (hstep : step s a = some s') :
    ∃ more, received s' c = received s c ++ more := by
  rw [received_zeroMq hc]
  cases step_client (c := c) hstep with
  | rests client accepted handled turn =>
    exact ⟨[],by rw [received_zeroMq (client.trans hc),handled,List.append_nil]⟩
  | receives data client accepted handled turn =>
    rw [hc] at client
    rw [received_zeroMq (Option.some.inj client).symm,handled]
    rcases ZeroMq.Node.arrive_pending (s := z) (c := .broadcast) data with same | ⟨-,longer⟩
    · exact ⟨[],by rw [same,List.append_nil]⟩
    · exact ⟨[data],by rw [longer,List.map_append,← List.append_assoc]; rfl⟩
  | acts action same client accepted handled =>
    subst same
    rw [hc] at client handled
    obtain ⟨t,now,turn⟩ := zeroMq_acts (zeroMq_ok h hc) ha client
    rw [received_zeroMq now,handled]
    cases turn with
    | beside action life worker pending quiet turn =>
      exact ⟨[],by rw [quiet,pending,List.append_nil,List.append_nil]⟩
    | worker outcome moved =>
      refine ⟨[],?_⟩
      rw [List.map_append,handledNow_zeroMq,List.append_assoc,← List.map_append,
        ZeroMq.Node.worker_pending moved,List.append_nil]

theorem zenoh_stays {a : Action} (hc : s.clients c = .zenoh n) (hstep : step s a = some s') :
    ∃ m, s'.clients c = .zenoh m := by
  cases step_client (c := c) hstep with
  | rests client accepted handled turn => exact ⟨n,client.trans hc⟩
  | receives data client accepted handled turn =>
    rw [hc] at client
    simp only [Client.deliver,Option.ite_none_right_eq_some,Option.some.injEq] at client
    exact ⟨_,client.2.symm⟩
  | acts action same client accepted handled =>
    rw [hc] at client
    cases action with
    | zeroMq action => cases client
    | zenoh action =>
      cases action with
      | arrive payload => cases client
      | _ =>
        obtain ⟨m,-,now⟩ := Option.map_eq_some_iff.mp client
        exact ⟨m,now.symm⟩

theorem step_received {a : Action} (h : Ordered s) (ha : a.ofLife c = false)
    (hstep : step s a = some s') : received s c <+: received s' c := by
  cases hc : s.clients c with
  | zeroMq z =>
    obtain ⟨more,grows⟩ := zeroMq_received h hc ha hstep
    exact grows ▸ List.prefix_append _ _
  | zenoh n =>
    obtain ⟨m,now⟩ := zenoh_stays hc hstep
    rw [← accepted_eq h hc,← accepted_eq (step_ordered h hstep) now]
    exact (step_logs hstep).1

theorem run_received {as : List Action} (h : Ordered s) (has : ∀ a ∈ as, a.ofLife c = false)
    (hrun : Transition.run step s as = some s') : Ordered s' ∧ received s c <+: received s' c :=
  Transition.run_invariant_of_meets (I := fun t => Ordered t ∧ received s c <+: received t c)
    (C := fun _ a => a.ofLife c = false)
    (fun _ _ _ hI ha ht => ⟨step_ordered hI.1 ht,hI.2.trans (step_received hI.1 ha ht)⟩)
    ⟨h,List.prefix_rfl⟩ (Transition.meets_of_forall has) hrun

theorem zenoh_falls {a : Action} {m : Nat} (h : Ordered s) (hc : s.clients c = .zenoh n)
    (hl : n.life = .running) (hm : m ≤ (received s c).length) (ha : a.ofLife c = false)
    (hstep : step s a = some s') :
    m ≤ (s'.handled c).length ∨
      (backlog m c s' ≤ backlog m c s ∧ (a.ofWorker c = true → backlog m c s' < backlog m c s)) := by
  obtain ⟨delivered,flow,running,hacc,hhand⟩ := zenoh_ok h hc
  have quiet {t : Zenoh.System} (now : s'.clients c = .zenoh { n with system := t })
      (dispatched : t.dispatched = n.system.dispatched) (worker : t.worker = n.system.worker) :
      backlog m c s' ≤ backlog m c s := by
    simp only [backlog,now,hc,Zenoh.backlogRank,dispatched,worker,le_refl]
  cases step_client (c := c) hstep with
  | rests client accepted handled turn =>
    refine .inr ⟨?_,by simp [turn]⟩
    simp only [backlog,client,handled,le_refl]
  | receives data client accepted handled turn =>
    rw [hc] at client
    simp only [Client.deliver,Option.ite_none_right_eq_some,Option.some.injEq] at client
    have frame := Zenoh.arrive_frame (s := n.system) (some data)
    exact .inr ⟨quiet client.2.symm frame.dispatched frame.worker,by simp [turn]⟩
  | acts action same client accepted handled =>
    subst same
    rw [hc] at client
    obtain ⟨t,now,turn⟩ := zenoh_acts ha client
    cases turn with
    | callback k ok moved =>
      have frame := Zenoh.callback_frame moved
      exact .inr ⟨quiet now frame.dispatched frame.worker,by simp [Action.ofWorker]⟩
    | worker timedOut outcome moved =>
      by_cases behind : n.system.dispatched.length < m
      · have reach : m ≤ (Zenoh.accepted n.system).length := by
          rw [← accepted_eq h hc,hacc] at hm
          simpa [Zenoh.payloads] using hm
        have less := Zenoh.worker_falls flow (running.notStopped (.inr hl)) reach behind moved
        have falls : backlog m c s' < backlog m c s := by
          simp only [backlog,now,hc]
          exact less
        exact .inr ⟨le_of_lt falls,fun _ => falls⟩
      · refine .inl (le_trans ?_ (step_logs hstep).2.length_le)
        rw [handled_length hhand]
        omega

theorem handledNow_length :
    ((Client.zeroMq z).handledNow (.zeroMq (.worker outcome))).length = z.worker.inHand.length := by
  simp only [Client.handledNow]
  cases z.worker <;> rfl

theorem zeroMq_falls {a : Action} {m : Nat} (h : Ordered s) (hc : s.clients c = .zeroMq z)
    (hl : z.life = .running) (hm : m ≤ (received s c).length) (ha : a.ofLife c = false)
    (hstep : step s a = some s') :
    m ≤ (s'.handled c).length ∨
      (backlog m c s' ≤ backlog m c s ∧ (a.ofWorker c = true → backlog m c s' < backlog m c s)) := by
  have listening := zeroMq_ok h hc
  have quiet {t : ZeroMq.Node.System} (now : s'.clients c = .zeroMq t)
      (handled : s'.handled c = s.handled c) (worker : t.worker = z.worker) :
      backlog m c s' ≤ backlog m c s := by
    simp only [backlog,now,hc,handled,worker,le_refl]
  cases step_client (c := c) hstep with
  | rests client accepted handled turn =>
    exact .inr ⟨quiet (client.trans hc) handled rfl,by simp [turn]⟩
  | receives data client accepted handled turn =>
    rw [hc] at client
    obtain ⟨-,-,-,worker⟩ := ZeroMq.Node.arrive_beside (s := z) (c := .broadcast) data
    exact .inr ⟨quiet (Option.some.inj client).symm handled worker,by simp [turn]⟩
  | acts action same client accepted handled =>
    subst same
    rw [hc] at client handled
    obtain ⟨t,now,turn⟩ := zeroMq_acts listening ha client
    cases turn with
    | beside action life worker pending quietly turn =>
      rw [quietly,List.append_nil] at handled
      exact .inr ⟨quiet now handled worker,by simp [turn]⟩
    | worker outcome moved =>
      by_cases behind : (s.handled c).length < m
      · have waits : ZeroMq.Node.pending z ≠ [] := by
          intro none
          rw [received_zeroMq hc,none] at hm
          simp at hm
          omega
        have length : (s'.handled c).length = (s.handled c).length + z.worker.inHand.length := by
          rw [handled,List.length_append,handledNow_length]
        have falls : backlog m c s' < backlog m c s := by
          simp only [backlog,now,hc]
          rcases ZeroMq.Node.worker_falls listening hl waits moved with
            ⟨none,less⟩ | ⟨message,one,less⟩
          · rw [none,List.length_nil] at length
            omega
          · rw [one,List.length_singleton] at length
            omega
        exact .inr ⟨le_of_lt falls,fun _ => falls⟩
      · refine .inl (le_trans ?_ (step_logs hstep).2.length_le)
        omega

theorem step_falls {a : Action} {m : Nat} (h : Ordered s) (hs : Serves s c)
    (hm : m ≤ (received s c).length) (ha : a.ofLife c = false) (hstep : step s a = some s') :
    m ≤ (s'.handled c).length ∨
      (backlog m c s' ≤ backlog m c s ∧ (a.ofWorker c = true → backlog m c s' < backlog m c s)) := by
  unfold Serves at hs
  cases hc : s.clients c with
  | zeroMq z =>
    rw [hc] at hs
    exact zeroMq_falls h hc hs hm ha hstep
  | zenoh n =>
    rw [hc] at hs
    exact zenoh_falls h hc hs hm ha hstep

theorem backlog_le (h : Ordered s) :
    backlog (received s c).length c s ≤ 6 * (s.clients c).waiting.length + 6 := by
  have length : (received s c).length = (s.handled c).length + (s.clients c).waiting.length := by
    rw [received,List.length_append,List.length_map]
  cases hc : s.clients c with
  | zeroMq z =>
    have := z.worker.rank_le
    rw [hc] at length
    simp only [backlog,hc]
    omega
  | zenoh n =>
    obtain ⟨-,-,-,-,hhand⟩ := zenoh_ok h hc
    have := Zenoh.rank_le n.system.worker
    rw [hc,handled_length hhand] at length
    simp only [backlog,hc,Zenoh.backlogRank]
    omega

theorem handed_extends {messages : List DdsBytes} (hp : messages <+: received s c)
    (hm : messages.length ≤ (s.handled c).length) :
    messages <+: (s.handled c).map (·.payload) :=
  List.prefix_of_prefix_length_le hp (List.prefix_append _ _) (by simpa using hm)

theorem run_delivers {as : List Action} (h : Ordered s) (hs : Serves s c)
    (has : ∀ a ∈ as, a.ofLife c = false)
    (turns : 6 * (s.clients c).waiting.length + 6 < as.countP (Action.ofWorker c))
    (hrun : Transition.run step s as = some s') :
    received s c <+: (s'.handled c).map (·.payload) := by
  let messages := received s c
  let Serving (u : System) := Ordered u ∧ Serves u c ∧ messages <+: received u c
  have hI : ∀ u a t, Serving u → a.ofLife c = false → step u a = some t → Serving t := by
    rintro u a t ⟨ho,hu,hp⟩ ha ht
    exact ⟨step_ordered ho ht,step_serves ho hu ha ht,hp.trans (step_received ho ha ht)⟩
  obtain ⟨ho,hserves,hp⟩ := Transition.run_invariant_of_meets (I := Serving)
    hI ⟨h,hs,List.prefix_rfl⟩ (Transition.meets_of_forall has) hrun
  refine handed_extends hp ?_
  refine Transition.run_reaches_of_turns (I := Serving)
    (G := fun u => messages.length ≤ (u.handled c).length) (Action.ofWorker c)
    (backlog messages.length c) hI ?_ ?_ ⟨h,hs,List.prefix_rfl⟩ has ?_ hrun
  · intro u a t done ht
    exact le_trans done (step_logs ht).2.length_le
  · rintro u a t ⟨ho,hu,hp⟩ ha ht
    exact step_falls ho hu hp.length_le ha ht
  · exact lt_of_le_of_lt (backlog_le h) turns

theorem client_step_some {client : Client} {a : ClientAction}
    (h : (s.clients c).step a = some client) :
    ∃ t, step s (.client c a) = some t ∧ t.clients c = client := by
  refine ⟨_,by simp only [step,h,Option.map_some]; rfl,?_⟩
  simp

theorem zenoh_lift {t : Zenoh.System} {as : List Zenoh.Action} (hc : s.clients c = .zenoh n)
    (has : ∀ a ∈ as, a.ofWorkOrSample outcome = true)
    (h : Transition.run Zenoh.step n.system as = some t) :
    ∃ s', Transition.run step s (as.map (Action.ofZenoh c)) = some s' ∧
      s'.clients c = .zenoh { n with system := t } := by
  refine Transition.run_lift (R := fun (u : System) r => u.clients c = .zenoh { n with system := r })
    (Action.ofZenoh c) ?_ hc has h
  intro u r a t hu ha ht
  cases a with
  | callback k ok =>
    refine client_step_some ?_
    rw [hu]
    simp only [Client.step,Zenoh.Lifecycle.step]
    rw [show r.callbackStep k ok = some t from ht]
    rfl
  | worker timedOut o =>
    refine client_step_some ?_
    rw [hu]
    simp only [Client.step,Zenoh.Lifecycle.step]
    rw [show r.workerStep timedOut o = some t from ht]
    rfl
  | _ => cases ha

theorem zenoh_run_delivers (h : Ordered s) (hc : s.clients c = .zenoh n) (hl : n.life = .running)
    (outcome : HandlerOutcome) :
    ∃ as t, (∀ a ∈ as, a.ofReceiver c outcome = true) ∧ Transition.run step s as = some t ∧
      received s c <+: (t.handled c).map (·.payload) := by
  obtain ⟨delivered,serving⟩ := zenoh_serving h hc hl
  obtain ⟨-,-,-,hacc,-⟩ := zenoh_ok h hc
  obtain ⟨as,z,has,hz,done,-⟩ := Zenoh.drains serving outcome
  obtain ⟨t,ht,hclient⟩ := zenoh_lift hc has hz
  have ordered : Ordered t :=
    Transition.run_invariant (fun _ _ _ ho ha => step_ordered ho ha) h ht
  have logs : s.accepted c <+: t.accepted c :=
    Transition.run_invariant (I := fun u => s.accepted c <+: u.accepted c)
      (fun _ _ _ hp ha => hp.trans (step_logs ha).1) List.prefix_rfl ht
  obtain ⟨-,-,-,-,hhand⟩ := zenoh_ok ordered hclient
  rw [accepted_eq h hc,accepted_eq ordered hclient] at logs
  refine ⟨as.map (Action.ofZenoh c),t,?_,ht,handed_extends logs ?_⟩
  · intro b hb
    obtain ⟨a,ha,rfl⟩ := List.mem_map.mp hb
    have own := has a ha
    cases a <;> simp_all [Zenoh.Action.ofWorkOrSample,Action.ofZenoh,Action.ofReceiver]
  · rw [handled_length hhand,← accepted_eq h hc,hacc]
    simpa [Zenoh.payloads] using done

theorem zeroMq_run_delivers (h : Ordered s) (hc : s.clients c = .zeroMq z) (hl : z.life = .running)
    (outcome : HandlerOutcome) :
    ∃ as t, (∀ a ∈ as, a.ofReceiver c outcome = true) ∧ Transition.run step s as = some t ∧
      received s c <+: (t.handled c).map (·.payload) := by
  let messages := received s c
  let Serving (u : System) := Ordered u ∧ messages <+: received u c ∧
    ∃ z, u.clients c = .zeroMq z ∧ z.life = .running
  have progress : ∀ u, Serving u → ¬ messages.length ≤ (u.handled c).length →
      ∃ a t, a.ofReceiver c outcome = true ∧ step u a = some t ∧ Serving t ∧
        (messages.length ≤ (t.handled c).length ∨
          backlog messages.length c t < backlog messages.length c u) := by
    rintro u ⟨ho,hp,z,hc,hl⟩ -
    have listening := zeroMq_ok ho hc
    obtain ⟨z',moved⟩ :=
      ZeroMq.Node.worker_enabled listening.toAttentive (listening.alive hl) outcome
    have acts : (u.clients c).step (.zeroMq (.worker outcome)) = some (.zeroMq z') := by
      simp [hc,Client.step,ZeroMq.Node.step,moved]
    obtain ⟨t,ht,now⟩ := client_step_some acts
    have quiet : (Action.client c (.zeroMq (.worker outcome))).ofLife c = false := rfl
    refine ⟨_,t,by simp [Action.ofReceiver],ht,?_,?_⟩
    · exact ⟨step_ordered ho ht,hp.trans (step_received ho quiet ht),z',now,
        (ZeroMq.Node.worker_frame moved).life.trans hl⟩
    · rcases zeroMq_falls ho hc hl hp.length_le quiet ht with done | ⟨-,falls⟩
      · exact .inl done
      · exact .inr (falls (by simp [Action.ofWorker]))
  obtain ⟨as,t,has,ht,⟨-,hp,-⟩,done⟩ := Transition.exists_run_of_measure
    (backlog messages.length c) progress ⟨h,List.prefix_rfl,z,hc,hl⟩
  exact ⟨as,t,has,ht,handed_extends hp done⟩

theorem exists_run_delivers (h : Ordered s) (hs : Serves s c) (outcome : HandlerOutcome) :
    ∃ as t, (∀ a ∈ as, a.ofReceiver c outcome = true) ∧ Transition.run step s as = some t ∧
      received s c <+: (t.handled c).map (·.payload) := by
  unfold Serves at hs
  cases hc : s.clients c with
  | zeroMq z =>
    rw [hc] at hs
    exact zeroMq_run_delivers h hc hs outcome
  | zenoh n =>
    rw [hc] at hs
    exact zenoh_run_delivers h hc hs outcome

theorem deliver_received {data : DdsBytes} {rest : List DdsBytes} (h : Ordered s)
    (hc : s.clients c = .zeroMq z) (hl : z.life = .running) (hw : s.wire c = data :: rest)
    (hstep : step s (.deliver c) = some s') : received s' c = received s c ++ [data] := by
  simp only [step,hw,hc,Client.deliver,Option.map_some] at hstep
  obtain rfl := Option.some.inj hstep
  rw [received_zeroMq hc,received_zeroMq (z := z.arrive .broadcast data) (by simp),
    (zeroMq_ok h hc).broadcast_pending hl data,List.map_append,← List.append_assoc]
  rfl

theorem invoked_sublist (h : Ordered s) (c : Nat) : (invoked s c).Sublist s.published := by
  obtain ⟨delivered,order,ok⟩ := h.clients c
  have published : delivered.Sublist s.published :=
    (List.sublist_append_left _ _).trans order
  have handled : ((s.handled c).map (·.payload)).Sublist delivered := by
    cases hc : s.clients c with
    | zeroMq node =>
      rw [hc] at ok
      exact (List.sublist_append_left _ _).trans ok.2
    | zenoh n =>
      rw [hc] at ok
      have prefixes := accepted_eq h hc
      rw [ok.2.2.1] at prefixes
      have accepted : (Zenoh.payloads (Zenoh.accepted n.system)).Sublist delivered :=
        (List.sublist_append_left _ _).trans ok.1.order
      rw [prefixes] at accepted
      exact (List.sublist_append_left _ _).trans accepted
  exact ((List.filter_sublist.map _).trans handled).trans published

structure BroadcastOk (s : System) : Prop where
  ordered : ∀ c, (invoked s c).Sublist s.published
  handedOver : ∀ c n, s.clients c = .zenoh n → s.accepted c = received s c
  receives : ∀ c z data rest t, s.clients c = .zeroMq z → z.life = .running →
    s.wire c = data :: rest → step s (.deliver c) = some t → received t c = received s c ++ [data]
  kept : ∀ c as t, (∀ a ∈ as, a.ofLife c = false) → Transition.run step s as = some t →
    received s c <+: received t c
  delivers : ∀ c, Serves s c → ∀ as t, Transition.run step s as = some t →
    (∀ a ∈ as, a.ofLife c = false) →
    6 * (s.clients c).waiting.length + 6 < as.countP (Action.ofWorker c) →
    received s c <+: (t.handled c).map (·.payload)
  canDeliver : ∀ c, Serves s c → ∀ outcome, ∃ as t, (∀ a ∈ as, a.ofReceiver c outcome = true) ∧
    Transition.run step s as = some t ∧ received s c <+: (t.handled c).map (·.payload)

theorem broadcast_order (server : DdsTransportKind) (clients : Nat → DdsTransportKind)
    (hasRequest : Nat → Bool) (as : List Action) (s : System)
    (h : Transition.run step (initial server clients hasRequest) as = some s) : BroadcastOk s := by
  have ordered : Ordered s :=
    Transition.run_invariant (fun _ _ _ ho ha => step_ordered ho ha)
      (ordered_initial server clients hasRequest) h
  refine ⟨invoked_sublist ordered,?_,?_,?_,?_,?_⟩
  · intro c n hc
    exact accepted_eq ordered hc
  · intro c z data rest t hc hl hw ht
    exact deliver_received ordered hc hl hw ht
  · intro c as t has ht
    exact (run_received ordered has ht).2
  · intro c hs as t ht has turns
    exact run_delivers ordered hs has turns ht
  · intro c hs outcome
    exact exists_run_delivers ordered hs outcome

def twoPublishers : List Action :=
  [.server .opens,.server .spawns] ++ List.replicate 6 (.client 0 (.zenoh (.life true 0))) ++
    [.publish 0 [1] true,.publish 1 [2] true,.publish 1 [2] true,.publish 0 [1] true,
      .publish 1 [2] true,.publish 0 [1] true,.publish 1 [2] true,.publish 0 [1] true,.deliver 0] ++
    List.replicate 4 (.client 0 (.zenoh (.callback 0 true))) ++ [.deliver 0] ++
    List.replicate 4 (.client 0 (.zenoh (.callback 1 true))) ++
    List.replicate 6 (.client 0 (.zenoh (.worker false .throws))) ++
    List.replicate 5 (.client 0 (.zenoh (.worker false (.returns []))))

def twoZeroMqPublishers : List Action :=
  [.server .opens,.server .spawns] ++ List.replicate 8 (.client 0 (.zeroMq (.life true))) ++
    List.replicate 3 (.publish 0 [1] true) ++ List.replicate 5 (.publish 1 [2] true) ++
    List.replicate 2 (.publish 0 [1] true) ++ [.deliver 0,.deliver 0] ++
    List.replicate 5 (.client 0 (.zeroMq (.worker .throws))) ++
    List.replicate 5 (.client 0 (.zeroMq (.worker (.returns []))))

theorem broadcast_order_two_publishers : ∃ s t,
    Transition.run step (initial .zenoh (fun _ => .zenoh) (fun _ => false)) twoPublishers = some s ∧
      BroadcastOk s ∧ invoked s 0 = [[2],[1]] ∧
    Transition.run step (initial .zeroMq (fun _ => .zeroMq) (fun _ => false)) twoZeroMqPublishers =
        some t ∧
      BroadcastOk t ∧ invoked t 0 = [[2],[1]] :=
  ⟨_,_,rfl,broadcast_order .zenoh (fun _ => .zenoh) (fun _ => false) twoPublishers _ rfl,rfl,
    rfl,broadcast_order .zeroMq (fun _ => .zeroMq) (fun _ => false) twoZeroMqPublishers _ rfl,rfl⟩

end DdsAbstract.Broadcast
