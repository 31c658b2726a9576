import DdsAbstract.ZeroMq.Exchange

namespace DdsAbstract.ZeroMq.Exchange
open Server

variable {clients : Clients} {hwm : Nat} {s s' : System} {i j : Nat} {a : Action}

def handledFrom (clients : Clients) (s : Server.System) (i : Nat) : List Handled :=
  s.handled.filter (fun h => fromClient clients i h.request)

def payloads (handled : List Handled) : List DdsBytes := handled.map (·.request.incoming.payload)

def answers (handled : List Handled) : List (DdsBytes × DdsBytes) :=
  handled.filterMap (fun h => h.outcome.response.map (fun response =>
    (h.request.incoming.payload,response)))

structure Projects (clients : Clients) (hwm i : Nat) (u : Dealer.System) (s : System) : Prop where
  hwm : u.hwm = hwm
  current : u.current = (s.clients i).current
  started : u.started = (s.clients i).started
  timedOut : u.timedOut = (s.clients i).timedOut
  inbox : u.inbox.map (·.bytes) = (s.clients i).inbox
  returned : u.returned.map (fun e => (⟨e.call,e.message,e.response.bytes⟩ : Received)) =
    (s.clients i).returned
  outgoing : u.outgoing.map (·.bytes) = s.server.inFlight i
  serverQueue : payloads (handledFrom clients s.server i) ++ u.serverQueue.map (·.bytes) ++
    s.server.inFlight i = s.server.sent i
  network : u.network.map (·.bytes) = (results clients s.server i).drop (s.taken i)
  taken : s.taken i ≤ (results clients s.server i).length
  answered : u.answered.map (fun e => (e.request,e.response)) =
    answers (handledFrom clients s.server i)

structure Served (clients : Clients) (s : Server.System) : Prop where
  accounted : Accounted s
  delivered : Delivered clients s

theorem server_served {t t' : Server.System} {a : Server.Action} (h : Served clients t)
    (ha : Server.step clients t a = some t') : Served clients t' :=
  ⟨step_accounted h.accounted ha,step_delivered h.delivered ha⟩

theorem dequeued_queued {t : Server.System} (h : Served clients t) (i : Nat) :
    ∃ rest, dequeued clients t i ++ rest ++ t.inFlight i = t.sent i := by
  obtain ⟨log,position,sent⟩ := h.delivered.place
  obtain ⟨done,waiting,hlog,whole,-⟩ := position.place
  rw [h.delivered.upcoming,List.append_nil] at hlog
  obtain ⟨early,late,rfl,rfl,rfl⟩ := List.map_eq_append_iff.mp hlog
  refine ⟨(late.filter (·.1 = i)).map (·.2),?_⟩
  rw [dequeued,dequeued_of_whole i whole,← sent i,List.filter_append,List.map_append]

theorem replies_prefix {t : Server.System} (h : Served clients t) (i : Nat) :
    bodiesTo clients i t.router.replies <+: results clients t i := by
  rw [← (exactlyOnce_of h.accounted h.delivered).replies i,bodiesTo,bodiesTo,List.filter_append,
    List.map_append]
  exact List.prefix_append _ _

inductive WorkerTurn (t t' : Server.System) (outcome : HandlerOutcome) : Prop
  | silent (handled : t'.handled = t.handled)
  | handles (r : Router.Reception) (was : inHand t.router.worker = [r])
      (handled : t'.handled = t.handled ++ [⟨r,outcome⟩])

theorem worker_turn {t t' : Server.System} {outcome : HandlerOutcome}
    (h : Server.step clients t (.worker outcome) = some t') :
    t'.sent = t.sent ∧ t'.inFlight = t.inFlight ∧ WorkerTurn t t' outcome := by
  obtain ⟨r',hr,rfl⟩ := Option.map_eq_some_iff.mp h
  refine ⟨rfl,rfl,?_⟩
  cases hpc : t.router.worker with
  | atDispatch r => exact .handles r (by rw [hpc]; rfl) rfl
  | _ => exact .silent (List.append_nil _)

theorem Projects.kept {u : Dealer.System} (h : Projects clients hwm i u s)
    (client : s'.clients i = s.clients i) (sent : s'.server.sent i = s.server.sent i)
    (inFlight : s'.server.inFlight i = s.server.inFlight i)
    (handled : handledFrom clients s'.server i = handledFrom clients s.server i)
    (taken : s'.taken i = s.taken i) : Projects clients hwm i u s' := by
  have results : results clients s'.server i = results clients s.server i :=
    congrArg (List.filterMap (fun h : Handled => h.outcome.response)) handled
  refine ⟨h.hwm,?_,?_,?_,?_,?_,?_,?_,?_,?_,?_⟩ <;> simp only [client,sent,inFlight,handled,taken,results]
  · exact h.current
  · exact h.started
  · exact h.timedOut
  · exact h.inbox
  · exact h.returned
  · exact h.outgoing
  · exact h.serverQueue
  · exact h.network
  · exact h.taken
  · exact h.answered

theorem projects_one {u v : Dealer.System} {b : Dealer.Action} (h : Dealer.step u b = some v)
    (hp : Projects clients hwm i v s') :
    ∃ bs v, Transition.run Dealer.step u bs = some v ∧ Projects clients hwm i v s' :=
  ⟨[b],v,Transition.run_single h,hp⟩

theorem projects_none {u : Dealer.System} (hp : Projects clients hwm i u s') :
    ∃ bs v, Transition.run Dealer.step u bs = some v ∧ Projects clients hwm i v s' :=
  ⟨[],u,rfl,hp⟩

theorem handledFrom_append {t t' : Server.System} {r : Router.Reception} {outcome : HandlerOutcome}
    (handled : t'.handled = t.handled ++ [⟨r,outcome⟩]) (i : Nat) :
    handledFrom clients t' i = handledFrom clients t i ++
      if fromClient clients i r then [⟨r,outcome⟩] else [] := by
  rw [handledFrom,handled,List.filter_append,List.filter_cons]
  rfl

theorem dequeued_inHand {t : Server.System} (h : Served clients t) {r : Router.Reception}
    (was : inHand t.router.worker = [r]) (own : fromClient clients i r = true) :
    dequeued clients t i = payloads (handledFrom clients t i) ++ [r.incoming.payload] := by
  rw [dequeued,h.accounted.received,was,List.filter_append,List.map_append,List.filter_map,
    List.map_map]
  simp only [List.filter_cons,own,if_true,List.filter_nil,List.map_cons,List.map_nil]
  rfl

theorem results_eq (t : Server.System) (i : Nat) :
    results clients t i = (handledFrom clients t i).filterMap (·.outcome.response) := rfl

theorem answers_append (before after : List Handled) :
    answers (before ++ after) = answers before ++ answers after := List.filterMap_append ..

theorem serverQueue_head {u : Dealer.System} (hs : Served clients s.server)
    (hp : Projects clients hwm i u s) {r : Router.Reception}
    (was : inHand s.server.router.worker = [r]) (own : fromClient clients i r = true) :
    ∃ q rest, u.serverQueue = q :: rest ∧ q.bytes = r.incoming.payload := by
  obtain ⟨rest,queued⟩ := dequeued_queued hs i
  rw [dequeued_inHand hs was own,← hp.serverQueue] at queued
  simp only [List.append_assoc,List.append_cancel_left_eq] at queued
  rw [← List.append_assoc,List.append_cancel_right_eq] at queued
  obtain ⟨q,rest',queue,bytes,-⟩ := List.map_eq_cons_iff.mp queued.symm
  exact ⟨q,rest',queue,bytes⟩

theorem worker_projects {u : Dealer.System} {t : Server.System} {outcome : HandlerOutcome}
    (hs : Served clients s.server) (hp : Projects clients hwm i u s)
    (h : Server.step clients s.server (.worker outcome) = some t) :
    ∃ bs v, Transition.run Dealer.step u bs = some v ∧
      Projects clients hwm i v { s with server := t } := by
  obtain ⟨sent,inFlight,turn⟩ := worker_turn h
  cases turn with
  | silent handled =>
    exact projects_none (hp.kept rfl (congrFun sent i) (congrFun inFlight i)
      (by rw [handledFrom,handledFrom,handled]) rfl)
  | handles r was handled =>
    have more : handledFrom clients t i = handledFrom clients s.server i ++ _ :=
      handledFrom_append handled i
    cases own : fromClient clients i r with
    | false =>
      rw [own] at more
      exact projects_none (hp.kept rfl (congrFun sent i) (congrFun inFlight i)
        (more.trans (List.append_nil _)) rfl)
    | true =>
      rw [own,if_pos rfl] at more
      obtain ⟨q,rest,queue,bytes⟩ := serverQueue_head hs hp was own
      have queued : payloads (handledFrom clients t i) ++ rest.map (·.bytes) ++ t.inFlight i =
          t.sent i := by
        rw [sent,inFlight,← hp.serverQueue,more,queue]
        simp [payloads,bytes]
      cases response : outcome.response with
      | none =>
        have same : results clients t i = results clients s.server i := by
          rw [results_eq,more]
          simp [results_eq,response]
        refine projects_one (b := .serve outcome) (v := { u with serverQueue := rest })
          (by simp only [Dealer.step,Dealer.serve,queue,response]) ?_
        refine ⟨hp.hwm,hp.current,hp.started,hp.timedOut,hp.inbox,hp.returned,
          inFlight ▸ hp.outgoing,queued,?_,?_,?_⟩
        · simp only [same]
          exact hp.network
        · simp only [same]
          exact hp.taken
        · simp only [more,answers_append]
          simp [hp.answered,answers,response]
      | some response' =>
        have longer : results clients t i = results clients s.server i ++ [response'] := by
          rw [results_eq,more]
          simp [results_eq,response]
        refine projects_one (b := .serve outcome)
          (v := { u with
            serverQueue := rest
            network := u.network ++ [⟨q.call,response'⟩]
            answered := u.answered ++ [⟨q.call,q.bytes,response'⟩] })
          (by simp only [Dealer.step,Dealer.serve,queue,response]) ?_
        refine ⟨hp.hwm,hp.current,hp.started,hp.timedOut,hp.inbox,hp.returned,
          inFlight ▸ hp.outgoing,queued,?_,?_,?_⟩
        · simp only [longer,List.map_append,hp.network]
          rw [List.drop_append_of_le_length hp.taken]
          rfl
        · rw [longer,List.length_append]
          exact Nat.le_add_right_of_le hp.taken
        · simp only [more,answers_append,List.map_append,hp.answered]
          simp [answers,response,bytes]

theorem setClient_apart {c : Client} (hij : i ≠ j) : (s.setClient j c).clients i = s.clients i :=
  Function.update_of_ne hij ..

theorem setClient_own {c : Client} : (s.setClient j c).clients j = c := Function.update_self ..

theorem Projects.client {u v : Dealer.System} {c : Client} (h : Projects clients hwm i u s)
    (same : v.hwm = u.hwm ∧ v.outgoing = u.outgoing ∧ v.serverQueue = u.serverQueue ∧
      v.network = u.network ∧ v.answered = u.answered)
    (current : v.current = c.current) (started : v.started = c.started)
    (timedOut : v.timedOut = c.timedOut) (inbox : v.inbox.map (·.bytes) = c.inbox)
    (returned : v.returned.map (fun e => (⟨e.call,e.message,e.response.bytes⟩ : Received)) =
      c.returned) : Projects clients hwm i v (s.setClient i c) := by
  obtain ⟨hhwm,outgoing,serverQueue,network,answered⟩ := same
  refine ⟨hhwm.trans h.hwm,?_,?_,?_,?_,?_,outgoing ▸ h.outgoing,serverQueue ▸ h.serverQueue,
    network ▸ h.network,h.taken,answered ▸ h.answered⟩ <;> rw [setClient_own]
  · exact current
  · exact started
  · exact timedOut
  · exact inbox
  · exact returned

theorem send_projects {u : Dealer.System} {call : Nat} {data : DdsBytes}
    (hp : Projects clients hwm i u s) (sending : (s.clients j).current = .sending call data)
    (room : (s.server.inFlight j).length < hwm) {t : Server.System}
    (h : Server.step clients s.server (.request j data) = some t) :
    ∃ bs v, Transition.run Dealer.step u bs = some v ∧ Projects clients hwm i v
      { s.setClient j { s.clients j with current := .polling call data } with server := t } := by
  obtain rfl := Option.some.inj h
  by_cases hij : i = j
  · subst hij
    have length := congrArg List.length hp.outgoing
    rw [List.length_map] at length
    refine projects_one (b := .send)
      (v := { u with current := .polling call data, outgoing := u.outgoing ++ [⟨call,data⟩] }) ?_ ?_
    · simp only [Dealer.step,hp.current,sending]
      rw [if_pos (by rw [length,hp.hwm]; exact room)]
    · refine ⟨hp.hwm,?_,?_,?_,?_,?_,?_,?_,hp.network,hp.taken,hp.answered⟩ <;>
        simp only [setClient_own,Function.update_self,List.map_append,hp.outgoing]
      · exact hp.started
      · exact hp.timedOut
      · exact hp.inbox
      · exact hp.returned
      · rfl
      · rw [← hp.serverQueue,← List.append_assoc]
        rfl
  · exact projects_none (hp.kept (setClient_apart hij) (Function.update_of_ne hij ..)
      (Function.update_of_ne hij ..) rfl rfl)

theorem carry_projects {u : Dealer.System} (hp : Projects clients hwm i u s) {t : Server.System}
    (h : Server.step clients s.server (.deliver j) = some t) :
    ∃ bs v, Transition.run Dealer.step u bs = some v ∧
      Projects clients hwm i v { s with server := t } := by
  cases hf : s.server.inFlight j <;> simp only [Server.step,hf] at h
  case nil => cases h
  case cons data rest =>
    obtain rfl := Option.some.inj h
    by_cases hij : i = j
    · subst hij
      have outgoing := hp.outgoing
      rw [hf] at outgoing
      obtain ⟨q,later,queue,bytes,tail⟩ := List.map_eq_cons_iff.mp outgoing
      refine projects_one (b := .take)
        (v := { u with outgoing := later, serverQueue := u.serverQueue ++ [q] })
        (by simp only [Dealer.step,queue]) ?_
      refine ⟨hp.hwm,hp.current,hp.started,hp.timedOut,hp.inbox,hp.returned,?_,?_,hp.network,
        hp.taken,hp.answered⟩ <;> simp only [Function.update_self]
      · exact tail
      · rw [← hp.serverQueue,hf,List.map_append]
        simp [handledFrom,bytes]
    · exact projects_none (hp.kept rfl rfl (Function.update_of_ne hij ..) rfl rfl)

theorem handOn_projects {u : Dealer.System} (hs : Served clients s.server)
    (hp : Projects clients hwm i u s) {body : DdsBytes}
    (next : (bodiesTo clients j s.server.router.replies)[s.taken j]? = some body) :
    ∃ bs v, Transition.run Dealer.step u bs = some v ∧ Projects clients hwm i v
      { s.setClient j { s.clients j with inbox := (s.clients j).inbox ++ [body] } with
        taken := Function.update s.taken j (s.taken j + 1) } := by
  by_cases hij : i = j
  · subst hij
    obtain ⟨more,same⟩ := replies_prefix hs i
    have result : (results clients s.server i)[s.taken i]? = some body := by
      obtain ⟨hlt,-⟩ := List.getElem?_eq_some_iff.mp next
      rw [← same,List.getElem?_append_left hlt,next]
    obtain ⟨hlt,hbody⟩ := List.getElem?_eq_some_iff.mp result
    have network := hp.network
    rw [List.drop_eq_getElem_cons hlt,hbody] at network
    obtain ⟨r,later,queue,bytes,tail⟩ := List.map_eq_cons_iff.mp network
    refine projects_one (b := .deliver)
      (v := { u with network := later, inbox := u.inbox ++ [r] })
      (by simp only [Dealer.step,queue]) ?_
    refine ⟨hp.hwm,?_,?_,?_,?_,?_,hp.outgoing,hp.serverQueue,?_,?_,hp.answered⟩ <;>
      simp only [setClient_own,Function.update_self,List.map_append,hp.inbox]
    · exact hp.current
    · exact hp.started
    · exact hp.timedOut
    · simp [bytes]
    · exact hp.returned
    · exact tail
    · exact hlt
  · exact projects_none (hp.kept (setClient_apart hij) rfl rfl rfl (Function.update_of_ne hij ..))

theorem step_projects {u : Dealer.System} (hs : Served clients s.server)
    (hp : Projects clients hwm i u s) (h : step clients hwm s a = some s') :
    ∃ bs v, Transition.run Dealer.step u bs = some v ∧ Projects clients hwm i v s' := by
  have current := hp.current
  cases a with
  | request j data =>
    simp only [step] at h
    split at h
    · rename_i idle
      obtain rfl := Option.some.inj h
      by_cases hij : i = j
      · subst hij
        rw [idle] at current
        exact projects_one (b := .request data)
          (v := { u with current := .sending u.started data, started := u.started + 1 })
          (by simp only [Dealer.step,current])
          (hp.client ⟨rfl,rfl,rfl,rfl,rfl⟩ (by rw [hp.started]) (by rw [hp.started]) hp.timedOut
            hp.inbox hp.returned)
      · exact projects_none (hp.kept (setClient_apart hij) rfl rfl rfl rfl)
    · cases h
  | send j =>
    simp only [step] at h
    split at h
    · rename_i call data sending
      simp only [Option.ite_none_right_eq_some] at h
      obtain ⟨t,ht,rfl⟩ := Option.map_eq_some_iff.mp h.2
      exact send_projects hp sending h.1 ht
    · cases h
  | carry j =>
    obtain ⟨t,ht,rfl⟩ := Option.map_eq_some_iff.mp h
    exact carry_projects hp ht
  | worker outcome =>
    obtain ⟨t,ht,rfl⟩ := Option.map_eq_some_iff.mp h
    exact worker_projects hs hp ht
  | handOn j =>
    simp only [step] at h
    split at h
    · cases h
    · rename_i body next
      obtain rfl := Option.some.inj h
      exact handOn_projects hs hp next
  | timeout j =>
    simp only [step] at h
    split at h
    · rename_i call data polling empty
      obtain rfl := Option.some.inj h
      by_cases hij : i = j
      · subst hij
        rw [polling] at current
        have inbox : u.inbox = [] := List.map_eq_nil_iff.mp (hp.inbox.trans empty)
        exact projects_one (b := .timeout)
          (v := { u with current := .idle, timedOut := u.timedOut ++ [call] })
          (by simp only [Dealer.step,current,inbox])
          (hp.client ⟨rfl,rfl,rfl,rfl,rfl⟩ rfl hp.started (by rw [hp.timedOut]) hp.inbox hp.returned)
      · exact projects_none (hp.kept (setClient_apart hij) rfl rfl rfl rfl)
    · cases h
  | receive j =>
    simp only [step] at h
    split at h
    · rename_i call data response rest polling inbox
      obtain rfl := Option.some.inj h
      by_cases hij : i = j
      · subst hij
        rw [polling] at current
        obtain ⟨r,later,queue,bytes,tail⟩ := List.map_eq_cons_iff.mp (hp.inbox.trans inbox)
        exact projects_one (b := .receive)
          (v := { u with current := .idle, inbox := later, returned := u.returned ++ [⟨call,data,r⟩] })
          (by simp only [Dealer.step,current,queue])
          (hp.client ⟨rfl,rfl,rfl,rfl,rfl⟩ rfl hp.started hp.timedOut tail
            (by simp [hp.returned,bytes]))
      · exact projects_none (hp.kept (setClient_apart hij) rfl rfl rfl rfl)
    · cases h

theorem step_server (h : step clients hwm s a = some s') :
    s'.server = s.server ∨ ∃ b, Server.step clients s.server b = some s'.server := by
  cases a with
  | request j data | timeout j | receive j =>
    simp only [step] at h
    split at h
    · obtain rfl := Option.some.inj h
      exact .inl rfl
    · cases h
  | send j =>
    simp only [step] at h
    split at h
    · simp only [Option.ite_none_right_eq_some] at h
      obtain ⟨t,ht,rfl⟩ := Option.map_eq_some_iff.mp h.2
      exact .inr ⟨_,ht⟩
    · cases h
  | carry j | worker outcome =>
    obtain ⟨t,ht,rfl⟩ := Option.map_eq_some_iff.mp h
    exact .inr ⟨_,ht⟩
  | handOn j =>
    simp only [step] at h
    split at h
    · cases h
    · obtain rfl := Option.some.inj h
      exact .inl rfl

theorem step_served (hs : Served clients s.server) (h : step clients hwm s a = some s') :
    Served clients s'.server := by
  rcases step_server h with same | ⟨b,hb⟩
  · exact same ▸ hs
  · exact server_served hs hb

theorem served_initial : Served clients Server.initial :=
  ⟨⟨rfl,rfl,rfl⟩,⟨⟨[],⟨[],[],rfl,.nil,rfl⟩,fun _ => rfl⟩,rfl⟩⟩

theorem projects_initial : Projects clients hwm i (Dealer.initial hwm) initial :=
  ⟨rfl,rfl,rfl,rfl,rfl,rfl,rfl,rfl,rfl,Nat.zero_le _,rfl⟩

theorem run_projects {as : List Action}
    (h : Transition.run (step clients hwm) initial as = some s) (i : Nat) :
    ∃ bs u, Transition.run Dealer.step (Dealer.initial hwm) bs = some u ∧
      Served clients s.server ∧ Projects clients hwm i u s :=
  Transition.run_simulates (R := fun u s => Served clients s.server ∧ Projects clients hwm i u s)
    (fun _ _ _ _ hr ha => by
      obtain ⟨bs,v,hv,hp⟩ := step_projects hr.1 hr.2 ha
      exact ⟨bs,v,hv,step_served hr.1 ha,hp⟩)
    ⟨served_initial,projects_initial⟩ h

theorem zeromq_rpc_refines_dealer (clients : Clients) (hwm : Nat) (as : List Action) (s : System)
    (h : Transition.run (step clients hwm) initial as = some s) (i : Nat) :
    ∃ bs u, Transition.run Dealer.step (Dealer.initial hwm) bs = some u ∧
      Projects clients hwm i u s := by
  obtain ⟨bs,u,hu,-,hp⟩ := run_projects h i
  exact ⟨bs,u,hu,hp⟩

def twoClients : List Action :=
  [.request 1 [5],.send 1,.request 0 [7],.send 0,.carry 0,.carry 1] ++
    List.replicate 22 (.worker (.returns [8])) ++ [.handOn 0,.handOn 1,.receive 1,.receive 0]

theorem zeromq_rpc_refines_dealer_twoClients : ∃ s,
    Transition.run (step numbered 1000) initial twoClients = some s ∧
      (s.clients 0).returned = [⟨0,[7],[8]⟩] ∧ (s.clients 1).returned = [⟨0,[5],[8]⟩] ∧
      ∃ bs u, Transition.run Dealer.step (Dealer.initial 1000) bs = some u ∧
        Projects numbered 1000 1 u s := by
  refine ⟨_,rfl,rfl,rfl,?_⟩
  exact zeromq_rpc_refines_dealer numbered 1000 twoClients _ rfl 1

end DdsAbstract.ZeroMq.Exchange
