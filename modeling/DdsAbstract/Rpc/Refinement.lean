import DdsAbstract.Lib.Service
import DdsAbstract.Rpc.Soundness

namespace DdsAbstract.Rpc

variable {payload : Nat × Nat → DdsBytes} {s s' : System} {a : Action}

def executedBy (s : Zenoh.System) (k : Nat) : List (DdsBytes × Option DdsBytes) :=
  (s.dispatched.filter (fun d => d.entry.callback = k)).map
    (fun d => (d.entry.message.payload,d.outcome.response))

abbrev Calls :=
  Service.State (Nat × Nat) (Nat × Nat) DdsBytes DdsBytes Zenoh.Client.RequestError

def calls (payload : Nat × Nat → DdsBytes) (s : System) : Calls where
  sent := fun call => if (s.callOf call).queried then some (payload call) else none
  offered := fun ticket =>
    if ticket.2 < (s.servers ticket.1).arrived then some (s.origin ticket.1 ticket.2) else none
  executed := fun ticket => executedBy (s.servers ticket.1) ticket.2
  result := fun call => result (s.callOf call).pc

theorem calls_initial : calls payload .initial = .initial := by
  refine Service.State.ext rfl (funext fun ticket => ?_) rfl rfl
  simp [calls,System.initial,Zenoh.System.initial,Service.State.initial]

theorem filter_of_mem {s : Zenoh.System} (h : Reached s) {d : Zenoh.Dispatched}
    (hd : d ∈ s.dispatched) :
    s.dispatched.filter (fun e => e.entry.callback = d.entry.callback) = [d] := by
  obtain ⟨as,run⟩ := h
  have once := Zenoh.run_acceptedOnce run
  have distinct : s.dispatched.Nodup := by
    have nodup := once.nodup
    simp only [Zenoh.accepted,List.map_append,List.append_assoc,List.map_map] at nodup
    exact (List.nodup_append.mp nodup).1.of_map _
  refine List.perm_singleton.mp ((List.perm_ext_iff_of_nodup (distinct.filter _)
    (List.nodup_singleton d)).mpr (fun e => ?_))
  rw [List.mem_filter,List.mem_singleton]
  constructor
  · rintro ⟨he,same⟩
    exact Zenoh.dispatched_unique once he hd (by simpa using same)
  · rintro rfl
    exact ⟨hd,by simp⟩

theorem executedBy_of_mem {s : Zenoh.System} (h : Reached s) {d : Zenoh.Dispatched}
    (hd : d ∈ s.dispatched) :
    executedBy s d.entry.callback = [(d.entry.message.payload,d.outcome.response)] := by
  rw [executedBy,filter_of_mem h hd]
  rfl

theorem mem_of_executedBy {s : Zenoh.System} {k : Nat} {own : DdsBytes} {response : Option DdsBytes}
    (h : executedBy s k = [(own,response)]) : ∃ d ∈ s.dispatched, d.entry.callback = k ∧
      d.entry.message.payload = own ∧ d.outcome.response = response := by
  have present : (own,response) ∈ executedBy s k := h ▸ List.mem_singleton_self _
  obtain ⟨d,hd,same⟩ := List.mem_map.mp present
  obtain ⟨hd,own⟩ := List.mem_filter.mp hd
  obtain ⟨rfl,rfl⟩ := Prod.mk.inj same
  exact ⟨d,hd,by simpa using own,rfl,rfl⟩

theorem not_executed {s : Zenoh.System} (h : Reached s) {e : Zenoh.Queued}
    (was : s.worker = .atDispatch e) : executedBy s e.callback = [] := by
  obtain ⟨as,run⟩ := h
  have once := (Zenoh.run_acceptedOnce run).nodup
  simp only [Zenoh.accepted,was,Zenoh.WorkerPc.undispatched,List.map_append,List.append_assoc]
    at once
  unfold executedBy
  rw [List.map_eq_nil_iff,List.filter_eq_nil_iff]
  intro d hd
  have apart := (List.nodup_append.mp once).2.2 d.entry.callback
    (List.mem_map.mpr ⟨d.entry,List.mem_map.mpr ⟨d,hd,rfl⟩,rfl⟩) e.callback (by simp)
  simpa using apart

theorem executed_dispatch {s s' : Zenoh.System} {e : Zenoh.Queued} {outcome : HandlerOutcome}
    (dispatched : s'.dispatched = s.dispatched ++ [⟨e,outcome,s.opens⟩])
    (fresh : executedBy s e.callback = []) (k : Nat) : executedBy s' k =
      if k = e.callback then [(e.message.payload,outcome.response)] else executedBy s k := by
  have grown : executedBy s' k = executedBy s k ++ executedBy { s with
      dispatched := [⟨e,outcome,s.opens⟩] } k := by
    simp only [executedBy,dispatched,List.filter_append,List.map_append]
  rw [grown]
  by_cases hk : k = e.callback
  · rw [if_pos hk,hk,fresh]
    simp [executedBy]
  · rw [if_neg hk]
    simp [executedBy,Ne.symm hk]

theorem executed_server {i : Nat} {t : Zenoh.System} (s : System) (ticket : Nat × Nat) :
    executedBy ((s.setServer i t).servers ticket.1) ticket.2 =
      if ticket.1 = i then executedBy t ticket.2 else executedBy (s.servers ticket.1) ticket.2 := by
  by_cases hi : ticket.1 = i
  · rw [if_pos hi,hi]
    simp [System.setServer]
  · rw [if_neg hi]
    simp [System.setServer,hi]

theorem answer_ticket (hs : Sound payload s) (few : Few s) {call : Nat × Nat} {value : DdsBytes}
    (running : result (s.callOf call).pc = none)
    (held : (s.callOf call).state.value = some value) : ∃ ticket,
      (calls payload s).offered ticket = some call ∧
        (calls payload s).executed ticket = [(payload call,some value)] := by
  obtain ⟨i,k,present,rfl,sent⟩ := hs.value call value running held
  obtain ⟨as,run⟩ := hs.servers i
  obtain ⟨d,hd,rfl,response⟩ := (Zenoh.run_correlated (few i) run).replies k value sent
  refine ⟨(i,d.entry.callback),if_pos present,?_⟩
  have own : d.entry.message.payload = payload (s.origin i d.entry.callback) := by
    rw [((Zenoh.run_wellFormed run).dispatched d hd).2]
    simp [Zenoh.System.messageOf,hs.payload i _ present]
  rw [← own,← response]
  exact executedBy_of_mem ⟨as,run⟩ hd

theorem run_one {u v : Calls} {b : Service.Action (Nat × Nat) (Nat × Nat) DdsBytes DdsBytes
    Zenoh.Client.RequestError} (h : Service.step u b = some v) :
    ∃ bs, Transition.run Service.step u bs = some v := ⟨[b],Transition.run_single h⟩

theorem run_none {u v : Calls} (h : v = u) : ∃ bs, Transition.run Service.step u bs = some v :=
  ⟨[],by rw [h]; rfl⟩

inductive ServerEffect (s s' : Zenoh.System) : Prop
  | quiet (dispatched : s'.dispatched = s.dispatched)
  | dispatch (e : Zenoh.Queued) (outcome : HandlerOutcome) (was : s.worker = .atDispatch e)
      (dispatched : s'.dispatched = s.dispatched ++ [⟨e,outcome,s.opens⟩])

theorem server_effect {s s' : Zenoh.System} {a : Zenoh.Action} (h : Zenoh.step s a = some s') :
    ServerEffect s s' := by
  cases a with
  | callback k ok => exact .quiet (Zenoh.callback_frame h).dispatched
  | worker timedOut outcome =>
    cases Zenoh.worker_move h with
    | dispatch e was now queue dispatched callbacks => exact .dispatch e outcome was dispatched
    | poll was now queue dispatched callbacks | pop e was now queue dispatched callbacks
    | lockPending e payload was now queue dispatched callbacks
    | miss e payload was now lookup queue dispatched callbacks
    | find e payload state was now lookup queue dispatched callbacks
    | lockState e payload state was now queue dispatched callbacks
    | store e payload state was now queue dispatched callbacks => exact .quiet dispatched
  | close c pick => exact .quiet (Zenoh.close_frame h).dispatched
  | arrive payload =>
    obtain rfl := Option.some.inj h
    exact .quiet (Zenoh.arrive_frame payload).dispatched
  | openTransport o ok =>
    obtain ⟨isOpen,openers,opens,he⟩ := Zenoh.openStep_fields (s := s) o ok
    obtain rfl := Option.some.inj h
    rw [he]
    exact .quiet rfl
  | requestStop | clearStop =>
    obtain rfl := Option.some.inj h
    exact .quiet rfl
  | startWorker =>
    obtain ⟨-,rfl⟩ := Zenoh.startWorker_some h
    exact .quiet rfl

theorem query_simulates {i : Nat} {call : Nat × Nat} (queried : (s.callOf call).queried = true) :
    Service.step (calls payload s) (.offer (i,(s.servers i).arrived) call) =
      some (calls payload (s.query payload call i)) := by
  have frame := Zenoh.arrive_frame (s := s.servers i) (some (payload call))
  have offered : (calls payload s).offered (i,(s.servers i).arrived) = none := by simp [calls]
  have sent : (calls payload s).sent call = some (payload call) := by simp [calls,queried]
  simp only [Service.step,offered,sent,Option.some.injEq]
  refine Service.State.ext rfl (funext fun ticket => ?_) (funext fun ticket => ?_) rfl
  · obtain ⟨j,k⟩ := ticket
    simp only [calls,System.query,System.setServer,Function.update_apply,Prod.mk.injEq]
    by_cases hj : j = i
    · subst hj
      by_cases hk : k = (s.servers j).arrived
      · simp [hk,frame.arrived]
      · have same : k < (s.servers j).arrived + 1 ↔ k < (s.servers j).arrived := by omega
        simp [hk,frame.arrived,same]
    · simp [hj]
  · refine Eq.trans ?_ (executed_server s ticket).symm
    simp only [executedBy,frame.dispatched]
    by_cases hi : ticket.1 = i
    · rw [if_pos hi,← hi]
      rfl
    · rw [if_neg hi]
      rfl

theorem server_simulates (hs : Sound payload s) {i : Nat} {t : Zenoh.System} {a : Zenoh.Action}
    (quiet : ∀ value, a ≠ .arrive value) (h : Zenoh.step (s.servers i) a = some t) :
    ∃ bs, Transition.run Service.step (calls payload s) bs =
      some (calls payload (s.setServer i t)) := by
  have arrived := server_arrived h quiet
  have offered : (calls payload (s.setServer i t)).offered = (calls payload s).offered := by
    funext ticket
    simp only [calls,System.setServer,Function.update_apply]
    split
    · rename_i hi
      rw [arrived,hi]
    · rfl
  have executed (ticket : Nat × Nat) := executed_server (i := i) (t := t) s ticket
  cases server_effect h with
  | quiet dispatched =>
    refine run_none (Service.State.ext rfl offered (funext fun ticket => ?_) rfl)
    refine (executed ticket).trans ?_
    by_cases hi : ticket.1 = i
    · rw [if_pos hi,executedBy,dispatched,← hi]
      rfl
    · rw [if_neg hi]
      rfl
  | dispatch e outcome was dispatched =>
    obtain ⟨as,run⟩ := hs.servers i
    have named := (Zenoh.run_wellFormed run).incoming e (by rw [was]; rfl)
    have own : e.message.payload = payload (s.origin i e.callback) := by
      rw [named.2]
      simp [Zenoh.System.messageOf,hs.payload i _ named.1]
    have ready : (calls payload s).offered (i,e.callback) = some (s.origin i e.callback) :=
      if_pos named.1
    have fresh : (calls payload s).executed (i,e.callback) = [] := not_executed ⟨as,run⟩ was
    have sent : (calls payload s).sent (s.origin i e.callback) = some e.message.payload := by
      rw [own]
      exact if_pos (hs.queried i _ named.1)
    refine run_one (b := .execute (i,e.callback) outcome.response) ?_
    simp only [Service.step,ready,fresh,sent,Option.map_some,Option.some.injEq]
    refine Service.State.ext rfl offered.symm (funext fun ticket => ?_) rfl
    refine Eq.trans ?_ (executed ticket).symm
    obtain ⟨j,k⟩ := ticket
    by_cases hj : j = i
    · subst hj
      rw [if_pos rfl,executed_dispatch dispatched fresh]
      simp only [calls,Function.update_apply,Prod.mk.injEq,true_and]
    · simp [calls,hj]

theorem client_simulates (hs : Sound payload s) (few : Few s) {c : Nat} {a : Zenoh.Client.Action}
    (servers : s'.servers = s.servers) (origin : s'.origin = s.origin) (h : ClientStep s s' c a) :
    ∃ bs, Transition.run Service.step (calls payload s) bs = some (calls payload s') := by
  have offered : (calls payload s').offered = (calls payload s).offered := by
    simp only [calls,servers,origin]
  have executed : (calls payload s').executed = (calls payload s).executed := by
    simp only [calls,servers]
  have kept {r : Nat} (others : ∀ call, call ≠ (c,r) → s'.callOf call = s.callOf call)
      (queried : (s'.callOf (c,r)).queried = (s.callOf (c,r)).queried) :
      (calls payload s').sent = (calls payload s).sent := by
    funext call
    by_cases hc : call = (c,r)
    · simp only [calls,hc,queried]
    · simp only [calls,others call hc]
  have finished {r : Nat} (others : ∀ call, call ≠ (c,r) → s'.callOf call = s.callOf call) :
      (calls payload s').result =
        Function.update (calls payload s).result (c,r) (result (s'.callOf (c,r)).pc) := by
    funext call
    by_cases hc : call = (c,r)
    · simp [calls,hc]
    · simp [calls,hc,others call hc]
  have unfinished {r : Nat} (others : ∀ call, call ≠ (c,r) → s'.callOf call = s.callOf call)
      (results : result (s'.callOf (c,r)).pc = result (s.callOf (c,r)).pc) :
      (calls payload s').result = (calls payload s).result := by
    rw [finished others,results]
    exact Function.update_eq_self ..
  cases h with
  | rests same =>
    refine run_none (Service.State.ext ?_ offered executed ?_) <;> simp only [calls,same]
  | receives r event was now others =>
    exact run_none (Service.State.ext (kept others (by rw [now])) offered executed
      (unfinished others (by rw [now])))
  | moves r effect others =>
    cases effect with
    | quiet started queried results value =>
      exact run_none (Service.State.ext (kept others queried) offered executed
        (unfinished others results))
    | sends fresh started queried before after value =>
      have silent : (calls payload s).sent (c,r) = none := by simp [calls,hs.fresh _ fresh]
      refine run_one (b := .send (c,r) (payload (c,r))) ?_
      simp only [Service.step,silent,Option.some.injEq]
      refine Service.State.ext (funext fun call => ?_) offered.symm executed.symm
        (unfinished others (after.trans before.symm)).symm
      by_cases hc : call = (c,r)
      · simp [calls,hc,queried]
      · simp [calls,hc,others call hc]
    | ends outcome queried before now held =>
      have running : (calls payload s).result (c,r) = none := before
      have result := finished others
      rw [now] at result
      cases outcome with
      | error error =>
        refine run_one (b := .fail (c,r) error) ?_
        simp only [Service.step,running,Option.some.injEq]
        exact Service.State.ext (kept others queried).symm offered.symm executed.symm result.symm
      | ok value =>
        obtain ⟨ticket,own,response⟩ := answer_ticket hs few before (held value rfl)
        refine run_one (b := .answer (c,r) ticket) ?_
        simp only [Service.step,running,own,response,if_true,Option.some.injEq]
        exact Service.State.ext (kept others queried).symm offered.symm executed.symm result.symm

theorem step_simulates (hs : Sound payload s) (few : Few s) (h : step payload s a = some s') :
    ∃ bs, Transition.run Service.step (calls payload s) bs = some (calls payload s') := by
  cases step_move h with
  | server i a t quiet moved now => exact now ▸ server_simulates hs quiet moved
  | query call i queried now => exact now ▸ run_one (query_simulates queried)
  | client c a t arrives moved now =>
    subst now
    exact client_simulates hs few rfl rfl (client_step moved)

theorem run_refines {as : List Action} (hs : Sound payload s)
    (h : Transition.run (step payload) s as = some s') (few : Few s') :
    ∃ bs, Transition.run Service.step (calls payload s) bs = some (calls payload s') := by
  -- Up to the first server that runs out of ids.
  let R (u : Calls) (t : System) := Sound payload t ∧ (Few t → u = calls payload t)
  have simulates : ∀ u t a t', R u t → step payload t a = some t' →
      ∃ bs v, Transition.run Service.step u bs = some v ∧ R v t' := by
    rintro u t a t' ⟨ht,same⟩ moved
    by_cases few' : Few t'
    · have before := step_few moved few'
      obtain ⟨bs,run⟩ := step_simulates ht before moved
      exact ⟨bs,_,same before ▸ run,step_sound ht moved,fun _ => rfl⟩
    · exact ⟨[],u,rfl,step_sound ht moved,fun now => absurd now few'⟩
  obtain ⟨bs,v,run,-,same⟩ := Transition.run_simulates simulates ⟨hs,fun _ => rfl⟩ h
  exact ⟨bs,same few ▸ run⟩

theorem zenoh_rpc_refines (payload : Nat × Nat → DdsBytes) (as bs : List Action) (s t : System)
    (h : Transition.run (step payload) .initial as = some s)
    (h' : Transition.run (step payload) s bs = some t) (few : Few t) :
    (∃ cs, Transition.run Service.step .initial cs = some (calls payload s)) ∧
      (∃ ds, Transition.run Service.step (calls payload s) ds = some (calls payload t)) ∧
        Service.Extends (calls payload s) (calls payload t) := by
  have sound := run_sound h
  have before : Few s := run_few h' few
  obtain ⟨cs,first⟩ := run_refines sound_initial h before
  obtain ⟨ds,rest⟩ := run_refines sound h' few
  exact ⟨⟨cs,calls_initial ▸ first⟩,⟨ds,rest⟩,Service.run_extends rest⟩

def oneCall : List Action :=
  [.client 0 (.configure false true ['k']),.client 0 (.request 0 true false)] ++
    Zenoh.bringUp.map (.server 0) ++ [.query (0,0) 0] ++
    (Zenoh.callbackSteps 0 9).map (.server 0) ++
    (Zenoh.workerSteps 8 (.returns [2])).map (.server 0) ++
    (Zenoh.callbackSteps 0 4).map (.server 0) ++
    [.client 0 (.request 0 true false),.reply 0 0 [2]] ++
    List.replicate 4 (.client 0 (.request 0 true false))

theorem zenoh_rpc_refines_answered : ∃ s t,
    Transition.run (step fun _ => [1]) .initial (oneCall.take 24) = some s ∧
      Transition.run (step fun _ => [1]) s (oneCall.drop 24) = some t ∧
      (calls (fun _ => [1]) t).result (0,0) = some (.ok [2]) ∧
      (∃ cs, Transition.run Service.step .initial cs = some (calls (fun _ => [1]) s)) ∧
        (∃ ds, Transition.run Service.step (calls (fun _ => [1]) s) ds =
            some (calls (fun _ => [1]) t)) ∧
          Service.Extends (calls (fun _ => [1]) s) (calls (fun _ => [1]) t) := by
  refine ⟨_,_,rfl,rfl,rfl,?_⟩
  exact zenoh_rpc_refines (fun _ => [1]) (oneCall.take 24) (oneCall.drop 24) _ _ rfl rfl
    (few_of_length (fun _ => [1]) oneCall rfl (by decide))

structure ServedBy (payload : Nat × Nat → DdsBytes) (s : System) (call : Nat × Nat)
    (value : DdsBytes) (i : Nat) (d : Zenoh.Dispatched) : Prop where
  dispatched : d ∈ (s.servers i).dispatched
  own : s.origin i d.entry.callback = call
  kind : d.entry.message.kind = .request
  payload : d.entry.message.payload = payload call
  response : d.outcome.response = some value
  once : (s.servers i).dispatched.countP (fun e => e.entry.callback = d.entry.callback) = 1

theorem zenoh_rpc_end_to_end (payload : Nat × Nat → DdsBytes) (as : List Action) (s : System)
    (call : Nat × Nat) (value : DdsBytes)
    (h : Transition.run (step payload) .initial as = some s) (few : Few s)
    (ended : (s.callOf call).pc = .ended (.ok value)) : ∃ i d, ServedBy payload s call value i d := by
  obtain ⟨bs,run⟩ := run_refines sound_initial h few
  rw [calls_initial] at run
  have answered : (calls payload s).result call = some (.ok value) := by
    simp only [calls,ended]
    rfl
  obtain ⟨⟨i,k⟩,own,offered,sent,executed⟩ := (Service.run_faithful run).answered call value answered
  obtain ⟨d,hd,rfl,rfl,response⟩ := mem_of_executedBy executed
  obtain ⟨as',reached⟩ := (run_sound h).servers i
  have named := (Zenoh.run_wellFormed reached).dispatched d hd
  refine ⟨i,d,hd,?_,?_,?_,response,?_⟩
  · simpa [calls,named.1] using offered
  · rw [named.2]
    simp [Zenoh.System.messageOf,(Zenoh.run_wellFormed reached).server]
  · simp only [calls,Option.ite_none_right_eq_some,Option.some.injEq] at sent
    exact sent.2.symm
  · rw [List.countP_eq_length_filter,filter_of_mem ⟨as',reached⟩ hd]
    rfl

theorem zenoh_rpc_end_to_end_answered : ∃ s,
    Transition.run (step fun _ => [1]) .initial oneCall = some s ∧
      (s.callOf (0,0)).pc = .ended (.ok [2]) ∧ ∃ i d, ServedBy (fun _ => [1]) s (0,0) [2] i d := by
  refine ⟨_,rfl,rfl,?_⟩
  exact zenoh_rpc_end_to_end (fun _ => [1]) oneCall _ (0,0) [2] rfl
    (few_of_length (fun _ => [1]) oneCall rfl (by decide)) rfl

end DdsAbstract.Rpc
