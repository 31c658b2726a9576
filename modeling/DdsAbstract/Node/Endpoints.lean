import DdsAbstract.Node.Lifecycle
import DdsAbstract.Node.World

namespace DdsAbstract.Node

theorem ZeroMqTransport.openSocket_isSome {lib : Library} {isServer : Bool} {type : SocketType}
    {address : Option DdsNodeAddress} {socket : Option Socket}
    (h : openSocket lib isServer type address = .ok socket) : socket.isSome = address.isSome := by
  cases address with
  | none =>
    obtain rfl := Except.ok.inj h
    rfl
  | some address =>
    simp only [openSocket] at h
    split at h
    · obtain rfl := Except.ok.inj h
      rfl
    · cases h

theorem ZenohTransport.openEntities_session {lib : Library}
    {broadcast request : Option DdsNodeAddress} {isServer : Bool} {entities : ZenohEntities}
    (h : openEntities lib broadcast request isServer = .ok entities) :
    entities.session = true := by
  unfold openEntities at h
  split at h
  · cases h
  · cases hp : declareKey lib isServer broadcast <;> cases hq : declareKey lib isServer request <;>
      cases hs : declareKey lib (!isServer) broadcast <;>
      simp only [hp,hq,hs,bind,Except.bind,pure,Except.pure] at h <;> cases h
    rfl

theorem DdsTransport.openTransport_owns {t : DdsTransport} (h : t.isOpen = false) (lib : Library)
    {broadcast request : Option DdsNodeAddress} (isServer : Bool)
    (given : broadcast.isSome || request.isSome) :
    (t.openTransport lib broadcast request isServer).state.owns =
      t.opens lib broadcast request isServer := by
  cases t with
  | zeroMq t =>
    have closed : t.isOpen = false := h
    simp only [openTransport,opens,ZeroMqTransport.openTransport,ZeroMqTransport.opens,closed,
      Bool.false_eq_true,if_false]
    cases hb : ZeroMqTransport.openSocket lib isServer
        (ZeroMqTransport.broadcastType isServer) broadcast with
    | error e => rfl
    | ok b =>
      cases hr : ZeroMqTransport.openSocket lib isServer
          (ZeroMqTransport.requestType isServer) request with
      | error e => rfl
      | ok r =>
        rw [← ZeroMqTransport.openSocket_isSome hb,← ZeroMqTransport.openSocket_isSome hr] at given
        cases b <;> cases r
        case none.none => cases given
        all_goals rfl
  | zenoh t =>
    have closed : t.isOpen = false := h
    simp only [openTransport,opens,ZenohTransport.openTransport,ZenohTransport.opens,closed,
      Bool.false_eq_true,if_false]
    cases he : ZenohTransport.openEntities lib broadcast request isServer with
    | error e => rfl
    | ok entities =>
      have session := ZenohTransport.openEntities_session he
      have different : entities ≠ .reset := by
        rintro rfl
        cases session
      simp [owns,DdsTransport.entities,different,Except.isOk,Except.toBool]

theorem Channel.open_owns {ch : Channel} (h : ch.isOpen = false) (kind : ChannelKind)
    (lib : Library) (isServer : Bool) :
    (ch.openTransport kind lib isServer).state.owns = ch.opens kind lib isServer :=
  DdsTransport.openTransport_owns h lib isServer (by cases kind <;> rfl)

@[simp] theorem Channel.close_owns (ch : Channel) : ch.close.owns = ch.owns := by
  obtain ⟨address,transport⟩ := ch
  cases transport <;> rfl

theorem Channel.Fresh.owns {ch : Channel} (h : ch.Fresh) : ch.owns = false := by
  rcases h with h | h <;> simp only [Channel.owns,h] <;> rfl

namespace DdsNodeCore

variable {s : DdsNodeCore} {env : StartEnv}

def opensFirst (s : DdsNodeCore) (env : StartEnv) : Bool :=
  match s.broadcast with
  | some ch => ch.opens .broadcast env.broadcastLibrary s.isServer
  | none => s.request.any (·.opens .request env.requestLibrary s.isServer)

theorem closeTransports_owns (s : DdsNodeCore) : s.closeTransports.owns = s.owns := by
  cases hb : s.broadcast <;> cases hr : s.request <;> simp [closeTransports,owns,hb,hr]

theorem stop_owns (s : DdsNodeCore) : s.stop.owns = s.owns := by
  unfold stop
  split
  · rfl
  · exact s.closeTransports_owns

theorem spawn_owns (s : DdsNodeCore) (env : StartEnv) : (s.spawn env).state.owns = s.owns := by
  simp only [spawn]
  split
  · rfl
  · split
    · rfl
    · exact stop_owns _

theorem openTransports_owns (hs : s.AllClosed) (hn : s.owns = false) (env : StartEnv) :
    (s.openTransports env).state.owns = s.opensFirst env := by
  simp only [AllClosed,channels,List.mem_append,Option.mem_toList] at hs
  simp only [owns,Bool.or_eq_false_iff] at hn
  have request : ∀ t : DdsNodeCore, t.request = s.request → t.role = s.role →
      (t.openRequest env.requestLibrary).state.request.any Channel.owns =
        s.request.any (·.opens .request env.requestLibrary s.isServer) := by
    intro t ht hrole
    have server : t.isServer = s.isServer := by simp only [isServer,hrole]
    cases hr : s.request with
    | none => simp [openRequest,ht,hr]
    | some ch =>
      have := Channel.open_owns (hs ch (.inr hr)) .request env.requestLibrary s.isServer
      simpa [openRequest,ht,hr,server] using this
  have keeps (t : DdsNodeCore) : (t.openRequest env.requestLibrary).state.broadcast = t.broadcast := by
    unfold openRequest
    split <;> rfl
  cases hb : s.broadcast with
  | none =>
    have opened : s.openBroadcast env.broadcastLibrary = ⟨s,none⟩ := by simp [openBroadcast,hb]
    simp only [openTransports,opened,owns,keeps,request s rfl rfl,opensFirst,hb]
    simp
  | some ch =>
    have closed := hs ch (.inl hb)
    have owned := Channel.open_owns closed .broadcast env.broadcastLibrary s.isServer
    have threw := (Channel.open_of_closed closed .broadcast env.broadcastLibrary s.isServer).2
    cases hopen : ch.openTransport .broadcast env.broadcastLibrary s.isServer with
    | mk t thrown =>
      rw [hopen] at owned threw
      have opened : s.openBroadcast env.broadcastLibrary =
          ⟨{ s with broadcast := some t },thrown⟩ := by
        simp [openBroadcast,hb,hopen]
      simp only [openTransports,opened,opensFirst,hb]
      cases thrown with
      | some e => simpa [owns,hn.2] using owned
      | none =>
        have first : ch.opens .broadcast env.broadcastLibrary s.isServer = true := threw.symm
        rw [first] at owned
        simp [owns,keeps,owned,first]

theorem start_owns (hj : s.joinable = false) (hs : s.AllClosed) (hn : s.owns = false)
    (env : StartEnv) : (s.start env).state.owns = s.opensFirst env := by
  rw [← openTransports_owns hs hn env]
  cases hthrew : (s.openTransports env).threw with
  | some e =>
    rw [start_openFails hj hthrew]
    exact closeTransports_owns _
  | none =>
    rw [start_opened hj hthrew]
    exact spawn_owns _ env

theorem opensFirst_of_opensAll (hc : s.channels ≠ []) (h : s.opensAll env = true) :
    s.opensFirst env = true := by
  simp only [opensAll,opensBroadcast,opensRequest,Bool.and_eq_true] at h
  cases hb : s.broadcast with
  | some ch => simpa [opensFirst,hb] using h.1
  | none =>
    cases hr : s.request with
    | none => simp [channels,hb,hr] at hc
    | some ch => simpa [opensFirst,hb,hr] using h.2

theorem owns_of_boundAt {endpoint : StdString} (h : s.boundAt endpoint = true) : s.owns = true := by
  have channel (ch : Channel) (hch : ch.boundAt endpoint = true) : ch.owns = true := by
    simp only [Channel.boundAt,DdsTransport.boundAt,List.any_eq_true] at hch
    obtain ⟨socket,hsocket,-⟩ := hch
    have := List.ne_nil_of_mem hsocket
    simp [Channel.owns,DdsTransport.owns,this]
  simp only [boundAt,owns,Bool.or_eq_true,Option.any_eq_true] at h ⊢
  rcases h with ⟨ch,hb,hch⟩ | ⟨ch,hr,hch⟩
  · exact .inl ⟨ch,hb,channel ch hch⟩
  · exact .inr ⟨ch,hr,channel ch hch⟩

theorem owns_of_answers {key : StdString} (h : s.answers key = true) : s.owns = true := by
  have channel (ch : Channel) (hch : ch.answers key = true) : ch.owns = true := by
    simp only [Channel.answers,beq_iff_eq] at hch
    have different : ch.transport.entities ≠ .reset := by
      intro he
      rw [he] at hch
      cases hch
    simp [Channel.owns,DdsTransport.owns,different]
  simp only [answers,owns,Bool.or_eq_true,Option.any_eq_true] at h ⊢
  rcases h with ⟨ch,hb,hch⟩ | ⟨ch,hr,hch⟩
  · exact .inl ⟨ch,hb,channel ch hch⟩
  · exact .inr ⟨ch,hr,channel ch hch⟩

end DdsNodeCore

open DdsNodeCore

structure Good (s : DdsNodeCore) : Prop extends Ready s where
  owned : s.owns = s.joinable

def Releases (s : DdsNodeCore) : Call → Prop
  | .stop => s.joinable = false
  | .start env => s.joinable = true ∨ env.Succeeds s ∨ s.opensFirst env = false
  | _ => True

variable {s : DdsNodeCore} {c : Call}

theorem call_owns (hstart : ∀ env, c ≠ .start env) :
    (call s c).state.owns = s.owns ∧ (c ≠ .stop → (call s c).state.joinable = s.joinable) := by
  cases c with
  | start env => exact absurd rfl (hstart env)
  | stop => exact ⟨stop_owns s,fun h => absurd rfl h⟩
  | setWorkerThreadName name =>
    simp only [call,setWorkerThreadName]
    split <;> exact ⟨rfl,fun _ => rfl⟩
  | setWorkerThreadScheduling policy priority strict =>
    simp only [call,setWorkerThreadScheduling]
    split <;> exact ⟨rfl,fun _ => rfl⟩
  | publish message send => exact ⟨rfl,fun _ => rfl⟩
  | request message get => exact ⟨rfl,fun _ => rfl⟩
  | onBroadcast handler => exact ⟨rfl,fun _ => rfl⟩
  | onRequest handler => exact ⟨rfl,fun _ => rfl⟩
  | onError handler => exact ⟨rfl,fun _ => rfl⟩

theorem start_owned {env : StartEnv} (h : Good s) :
    (s.start env).state.owns = (s.start env).state.joinable ↔ Releases s (.start env) := by
  cases hj : s.joinable with
  | true =>
    rw [(start_running hj env).1]
    exact ⟨fun _ => .inl hj,fun _ => h.owned⟩
  | false =>
    have closed := h.consistent.stopped hj
    have owned := start_owns hj closed (h.owned.trans hj) env
    have first (ha : s.opensAll env = true) := opensFirst_of_opensAll h.configured ha
    rw [owned]
    cases (start_end hj closed env).2 with
    | openFails opens joins hclosed threw =>
      rw [joins]
      refine ⟨fun hf => .inr (.inr hf),?_⟩
      rintro (hr | hs | hf)
      · rw [hj] at hr
        cases hr
      · rw [hs.opens] at opens
        cases opens
      · exact hf
    | threadFails opens creates joins opened =>
      rw [joins,first opens]
      refine ⟨(fun hf => by cases hf),?_⟩
      rintro (hr | hs | hf)
      · rw [hj] at hr
        cases hr
      · rw [hs.createsThread] at creates
        cases creates
      · rw [first opens] at hf
        exact hf
    | configureFails opens creates configures joins hclosed threw =>
      rw [joins,first opens]
      refine ⟨(fun hf => by cases hf),?_⟩
      rintro (hr | hs | hf)
      · rw [hj] at hr
        cases hr
      · exact absurd hs.configures configures
      · rw [first opens] at hf
        exact hf
    | starts opens creates configures joins opened threw =>
      rw [joins,first opens]
      exact ⟨fun _ => .inr (.inl ⟨opens,creates,configures⟩),fun _ => rfl⟩

theorem call_owned (h : Good s) :
    (call s c).state.owns = (call s c).state.joinable ↔ Releases s c := by
  by_cases hstart : ∃ env, c = .start env
  · obtain ⟨env,rfl⟩ := hstart
    exact start_owned h
  · have other : ∀ env, c ≠ .start env := fun env he => hstart ⟨env,he⟩
    obtain ⟨owns,joins⟩ := call_owns (s := s) other
    by_cases hstop : c = .stop
    · subst hstop
      have joinable : (call s .stop).state.joinable = false := stop_joinable s
      rw [owns,h.owned,joinable]
      rfl
    · rw [owns,h.owned,joins hstop]
      refine ⟨fun _ => ?_,fun _ => rfl⟩
      cases c <;> first | trivial | exact absurd rfl (other _)

theorem releases_createsThread (h : Good s) (hr : Releases s c) : CreatesThread s c := by
  rintro env rfl hj hopens
  rcases hr with hr | hs | hf
  · rw [hj] at hr
    cases hr
  · exact hs.createsThread
  · rw [opensFirst_of_opensAll h.configured hopens] at hf
    cases hf

theorem call_good (h : Good s) (hr : Releases s c) : Good (call s c).state :=
  ⟨call_ready h.toReady (releases_createsThread h hr),(call_owned h).mpr hr⟩

theorem call_owns_of_joinable (h : Good s) (hj : (call s c).state.joinable = true) :
    (call s c).state.owns = true := by
  by_cases hstart : ∃ env, c = .start env
  · obtain ⟨env,rfl⟩ := hstart
    cases hs : s.joinable with
    | true =>
      have state : (call s (.start env)).state = s := (start_running hs env).1
      rw [state,h.owned,hs]
    | false =>
      have closed := h.consistent.stopped hs
      have owned := start_owns hs closed (h.owned.trans hs) env
      cases (start_end hs closed env).2 with
      | starts opens creates configures joins opened threw =>
        exact owned.trans (opensFirst_of_opensAll h.configured opens)
      | openFails opens joins hclosed threw =>
        exact absurd (joins.symm.trans hj) Bool.false_ne_true
      | threadFails opens creates joins opened =>
        exact absurd (joins.symm.trans hj) Bool.false_ne_true
      | configureFails opens creates configures joins hclosed threw =>
        exact absurd (joins.symm.trans hj) Bool.false_ne_true
  · have other : ∀ env, c ≠ .start env := fun env he => hstart ⟨env,he⟩
    obtain ⟨owns,joins⟩ := call_owns (s := s) other
    by_cases hstop : c = .stop
    · subst hstop
      have : (call s .stop).state.joinable = false := stop_joinable s
      rw [hj] at this
      cases this
    · rw [owns,h.owned,← joins hstop,hj]

theorem call_released (h : Good s) :
    ((call s c).state.joinable = false → (call s c).state.owns = false) ↔ Releases s c := by
  rw [← call_owned h]
  constructor
  · intro hreleased
    cases hj : (call s c).state.joinable with
    | false => exact hreleased hj
    | true => exact call_owns_of_joinable h hj
  · intro howned hj
    rw [howned,hj]

namespace World

variable {w w' : World} {i j : Nat} {a : Action}

structure EndpointsReleased (w : World) : Prop where
  stopped : ∀ i s, w.node? i = some s → s.joinable = false → s.owns = false
  refused : ∀ i endpoint, w.boundElsewhere i endpoint = true →
    ∃ j s, j ≠ i ∧ w.node? j = some s ∧ s.boundAt endpoint = true ∧ s.joinable = true
  routed : ∀ i s key, w.node? i = some s → s.answers key = true → s.joinable = true

def ReleasesAll (w : World) : Action → Prop
  | .call i c => ∀ s, w.node? i = some s → Releases s (c.within w i s)
  | _ => True

def AllGood (w : World) : Prop := ∀ i s, w.node? i = some s → Good s

theorem endpointsReleased_iff : EndpointsReleased w ↔
    ∀ i s, w.node? i = some s → s.joinable = false → s.owns = false := by
  refine ⟨fun h => h.stopped,fun h => ?_⟩
  have running (i : Nat) (s : DdsNodeCore) (hs : w.node? i = some s) (ho : s.owns = true) :
      s.joinable = true := by
    cases hj : s.joinable with
    | true => rfl
    | false =>
      rw [h i s hs hj] at ho
      cases ho
  refine ⟨h,?_,fun i s key hs hk => running i s hs (owns_of_answers hk)⟩
  intro i endpoint hb
  simp only [boundElsewhere,List.any_eq_true,Bool.and_eq_true,bne_iff_ne,Option.any_eq_true] at hb
  obtain ⟨j,-,hji,s,hs,hbound⟩ := hb
  exact ⟨j,s,hji,hs,hbound,running j s hs (owns_of_boundAt hbound)⟩

theorem node?_set {x : Option DdsNodeCore} (hi : (w.node? i).isSome) :
    (⟨w.nodes.set i x⟩ : World).node? j = if j = i then x else w.node? j := by
  have hlt : i < w.nodes.length := by
    rcases Nat.lt_or_ge i w.nodes.length with hlt | hge
    · exact hlt
    · simp [node?,List.getElem?_eq_none hge] at hi
  by_cases hji : j = i
  · subst hji
    simp [node?,hlt]
  · simp [node?,hji,List.getElem?_set_ne (Ne.symm hji)]

theorem node?_destroy {s : DdsNodeCore} (h : (⟨w.nodes.set i none⟩ : World).node? j = some s) :
    w.node? j = some s := by
  by_cases hji : j = i
  · subst hji
    by_cases hlt : j < w.nodes.length
    · simp [node?,hlt] at h
    · simp [node?,hlt] at h
  · simpa [node?,List.getElem?_set_ne (Ne.symm hji)] using h

theorem node?_create {fresh s : DdsNodeCore}
    (h : (⟨w.nodes ++ [some fresh]⟩ : World).node? j = some s) :
    w.node? j = some s ∨ s = fresh := by
  simp only [node?,Option.join_eq_some_iff,List.getElem?_append] at h ⊢
  split at h
  · exact .inl h
  · rename_i hge
    right
    rw [List.getElem?_singleton] at h
    split at h
    · simpa using h.symm
    · cases h

theorem construct_good {build : DdsTransport.Build} {role : EndpointRole}
    {broadcastAddress requestAddress : StdString} {config : DdsThreadConfig} {s : DdsNodeCore}
    (h : construct build role broadcastAddress requestAddress config = .ok s) : Good s := by
  obtain ⟨joins,-,fresh⟩ := construct_fresh h
  refine ⟨construct_ready h,?_⟩
  rw [joins]
  simp only [channels,List.mem_append,Option.mem_toList] at fresh
  simp only [owns,Bool.or_eq_false_iff,Option.any_eq_false]
  exact ⟨fun ch hb => by simp [(fresh ch (.inl hb)).owns],
    fun ch hr => by simp [(fresh ch (.inr hr)).owns]⟩

theorem step_allGood (h : AllGood w) (hr : ReleasesAll w a) (ha : step w a = some w') :
    AllGood w' := by
  cases a with
  | create build role b r config =>
    simp only [step] at ha
    split at ha <;> obtain rfl := Option.some.inj ha
    · exact h
    · rename_i made
      intro j s hs
      rcases node?_create hs with hs | rfl
      · exact h j s hs
      · exact construct_good made
  | call i c =>
    simp only [step] at ha
    split at ha <;> obtain rfl := Option.some.inj ha
    · exact h
    · rename_i n hn
      intro j s hs
      rw [node?_set (by simp [hn])] at hs
      split at hs
      · obtain rfl := Option.some.inj hs
        exact call_good (h i n hn) (hr n hn)
      · exact h j s hs
  | destroy i =>
    obtain rfl := Option.some.inj ha
    intro j s hs
    exact h j s (node?_destroy hs)

theorem step_released (h : AllGood w) (ha : step w a = some w') :
    EndpointsReleased w' ↔ ReleasesAll w a := by
  rw [endpointsReleased_iff]
  have old (i : Nat) (s : DdsNodeCore) (hs : w.node? i = some s) (hj : s.joinable = false) :
      s.owns = false := (h i s hs).owned.trans hj
  cases a with
  | create build role b r config =>
    refine ⟨fun _ => trivial,fun _ => ?_⟩
    intro j s hs hj
    have := step_allGood h (a := .create build role b r config) trivial ha
    exact (this j s hs).owned.trans hj
  | call i c =>
    simp only [step] at ha
    split at ha <;> obtain rfl := Option.some.inj ha
    · rename_i hn
      refine ⟨fun _ s hs => ?_,fun _ => old⟩
      rw [hn] at hs
      cases hs
    · rename_i n hn
      have here : ReleasesAll w (.call i c) ↔ Releases n (c.within w i n) := by
        refine ⟨fun hr => hr n hn,fun hr s hs => ?_⟩
        obtain rfl : n = s := Option.some.inj (hn.symm.trans hs)
        exact hr
      rw [here,← call_released (h i n hn)]
      refine ⟨fun hall hj => hall i _ (by rw [node?_set (by simp [hn]),if_pos rfl]) hj,?_⟩
      intro hcall j s hs hj
      rw [node?_set (by simp [hn])] at hs
      split at hs
      · obtain rfl := Option.some.inj hs
        exact hcall hj
      · exact old j s hs hj
  | destroy i =>
    obtain rfl := Option.some.inj ha
    exact ⟨fun _ => trivial,fun _ j s hs hj => old j s (node?_destroy hs) hj⟩

theorem endpoints_released (as : List Action) :
    Transition.Each step (fun _ _ w => EndpointsReleased w) initial as ↔
      Transition.Meets step ReleasesAll initial as := by
  refine Transition.each_iff_meets (I := AllGood) ?_ ?_ ?_ ?_
  · intro w a
    cases a <;> simp only [step] <;> (try split) <;> exact ⟨_,rfl⟩
  · exact fun w a t h hr ha => step_allGood h hr ha
  · exact fun w a t h ha => step_released h ha
  · intro i s hs
    simp [node?,initial] at hs

def stoppedThenStarted : List Action :=
  [.create backends .server [] serverAddress {},.create backends .server [] serverAddress {},
    .call 0 (.start (startEnv true)),.call 0 .stop,.call 1 (.start (startEnv true))]

theorem endpoints_released_counterexample :
    ¬ ∀ as : List Action, Transition.Each step (fun _ _ w => EndpointsReleased w) initial as := by
  intro h
  have started := ((h stoppedThenStarted _ rfl).2 _ rfl).2 _ rfl
  have refused := ((started.2 _ rfl).2 _ rfl).1
  have owns := refused.stopped 0 _ rfl rfl
  cases owns

example : ((Transition.run step initial stoppedThenStarted).bind (·.node? 1)).map (·.joinable) =
    some false := rfl

end World

end DdsAbstract.Node
