import DdsAbstract.Lib.Transition
import DdsAbstract.Node.Core

namespace DdsAbstract.Node

def ZeroMqTransport.opens (lib : Library) (broadcast request : Option DdsNodeAddress)
    (isServer : Bool) : Bool :=
  (ZeroMqTransport.openSocket lib isServer (broadcastType isServer) broadcast).isOk &&
    (ZeroMqTransport.openSocket lib isServer (requestType isServer) request).isOk

def ZenohTransport.opens (lib : Library) (broadcast request : Option DdsNodeAddress)
    (isServer : Bool) : Bool :=
  (ZenohTransport.openEntities lib broadcast request isServer).isOk

def DdsTransport.opens (lib : Library) (broadcast request : Option DdsNodeAddress)
    (isServer : Bool) : DdsTransport → Bool
  | zeroMq _ => ZeroMqTransport.opens lib broadcast request isServer
  | zenoh _ => ZenohTransport.opens lib broadcast request isServer

def Channel.opens (ch : Channel) (kind : ChannelKind) (lib : Library) (isServer : Bool) : Bool :=
  ch.transport.opens lib (ch.broadcastAddress kind) (ch.requestAddress kind) isServer

def Channel.isOpen (ch : Channel) : Bool := ch.transport.isOpen

namespace DdsNodeCore

def opensBroadcast (s : DdsNodeCore) (env : StartEnv) : Bool :=
  s.broadcast.all (·.opens .broadcast env.broadcastLibrary s.isServer)

def opensRequest (s : DdsNodeCore) (env : StartEnv) : Bool :=
  s.request.all (·.opens .request env.requestLibrary s.isServer)

def opensAll (s : DdsNodeCore) (env : StartEnv) : Bool :=
  s.opensBroadcast env && s.opensRequest env

def channels (s : DdsNodeCore) : List Channel := s.broadcast.toList ++ s.request.toList

def AllOpen (s : DdsNodeCore) : Prop := ∀ ch ∈ s.channels, ch.isOpen = true

def AllClosed (s : DdsNodeCore) : Prop := ∀ ch ∈ s.channels, ch.isOpen = false

structure Status where
  running : Bool
  broadcast : Option (DdsNodeAddress × Bool)
  request : Option (DdsNodeAddress × Bool)
  workerConfig : DdsThreadConfig

def status (s : DdsNodeCore) : Status where
  running := s.joinable
  broadcast := s.broadcast.map (fun ch => (ch.address,ch.isOpen))
  request := s.request.map (fun ch => (ch.address,ch.isOpen))
  workerConfig := s.workerConfig

structure Consistent (s : DdsNodeCore) : Prop where
  running : s.joinable = true ↔ s.AllOpen
  stopped : s.joinable = false → s.AllClosed

end DdsNodeCore

structure StartEnv.Succeeds (env : StartEnv) (s : DdsNodeCore) : Prop where
  opens : s.opensAll env = true
  createsThread : env.createsThread = true
  configures : configureDdsCurrentThread env.os s.workerConfig = .ok ()

structure LifecycleOk (s : DdsNodeCore) (c : Call) : Prop where
  consistent : (call s c).state.Consistent
  unchanged : (call s c).threw ≠ none → (call s c).state.status = s.status
  starts : ∀ env, c = .start env → s.joinable = false → env.Succeeds s → (call s c).threw = none

def CreatesThread (s : DdsNodeCore) (c : Call) : Prop :=
  ∀ env, c = .start env → s.joinable = false → s.opensAll env = true → env.createsThread = true

theorem ZeroMqTransport.openTransport_of_closed {t : ZeroMqTransport} (h : t.isOpen = false)
    (lib : Library) (broadcast request : Option DdsNodeAddress) (isServer : Bool) :
    let opened := t.openTransport lib broadcast request isServer
    opened.state.isOpen = opens lib broadcast request isServer ∧
      opened.threw.isNone = opens lib broadcast request isServer := by
  simp only [openTransport,h,opens,Bool.false_eq_true,if_false]
  cases openSocket lib isServer (broadcastType isServer) broadcast with
  | error e => exact ⟨rfl,rfl⟩
  | ok b =>
    cases openSocket lib isServer (requestType isServer) request with
    | error e => exact ⟨rfl,rfl⟩
    | ok r => exact ⟨rfl,rfl⟩

theorem ZenohTransport.openTransport_of_closed {t : ZenohTransport} (h : t.isOpen = false)
    (lib : Library) (broadcast request : Option DdsNodeAddress) (isServer : Bool) :
    let opened := t.openTransport lib broadcast request isServer
    opened.state.isOpen = opens lib broadcast request isServer ∧
      opened.threw.isNone = opens lib broadcast request isServer := by
  simp only [openTransport,h,opens,Bool.false_eq_true,if_false]
  cases openEntities lib broadcast request isServer with
  | error e => exact ⟨rfl,rfl⟩
  | ok entities => exact ⟨rfl,rfl⟩

theorem Channel.open_of_closed {ch : Channel} (h : ch.isOpen = false) (kind : ChannelKind)
    (lib : Library) (isServer : Bool) :
    (ch.openTransport kind lib isServer).state.isOpen = ch.opens kind lib isServer ∧
      (ch.openTransport kind lib isServer).threw.isNone = ch.opens kind lib isServer := by
  obtain ⟨address,transport⟩ := ch
  cases transport with
  | zeroMq t => exact ZeroMqTransport.openTransport_of_closed h lib _ _ isServer
  | zenoh t => exact ZenohTransport.openTransport_of_closed h lib _ _ isServer

@[simp] theorem Channel.close_address (ch : Channel) : ch.close.address = ch.address := rfl

@[simp] theorem Channel.close_isOpen (ch : Channel) : ch.close.isOpen = false := by
  obtain ⟨address,transport⟩ := ch
  cases transport <;> rfl

namespace DdsNodeCore

variable {s : DdsNodeCore} {env : StartEnv}

structure SameConfig (s t : DdsNodeCore) : Prop where
  role : t.role = s.role
  workerConfig : t.workerConfig = s.workerConfig
  broadcast : t.broadcast.map (·.address) = s.broadcast.map (·.address)
  request : t.request.map (·.address) = s.request.map (·.address)

theorem SameConfig.trans {t u : DdsNodeCore} (h : SameConfig s t) (h' : SameConfig t u) :
    SameConfig s u :=
  ⟨h'.role.trans h.role,h'.workerConfig.trans h.workerConfig,h'.broadcast.trans h.broadcast,
    h'.request.trans h.request⟩

theorem SameConfig.channels_nil {t : DdsNodeCore} (h : SameConfig s t) :
    t.channels = [] ↔ s.channels = [] := by
  have hb := congrArg Option.isNone h.broadcast
  have hr := congrArg Option.isNone h.request
  simp only [Option.isNone_map] at hb hr
  simp [channels,← Option.isNone_iff_eq_none,hb,hr]

theorem status_of_closed {t : DdsNodeCore} (h : SameConfig s t) (hj : t.joinable = s.joinable)
    (hs : s.AllClosed) (ht : t.AllClosed) : t.status = s.status := by
  have closed (u : DdsNodeCore) (hu : u.AllClosed) : u.status =
      ⟨u.joinable,(u.broadcast.map (·.address)).map (fun a => (a,false)),
        (u.request.map (·.address)).map (fun a => (a,false)),u.workerConfig⟩ := by
    simp only [AllClosed,channels,List.mem_append,Option.mem_toList] at hu
    simp only [status,Option.map_map,Status.mk.injEq,true_and,and_true]
    constructor
    · exact Option.map_congr (fun ch hch => by simp [hu ch (.inl hch)])
    · exact Option.map_congr (fun ch hch => by simp [hu ch (.inr hch)])
  rw [closed t ht,closed s hs,h.broadcast,h.request,h.workerConfig,hj]

theorem closeTransports_sameConfig (s : DdsNodeCore) : SameConfig s s.closeTransports := by
  refine ⟨rfl,rfl,?_,?_⟩ <;> simp [closeTransports,Function.comp_def]

theorem closeTransports_allClosed (s : DdsNodeCore) : s.closeTransports.AllClosed := by
  simp only [AllClosed,channels,closeTransports,List.mem_append,Option.mem_toList,
    Option.map_eq_some_iff]
  rintro ch (⟨c,-,rfl⟩ | ⟨c,-,rfl⟩) <;> exact Channel.close_isOpen c

theorem openBroadcast_spec (hs : ∀ ch, s.broadcast = some ch → ch.isOpen = false) (lib : Library) :
    let opened := s.openBroadcast lib
    SameConfig s opened.state ∧ opened.state.joinable = s.joinable ∧
      opened.state.request = s.request ∧
      opened.threw.isNone = s.broadcast.all (·.opens .broadcast lib s.isServer) ∧
      (opened.threw = none → ∀ ch, opened.state.broadcast = some ch → ch.isOpen = true) := by
  cases hb : s.broadcast with
  | none => simp [openBroadcast,hb,SameConfig.mk]
  | some ch =>
    obtain ⟨hopen,hthrew⟩ := Channel.open_of_closed (hs ch hb) .broadcast lib s.isServer
    refine ⟨⟨?_,?_,?_,?_⟩,?_,?_,?_,?_⟩ <;> simp only [openBroadcast,hb,Option.map_some]
    · rfl
    · simpa using hthrew
    · intro hnone c hc
      obtain rfl := Option.some.inj hc
      rw [hopen,← hthrew,hnone]
      rfl

theorem openRequest_spec (hs : ∀ ch, s.request = some ch → ch.isOpen = false) (lib : Library) :
    let opened := s.openRequest lib
    SameConfig s opened.state ∧ opened.state.joinable = s.joinable ∧
      opened.state.broadcast = s.broadcast ∧
      opened.threw.isNone = s.request.all (·.opens .request lib s.isServer) ∧
      (opened.threw = none → ∀ ch, opened.state.request = some ch → ch.isOpen = true) := by
  cases hr : s.request with
  | none => simp [openRequest,hr,SameConfig.mk]
  | some ch =>
    obtain ⟨hopen,hthrew⟩ := Channel.open_of_closed (hs ch hr) .request lib s.isServer
    refine ⟨⟨?_,?_,?_,?_⟩,?_,?_,?_,?_⟩ <;> simp only [openRequest,hr,Option.map_some]
    · rfl
    · simpa using hthrew
    · intro hnone c hc
      obtain rfl := Option.some.inj hc
      rw [hopen,← hthrew,hnone]
      rfl

theorem openTransports_spec (hs : s.AllClosed) (env : StartEnv) :
    let opened := s.openTransports env
    SameConfig s opened.state ∧ opened.state.joinable = s.joinable ∧
      opened.threw.isNone = s.opensAll env ∧ (opened.threw = none → opened.state.AllOpen) := by
  simp only [AllClosed,channels,List.mem_append,Option.mem_toList] at hs
  obtain ⟨same,joins,keeps,threw,opens⟩ :=
    openBroadcast_spec (fun ch hb => hs ch (.inl hb)) env.broadcastLibrary
  cases hthrew : (s.openBroadcast env.broadcastLibrary).threw with
  | some e =>
    simp only [openTransports,hthrew]
    rw [hthrew] at threw
    exact ⟨same,joins,by simp [opensAll,opensBroadcast,← threw],by simp⟩
  | none =>
    rw [hthrew] at threw
    have closed : ∀ ch, (s.openBroadcast env.broadcastLibrary).state.request = some ch →
        ch.isOpen = false := by
      intro ch hch
      exact hs ch (.inr (keeps ▸ hch))
    obtain ⟨same',joins',keeps',threw',opens'⟩ := openRequest_spec closed env.requestLibrary
    have server : (s.openBroadcast env.broadcastLibrary).state.isServer = s.isServer := by
      simp only [isServer,same.role]
    simp only [openTransports,hthrew]
    refine ⟨same.trans same',joins'.trans joins,?_,?_⟩
    · rw [threw',keeps,server]
      simp [opensAll,opensBroadcast,opensRequest,← threw]
    · intro hnone ch hch
      simp only [channels,List.mem_append,Option.mem_toList,keeps'] at hch
      rcases hch with hch | hch
      · exact opens hthrew ch hch
      · exact opens' hnone ch hch

theorem consistent_of_closed (hj : s.joinable = false) (hs : s.AllClosed) (hc : s.channels ≠ []) :
    s.Consistent := by
  refine ⟨?_,fun _ => hs⟩
  constructor
  · intro h
    rw [hj] at h
    cases h
  · intro h
    obtain ⟨ch,hch⟩ := List.exists_mem_of_ne_nil _ hc
    have := h ch hch
    rw [hs ch hch] at this
    cases this

theorem consistent_of_open (hj : s.joinable = true) (hs : s.AllOpen) : s.Consistent := by
  refine ⟨by simp [hj,hs],?_⟩
  intro h
  rw [hj] at h
  cases h

theorem not_consistent_of_open (hj : s.joinable = false) (hs : s.AllOpen) : ¬ s.Consistent := by
  intro h
  have := h.running.mpr hs
  rw [hj] at this
  cases this

theorem stop_sameConfig (s : DdsNodeCore) : SameConfig s s.stop := by
  have closed := s.closeTransports_sameConfig
  unfold stop
  split
  · exact ⟨rfl,rfl,rfl,rfl⟩
  · exact ⟨closed.role,closed.workerConfig,closed.broadcast,closed.request⟩

theorem stop_joinable (s : DdsNodeCore) : s.stop.joinable = false := by
  unfold stop
  cases h : s.joinable <;> simp [h]

theorem stop_allClosed (h : s.Consistent) : s.stop.AllClosed := by
  unfold stop
  cases hj : s.joinable with
  | false => simpa using h.stopped hj
  | true => exact { s with stopRequested := true }.closeTransports_allClosed

theorem flags_sameConfig (s : DdsNodeCore) (joinable stopRequested : Bool) :
    SameConfig s { s with joinable := joinable, stopRequested := stopRequested } :=
  ⟨rfl,rfl,rfl,rfl⟩

theorem spawn_threadFails (s : DdsNodeCore) (h : env.createsThread = false) :
    s.spawn env = ⟨{ s with stopRequested := false },some .thread⟩ := by
  simp [spawn,h]

theorem spawn_starts (h : env.createsThread = true)
    (hc : configureDdsCurrentThread env.os s.workerConfig = .ok ()) :
    s.spawn env = ⟨{ s with joinable := true, stopRequested := false },none⟩ := by
  simp [spawn,h,hc]

theorem spawn_configureFails {e : DdsError} (h : env.createsThread = true)
    (hc : configureDdsCurrentThread env.os s.workerConfig = .error e) :
    s.spawn env = ⟨stop { s with joinable := true, stopRequested := false },some e⟩ := by
  simp [spawn,h,hc]

inductive StartEnd (s : DdsNodeCore) (env : StartEnv) (o : Outcome DdsNodeCore) : Prop
  | openFails (opens : s.opensAll env = false) (joins : o.state.joinable = false)
      (closed : o.state.AllClosed) (threw : o.threw ≠ none)
  | threadFails (opens : s.opensAll env = true) (creates : env.createsThread = false)
      (joins : o.state.joinable = false) (opened : o.state.AllOpen)
  | configureFails (opens : s.opensAll env = true) (creates : env.createsThread = true)
      (configures : configureDdsCurrentThread env.os s.workerConfig ≠ .ok ())
      (joins : o.state.joinable = false) (closed : o.state.AllClosed) (threw : o.threw ≠ none)
  | starts (opens : s.opensAll env = true) (creates : env.createsThread = true)
      (configures : configureDdsCurrentThread env.os s.workerConfig = .ok ())
      (joins : o.state.joinable = true) (opened : o.state.AllOpen) (threw : o.threw = none)

theorem start_openFails {e : DdsError} (hj : s.joinable = false)
    (h : (s.openTransports env).threw = some e) :
    s.start env = ⟨(s.openTransports env).state.closeTransports,some e⟩ := by
  simp [start,ensureNotRunning,isRunning,hj,h]

theorem start_opened (hj : s.joinable = false) (h : (s.openTransports env).threw = none) :
    s.start env = (s.openTransports env).state.spawn env := by
  simp [start,ensureNotRunning,isRunning,hj,h]

theorem start_end (hj : s.joinable = false) (hs : s.AllClosed) (env : StartEnv) :
    SameConfig s (s.start env).state ∧ StartEnd s env (s.start env) := by
  obtain ⟨same,joins,threw,opens⟩ := openTransports_spec hs env
  cases hthrew : (s.openTransports env).threw with
  | some e =>
    rw [hthrew] at threw
    rw [start_openFails hj hthrew]
    exact ⟨same.trans (closeTransports_sameConfig _),
      .openFails threw.symm (joins.trans hj) (closeTransports_allClosed _) (by simp)⟩
  | none =>
    rw [hthrew] at threw
    rw [start_opened hj hthrew]
    have opened := opens hthrew
    cases hcreates : env.createsThread with
    | false =>
      rw [spawn_threadFails _ hcreates]
      exact ⟨same.trans (flags_sameConfig _ _ false),
        .threadFails threw.symm hcreates (joins.trans hj) opened⟩
    | true =>
      cases hconf : configureDdsCurrentThread env.os s.workerConfig with
      | ok u =>
        rw [spawn_starts hcreates (by rw [same.workerConfig,hconf])]
        exact ⟨same.trans (flags_sameConfig _ true false),
          .starts threw.symm hcreates hconf rfl opened rfl⟩
      | error e =>
        rw [spawn_configureFails hcreates (by rw [same.workerConfig,hconf])]
        exact ⟨same.trans ((flags_sameConfig _ true false).trans (stop_sameConfig _)),
          .configureFails threw.symm hcreates (by simp [hconf]) (stop_joinable _)
            (stop_allClosed (consistent_of_open rfl opened)) (by simp)⟩

theorem start_running (hj : s.joinable = true) (env : StartEnv) :
    (s.start env).state = s ∧ (s.start env).threw ≠ none := by
  simp [start,ensureNotRunning,isRunning,hj]

theorem SameConfig.configured {t : DdsNodeCore} (h : SameConfig s t) (hc : s.channels ≠ []) :
    t.channels ≠ [] := fun ht => hc (h.channels_nil.mp ht)

theorem stop_consistent (hc : s.channels ≠ []) (h : s.Consistent) : s.stop.Consistent :=
  consistent_of_closed (stop_joinable s) (stop_allClosed h)
    ((stop_sameConfig s).configured hc)

end DdsNodeCore

open DdsNodeCore

structure Ready (s : DdsNodeCore) : Prop where
  configured : s.channels ≠ []
  consistent : s.Consistent

variable {s : DdsNodeCore} {c : Call}

theorem start_lifecycleOk {env : StartEnv} (h : Ready s) :
    LifecycleOk s (.start env) ↔ CreatesThread s (.start env) := by
  cases hj : s.joinable with
  | true =>
    obtain ⟨hstate,-⟩ := start_running hj env
    have creates : CreatesThread s (.start env) := fun _ _ hn => by simp [hj] at hn
    have state : (call s (.start env)).state = s := hstate
    refine ⟨fun _ => creates,fun _ => ⟨by rw [state]; exact h.consistent,fun _ => by rw [state],?_⟩⟩
    intro _ _ hn
    simp [hj] at hn
  | false =>
    have closed := h.consistent.stopped hj
    obtain ⟨same,hend⟩ := start_end hj closed env
    have configured := same.configured h.configured
    have status (joins : (s.start env).state.joinable = false)
        (hclosed : (s.start env).state.AllClosed) : (s.start env).state.status = s.status :=
      status_of_closed same (joins.trans hj.symm) closed hclosed
    cases hend with
    | openFails opens joins hclosed threw =>
      refine ⟨?_,fun _ => ⟨consistent_of_closed joins hclosed configured,
        fun _ => status joins hclosed,?_⟩⟩
      · rintro - _ ⟨⟩ - hopens
        simp [opens] at hopens
      · rintro _ ⟨⟩ - succeeds
        exact absurd succeeds.opens (by simp [opens])
    | threadFails opens creates joins opened =>
      constructor
      · intro ok
        exact absurd ok.consistent (not_consistent_of_open joins opened)
      · intro ok
        simp [ok env rfl hj opens] at creates
    | configureFails opens creates configures joins hclosed threw =>
      refine ⟨?_,fun _ => ⟨consistent_of_closed joins hclosed configured,
        fun _ => status joins hclosed,?_⟩⟩
      · rintro - _ ⟨⟩ - -
        exact creates
      · rintro _ ⟨⟩ - succeeds
        exact absurd succeeds.configures configures
    | starts opens creates configures joins opened threw =>
      refine ⟨?_,fun _ => ⟨consistent_of_open joins opened,fun hthrew => absurd threw hthrew,?_⟩⟩
      · rintro - _ ⟨⟩ - -
        exact creates
      · rintro _ ⟨⟩ - -
        exact threw

theorem ready_of_same {t : DdsNodeCore} (h : Ready s) (hj : t.joinable = s.joinable)
    (hc : t.channels = s.channels) : Ready t := by
  refine ⟨hc ▸ h.configured,?_,?_⟩
  · simpa only [AllOpen,hj,hc] using h.consistent.running
  · simpa only [AllClosed,hj,hc] using h.consistent.stopped

theorem setter_ready {o : Outcome DdsNodeCore} {config : DdsThreadConfig} (h : Ready s)
    (ho : o = match s.ensureNotRunning with
      | some e => ⟨s,some e⟩
      | none => ⟨{ s with workerConfig := config },none⟩) :
    Ready o.state ∧ (o.threw ≠ none → o.state.status = s.status) := by
  cases hn : s.ensureNotRunning with
  | some e =>
    simp only [hn] at ho
    rw [ho]
    exact ⟨h,fun _ => rfl⟩
  | none =>
    simp only [hn] at ho
    rw [ho]
    exact ⟨ready_of_same h rfl rfl,fun hthrew => absurd rfl hthrew⟩

theorem call_other (h : Ready s) (hc : ∀ env, c ≠ .start env) :
    Ready (call s c).state ∧ ((call s c).threw ≠ none → (call s c).state.status = s.status) := by
  cases c with
  | start env => exact absurd rfl (hc env)
  | stop =>
    exact ⟨⟨(stop_sameConfig s).configured h.configured,
      stop_consistent h.configured h.consistent⟩,fun hthrew => absurd rfl hthrew⟩
  | setWorkerThreadName name => exact setter_ready h rfl
  | setWorkerThreadScheduling policy priority strict => exact setter_ready h rfl
  | publish message send => exact ⟨h,fun _ => rfl⟩
  | request message get => exact ⟨h,fun _ => rfl⟩
  | onBroadcast handler => exact ⟨ready_of_same h rfl rfl,fun hthrew => absurd rfl hthrew⟩
  | onRequest handler => exact ⟨ready_of_same h rfl rfl,fun hthrew => absurd rfl hthrew⟩
  | onError handler => exact ⟨ready_of_same h rfl rfl,fun hthrew => absurd rfl hthrew⟩

theorem call_lifecycleOk (h : Ready s) : LifecycleOk s c ↔ CreatesThread s c := by
  by_cases hc : ∃ env, c = .start env
  · obtain ⟨env,rfl⟩ := hc
    exact start_lifecycleOk h
  · have other : ∀ env, c ≠ .start env := fun env he => hc ⟨env,he⟩
    obtain ⟨ready,unchanged⟩ := call_other h other
    exact ⟨fun _ env he => absurd he (other env),
      fun _ => ⟨ready.consistent,unchanged,fun env he => absurd he (other env)⟩⟩

theorem call_ready (h : Ready s) (hc : CreatesThread s c) : Ready (call s c).state := by
  refine ⟨?_,((call_lifecycleOk h).mpr hc).consistent⟩
  by_cases hstart : ∃ env, c = .start env
  · obtain ⟨env,rfl⟩ := hstart
    cases hj : s.joinable with
    | true => exact (start_running hj env).1.symm ▸ h.configured
    | false => exact (start_end hj (h.consistent.stopped hj) env).1.configured h.configured
  · exact (call_other h (fun env he => hstart ⟨env,he⟩)).1.configured

def Channel.Fresh (ch : Channel) : Prop :=
  ch.transport = .zeroMq .initial ∨ ch.transport = .zenoh .initial

theorem Channel.Fresh.closed {ch : Channel} (h : ch.Fresh) : ch.isOpen = false := by
  rcases h with h | h <;> simp [Channel.isOpen,h,DdsTransport.isOpen,ZeroMqTransport.initial,
    ZenohTransport.initial]

theorem make_fresh {build : DdsTransport.Build} {address : StdString} {made : Option Channel}
    (h : Channel.make build address = .ok made) :
    made.isSome = !address.isEmpty ∧ ∀ ch, made = some ch → ch.Fresh := by
  unfold Channel.make at h
  split at h
  · rename_i hempty
    obtain rfl := Except.ok.inj h
    simp [hempty]
  · rename_i hempty
    cases hp : DdsNodeAddress.parse address with
    | error e => simp [hp,bind,Except.bind] at h
    | ok parsed =>
      cases hm : DdsTransport.make build parsed.transport with
      | error e => simp [hp,hm,bind,Except.bind] at h
      | ok transport =>
        simp only [hp,hm,bind,Except.bind,pure,Except.pure,Except.ok.injEq] at h
        subst h
        refine ⟨by simp [hempty],?_⟩
        rintro ch ⟨⟩
        cases hk : parsed.transport <;> simp only [DdsTransport.make,hk] at hm <;> split at hm <;>
          cases hm
        · exact .inl rfl
        · exact .inr rfl

theorem construct_fresh {build : DdsTransport.Build} {role : EndpointRole}
    {broadcastAddress requestAddress : StdString} {config : DdsThreadConfig}
    (h : construct build role broadcastAddress requestAddress config = .ok s) :
    s.joinable = false ∧ s.channels ≠ [] ∧ ∀ ch ∈ s.channels, ch.Fresh := by
  unfold construct at h
  split at h
  · cases h
  · rename_i hempty
    cases hb : Channel.make build broadcastAddress with
    | error e => simp [hb,bind,Except.bind] at h
    | ok b =>
      cases hr : Channel.make build requestAddress with
      | error e => simp [hb,hr,bind,Except.bind] at h
      | ok r =>
        simp only [hb,hr,bind,Except.bind,pure,Except.pure,Except.ok.injEq] at h
        obtain ⟨hbs,hbc⟩ := make_fresh hb
        obtain ⟨hrs,hrc⟩ := make_fresh hr
        subst h
        refine ⟨rfl,?_,?_⟩
        · cases b <;> cases r <;> simp_all [channels]
        · intro ch hch
          simp only [channels,List.mem_append,Option.mem_toList] at hch
          rcases hch with hch | hch
          · exact hbc ch hch
          · exact hrc ch hch

theorem construct_ready {build : DdsTransport.Build} {role : EndpointRole}
    {broadcastAddress requestAddress : StdString} {config : DdsThreadConfig}
    (h : construct build role broadcastAddress requestAddress config = .ok s) : Ready s := by
  obtain ⟨joins,configured,fresh⟩ := construct_fresh h
  exact ⟨configured,consistent_of_closed joins (fun ch hch => (fresh ch hch).closed) configured⟩

theorem node_lifecycle (build : DdsTransport.Build) (role : EndpointRole)
    (broadcastAddress requestAddress : StdString) (config : DdsThreadConfig) (s : DdsNodeCore)
    (made : construct build role broadcastAddress requestAddress config = .ok s)
    (calls : List Call) :
    Transition.Each step (fun s c _ => LifecycleOk s c) s calls ↔
      Transition.Meets step CreatesThread s calls := by
  refine Transition.each_iff_meets (I := Ready) ?_ ?_ ?_ (construct_ready made)
  · exact fun s c => ⟨_,rfl⟩
  · intro s c t hs hc ht
    obtain rfl := Option.some.inj ht
    exact call_ready hs hc
  · intro s c t hs _
    exact call_lifecycleOk hs

def backends : DdsTransport.Build := ⟨true,true⟩

def workingLibrary : Library := ⟨fun _ => true,fun _ => true,fun _ => true,true,fun _ => true⟩

def noErrors : ThreadApi := ⟨fun _ => 0,fun _ _ => 0⟩

def startEnv (createsThread : Bool) : StartEnv :=
  ⟨workingLibrary,workingLibrary,createsThread,noErrors⟩

def serverAddress : StdString := inprocPrefix ++ ['a']

def zenohKey : StdString := ['k']

def mixedServer : DdsNodeCore :=
  ⟨.server,{},some ⟨⟨.zenoh,zenohKey⟩,.zenoh .initial⟩,
    some ⟨⟨.zeroMq,serverAddress⟩,.zeroMq .initial⟩,⟨none,none,none⟩,false,false⟩

theorem node_lifecycle_mixed :
    Transition.Each step (fun s c _ => LifecycleOk s c) mixedServer
        [.start (startEnv true),.stop,.start (startEnv true)] ↔
      Transition.Meets step CreatesThread mixedServer
        [.start (startEnv true),.stop,.start (startEnv true)] :=
  node_lifecycle backends .server zenohKey serverAddress {} mixedServer rfl _

theorem node_lifecycle_counterexample :
    ¬ ∀ (build : DdsTransport.Build) (role : EndpointRole)
      (broadcastAddress requestAddress : StdString) (config : DdsThreadConfig) (s : DdsNodeCore),
      construct build role broadcastAddress requestAddress config = .ok s →
      ∀ calls, Transition.Each step (fun s c _ => LifecycleOk s c) s calls := by
  intro h
  have ok := (h backends .server zenohKey serverAddress {} mixedServer rfl
    [.start (startEnv false)] _ rfl).1
  have opened : (call mixedServer (.start (startEnv false))).state.AllOpen := by
    unfold AllOpen
    decide
  exact not_consistent_of_open rfl opened ok.consistent

end DdsAbstract.Node
