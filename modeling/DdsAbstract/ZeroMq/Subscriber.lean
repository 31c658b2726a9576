import DdsAbstract.ZeroMq.Shutdown

namespace DdsAbstract.ZeroMq.Node

variable {s s' : System} {ok : Bool} {k c : Channel} {a : Action} {outcome : HandlerOutcome}

def LifePc.subscribing : LifePc → Bool
  | .atReset .broadcast | .atCreate .broadcast => true
  | _ => false

def LifePc.subscribed : LifePc → Bool
  | .atBind .broadcast | .atOpen .request | .atReset .request | .atCreate .request
  | .atBind .request | .atSpawn | .atReady | .running | .atFlag => true
  | _ => false

theorem usable_eq (s : System) (k : Channel) :
    s.usable k = (link s k).any (fun l => l.1 && l.2.isSome) := by
  simp [System.usable,link,Option.any_map]

theorem isOpen_eq (s : System) (k : Channel) : isOpen s k = (link s k).any (·.1) := by
  simp [isOpen,link,Option.any_map]

theorem setTransport_link {t : Transport} :
    link (s.setTransport c t) k = if k = c then some (t.isOpen,t.socket) else link s k := by
  by_cases hk : k = c
  · subst hk
    simp [link,System.setTransport]
  · simp [link,System.setTransport,hk]

theorem request_link (s : System) (t : Transport) :
    link (s.setTransport .request t) .broadcast = link s .broadcast :=
  setTransport_link.trans (if_neg (by simp))

theorem link_of_transport {t : Transport} (h : s.transports c = some t) :
    link s c = some (t.isOpen,t.socket) := by
  simp [link,h]

theorem close_link (s : System) (c k : Channel) :
    (link (s.close c) k).isSome = (link s k).isSome := by
  unfold System.close
  split
  · rfl
  · rename_i t ht
    rw [setTransport_link]
    split
    · subst k
      rw [link_of_transport ht]
      rfl
    · rfl

structure Wired (s : System) : Prop where
  present : (link s .broadcast).isSome = true
  subscribing : s.life.subscribing = true → isOpen s .broadcast = true
  subscribed : s.life.subscribed = true → s.usable .broadcast = true

theorem Wired.kept (hw : Wired s) (life : s'.life = s.life)
    (same : link s' .broadcast = link s .broadcast) : Wired s' := by
  obtain ⟨present,subscribing,subscribed⟩ := hw
  refine ⟨same ▸ present,?_,?_⟩
  · rw [life,isOpen_eq,same,← isOpen_eq]
    exact subscribing
  · rw [life,usable_eq,same,← usable_eq]
    exact subscribed

theorem Wired.leaves (hw : Wired s) (same : (link s' .broadcast).isSome = (link s .broadcast).isSome)
    (subscribing : s'.life.subscribing = false) (subscribed : s'.life.subscribed = false) :
    Wired s' :=
  ⟨same.trans hw.present,fun now => by simp [subscribing] at now,
    fun now => by simp [subscribed] at now⟩

theorem Wired.goes (hw : Wired s) (was : s.life.subscribed = true)
    (same : link s' .broadcast = link s .broadcast) (now : s'.life.subscribing = false) :
    Wired s' := by
  refine ⟨same ▸ hw.present,fun subscribing => ?_,fun _ => ?_⟩
  · rw [now] at subscribing
    cases subscribing
  · rw [usable_eq,same,← usable_eq]
    exact hw.subscribed was

theorem wired_of_link {isOpen : Bool} {socket : Option Nat}
    (same : link s .broadcast = some (isOpen,socket))
    (subscribing : s.life.subscribing = true → isOpen = true)
    (subscribed : s.life.subscribed = true → isOpen = true ∧ socket.isSome = true) : Wired s := by
  refine ⟨congrArg Option.isSome same,fun now => ?_,fun now => ?_⟩
  · rw [isOpen_eq,same]
    exact subscribing now
  · obtain ⟨opened,created⟩ := subscribed now
    rw [usable_eq,same]
    simp [opened,created]

theorem Wired.opened (hw : Wired s) {t : Transport} (now : s.life.subscribing = true)
    (given : s.transports .broadcast = some t) : t.isOpen = true := by
  have isOpen := hw.subscribing now
  rwa [isOpen_eq,link_of_transport given] at isOpen

theorem broadcast_link (s : System) (t : Transport) :
    link (s.setTransport .broadcast t) .broadcast = some (t.isOpen,t.socket) :=
  setTransport_link.trans (if_pos rfl)

theorem life_wired (hw : Wired s) (h : s.lifeStep ok = some s') : Wired s' := by
  cases life_move h with
  | start _ pc next =>
    subst next
    exact hw.leaves rfl rfl rfl
  | absent _ c pc given next =>
    subst next
    cases c with
    | broadcast =>
      have present := hw.present
      simp [link,given] at present
    | request => exact hw.goes (by rw [pc]; rfl) rfl rfl
  | exchange _ c t pc given closed next =>
    subst next
    cases c with
    | broadcast =>
      exact wired_of_link (broadcast_link s { t with isOpen := true }) (fun _ => rfl)
        (fun now => by cases now)
    | request => exact hw.goes (by rw [pc]; rfl) (request_link s { t with isOpen := true }) rfl
  | reset _ c t pc given next =>
    subst next
    cases c with
    | broadcast =>
      have opened := hw.opened (by rw [pc]; rfl) given
      exact wired_of_link (broadcast_link s { t with socket := none, inbox := [] })
        (fun _ => opened) (fun now => by cases now)
    | request =>
      exact hw.goes (by rw [pc]; rfl) (request_link s { t with socket := none, inbox := [] }) rfl
  | create c t pc given next =>
    subst next
    cases c with
    | broadcast =>
      have opened := hw.opened (by rw [pc]; rfl) given
      exact wired_of_link (broadcast_link s { t with socket := some s.sockets })
        (fun now => by cases now) (fun _ => ⟨opened,rfl⟩)
    | request =>
      exact hw.goes (by rw [pc]; rfl) (request_link s { t with socket := some s.sockets }) rfl
  | bind c pc next =>
    subst next
    cases c <;> exact hw.goes (by rw [pc]; rfl) rfl rfl
  | spawn pc next | ready pc next | readyFails pc next | stop _ pc next =>
    subst next
    exact hw.goes (by rw [pc]; rfl) rfl rfl
  | undo _ c pc next =>
    subst next
    refine hw.leaves ?_ rfl rfl
    refine (congrArg Option.isSome setTransport_link).trans ?_
    split
    · exact hw.present.symm
    · rfl
  | rollback _ pc next | rollbackEnds _ pc next | close _ pc next | closeEnds _ pc next =>
    subst next
    exact hw.leaves (close_link s _ _) rfl rfl
  | _ =>
    rename_i next
    subst next
    exact hw.leaves rfl rfl rfl

def WorkerPc.answering : WorkerPc → Bool
  | .atReply | .atSend => true
  | _ => false

structure Listening (s : System) : Prop extends Attentive s, Wired s where
  isServer : s.isServer = false
  notStopped : s.life = .atReady ∨ s.life = .running → s.stopRequested = false
  alive : s.life = .running → s.worker ≠ .exited
  silent : s.worker.answering = false

theorem life_listening (hl : Listening s) (h : s.lifeStep ok = some s') : Listening s' := by
  have frame := life_frame h
  refine ⟨life_attentive hl.toAttentive h,life_wired hl.toWired h,frame.isServer.trans hl.isServer,
    fun now => ?_,fun now => ?_,?_⟩
  · cases life_move h with
    | spawn pc next =>
      subst next
      rfl
    | ready pc next =>
      subst next
      exact hl.notStopped (.inl pc)
    | absent _ c pc given next | bind c pc next =>
      subst next
      cases c <;> simp [System.afterOpen] at now
    | _ =>
      rename_i next
      subst next
      rcases now with now | now <;> cases now
  · cases life_move h with
    | ready pc next =>
      subst next
      simp
    | absent _ c pc given next | bind c pc next =>
      subst next
      cases c <;> cases now
    | _ =>
      rename_i next
      subst next
      cases now
  · rcases frame.worker with same | fresh
    · exact same ▸ hl.silent
    · rw [fresh]
      rfl

theorem worker_silent (hl : Listening s) (h : s.workerStep outcome = some s') :
    s'.worker.answering = false := by
  have silent := hl.silent
  unfold System.workerStep at h
  cases hw : s.worker <;> simp only [hw] at h silent
  case exited => cases h
  case atLoop =>
    split at h
    · obtain rfl := Option.some.inj h
      rfl
    · split at h <;> obtain rfl := Option.some.inj h
      · rw [hw]
        rfl
      · rfl
  case atOpenCheck | atPoll =>
    obtain rfl := Option.some.inj h
    simp only
    split <;> rfl
  case atRecv =>
    obtain ⟨⟨m,t⟩,-,rfl⟩ := Option.map_eq_some_iff.mp h
    rfl
  case atDispatch m =>
    obtain rfl := Option.some.inj h
    simp [hl.isServer,WorkerPc.answering]
  case atReply | atSend => cases silent

theorem worker_alive (notStopped : s.stopRequested = false) (h : s.workerStep outcome = some s') :
    s'.worker ≠ .exited := by
  unfold System.workerStep at h
  cases hw : s.worker <;> simp only [hw] at h
  case exited => cases h
  case atLoop =>
    simp only [notStopped,Bool.false_eq_true,if_false] at h
    split at h <;> obtain rfl := Option.some.inj h <;> simp [hw]
  case atRecv =>
    obtain ⟨⟨m,t⟩,-,rfl⟩ := Option.map_eq_some_iff.mp h
    simp
  case atSend =>
    obtain rfl := Option.some.inj h
    simp
  all_goals
    obtain rfl := Option.some.inj h
    simp only
    split <;> simp

theorem Listening.beside (hl : Listening s) (ha : Attentive s') (hb : Beside s s')
    (hf : Flags s s') (hw : s'.worker = s.worker) : Listening s' := by
  refine ⟨ha,hl.toWired.kept hb.life (hf.link .broadcast),hb.isServer.trans hl.isServer,?_,?_,?_⟩
  · rw [hb.life,hf.stopRequested]
    exact hl.notStopped
  · rw [hb.life,hw]
    exact hl.alive
  · exact hw ▸ hl.silent

theorem step_listening (hl : Listening s) (h : step s a = some s') : Listening s' := by
  have attentive := step_attentive hl.toAttentive h
  cases a with
  | life ok => exact life_listening hl h
  | worker outcome =>
    have frame := worker_frame h
    have flags := worker_flags h
    refine ⟨attentive,hl.toWired.kept frame.life (flags.link .broadcast),
      frame.isServer.trans hl.isServer,?_,fun running => ?_,worker_silent hl h⟩
    · rw [frame.life,flags.stopRequested]
      exact hl.notStopped
    · exact worker_alive (hl.notStopped (.inr (frame.life ▸ running))) h
  | call n ok =>
    have frame := (call_move h).1
    exact hl.beside attentive frame.toBeside (call_flags h) frame.worker
  | arrive c data =>
    obtain rfl := Option.some.inj h
    obtain ⟨beside,-,-,worker⟩ := arrive_beside (s := s) (c := c) data
    exact hl.beside attentive beside (arrive_flags data) worker

theorem listening_initial (hasRequest : Bool) : Listening (.initial false true hasRequest) := by
  refine ⟨attentive_initial false true hasRequest,⟨rfl,?_,?_⟩,rfl,?_,?_,rfl⟩ <;>
    simp [System.initial,LifePc.subscribing,LifePc.subscribed]

def WorkerPc.rank : WorkerPc → Nat
  | .atLoop => 5
  | .atOpenCheck => 4
  | .atPoll => 3
  | .atRecv => 2
  | .atDispatch _ => 1
  | _ => 0

theorem WorkerPc.rank_le (pc : WorkerPc) : pc.rank ≤ 6 := by
  cases pc <;> simp [rank]

theorem hasMessage_of_inbox (h : inbox s c ≠ []) : s.hasMessage c = true := by
  cases ht : s.transports c with
  | none => simp [inbox,ht] at h
  | some t =>
    rw [inbox_of_transport ht] at h
    simp [System.hasMessage,ht,h]

theorem present_of_usable (h : s.usable c = true) : (s.transports c).isNone = false := by
  cases ht : s.transports c with
  | none => simp [System.usable,ht] at h
  | some t => rfl

theorem Listening.workChannel (hl : Listening s) : s.workChannel = .broadcast := by
  simp [System.workChannel,hl.isServer]

theorem worker_falls (hl : Listening s) (running : s.life = .running) (waits : pending s ≠ [])
    (h : s.workerStep outcome = some s') :
    (s.worker.inHand = [] ∧ s'.worker.rank < s.worker.rank) ∨
      ∃ message, s.worker.inHand = [message] ∧ s'.worker.rank ≤ s.worker.rank + 4 := by
  have notStopped := hl.notStopped (.inr running)
  have usable := hl.subscribed (by rw [running]; rfl)
  have silent := hl.silent
  have channel := hl.workChannel
  unfold System.workerStep at h
  cases hw : s.worker <;>
    simp only [hw,channel,WorkerPc.answering,pending,WorkerPc.inHand,List.nil_append] at h silent waits
  case exited => cases h
  case atLoop =>
    simp only [notStopped,present_of_usable usable,Bool.false_eq_true,if_false] at h
    obtain rfl := Option.some.inj h
    exact .inl ⟨rfl,Nat.lt_succ_self _⟩
  case atOpenCheck =>
    simp only [usable,notStopped,Bool.not_false,Bool.and_true,if_true] at h
    obtain rfl := Option.some.inj h
    exact .inl ⟨rfl,Nat.lt_succ_self _⟩
  case atPoll =>
    simp only [hasMessage_of_inbox waits,if_true] at h
    obtain rfl := Option.some.inj h
    exact .inl ⟨rfl,Nat.lt_succ_self _⟩
  case atRecv =>
    obtain ⟨⟨m,t⟩,-,rfl⟩ := Option.map_eq_some_iff.mp h
    exact .inl ⟨rfl,Nat.lt_succ_self _⟩
  case atDispatch m =>
    obtain rfl := Option.some.inj h
    refine .inr ⟨m,rfl,?_⟩
    simp [hl.isServer,WorkerPc.rank]
  case atReply | atSend => cases silent

theorem Listening.request_pending (hl : Listening s) (data : DdsBytes) :
    pending (s.arrive .request data) = pending s := by
  rcases arrive_pending (s := s) (c := .request) data with same | ⟨channel,-⟩
  · exact same
  · rw [hl.workChannel] at channel
    cases channel

theorem Listening.broadcast_pending (hl : Listening s) (running : s.life = .running) (data : DdsBytes) :
    pending (s.arrive .broadcast data) = pending s ++ [⟨data,s.period⟩] := by
  have usable := hl.subscribed (by rw [running]; rfl)
  have channel := hl.workChannel
  simp only [System.usable,Option.any_eq_true,Bool.and_eq_true] at usable
  obtain ⟨t,ht,-,socket⟩ := usable
  simp only [System.arrive,ht,socket,if_true]
  rw [pending,show (s.setTransport .broadcast _).workChannel = s.workChannel from rfl,channel,
    setTransport_inbox,if_pos rfl,pending,channel,inbox_of_transport ht,List.append_assoc]
  rfl

end DdsAbstract.ZeroMq.Node
