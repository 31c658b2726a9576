import DdsAbstract.ZeroMq.FrameAlignment
import DdsAbstract.ZeroMq.Server

namespace DdsAbstract.ZeroMq.Server
open Router

variable {clients : Clients} {s s' : System} {r r' : Router.System} {outcome : HandlerOutcome}

@[simp] theorem ofStdString_toStdString (bytes : DdsBytes) :
    ofStdString (toStdString bytes) = bytes := by
  simp only [ofStdString,toStdString,List.map_map]
  refine List.map_id'' ?_ bytes
  intro b
  have valid : Nat.isValidChar b.toNat := .inl (Nat.lt_trans b.toNat_lt (by decide))
  have code : (Char.ofNat b.toNat).toNat = b.toNat := by
    rw [Char.ofNat,dif_pos valid]
    rfl
  exact (congrArg UInt8.ofNat code).trans UInt8.ofNat_toNat

def inHand : WorkerPc → List Reception
  | .atDispatch request => [request]
  | _ => []

def inReply : WorkerPc → List Reply
  | .atReply request outcome response | .atSendIdentity request outcome response =>
    [⟨request,outcome,ofStdString request.incoming.correlationId,response⟩]
  | .atSendBody request outcome identity response => [⟨request,outcome,identity,response⟩]
  | _ => []

def Handled.reply (h : Handled) : Option Reply :=
  h.outcome.response.map (fun response =>
    ⟨h.request,h.outcome,ofStdString h.request.incoming.correlationId,response⟩)

structure Accounted (s : System) : Prop where
  isOpen : s.router.isOpen = true
  received : s.router.received = s.handled.map (·.request) ++ inHand s.router.worker
  replies : s.handled.filterMap Handled.reply = s.router.replies ++ inReply s.router.worker

theorem worker_accounted (h : Accounted s) (ha : workerStep s.router outcome = some r') :
    Accounted { s with router := r', handled := s.handled ++ handledNow outcome s.router.worker } := by
  obtain ⟨isOpen,received,replies⟩ := h
  unfold workerStep at ha
  cases hpc : s.router.worker <;> simp only [hpc,inHand,inReply,List.append_nil] at ha received replies
  case exited => cases ha
  case atIdentity | atPayload =>
    cases hs : s.router.socket <;> simp only [hs] at ha
    case nil => cases ha
    case cons =>
      obtain rfl := Option.some.inj ha
      exact ⟨isOpen,by simpa [handledNow,inHand] using received,
        by simpa [handledNow,inReply] using replies⟩
  case atDispatch request =>
    cases hr : outcome.response <;> simp only [hr] at ha <;> obtain rfl := Option.some.inj ha
    · refine ⟨isOpen,by simpa [handledNow,inHand] using received,?_⟩
      simpa [handledNow,inReply,Handled.reply,hr] using replies
    · refine ⟨isOpen,by simpa [handledNow,inHand] using received,?_⟩
      simpa [handledNow,inReply,Handled.reply,hr] using replies
  case atReply request outcome response =>
    rw [isOpen] at ha
    obtain rfl := Option.some.inj ha
    exact ⟨rfl,by simpa [handledNow,inHand] using received,
      by simpa [handledNow,inReply] using replies⟩
  case atLoop =>
    obtain rfl := Option.some.inj ha
    refine ⟨isOpen,?_,?_⟩ <;> cases s.router.stopRequested <;>
      simpa [handledNow,inHand,inReply]
  case atOpenCheck =>
    obtain rfl := Option.some.inj ha
    refine ⟨isOpen,?_,?_⟩ <;> cases s.router.isOpen && !s.router.stopRequested <;>
      simpa [handledNow,inHand,inReply]
  case atPoll =>
    obtain rfl := Option.some.inj ha
    refine ⟨isOpen,?_,?_⟩ <;> cases s.router.socket.isEmpty <;> simpa [handledNow,inHand,inReply]
  case atReport | atSendIdentity | atSendBody =>
    obtain rfl := Option.some.inj ha
    exact ⟨isOpen,by simpa [handledNow,inHand] using received,
      by simpa [handledNow,inReply] using replies⟩

theorem step_accounted {a : Action} (h : Accounted s) (ha : step clients s a = some s') :
    Accounted s' := by
  cases a with
  | request client data =>
    obtain rfl := Option.some.inj ha
    exact ⟨h.isOpen,h.received,h.replies⟩
  | deliver client =>
    cases hf : s.inFlight client <;> simp only [step,hf] at ha
    case nil => cases ha
    case cons =>
      obtain rfl := Option.some.inj ha
      exact ⟨h.isOpen,h.received,h.replies⟩
  | worker outcome =>
    obtain ⟨r',hr,rfl⟩ := Option.map_eq_some_iff.mp ha
    exact worker_accounted h hr

def single (clients : Clients) (client : Nat) (data : DdsBytes) : Inbound :=
  ⟨clients.identity client,data,[]⟩

-- `log` are the messages that ROUTER has taken so far, as pairs of client and body.
structure Delivered (clients : Clients) (s : System) : Prop where
  place : ∃ log : List (Nat × DdsBytes),
    Position (log.map (fun e => single clients e.1 e.2)) s.router ∧
      ∀ i, (log.filter (·.1 = i)).map (·.2) ++ s.inFlight i = s.sent i
  upcoming : s.router.upcoming = []

theorem workerStep_upcoming (ha : workerStep r outcome = some r') : r'.upcoming = r.upcoming := by
  unfold workerStep at ha
  cases hpc : r.worker <;> simp only [hpc] at ha
  case exited => cases ha
  case atIdentity | atPayload =>
    cases hs : r.socket <;> simp only [hs] at ha
    case nil => cases ha
    case cons =>
      obtain rfl := Option.some.inj ha
      rfl
  case atDispatch =>
    cases hr : outcome.response <;> simp only [hr] at ha <;> obtain rfl := Option.some.inj ha <;> rfl
  all_goals
    obtain rfl := Option.some.inj ha
    rfl

theorem arrive_position {log : List (Nat × DdsBytes)} {client : Nat} {data : DdsBytes}
    (h : Position (log.map (fun e => single clients e.1 e.2)) s.router)
    (upcoming : s.router.upcoming = []) :
    Position ((log ++ [(client,data)]).map (fun e => single clients e.1 e.2))
      (arrive clients s client data) := by
  obtain ⟨done,waiting,hms,hdone,hsocket⟩ := h.place
  refine ⟨done,waiting ++ [single clients client data],?_,hdone,hsocket.arrive _⟩
  simp [arrive,upcoming] at hms ⊢
  simp [hms]

theorem step_delivered {a : Action} (h : Delivered clients s) (ha : step clients s a = some s') :
    Delivered clients s' := by
  obtain ⟨log,position,sent⟩ := h.place
  cases a with
  | request client data =>
    obtain rfl := Option.some.inj ha
    refine ⟨⟨log,position,?_⟩,h.upcoming⟩
    intro i
    by_cases hi : i = client
    · subst hi
      simp [← sent i]
    · simp [hi,sent i]
  | deliver client =>
    cases hf : s.inFlight client <;> simp only [step,hf] at ha
    case nil => cases ha
    case cons data rest =>
      obtain rfl := Option.some.inj ha
      refine ⟨⟨log ++ [(client,data)],arrive_position position h.upcoming,?_⟩,h.upcoming⟩
      intro i
      by_cases hi : i = client
      · subst hi
        simp [← sent i,hf]
      · simp [hi,Ne.symm hi,← sent i]
  | worker outcome =>
    obtain ⟨r',hr,rfl⟩ := Option.map_eq_some_iff.mp ha
    have singles : ∀ m ∈ log.map (fun e => single clients e.1 e.2), m.SingleFrame := by
      intro m hm
      obtain ⟨e,-,rfl⟩ := List.mem_map.mp hm
      rfl
    exact ⟨⟨log,workerStep_position singles position hr,sent⟩,
      (workerStep_upcoming hr).trans h.upcoming⟩

theorem toStdString_inj {a b : DdsBytes} : toStdString a = toStdString b ↔ a = b := by
  refine ⟨fun h => ?_,fun h => h ▸ rfl⟩
  have back := congrArg ofStdString h
  rwa [ofStdString_toStdString,ofStdString_toStdString] at back

def fromClient (clients : Clients) (i : Nat) (r : Reception) : Bool :=
  r.incoming.correlationId = toStdString (clients.identity i)

def dequeued (clients : Clients) (s : System) (i : Nat) : List DdsBytes :=
  (s.router.received.filter (fromClient clients i)).map (·.incoming.payload)

def bodiesTo (clients : Clients) (i : Nat) (replies : List Reply) : List DdsBytes :=
  (replies.filter (·.identity = clients.identity i)).map (·.body)

def results (clients : Clients) (s : System) (i : Nat) : List DdsBytes :=
  (s.handled.filter (fun h => fromClient clients i h.request)).filterMap (·.outcome.response)

structure ExactlyOnce (clients : Clients) (s : System) : Prop where
  dequeued : ∀ i, dequeued clients s i <+: s.sent i
  handled : s.router.received = s.handled.map (·.request) ++ inHand s.router.worker
  replies : ∀ i, bodiesTo clients i (s.router.replies ++ inReply s.router.worker) =
    results clients s i
  addressed : ∀ r ∈ s.router.replies ++ inReply s.router.worker, ⟨r.request,r.outcome⟩ ∈ s.handled ∧
    ∃ i, r.identity = clients.identity i ∧ fromClient clients i r.request = true

theorem fromClient_single {r : Reception} {j : Nat} {data : DdsBytes}
    (h : Whole r (single clients j data)) (i : Nat) : fromClient clients i r = decide (j = i) := by
  simp only [fromClient,h.identity,single,toStdString_inj,clients.distinct.eq_iff]

theorem dequeued_of_whole {received : List Reception} {log : List (Nat × DdsBytes)} (i : Nat)
    (h : List.Forall₂ Whole received (log.map (fun e => single clients e.1 e.2))) :
    (received.filter (fromClient clients i)).map (·.incoming.payload) =
      (log.filter (·.1 = i)).map (·.2) := by
  induction log generalizing received with
  | nil =>
    cases h
    rfl
  | cons e log ih =>
    obtain ⟨r,rest,hr,hrest,rfl⟩ := List.forall₂_cons_right_iff.mp h
    have hpayload : r.incoming.payload = e.2 := by
      simpa [single,Inbound.body] using hr.payload
    rw [List.filter_cons,List.filter_cons,fromClient_single hr i]
    cases decide (e.1 = i)
    · exact ih hrest
    · simp [ih hrest,hpayload]

theorem fromClient_of_whole {received : List Reception} {log : List (Nat × DdsBytes)}
    (h : List.Forall₂ Whole received (log.map (fun e => single clients e.1 e.2))) :
    ∀ r ∈ received, ∃ j, r.incoming.correlationId = toStdString (clients.identity j) := by
  induction log generalizing received with
  | nil =>
    cases h
    simp
  | cons e log ih =>
    obtain ⟨r,rest,hr,hrest,rfl⟩ := List.forall₂_cons_right_iff.mp h
    intro r' hr'
    rcases List.mem_cons.mp hr' with rfl | hr'
    · exact ⟨e.1,hr.identity⟩
    · exact ih hrest r' hr'

theorem reply_identity {h : Handled} {r : Reply} {j : Nat} (hr : h.reply = some r)
    (hj : h.request.incoming.correlationId = toStdString (clients.identity j)) :
    r.request = h.request ∧ r.outcome = h.outcome ∧ r.identity = clients.identity j ∧
      h.outcome.response = some r.body := by
  obtain ⟨response,hresponse,rfl⟩ := Option.map_eq_some_iff.mp hr
  exact ⟨rfl,rfl,by simp [hj],hresponse⟩

theorem bodiesTo_replies {handled : List Handled} (i : Nat)
    (h : ∀ e ∈ handled, ∃ j, e.request.incoming.correlationId = toStdString (clients.identity j)) :
    bodiesTo clients i (handled.filterMap Handled.reply) =
      (handled.filter (fun e => fromClient clients i e.request)).filterMap (·.outcome.response) := by
  induction handled with
  | nil => rfl
  | cons e handled ih =>
    obtain ⟨j,hj⟩ := h e List.mem_cons_self
    have rest := ih (fun e he => h e (List.mem_cons_of_mem _ he))
    have from_client : fromClient clients i e.request = decide (j = i) := by
      simp only [fromClient,hj,toStdString_inj,clients.distinct.eq_iff]
    simp only [bodiesTo] at rest ⊢
    rw [List.filter_cons,from_client]
    cases hr : e.reply with
    | none =>
      have throws : e.outcome.response = none := Option.map_eq_none_iff.mp hr
      rw [List.filterMap_cons_none hr,rest]
      cases decide (j = i)
      · rfl
      · simp [throws]
    | some r =>
      obtain ⟨-,-,identity,response⟩ := reply_identity hr hj
      rw [List.filterMap_cons_some hr,List.filter_cons,identity]
      simp only [clients.distinct.eq_iff]
      cases decide (j = i)
      · exact rest
      · simp [rest,response]

theorem exactlyOnce_of (ha : Accounted s) (hd : Delivered clients s) : ExactlyOnce clients s := by
  obtain ⟨log,position,sent⟩ := hd.place
  obtain ⟨done,waiting,hlog,whole,-⟩ := position.place
  rw [hd.upcoming,List.append_nil] at hlog
  obtain ⟨early,late,rfl,rfl,rfl⟩ := List.map_eq_append_iff.mp hlog
  have known := fromClient_of_whole whole
  have handled : ∀ e ∈ s.handled,
      ∃ j, e.request.incoming.correlationId = toStdString (clients.identity j) := by
    intro e he
    refine known e.request ?_
    rw [ha.received]
    exact List.mem_append_left _ (List.mem_map_of_mem he)
  refine ⟨?_,ha.received,?_,?_⟩
  · intro i
    rw [dequeued,dequeued_of_whole i whole,← sent i,List.filter_append,List.map_append,
      List.append_assoc]
    exact List.prefix_append _ _
  · intro i
    rw [← ha.replies,bodiesTo_replies i handled]
    rfl
  · intro r hr
    rw [← ha.replies] at hr
    obtain ⟨e,he,hreply⟩ := List.mem_filterMap.mp hr
    obtain ⟨j,hj⟩ := handled e he
    obtain ⟨request,outcome,identity,-⟩ := reply_identity hreply hj
    refine ⟨?_,j,identity,?_⟩
    · rw [request,outcome]
      exact he
    · rw [request]
      simp [fromClient,hj]

theorem zeromq_exactly_once (clients : Clients) (as : List Action) (s : System)
    (h : Transition.run (step clients) initial as = some s) : ExactlyOnce clients s := by
  have accounted : Accounted initial := ⟨rfl,rfl,rfl⟩
  have delivered : Delivered clients initial :=
    ⟨⟨[],⟨[],[],rfl,.nil,rfl⟩,fun _ => rfl⟩,rfl⟩
  refine exactlyOnce_of ?_ ?_
  · exact Transition.run_invariant (fun _ _ _ => step_accounted) accounted h
  · exact Transition.run_invariant (fun _ _ _ => step_delivered) delivered h

def numbered : Clients where
  identity i := List.replicate (i + 1) 0
  distinct i j h := by simpa using congrArg List.length h

def interleaved : List Action :=
  [.request 0 [1],.request 1 [2],.deliver 1,.request 0 [3],.deliver 0,.deliver 0] ++
    List.replicate 6 (.worker .throws) ++ List.replicate 20 (.worker (.returns [9]))

theorem zeromq_exactly_once_interleaved : ∃ s,
    Transition.run (step numbered) initial interleaved = some s ∧ ExactlyOnce numbered s :=
  ⟨_,rfl,zeromq_exactly_once numbered interleaved _ rfl⟩

example : (Transition.run (step numbered) initial interleaved).map (fun s =>
    s.router.replies.map (fun r => (r.identity,r.request.incoming.payload,r.body))) =
    some [([0],[1],[9]),([0],[3],[9])] := by decide

end DdsAbstract.ZeroMq.Server
