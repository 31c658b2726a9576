import DdsAbstract.Broadcast.System
import DdsAbstract.ZeroMq.Subscriber
import DdsAbstract.Zenoh.Drain

namespace DdsAbstract.Broadcast

variable {s s' : System} {client client' : Client} {delivered accepted : List DdsBytes}
  {handled : List Handled} {outcome : HandlerOutcome}

def entries (node : Zenoh.Lifecycle.Node) : List Handled :=
  node.system.dispatched.map (fun d => ⟨d.entry.message.payload,d.outcome⟩)

def ClientOk (delivered accepted : List DdsBytes) (handled : List Handled) : Client → Prop
  | .zeroMq s => ZeroMq.Node.Listening s ∧
      (handled.map (·.payload) ++ (ZeroMq.Node.pending s).map (·.data)).Sublist delivered
  | .zenoh n => Zenoh.Flow n.system delivered ∧ Zenoh.Lifecycle.Running n ∧
      accepted = Zenoh.payloads (Zenoh.accepted n.system) ∧ handled = entries n

theorem deliver_ok {data : DdsBytes} (h : ClientOk delivered accepted handled client)
    (hd : client.deliver data = some client') :
    ClientOk (delivered ++ [data]) accepted handled client' := by
  cases client with
  | zeroMq s =>
    obtain ⟨listening,order⟩ := h
    obtain rfl := Option.some.inj hd
    refine ⟨ZeroMq.Node.step_listening (a := .arrive .broadcast data) listening rfl,?_⟩
    rcases ZeroMq.Node.arrive_pending (s := s) (c := .broadcast) data with same | ⟨-,longer⟩
    · rw [same]
      exact order.trans (List.sublist_append_left _ _)
    · rw [longer,List.map_append,← List.append_assoc]
      exact order.append (List.Sublist.refl _)
  | zenoh n =>
    obtain ⟨flow,running,hacc,hhand⟩ := h
    simp only [Client.deliver,Option.ite_none_right_eq_some,Option.some.injEq] at hd
    obtain ⟨hsettled,rfl⟩ := hd
    have settled : ∀ j, j + 1 = n.system.arrived → (n.system.callbacks j).pc = .left := by
      intro j hj
      simpa [Client.settled,← hj] using hsettled
    obtain ⟨flow',list⟩ := Zenoh.arrive_flow flow data settled
    have frame := Zenoh.arrive_frame (s := n.system) (some data)
    refine ⟨flow',Zenoh.Lifecycle.arrive_running running (some data),hacc.trans (by rw [list]),?_⟩
    rw [hhand,entries,entries,frame.dispatched]

theorem handledNow_zeroMq {s : ZeroMq.Node.System} :
    ((Client.zeroMq s).handledNow (.zeroMq (.worker outcome))).map (·.payload) =
      s.worker.inHand.map (·.data) := by
  simp only [Client.handledNow]
  cases s.worker <;> rfl

theorem zeroMq_step_ok {s : ZeroMq.Node.System} {a : ZeroMq.Node.Action}
    (h : ClientOk delivered accepted handled (.zeroMq s))
    (ha : (Client.zeroMq s).step (.zeroMq a) = some client') :
    ClientOk delivered (accepted ++ (Client.zeroMq s).acceptedNow (.zeroMq a))
      (handled ++ (Client.zeroMq s).handledNow (.zeroMq a)) client' := by
  obtain ⟨listening,order⟩ := h
  cases a with
  | life ok =>
    obtain ⟨t,ht,rfl⟩ := Option.map_eq_some_iff.mp ha
    refine ⟨ZeroMq.Node.step_listening listening ht,?_⟩
    simp only [Client.handledNow,List.append_nil]
    exact (((ZeroMq.Node.life_pending ht).map _).append_left _).trans order
  | worker outcome =>
    obtain ⟨t,ht,rfl⟩ := Option.map_eq_some_iff.mp ha
    refine ⟨ZeroMq.Node.step_listening listening ht,?_⟩
    rw [← ZeroMq.Node.worker_pending ht,List.map_append] at order
    rwa [List.map_append,handledNow_zeroMq,List.append_assoc]
  | call n ok =>
    obtain ⟨t,ht,rfl⟩ := Option.map_eq_some_iff.mp ha
    refine ⟨ZeroMq.Node.step_listening listening ht,?_⟩
    simp only [Client.handledNow,List.append_nil]
    rw [ZeroMq.Node.call_pending ht]
    exact order
  | arrive channel data =>
    cases channel with
    | broadcast => cases ha
    | request =>
      obtain rfl := Option.some.inj ha
      refine ⟨ZeroMq.Node.step_listening (a := .arrive .request data) listening rfl,?_⟩
      simp only [Client.handledNow,List.append_nil]
      rw [listening.request_pending data]
      exact order

theorem worker_entries {n : Zenoh.Lifecycle.Node} {t : Zenoh.System} {timedOut : Bool}
    (h : n.system.workerStep timedOut outcome = some t) :
    entries { n with system := t } =
      entries n ++ (Client.zenoh n).handledNow (.zenoh (.worker timedOut outcome)) := by
  simp only [entries,Client.handledNow]
  cases Zenoh.worker_move h with
  | poll was now queue dispatched callbacks =>
    rw [dispatched]
    cases hpc : n.system.worker <;> simp_all [Zenoh.WorkerPc.incoming]
  | dispatch e was now queue dispatched callbacks =>
    rw [dispatched,was]
    simp
  | pop e was now queue dispatched callbacks
  | lockPending e payload was now queue dispatched callbacks
  | miss e payload was now lookup queue dispatched callbacks
  | find e payload state was now lookup queue dispatched callbacks
  | lockState e payload state was now queue dispatched callbacks
  | store e payload state was now queue dispatched callbacks =>
    rw [dispatched,was]
    simp

theorem payloads_pushed {n : Zenoh.Lifecycle.Node} {k : Nat} {ok : Bool} :
    Zenoh.payloads (Zenoh.pushed n.system k ok) =
      (Client.zenoh n).acceptedNow (.zenoh (.callback k ok)) := by
  simp only [Zenoh.pushed,Client.acceptedNow]
  split <;> rfl

theorem zenoh_step_ok {n : Zenoh.Lifecycle.Node} {a : Zenoh.Lifecycle.Action}
    (h : ClientOk delivered accepted handled (.zenoh n))
    (ha : (Client.zenoh n).step (.zenoh a) = some client') :
    ClientOk delivered (accepted ++ (Client.zenoh n).acceptedNow (.zenoh a))
      (handled ++ (Client.zenoh n).handledNow (.zenoh a)) client' := by
  obtain ⟨flow,running,rfl,rfl⟩ := h
  cases a with
  | life ok pick =>
    obtain ⟨t,ht,rfl⟩ := Option.map_eq_some_iff.mp ha
    have running' := Zenoh.Lifecycle.lifeStep_running running ht
    simp only [Client.acceptedNow,Client.handledNow,List.append_nil]
    rcases Zenoh.Lifecycle.lifeStep_simulates ht with same | ⟨b,hb,hstep⟩
    · exact ⟨same ▸ flow,running',by rw [same],by simp only [entries,same]⟩
    · have frame := Zenoh.owner_frame hb hstep
      exact ⟨Zenoh.owner_flow flow hb hstep,running',by rw [frame.accepted],
        by simp only [entries,frame.dispatched]⟩
  | arrive payload => cases ha
  | callback k ok =>
    obtain ⟨t,ht,rfl⟩ := Option.map_eq_some_iff.mp ha
    obtain ⟨u,hu,rfl⟩ := Option.map_eq_some_iff.mp ht
    obtain ⟨flow',list⟩ := Zenoh.callback_flow flow hu
    refine ⟨flow',Zenoh.Lifecycle.callback_running running hu,?_,?_⟩
    · rw [list,← payloads_pushed]
      simp [Zenoh.payloads]
    · simp only [Client.handledNow,List.append_nil,entries,(Zenoh.callback_frame hu).dispatched]
  | worker timedOut outcome =>
    obtain ⟨t,ht,rfl⟩ := Option.map_eq_some_iff.mp ha
    obtain ⟨u,hu,rfl⟩ := Option.map_eq_some_iff.mp ht
    obtain ⟨flow',list⟩ := Zenoh.worker_flow flow hu
    refine ⟨flow',Zenoh.Lifecycle.worker_running running hu,?_,(worker_entries hu).symm⟩
    rw [list]
    simp [Client.acceptedNow]

theorem client_step_ok {a : ClientAction} (h : ClientOk delivered accepted handled client)
    (ha : client.step a = some client') :
    ClientOk delivered (accepted ++ client.acceptedNow a) (handled ++ client.handledNow a) client' := by
  cases client with
  | zeroMq s =>
    cases a with
    | zeroMq a => exact zeroMq_step_ok h ha
    | zenoh a => cases ha
  | zenoh n =>
    cases a with
    | zeroMq a => cases ha
    | zenoh a => exact zenoh_step_ok h ha

structure Ordered (s : System) : Prop where
  clients : ∀ c, ∃ delivered, (delivered ++ s.wire c).Sublist s.published ∧
    ClientOk delivered (s.accepted c) (s.handled c) (s.clients c)

theorem step_ordered {a : Action} (h : Ordered s) (ha : step s a = some s') : Ordered s' := by
  refine ⟨fun c => ?_⟩
  obtain ⟨delivered,order,ok⟩ := h.clients c
  cases a with
  | server action =>
    obtain rfl := Option.some.inj ha
    exact ⟨delivered,order,ok⟩
  | publish n data sent =>
    obtain ⟨server,-,rfl⟩ := Option.map_eq_some_iff.mp ha
    refine ⟨delivered,?_,ok⟩
    rw [← List.append_assoc]
    exact order.append (List.Sublist.refl _)
  | drop d =>
    cases hw : s.wire d <;> simp only [step,hw] at ha
    case nil => cases ha
    case cons data rest =>
      obtain rfl := Option.some.inj ha
      refine ⟨delivered,?_,ok⟩
      by_cases hc : c = d
      · subst hc
        rw [hw] at order
        simp only [Function.update_self]
        exact ((List.sublist_cons_self data rest).append_left _).trans order
      · simp only [Function.update_of_ne hc]
        exact order
  | deliver d =>
    cases hw : s.wire d <;> simp only [step,hw] at ha
    case nil => cases ha
    case cons data rest =>
      obtain ⟨client,hclient,rfl⟩ := Option.map_eq_some_iff.mp ha
      by_cases hc : c = d
      · subst hc
        refine ⟨delivered ++ [data],?_,?_⟩
        · rw [hw] at order
          simpa using order
        · simpa using deliver_ok ok hclient
      · refine ⟨delivered,?_,?_⟩
        · simp only [Function.update_of_ne hc]
          exact order
        · simp only [Function.update_of_ne hc]
          exact ok
  | client d action =>
    obtain ⟨client,hclient,rfl⟩ := Option.map_eq_some_iff.mp ha
    refine ⟨delivered,order,?_⟩
    by_cases hc : c = d
    · subst hc
      simpa using client_step_ok ok hclient
    · simpa [Function.update_of_ne hc] using ok

theorem ordered_initial (server : DdsTransportKind) (clients : Nat → DdsTransportKind)
    (hasRequest : Nat → Bool) : Ordered (initial server clients hasRequest) := by
  refine ⟨fun c => ⟨[],List.Sublist.refl _,?_⟩⟩
  simp only [initial,Client.initial]
  cases clients c with
  | zeroMq => exact ⟨ZeroMq.Node.listening_initial (hasRequest c),List.Sublist.refl _⟩
  | zenoh => exact ⟨Zenoh.flow_initial,Zenoh.Lifecycle.running_initial false,rfl,rfl⟩

end DdsAbstract.Broadcast
