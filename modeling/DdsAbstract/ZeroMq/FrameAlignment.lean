import Mathlib.Data.List.Forall2
import DdsAbstract.ZeroMq.Router

namespace DdsAbstract.ZeroMq.Router

variable {s s' : System} {ms : List Inbound} {m : Inbound} {a : Action}

def Inbound.SingleFrame (m : Inbound) : Prop := m.others = []

structure Whole (r : Reception) (m : Inbound) : Prop where
  consumed : r.consumed = m.frames
  identity : r.incoming.correlationId = toStdString m.identity
  payload : r.incoming.payload ∈ m.body

def Blocked (s : System) : Prop :=
  s.socket = [] ∧ (s.worker = .atIdentity ∨ ∃ identity, s.worker = .atPayload identity)

structure Aligned (ms : List Inbound) (s : System) : Prop where
  whole : ∃ done, done <+: ms ∧ List.Forall₂ Whole s.received done
  ready : ¬ Blocked s

theorem frames_singleFrame (h : m.SingleFrame) :
    m.frames = [⟨m.identity,true⟩,⟨m.first,false⟩] := by
  simp only [Inbound.SingleFrame] at h
  simp [Inbound.frames,h,bodyFrames]

theorem whole_request (h : m.SingleFrame) :
    Whole (request ⟨m.identity,true⟩ ⟨m.first,false⟩) m :=
  ⟨(frames_singleFrame h).symm,rfl,by simp [request,Inbound.body]⟩

theorem bodyFrames_length (bytes : DdsBytes) (rest : List DdsBytes) :
    (bodyFrames bytes rest).length = rest.length + 1 := by
  induction rest generalizing bytes with
  | nil => rfl
  | cons next rest ih => simp [bodyFrames,ih next]

theorem singleFrame_of_whole {identity payload : Frame} (h : Whole (request identity payload) m) :
    m.SingleFrame := by
  have length := congrArg List.length h.consumed
  simp only [request,Inbound.frames,List.length_cons,List.length_nil,bodyFrames_length] at length
  exact List.length_eq_zero_iff.mp (by omega)

def frames (ms : List Inbound) : List Frame := ms.flatMap Inbound.frames

def OnSocket (waiting : List Inbound) (socket : List Frame) : WorkerPc → Prop
  | .atPayload identity => ∃ m rest, waiting = m :: rest ∧ identity = ⟨m.identity,true⟩ ∧
      socket = ⟨m.first,false⟩ :: frames rest
  | .atIdentity => waiting ≠ [] ∧ socket = frames waiting
  | _ => socket = frames waiting

structure Position (ms : List Inbound) (s : System) : Prop where
  place : ∃ done waiting, ms = done ++ waiting ++ s.upcoming ∧
    List.Forall₂ Whole s.received done ∧ OnSocket waiting s.socket s.worker

theorem frames_append (waiting : List Inbound) (m : Inbound) :
    frames (waiting ++ [m]) = frames waiting ++ m.frames := by
  simp [frames]

theorem frames_eq_nil {waiting : List Inbound} : frames waiting = [] ↔ waiting = [] := by
  cases waiting <;> simp [frames,Inbound.frames]

theorem OnSocket.arrive {waiting : List Inbound} {socket : List Frame} {pc : WorkerPc}
    (h : OnSocket waiting socket pc) (m : Inbound) :
    OnSocket (waiting ++ [m]) (socket ++ m.frames) pc := by
  cases pc with
  | atPayload identity =>
    obtain ⟨n,rest,rfl,hi,rfl⟩ := h
    exact ⟨n,rest ++ [m],rfl,hi,by simp [frames_append]⟩
  | atIdentity =>
    obtain ⟨-,rfl⟩ := h
    exact ⟨by simp,(frames_append waiting m).symm⟩
  | _ => exact (congrArg (· ++ m.frames) h).trans (frames_append waiting m).symm

theorem workerStep_position {outcome : HandlerOutcome} (single : ∀ m ∈ ms, m.SingleFrame)
    (h : Position ms s) (ha : workerStep s outcome = some s') : Position ms s' := by
  obtain ⟨done,waiting,hms,hdone,hsocket⟩ := h.place
  unfold workerStep at ha
  cases hpc : s.worker <;> simp only [hpc] at ha hsocket
  case exited => cases ha
  case atIdentity =>
    obtain ⟨hne,hsocket⟩ := hsocket
    obtain ⟨m,rest,rfl⟩ := List.exists_cons_of_ne_nil hne
    have hm := frames_singleFrame (single m (by simp [hms]))
    have hframes : s.socket = ⟨m.identity,true⟩ :: ⟨m.first,false⟩ :: frames rest := by
      rw [hsocket]
      simp [frames,hm]
    simp only [hframes] at ha
    obtain rfl := Option.some.inj ha
    exact ⟨done,m :: rest,hms,hdone,m,rest,rfl,rfl,rfl⟩
  case atPayload identity =>
    obtain ⟨m,rest,rfl,rfl,hframes⟩ := hsocket
    simp only [hframes] at ha
    obtain rfl := Option.some.inj ha
    refine ⟨done ++ [m],rest,by simp [hms],?_,rfl⟩
    exact List.rel_append hdone
      (.cons (whole_request (single m (by simp [hms]))) .nil)
  case atPoll =>
    obtain rfl := Option.some.inj ha
    refine ⟨done,waiting,hms,hdone,?_⟩
    cases hempty : s.socket.isEmpty with
    | true => exact hsocket
    | false =>
      refine ⟨?_,hsocket⟩
      rintro rfl
      rw [hsocket] at hempty
      cases hempty
  case atLoop =>
    obtain rfl := Option.some.inj ha
    refine ⟨done,waiting,hms,hdone,?_⟩
    cases s.stopRequested <;> exact hsocket
  case atOpenCheck =>
    obtain rfl := Option.some.inj ha
    refine ⟨done,waiting,hms,hdone,?_⟩
    cases s.isOpen && !s.stopRequested <;> exact hsocket
  case atDispatch r =>
    cases hr : outcome.response <;> simp only [hr] at ha <;> obtain rfl := Option.some.inj ha <;>
      exact ⟨done,waiting,hms,hdone,hsocket⟩
  case atReply r outcome response =>
    obtain rfl := Option.some.inj ha
    refine ⟨done,waiting,hms,hdone,?_⟩
    cases s.isOpen <;> exact hsocket
  case atReport | atSendIdentity | atSendBody =>
    obtain rfl := Option.some.inj ha
    exact ⟨done,waiting,hms,hdone,hsocket⟩

theorem step_position (single : ∀ m ∈ ms, m.SingleFrame) (h : Position ms s)
    (ha : step s a = some s') : Position ms s' := by
  cases a with
  | arrive =>
    obtain ⟨done,waiting,hms,hdone,hsocket⟩ := h.place
    cases hup : s.upcoming with
    | nil => simp [step,hup] at ha
    | cons m rest =>
      simp only [step,hup] at ha
      obtain rfl := Option.some.inj ha
      exact ⟨done,waiting ++ [m],by simp [hms,hup],hdone,hsocket.arrive m⟩
  | worker outcome => exact workerStep_position single h ha
  | requestStop =>
    obtain rfl := Option.some.inj ha
    exact ⟨h.place⟩
  | close =>
    obtain rfl := Option.some.inj ha
    exact ⟨h.place⟩

theorem Position.aligned (h : Position ms s) : Aligned ms s := by
  obtain ⟨done,waiting,hms,hdone,hsocket⟩ := h.place
  refine ⟨⟨done,?_,hdone⟩,?_⟩
  · rw [hms,List.append_assoc]
    exact List.prefix_append _ _
  · rintro ⟨hempty,hpc | ⟨identity,hpc⟩⟩ <;> rw [hpc] at hsocket
    · rw [hempty] at hsocket
      exact hsocket.1 (frames_eq_nil.mp hsocket.2.symm)
    · obtain ⟨m,rest,-,-,hframes⟩ := hsocket
      rw [hempty] at hframes
      cases hframes

structure Idle (s : System) : Prop where
  isOpen : s.isOpen = true
  notStopped : s.stopRequested = false
  socket : s.socket = []
  worker : s.worker = .atLoop

def receiveOne : List Action := .arrive :: List.replicate 5 (.worker .throws)

theorem run_receiveOne {rest : List Inbound} (hi : Idle s) (hup : s.upcoming = m :: rest) :
    ∃ payload, Transition.run step s receiveOne = some { s with
      upcoming := rest
      socket := m.frames.drop 2
      worker := .atDispatch (request ⟨m.identity,true⟩ payload)
      received := s.received ++ [request ⟨m.identity,true⟩ payload] } := by
  obtain ⟨hopen,hstop,hsocket,hworker⟩ := hi
  cases hm : m.others with
  | nil =>
    refine ⟨⟨m.first,false⟩,?_⟩
    simp [receiveOne,List.replicate,Transition.run,step,workerStep,hup,hopen,hstop,hsocket,hworker,
      Inbound.frames,bodyFrames,hm]
  | cons next others =>
    refine ⟨⟨m.first,true⟩,?_⟩
    simp [receiveOne,List.replicate,Transition.run,step,workerStep,hup,hopen,hstop,hsocket,hworker,
      Inbound.frames,bodyFrames,hm]

theorem singleFrame_of_aligned (done : List Inbound) (hi : Idle s)
    (hlen : s.received.length = done.length)
    (all : ∀ as t, Transition.run step s as = some t → Aligned (done ++ s.upcoming) t) :
    ∀ m ∈ s.upcoming, m.SingleFrame := by
  generalize hup : s.upcoming = upcoming at all
  induction upcoming generalizing s done with
  | nil => simp
  | cons m rest ih =>
    obtain ⟨payload,hrun⟩ := run_receiveOne hi hup
    obtain ⟨d,hstart,hwhole⟩ := (all _ _ hrun).whole
    have hd : d = done ++ [m] := by
      have length : d.length = done.length + 1 := by
        simpa [hlen] using hwhole.length_eq.symm
      rw [List.prefix_iff_eq_take.mp hstart,length]
      rw [List.take_append,List.take_of_length_le (Nat.le_succ _),Nat.add_sub_cancel_left]
      rfl
    have hm : m.SingleFrame := by
      have last := List.forall₂_drop done.length hwhole
      rw [hd,← hlen,List.drop_left] at last
      rw [hlen,List.drop_left] at last
      exact singleFrame_of_whole (List.forall₂_cons.mp last).1
    have hsocket : m.frames.drop 2 = [] := by
      rw [frames_singleFrame hm]
      rfl
    have hnext : Transition.run step s (receiveOne ++ List.replicate 2 (.worker .throws)) =
        some { s with
          upcoming := rest
          socket := []
          worker := .atLoop
          received := s.received ++ [request ⟨m.identity,true⟩ payload] } := by
      refine Transition.run_trans hrun ?_
      rw [hsocket]
      rfl
    have idle : Idle { s with
        upcoming := rest
        socket := []
        worker := .atLoop
        received := s.received ++ [request ⟨m.identity,true⟩ payload] } :=
      ⟨hi.isOpen,hi.notStopped,rfl,rfl⟩
    have after := ih (done ++ [m]) idle (by simp [hlen]) rfl
      (fun as t ht => by simpa using all _ t (Transition.run_trans hnext ht))
    intro n hn
    rcases List.mem_cons.mp hn with rfl | hn
    · exact hm
    · exact after n hn

theorem router_frame_alignment (ms : List Inbound) :
    (∀ (as : List Action) (s : System), Transition.run step (initial ms) as = some s →
      Aligned ms s) ↔ ∀ m ∈ ms, m.SingleFrame := by
  constructor
  · intro all
    exact singleFrame_of_aligned (s := initial ms) [] ⟨rfl,rfl,rfl,rfl⟩ rfl all
  · intro single as s h
    have start : Position ms (initial ms) := ⟨[],[],rfl,.nil,rfl⟩
    exact (Transition.run_invariant (fun _ _ _ => step_position single) start h).aligned

def twoBodyFrames : List Inbound := [⟨[65],[1],[[2]]⟩,⟨[66],[3],[]⟩]

theorem router_frame_alignment_counterexample :
    ¬ ∀ (ms : List Inbound) (as : List Action) (s : System),
      Transition.run step (initial ms) as = some s → Aligned ms s := by
  intro h
  have single := (router_frame_alignment twoBodyFrames).mp (h twoBodyFrames)
  have first := single ⟨[65],[1],[[2]]⟩ List.mem_cons_self
  cases first

example : ((Transition.run step (initial twoBodyFrames) (.arrive :: receiveOne ++
    List.replicate 7 (.worker .throws))).map (fun s => s.received.map (·.incoming.payload))) =
    some [[1],[66]] := rfl

end DdsAbstract.ZeroMq.Router
