import DdsAbstract.Node.LoopRefinement
import DdsAbstract.ZeroMq.ExactlyOnce

namespace DdsAbstract.ZeroMq.Server
open Router
open Node.ReceiveLoop (View Stage Turn Shows Contained)

variable {clients : Clients} {s s' : System} {r r' : Router.System} {a : Action}
  {outcome : HandlerOutcome}

def stage : WorkerPc → Stage
  | .exited => .exited
  | .atLoop => .atLoop
  | .atOpenCheck | .atPoll | .atIdentity | .atPayload _ => .receiving
  | .atDispatch request => .dispatching request.incoming
  | .atReport => .reporting
  | .atReply request _ response | .atSendIdentity request _ response
  | .atSendBody request _ _ response => .replying request.incoming response

def Handled.seen (h : Handled) : DdsIncomingMessage × HandlerOutcome := (h.request.incoming,h.outcome)

def System.view (s : System) : View :=
  ⟨s.router.stopRequested,stage s.router.worker,s.handled.map Handled.seen⟩

def OnlyRequests (s : System) : Prop :=
  ∀ request ∈ inHand s.router.worker, request.incoming.kind = .request

theorem worker_onlyRequests (h : workerStep r outcome = some r') :
    ∀ request ∈ inHand r'.worker, request.incoming.kind = .request := by
  unfold workerStep at h
  cases hpc : r.worker <;> simp only [hpc] at h
  case exited => cases h
  case atPayload identity =>
    split at h
    · cases h
    · obtain rfl := Option.some.inj h
      intro q hq
      obtain rfl := List.mem_singleton.mp hq
      rfl
  case atIdentity =>
    split at h
    · cases h
    · obtain rfl := Option.some.inj h
      simp [inHand]
  case atDispatch request =>
    split at h <;> obtain rfl := Option.some.inj h <;> simp [inHand]
  case atLoop | atOpenCheck | atPoll | atReply =>
    obtain rfl := Option.some.inj h
    simp only
    split <;> simp [inHand]
  all_goals
    obtain rfl := Option.some.inj h
    simp [inHand]

theorem worker_stage (h : workerStep r outcome = some r')
    (quiet : handledNow outcome r.worker = []) :
    Stage.Move r.stopRequested (stage r.worker) (stage r'.worker) := by
  unfold workerStep at h
  cases hpc : r.worker <;> simp only [hpc] at h
  case exited => cases h
  case atLoop =>
    obtain rfl := Option.some.inj h
    cases flag : r.stopRequested with
    | true => exact .leave rfl
    | false => exact .poll rfl
  case atOpenCheck =>
    obtain rfl := Option.some.inj h
    simp only
    split
    · exact .still _
    · exact .nothing
  case atPoll =>
    obtain rfl := Option.some.inj h
    simp only
    split
    · exact .nothing
    · exact .still _
  case atIdentity =>
    split at h
    · cases h
    · obtain rfl := Option.some.inj h
      exact .still _
  case atPayload identity =>
    split at h
    · cases h
    · obtain rfl := Option.some.inj h
      exact .message _
  case atDispatch request =>
    rw [hpc] at quiet
    cases quiet
  case atReport =>
    obtain rfl := Option.some.inj h
    exact .report
  case atReply request outcome response =>
    obtain rfl := Option.some.inj h
    simp only
    split
    · exact .still _
    · exact .reply _ _
  case atSendIdentity =>
    obtain rfl := Option.some.inj h
    exact .still _
  case atSendBody =>
    obtain rfl := Option.some.inj h
    exact .reply _ _

theorem worker_stopRequested (h : workerStep r outcome = some r') :
    r'.stopRequested = r.stopRequested := by
  unfold workerStep at h
  cases hpc : r.worker <;> simp only [hpc] at h
  case exited => cases h
  case atIdentity | atPayload =>
    split at h
    · cases h
    · obtain rfl := Option.some.inj h
      rfl
  case atDispatch request => split at h <;> obtain rfl := Option.some.inj h <;> rfl
  all_goals
    obtain rfl := Option.some.inj h
    rfl

theorem dispatch_stage {request : Reception} (hpc : r.worker = .atDispatch request)
    (kind : request.incoming.kind = .request) (h : workerStep r outcome = some r') :
    stage r'.worker = .afterDispatch request.incoming outcome.response := by
  simp only [workerStep,hpc] at h
  cases hr : outcome.response <;> simp only [hr] at h <;> obtain rfl := Option.some.inj h
  · rfl
  · simp only [stage,Stage.afterDispatch,kind]

theorem step_turn (only : OnlyRequests s) (h : step clients s a = some s') :
    OnlyRequests s' ∧ Turn s.view s'.view := by
  cases a with
  | request client data =>
    obtain rfl := Option.some.inj h
    exact ⟨only,.still rfl⟩
  | deliver client =>
    simp only [step] at h
    split at h
    · cases h
    · obtain rfl := Option.some.inj h
      exact ⟨only,.still rfl⟩
  | worker outcome =>
    obtain ⟨r',hr,rfl⟩ := Option.map_eq_some_iff.mp h
    refine ⟨worker_onlyRequests hr,?_⟩
    have stop := worker_stopRequested hr
    cases hpc : s.router.worker with
    | atDispatch request =>
      refine .dispatch request.incoming outcome (by simp only [System.view,hpc,stage]) ?_
      rw [System.view,stop,dispatch_stage hpc (only request (by simp [hpc,inHand])) hr]
      simp only [System.view,handledNow,List.map_append]
      rfl
    | _ =>
      have quiet : handledNow outcome s.router.worker = [] := by rw [hpc]; rfl
      refine .move _ (worker_stage hr quiet) ?_
      rw [System.view,stop]
      exact congrArg (View.mk _ _ ·) (congrArg (List.map Handled.seen) (List.append_nil _))

theorem zeromq_worker_refines_loop (clients : Clients)
    (handlers : Node.ReceiveLoop.Callback → Option Nat) (as : List Action) (s : System)
    (h : Transition.run (step clients) initial as = some s) :
    ∃ bs u, Transition.run Node.ReceiveLoop.step (.started true handlers) bs = some u ∧
      Shows u s.view ∧ Contained handlers bs u := by
  obtain ⟨bs,u,run,⟨-,shows⟩,contained⟩ := Node.ReceiveLoop.run_shows System.view
    (I := OnlyRequests) (C := fun _ _ => True) (fun s a t hs _ ha => step_turn hs ha) handlers
    (by simp [OnlyRequests,initial,Router.initial,inHand]) rfl
    (Transition.meets_of_forall (P := fun _ => True) (fun _ _ => trivial)) h
  exact ⟨bs,u,run,shows,contained⟩

theorem zeromq_worker_refines_loop_interleaved : ∃ s,
    Transition.run (step numbered) initial interleaved = some s ∧
      s.handled.map Handled.seen =
        [(⟨.request,[2],toStdString [0,0]⟩,.throws),
          (⟨.request,[1],toStdString [0]⟩,.returns [9]),
          (⟨.request,[3],toStdString [0]⟩,.returns [9])] ∧
      ∃ bs u, Transition.run Node.ReceiveLoop.step (.started true fun _ => none) bs = some u ∧
        Shows u s.view ∧ Contained (fun _ => none) bs u := by
  refine ⟨_,rfl,by decide,?_⟩
  exact zeromq_worker_refines_loop numbered (fun _ => none) interleaved _ rfl

end DdsAbstract.ZeroMq.Server
