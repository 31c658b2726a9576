import DdsAbstract.Node.Containment

namespace DdsAbstract.Node.ReceiveLoop

-- Where a transport's worker stands in `ReceiveLoop`, with a whole call of `TryReceive`, of
-- `Dispatch` or of `Report` as one step.
inductive Stage where
  | exited
  | atLoop
  | receiving
  | dispatching (incoming : DdsIncomingMessage)
  | reporting
  | replying (incoming : DdsIncomingMessage) (response : DdsBytes)
  deriving DecidableEq, Repr

structure View where
  stopRequested : Bool
  stage : Stage
  handled : List (DdsIncomingMessage × HandlerOutcome)
  deriving DecidableEq, Repr

def Stage.pc : Stage → LoopPc
  | .exited => .exited
  | .atLoop => .atLoop
  | .receiving => .atReceive
  | .dispatching incoming => .atReadHandler incoming
  | .reporting => .atCatch 0
  | .replying incoming response => .atReply incoming response

def Stage.afterDispatch (incoming : DdsIncomingMessage) : Option DdsBytes → Stage
  | none => .reporting
  | some response =>
    match incoming.kind with
    | .broadcast => .atLoop
    | .request => .replying incoming response

variable {s : System} {v v' : View}

inductive Stage.Move (stopping : Bool) : Stage → Stage → Prop
  | still (stage : Stage) : Move stopping stage stage
  | leave (flag : stopping = true) : Move stopping .atLoop .exited
  | poll (flag : stopping = false) : Move stopping .atLoop .receiving
  | nothing : Move stopping .receiving .atLoop
  | message (incoming : DdsIncomingMessage) : Move stopping .receiving (.dispatching incoming)
  | report : Move stopping .reporting .atLoop
  | reply (incoming : DdsIncomingMessage) (response : DdsBytes) :
    Move stopping (.replying incoming response) .atLoop

inductive Turn (v v' : View) : Prop
  | move (stage : Stage) (moves : Stage.Move v.stopRequested v.stage stage)
      (next : v' = { v with stage := stage })
  | dispatch (incoming : DdsIncomingMessage) (outcome : HandlerOutcome)
      (was : v.stage = .dispatching incoming)
      (next : v' = { v with
        stage := .afterDispatch incoming outcome.response
        handled := v.handled ++ [(incoming,outcome)] })
  | stop (next : v' = { v with stopRequested := true })

theorem Turn.still (same : v' = v) : Turn v v' := .move v.stage (.still v.stage) same

def Event.handles : Event → Option (DdsIncomingMessage × HandlerOutcome)
  | .dispatched incoming none => some (incoming,.notSet)
  | .invoked incoming _ (.returns response) => some (incoming,.returns response)
  | .invoked incoming _ (.throws _) => some (incoming,.throws)
  | _ => none

structure Shows (s : System) (v : View) : Prop where
  hasTransport : s.hasTransport = true
  stopRequested : s.stopRequested = v.stopRequested
  pc : s.pc = v.stage.pc
  handled : s.trace.filterMap Event.handles = v.handled

theorem Shows.emit (h : Shows s v) (events : List Event) (stage : Stage) :
    Shows (s.emit events stage.pc)
      { v with stage := stage, handled := v.handled ++ events.filterMap Event.handles } := by
  refine ⟨h.hasTransport,h.stopRequested,rfl,?_⟩
  simp only [System.emit,List.filterMap_append,h.handled]

theorem Shows.silent (h : Shows s v) (events : List Event) (stage : Stage)
    (none : events.filterMap Event.handles = []) :
    Shows (s.emit events stage.pc) { v with stage := stage } := by
  have emitted := h.emit events stage
  rwa [none,List.append_nil] at emitted

theorem Shows.register (h : Shows s v) (callback : Callback) (handler : Option Nat) :
    Shows (s.register callback handler) v := by
  refine ⟨h.hasTransport,h.stopRequested,h.pc,?_⟩
  simp [System.register,Event.handles,h.handled]

theorem afterHandler_eq (incoming : DdsIncomingMessage) (response : DdsBytes) :
    LoopPc.afterHandler incoming response = (Stage.afterDispatch incoming (some response)).pc := by
  cases hk : incoming.kind <;> simp only [LoopPc.afterHandler,Stage.afterDispatch,hk] <;> rfl

theorem dispatch_matched (h : Shows s v) {incoming : DdsIncomingMessage} (outcome : HandlerOutcome)
    (was : v.stage = .dispatching incoming) : ∃ as s', Transition.run step s as = some s' ∧
      Shows s' { v with
        stage := .afterDispatch incoming outcome.response
        handled := v.handled ++ [(incoming,outcome)] } := by
  have pc : s.pc = .atReadHandler incoming := by rw [h.pc,was]; rfl
  cases outcome with
  | notSet =>
    refine ⟨[.register (handlerOf incoming.kind) none,.worker .nothing (.returns [])],_,?_,
      (h.register (handlerOf incoming.kind) none).emit [.dispatched incoming none]
        (.afterDispatch incoming (some []))⟩
    simp [Transition.run,step,System.workerStep,System.register,pc,afterHandler_eq]
  | returns response =>
    refine ⟨[.register (handlerOf incoming.kind) (some 0),.worker .nothing (.returns []),
      .worker .nothing (.returns response)],_,?_,
      (h.register (handlerOf incoming.kind) (some 0)).emit
        [.dispatched incoming (some 0),.invoked incoming 0 (.returns response)]
        (.afterDispatch incoming (some response))⟩
    simp [Transition.run,step,System.workerStep,System.register,System.emit,pc,afterHandler_eq]
  | throws =>
    refine ⟨[.register (handlerOf incoming.kind) (some 0),.worker .nothing (.returns []),
      .worker .nothing (.throws 0)],_,?_,
      (h.register (handlerOf incoming.kind) (some 0)).emit
        [.dispatched incoming (some 0),.invoked incoming 0 (.throws 0),.raised 0] .reporting⟩
    simp [Transition.run,step,System.workerStep,System.register,System.emit,pc,Stage.pc]

-- `Report` is silent when stop has been requested or no error handler is set.
theorem report_matched (h : Shows s v) (was : v.stage = .reporting) :
    ∃ as s', Transition.run step s as = some s' ∧ Shows s' { v with stage := .atLoop } := by
  have pc : s.pc = .atCatch 0 := by rw [h.pc,was]; rfl
  cases hs : s.stopRequested with
  | true =>
    refine ⟨[.worker .nothing (.returns [])],_,?_,h.silent [.checked 0 true] .atLoop rfl⟩
    simp [Transition.run,step,System.workerStep,pc,hs,Stage.pc]
  | false =>
    refine ⟨[.register .error none,.worker .nothing (.returns []),.worker .nothing (.returns [])],_,?_,
      (h.register .error none).silent [.checked 0 false,.errorRead 0 none] .atLoop rfl⟩
    simp [Transition.run,step,System.workerStep,System.register,System.emit,pc,hs,Stage.pc]

theorem move_matched (h : Shows s v) {stage : Stage}
    (moves : Stage.Move v.stopRequested v.stage stage) :
    ∃ as s', Transition.run step s as = some s' ∧ Shows s' { v with stage := stage } := by
  have pc := h.pc
  generalize hv : v.stage = before at moves pc
  cases moves with
  | still => exact ⟨[],s,rfl,hv ▸ h⟩
  | leave flag =>
    refine ⟨[.worker .nothing (.returns [])],_,?_,h.silent [] .exited rfl⟩
    simp [Transition.run,step,System.workerStep,pc,Stage.pc,h.stopRequested,flag]
  | poll flag =>
    refine ⟨[.worker .nothing (.returns [])],_,?_,h.silent [] .receiving rfl⟩
    simp [Transition.run,step,System.workerStep,pc,Stage.pc,h.stopRequested,flag]
  | nothing =>
    refine ⟨[.worker .nothing (.returns [])],_,?_,h.silent [] .atLoop rfl⟩
    simp [Transition.run,step,System.workerStep,pc,Stage.pc,h.hasTransport]
  | message incoming =>
    refine ⟨[.worker (.message incoming) (.returns [])],_,?_,
      h.silent [.dequeued incoming] (.dispatching incoming) rfl⟩
    simp [Transition.run,step,System.workerStep,pc,Stage.pc,h.hasTransport]
  | report => exact report_matched h hv
  | reply incoming response =>
    refine ⟨[.worker .nothing (.returns [])],_,?_,
      h.silent [.replied incoming response] .atLoop rfl⟩
    simp [Transition.run,step,System.workerStep,pc,Stage.pc]

theorem turn_matched (h : Shows s v) (ht : Turn v v') :
    ∃ as s', Transition.run step s as = some s' ∧ Shows s' v' := by
  cases ht with
  | move stage moves next => exact next ▸ move_matched h moves
  | dispatch incoming outcome was next => exact next ▸ dispatch_matched h outcome was
  | stop next =>
    refine ⟨[.requestStop],_,rfl,next ▸ ⟨h.hasTransport,rfl,h.pc,?_⟩⟩
    simp [System.requestStop,Event.handles,h.handled]

theorem shows_started (handlers : Callback → Option Nat) (stopping : Bool) :
    ∃ bs u, Transition.run step (.started true handlers) bs = some u ∧
      Shows u ⟨stopping,.atLoop,[]⟩ := by
  cases stopping with
  | false => exact ⟨[],_,rfl,rfl,rfl,rfl,rfl⟩
  | true => exact ⟨[.requestStop],_,rfl,rfl,rfl,rfl,rfl⟩

theorem run_shows {σ α : Type} {next : σ → α → Option σ} {I : σ → Prop} {C : σ → α → Prop}
    (view : σ → View)
    (turns : ∀ s a t, I s → C s a → next s a = some t → I t ∧ Turn (view s) (view t))
    {s t : σ} {as : List α} {stopping : Bool} (handlers : Callback → Option Nat) (hs : I s)
    (fresh : view s = ⟨stopping,.atLoop,[]⟩) (hC : Transition.Meets next C s as)
    (h : Transition.run next s as = some t) :
    ∃ bs u, Transition.run step (.started true handlers) bs = some u ∧ (I t ∧ Shows u (view t)) ∧
      Contained handlers bs u := by
  obtain ⟨before,u₀,starts,shows₀⟩ := shows_started handlers stopping
  obtain ⟨after,u,run,shows⟩ := Transition.run_simulates_of_meets
    (R := fun u s => I s ∧ Shows u (view s))
    (fun u s a t hr hC ha => by
      obtain ⟨kept,turn⟩ := turns s a t hr.1 hC ha
      obtain ⟨bs,v,hv,shows⟩ := turn_matched hr.2 turn
      exact ⟨bs,v,hv,kept,shows⟩)
    ⟨hs,fresh ▸ shows₀⟩ hC h
  have whole := Transition.run_trans starts run
  exact ⟨before ++ after,u,whole,shows,run_contained whole⟩

def Stage.toDispatch : Stage → Nat
  | .receiving | .dispatching _ => 1
  | _ => 0

theorem Stage.toDispatch_le (stage : Stage) : stage.toDispatch ≤ 1 := by
  cases stage <;> simp [toDispatch]

structure Lasts (v v' : View) : Prop where
  kept : v.handled <+: v'.handled
  stopRequested : v'.stopRequested = true
  few : v'.handled.length + v'.stage.toDispatch ≤ v.handled.length + v.stage.toDispatch

theorem Lasts.refl (h : v.stopRequested = true) : Lasts v v := ⟨List.prefix_rfl,h,Nat.le_refl _⟩

theorem Stage.Move.toDispatch_le {before after : Stage} (h : Stage.Move true before after) :
    after.toDispatch ≤ before.toDispatch := by
  cases h with
  | still => exact Nat.le_refl _
  | poll flag => cases flag
  | _ => simp [Stage.toDispatch]

theorem afterDispatch_toDispatch (incoming : DdsIncomingMessage) (response : Option DdsBytes) :
    (Stage.afterDispatch incoming response).toDispatch = 0 := by
  unfold Stage.afterDispatch
  split
  · rfl
  · split <;> rfl

theorem Lasts.turn {v₀ : View} (h : Lasts v₀ v) (ht : Turn v v') : Lasts v₀ v' := by
  obtain ⟨kept,stopRequested,few⟩ := h
  cases ht with
  | move stage moves next =>
    subst next
    rw [stopRequested] at moves
    exact ⟨kept,stopRequested,Nat.le_trans (Nat.add_le_add_left moves.toDispatch_le _) few⟩
  | dispatch incoming outcome was next =>
    subst next
    refine ⟨kept.trans (List.prefix_append _ _),stopRequested,?_⟩
    rw [was,show (Stage.dispatching incoming).toDispatch = 1 from rfl] at few
    simp only [afterDispatch_toDispatch,List.length_append,List.length_singleton]
    omega
  | stop next =>
    subst next
    exact ⟨kept,rfl,few⟩

end DdsAbstract.Node.ReceiveLoop
