import DdsAbstract.Lib.Trace
import DdsAbstract.Node.ReceiveLoop

namespace DdsAbstract.Node.ReceiveLoop

variable {s s' : System} {a : Action} {initial : Callback → Option Nat} {trace : List Event}
  {event : Event}

namespace Event

def dequeues : Event → Option DdsIncomingMessage
  | .dequeued incoming => some incoming
  | _ => none

def dispatches : Event → Option DdsIncomingMessage
  | .dispatched incoming _ => some incoming
  | _ => none

def calls : Event → Option (DdsIncomingMessage × Nat)
  | .dispatched incoming handler => handler.map (fun h => (incoming,h))
  | _ => none

def invokes : Event → Option (DdsIncomingMessage × Nat)
  | .invoked incoming handler _ => some (incoming,handler)
  | _ => none

def owes : Event → Option (DdsIncomingMessage × DdsBytes)
  | .dispatched incoming none =>
    if incoming.kind = .request then some (incoming,[]) else none
  | .invoked incoming _ (.returns response) =>
    if incoming.kind = .request then some (incoming,response) else none
  | _ => none

def replies : Event → Option (DdsIncomingMessage × DdsBytes)
  | .replied incoming response => some (incoming,response)
  | _ => none

def raises : Event → Option Nat
  | .raised error => some error
  | _ => none

def checks : Event → Option Nat
  | .checked error _ => some error
  | _ => none

def answer : Event → Option (Nat × Bool)
  | .checked error stopping => some (error,stopping)
  | _ => none

def catches : Event → Option Nat
  | .checked error false => some error
  | _ => none

def reads : Event → Option Nat
  | .errorRead error _ => some error
  | _ => none

def reports : Event → Option (Nat × Nat)
  | .errorRead error handler => handler.map (fun h => (error,h))
  | _ => none

def runsReport : Event → Option (Nat × Nat)
  | .reported error handler => some (error,handler)
  | _ => none

def isDispatch : Event → Bool
  | .dispatched .. => true
  | _ => false

def request : Event → Option Action
  | .registered callback handler => some (.register callback handler)
  | .stopRequested => some .requestStop
  | _ => none

end Event

def Action.ofWorker : Action → Bool
  | .worker .. => true
  | _ => false

namespace LoopPc

def undispatched : LoopPc → List DdsIncomingMessage
  | .atReadHandler incoming => [incoming]
  | _ => []

def uncalled : LoopPc → List (DdsIncomingMessage × Nat)
  | .atInvoke incoming handler => [(incoming,handler)]
  | _ => []

def unreplied : LoopPc → List (DdsIncomingMessage × DdsBytes)
  | .atReply incoming response => [(incoming,response)]
  | _ => []

def unchecked : LoopPc → List Nat
  | .atCatch error => [error]
  | _ => []

def unread : LoopPc → List Nat
  | .atReadError error => [error]
  | _ => []

def unreported : LoopPc → List (Nat × Nat)
  | .atReport error handler => [(error,handler)]
  | _ => []

def room : LoopPc → Nat
  | .atReceive | .atReadHandler _ => 1
  | _ => 0

end LoopPc

def registeredIn (initial : Callback → Option Nat) (trace : List Event) : Callback → Option Nat :=
  trace.foldl (fun handlers event =>
    match event with
    | .registered callback handler => Function.update handlers callback handler
    | _ => handlers) initial

def HandlerRead (initial : Callback → Option Nat) (before : List Event) : Event → Prop
  | .dispatched incoming handler => handler = registeredIn initial before (handlerOf incoming.kind)
  | .errorRead _ handler => handler = registeredIn initial before .error
  | _ => True

def raisedAt : Bool → List Event → List (Nat × Bool)
  | _, [] => []
  | stopping, .raised error :: rest => (error,stopping) :: raisedAt stopping rest
  | _, .stopRequested :: rest => raisedAt true rest
  | stopping, _ :: rest => raisedAt stopping rest

def Spares (raised checked : Nat × Bool) : Prop :=
  raised.1 = checked.1 ∧ (raised.2 = true → checked.2 = true)

structure Contained (initial : Callback → Option Nat) (as : List Action) (s : System) : Prop where
  requested : s.trace.filterMap Event.request = as.filter (!·.ofWorker)
  stays : Event.stopRequested ∉ s.trace → s.pc ≠ .exited
  dispatched : Trace.Owed Event.dequeues Event.dispatches s.trace s.pc.undispatched
  handlerRead : Trace.Everywhere (HandlerRead initial) s.trace
  invoked : Trace.Owed Event.calls Event.invokes s.trace s.pc.uncalled
  replied : Trace.Owed Event.owes Event.replies s.trace s.pc.unreplied
  checked : Trace.Owed Event.raises Event.checks s.trace s.pc.unchecked
  caught : Trace.Owed Event.catches Event.reads s.trace s.pc.unread
  reported : Trace.Owed Event.reports Event.runsReport s.trace s.pc.unreported
  late : List.Forall₂ Spares (raisedAt false s.trace)
    (s.trace.filterMap Event.answer ++ s.pc.unchecked.map (·,true))
  lastDispatch : ∀ before after, s.trace = before ++ .stopRequested :: after →
    after.countP Event.isDispatch ≤ 1

inductive LoopMove (s : System) : LoopPc → List Event → LoopPc → Prop
  | poll (flag : s.stopRequested = false) : LoopMove s .atLoop [] .atReceive
  | leave (flag : s.stopRequested = true) : LoopMove s .atLoop [] .exited
  | idle : LoopMove s .atReceive [] .atLoop
  | dequeue (incoming : DdsIncomingMessage) :
    LoopMove s .atReceive [.dequeued incoming] (.atReadHandler incoming)
  | receiveThrows (error : Nat) : LoopMove s .atReceive [.raised error] (.atCatch error)
  | notSet (incoming : DdsIncomingMessage) (none : s.handlers (handlerOf incoming.kind) = none) :
    LoopMove s (.atReadHandler incoming) [.dispatched incoming .none] (.afterHandler incoming [])
  | set (incoming : DdsIncomingMessage) (handler : Nat)
    (some : s.handlers (handlerOf incoming.kind) = some handler) :
    LoopMove s (.atReadHandler incoming) [.dispatched incoming (.some handler)]
      (.atInvoke incoming handler)
  | returns (incoming : DdsIncomingMessage) (handler : Nat) (response : DdsBytes) :
    LoopMove s (.atInvoke incoming handler) [.invoked incoming handler (.returns response)]
      (.afterHandler incoming response)
  | throws (incoming : DdsIncomingMessage) (handler error : Nat) :
    LoopMove s (.atInvoke incoming handler)
      [.invoked incoming handler (.throws error),.raised error] (.atCatch error)
  | reply (incoming : DdsIncomingMessage) (response : DdsBytes) :
    LoopMove s (.atReply incoming response) [.replied incoming response] .atLoop
  | replyThrows (incoming : DdsIncomingMessage) (response : DdsBytes) (error : Nat) :
    LoopMove s (.atReply incoming response) [.replied incoming response,.raised error]
      (.atCatch error)
  | stopping (error : Nat) (flag : s.stopRequested = true) :
    LoopMove s (.atCatch error) [.checked error true] .atLoop
  | catches (error : Nat) (flag : s.stopRequested = false) :
    LoopMove s (.atCatch error) [.checked error false] (.atReadError error)
  | silent (error : Nat) (none : s.handlers .error = none) :
    LoopMove s (.atReadError error) [.errorRead error .none] .atLoop
  | reads (error handler : Nat) (some : s.handlers .error = some handler) :
    LoopMove s (.atReadError error) [.errorRead error (.some handler)] (.atReport error handler)
  | report (error handler : Nat) :
    LoopMove s (.atReport error handler) [.reported error handler] .atLoop

theorem worker_move {received : Received} {outcome : Outcome}
    (h : s.workerStep received outcome = some s') :
    ∃ events pc, LoopMove s s.pc events pc ∧ s' = s.emit events pc := by
  unfold System.workerStep at h
  cases hpc : s.pc <;> simp only [hpc] at h
  case exited => cases h
  case atLoop =>
    obtain rfl := Option.some.inj h
    cases hs : s.stopRequested with
    | true => exact ⟨_,_,.leave hs,rfl⟩
    | false => exact ⟨_,_,.poll hs,rfl⟩
  case atReceive =>
    split at h <;> obtain rfl := Option.some.inj h
    · cases received with
      | nothing => exact ⟨_,_,.idle,rfl⟩
      | message incoming => exact ⟨_,_,.dequeue incoming,rfl⟩
      | throws error => exact ⟨_,_,.receiveThrows error,rfl⟩
    · exact ⟨_,_,.idle,rfl⟩
  case atReadHandler incoming =>
    obtain rfl := Option.some.inj h
    cases hh : s.handlers (handlerOf incoming.kind) with
    | none => exact ⟨_,_,.notSet incoming hh,rfl⟩
    | some handler => exact ⟨_,_,.set incoming handler hh,rfl⟩
  case atInvoke incoming handler =>
    obtain rfl := Option.some.inj h
    cases outcome with
    | returns response => exact ⟨_,_,.returns incoming handler response,rfl⟩
    | throws error => exact ⟨_,_,.throws incoming handler error,rfl⟩
  case atReply incoming response =>
    obtain rfl := Option.some.inj h
    cases outcome with
    | returns _ => exact ⟨_,_,.reply incoming response,rfl⟩
    | throws error => exact ⟨_,_,.replyThrows incoming response error,rfl⟩
  case atCatch error =>
    obtain rfl := Option.some.inj h
    cases hs : s.stopRequested with
    | true => exact ⟨_,_,.stopping error hs,rfl⟩
    | false => exact ⟨_,_,.catches error hs,rfl⟩
  case atReadError error =>
    obtain rfl := Option.some.inj h
    cases hh : s.handlers .error with
    | none => exact ⟨_,_,.silent error hh,rfl⟩
    | some handler => exact ⟨_,_,.reads error handler hh,rfl⟩
  case atReport error handler =>
    obtain rfl := Option.some.inj h
    exact ⟨_,_,.report error handler,rfl⟩

theorem step_cases (h : step s a = some s') :
    (∃ events pc, LoopMove s s.pc events pc ∧ s' = s.emit events pc) ∨
      (∃ callback handler, s' = s.register callback handler) ∨ s' = s.requestStop := by
  cases a with
  | worker received outcome => exact .inl (worker_move h)
  | register callback handler => exact .inr (.inl ⟨callback,handler,(Option.some.inj h).symm⟩)
  | requestStop => exact .inr (.inr (Option.some.inj h).symm)

theorem owed_step {β : Type} {f g : Event → Option β} {hand : LoopPc → List β}
    (quiet : ∀ callback handler, f (.registered callback handler) = none ∧
      g (.registered callback handler) = none)
    (quietStop : f .stopRequested = none ∧ g .stopRequested = none)
    (move : ∀ pc events pc', LoopMove s pc events pc' →
      hand pc ++ events.filterMap f = events.filterMap g ++ hand pc')
    (h : Trace.Owed f g s.trace (hand s.pc)) (hs : step s a = some s') :
    Trace.Owed f g s'.trace (hand s'.pc) := by
  rcases step_cases hs with ⟨events,pc,hmove,rfl⟩ | ⟨callback,handler,rfl⟩ | rfl
  · exact h.append (move _ _ _ hmove)
  · exact h.append (by simp [quiet callback handler,System.register])
  · exact h.append (by simp [quietStop,System.requestStop])

structure HandsFree (pc : LoopPc) (replies : List (DdsIncomingMessage × DdsBytes)) : Prop where
  undispatched : pc.undispatched = []
  uncalled : pc.uncalled = []
  unreplied : pc.unreplied = replies
  unchecked : pc.unchecked = []
  unread : pc.unread = []
  unreported : pc.unreported = []
  room : pc.room = 0
  stays : pc ≠ .exited

theorem afterHandler_hands (incoming : DdsIncomingMessage) (response : DdsBytes) :
    HandsFree (.afterHandler incoming response)
      (if incoming.kind = .request then [(incoming,response)] else []) := by
  unfold LoopPc.afterHandler
  cases incoming.kind <;> exact ⟨rfl,rfl,rfl,rfl,rfl,rfl,rfl,by simp⟩

theorem dispatched_step (h : Trace.Owed Event.dequeues Event.dispatches s.trace s.pc.undispatched)
    (hs : step s a = some s') :
    Trace.Owed Event.dequeues Event.dispatches s'.trace s'.pc.undispatched := by
  refine owed_step (fun _ _ => ⟨rfl,rfl⟩) ⟨rfl,rfl⟩ ?_ h hs
  intro pc events pc' hmove
  cases hmove with
  | notSet | returns =>
    rw [(afterHandler_hands _ _).undispatched]
    rfl
  | _ => rfl

theorem invoked_step (h : Trace.Owed Event.calls Event.invokes s.trace s.pc.uncalled)
    (hs : step s a = some s') : Trace.Owed Event.calls Event.invokes s'.trace s'.pc.uncalled := by
  refine owed_step (fun _ _ => ⟨rfl,rfl⟩) ⟨rfl,rfl⟩ ?_ h hs
  intro pc events pc' hmove
  cases hmove with
  | notSet | returns =>
    rw [(afterHandler_hands _ _).uncalled]
    rfl
  | _ => rfl

theorem replied_step (h : Trace.Owed Event.owes Event.replies s.trace s.pc.unreplied)
    (hs : step s a = some s') : Trace.Owed Event.owes Event.replies s'.trace s'.pc.unreplied := by
  refine owed_step (fun _ _ => ⟨rfl,rfl⟩) ⟨rfl,rfl⟩ ?_ h hs
  intro pc events pc' hmove
  cases hmove with
  | notSet incoming none | returns incoming handler response =>
    rw [(afterHandler_hands _ _).unreplied]
    by_cases hk : incoming.kind = .request <;>
      simp [List.filterMap_cons,Event.owes,Event.replies,LoopPc.unreplied,hk]
  | _ => rfl

theorem checked_step (h : Trace.Owed Event.raises Event.checks s.trace s.pc.unchecked)
    (hs : step s a = some s') : Trace.Owed Event.raises Event.checks s'.trace s'.pc.unchecked := by
  refine owed_step (fun _ _ => ⟨rfl,rfl⟩) ⟨rfl,rfl⟩ ?_ h hs
  intro pc events pc' hmove
  cases hmove with
  | notSet | returns =>
    rw [(afterHandler_hands _ _).unchecked]
    rfl
  | _ => rfl

theorem caught_step (h : Trace.Owed Event.catches Event.reads s.trace s.pc.unread)
    (hs : step s a = some s') : Trace.Owed Event.catches Event.reads s'.trace s'.pc.unread := by
  refine owed_step (fun _ _ => ⟨rfl,rfl⟩) ⟨rfl,rfl⟩ ?_ h hs
  intro pc events pc' hmove
  cases hmove with
  | notSet | returns =>
    rw [(afterHandler_hands _ _).unread]
    rfl
  | _ => rfl

theorem reported_step (h : Trace.Owed Event.reports Event.runsReport s.trace s.pc.unreported)
    (hs : step s a = some s') :
    Trace.Owed Event.reports Event.runsReport s'.trace s'.pc.unreported := by
  refine owed_step (fun _ _ => ⟨rfl,rfl⟩) ⟨rfl,rfl⟩ ?_ h hs
  intro pc events pc' hmove
  cases hmove with
  | notSet | returns =>
    rw [(afterHandler_hands _ _).unreported]
    rfl
  | _ => rfl

structure Tracked (initial : Callback → Option Nat) (s : System) : Prop where
  flag : s.stopRequested = true ↔ Event.stopRequested ∈ s.trace
  handlers : s.handlers = registeredIn initial s.trace
  left : s.pc = .exited → s.stopRequested = true

theorem move_quiet {pc pc' : LoopPc} {events : List Event} (h : LoopMove s pc events pc') :
    Event.stopRequested ∉ events ∧ ∀ callback handler, Event.registered callback handler ∉ events := by
  cases h <;> simp

theorem registeredIn_append {before events : List Event}
    (h : ∀ callback handler, Event.registered callback handler ∉ events) :
    registeredIn initial (before ++ events) = registeredIn initial before := by
  induction events generalizing before with
  | nil => simp
  | cons event events ih =>
    have rest := @ih (before ++ [event]) (fun callback handler hm =>
      h callback handler (List.mem_cons_of_mem _ hm))
    rw [List.append_assoc,List.singleton_append] at rest
    rw [rest,registeredIn,List.foldl_append]
    cases event with
    | registered callback handler => exact absurd List.mem_cons_self (h callback handler)
    | _ => rfl

theorem tracked_step (h : Tracked initial s) (hs : step s a = some s') : Tracked initial s' := by
  rcases step_cases hs with ⟨events,pc,hmove,rfl⟩ | ⟨callback,handler,rfl⟩ | rfl
  · obtain ⟨noStop,noRegister⟩ := move_quiet hmove
    refine ⟨?_,?_,?_⟩
    · simpa [System.emit,noStop] using h.flag
    · exact h.handlers.trans (registeredIn_append noRegister).symm
    · intro hexit
      generalize hpc : s.pc = old at hmove
      cases hmove with
      | leave flag => exact flag
      | notSet incoming none => exact absurd hexit (afterHandler_hands incoming []).stays
      | returns incoming handler response =>
        exact absurd hexit (afterHandler_hands incoming response).stays
      | _ => cases hexit
  · refine ⟨?_,?_,h.left⟩
    · simpa [System.register] using h.flag
    · simp [System.register,registeredIn,List.foldl_append,h.handlers]
  · refine ⟨by simp [System.requestStop],?_,fun _ => rfl⟩
    simp [System.requestStop,registeredIn,List.foldl_append,h.handlers]

theorem handlerRead_step (ht : Tracked initial s)
    (h : Trace.Everywhere (HandlerRead initial) s.trace) (hs : step s a = some s') :
    Trace.Everywhere (HandlerRead initial) s'.trace := by
  rcases step_cases hs with ⟨events,pc,hmove,rfl⟩ | ⟨callback,handler,rfl⟩ | rfl
  · generalize hpc : s.pc = old at hmove
    simp only [System.emit]
    cases hmove with
    | poll | leave | idle =>
      rw [List.append_nil]
      exact h
    | notSet incoming none => exact h.snoc (by rw [HandlerRead,← ht.handlers,none])
    | set incoming handler some => exact h.snoc (by rw [HandlerRead,← ht.handlers,some])
    | silent error none => exact h.snoc (by rw [HandlerRead,← ht.handlers,none])
    | reads error handler some => exact h.snoc (by rw [HandlerRead,← ht.handlers,some])
    | throws incoming handler error =>
      rw [List.append_cons]
      exact (h.snoc (y := Event.invoked incoming handler (.throws error)) trivial).snoc trivial
    | replyThrows incoming response error =>
      rw [List.append_cons]
      exact (h.snoc (y := Event.replied incoming response) trivial).snoc trivial
    | _ => exact h.snoc trivial
  · exact h.snoc trivial
  · exact h.snoc trivial

theorem raisedAt_append (stopping : Bool) (before events : List Event) :
    raisedAt stopping (before ++ events) =
      raisedAt stopping before ++ raisedAt (stopping || before.contains .stopRequested) events := by
  induction before generalizing stopping with
  | nil => simp [raisedAt]
  | cons event before ih => cases event <;> simp [raisedAt,ih]

theorem stop_of_raisedAt {error : Nat} (h : (error,true) ∈ raisedAt false trace) :
    Event.stopRequested ∈ trace := by
  induction trace with
  | nil => simp [raisedAt] at h
  | cons event trace ih =>
    cases event with
    | stopRequested => exact List.mem_cons_self
    | raised e =>
      refine List.mem_cons_of_mem _ (ih ?_)
      simpa [raisedAt] using h
    | _ => exact List.mem_cons_of_mem _ (ih (by simpa [raisedAt] using h))

theorem late_step (ht : Tracked initial s)
    (h : List.Forall₂ Spares (raisedAt false s.trace)
      (s.trace.filterMap Event.answer ++ s.pc.unchecked.map (·,true)))
    (hs : step s a = some s') :
    List.Forall₂ Spares (raisedAt false s'.trace)
      (s'.trace.filterMap Event.answer ++ s'.pc.unchecked.map (·,true)) := by
  have raising {events : List Event} {pc : LoopPc} {error : Nat} (was : s.pc.unchecked = [])
      (raised : ∀ b, raisedAt b events = [(error,b)]) (answers : events.filterMap Event.answer = [])
      (now : pc.unchecked = [error]) :
      List.Forall₂ Spares (raisedAt false (s.emit events pc).trace)
        ((s.emit events pc).trace.filterMap Event.answer ++
          (s.emit events pc).pc.unchecked.map (·,true)) := by
    rw [was] at h
    simp only [System.emit,raisedAt_append,raised,List.filterMap_append,answers,now,List.append_nil,
      List.map_nil,List.map_cons] at h ⊢
    exact List.rel_append h (.cons ⟨rfl,fun _ => rfl⟩ .nil)
  have quiet {events : List Event} {pc : LoopPc} (was : s.pc.unchecked = [])
      (raised : ∀ b, raisedAt b events = []) (answers : events.filterMap Event.answer = [])
      (now : pc.unchecked = []) :
      List.Forall₂ Spares (raisedAt false (s.emit events pc).trace)
        ((s.emit events pc).trace.filterMap Event.answer ++
          (s.emit events pc).pc.unchecked.map (·,true)) := by
    rw [was] at h
    simpa only [System.emit,raisedAt_append,raised,List.filterMap_append,answers,now,
      List.append_nil] using h
  have answering {pc : LoopPc} {error : Nat} (was : s.pc.unchecked = [error])
      (now : pc.unchecked = []) :
      List.Forall₂ Spares (raisedAt false (s.emit [.checked error s.stopRequested] pc).trace)
        ((s.emit [.checked error s.stopRequested] pc).trace.filterMap Event.answer ++
          (s.emit [.checked error s.stopRequested] pc).pc.unchecked.map (·,true)) := by
    rw [was] at h
    simp only [System.emit,raisedAt_append,raisedAt,List.filterMap_append,List.filterMap_cons,
      Event.answer,List.filterMap_nil,now,List.append_nil,List.map_nil,List.map_cons] at h ⊢
    refine Trace.forall₂_replace_last h ?_
    rintro ⟨e,stopping⟩ hmem ⟨same,-⟩
    refine ⟨same,fun hstop => ?_⟩
    obtain rfl : stopping = true := hstop
    exact ht.flag.mpr (stop_of_raisedAt hmem)
  rcases step_cases hs with ⟨events,pc,hmove,rfl⟩ | ⟨callback,handler,rfl⟩ | rfl
  · generalize hpc : s.pc = old at hmove
    cases hmove with
    | receiveThrows | throws | replyThrows =>
      exact raising (by rw [hpc]; rfl) (fun _ => rfl) rfl rfl
    | stopping error flag =>
      have answered := answering (by rw [hpc]; rfl) (show LoopPc.atLoop.unchecked = [] from rfl)
      rwa [flag] at answered
    | catches error flag =>
      have answered := answering (by rw [hpc]; rfl)
        (show (LoopPc.atReadError error).unchecked = [] from rfl)
      rwa [flag] at answered
    | notSet | returns =>
      exact quiet (by rw [hpc]; rfl) (fun _ => rfl) rfl (afterHandler_hands _ _).unchecked
    | _ => exact quiet (by rw [hpc]; rfl) (fun _ => rfl) rfl rfl
  · simpa [System.register,raisedAt_append,raisedAt,List.filterMap_cons,Event.answer] using h
  · simpa [System.requestStop,raisedAt_append,raisedAt,List.filterMap_cons,Event.answer] using h

theorem lastDispatch_step (ht : Tracked initial s)
    (h : ∀ before after, s.trace = before ++ .stopRequested :: after →
      after.countP Event.isDispatch + s.pc.room ≤ 1) (hs : step s a = some s') :
    ∀ before after, s'.trace = before ++ .stopRequested :: after →
      after.countP Event.isDispatch + s'.pc.room ≤ 1 := by
  intro before after hsplit
  rcases step_cases hs with ⟨events,pc,hmove,rfl⟩ | ⟨callback,handler,rfl⟩ | rfl
  · obtain ⟨rest,hrest,rfl⟩ := Trace.append_eq_append_cons hsplit (move_quiet hmove).1
    have stopping : s.stopRequested = true := ht.flag.mpr (by simp [hrest])
    have room : events.countP Event.isDispatch + pc.room ≤ s.pc.room := by
      generalize s.pc = old at hmove
      cases hmove with
      | poll flag => simp [stopping] at flag
      | notSet incoming none | returns incoming handler response =>
        rw [(afterHandler_hands _ _).room]
        simp [Event.isDispatch,LoopPc.room]
      | _ => simp [Event.isDispatch,LoopPc.room]
    have before := h _ _ hrest
    simp only [System.emit,List.countP_append]
    omega
  · obtain ⟨rest,hrest,rfl⟩ := Trace.append_eq_append_cons hsplit (by simp)
    simpa [Event.isDispatch,System.register] using h _ _ hrest
  · rcases Trace.snoc_eq_append_cons hsplit with ⟨-,-,rfl⟩ | ⟨rest,hrest,rfl⟩
    · cases hpc : s.pc <;> simp [System.requestStop,hpc,LoopPc.room]
    · simpa [Event.isDispatch,System.requestStop] using h _ _ hrest

structure LoopInvariant (initial : Callback → Option Nat) (s : System) : Prop where
  tracked : Tracked initial s
  dispatched : Trace.Owed Event.dequeues Event.dispatches s.trace s.pc.undispatched
  handlerRead : Trace.Everywhere (HandlerRead initial) s.trace
  invoked : Trace.Owed Event.calls Event.invokes s.trace s.pc.uncalled
  replied : Trace.Owed Event.owes Event.replies s.trace s.pc.unreplied
  checked : Trace.Owed Event.raises Event.checks s.trace s.pc.unchecked
  caught : Trace.Owed Event.catches Event.reads s.trace s.pc.unread
  reported : Trace.Owed Event.reports Event.runsReport s.trace s.pc.unreported
  late : List.Forall₂ Spares (raisedAt false s.trace)
    (s.trace.filterMap Event.answer ++ s.pc.unchecked.map (·,true))
  lastDispatch : ∀ before after, s.trace = before ++ .stopRequested :: after →
    after.countP Event.isDispatch + s.pc.room ≤ 1

theorem loopInvariant_step (h : LoopInvariant initial s) (hs : step s a = some s') :
    LoopInvariant initial s' where
  tracked := tracked_step h.tracked hs
  dispatched := dispatched_step h.dispatched hs
  handlerRead := handlerRead_step h.tracked h.handlerRead hs
  invoked := invoked_step h.invoked hs
  replied := replied_step h.replied hs
  checked := checked_step h.checked hs
  caught := caught_step h.caught hs
  reported := reported_step h.reported hs
  late := late_step h.tracked h.late hs
  lastDispatch := lastDispatch_step h.tracked h.lastDispatch hs

theorem loopInvariant_started (hasTransport : Bool) :
    LoopInvariant initial (.started hasTransport initial) := by
  refine ⟨⟨by simp [System.started],rfl,by simp [System.started]⟩,rfl,Trace.everywhere_nil _,
    rfl,rfl,rfl,rfl,rfl,.nil,?_⟩
  intro before after h
  simp [System.started] at h

theorem requested_step {as : List Action}
    (h : s.trace.filterMap Event.request = as.filter (!·.ofWorker)) (hs : step s a = some s') :
    s'.trace.filterMap Event.request = (as ++ [a]).filter (!·.ofWorker) := by
  cases a with
  | worker received outcome =>
    obtain ⟨events,pc,hmove,rfl⟩ := worker_move hs
    have quiet : events.filterMap Event.request = [] := by
      generalize s.pc = old at hmove
      cases hmove <;> rfl
    simp [System.emit,quiet,h,Action.ofWorker]
  | register callback handler =>
    obtain rfl := Option.some.inj hs
    simp [System.register,Event.request,h,Action.ofWorker]
  | requestStop =>
    obtain rfl := Option.some.inj hs
    simp [System.requestStop,Event.request,h,Action.ofWorker]

theorem LoopInvariant.contained {as : List Action} (h : LoopInvariant initial s)
    (requested : s.trace.filterMap Event.request = as.filter (!·.ofWorker)) :
    Contained initial as s where
  requested := requested
  stays := fun notStopped hexit => notStopped (h.tracked.flag.mp (h.tracked.left hexit))
  dispatched := h.dispatched
  handlerRead := h.handlerRead
  invoked := h.invoked
  replied := h.replied
  checked := h.checked
  caught := h.caught
  reported := h.reported
  late := h.late
  lastDispatch := fun before after hsplit => by
    have := h.lastDispatch before after hsplit
    omega

theorem run_contained {as : List Action} {hasTransport : Bool}
    (h : Transition.run step (.started hasTransport initial) as = some s) :
    Contained initial as s := by
  obtain ⟨requested,hI⟩ := Transition.run_traced
    (J := fun as s => s.trace.filterMap Event.request = as.filter (!·.ofWorker) ∧
      LoopInvariant initial s)
    (fun as s a t hJ hs => ⟨requested_step hJ.1 hs,loopInvariant_step hJ.2 hs⟩)
    ⟨rfl,loopInvariant_started hasTransport⟩ h
  exact hI.contained requested

def onRequest : Callback → Option Nat
  | .request => some 7
  | .error => some 9
  | .broadcast => none

end DdsAbstract.Node.ReceiveLoop
