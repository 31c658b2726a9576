import Mathlib.Logic.Function.Basic
import DdsAbstract.Lib.Transition
import DdsAbstract.Transport.Message

namespace DdsAbstract.Node.ReceiveLoop

inductive Callback where
  | broadcast
  | request
  | error
  deriving DecidableEq, Repr

inductive Received where
  | nothing
  | message (incoming : DdsIncomingMessage)
  | throws (error : Nat)
  deriving DecidableEq, Repr

-- How a call of a handler or of `Reply` ends; only a request handler's response is read.
inductive Outcome where
  | returns (response : DdsBytes)
  | throws (error : Nat)
  deriving DecidableEq, Repr

inductive Event where
  | registered (callback : Callback) (handler : Option Nat)
  | stopRequested
  | dequeued (incoming : DdsIncomingMessage)
  | dispatched (incoming : DdsIncomingMessage) (handler : Option Nat)
  | invoked (incoming : DdsIncomingMessage) (handler : Nat) (outcome : Outcome)
  | replied (incoming : DdsIncomingMessage) (response : DdsBytes)
  | raised (error : Nat)
  | checked (error : Nat) (stopping : Bool)
  | errorRead (error : Nat) (handler : Option Nat)
  | reported (error : Nat) (handler : Nat)
  deriving DecidableEq, Repr

inductive LoopPc where
  | atLoop
  | atReceive
  | atReadHandler (incoming : DdsIncomingMessage)
  | atInvoke (incoming : DdsIncomingMessage) (handler : Nat)
  | atReply (incoming : DdsIncomingMessage) (response : DdsBytes)
  | atCatch (error : Nat)
  | atReadError (error : Nat)
  | atReport (error : Nat) (handler : Nat)
  | exited
  deriving DecidableEq, Repr

-- `trace` is history.
structure System where
  hasTransport : Bool
  stopRequested : Bool
  handlers : Callback → Option Nat
  pc : LoopPc
  trace : List Event

def handlerOf : Kind → Callback
  | .broadcast => .broadcast
  | .request => .request

def LoopPc.afterHandler (incoming : DdsIncomingMessage) (response : DdsBytes) : LoopPc :=
  match incoming.kind with
  | .broadcast => .atLoop
  | .request => .atReply incoming response

namespace System

def emit (s : System) (events : List Event) (pc : LoopPc) : System :=
  { s with pc := pc, trace := s.trace ++ events }

-- `received` is what `TryReceive` does, `outcome` what a handler or `Reply` does.
def workerStep (s : System) (received : Received) (outcome : Outcome) : Option System :=
  match s.pc with
  | .exited => none
  | .atLoop => some (s.emit [] (if s.stopRequested then .exited else .atReceive))
  | .atReceive =>
    if s.hasTransport then
      some (match received with
        | .nothing => s.emit [] .atLoop
        | .message incoming => s.emit [.dequeued incoming] (.atReadHandler incoming)
        | .throws error => s.emit [.raised error] (.atCatch error))
    else some (s.emit [] .atLoop)
  | .atReadHandler incoming =>
    let handler := s.handlers (handlerOf incoming.kind)
    some (s.emit [.dispatched incoming handler]
      (match handler with
      | some handler => .atInvoke incoming handler
      | none => .afterHandler incoming []))
  | .atInvoke incoming handler =>
    some (match outcome with
      | .returns response =>
        s.emit [.invoked incoming handler outcome] (.afterHandler incoming response)
      | .throws error => s.emit [.invoked incoming handler outcome,.raised error] (.atCatch error))
  | .atReply incoming response =>
    some (match outcome with
      | .returns _ => s.emit [.replied incoming response] .atLoop
      | .throws error => s.emit [.replied incoming response,.raised error] (.atCatch error))
  | .atCatch error =>
    some (s.emit [.checked error s.stopRequested]
      (if s.stopRequested then .atLoop else .atReadError error))
  | .atReadError error =>
    let handler := s.handlers .error
    some (s.emit [.errorRead error handler]
      (match handler with
      | some handler => .atReport error handler
      | none => .atLoop))
  | .atReport error handler => some (s.emit [.reported error handler] .atLoop)

def register (s : System) (callback : Callback) (handler : Option Nat) : System :=
  { s with
    handlers := Function.update s.handlers callback handler
    trace := s.trace ++ [.registered callback handler] }

def requestStop (s : System) : System :=
  { s with stopRequested := true, trace := s.trace ++ [.stopRequested] }

def started (hasTransport : Bool) (handlers : Callback → Option Nat) : System :=
  ⟨hasTransport,false,handlers,.atLoop,[]⟩

end System

inductive Action where
  | worker (received : Received) (outcome : Outcome)
  | register (callback : Callback) (handler : Option Nat)
  | requestStop
  deriving DecidableEq, Repr

def step (s : System) : Action → Option System
  | .worker received outcome => s.workerStep received outcome
  | .register callback handler => some (s.register callback handler)
  | .requestStop => some s.requestStop

end DdsAbstract.Node.ReceiveLoop
