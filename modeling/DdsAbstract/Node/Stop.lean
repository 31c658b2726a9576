import Mathlib.Logic.Function.Basic
import DdsAbstract.Lib.Transition
import DdsAbstract.Transport.Message

namespace DdsAbstract.Node.Stop

inductive Thread where
  | app (n : Nat)
  | worker
  deriving DecidableEq, Repr

inductive StopPc where
  | outside
  | atCheck
  | atFlag
  | atClose
  | atJoin
  deriving DecidableEq, Repr

inductive Handler where
  | broadcast
  | request
  | error
  deriving DecidableEq, Repr

inductive WorkerPc where
  | atLoop
  | atReceive
  | inHandler (handler : Handler)
  | atReply
  | atReport
  | exited
  deriving DecidableEq, Repr

inductive Received where
  | nothing
  | message (kind : Kind)
  | raised
  deriving DecidableEq, Repr

-- `joinedBy` is history: the threads whose `join` has returned.
structure System where
  joinable : Bool
  stopRequested : Bool
  isOpen : Bool
  worker : WorkerPc
  stops : Thread → StopPc
  joinedBy : List Thread
  terminated : Bool

namespace System

def setStop (s : System) (t : Thread) (pc : StopPc) : System :=
  { s with stops := Function.update s.stops t pc }

def mayCallStop (s : System) : Thread → Bool
  | .app _ => true
  | .worker =>
    match s.worker with
    | .inHandler _ => true
    | _ => false

def stopStep (s : System) (t : Thread) : Option System :=
  match s.stops t with
  | .outside => if s.mayCallStop t then some (s.setStop t .atCheck) else none
  | .atCheck => some (s.setStop t (if s.joinable then .atFlag else .outside))
  | .atFlag => some ({ s with stopRequested := true }.setStop t .atClose)
  | .atClose => some ({ s with isOpen := false }.setStop t .atJoin)
  | .atJoin =>
    if t = .worker || !s.joinable then some { s with terminated := true }
    else if s.worker = .exited then
      some ({ s with joinable := false, joinedBy := s.joinedBy ++ [t] }.setStop t .outside)
    else none

def nextWorker (s : System) (received : Received) (ok : Bool) : WorkerPc → Option WorkerPc
  | .atLoop => some (if s.stopRequested then .exited else .atReceive)
  | .atReceive =>
    match received with
    | .nothing => some .atLoop
    | .message .broadcast => some (.inHandler .broadcast)
    | .message .request => some (.inHandler .request)
    | .raised => some .atReport
  | .inHandler .broadcast => some (if ok then .atLoop else .atReport)
  | .inHandler .request => some (if ok then .atReply else .atReport)
  | .inHandler .error => some .atLoop
  | .atReply => some (if ok then .atLoop else .atReport)
  | .atReport => some (if s.stopRequested || !ok then .atLoop else .inHandler .error)
  | .exited => none

def workerStep (s : System) (received : Received) (ok : Bool) : Option System :=
  if s.stops .worker = .outside then
    (s.nextWorker received ok s.worker).map (fun pc => { s with worker := pc })
  else none

def started : System where
  joinable := true
  stopRequested := false
  isOpen := true
  worker := .atLoop
  stops := fun _ => .outside
  joinedBy := []
  terminated := false

end System

inductive Action where
  | stop (t : Thread)
  | worker (received : Received) (ok : Bool)
  deriving DecidableEq, Repr

def step (s : System) (a : Action) : Option System :=
  if s.terminated then none
  else
    match a with
    | .stop t => s.stopStep t
    | .worker received ok => s.workerStep received ok

end DdsAbstract.Node.Stop
