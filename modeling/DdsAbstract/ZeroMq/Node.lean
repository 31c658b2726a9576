import Mathlib.Logic.Function.Basic
import DdsAbstract.Lib.Transition
import DdsAbstract.Transport.Message

namespace DdsAbstract.ZeroMq.Node

inductive Channel where
  | broadcast
  | request
  deriving DecidableEq, Repr

-- `period` is history: the number of the `Start` in whose time the socket got the message.
structure Accepted where
  data : DdsBytes
  period : Nat
  deriving DecidableEq, Repr

structure Dispatched where
  entry : Accepted
  period : Nat
  deriving DecidableEq, Repr

structure Transport where
  isOpen : Bool
  socket : Option Nat
  inbox : List Accepted
  deriving DecidableEq, Repr

inductive LifePc where
  | stopped
  | atOpen (channel : Channel)
  | atReset (channel : Channel)
  | atCreate (channel : Channel)
  | atBind (channel : Channel)
  | atUndo (channel : Channel)
  | atRollback (channel : Channel)
  | atSpawn
  | atReady
  | running
  | atFlag
  | atClose (channel : Channel)
  | atJoin
  deriving DecidableEq, Repr

inductive WorkerPc where
  | exited
  | atLoop
  | atOpenCheck
  | atPoll
  | atRecv
  | atDispatch (message : Accepted)
  | atReply
  | atSend
  deriving DecidableEq, Repr

-- `Publish` of a server, `Request` of a client.
inductive CallPc where
  | outside
  | atRunningCheck
  | atOpenCheck
  | atLock
  | atSend
  | inPoll
  | atRecv
  deriving DecidableEq, Repr

structure System where
  isServer : Bool
  transports : Channel → Option Transport
  joinable : Bool
  stopRequested : Bool
  life : LifePc
  worker : WorkerPc
  calls : Nat → CallPc
  mutex : Option Nat
  period : Nat
  sockets : Nat
  dispatched : List Dispatched

namespace System

def callChannel (s : System) : Channel := if s.isServer then .broadcast else .request

def workChannel (s : System) : Channel := if s.isServer then .request else .broadcast

def setTransport (s : System) (c : Channel) (t : Transport) : System :=
  { s with transports := Function.update s.transports c (some t) }

def setCall (s : System) (n : Nat) (pc : CallPc) : System :=
  { s with calls := Function.update s.calls n pc }

def leave (s : System) (n : Nat) : System := { s.setCall n .outside with mutex := none }

def usable (s : System) (c : Channel) : Bool :=
  (s.transports c).any (fun t => t.isOpen && t.socket.isSome)

def close (s : System) (c : Channel) : System :=
  match s.transports c with
  | none => s
  | some t => s.setTransport c { t with isOpen := false }

def afterOpen : Channel → LifePc
  | .broadcast => .atOpen .request
  | .request => .atSpawn

-- One step of `Start` or `Stop`; `ok` is what the external step it takes answers.
def lifeStep (s : System) (ok : Bool) : Option System :=
  match s.life with
  | .stopped => some { s with life := .atOpen .broadcast, period := s.period + 1 }
  | .atOpen c =>
    match s.transports c with
    | none => some { s with life := afterOpen c }
    | some t =>
      if t.isOpen then some { s with life := .atRollback .broadcast }
      else some { s.setTransport c { t with isOpen := true } with life := .atReset c }
  | .atReset c =>
    (s.transports c).map (fun t =>
      { s.setTransport c { t with socket := none, inbox := [] } with life := .atCreate c })
  | .atCreate c =>
    if ok then
      (s.transports c).map (fun t =>
        { s.setTransport c { t with socket := some s.sockets } with
          sockets := s.sockets + 1
          life := .atBind c })
    else some { s with life := .atUndo c }
  | .atBind c => some { s with life := if ok then afterOpen c else .atUndo c }
  | .atUndo c =>
    some { s.setTransport c ⟨false,none,[]⟩ with life := .atRollback .broadcast }
  | .atRollback .broadcast => some { s.close .broadcast with life := .atRollback .request }
  | .atRollback .request => some { s.close .request with life := .stopped }
  | .atSpawn =>
    if ok then some { s with stopRequested := false, joinable := true, life := .atReady }
    else some { s with stopRequested := false, life := .stopped }
  | .atReady =>
    if ok then some { s with worker := .atLoop, life := .running }
    else some { s with life := .atFlag }
  | .running => some { s with life := .atFlag }
  | .atFlag => some { s with stopRequested := true, life := .atClose .broadcast }
  | .atClose .broadcast => some { s.close .broadcast with life := .atClose .request }
  | .atClose .request => some { s.close .request with life := .atJoin }
  | .atJoin =>
    if s.worker = .exited then some { s with joinable := false, life := .stopped } else none

def takeMessage (s : System) (c : Channel) : Option (Accepted × System) :=
  match s.transports c with
  | none => none
  | some t =>
    match t.inbox with
    | [] => none
    | m :: rest => some (m,s.setTransport c { t with inbox := rest })

def hasMessage (s : System) (c : Channel) : Bool :=
  (s.transports c).any (fun t => !t.inbox.isEmpty)

def workerStep (s : System) (outcome : HandlerOutcome) : Option System :=
  match s.worker with
  | .exited => none
  | .atLoop =>
    if s.stopRequested then some { s with worker := .exited }
    else if (s.transports s.workChannel).isNone then some s
    else some { s with worker := .atOpenCheck }
  | .atOpenCheck =>
    some { s with
      worker := if s.usable s.workChannel && !s.stopRequested then .atPoll else .atLoop }
  | .atPoll =>
    some { s with worker := if s.hasMessage s.workChannel then .atRecv else .atLoop }
  | .atRecv =>
    (s.takeMessage s.workChannel).map (fun (m,t) => { t with worker := .atDispatch m })
  | .atDispatch m =>
    some { s with
      dispatched := s.dispatched ++ [⟨m,s.period⟩]
      worker := if s.isServer && outcome.response.isSome then .atReply else .atLoop }
  | .atReply => some { s with worker := if s.usable s.workChannel then .atSend else .atLoop }
  | .atSend => some { s with worker := .atLoop }

-- `ok = false` is a `send` that throws or a `poll` that times out.
def callStep (s : System) (n : Nat) (ok : Bool) : Option System :=
  match s.calls n with
  | .outside => some (s.setCall n .atRunningCheck)
  | .atRunningCheck =>
    some (s.setCall n
      (if s.joinable && (s.transports s.callChannel).isSome then .atOpenCheck else .outside))
  | .atOpenCheck => some (s.setCall n (if s.usable s.callChannel then .atLock else .outside))
  | .atLock =>
    if s.mutex = none then some { s.setCall n .atSend with mutex := some n } else none
  | .atSend => some (if s.isServer || !ok then s.leave n else s.setCall n .inPoll)
  | .inPoll =>
    if !ok then some (s.leave n)
    else if s.hasMessage s.callChannel then some (s.setCall n .atRecv)
    else none
  | .atRecv => (s.takeMessage s.callChannel).map (fun (_,t) => t.leave n)

-- A request comes as one message of one body frame: with both frames there from the start, the
-- two `recv` of a server are the one step `atRecv` and do not wait.
def arrive (s : System) (c : Channel) (data : DdsBytes) : System :=
  match s.transports c with
  | none => s
  | some t =>
    if t.socket.isSome then s.setTransport c { t with inbox := t.inbox ++ [⟨data,s.period⟩] }
    else s

def initial (isServer hasBroadcast hasRequest : Bool) : System where
  isServer := isServer
  transports := fun c =>
    match c with
    | .broadcast => if hasBroadcast then some ⟨false,none,[]⟩ else none
    | .request => if hasRequest then some ⟨false,none,[]⟩ else none
  joinable := false
  stopRequested := false
  life := .stopped
  worker := .exited
  calls := fun _ => .outside
  mutex := none
  period := 0
  sockets := 0
  dispatched := []

end System

inductive Action where
  | life (ok : Bool)
  | worker (outcome : HandlerOutcome)
  | call (n : Nat) (ok : Bool)
  | arrive (channel : Channel) (data : DdsBytes)
  deriving DecidableEq, Repr

def step (s : System) : Action → Option System
  | .life ok => s.lifeStep ok
  | .worker outcome => s.workerStep outcome
  | .call n ok => s.callStep n ok
  | .arrive channel data => some (s.arrive channel data)

end DdsAbstract.ZeroMq.Node
