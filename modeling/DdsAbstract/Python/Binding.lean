import Mathlib.Data.Finset.Basic
import Mathlib.Logic.Function.Basic
import DdsAbstract.Lib.Transition

namespace DdsAbstract.Python

inductive Thread where
  | python (n : Nat)
  | worker
  deriving DecidableEq, Repr

-- `message` is `on_request` of a `Server` and `on_broadcast` of a `Client`.
inductive Callback where
  | message
  | error
  deriving DecidableEq, Repr

inductive Stopper where
  | method
  | failedStart
  | destructor
  deriving DecidableEq, Repr

inductive Operation where
  | register (callback : Callback)
  | start
  | stop
  | publish
  | request
  | destroy
  deriving DecidableEq, Repr

inductive CallPc where
  | outside
  | atCallbackLock (callback : Callback)
  | atCallbackStore (callback : Callback)
  | atEnsureNotRunning
  | atOpen
  | atSpawn
  | atReady
  | atPublish
  | atRequest
  | atCheck (stopper : Stopper)
  | atFlag (stopper : Stopper)
  | atClose (stopper : Stopper)
  | atJoin (stopper : Stopper)
  | atReacquire
  deriving DecidableEq, Repr

inductive WorkerPc where
  | exited
  | atConfigure
  | atLoop
  | atReceive
  | atLock (callback : Callback)
  | atCopy (callback : Callback)
  | atGil (callback : Callback)
  | inCallback (callback : Callback)
  | atReply
  | atCatch
  deriving DecidableEq, Repr

inductive Received where
  | nothing
  | message
  | raised
  deriving DecidableEq, Repr

-- `hasTransport` is about the transport that `ReceiveLoop` polls, `references` are the calls in
-- flight that keep the object alive.
structure System where
  isServer : Bool
  hasTransport : Bool
  gil : Option Thread
  callbackMutex : Option Thread
  registered : Callback → Bool
  joinable : Bool
  stopRequested : Bool
  ready : Option Bool
  worker : WorkerPc
  calls : Thread → CallPc
  references : Finset Thread
  destroyed : Bool
  terminated : Bool

namespace System

@[simp] def goto (s : System) (t : Thread) (pc : CallPc) : System :=
  { s with calls := Function.update s.calls t pc }

@[simp] def finish (s : System) (t : Thread) : System :=
  { s.goto t .outside with references := s.references.erase t }

def inPython (s : System) (t : Thread) : Bool :=
  s.calls t = .outside &&
    match t with
    | .python _ => true
    | .worker =>
      match s.worker with
      | .inCallback _ => true
      | _ => false

def takeGil (s : System) (t : Thread) : Option System :=
  if s.inPython t ∧ s.gil = none then some { s with gil := some t } else none

def dropGil (s : System) (t : Thread) : Option System :=
  if s.inPython t ∧ s.gil = some t then some { s with gil := none } else none

-- `Stop` of the class and the wait of `request` run under `gil_scoped_release`.
def enter (s : System) (t : Thread) : Operation → Option System
  | .register callback => some (s.goto t (.atCallbackLock callback))
  | .start => some (s.goto t .atEnsureNotRunning)
  | .stop => some { s.goto t (.atCheck .method) with gil := none }
  | .publish => if s.isServer then some (s.goto t .atPublish) else none
  | .request => if s.isServer then none else some { s.goto t .atRequest with gil := none }
  | .destroy =>
    if s.references = ∅ then some { s.goto t (.atCheck .destructor) with destroyed := true }
    else none

def invoke (s : System) (t : Thread) (op : Operation) : Option System :=
  if s.inPython t ∧ s.gil = some t ∧ !s.destroyed then
    (s.enter t op).map (fun u =>
      { u with references := if op = .destroy then u.references else insert t u.references })
  else none

@[simp] def endStop (s : System) (t : Thread) : Stopper → System
  | .method => s.goto t .atReacquire
  | .failedStart | .destructor => s.finish t

def callStep (s : System) (t : Thread) (ok : Bool) : Option System :=
  match s.calls t with
  | .outside => none
  | .atCallbackLock callback =>
    if s.callbackMutex = none then
      some { s.goto t (.atCallbackStore callback) with callbackMutex := some t }
    else none
  | .atCallbackStore callback =>
    some ({ s with
      registered := Function.update s.registered callback true
      callbackMutex := none }.finish t)
  | .atEnsureNotRunning => some (if s.joinable then s.finish t else s.goto t .atOpen)
  | .atOpen => some (if ok then s.goto t .atSpawn else s.finish t)
  | .atSpawn =>
    if ok then
      some ({ s with
        stopRequested := false
        joinable := true
        ready := none
        worker := .atConfigure }.goto t .atReady)
    else some ({ s with stopRequested := false }.finish t)
  | .atReady =>
    match s.ready with
    | none => none
    | some true => some (s.finish t)
    | some false => some (s.goto t (.atCheck .failedStart))
  | .atPublish => some (s.finish t)
  | .atRequest => some (s.goto t .atReacquire)
  | .atCheck stopper => some (if s.joinable then s.goto t (.atFlag stopper) else s.endStop t stopper)
  | .atFlag stopper => some ({ s with stopRequested := true }.goto t (.atClose stopper))
  | .atClose stopper => some (s.goto t (.atJoin stopper))
  | .atJoin stopper =>
    if t = .worker || !s.joinable then some { s with terminated := true }
    else if s.worker = .exited then some ({ s with joinable := false }.endStop t stopper)
    else none
  | .atReacquire => if s.gil = none then some ({ s with gil := some t }.finish t) else none

def afterCallback (s : System) (callback : Callback) (ok : Bool) : WorkerPc :=
  match callback with
  | .error => .atLoop
  | .message => if ok then if s.isServer then .atReply else .atLoop else .atCatch

def workerStep (s : System) (received : Received) (ok : Bool) : Option System :=
  match s.worker with
  | .exited => none
  | .atConfigure =>
    some { s with ready := some ok, worker := if ok then .atLoop else .exited }
  | .atLoop =>
    some { s with
      worker := if s.stopRequested then .exited else if s.hasTransport then .atReceive else .atLoop }
  | .atReceive =>
    some { s with
      worker :=
        match received with
        | .nothing => .atLoop
        | .message => .atLock .message
        | .raised => .atCatch }
  | .atLock callback =>
    if s.callbackMutex = none then
      some { s with callbackMutex := some .worker, worker := .atCopy callback }
    else none
  | .atCopy callback =>
    some { s with
      callbackMutex := none
      worker := if s.registered callback then .atGil callback else s.afterCallback callback true }
  | .atGil callback =>
    if s.gil = none then some { s with gil := some .worker, worker := .inCallback callback }
    else none
  | .inCallback callback =>
    if s.calls .worker = .outside ∧ s.gil = some .worker then
      some { s with gil := none, worker := s.afterCallback callback ok }
    else none
  | .atReply => some { s with worker := if ok then .atLoop else .atCatch }
  | .atCatch => some { s with worker := if s.stopRequested then .atLoop else .atLock .error }

def initial (isServer hasTransport : Bool) : System where
  isServer := isServer
  hasTransport := hasTransport
  gil := none
  callbackMutex := none
  registered := fun _ => false
  joinable := false
  stopRequested := false
  ready := none
  worker := .exited
  calls := fun _ => .outside
  references := ∅
  destroyed := false
  terminated := false

end System

inductive Action where
  | takeGil (t : Thread)
  | dropGil (t : Thread)
  | invoke (t : Thread) (op : Operation)
  | call (t : Thread) (ok : Bool)
  | worker (received : Received) (ok : Bool)
  deriving DecidableEq, Repr

def step (s : System) (a : Action) : Option System :=
  if s.terminated then none
  else
    match a with
    | .takeGil t => s.takeGil t
    | .dropGil t => s.dropGil t
    | .invoke t op => s.invoke t op
    | .call t ok => s.callStep t ok
    | .worker received ok => s.workerStep received ok

def waitsForWorker (s : System) (t : Thread) : Bool :=
  match s.calls t with
  | .atJoin _ => t ≠ .worker && s.joinable && s.worker ≠ .exited
  | .atCallbackLock _ => s.callbackMutex = some .worker
  | .atReady => s.ready = none
  | _ => false

def workerWaitsForGil (s : System) : Bool :=
  s.gil ≠ some .worker &&
    match s.worker with
    | .atGil _ => true
    | .inCallback _ =>
      match s.calls .worker with
      | .outside | .atReacquire => true
      | _ => false
    | _ => false

def Deadlock (s : System) : Prop :=
  ∃ t, s.gil = some t ∧ waitsForWorker s t = true ∧ workerWaitsForGil s = true

end DdsAbstract.Python
