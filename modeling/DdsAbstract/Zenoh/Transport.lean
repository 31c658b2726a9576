import Mathlib.Algebra.Group.Nat.Defs
import Mathlib.Data.List.AList
import DdsAbstract.Transport.Message

namespace DdsAbstract.Zenoh

inductive Lock where
  | queueMutex
  | pendingMutex
  | stateMutex (reply : Nat)
  deriving DecidableEq, Repr

inductive Thread where
  | callback (k : Nat)
  | worker
  | closer (c : Nat)
  deriving DecidableEq, Repr

structure ServerReply where
  value : Option DdsBytes
  cancelled : Bool
  deriving DecidableEq, Repr

-- `callback` and `epoch` are history: the callback that enqueued the message and the
-- number of the `Open` in whose period it did so.
structure Queued where
  message : DdsIncomingMessage
  callback : Nat
  epoch : Nat
  deriving DecidableEq, Repr

structure Dispatched where
  entry : Queued
  outcome : HandlerOutcome
  epoch : Nat
  deriving DecidableEq, Repr

structure DdsZenohTransport where
  isOpen : Bool
  isServer : Bool
  queue : List Queued
  pending : AList (fun _ : StdString => Nat)
  nextId : Nat

-- Where an `on_query` or `on_sample` callback stands; an `on_sample` starts at `atPayload`.
inductive CallbackPc where
  | absent
  | atPendingLock
  | atOpenCheck
  | atInsert
  | atPayload
  | atQueueLock
  | atEnqueueCheck
  | atPush
  | atStateLock
  | atPredicate
  | inWait
  | atRelock
  | atReply
  | atEraseLock
  | atErase
  | atUnlock
  | left
  deriving DecidableEq, Repr

structure Callback where
  pc : CallbackPc
  id : StdString
  payload : Option DdsBytes
  state : ServerReply
  enqueued : Bool
  replies : List DdsBytes
  deriving DecidableEq, Repr

-- `ReceiveLoop` with `TryReceive`, `Dispatch`, `Report` and `Reply` inlined.
inductive WorkerPc where
  | exited
  | atLoop
  | atQueueLock
  | atPredicate
  | inWait
  | atRelock (timedOut : Bool)
  | atFront
  | atDispatch (incoming : Queued)
  | atReport
  | atPendingLock (incoming : Queued) (payload : DdsBytes)
  | atFind (incoming : Queued) (payload : DdsBytes)
  | atStateLock (incoming : Queued) (found : Nat) (payload : DdsBytes)
  | atStore (incoming : Queued) (found : Nat) (payload : DdsBytes)
  deriving DecidableEq, Repr

inductive CloserPc where
  | idle
  | atQueueLock
  | atNotify
  | atPendingLock
  | cancelling (todo : List Nat)
  | atStateLock (state : Nat) (todo : List Nat)
  | atCancel (state : Nat) (todo : List Nat)
  deriving DecidableEq, Repr

structure System extends DdsZenohTransport where
  locks : Lock → Option Thread
  stopRequested : Bool
  callbacks : Nat → Callback
  arrived : Nat
  worker : WorkerPc
  closers : Nat → CloserPc
  openers : Nat → Bool
  opens : Nat
  dispatched : List Dispatched

namespace System

def acquire (s : System) (l : Lock) (t : Thread) : Option System :=
  if s.locks l = none then some { s with locks := Function.update s.locks l (some t) } else none

def release (s : System) (l : Lock) : System :=
  { s with locks := Function.update s.locks l none }

def setCallback (s : System) (k : Nat) (c : Callback) : System :=
  { s with callbacks := Function.update s.callbacks k c }

def goto (s : System) (k : Nat) (pc : CallbackPc) : System :=
  s.setCallback k { s.callbacks k with pc := pc }

def setCloser (s : System) (c : Nat) (pc : CloserPc) : System :=
  { s with closers := Function.update s.closers c pc }

def messageOf (s : System) (k : Nat) : DdsIncomingMessage where
  kind := if s.isServer then .request else .broadcast
  payload := (s.callbacks k).payload.getD []
  correlationId := (s.callbacks k).id

def pushBack (s : System) (k : Nat) : System :=
  { s with queue := s.queue ++ [⟨s.messageOf k,k,s.opens⟩] }

def afterEnqueue (s : System) : CallbackPc := if s.isServer then .atStateLock else .left

def arrive (s : System) (payload : Option DdsBytes) : System :=
  let k := s.arrived
  if s.isServer then
    let id := (s.nextId + 1) % 2 ^ 64
    { s with
      arrived := k + 1
      nextId := id
      callbacks := Function.update s.callbacks k
        ⟨.atPendingLock, Nat.toDigits 10 id, payload, ⟨none, false⟩, false, []⟩ }
  else
    { s with
      arrived := k + 1
      callbacks := Function.update s.callbacks k
        ⟨.atPayload, [], payload, ⟨none, false⟩, false, []⟩ }

-- `ok = false` makes the step throw where the source calls code that may.
def callbackStep (s : System) (k : Nat) (ok : Bool) : Option System :=
  let self := s.callbacks k
  match self.pc with
  | .absent => none
  | .atPendingLock => (s.acquire .pendingMutex (.callback k)).map (·.goto k .atOpenCheck)
  | .atOpenCheck =>
    if s.isOpen then some (s.goto k .atInsert)
    else some ((s.release .pendingMutex).goto k .left)
  | .atInsert =>
    some (({ s with pending := s.pending.insert self.id k }.release .pendingMutex).goto k .atPayload)
  | .atPayload => some (s.goto k (if ok then .atQueueLock else .left))
  | .atQueueLock => (s.acquire .queueMutex (.callback k)).map (·.goto k .atEnqueueCheck)
  | .atEnqueueCheck =>
    if s.isOpen then some (s.goto k .atPush)
    else some ((s.release .queueMutex).goto k s.afterEnqueue)
  | .atPush =>
    if ok then
      some (((s.pushBack k).release .queueMutex).setCallback k
        { self with pc := s.afterEnqueue, enqueued := true })
    else some ((s.release .queueMutex).goto k .left)
  | .atStateLock => (s.acquire (.stateMutex k) (.callback k)).map (·.goto k .atPredicate)
  | .atPredicate =>
    if self.state.value.isSome || self.state.cancelled then some (s.goto k .atReply)
    else some ((s.release (.stateMutex k)).goto k .inWait)
  | .inWait => some (s.goto k .atRelock)
  | .atRelock => (s.acquire (.stateMutex k) (.callback k)).map (·.goto k .atPredicate)
  | .atReply =>
    match self.state.value with
    | none => some (s.goto k .atEraseLock)
    | some value =>
      if ok then
        some (s.setCallback k { self with pc := .atEraseLock, replies := value :: self.replies })
      else some ((s.release (.stateMutex k)).goto k .left)
  | .atEraseLock => (s.acquire .pendingMutex (.callback k)).map (·.goto k .atErase)
  | .atErase =>
    some (({ s with pending := s.pending.erase self.id }.release .pendingMutex).goto k .atUnlock)
  | .atUnlock => some ((s.release (.stateMutex k)).goto k .left)
  | .left => none

def workerStep (s : System) (timedOut : Bool) (outcome : HandlerOutcome) : Option System :=
  match s.worker with
  | .exited => none
  | .atLoop => some { s with worker := if s.stopRequested then .exited else .atQueueLock }
  | .atQueueLock => (s.acquire .queueMutex .worker).map ({ · with worker := .atPredicate })
  | .atPredicate =>
    if s.stopRequested || !s.queue.isEmpty || !s.isOpen then some { s with worker := .atFront }
    else some { s.release .queueMutex with worker := .inWait }
  | .inWait => some { s with worker := .atRelock timedOut }
  | .atRelock timedOut =>
    (s.acquire .queueMutex .worker).map
      ({ · with worker := if timedOut then .atFront else .atPredicate })
  | .atFront =>
    match s.queue with
    | [] => some { s.release .queueMutex with worker := .atLoop }
    | incoming :: rest =>
      some { s.release .queueMutex with queue := rest, worker := .atDispatch incoming }
  | .atDispatch incoming =>
    some { s with
      dispatched := s.dispatched ++ [⟨incoming,outcome,s.opens⟩]
      worker :=
        match outcome.response with
        | none => .atReport
        | some response =>
          match incoming.message.kind with
          | .broadcast => .atLoop
          | .request => .atPendingLock incoming response }
  | .atReport => some { s with worker := .atLoop }
  | .atPendingLock incoming payload =>
    (s.acquire .pendingMutex .worker).map ({ · with worker := .atFind incoming payload })
  | .atFind incoming payload =>
    match s.pending.lookup incoming.message.correlationId with
    | none => some { s.release .pendingMutex with worker := .atLoop }
    | some state =>
      some { s.release .pendingMutex with worker := .atStateLock incoming state payload }
  | .atStateLock incoming state payload =>
    (s.acquire (.stateMutex state) .worker).map
      ({ · with worker := .atStore incoming state payload })
  | .atStore _ state payload =>
    some { (s.release (.stateMutex state)).setCallback state
        { s.callbacks state with
          state := ⟨some payload,(s.callbacks state).state.cancelled⟩ } with
      worker := .atLoop }

-- `pick` is the entry of `pending_` that the unordered iteration visits next.
def closeStep (s : System) (c : Nat) (pick : Nat) : Option System :=
  match s.closers c with
  | .idle => if s.isOpen then some ({ s with isOpen := false }.setCloser c .atQueueLock) else some s
  | .atQueueLock => (s.acquire .queueMutex (.closer c)).map (·.setCloser c .atNotify)
  | .atNotify => some ((s.release .queueMutex).setCloser c .atPendingLock)
  | .atPendingLock =>
    (s.acquire .pendingMutex (.closer c)).map
      (·.setCloser c (.cancelling (s.pending.entries.map (·.2))))
  | .cancelling [] => some ((s.release .pendingMutex).setCloser c .idle)
  | .cancelling todo =>
    (todo[pick]?).map (fun state => s.setCloser c (.atStateLock state (todo.eraseIdx pick)))
  | .atStateLock state todo =>
    (s.acquire (.stateMutex state) (.closer c)).map (·.setCloser c (.atCancel state todo))
  | .atCancel state todo =>
    some (((s.release (.stateMutex state)).setCallback state
      { s.callbacks state with
        state := ⟨(s.callbacks state).state.value,true⟩ }).setCloser c (.cancelling todo))

-- `Open` from its `exchange` to its return; `ok = false` is its `catch` branch.
def openStep (s : System) (o : Nat) (ok : Bool) : System :=
  if s.openers o then
    { s with
      isOpen := s.isOpen && ok
      openers := Function.update s.openers o false }
  else if s.isOpen then s
  else
    { s with
      isOpen := true
      opens := s.opens + 1
      openers := Function.update s.openers o true }

def startWorker (s : System) : Option System :=
  if s.worker = .exited then some { s with worker := .atLoop } else none

def initial (isServer : Bool) : System where
  isOpen := false
  isServer := isServer
  queue := []
  pending := ∅
  nextId := 0
  locks := fun _ => none
  stopRequested := false
  callbacks := fun _ => ⟨.absent,[],none,⟨none,false⟩,false,[]⟩
  arrived := 0
  worker := .exited
  closers := fun _ => .idle
  openers := fun _ => false
  opens := 0
  dispatched := []

end System

inductive Action where
  | arrive (payload : Option DdsBytes)
  | callback (k : Nat) (ok : Bool)
  | worker (timedOut : Bool) (outcome : HandlerOutcome)
  | close (c : Nat) (pick : Nat)
  | openTransport (o : Nat) (ok : Bool)
  | requestStop
  | clearStop
  | startWorker
  deriving DecidableEq, Repr

def step (s : System) : Action → Option System
  | .arrive payload => some (s.arrive payload)
  | .callback k ok => s.callbackStep k ok
  | .worker timedOut outcome => s.workerStep timedOut outcome
  | .close c pick => s.closeStep c pick
  | .openTransport o ok => some (s.openStep o ok)
  | .requestStop => some { s with stopRequested := true }
  | .clearStop => some { s with stopRequested := false }
  | .startWorker => s.startWorker

def bringUp : List Action :=
  [.openTransport 0 true,.openTransport 0 true,.clearStop,.startWorker,.worker false .notSet]

def callbackSteps (k n : Nat) : List Action := List.replicate n (.callback k true)

def workerSteps (n : Nat) (outcome : HandlerOutcome) : List Action :=
  List.replicate n (.worker false outcome)

end DdsAbstract.Zenoh
