import Mathlib.Logic.Function.Basic
import DdsAbstract.Lib.Transition
import DdsAbstract.Zenoh.ClientReply

namespace DdsAbstract.Zenoh.Client

inductive RequestError where
  | logic (what : StdString)
  | runtime (what : StdString)
  | zenoh
  deriving DecidableEq, Repr

inductive RequestPc where
  | idle
  | atGet
  | atLock
  | atCheck (timedOut : Bool)
  | inWait
  | atError
  | atValue
  | ended (outcome : Except RequestError DdsBytes)
  deriving Repr

def RequestPc.holdsMutex : RequestPc → Bool
  | .atCheck _ | .atError | .atValue => true
  | _ => false

-- One call of `Request`; `queried` once its callbacks have been handed to `get`.
structure RequestCall where
  pc : RequestPc
  state : ClientReply
  queried : Bool
  deriving Repr

structure System where
  isServer : Bool
  isOpen : Bool
  requestKey : StdString
  calls : Nat → RequestCall

namespace RequestCall

def initial : RequestCall := ⟨.idle,.initial,false⟩

-- `timedOut` is what the wait reports when it ends: a wake-up, spurious or not, or the deadline.
def step (c : RequestCall) (requester ok timedOut : Bool) : Option RequestCall :=
  match c.pc with
  | .idle =>
    if requester then some ⟨.atGet,.initial,true⟩
    else some { c with pc := .ended (.error (.logic "Zenoh requester is not open".toList)) }
  | .atGet => some { c with pc := if ok then .atLock else .ended (.error .zenoh) }
  | .atLock => some { c with pc := .atCheck false }
  | .atCheck late =>
    if c.state.done then some { c with pc := .atError }
    else if late then
      some { c with pc := .ended (.error (.runtime "Zenoh request timed out".toList)) }
    else some { c with pc := .inWait }
  | .inWait => some { c with pc := .atCheck timedOut }
  | .atError =>
    if c.state.error ≠ [] then
      some { c with
        pc := .ended (.error (.runtime ("Zenoh reply error: ".toList ++ c.state.error))) }
    else some { c with pc := .atValue }
  | .atValue =>
    match c.state.value with
    | none =>
      some { c with
        pc := .ended (.error (.runtime "Zenoh query completed without a reply".toList)) }
    | some value =>
      -- The response is moved out of the shared state.
      some { c with pc := .ended (.ok value), state := { c.state with value := some [] } }
  | .ended _ => none

def receive (c : RequestCall) (event : ReplyEvent) : Option RequestCall :=
  if c.queried && !c.pc.holdsMutex then some { c with state := c.state.receive event } else none

end RequestCall

inductive Action where
  | request (r : Nat) (ok timedOut : Bool)
  | callback (r : Nat) (event : ReplyEvent)
  | configure (isServer isOpen : Bool) (requestKey : StdString)
  deriving DecidableEq, Repr

namespace System

def requester (s : System) : Bool := !s.isServer && s.isOpen && !s.requestKey.isEmpty

def setCall (s : System) (r : Nat) (c : RequestCall) : System :=
  { s with calls := Function.update s.calls r c }

def initial : System := ⟨false,false,[],fun _ => .initial⟩

end System

-- `configure` is any change that `Open` and `Close` make to what `Request` checks.
def step (s : System) : Action → Option System
  | .request r ok timedOut => ((s.calls r).step s.requester ok timedOut).map (s.setCall r)
  | .callback r event => ((s.calls r).receive event).map (s.setCall r)
  | .configure isServer isOpen requestKey =>
    some { s with isServer := isServer, isOpen := isOpen, requestKey := requestKey }

end DdsAbstract.Zenoh.Client
