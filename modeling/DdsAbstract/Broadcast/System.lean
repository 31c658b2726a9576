import DdsAbstract.Node.Address
import DdsAbstract.Zenoh.Lifecycle
import DdsAbstract.ZeroMq.Node

namespace DdsAbstract.Broadcast

inductive PublishPc where
  | outside
  | atRunningCheck (data : DdsBytes)
  | atOpenCheck (data : DdsBytes)
  | atLock (data : DdsBytes)
  | atSend (data : DdsBytes)
  deriving DecidableEq, Repr

structure Server where
  transport : DdsTransportKind
  joinable : Bool
  isOpen : Bool
  hasPublisher : Bool
  publishMutex : Option Nat
  calls : Nat → PublishPc

inductive ServerAction where
  | opens
  | spawns
  | closes
  | joins
  deriving DecidableEq, Repr

namespace Server

def goto (s : Server) (n : Nat) (pc : PublishPc) : Server :=
  { s with calls := Function.update s.calls n pc }

def publishStep (s : Server) (n : Nat) (data : DdsBytes) : Option Server :=
  match s.calls n with
  | .outside => some (s.goto n (.atRunningCheck data))
  | .atRunningCheck data => some (s.goto n (if s.joinable then .atOpenCheck data else .outside))
  | .atOpenCheck data =>
    some (s.goto n
      (if !s.isOpen || !s.hasPublisher then .outside
      else match s.transport with
        | .zeroMq => .atLock data
        | .zenoh => .atSend data))
  | .atLock data =>
    if s.publishMutex = none then some { s.goto n (.atSend data) with publishMutex := some n }
    else none
  | .atSend _ =>
    match s.transport with
    | .zeroMq => some { s.goto n .outside with publishMutex := none }
    | .zenoh => some (s.goto n .outside)

-- `ok = false` is a `send` or a `put` that throws.
def published (s : Server) (n : Nat) (ok : Bool) : List DdsBytes :=
  match s.calls n with
  | .atSend data => if ok then [data] else []
  | _ => []

def lifeStep (s : Server) : ServerAction → Server
  | .opens => { s with isOpen := true, hasPublisher := true }
  | .spawns => { s with joinable := true }
  | .closes => { s with isOpen := false }
  | .joins => { s with joinable := false }

def initial (transport : DdsTransportKind) : Server :=
  ⟨transport,false,false,false,none,fun _ => .outside⟩

end Server

inductive Client where
  | zeroMq (node : ZeroMq.Node.System)
  | zenoh (node : Zenoh.Lifecycle.Node)

inductive ClientAction where
  | zeroMq (action : ZeroMq.Node.Action)
  | zenoh (action : Zenoh.Lifecycle.Action)
  deriving DecidableEq, Repr

structure Handled where
  payload : DdsBytes
  outcome : HandlerOutcome
  deriving DecidableEq, Repr

namespace Client

-- The backend calls `on_sample` for one sample after the other.
def settled (n : Zenoh.Lifecycle.Node) : Bool :=
  match n.system.arrived with
  | 0 => true
  | k + 1 => (n.system.callbacks k).pc = .left

def deliver (data : DdsBytes) : Client → Option Client
  | .zeroMq s => some (.zeroMq (s.arrive .broadcast data))
  | .zenoh n =>
    if settled n then some (.zenoh { n with system := n.system.arrive (some data) }) else none

def step : Client → ClientAction → Option Client
  | .zeroMq _, .zeroMq (.arrive .broadcast _) => none
  | .zeroMq s, .zeroMq a => (ZeroMq.Node.step s a).map .zeroMq
  | .zenoh _, .zenoh (.arrive _) => none
  | .zenoh n, .zenoh a => (Zenoh.Lifecycle.step n a).map .zenoh
  | _, _ => none

def handledNow : Client → ClientAction → List Handled
  | .zeroMq s, .zeroMq (.worker outcome) =>
    match s.worker with
    | .atDispatch message => [⟨message.data,outcome⟩]
    | _ => []
  | .zenoh n, .zenoh (.worker _ outcome) =>
    match n.system.worker with
    | .atDispatch incoming => [⟨incoming.message.payload,outcome⟩]
    | _ => []
  | _, _ => []

def acceptedNow : Client → ClientAction → List DdsBytes
  | .zenoh n, .zenoh (.callback k ok) =>
    if (n.system.callbacks k).pc = .atPush ∧ ok then [(n.system.messageOf k).payload] else []
  | _, _ => []

def initial (transport : DdsTransportKind) (hasRequest : Bool) : Client :=
  match transport with
  | .zeroMq => .zeroMq (.initial false true hasRequest)
  | .zenoh => .zenoh (.initial false)

end Client

-- `wire` is what the backend has not yet delivered to a client or dropped; the last three
-- fields are history.
structure System where
  server : Server
  clients : Nat → Client
  wire : Nat → List DdsBytes
  published : List DdsBytes
  accepted : Nat → List DdsBytes
  handled : Nat → List Handled

inductive Action where
  | server (action : ServerAction)
  | publish (n : Nat) (data : DdsBytes) (ok : Bool)
  | drop (c : Nat)
  | deliver (c : Nat)
  | client (c : Nat) (action : ClientAction)
  deriving DecidableEq, Repr

def step (s : System) : Action → Option System
  | .server action => some { s with server := s.server.lifeStep action }
  | .publish n data ok =>
    (s.server.publishStep n data).map (fun server =>
      { s with
        server := server
        wire := fun c => s.wire c ++ s.server.published n ok
        published := s.published ++ s.server.published n ok })
  | .drop c =>
    match s.wire c with
    | [] => none
    | _ :: rest => some { s with wire := Function.update s.wire c rest }
  | .deliver c =>
    match s.wire c with
    | [] => none
    | data :: rest =>
      ((s.clients c).deliver data).map (fun client =>
        { s with
          clients := Function.update s.clients c client
          wire := Function.update s.wire c rest })
  | .client c action =>
    ((s.clients c).step action).map (fun client =>
      { s with
        clients := Function.update s.clients c client
        accepted := Function.update s.accepted c (s.accepted c ++ (s.clients c).acceptedNow action)
        handled := Function.update s.handled c (s.handled c ++ (s.clients c).handledNow action) })

def initial (server : DdsTransportKind) (clients : Nat → DdsTransportKind)
    (hasRequest : Nat → Bool) : System where
  server := .initial server
  clients := fun c => .initial (clients c) (hasRequest c)
  wire := fun _ => []
  published := []
  accepted := fun _ => []
  handled := fun _ => []

end DdsAbstract.Broadcast
