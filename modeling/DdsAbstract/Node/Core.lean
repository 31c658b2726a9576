import DdsAbstract.Node.Transport

namespace DdsAbstract.Node

inductive EndpointRole where
  | server
  | client
  deriving DecidableEq, Repr

inductive ChannelKind where
  | broadcast
  | request
  deriving DecidableEq, Repr

-- `broadcast_address_` with `broadcast_transport_`, or the request pair.
structure Channel where
  address : DdsNodeAddress
  transport : DdsTransport
  deriving DecidableEq, Repr

structure Handlers where
  broadcast : Option Nat
  request : Option Nat
  error : Option Nat
  deriving DecidableEq, Repr

structure DdsNodeCore where
  role : EndpointRole
  workerConfig : DdsThreadConfig
  broadcast : Option Channel
  request : Option Channel
  handlers : Handlers
  joinable : Bool
  stopRequested : Bool
  deriving DecidableEq, Repr

structure StartEnv where
  broadcastLibrary : Library
  requestLibrary : Library
  createsThread : Bool
  os : ThreadApi

namespace Channel

def make (build : DdsTransport.Build) (address : StdString) : Except DdsError (Option Channel) :=
  if address.isEmpty then .ok none
  else do
    let parsed ← DdsNodeAddress.parse address
    let transport ← DdsTransport.make build parsed.transport
    return some ⟨parsed,transport⟩

def broadcastAddress (ch : Channel) : ChannelKind → Option DdsNodeAddress
  | .broadcast => some ch.address
  | .request => none

def requestAddress (ch : Channel) : ChannelKind → Option DdsNodeAddress
  | .broadcast => none
  | .request => some ch.address

def openTransport (ch : Channel) (kind : ChannelKind) (lib : Library) (isServer : Bool) :
    Outcome Channel :=
  let opened := ch.transport.openTransport lib (ch.broadcastAddress kind) (ch.requestAddress kind)
    isServer
  ⟨{ ch with transport := opened.state },opened.threw⟩

def close (ch : Channel) : Channel := { ch with transport := ch.transport.close }

end Channel

namespace DdsNodeCore

def isServer (s : DdsNodeCore) : Bool := s.role = .server

def construct (build : DdsTransport.Build) (role : EndpointRole)
    (broadcastAddress requestAddress : StdString) (workerConfig : DdsThreadConfig) :
    Except DdsError DdsNodeCore :=
  if broadcastAddress.isEmpty && requestAddress.isEmpty then
    .error (.invalidArgument
      "broadcast and request node addresses cannot both be empty".toList)
  else do
    let broadcast ← Channel.make build broadcastAddress
    let request ← Channel.make build requestAddress
    return ⟨role,workerConfig,broadcast,request,⟨none,none,none⟩,false,false⟩

def isRunning (s : DdsNodeCore) : Bool := s.joinable

def closeTransports (s : DdsNodeCore) : DdsNodeCore :=
  { s with broadcast := s.broadcast.map Channel.close, request := s.request.map Channel.close }

def stop (s : DdsNodeCore) : DdsNodeCore :=
  if !s.joinable then s
  else { { s with stopRequested := true }.closeTransports with joinable := false }

def openBroadcast (s : DdsNodeCore) (lib : Library) : Outcome DdsNodeCore :=
  match s.broadcast with
  | none => ⟨s,none⟩
  | some ch =>
    let opened := ch.openTransport .broadcast lib s.isServer
    ⟨{ s with broadcast := some opened.state },opened.threw⟩

def openRequest (s : DdsNodeCore) (lib : Library) : Outcome DdsNodeCore :=
  match s.request with
  | none => ⟨s,none⟩
  | some ch =>
    let opened := ch.openTransport .request lib s.isServer
    ⟨{ s with request := some opened.state },opened.threw⟩

def openTransports (s : DdsNodeCore) (env : StartEnv) : Outcome DdsNodeCore :=
  let opened := s.openBroadcast env.broadcastLibrary
  match opened.threw with
  | some e => ⟨opened.state,some e⟩
  | none => opened.state.openRequest env.requestLibrary

-- `Start` after its first `try` block; only the second one is guarded.
def spawn (s : DdsNodeCore) (env : StartEnv) : Outcome DdsNodeCore :=
  let s := { s with stopRequested := false }
  if !env.createsThread then ⟨s,some .thread⟩
  else
    let s := { s with joinable := true }
    match configureDdsCurrentThread env.os s.workerConfig with
    | .ok () => ⟨s,none⟩
    | .error e => ⟨s.stop,some e⟩

def ensureNotRunning (s : DdsNodeCore) : Option DdsError :=
  if s.isRunning then some (.logic "operation is not allowed after Start") else none

def start (s : DdsNodeCore) (env : StartEnv) : Outcome DdsNodeCore :=
  match s.ensureNotRunning with
  | some e => ⟨s,some e⟩
  | none =>
    let opened := s.openTransports env
    match opened.threw with
    | some e => ⟨opened.state.closeTransports,some e⟩
    | none => opened.state.spawn env

def setWorkerThreadName (s : DdsNodeCore) (name : StdString) : Outcome DdsNodeCore :=
  match s.ensureNotRunning with
  | some e => ⟨s,some e⟩
  | none => ⟨{ s with workerConfig := { s.workerConfig with name := name } },none⟩

def setWorkerThreadScheduling (s : DdsNodeCore) (policy : DdsSchedulingPolicy) (priority : Int)
    (strict : Bool) : Outcome DdsNodeCore :=
  match s.ensureNotRunning with
  | some e => ⟨s,some e⟩
  | none =>
    ⟨{ s with workerConfig := ⟨s.workerConfig.name,policy,priority,strict⟩ },none⟩

def publish (s : DdsNodeCore) (message : DdsBytes) (send : DdsBytes → Option DdsError) :
    Option DdsError :=
  if !s.isRunning then some (.logic "server is not running")
  else
    match s.broadcast with
    | none => some (.logic "broadcast node address is not configured")
    | some ch => ch.transport.publish message send

def requestReply (s : DdsNodeCore) (message : DdsBytes)
    (get : DdsBytes → Except DdsError DdsBytes) : Except DdsError DdsBytes :=
  if !s.isRunning then .error (.logic "client is not running")
  else
    match s.request with
    | none => .error (.logic "request node address is not configured")
    | some ch => ch.transport.request message get

end DdsNodeCore

inductive Call where
  | start (env : StartEnv)
  | stop
  | setWorkerThreadName (name : StdString)
  | setWorkerThreadScheduling (policy : DdsSchedulingPolicy) (priority : Int) (strict : Bool)
  | publish (message : DdsBytes) (send : DdsBytes → Option DdsError)
  | request (message : DdsBytes) (get : DdsBytes → Except DdsError DdsBytes)
  | onBroadcast (handler : Option Nat)
  | onRequest (handler : Option Nat)
  | onError (handler : Option Nat)

def thrown {α : Type} : Except DdsError α → Option DdsError
  | .ok _ => none
  | .error e => some e

def call (s : DdsNodeCore) : Call → Outcome DdsNodeCore
  | .start env => s.start env
  | .stop => ⟨s.stop,none⟩
  | .setWorkerThreadName name => s.setWorkerThreadName name
  | .setWorkerThreadScheduling policy priority strict =>
    s.setWorkerThreadScheduling policy priority strict
  | .publish message send => ⟨s,s.publish message send⟩
  | .request message get => ⟨s,thrown (s.requestReply message get)⟩
  | .onBroadcast handler => ⟨{ s with handlers := { s.handlers with broadcast := handler } },none⟩
  | .onRequest handler => ⟨{ s with handlers := { s.handlers with request := handler } },none⟩
  | .onError handler => ⟨{ s with handlers := { s.handlers with error := handler } },none⟩

def step (s : DdsNodeCore) (c : Call) : Option DdsNodeCore := some (call s c).state

end DdsAbstract.Node
