import DdsAbstract.Node.Thread

namespace DdsAbstract.Node

structure Outcome (σ : Type) where
  state : σ
  threw : Option DdsError

inductive SocketType where
  | pub
  | sub
  | router
  | dealer
  deriving DecidableEq, Repr

structure Socket where
  type : SocketType
  endpoint : StdString
  deriving DecidableEq, Repr

-- Which library calls succeed; `socket` stands for the constructor and its options.
structure Library where
  socket : SocketType → Bool
  bind : StdString → Bool
  connect : StdString → Bool
  openSession : Bool
  declare : StdString → Bool

def Library.attach (lib : Library) (isServer : Bool) : StdString → Bool :=
  if isServer then lib.bind else lib.connect

structure ZeroMqTransport where
  broadcastSocket : Option Socket
  requestSocket : Option Socket
  isOpen : Bool
  isServer : Bool
  deriving DecidableEq, Repr

namespace ZeroMqTransport

def openSocket (lib : Library) (isServer : Bool) (type : SocketType) :
    Option DdsNodeAddress → Except DdsError (Option Socket)
  | none => .ok none
  | some address =>
    if lib.socket type && lib.attach isServer (zeroMqEndpoint address) then
      .ok (some ⟨type,zeroMqEndpoint address⟩)
    else .error .zeroMq

def broadcastType (isServer : Bool) : SocketType := if isServer then .pub else .sub

def requestType (isServer : Bool) : SocketType := if isServer then .router else .dealer

def openTransport (t : ZeroMqTransport) (lib : Library) (broadcast request : Option DdsNodeAddress)
    (isServer : Bool) : Outcome ZeroMqTransport :=
  if t.isOpen then ⟨t,some (.logic "ZeroMQ transport is already open")⟩
  else
    match openSocket lib isServer (broadcastType isServer) broadcast with
    | .error e => ⟨⟨none,none,false,isServer⟩,some e⟩
    | .ok broadcastSocket =>
      match openSocket lib isServer (requestType isServer) request with
      | .error e => ⟨⟨none,none,false,isServer⟩,some e⟩
      | .ok requestSocket => ⟨⟨broadcastSocket,requestSocket,true,isServer⟩,none⟩

def close (t : ZeroMqTransport) : ZeroMqTransport := { t with isOpen := false }

def publish (t : ZeroMqTransport) (message : DdsBytes) (send : DdsBytes → Option DdsError) :
    Option DdsError :=
  if !t.isServer || !t.isOpen || t.broadcastSocket.isNone then
    some (.logic "ZeroMQ publisher is not open")
  else send message

def request (t : ZeroMqTransport) (message : DdsBytes) (get : DdsBytes → Except DdsError DdsBytes) :
    Except DdsError DdsBytes :=
  if t.isServer || !t.isOpen || t.requestSocket.isNone then
    .error (.logic "ZeroMQ requester is not open")
  else get message

def initial : ZeroMqTransport := ⟨none,none,false,false⟩

end ZeroMqTransport

structure ZenohEntities where
  session : Bool
  publisher : Option StdString
  subscriber : Option StdString
  queryable : Option StdString
  deriving DecidableEq, Repr

def ZenohEntities.reset : ZenohEntities := ⟨false,none,none,none⟩

structure ZenohTransport where
  entities : ZenohEntities
  broadcastKey : StdString
  requestKey : StdString
  isOpen : Bool
  isServer : Bool
  deriving DecidableEq, Repr

namespace ZenohTransport

def keyOf : Option DdsNodeAddress → StdString
  | none => []
  | some address => address.resource

def declareKey (lib : Library) (wanted : Bool) :
    Option DdsNodeAddress → Except DdsError (Option StdString)
  | none => .ok none
  | some address =>
    if !wanted then .ok none
    else if lib.declare address.resource then .ok (some address.resource)
    else .error .zenoh

def openEntities (lib : Library) (broadcast request : Option DdsNodeAddress) (isServer : Bool) :
    Except DdsError ZenohEntities :=
  if !lib.openSession then .error .zenoh
  else do
    let publisher ← declareKey lib isServer broadcast
    let queryable ← declareKey lib isServer request
    let subscriber ← declareKey lib (!isServer) broadcast
    return ⟨true,publisher,subscriber,queryable⟩

def openTransport (t : ZenohTransport) (lib : Library) (broadcast request : Option DdsNodeAddress)
    (isServer : Bool) : Outcome ZenohTransport :=
  if t.isOpen then ⟨t,some (.logic "Zenoh transport is already open")⟩
  else
    match openEntities lib broadcast request isServer with
    | .error e => ⟨⟨.reset,keyOf broadcast,keyOf request,false,isServer⟩,some e⟩
    | .ok entities => ⟨⟨entities,keyOf broadcast,keyOf request,true,isServer⟩,none⟩

def close (t : ZenohTransport) : ZenohTransport := { t with isOpen := false }

def publish (t : ZenohTransport) (message : DdsBytes) (put : DdsBytes → Option DdsError) :
    Option DdsError :=
  if !t.isServer || !t.isOpen || t.entities.publisher.isNone then
    some (.logic "Zenoh publisher is not open")
  else put message

def request (t : ZenohTransport) (message : DdsBytes) (get : DdsBytes → Except DdsError DdsBytes) :
    Except DdsError DdsBytes :=
  if t.isServer || !t.isOpen || t.requestKey.isEmpty then
    .error (.logic "Zenoh requester is not open")
  else get message

def initial : ZenohTransport := ⟨.reset,[],[],false,false⟩

end ZenohTransport

inductive DdsTransport where
  | zeroMq (t : ZeroMqTransport)
  | zenoh (t : ZenohTransport)
  deriving DecidableEq, Repr

namespace DdsTransport

def isOpen : DdsTransport → Bool
  | zeroMq t => t.isOpen
  | zenoh t => t.isOpen

def openTransport (lib : Library) (broadcast request : Option DdsNodeAddress) (isServer : Bool) :
    DdsTransport → Outcome DdsTransport
  | zeroMq t =>
    let opened := t.openTransport lib broadcast request isServer
    ⟨zeroMq opened.state,opened.threw⟩
  | zenoh t =>
    let opened := t.openTransport lib broadcast request isServer
    ⟨zenoh opened.state,opened.threw⟩

def close : DdsTransport → DdsTransport
  | zeroMq t => zeroMq t.close
  | zenoh t => zenoh t.close

def publish (message : DdsBytes) (send : DdsBytes → Option DdsError) :
    DdsTransport → Option DdsError
  | zeroMq t => t.publish message send
  | zenoh t => t.publish message send

def request (message : DdsBytes) (get : DdsBytes → Except DdsError DdsBytes) :
    DdsTransport → Except DdsError DdsBytes
  | zeroMq t => t.request message get
  | zenoh t => t.request message get

structure Build where
  hasZeroMq : Bool
  hasZenoh : Bool

def make (build : Build) : DdsTransportKind → Except DdsError DdsTransport
  | .zeroMq =>
    if build.hasZeroMq then .ok (zeroMq .initial)
    else .error (.runtime "ZeroMQ backend was not enabled at build time")
  | .zenoh =>
    if build.hasZenoh then .ok (zenoh .initial)
    else .error (.runtime "Zenoh backend was not enabled at build time")

end DdsTransport

end DdsAbstract.Node
