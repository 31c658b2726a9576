import DdsAbstract.Node.Core

namespace DdsAbstract.Node

def SocketType.binds : SocketType → Bool
  | .pub => true
  | .router => true
  | .sub => false
  | .dealer => false

namespace DdsTransport

def sockets : DdsTransport → List Socket
  | zeroMq t => t.broadcastSocket.toList ++ t.requestSocket.toList
  | zenoh _ => []

def entities : DdsTransport → ZenohEntities
  | zeroMq _ => .reset
  | zenoh t => t.entities

def owns (t : DdsTransport) : Bool := !t.sockets.isEmpty || t.entities != .reset

def boundAt (t : DdsTransport) (endpoint : StdString) : Bool :=
  t.sockets.any (fun socket => socket.type.binds && socket.endpoint == endpoint)

end DdsTransport

namespace Channel

def owns (ch : Channel) : Bool := ch.transport.owns

def boundAt (ch : Channel) (endpoint : StdString) : Bool := ch.transport.boundAt endpoint

def answers (ch : Channel) (key : StdString) : Bool :=
  ch.transport.entities.queryable == some key

end Channel

namespace DdsNodeCore

def owns (s : DdsNodeCore) : Bool := s.broadcast.any Channel.owns || s.request.any Channel.owns

def boundAt (s : DdsNodeCore) (endpoint : StdString) : Bool :=
  s.broadcast.any (·.boundAt endpoint) || s.request.any (·.boundAt endpoint)

def answers (s : DdsNodeCore) (key : StdString) : Bool :=
  s.broadcast.any (·.answers key) || s.request.any (·.answers key)

end DdsNodeCore

structure World where
  nodes : List (Option DdsNodeCore)
  deriving DecidableEq, Repr

namespace World

def node? (w : World) (i : Nat) : Option DdsNodeCore := (w.nodes[i]?).join

def boundElsewhere (w : World) (i : Nat) (endpoint : StdString) : Bool :=
  (List.range w.nodes.length).any
    (fun j => j != i && (w.node? j).any (·.boundAt endpoint))

end World

def Library.without (lib : Library) (taken : StdString → Bool) : Library :=
  { lib with bind := fun endpoint => lib.bind endpoint && !taken endpoint }

def StartEnv.within (env : StartEnv) (w : World) (i : Nat) (s : DdsNodeCore) : StartEnv :=
  let broadcastLibrary := env.broadcastLibrary.without
    (fun endpoint => w.boundElsewhere i endpoint || s.request.any (·.boundAt endpoint))
  let opened := (s.openBroadcast broadcastLibrary).state
  { env with
    broadcastLibrary := broadcastLibrary
    requestLibrary := env.requestLibrary.without
      (fun endpoint => w.boundElsewhere i endpoint || opened.broadcast.any (·.boundAt endpoint)) }

def Call.within (w : World) (i : Nat) (s : DdsNodeCore) : Call → Call
  | .start env => .start (env.within w i s)
  | c => c

namespace World

inductive Action where
  | create (build : DdsTransport.Build) (role : EndpointRole)
      (broadcastAddress requestAddress : StdString) (config : DdsThreadConfig)
  | call (i : Nat) (c : Call)
  | destroy (i : Nat)

def step (w : World) : Action → Option World
  | .create build role broadcastAddress requestAddress config =>
    match DdsNodeCore.construct build role broadcastAddress requestAddress config with
    | .error _ => some w
    | .ok s => some ⟨w.nodes ++ [some s]⟩
  | .call i c =>
    match w.node? i with
    | none => some w
    | some s => some ⟨w.nodes.set i (some (Node.call s (c.within w i s)).state)⟩
  | .destroy i => some ⟨w.nodes.set i none⟩

def initial : World := ⟨[]⟩

end World

end DdsAbstract.Node
