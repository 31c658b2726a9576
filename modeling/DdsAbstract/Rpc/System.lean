import DdsAbstract.Zenoh.ClientRequest
import DdsAbstract.Zenoh.Transport

namespace DdsAbstract.Rpc

-- Many Zenoh servers and clients. `origin` is history: the call whose query a callback serves.
structure System where
  servers : Nat → Zenoh.System
  clients : Nat → Zenoh.Client.System
  origin : Nat → Nat → Nat × Nat

inductive Action where
  | server (i : Nat) (action : Zenoh.Action)
  | client (c : Nat) (action : Zenoh.Client.Action)
  | query (call : Nat × Nat) (i : Nat)
  | reply (i k : Nat) (payload : DdsBytes)
  deriving DecidableEq, Repr

namespace System

def setServer (s : System) (i : Nat) (t : Zenoh.System) : System :=
  { s with servers := Function.update s.servers i t }

def setClient (s : System) (c : Nat) (t : Zenoh.Client.System) : System :=
  { s with clients := Function.update s.clients c t }

def callOf (s : System) (call : Nat × Nat) : Zenoh.Client.RequestCall :=
  (s.clients call.1).calls call.2

def query (payload : Nat × Nat → DdsBytes) (s : System) (call : Nat × Nat) (i : Nat) : System :=
  { s.setServer i ((s.servers i).arrive (some (payload call))) with
    origin := Function.update s.origin i
      (Function.update (s.origin i) (s.servers i).arrived call) }

def initial : System := ⟨fun _ => .initial true,fun _ => .initial,fun _ _ => (0,0)⟩

end System

-- The backend takes a query to any server and a reply back to its call, in any order, any number
-- of times or never; it reports an error or the end of a query when it likes.
def step (payload : Nat × Nat → DdsBytes) (s : System) : Action → Option System
  | .server _ (.arrive _) => none
  | .server i a => (Zenoh.step (s.servers i) a).map (s.setServer i)
  | .client _ (.callback _ (.replyOk _)) => none
  | .client c a => (Zenoh.Client.step (s.clients c) a).map (s.setClient c)
  | .query call i =>
    if (s.callOf call).queried then some (s.query payload call i) else none
  | .reply i k value =>
    if value ∈ ((s.servers i).callbacks k).replies then
      (Zenoh.Client.step (s.clients (s.origin i k).1)
        (.callback (s.origin i k).2 (.replyOk value))).map (s.setClient (s.origin i k).1)
    else none

end DdsAbstract.Rpc
