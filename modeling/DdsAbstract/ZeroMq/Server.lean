import Mathlib.Logic.Function.Basic
import DdsAbstract.ZeroMq.Router

namespace DdsAbstract.ZeroMq.Server
open Router

structure Clients where
  identity : Nat → DdsBytes
  distinct : Function.Injective identity

structure Handled where
  request : Reception
  outcome : HandlerOutcome
  deriving DecidableEq, Repr

-- One server from its `Start` until `Stop` is requested; `sent` and `handled` are history.
structure System where
  sent : Nat → List DdsBytes
  inFlight : Nat → List DdsBytes
  router : Router.System
  handled : List Handled

def handledNow (outcome : HandlerOutcome) : WorkerPc → List Handled
  | .atDispatch request => [⟨request,outcome⟩]
  | _ => []

inductive Action where
  | request (client : Nat) (data : DdsBytes)
  | deliver (client : Nat)
  | worker (outcome : HandlerOutcome)
  deriving DecidableEq, Repr

variable (clients : Clients)

def arrive (s : System) (client : Nat) (data : DdsBytes) : Router.System :=
  { s.router with
    socket := s.router.socket ++ Inbound.frames ⟨clients.identity client,data,[]⟩ }

def step (s : System) : Action → Option System
  | .request client data =>
    some { s with
      sent := Function.update s.sent client (s.sent client ++ [data])
      inFlight := Function.update s.inFlight client (s.inFlight client ++ [data]) }
  | .deliver client =>
    match s.inFlight client with
    | [] => none
    | data :: rest =>
      some { s with
        inFlight := Function.update s.inFlight client rest
        router := arrive clients s client data }
  | .worker outcome =>
    (workerStep s.router outcome).map (fun router =>
      { s with
        router := router
        handled := s.handled ++ handledNow outcome s.router.worker })

def initial : System := ⟨fun _ => [],fun _ => [],Router.initial [],[]⟩

end DdsAbstract.ZeroMq.Server
