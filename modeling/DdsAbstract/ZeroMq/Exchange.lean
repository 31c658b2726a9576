import DdsAbstract.ZeroMq.Dealer
import DdsAbstract.ZeroMq.ExactlyOnce

namespace DdsAbstract.ZeroMq.Exchange
open Server

structure Received where
  call : Nat
  message : DdsBytes
  response : DdsBytes
  deriving DecidableEq, Repr

-- `started`, `timedOut` and `returned` are history.
structure Client where
  current : Dealer.CallPc
  started : Nat
  inbox : List DdsBytes
  timedOut : List Nat
  returned : List Received
  deriving DecidableEq, Repr

-- One server and its clients; `taken` counts the replies that have reached a client's socket.
structure System where
  server : Server.System
  clients : Nat → Client
  taken : Nat → Nat

inductive Action where
  | request (i : Nat) (data : DdsBytes)
  | send (i : Nat)
  | carry (i : Nat)
  | worker (outcome : HandlerOutcome)
  | handOn (i : Nat)
  | timeout (i : Nat)
  | receive (i : Nat)
  deriving DecidableEq, Repr

def System.setClient (s : System) (i : Nat) (c : Client) : System :=
  { s with clients := Function.update s.clients i c }

def step (clients : Clients) (hwm : Nat) (s : System) : Action → Option System
  | .request i data =>
    match (s.clients i).current with
    | .idle =>
      some (s.setClient i { s.clients i with
        current := .sending (s.clients i).started data
        started := (s.clients i).started + 1 })
    | _ => none
  | .send i =>
    match (s.clients i).current with
    | .sending call data =>
      if (s.server.inFlight i).length < hwm then
        (Server.step clients s.server (.request i data)).map (fun server =>
          { s.setClient i { s.clients i with current := .polling call data } with server := server })
      else none
    | _ => none
  | .carry i =>
    (Server.step clients s.server (.deliver i)).map (fun server => { s with server := server })
  | .worker outcome =>
    (Server.step clients s.server (.worker outcome)).map (fun server => { s with server := server })
  | .handOn i =>
    match (bodiesTo clients i s.server.router.replies)[s.taken i]? with
    | none => none
    | some body =>
      some { s.setClient i { s.clients i with inbox := (s.clients i).inbox ++ [body] } with
        taken := Function.update s.taken i (s.taken i + 1) }
  | .timeout i =>
    match (s.clients i).current,(s.clients i).inbox with
    | .polling call _,[] =>
      some (s.setClient i { s.clients i with
        current := .idle
        timedOut := (s.clients i).timedOut ++ [call] })
    | _,_ => none
  | .receive i =>
    match (s.clients i).current,(s.clients i).inbox with
    | .polling call data,response :: rest =>
      some (s.setClient i { s.clients i with
        current := .idle
        inbox := rest
        returned := (s.clients i).returned ++ [⟨call,data,response⟩] })
    | _,_ => none

def initial : System := ⟨Server.initial,fun _ => ⟨.idle,0,[],[],[]⟩,fun _ => 0⟩

end DdsAbstract.ZeroMq.Exchange
