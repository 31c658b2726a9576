import DdsAbstract.Lib.Transition
import DdsAbstract.Transport.Message

namespace DdsAbstract.ZeroMq.Dealer

-- `call` is history: the number of the `Request` call the frame belongs to.
structure Frame where
  call : Nat
  bytes : DdsBytes
  deriving DecidableEq, Repr

structure Answer where
  call : Nat
  request : DdsBytes
  response : DdsBytes
  deriving DecidableEq, Repr

structure Returned where
  call : Nat
  message : DdsBytes
  response : Frame
  deriving DecidableEq, Repr

inductive CallPc where
  | idle
  | sending (call : Nat) (data : DdsBytes)
  | polling (call : Nat) (data : DdsBytes)
  deriving DecidableEq, Repr

structure System where
  hwm : Nat
  current : CallPc
  started : Nat
  outgoing : List Frame
  serverQueue : List Frame
  network : List Frame
  inbox : List Frame
  answered : List Answer
  timedOut : List Nat
  returned : List Returned
  deriving DecidableEq, Repr

inductive Action where
  | request (data : DdsBytes)
  | send
  | take
  | serve (outcome : HandlerOutcome)
  | deliver
  | timeout
  | receive
  deriving DecidableEq, Repr

def Answer.reply (a : Answer) : Frame := ⟨a.call,a.response⟩

def serve (s : System) (outcome : HandlerOutcome) : Option System :=
  match s.serverQueue with
  | [] => none
  | q :: rest =>
    match outcome.response with
    | none => some { s with serverQueue := rest }
    | some response =>
      some { s with
        serverQueue := rest
        network := s.network ++ [⟨q.call,response⟩]
        answered := s.answered ++ [⟨q.call,q.bytes,response⟩] }

def step (s : System) : Action → Option System
  | .request data =>
    match s.current with
    | .idle => some { s with current := .sending s.started data, started := s.started + 1 }
    | _ => none
  | .send =>
    match s.current with
    | .sending call data =>
      if s.outgoing.length < s.hwm then
        some { s with current := .polling call data, outgoing := s.outgoing ++ [⟨call,data⟩] }
      else none
    | _ => none
  | .take =>
    match s.outgoing with
    | [] => none
    | q :: rest => some { s with outgoing := rest, serverQueue := s.serverQueue ++ [q] }
  | .serve outcome => serve s outcome
  | .deliver =>
    match s.network with
    | [] => none
    | r :: rest => some { s with network := rest, inbox := s.inbox ++ [r] }
  | .timeout =>
    match s.current, s.inbox with
    | .polling call _, [] => some { s with current := .idle, timedOut := s.timedOut ++ [call] }
    | _, _ => none
  | .receive =>
    match s.current, s.inbox with
    | .polling call data, response :: rest =>
      some { s with
        current := .idle
        inbox := rest
        returned := s.returned ++ [⟨call,data,response⟩] }
    | _, _ => none

def initial (hwm : Nat) : System := ⟨hwm,.idle,0,[],[],[],[],[],[],[]⟩

end DdsAbstract.ZeroMq.Dealer
