import DdsAbstract.Lib.Transition
import DdsAbstract.Transport.Message

namespace DdsAbstract.ZeroMq.Router

structure Frame where
  bytes : DdsBytes
  more : Bool
  deriving DecidableEq, Repr

structure Inbound where
  identity : DdsBytes
  first : DdsBytes
  others : List DdsBytes
  deriving DecidableEq, Repr

def Inbound.body (m : Inbound) : List DdsBytes := m.first :: m.others

def bodyFrames : DdsBytes → List DdsBytes → List Frame
  | last, [] => [⟨last,false⟩]
  | bytes, next :: rest => ⟨bytes,true⟩ :: bodyFrames next rest

-- ROUTER puts the identity of the peer in front.
def Inbound.frames (m : Inbound) : List Frame := ⟨m.identity,true⟩ :: bodyFrames m.first m.others

def toStdString (bytes : DdsBytes) : StdString := bytes.map (fun b => Char.ofNat b.toNat)

def ofStdString (text : StdString) : DdsBytes := text.map (fun c => UInt8.ofNat c.toNat)

-- `consumed` is history: the frames that this `TryReceive` took from the socket.
structure Reception where
  incoming : DdsIncomingMessage
  consumed : List Frame
  deriving DecidableEq, Repr

structure Reply where
  request : Reception
  outcome : HandlerOutcome
  identity : DdsBytes
  body : DdsBytes
  deriving DecidableEq, Repr

-- `ReceiveLoop` of a server, with `TryReceive`, `Dispatch` and `Reply` inlined.
inductive WorkerPc where
  | exited
  | atLoop
  | atOpenCheck
  | atPoll
  | atIdentity
  | atPayload (identity : Frame)
  | atDispatch (request : Reception)
  | atReport
  | atReply (request : Reception) (outcome : HandlerOutcome) (response : DdsBytes)
  | atSendIdentity (request : Reception) (outcome : HandlerOutcome) (response : DdsBytes)
  | atSendBody (request : Reception) (outcome : HandlerOutcome) (identity response : DdsBytes)
  deriving DecidableEq, Repr

structure System where
  isOpen : Bool
  stopRequested : Bool
  upcoming : List Inbound
  socket : List Frame
  worker : WorkerPc
  received : List Reception
  replies : List Reply
  deriving DecidableEq, Repr

inductive Action where
  | arrive
  | worker (outcome : HandlerOutcome)
  | requestStop
  | close
  deriving DecidableEq, Repr

def request (identity payload : Frame) : Reception :=
  ⟨⟨.request,payload.bytes,toStdString identity.bytes⟩,[identity,payload]⟩

def workerStep (s : System) (outcome : HandlerOutcome) : Option System :=
  match s.worker with
  | .exited => none
  | .atLoop => some { s with worker := if s.stopRequested then .exited else .atOpenCheck }
  | .atOpenCheck =>
    some { s with worker := if s.isOpen && !s.stopRequested then .atPoll else .atLoop }
  | .atPoll => some { s with worker := if s.socket.isEmpty then .atLoop else .atIdentity }
  | .atIdentity =>
    match s.socket with
    | [] => none
    | identity :: rest => some { s with socket := rest, worker := .atPayload identity }
  | .atPayload identity =>
    match s.socket with
    | [] => none
    | payload :: rest =>
      some { s with
        socket := rest
        worker := .atDispatch (request identity payload)
        received := s.received ++ [request identity payload] }
  | .atDispatch r =>
    match outcome.response with
    | none => some { s with worker := .atReport }
    | some response => some { s with worker := .atReply r outcome response }
  | .atReport => some { s with worker := .atLoop }
  | .atReply r outcome response =>
    some { s with worker := if s.isOpen then .atSendIdentity r outcome response else .atLoop }
  | .atSendIdentity r outcome response =>
    some { s with
      worker := .atSendBody r outcome (ofStdString r.incoming.correlationId) response }
  | .atSendBody r outcome identity response =>
    some { s with
      worker := .atLoop
      replies := s.replies ++ [⟨r,outcome,identity,response⟩] }

def step (s : System) : Action → Option System
  | .arrive =>
    match s.upcoming with
    | [] => none
    | m :: rest => some { s with upcoming := rest, socket := s.socket ++ m.frames }
  | .worker outcome => workerStep s outcome
  | .requestStop => some { s with stopRequested := true }
  | .close => some { s with isOpen := false }

def initial (messages : List Inbound) : System :=
  ⟨true,false,messages,[],.atLoop,[],[]⟩

end DdsAbstract.ZeroMq.Router
