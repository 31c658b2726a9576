import DdsAbstract.Transport.Message

namespace DdsAbstract.Zenoh

structure ClientReply where
  value : Option DdsBytes
  done : Bool
  error : StdString
  deriving DecidableEq, Repr

inductive ReplyEvent where
  | replyOk (payload : DdsBytes)
  | replyErr (payload : StdString)
  | done
  deriving DecidableEq, Repr

namespace ClientReply

def initial : ClientReply := ⟨none,false,[]⟩

-- The locked sections of `on_reply` and `on_done`.
def receive (state : ClientReply) : ReplyEvent → ClientReply
  | .replyOk payload => if state.done then state else { state with value := some payload, done := true }
  | .replyErr payload => if state.done then state else { state with error := payload, done := true }
  | .done => { state with done := true }

def result (state : ClientReply) : Except StdString DdsBytes :=
  if state.error ≠ [] then .error ("Zenoh reply error: ".toList ++ state.error)
  else
    match state.value with
    | none => .error "Zenoh query completed without a reply".toList
    | some value => .ok value

end ClientReply

-- `condition_variable::wait_for` up to `limit` over the callbacks in the order of their times.
def waitFor (limit : Nat) : ClientReply → List (Nat × ReplyEvent) → Option ClientReply
  | state, [] => if state.done then some state else none
  | state, (time,event) :: rest =>
    if state.done then some state
    else if time ≤ limit then waitFor limit (state.receive event) rest
    else none

end DdsAbstract.Zenoh
