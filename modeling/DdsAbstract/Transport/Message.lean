namespace DdsAbstract

abbrev DdsBytes := List UInt8

abbrev StdString := List Char

inductive Kind where
  | broadcast
  | request
  deriving DecidableEq, Repr

structure DdsIncomingMessage where
  kind : Kind
  payload : DdsBytes
  correlationId : StdString
  deriving DecidableEq, Repr

inductive HandlerOutcome where
  | returns (response : DdsBytes)
  | throws
  | notSet
  deriving DecidableEq, Repr

def HandlerOutcome.response : HandlerOutcome → Option DdsBytes
  | .returns response => some response
  | .throws => none
  | .notSet => some []

end DdsAbstract
