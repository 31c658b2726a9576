import Mathlib.Algebra.Group.Int.Defs
import DdsAbstract.Transport.Message

namespace DdsAbstract

inductive DdsError where
  | invalidArgument (what : StdString)
  | logic (what : String)
  | runtime (what : String)
  | system (what : String) (code : Int)
  | thread
  | zeroMq
  | zenoh
  deriving DecidableEq, Repr

inductive DdsTransportKind where
  | zeroMq
  | zenoh
  deriving DecidableEq, Repr

structure DdsNodeAddress where
  transport : DdsTransportKind
  resource : StdString
  deriving DecidableEq, Repr

inductive Errc where
  | ok
  | invalidArgument
  | resultOutOfRange
  deriving DecidableEq, Repr

structure FromCharsResult where
  ptr : StdString
  ec : Errc
  value : Int
  deriving DecidableEq, Repr

def decimalValue (digits : StdString) : Nat :=
  digits.foldl (fun n c => 10 * n + (c.toNat - 48)) 0

-- `std::from_chars` on a 32-bit `int`: an optional minus sign, then decimal digits.
def fromChars (text : StdString) (value : Int) : FromCharsResult :=
  let negative := text.head? = some '-'
  let body := if negative then text.tail else text
  let digits := body.takeWhile Char.isDigit
  let rest := body.dropWhile Char.isDigit
  let parsed : Int := if negative then -decimalValue digits else decimalValue digits
  if digits = [] then ⟨text,.invalidArgument,value⟩
  else if -2 ^ 31 ≤ parsed ∧ parsed < 2 ^ 31 then ⟨rest,.ok,parsed⟩
  else ⟨rest,.resultOutOfRange,value⟩

def isDecimalInRange (text : StdString) (minimum maximum : Int) : Bool :=
  if text.isEmpty then false
  else
    let result := fromChars text 0
    result.ec == .ok && result.ptr.isEmpty && minimum ≤ result.value && result.value ≤ maximum

def find (text : StdString) (c : Char) : Option Nat := text.findIdx? (· == c)

def rfind (text : StdString) (c : Char) : Option Nat :=
  (find text.reverse c).map (fun i => text.length - 1 - i)

def substrTo (text : StdString) : Option Nat → StdString
  | none => text
  | some position => text.take position

def isIpv4Octets : Nat → StdString → Bool
  | 0, _ => false
  | remaining + 1, ipv4 =>
    let dot := find ipv4 '.'
    if !isDecimalInRange (substrTo ipv4 dot) 0 255 then false
    else if remaining = 0 then dot.isNone
    else
      match dot with
      | none => false
      | some position => isIpv4Octets remaining (ipv4.drop (position + 1))

def isIpv4Endpoint (address : StdString) : Bool :=
  match rfind address ':' with
  | none => false
  | some colon =>
    if !isDecimalInRange (address.drop (colon + 1)) 1 65535 then false
    else isIpv4Octets 4 (address.take colon)

def inproc : StdString := ['i','n','p','r','o','c']

def inprocPrefix : StdString := inproc ++ ['/']

def nativeInprocPrefix : StdString := inproc ++ [':','/','/']

def isInprocAddress (address : StdString) : Bool :=
  if nativeInprocPrefix.isPrefixOf address then address.length > 9
  else if inprocPrefix.isPrefixOf address then address.length > 7
  else false

def DdsNodeAddress.parse (value : StdString) : Except DdsError DdsNodeAddress :=
  match value with
  | [] => .error (.invalidArgument "node address is empty".toList)
  | front :: _ =>
    if isInprocAddress value || isIpv4Endpoint value then .ok ⟨.zeroMq,value⟩
    else if inproc.isPrefixOf value || (front.isDigit && (find value ':').isSome) then
      .error (.invalidArgument ("invalid ZeroMQ node address: ".toList ++ value))
    else .ok ⟨.zenoh,value⟩

def zeroMqEndpoint (address : DdsNodeAddress) : StdString :=
  if nativeInprocPrefix.isPrefixOf address.resource then address.resource
  else if inprocPrefix.isPrefixOf address.resource then
    nativeInprocPrefix ++ address.resource.drop inprocPrefix.length
  else ['t','c','p',':','/','/'] ++ address.resource

end DdsAbstract
