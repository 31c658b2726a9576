import DdsAbstract.Lib.Transition
import DdsAbstract.Zenoh.Transport

namespace DdsAbstract.Zenoh.Lifecycle

inductive LifePc where
  | stopped
  | atOpen
  | opening
  | opened
  | atSpawn
  | atReady
  | rollback
  | running
  | atFlag
  | closing
  | atJoin
  deriving DecidableEq, Repr

structure Node where
  system : System
  life : LifePc

namespace Node

def closeStep (n : Node) (pick : Nat) (next : LifePc) : Option Node :=
  (n.system.closeStep 0 pick).map
    (fun t => ⟨t,if t.closers 0 = .idle then next else n.life⟩)

-- `ok = false` fails the external step: at `stopped` and `opened` the other channel's `Open`.
def lifeStep (n : Node) (ok : Bool) (pick : Nat) : Option Node :=
  match n.life with
  | .stopped => some { n with life := if ok then .atOpen else .rollback }
  | .atOpen =>
    if n.system.isOpen then some { n with life := .rollback }
    else some ⟨n.system.openStep 0 ok,.opening⟩
  | .opening => some ⟨n.system.openStep 0 ok,if ok then .opened else .rollback⟩
  | .opened => some { n with life := if ok then .atSpawn else .rollback }
  | .atSpawn =>
    some ⟨{ n.system with stopRequested := false },if ok then .atReady else .stopped⟩
  | .atReady =>
    if ok then n.system.startWorker.map (fun t => ⟨t,.running⟩)
    else some { n with life := .atFlag }
  | .rollback => n.closeStep pick .stopped
  | .running => some { n with life := .atFlag }
  | .atFlag => some ⟨{ n.system with stopRequested := true },.closing⟩
  | .closing => n.closeStep pick .atJoin
  | .atJoin => if n.system.worker = .exited then some { n with life := .stopped } else none

def initial (isServer : Bool) : Node := ⟨.initial isServer,.stopped⟩

end Node

inductive Action where
  | life (ok : Bool) (pick : Nat)
  | arrive (payload : Option DdsBytes)
  | callback (k : Nat) (ok : Bool)
  | worker (timedOut : Bool) (outcome : HandlerOutcome)
  deriving DecidableEq, Repr

def step (n : Node) : Action → Option Node
  | .life ok pick => n.lifeStep ok pick
  | .arrive payload => some { n with system := n.system.arrive payload }
  | .callback k ok => (n.system.callbackStep k ok).map (fun t => { n with system := t })
  | .worker timedOut outcome =>
    (n.system.workerStep timedOut outcome).map (fun t => { n with system := t })

end DdsAbstract.Zenoh.Lifecycle
