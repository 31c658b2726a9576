import DdsAbstract.Zenoh.Restart
import DdsAbstract.ZeroMq.Restart

namespace DdsAbstract

theorem restart_isolation (isServer : Bool) :
    (∀ (as : List Zenoh.Lifecycle.Action) (n : Zenoh.Lifecycle.Node),
      Transition.Meets Zenoh.Lifecycle.step Zenoh.Lifecycle.QueueEmptyAtOpen (.initial isServer) as →
      Transition.run Zenoh.Lifecycle.step (.initial isServer) as = some n →
      Zenoh.Lifecycle.RestartIsolated n.system) ∧
    (∀ (hasBroadcast hasRequest : Bool) (as : List ZeroMq.Node.Action) (s : ZeroMq.Node.System),
      Transition.run ZeroMq.Node.step (.initial isServer hasBroadcast hasRequest) as = some s →
      ZeroMq.Node.RestartIsolated s) :=
  ⟨fun _ _ emptied h => Zenoh.Lifecycle.run_restartIsolated emptied h,
    fun _ _ _ _ h => ZeroMq.Node.run_restartIsolated h⟩

namespace Zenoh.Lifecycle

def queueEmptyAtOpen (n : Node) : Action → Bool
  | .life _ _ => n.life ≠ .atOpen || n.system.queue.isEmpty
  | _ => true

theorem queueEmptyAtOpen_sound (n : Node) (a : Action) (h : queueEmptyAtOpen n a = true) :
    QueueEmptyAtOpen n a := by
  cases a with
  | life ok pick =>
    intro hl _
    simpa [queueEmptyAtOpen,hl] using h
  | _ => trivial

def started : List Action := List.replicate 6 (.life true 0)

def enqueued : List Action := .arrive (some [1]) :: List.replicate 7 (.callback 0 true)

def dispatching : List Action := List.replicate 5 (.worker false .notSet)

def stopped : List Action :=
  List.replicate 2 (.life true 0) ++ [.worker false .notSet] ++ List.replicate 9 (.life true 0)

def served (k : Nat) (data : UInt8) : List Action :=
  .arrive (some [data]) :: (List.replicate 7 (.callback k true) ++
    List.replicate 9 (.worker false .notSet) ++ List.replicate 6 (.callback k true))

def stoppedIdle : List Action :=
  List.replicate 2 (.life true 0) ++ [.worker false .notSet] ++ List.replicate 6 (.life true 0)

def restarted : List Action := started ++ served 0 1 ++ stoppedIdle ++ started ++ served 1 2

end Zenoh.Lifecycle

namespace ZeroMq.Node

def served (data : UInt8) : List Action :=
  List.replicate 8 (.life true) ++ .arrive .request [data] :: List.replicate 7 (.worker .notSet)

def restarted : List Action :=
  served 1 ++ [.arrive .request [9]] ++ List.replicate 4 (.life true) ++ [.worker .notSet] ++
    [.life true] ++ served 2

end ZeroMq.Node

theorem restart_isolation_restarted : ∃ n s,
    Transition.run Zenoh.Lifecycle.step (.initial true) Zenoh.Lifecycle.restarted = some n ∧
      n.system.dispatched.map (fun d => (d.entry.message.payload,d.epoch)) = [([1],1),([2],2)] ∧
      Zenoh.Lifecycle.RestartIsolated n.system ∧
    Transition.run ZeroMq.Node.step (.initial true false true) ZeroMq.Node.restarted = some s ∧
      s.dispatched.map (fun d => (d.entry.data,d.period)) = [([1],1),([2],2)] ∧
      ZeroMq.Node.RestartIsolated s := by
  obtain ⟨zenoh,zeroMq⟩ := restart_isolation true
  refine ⟨_,_,rfl,rfl,?_,rfl,rfl,?_⟩
  · refine zenoh Zenoh.Lifecycle.restarted _ ?_ rfl
    exact Transition.meets_of_holdsAlong Zenoh.Lifecycle.queueEmptyAtOpen_sound rfl
  · exact zeroMq false true ZeroMq.Node.restarted _ rfl

theorem restart_isolation_counterexample :
    ¬ ((∀ (isServer : Bool) (as : List Zenoh.Lifecycle.Action) (n : Zenoh.Lifecycle.Node),
        Transition.run Zenoh.Lifecycle.step (.initial isServer) as = some n →
        Zenoh.Lifecycle.RestartIsolated n.system) ∧
      (∀ (isServer hasBroadcast hasRequest : Bool) (as : List ZeroMq.Node.Action)
        (s : ZeroMq.Node.System),
        Transition.run ZeroMq.Node.step (.initial isServer hasBroadcast hasRequest) as = some s →
        ZeroMq.Node.RestartIsolated s)) := by
  intro h
  have isolated := h.1 true (Zenoh.Lifecycle.started ++ Zenoh.Lifecycle.enqueued ++ Zenoh.Lifecycle.stopped ++
    Zenoh.Lifecycle.started ++ Zenoh.Lifecycle.dispatching) _ rfl
  have same := isolated ⟨⟨⟨.request,[1],['1']⟩,0,1⟩,.notSet,2⟩ (by decide)
  cases same

end DdsAbstract
