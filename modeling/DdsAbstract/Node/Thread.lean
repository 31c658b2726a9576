import DdsAbstract.Node.Address

namespace DdsAbstract

inductive DdsSchedulingPolicy where
  | normal
  | fifo
  | roundRobin
  deriving DecidableEq, Repr

structure DdsThreadConfig where
  name : StdString := ['d','d','s','-','w','o','r','k','e','r']
  policy : DdsSchedulingPolicy := .normal
  priority : Int := 0
  strict : Bool := false
  deriving DecidableEq, Repr

inductive Sched where
  | fifo
  | rr
  deriving DecidableEq, Repr

structure ThreadApi where
  setName : StdString → Int
  setSchedParam : Sched → Int → Int

def DdsThreadConfig.fail (config : DdsThreadConfig) (what : String) (ec : Int) :
    Except DdsError Unit :=
  if config.strict then .error (.system what ec) else .ok ()

def setThreadName (os : ThreadApi) (config : DdsThreadConfig) : Except DdsError Unit :=
  if config.name.isEmpty then .ok ()
  else
    let ec := os.setName (config.name.take 15)
    if ec ≠ 0 then config.fail "pthread_setname_np" ec else .ok ()

def setThreadScheduling (os : ThreadApi) (config : DdsThreadConfig) : Except DdsError Unit :=
  if config.policy = .normal then .ok ()
  else
    let policy := if config.policy = .fifo then Sched.fifo else Sched.rr
    let ec := os.setSchedParam policy config.priority
    if ec ≠ 0 then config.fail "pthread_setschedparam" ec else .ok ()

def configureDdsCurrentThread (os : ThreadApi) (config : DdsThreadConfig) :
    Except DdsError Unit := do
  setThreadName os config
  setThreadScheduling os config

end DdsAbstract
