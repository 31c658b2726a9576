import DdsAbstract.ZeroMq.Node

namespace DdsAbstract.ZeroMq.Node

variable {s s' : System} {n : Nat} {ok : Bool} {k c : Channel}

def CallPc.pastCheck : CallPc → Bool
  | .atLock | .atSend | .inPoll | .atRecv => true
  | _ => false

def CallPc.usesSocket : CallPc → Bool
  | .atSend | .inPoll | .atRecv => true
  | _ => false

def LifePc.serving : LifePc → Bool
  | .running | .atFlag | .atClose _ | .atJoin => true
  | _ => false

def isOpen (s : System) (k : Channel) : Bool := (s.transports k).any (·.isOpen)

def inbox (s : System) (k : Channel) : List Accepted := (s.transports k).elim [] (·.inbox)

inductive LifeMove (s s' : System) : Bool → Prop
  | start (ok : Bool) (pc : s.life = .stopped)
      (next : s' = { s with life := .atOpen .broadcast, period := s.period + 1 }) :
      LifeMove s s' ok
  | absent (ok : Bool) (c : Channel) (pc : s.life = .atOpen c) (given : s.transports c = none)
      (next : s' = { s with life := System.afterOpen c }) : LifeMove s s' ok
  | refused (ok : Bool) (c : Channel) (t : Transport) (pc : s.life = .atOpen c)
      (given : s.transports c = some t) (opened : t.isOpen = true)
      (next : s' = { s with life := .atRollback .broadcast }) : LifeMove s s' ok
  | exchange (ok : Bool) (c : Channel) (t : Transport) (pc : s.life = .atOpen c)
      (given : s.transports c = some t) (closed : t.isOpen = false)
      (next : s' = { s.setTransport c { t with isOpen := true } with life := .atReset c }) :
      LifeMove s s' ok
  | reset (ok : Bool) (c : Channel) (t : Transport) (pc : s.life = .atReset c)
      (given : s.transports c = some t)
      (next : s' = { s.setTransport c { t with socket := none, inbox := [] } with
        life := .atCreate c }) : LifeMove s s' ok
  | create (c : Channel) (t : Transport) (pc : s.life = .atCreate c)
      (given : s.transports c = some t)
      (next : s' = { s.setTransport c { t with socket := some s.sockets } with
        sockets := s.sockets + 1
        life := .atBind c }) : LifeMove s s' true
  | createFails (c : Channel) (pc : s.life = .atCreate c)
      (next : s' = { s with life := .atUndo c }) : LifeMove s s' false
  | bind (c : Channel) (pc : s.life = .atBind c)
      (next : s' = { s with life := System.afterOpen c }) : LifeMove s s' true
  | bindFails (c : Channel) (pc : s.life = .atBind c)
      (next : s' = { s with life := .atUndo c }) : LifeMove s s' false
  | undo (ok : Bool) (c : Channel) (pc : s.life = .atUndo c)
      (next : s' = { s.setTransport c ⟨false,none,[]⟩ with life := .atRollback .broadcast }) :
      LifeMove s s' ok
  | rollback (ok : Bool) (pc : s.life = .atRollback .broadcast)
      (next : s' = { s with
        transports := (s.close .broadcast).transports
        life := .atRollback .request }) : LifeMove s s' ok
  | rollbackEnds (ok : Bool) (pc : s.life = .atRollback .request)
      (next : s' = { s with transports := (s.close .request).transports, life := .stopped }) :
      LifeMove s s' ok
  | spawn (pc : s.life = .atSpawn)
      (next : s' = { s with stopRequested := false, joinable := true, life := .atReady }) :
      LifeMove s s' true
  | spawnFails (pc : s.life = .atSpawn)
      (next : s' = { s with stopRequested := false, life := .stopped }) : LifeMove s s' false
  | ready (pc : s.life = .atReady) (next : s' = { s with worker := .atLoop, life := .running }) :
      LifeMove s s' true
  | readyFails (pc : s.life = .atReady) (next : s' = { s with life := .atFlag }) :
      LifeMove s s' false
  | stop (ok : Bool) (pc : s.life = .running) (next : s' = { s with life := .atFlag }) :
      LifeMove s s' ok
  | flag (ok : Bool) (pc : s.life = .atFlag)
      (next : s' = { s with stopRequested := true, life := .atClose .broadcast }) :
      LifeMove s s' ok
  | close (ok : Bool) (pc : s.life = .atClose .broadcast)
      (next : s' = { s with
        transports := (s.close .broadcast).transports
        life := .atClose .request }) : LifeMove s s' ok
  | closeEnds (ok : Bool) (pc : s.life = .atClose .request)
      (next : s' = { s with transports := (s.close .request).transports, life := .atJoin }) :
      LifeMove s s' ok
  | join (ok : Bool) (pc : s.life = .atJoin) (exited : s.worker = .exited)
      (next : s' = { s with joinable := false, life := .stopped }) : LifeMove s s' ok

theorem close_eq (s : System) (c : Channel) :
    s.close c = { s with transports := (s.close c).transports } := by
  unfold System.close
  split <;> rfl

theorem life_move (h : s.lifeStep ok = some s') : LifeMove s s' ok := by
  unfold System.lifeStep at h
  cases hl : s.life <;> simp only [hl] at h
  case stopped => exact .start ok hl (Option.some.inj h).symm
  case atOpen c =>
    cases ht : s.transports c <;> simp only [ht] at h
    case none => exact .absent ok c hl ht (Option.some.inj h).symm
    case some t =>
      cases ho : t.isOpen <;> simp only [ho] at h
      · exact .exchange ok c t hl ht ho (Option.some.inj h).symm
      · exact .refused ok c t hl ht ho (Option.some.inj h).symm
  case atReset c =>
    obtain ⟨t,ht,next⟩ := Option.map_eq_some_iff.mp h
    exact .reset ok c t hl ht next.symm
  case atCreate c =>
    cases ok
    · exact .createFails c hl (Option.some.inj h).symm
    · obtain ⟨t,ht,next⟩ := Option.map_eq_some_iff.mp h
      exact .create c t hl ht next.symm
  case atBind c =>
    cases ok
    · exact .bindFails c hl (Option.some.inj h).symm
    · exact .bind c hl (Option.some.inj h).symm
  case atUndo c => exact .undo ok c hl (Option.some.inj h).symm
  case atRollback c =>
    cases c <;> simp only at h <;> rw [close_eq] at h
    · exact .rollback ok hl (Option.some.inj h).symm
    · exact .rollbackEnds ok hl (Option.some.inj h).symm
  case atSpawn =>
    cases ok
    · exact .spawnFails hl (Option.some.inj h).symm
    · exact .spawn hl (Option.some.inj h).symm
  case atReady =>
    cases ok
    · exact .readyFails hl (Option.some.inj h).symm
    · exact .ready hl (Option.some.inj h).symm
  case running => exact .stop ok hl (Option.some.inj h).symm
  case atFlag => exact .flag ok hl (Option.some.inj h).symm
  case atClose c =>
    cases c <;> simp only at h <;> rw [close_eq] at h
    · exact .close ok hl (Option.some.inj h).symm
    · exact .closeEnds ok hl (Option.some.inj h).symm
  case atJoin =>
    split at h
    · exact .join ok hl ‹_› (Option.some.inj h).symm
    · cases h

structure LifeFrame (s s' : System) : Prop where
  isServer : s'.isServer = s.isServer
  calls : s'.calls = s.calls
  mutex : s'.mutex = s.mutex
  dispatched : s'.dispatched = s.dispatched
  worker : s'.worker = s.worker ∨ s'.worker = .atLoop
  period : s.life ≠ .stopped → s'.period = s.period

theorem life_frame (h : s.lifeStep ok = some s') : LifeFrame s s' := by
  cases life_move h with
  | start _ pc next =>
    subst next
    exact ⟨rfl,rfl,rfl,rfl,.inl rfl,fun hstop => absurd pc hstop⟩
  | ready pc next =>
    subst next
    exact ⟨rfl,rfl,rfl,rfl,.inr rfl,fun _ => rfl⟩
  | _ =>
    rename_i next
    subst next
    exact ⟨rfl,rfl,rfl,rfl,.inl rfl,fun _ => rfl⟩

theorem life_worker (h : s.lifeStep ok = some s')
    (hs : s.worker = .exited ∨ s.life.serving = true) :
    s'.worker = .exited ∨ s'.life.serving = true := by
  cases life_move h with
  | ready pc next | readyFails pc next | stop _ pc next | flag _ pc next | close _ pc next
  | closeEnds _ pc next =>
    subst next
    exact .inr rfl
  | join _ pc exited next =>
    subst next
    exact .inl exited
  | _ =>
    rename_i next
    subst next
    exact .inl (hs.resolve_right (by simp_all [LifePc.serving]))

theorem isOpen_set {t : Transport} (hc : c ≠ k) :
    isOpen (s.setTransport c t) k = isOpen s k := by
  simp [isOpen,System.setTransport,Function.update_of_ne (Ne.symm hc)]

structure Beside (s s' : System) : Prop where
  isServer : s'.isServer = s.isServer
  life : s'.life = s.life
  period : s'.period = s.period
  isOpen : ∀ k, isOpen s' k = isOpen s k

theorem setInbox_isOpen {t : Transport} {inbox : List Accepted} (ht : s.transports c = some t) :
    isOpen (s.setTransport c { t with inbox := inbox }) k = isOpen s k := by
  by_cases hc : k = c
  · subst hc
    simp [isOpen,System.setTransport,ht]
  · exact isOpen_set (Ne.symm hc)

theorem takeMessage_some {m : Accepted} (h : s.takeMessage c = some (m,s')) :
    ∃ t rest, s.transports c = some t ∧ t.inbox = m :: rest ∧
      s' = s.setTransport c { t with inbox := rest } := by
  unfold System.takeMessage at h
  split at h
  · cases h
  · rename_i t ht
    split at h
    · cases h
    · rename_i rest hinbox
      obtain ⟨rfl,rfl⟩ := Prod.mk.inj (Option.some.inj h)
      exact ⟨t,rest,ht,hinbox,rfl⟩

theorem takeMessage_inbox_eq {m : Accepted} {t : System} (h : s.takeMessage c = some (m,t)) :
    inbox s c = m :: inbox t c ∧ ∀ k, k ≠ c → inbox t k = inbox s k := by
  obtain ⟨u,rest,hu,hinbox,rfl⟩ := takeMessage_some h
  refine ⟨by simp [inbox,System.setTransport,hu,hinbox],?_⟩
  intro k hk
  simp [inbox,System.setTransport,hk]

theorem takeMessage_inbox {m : Accepted} {t : System} (h : s.takeMessage c = some (m,t)) :
    m ∈ inbox s c ∧ ∀ k, ∀ r ∈ inbox t k, r ∈ inbox s k := by
  obtain ⟨taken,others⟩ := takeMessage_inbox_eq h
  refine ⟨taken ▸ List.mem_cons_self,?_⟩
  intro k r hr
  by_cases hk : k = c
  · subst hk
    exact taken ▸ List.mem_cons_of_mem m hr
  · exact others k hk ▸ hr

structure WorkerFrame (s s' : System) : Prop extends Beside s s' where
  calls : s'.calls = s.calls
  mutex : s'.mutex = s.mutex
  alive : s.worker ≠ .exited
  inbox : ∀ k, ∀ m ∈ inbox s' k, m ∈ inbox s k
  carried : ∀ m, s'.worker = .atDispatch m → m ∈ DdsAbstract.ZeroMq.Node.inbox s s.workChannel
  dispatched : s'.dispatched = s.dispatched ∨
    ∃ m, s.worker = .atDispatch m ∧ s'.dispatched = s.dispatched ++ [⟨m,s.period⟩]

theorem worker_frame {outcome : HandlerOutcome} (h : s.workerStep outcome = some s') :
    WorkerFrame s s' := by
  have goes (pc : WorkerPc) (alive : s.worker ≠ .exited) (hpc : ∀ m, pc ≠ .atDispatch m) :
      WorkerFrame s { s with worker := pc } :=
    ⟨⟨rfl,rfl,rfl,fun _ => rfl⟩,rfl,rfl,alive,fun _ _ hm => hm,fun m hm => absurd hm (hpc m),
      .inl rfl⟩
  unfold System.workerStep at h
  cases hw : s.worker <;> simp only [hw] at h
  case exited => cases h
  case atLoop =>
    split at h
    · obtain rfl := Option.some.inj h
      exact goes .exited (by simp [hw]) (by simp)
    · split at h <;> obtain rfl := Option.some.inj h
      · exact ⟨⟨rfl,rfl,rfl,fun _ => rfl⟩,rfl,rfl,by simp [hw],fun _ _ hm => hm,by simp [hw],.inl rfl⟩
      · exact goes .atOpenCheck (by simp [hw]) (by simp)
  case atOpenCheck | atPoll | atReply =>
    obtain rfl := Option.some.inj h
    refine goes _ (by simp [hw]) ?_
    intro m hm
    split at hm <;> cases hm
  case atRecv =>
    obtain ⟨⟨m,t⟩,hm,rfl⟩ := Option.map_eq_some_iff.mp h
    obtain ⟨hmem,hsub⟩ := takeMessage_inbox hm
    obtain ⟨u,rest,hu,-,rfl⟩ := takeMessage_some hm
    refine ⟨⟨rfl,rfl,rfl,fun k => setInbox_isOpen hu⟩,rfl,rfl,by simp [hw],hsub,?_,.inl rfl⟩
    intro r hr
    obtain rfl : m = r := by simpa using hr
    exact hmem
  case atDispatch m =>
    obtain rfl := Option.some.inj h
    refine ⟨⟨rfl,rfl,rfl,fun _ => rfl⟩,rfl,rfl,by simp [hw],fun _ _ hm => hm,?_,.inr ⟨m,hw,rfl⟩⟩
    intro r hr
    simp only at hr
    split at hr <;> cases hr
  case atSend =>
    obtain rfl := Option.some.inj h
    exact goes .atLoop (by simp [hw]) (by simp)

theorem arrive_beside (data : DdsBytes) :
    Beside s (s.arrive c data) ∧ (s.arrive c data).calls = s.calls ∧
      (s.arrive c data).mutex = s.mutex ∧ (s.arrive c data).worker = s.worker := by
  unfold System.arrive
  split
  · exact ⟨⟨rfl,rfl,rfl,fun _ => rfl⟩,rfl,rfl,rfl⟩
  · split
    · exact ⟨⟨rfl,rfl,rfl,fun _ => setInbox_isOpen ‹_›⟩,rfl,rfl,rfl⟩
    · exact ⟨⟨rfl,rfl,rfl,fun _ => rfl⟩,rfl,rfl,rfl⟩

inductive CallMove (s s' : System) (n : Nat) : Prop
  | before (past : (s'.calls n).pastCheck = false) (free : (s.calls n).usesSocket = false)
      (mutex : s'.mutex = s.mutex)
  | passes (was : s.calls n = .atOpenCheck) (now : s'.calls n = .atLock)
      (usable : s.usable s.callChannel = true) (mutex : s'.mutex = s.mutex)
  | locks (was : s.calls n = .atLock) (now : s'.calls n = .atSend) (free : s.mutex = none)
      (mutex : s'.mutex = some n)
  | continues (was : (s.calls n).usesSocket = true) (now : (s'.calls n).usesSocket = true)
      (mutex : s'.mutex = s.mutex)
  | leaves (was : (s.calls n).usesSocket = true) (now : s'.calls n = .outside)
      (mutex : s'.mutex = none)

structure CallFrame (s s' : System) (n : Nat) : Prop extends Beside s s' where
  worker : s'.worker = s.worker
  others : ∀ m, m ≠ n → s'.calls m = s.calls m
  inbox : ∀ k, ∀ m ∈ inbox s' k, m ∈ inbox s k
  dispatched : s'.dispatched = s.dispatched

theorem setCall_frame (pc : CallPc) (mutex : Option Nat) :
    CallFrame s { s.setCall n pc with mutex := mutex } n :=
  ⟨⟨rfl,rfl,rfl,fun _ => rfl⟩,rfl,fun _ hm => by simp [System.setCall,hm],fun _ _ hm => hm,rfl⟩

theorem call_move (h : s.callStep n ok = some s') : CallFrame s s' n ∧ CallMove s s' n := by
  have goes (pc : CallPc) (mutex : Option Nat)
      (move : CallMove s { s.setCall n pc with mutex := mutex } n) :
      CallFrame s { s.setCall n pc with mutex := mutex } n ∧
        CallMove s { s.setCall n pc with mutex := mutex } n :=
    ⟨setCall_frame pc mutex,move⟩
  unfold System.callStep at h
  cases hc : s.calls n <;> simp only [hc] at h
  case outside =>
    obtain rfl := Option.some.inj h
    exact goes .atRunningCheck s.mutex
      (.before (by simp [System.setCall,CallPc.pastCheck]) (by rw [hc]; rfl) rfl)
  case atRunningCheck =>
    obtain rfl := Option.some.inj h
    refine goes _ s.mutex (.before ?_ (by rw [hc]; rfl) rfl)
    split <;> simp [System.setCall,CallPc.pastCheck]
  case atOpenCheck =>
    obtain rfl := Option.some.inj h
    refine goes _ s.mutex ?_
    split
    · exact .passes hc (by simp [System.setCall]) ‹_› rfl
    · exact .before (by simp [System.setCall,CallPc.pastCheck]) (by rw [hc]; rfl) rfl
  case atLock =>
    split at h
    · obtain rfl := Option.some.inj h
      exact goes .atSend (some n) (.locks hc (by simp [System.setCall]) ‹_› rfl)
    · cases h
  case atSend =>
    obtain rfl := Option.some.inj h
    split
    · exact goes .outside none (.leaves (by rw [hc]; rfl) (by simp [System.setCall]) rfl)
    · exact goes .inPoll s.mutex
        (.continues (by rw [hc]; rfl) (by simp [System.setCall,CallPc.usesSocket]) rfl)
  case inPoll =>
    split at h
    · obtain rfl := Option.some.inj h
      exact goes .outside none (.leaves (by rw [hc]; rfl) (by simp [System.setCall]) rfl)
    · split at h
      · obtain rfl := Option.some.inj h
        exact goes .atRecv s.mutex
          (.continues (by rw [hc]; rfl) (by simp [System.setCall,CallPc.usesSocket]) rfl)
      · cases h
  case atRecv =>
    obtain ⟨⟨m,t⟩,hm,rfl⟩ := Option.map_eq_some_iff.mp h
    obtain ⟨u,rest,hu,-,rfl⟩ := takeMessage_some hm
    refine ⟨⟨⟨rfl,rfl,rfl,fun k => setInbox_isOpen hu⟩,rfl,?_,(takeMessage_inbox hm).2,rfl⟩,?_⟩
    · intro m hm
      simp [System.leave,System.setCall,System.setTransport,hm]
    · exact .leaves (by rw [hc]; rfl)
        (by simp [System.leave,System.setCall,System.setTransport]) rfl

theorem isOpen_of_usable (h : s.usable k = true) : isOpen s k = true := by
  simp only [System.usable,isOpen,Option.any_eq_true,Bool.and_eq_true] at h ⊢
  obtain ⟨t,ht,ho,-⟩ := h
  exact ⟨t,ht,ho⟩

theorem pastCheck_of_usesSocket {pc : CallPc} (h : pc.usesSocket = true) : pc.pastCheck = true := by
  cases pc <;> first | rfl | cases h

theorem Beside.callChannel (h : Beside s s') : s'.callChannel = s.callChannel := by
  simp only [System.callChannel,h.isServer]

end DdsAbstract.ZeroMq.Node
