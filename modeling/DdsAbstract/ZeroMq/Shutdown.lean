import DdsAbstract.Lib.Trace
import DdsAbstract.ZeroMq.Restart

namespace DdsAbstract.ZeroMq.Node

variable {s s' t : System} {ok : Bool} {k c : Channel} {a : Action} {outcome : HandlerOutcome}

def LifePc.closing : LifePc → Bool
  | .atClose _ | .atJoin => true
  | _ => false

def WorkerPc.toExit : WorkerPc → Nat
  | .exited => 0
  | .atLoop => 1
  | .atSend => 2
  | .atReply => 3
  | .atDispatch _ => 4
  | .atRecv => 5
  | .atPoll => 6
  | .atOpenCheck => 7

def LifePc.toReturn : LifePc → Nat
  | .atClose .broadcast => 3
  | .atClose .request => 2
  | .atJoin => 1
  | _ => 0

def WorkerPc.toDispatch : WorkerPc → Nat
  | .atPoll | .atRecv | .atDispatch _ => 1
  | _ => 0

def System.toStop (s : System) : Nat := s.life.toReturn + s.worker.toExit

def Action.turn : Action → Bool
  | .life _ | .worker _ => true
  | _ => false

def link (s : System) (k : Channel) : Option (Bool × Option Nat) :=
  (s.transports k).map (fun t => (t.isOpen,t.socket))

theorem setInbox_link {t : Transport} {inbox : List Accepted} (ht : s.transports c = some t) :
    link (s.setTransport c { t with inbox := inbox }) k = link s k := by
  by_cases hc : k = c
  · subst hc
    simp [link,System.setTransport,ht]
  · simp [link,System.setTransport,hc]

structure Flags (s s' : System) : Prop where
  stopRequested : s'.stopRequested = s.stopRequested
  joinable : s'.joinable = s.joinable
  link : ∀ k, link s' k = link s k

theorem takeMessage_flags {m : Accepted} (h : s.takeMessage c = some (m,s')) : Flags s s' := by
  obtain ⟨u,rest,hu,-,rfl⟩ := takeMessage_some h
  exact ⟨rfl,rfl,fun _ => setInbox_link hu⟩

theorem worker_flags (h : s.workerStep outcome = some s') : Flags s s' := by
  unfold System.workerStep at h
  cases hw : s.worker <;> simp only [hw] at h
  case exited => cases h
  case atLoop =>
    split at h
    · obtain rfl := Option.some.inj h
      exact ⟨rfl,rfl,fun _ => rfl⟩
    · split at h <;> obtain rfl := Option.some.inj h <;> exact ⟨rfl,rfl,fun _ => rfl⟩
  case atRecv =>
    obtain ⟨⟨m,t⟩,hm,rfl⟩ := Option.map_eq_some_iff.mp h
    obtain ⟨stopRequested,joinable,link⟩ := takeMessage_flags hm
    exact ⟨stopRequested,joinable,link⟩
  all_goals
    obtain rfl := Option.some.inj h
    exact ⟨rfl,rfl,fun _ => rfl⟩

theorem call_flags {n : Nat} (h : s.callStep n ok = some s') : Flags s s' := by
  unfold System.callStep at h
  cases hc : s.calls n <;> simp only [hc] at h
  case atLock =>
    split at h
    · obtain rfl := Option.some.inj h
      exact ⟨rfl,rfl,fun _ => rfl⟩
    · cases h
  case atSend =>
    obtain rfl := Option.some.inj h
    split <;> exact ⟨rfl,rfl,fun _ => rfl⟩
  case inPoll =>
    split at h
    · obtain rfl := Option.some.inj h
      exact ⟨rfl,rfl,fun _ => rfl⟩
    · split at h
      · obtain rfl := Option.some.inj h
        exact ⟨rfl,rfl,fun _ => rfl⟩
      · cases h
  case atRecv =>
    obtain ⟨⟨m,t⟩,hm,rfl⟩ := Option.map_eq_some_iff.mp h
    obtain ⟨stopRequested,joinable,link⟩ := takeMessage_flags hm
    exact ⟨stopRequested,joinable,link⟩
  all_goals
    obtain rfl := Option.some.inj h
    exact ⟨rfl,rfl,fun _ => rfl⟩

theorem arrive_flags (data : DdsBytes) : Flags s (s.arrive c data) := by
  unfold System.arrive
  split
  · exact ⟨rfl,rfl,fun _ => rfl⟩
  · split
    · exact ⟨rfl,rfl,fun _ => setInbox_link ‹_›⟩
    · exact ⟨rfl,rfl,fun _ => rfl⟩

structure Attentive (s : System) : Prop where
  worker : s.worker = .exited ∨ s.life.serving = true
  received : s.worker = .atRecv → inbox s s.workChannel ≠ []
  flagged : s.life.closing = true → s.stopRequested = true

theorem life_inbox_serving (h : s.lifeStep ok = some s') (serving : s.life.serving = true) :
    inbox s' k = inbox s k := by
  cases life_move h with
  | stop _ pc next | flag _ pc next | join _ pc exited next =>
    subst next
    rfl
  | close _ pc next | closeEnds _ pc next =>
    subst next
    exact close_inbox s _ k
  | _ => simp_all [LifePc.serving]

theorem life_flagged (h : s.lifeStep ok = some s')
    (flagged : s.life.closing = true → s.stopRequested = true) (closing : s'.life.closing = true) :
    s'.stopRequested = true := by
  cases life_move h with
  | flag _ pc next =>
    subst next
    rfl
  | close _ pc next | closeEnds _ pc next =>
    subst next
    exact flagged (by rw [pc]; rfl)
  | absent _ c pc given next | bind c pc next =>
    subst next
    cases c <;> cases closing
  | _ =>
    rename_i next
    subst next
    cases closing

theorem life_attentive (ha : Attentive s) (h : s.lifeStep ok = some s') : Attentive s' := by
  have frame := life_frame h
  have channel : s'.workChannel = s.workChannel := by
    simp only [System.workChannel,frame.isServer]
  refine ⟨life_worker h ha.worker,fun recv => ?_,life_flagged h ha.flagged⟩
  rcases frame.worker with same | fresh
  · rw [same] at recv
    rw [channel,life_inbox_serving h (ha.worker.resolve_left (by simp [recv]))]
    exact ha.received recv
  · rw [recv] at fresh
    cases fresh

theorem hasMessage_inbox (h : s.hasMessage c = true) : inbox s c ≠ [] := by
  simp only [System.hasMessage,Option.any_eq_true] at h
  obtain ⟨t,ht,present⟩ := h
  rw [inbox_of_transport ht]
  simpa using present

theorem worker_received (h : s.workerStep outcome = some s') (recv : s'.worker = .atRecv) :
    inbox s' s'.workChannel ≠ [] := by
  unfold System.workerStep at h
  cases hw : s.worker <;> simp only [hw] at h
  case exited => cases h
  case atLoop =>
    split at h
    · obtain rfl := Option.some.inj h
      cases recv
    · split at h <;> obtain rfl := Option.some.inj h
      · simp [hw] at recv
      · cases recv
  case atPoll =>
    obtain rfl := Option.some.inj h
    simp only [ite_eq_left_iff,reduceCtorEq,imp_false,Bool.not_eq_true,Bool.not_eq_false] at recv
    exact hasMessage_inbox recv
  case atRecv =>
    obtain ⟨⟨m,t⟩,-,rfl⟩ := Option.map_eq_some_iff.mp h
    cases recv
  case atOpenCheck | atDispatch | atReply =>
    obtain rfl := Option.some.inj h
    simp only at recv
    split at recv <;> cases recv
  case atSend =>
    obtain rfl := Option.some.inj h
    cases recv

theorem inbox_of_pending {more : List Accepted} (h : pending s' = pending s ++ more)
    (hw : s'.worker = s.worker) : inbox s' s'.workChannel = inbox s s.workChannel ++ more := by
  rw [pending,pending,hw,List.append_assoc,List.append_cancel_left_eq] at h
  exact h

theorem beside_attentive (ha : Attentive s) (hb : Beside s s') (hf : Flags s s')
    (hw : s'.worker = s.worker) {more : List Accepted} (arrived : pending s' = pending s ++ more) :
    Attentive s' := by
  refine ⟨?_,fun recv => ?_,fun closing => ?_⟩
  · rw [hw,hb.life]
    exact ha.worker
  · rw [inbox_of_pending arrived hw]
    exact List.append_ne_nil_of_left_ne_nil (ha.received (hw ▸ recv)) more
  · rw [hf.stopRequested]
    exact ha.flagged (hb.life ▸ closing)

theorem step_attentive (ha : Attentive s) (h : step s a = some s') : Attentive s' := by
  cases a with
  | life ok => exact life_attentive ha h
  | worker outcome =>
    have frame := worker_frame h
    refine ⟨.inr (frame.life ▸ ha.worker.resolve_left frame.alive),worker_received h,fun closing => ?_⟩
    rw [(worker_flags h).stopRequested]
    exact ha.flagged (frame.life ▸ closing)
  | call n ok =>
    have frame := (call_move h).1
    exact beside_attentive ha frame.toBeside (call_flags h) frame.worker
      ((call_pending h).trans (List.append_nil _).symm)
  | arrive c data =>
    obtain rfl := Option.some.inj h
    obtain ⟨beside,-,-,worker⟩ := arrive_beside (s := s) (c := c) data
    rcases arrive_pending (s := s) (c := c) data with same | ⟨-,appended⟩
    · exact beside_attentive ha beside (arrive_flags data) worker
        (same.trans (List.append_nil _).symm)
    · exact beside_attentive ha beside (arrive_flags data) worker appended

theorem attentive_initial (isServer hasBroadcast hasRequest : Bool) :
    Attentive (.initial isServer hasBroadcast hasRequest) := by
  constructor <;> simp [System.initial,LifePc.closing]

theorem run_attentive {isServer hasBroadcast hasRequest : Bool} {as : List Action}
    (h : Transition.run step (.initial isServer hasBroadcast hasRequest) as = some s) :
    Attentive s :=
  Transition.run_invariant (I := Attentive) (fun _ _ _ => step_attentive)
    (attentive_initial isServer hasBroadcast hasRequest) h

structure Stopping (s : System) : Prop extends Attentive s where
  stage : s.life.closing = true ∨ s.life = .stopped ∧ s.joinable = false
  broadcast : s.life ≠ .atClose .broadcast → isOpen s .broadcast = false
  request : s.life = .atJoin ∨ s.life = .stopped → isOpen s .request = false

def System.Stops (s : System) : Action → Prop
  | .life _ => s.life ≠ .stopped
  | _ => True

theorem close_isOpen (s : System) (c k : Channel) :
    isOpen (s.close c) k = if k = c then false else isOpen s k := by
  unfold System.close
  split
  · rename_i none
    split
    · subst k
      simp [isOpen,none]
    · rfl
  · rename_i t ht
    split
    · subst k
      simp [isOpen,System.setTransport]
    · exact isOpen_set (Ne.symm ‹_›)

inductive StopMove (s s' : System) : Prop
  | close (pc : s.life = .atClose .broadcast) (now : s'.life = .atClose .request)
      (closed : isOpen s' .broadcast = false) (joinable : s'.joinable = s.joinable)
  | closeEnds (pc : s.life = .atClose .request) (now : s'.life = .atJoin)
      (before : isOpen s' .broadcast = isOpen s .broadcast) (closed : isOpen s' .request = false)
      (joinable : s'.joinable = s.joinable)
  | join (pc : s.life = .atJoin) (exited : s.worker = .exited) (now : s'.life = .stopped)
      (same : ∀ k, isOpen s' k = isOpen s k) (joined : s'.joinable = false)

theorem Stopping.stop_move (hs : Stopping s) (running : s.life ≠ .stopped)
    (h : s.lifeStep ok = some s') : StopMove s s' ∧ s'.worker = s.worker ∧
      s'.dispatched = s.dispatched := by
  have closing := hs.stage.resolve_right (fun stopped => running stopped.1)
  cases life_move h with
  | close _ pc next =>
    subst next
    refine ⟨.close pc rfl ?_ rfl,rfl,rfl⟩
    exact (close_isOpen s .broadcast .broadcast).trans (if_pos rfl)
  | closeEnds _ pc next =>
    subst next
    refine ⟨.closeEnds pc rfl ?_ ?_ rfl,rfl,rfl⟩
    · exact (close_isOpen s .request .broadcast).trans (if_neg nofun)
    · exact (close_isOpen s .request .request).trans (if_pos rfl)
  | join _ pc exited next =>
    subst next
    exact ⟨.join pc exited rfl (fun _ => rfl) rfl,rfl,rfl⟩
  | _ => simp_all [LifePc.closing]

theorem Stopping.life (hs : Stopping s) (running : s.life ≠ .stopped)
    (h : s.lifeStep ok = some s') : Stopping s' ∧ s'.toStop < s.toStop := by
  have attentive := life_attentive hs.toAttentive h
  obtain ⟨move,worker,-⟩ := hs.stop_move running h
  unfold System.toStop
  rw [worker]
  cases move with
  | close pc now closed joinable =>
    refine ⟨⟨attentive,.inl (by rw [now]; rfl),fun _ => closed,?_⟩,by simp [pc,now,LifePc.toReturn]⟩
    rw [now]
    rintro (done | done) <;> cases done
  | closeEnds pc now before closed joinable =>
    refine ⟨⟨attentive,.inl (by rw [now]; rfl),fun _ => ?_,fun _ => closed⟩,
      by simp [pc,now,LifePc.toReturn]⟩
    exact before.trans (hs.broadcast (by rw [pc]; nofun))
  | join pc exited now same joined =>
    refine ⟨⟨attentive,.inr ⟨now,joined⟩,fun _ => ?_,fun _ => ?_⟩,by simp [pc,now,LifePc.toReturn]⟩
    · exact (same _).trans (hs.broadcast (by rw [pc]; nofun))
    · exact (same _).trans (hs.request (.inl pc))

theorem Stopping.beside (hs : Stopping s) (ha : Attentive s') (hb : Beside s s')
    (hf : Flags s s') : Stopping s' := by
  refine ⟨ha,?_,fun past => ?_,fun past => ?_⟩
  · rw [hb.life,hf.joinable]
    exact hs.stage
  · rw [hb.isOpen]
    exact hs.broadcast (hb.life ▸ past)
  · rw [hb.isOpen]
    exact hs.request (hb.life ▸ past)

theorem worker_leaves (stopped : s.stopRequested = true) (h : s.workerStep outcome = some s') :
    s'.worker.toExit < s.worker.toExit ∧
      s'.dispatched.length + s'.worker.toDispatch ≤ s.dispatched.length + s.worker.toDispatch := by
  unfold System.workerStep at h
  cases hw : s.worker <;> simp only [hw,stopped,Bool.not_true,Bool.and_false] at h
  case exited => cases h
  case atRecv =>
    obtain ⟨⟨m,t⟩,hm,rfl⟩ := Option.map_eq_some_iff.mp h
    obtain ⟨u,rest,-,-,rfl⟩ := takeMessage_some hm
    exact ⟨Nat.lt_succ_self _,Nat.le_refl _⟩
  case atPoll | atReply =>
    obtain rfl := Option.some.inj h
    simp only
    split <;> simp [WorkerPc.toExit,WorkerPc.toDispatch]
  case atDispatch m =>
    obtain rfl := Option.some.inj h
    simp only [List.length_append]
    split <;> simp [WorkerPc.toExit,WorkerPc.toDispatch]
  all_goals
    obtain rfl := Option.some.inj h
    simp [WorkerPc.toExit,WorkerPc.toDispatch]

structure Prompt (s t : System) : Prop where
  kept : s.dispatched <+: t.dispatched
  few : t.dispatched.length + t.worker.toDispatch ≤ s.dispatched.length + s.worker.toDispatch

theorem Prompt.refl (s : System) : Prompt s s := ⟨List.prefix_rfl,Nat.le_refl _⟩

theorem Prompt.trans (h : Prompt s s') (h' : Prompt s' t) : Prompt s t :=
  ⟨h.kept.trans h'.kept,Nat.le_trans h'.few h.few⟩

theorem Prompt.of_same (dispatched : s'.dispatched = s.dispatched) (worker : s'.worker = s.worker) :
    Prompt s s' :=
  ⟨dispatched ▸ List.prefix_rfl,Nat.le_of_eq (by rw [dispatched,worker])⟩

theorem WorkerPc.toDispatch_le (pc : WorkerPc) : pc.toDispatch ≤ 1 := by
  cases pc <;> simp [toDispatch]

theorem Prompt.atMostOne (h : Prompt s t) :
    t.dispatched = s.dispatched ∨ ∃ d, t.dispatched = s.dispatched ++ [d] := by
  have few := h.few
  have room := s.worker.toDispatch_le
  exact Trace.eq_or_snoc_of_prefix h.kept (by omega)

theorem stopping_step (hs : Stopping s) (hC : s.Stops a) (h : step s a = some s') :
    Stopping s' ∧ Prompt s s' ∧ s'.toStop ≤ s.toStop ∧ (a.turn = true → s'.toStop < s.toStop) := by
  have attentive := step_attentive hs.toAttentive h
  cases a with
  | life ok =>
    obtain ⟨-,worker,dispatched⟩ := hs.stop_move hC h
    obtain ⟨stopping,less⟩ := hs.life hC h
    exact ⟨stopping,.of_same dispatched worker,Nat.le_of_lt less,fun _ => less⟩
  | worker outcome =>
    have frame := worker_frame h
    have closing : s.life.closing = true := by
      refine hs.stage.resolve_right (fun stopped => ?_)
      have serving := hs.worker.resolve_left frame.alive
      rw [stopped.1] at serving
      cases serving
    obtain ⟨exit,few⟩ := worker_leaves (hs.flagged closing) h
    have less : s'.toStop < s.toStop := by
      unfold System.toStop
      rw [frame.life]
      omega
    refine ⟨hs.beside attentive frame.toBeside (worker_flags h),⟨?_,few⟩,Nat.le_of_lt less,
      fun _ => less⟩
    rcases frame.dispatched with same | ⟨m,-,appended⟩
    · exact same ▸ List.prefix_rfl
    · exact appended ▸ List.prefix_append _ _
  | call n ok =>
    have frame := (call_move h).1
    refine ⟨hs.beside attentive frame.toBeside (call_flags h),
      .of_same frame.dispatched frame.worker,Nat.le_of_eq ?_,nofun⟩
    rw [System.toStop,System.toStop,frame.life,frame.worker]
  | arrive c data =>
    obtain rfl := Option.some.inj h
    obtain ⟨beside,-,-,worker⟩ := arrive_beside (s := s) (c := c) data
    refine ⟨hs.beside attentive beside (arrive_flags data),.of_same ?_ worker,Nat.le_of_eq ?_,nofun⟩
    · unfold System.arrive
      split
      · rfl
      · split <;> rfl
    · rw [System.toStop,System.toStop,beside.life,worker]

theorem worker_enabled (ha : Attentive s) (alive : s.worker ≠ .exited) (outcome : HandlerOutcome) :
    ∃ s', s.workerStep outcome = some s' := by
  unfold System.workerStep
  cases hw : s.worker
  case exited => exact absurd hw alive
  case atRecv =>
    obtain ⟨m,rest,taken⟩ := List.exists_cons_of_ne_nil (ha.received hw)
    cases ht : s.transports s.workChannel with
    | none => simp [inbox,ht] at taken
    | some t =>
      rw [inbox_of_transport ht] at taken
      simp only [System.takeMessage,ht,taken]
      exact ⟨_,rfl⟩
  case atLoop =>
    simp only
    split
    · exact ⟨_,rfl⟩
    · split <;> exact ⟨_,rfl⟩
  all_goals exact ⟨_,rfl⟩

theorem stop_enabled (closing : s.life.closing = true)
    (joins : s.life = .atJoin → s.worker = .exited) : ∃ s', s.lifeStep true = some s' := by
  unfold System.lifeStep
  cases hl : s.life <;> rw [hl] at closing joins
  case atClose c => cases c <;> exact ⟨_,rfl⟩
  case atJoin => exact ⟨_,if_pos (joins rfl)⟩
  all_goals cases closing

theorem Stopping.turns (hs : Stopping s) (running : s.life ≠ .stopped) :
    ∃ a s', a.turn = true ∧ step s a = some s' := by
  have closing := hs.stage.resolve_right (fun stopped => running stopped.1)
  by_cases exited : s.worker = .exited
  · obtain ⟨s',moved⟩ := stop_enabled closing (fun _ => exited)
    exact ⟨.life true,s',rfl,moved⟩
  · obtain ⟨s',moved⟩ := worker_enabled hs.toAttentive exited (.returns [])
    exact ⟨.worker (.returns []),s',rfl,moved⟩

structure Halted (s : System) : Prop where
  worker : s.worker = .exited
  joinable : s.joinable = false
  closed : ∀ k, isOpen s k = false

theorem Stopping.halted (hs : Stopping s) (stopped : s.life = .stopped) : Halted s := by
  refine ⟨hs.worker.resolve_right (by simp [stopped,LifePc.serving]),?_,fun k => ?_⟩
  · exact (hs.stage.resolve_left (by simp [stopped,LifePc.closing])).2
  · cases k with
    | broadcast => exact hs.broadcast (by simp [stopped])
    | request => exact hs.request (.inr stopped)

theorem zeromq_stop_prompt (isServer hasBroadcast hasRequest : Bool) (as bs : List Action)
    (s t : System)
    (h : Transition.run step (.initial isServer hasBroadcast hasRequest) as = some s)
    (flagged : s.life = .atClose .broadcast) (cond : Transition.Meets step System.Stops s bs)
    (h' : Transition.run step s bs = some t) :
    bs.countP Action.turn ≤ 10 ∧
      (t.life ≠ .stopped → ∃ a u, a.turn = true ∧ step t a = some u) ∧
        (t.life = .stopped → Halted t) ∧
          (t.dispatched = s.dispatched ∨ ∃ d, t.dispatched = s.dispatched ++ [d]) := by
  have stopping : Stopping s := by
    refine ⟨run_attentive h,.inl (by rw [flagged]; rfl),fun past => absurd flagged past,?_⟩
    rw [flagged]
    rintro (past | past) <;> cases past
  obtain ⟨⟨later,prompt⟩,count⟩ := Transition.run_turns_le
    (I := fun u => Stopping u ∧ Prompt s u) Action.turn System.toStop
    (fun u a v hu hC ha => by
      obtain ⟨stopping',prompt,keeps,less⟩ := stopping_step hu.1 hC ha
      exact ⟨⟨stopping',hu.2.trans prompt⟩,keeps,less⟩)
    ⟨stopping,.refl s⟩ cond h'
  refine ⟨?_,later.turns,later.halted,prompt.atMostOne⟩
  have bound : s.toStop ≤ 10 := by
    unfold System.toStop
    rw [flagged]
    cases s.worker <;> simp [LifePc.toReturn,WorkerPc.toExit]
  omega

def untilFlagged : List Action :=
  List.replicate 8 (.life true) ++ [.arrive .request [1],.arrive .request [2]] ++
    [.worker .notSet,.worker .notSet,.life true,.life true]

def untilReturned : List Action :=
  List.replicate 3 (.worker (.returns [3])) ++ [.life true,.life true] ++
    List.replicate 2 (.worker .notSet) ++ [.life true]

theorem zeromq_stop_prompt_polling : ∃ s t,
    Transition.run step (.initial true false true) untilFlagged = some s ∧
      Transition.run step s untilReturned = some t ∧
      t.life = .stopped ∧ t.dispatched = [⟨⟨[1],1⟩,1⟩] ∧
      untilReturned.countP Action.turn ≤ 10 ∧
        (t.life ≠ .stopped → ∃ a u, a.turn = true ∧ step t a = some u) ∧
          (t.life = .stopped → Halted t) ∧
            (t.dispatched = s.dispatched ∨ ∃ d, t.dispatched = s.dispatched ++ [d]) := by
  refine ⟨_,_,rfl,rfl,rfl,rfl,?_⟩
  refine zeromq_stop_prompt true false true untilFlagged untilReturned _ _ rfl rfl ?_ rfl
  exact Transition.meets_of_holdsAlong (P := fun s a => s.life != .stopped) (fun s a running => by
    cases a with
    | life ok => simpa [System.Stops] using running
    | _ => trivial) rfl

end DdsAbstract.ZeroMq.Node
