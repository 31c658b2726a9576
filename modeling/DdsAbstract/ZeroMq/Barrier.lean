import DdsAbstract.ZeroMq.NodeSteps

namespace DdsAbstract.ZeroMq.Node

variable {s s' : System} {n : Nat} {ok : Bool} {k c : Channel} {a : Action}

inductive Thread where
  | caller (n : Nat)
  | worker
  | owner
  deriving DecidableEq, Repr

def WorkerPc.usesSocket : WorkerPc → Bool
  | .atPoll | .atRecv | .atSend => true
  | _ => false

def LifePc.opening (k : Channel) : LifePc → Bool
  | .atReset c | .atCreate c | .atBind c | .atUndo c => c = k
  | _ => false

def LifePc.beforeOpen (k : Channel) : LifePc → Bool
  | .atOpen c => c = k || c = .broadcast
  | .atReset c | .atCreate c | .atBind c => c ≠ k && c = .broadcast
  | _ => false

def Uses (s : System) : Thread → Channel → Prop
  | .caller n, c => c = s.callChannel ∧ (s.calls n).usesSocket = true
  | .worker, c => c = s.workChannel ∧ s.worker.usesSocket = true
  | .owner, c => s.life.opening c = true

structure Barrier (s : System) : Prop where
  quiet : s.life = .stopped → ∀ n, (s.calls n).usesSocket = false
  exclusive : ∀ c t u, Uses s t c → Uses s u c → t = u

def returns (s : System) (ok : Bool) : Bool :=
  match s.life with
  | .atRollback .request => true
  | .atSpawn => !ok
  | .atJoin => s.worker = .exited
  | _ => false

def CallsDrained (s : System) : Action → Prop
  | .life ok => returns s ok = true → ∀ n, (s.calls n).pastCheck = false
  | .call n _ => s.calls n = .atOpenCheck → s.usable s.callChannel = true →
      s.life ≠ .stopped ∧ s.life.opening s.callChannel = false
  | _ => True

def LifePc.admits (k : Channel) (isOpen : Bool) (life : LifePc) : Bool :=
  life ≠ .stopped && !life.opening k && (!life.beforeOpen k || isOpen)

structure Apart (s : System) : Prop where
  worker : s.worker = .exited ∨ s.life.serving = true
  calls : ∀ n, (s.calls n).pastCheck = true → s.life.admits s.callChannel (isOpen s s.callChannel) = true
  mutex : ∀ n, (s.calls n).usesSocket = true → s.mutex = some n

theorem life_admits (h : s.lifeStep ok = some s') (hs : s.life.admits k (isOpen s k) = true) :
    returns s ok = true ∨ s'.life.admits k (isOpen s' k) = true := by
  cases life_move h with
  | start _ pc next =>
    rw [pc] at hs
    cases hs
  | rollbackEnds _ pc next => exact .inl (by simp [returns,pc])
  | spawnFails pc next => exact .inl (by simp [returns,pc])
  | join _ pc exited next => exact .inl (by simp [returns,pc,exited])
  | absent _ c pc given next | bind c pc next =>
    subst next
    right
    cases c <;> cases k <;>
      simp_all [LifePc.admits,LifePc.opening,LifePc.beforeOpen,System.afterOpen,isOpen]
  | exchange _ c t pc given closed next | reset _ c t pc given next | create c t pc given next =>
    subst next
    right
    cases c <;> cases k <;>
      simp_all [LifePc.admits,LifePc.opening,LifePc.beforeOpen,isOpen,System.setTransport,
        Function.update]
  | createFails c pc next | bindFails c pc next =>
    subst next
    right
    cases c <;> cases k <;> simp_all [LifePc.admits,LifePc.opening,LifePc.beforeOpen]
  | _ =>
    rename_i next
    subst next
    exact .inr rfl

theorem Apart.beside (ha : Apart s) (h : Beside s s') (hc : s'.calls = s.calls)
    (hm : s'.mutex = s.mutex) (hw : s'.worker = .exited ∨ s'.life.serving = true) : Apart s' := by
  refine ⟨hw,?_,?_⟩
  · intro n hn
    rw [hc] at hn
    rw [h.callChannel,h.life,h.isOpen]
    exact ha.calls n hn
  · intro n hn
    rw [hc] at hn
    rw [hm]
    exact ha.mutex n hn

theorem call_apart (ha : Apart s) (hC : CallsDrained s (.call n ok))
    (h : s.callStep n ok = some s') : Apart s' := by
  obtain ⟨⟨beside,hworker,others,-,-⟩,move⟩ := call_move h
  have admitted (m : Nat) (hm : (s.calls m).pastCheck = true) :
      s'.life.admits s'.callChannel (isOpen s' s'.callChannel) = true := by
    rw [beside.callChannel,beside.life,beside.isOpen]
    exact ha.calls m hm
  refine ⟨by rw [hworker,beside.life]; exact ha.worker,?_,?_⟩
  · intro m hm
    by_cases hmn : m = n
    · subst hmn
      cases move with
      | before past free mutex =>
        rw [past] at hm
        cases hm
      | passes was now usable mutex =>
        obtain ⟨hstop,hopening⟩ := hC was usable
        rw [beside.callChannel,beside.life,beside.isOpen]
        simp [LifePc.admits,hstop,hopening,isOpen_of_usable usable]
      | locks was now free mutex => exact admitted m (by rw [was]; rfl)
      | continues was now mutex => exact admitted m (pastCheck_of_usesSocket was)
      | leaves was now mutex =>
        rw [now] at hm
        cases hm
    · rw [others m hmn] at hm
      exact admitted m hm
  · intro m hm
    by_cases hmn : m = n
    · subst hmn
      cases move with
      | before past free mutex =>
        rw [pastCheck_of_usesSocket hm] at past
        cases past
      | passes was now usable mutex =>
        rw [now] at hm
        cases hm
      | locks was now free mutex => exact mutex
      | continues was now mutex => exact mutex.trans (ha.mutex m was)
      | leaves was now mutex =>
        rw [now] at hm
        cases hm
    · rw [others m hmn] at hm
      have held := ha.mutex m hm
      have only (hn : (s.calls n).usesSocket = true) : m = n :=
        Option.some.inj (held.symm.trans (ha.mutex n hn))
      cases move with
      | before past free mutex => exact mutex.trans held
      | passes was now usable mutex => exact mutex.trans held
      | locks was now free mutex =>
        rw [held] at free
        cases free
      | continues was now mutex => exact mutex.trans held
      | leaves was now mutex => exact absurd (only was) hmn

theorem life_apart (ha : Apart s) (hC : CallsDrained s (.life ok))
    (h : s.lifeStep ok = some s') : Apart s' := by
  have hf := life_frame h
  have channel : s'.callChannel = s.callChannel := by
    simp only [System.callChannel,hf.isServer]
  refine ⟨life_worker h ha.worker,?_,?_⟩
  · intro n hn
    rw [hf.calls] at hn
    rw [channel]
    rcases life_admits h (ha.calls n hn) with hret | hadmits
    · rw [hC hret n] at hn
      cases hn
    · exact hadmits
  · intro n hn
    rw [hf.calls] at hn
    rw [hf.mutex]
    exact ha.mutex n hn

theorem step_apart (ha : Apart s) (hC : CallsDrained s a) (h : step s a = some s') : Apart s' := by
  cases a with
  | life ok => exact life_apart ha hC h
  | worker outcome =>
    obtain ⟨beside,hcalls,hmutex,hworker,-,-,-⟩ := worker_frame h
    refine ha.beside beside hcalls hmutex (.inr ?_)
    rw [beside.life]
    exact ha.worker.resolve_left hworker
  | call n ok => exact call_apart ha hC h
  | arrive c data =>
    obtain rfl := Option.some.inj h
    obtain ⟨beside,hcalls,hmutex,hworker⟩ := arrive_beside (s := s) (c := c) data
    exact ha.beside beside hcalls hmutex (by rw [hworker,beside.life]; exact ha.worker)

theorem apart_initial (isServer hasBroadcast hasRequest : Bool) :
    Apart (.initial isServer hasBroadcast hasRequest) := by
  constructor <;> simp [System.initial,CallPc.pastCheck,CallPc.usesSocket]

theorem Apart.quiet (ha : Apart s) (h : s.life = .stopped) (n : Nat) :
    (s.calls n).usesSocket = false := by
  cases hu : (s.calls n).usesSocket with
  | false => rfl
  | true =>
    have := ha.calls n (pastCheck_of_usesSocket hu)
    rw [h] at this
    cases this

theorem Apart.caller_owner (ha : Apart s) (hu : Uses s (.caller n) c) (ho : Uses s .owner c) :
    False := by
  obtain ⟨rfl,hu⟩ := hu
  have admits := ha.calls n (pastCheck_of_usesSocket hu)
  have opening : s.life.opening s.callChannel = true := ho
  simp [LifePc.admits,opening] at admits

theorem Apart.worker_owner (ha : Apart s) (hu : Uses s .worker c) (ho : Uses s .owner c) :
    False := by
  have opening : s.life.opening c = true := ho
  rcases ha.worker with hw | hw
  · have used := hu.2
    rw [hw] at used
    cases used
  · cases hl : s.life <;> simp_all [LifePc.opening,LifePc.serving]

theorem caller_worker (hu : Uses s (.caller n) c) (hw : Uses s .worker c) : False := by
  obtain ⟨rfl,-⟩ := hu
  have same := hw.1
  cases hs : s.isServer <;> simp [System.callChannel,System.workChannel,hs] at same

theorem Apart.barrier (ha : Apart s) : Barrier s := by
  refine ⟨ha.quiet,?_⟩
  intro c t u ht hu
  cases t with
  | caller n =>
    cases u with
    | caller m =>
      have hn := ha.mutex n ht.2
      rw [ha.mutex m hu.2] at hn
      rw [Option.some.inj hn]
    | worker => exact (caller_worker ht hu).elim
    | owner => exact (ha.caller_owner ht hu).elim
  | worker =>
    cases u with
    | caller m => exact (caller_worker hu ht).elim
    | worker => rfl
    | owner => exact (ha.worker_owner ht hu).elim
  | owner =>
    cases u with
    | caller m => exact (ha.caller_owner hu ht).elim
    | worker => exact (ha.worker_owner hu ht).elim
    | owner => rfl

theorem zeromq_stop_barrier (isServer hasBroadcast hasRequest : Bool) (as : List Action)
    (s : System)
    (drained : Transition.Meets step CallsDrained
      (.initial isServer hasBroadcast hasRequest) as)
    (h : Transition.run step (.initial isServer hasBroadcast hasRequest) as = some s) :
    Barrier s :=
  (Transition.run_invariant_of_meets (I := Apart) (fun _ _ _ ha hC h => step_apart ha hC h)
    (apart_initial isServer hasBroadcast hasRequest) drained h).barrier

def callsDrained (s : System) : Action → Bool
  | .life ok => !returns s ok
  | .call n _ => s.calls n ≠ .atOpenCheck ||
      s.life ≠ .stopped && !s.life.opening s.callChannel
  | _ => true

theorem callsDrained_sound (s : System) (a : Action) (h : callsDrained s a = true) :
    CallsDrained s a := by
  cases a with
  | life ok =>
    intro hret
    simp [callsDrained,hret] at h
  | call n ok =>
    intro hc _
    simpa [callsDrained,hc] using h
  | _ => trivial

def started : List Action := List.replicate 8 (.life true)

def requestAnswered : List Action :=
  List.replicate 5 (.call 0 true) ++ [.arrive .request [1],.call 0 true,.call 0 true]

def stopping : List Action := List.replicate 4 (.life true) ++ [.worker .notSet]

theorem zeromq_stop_barrier_answered : ∃ s,
    Transition.run step (.initial false false true)
      (started ++ requestAnswered ++ stopping ++ [.life true]) = some s ∧ Barrier s := by
  refine ⟨_,rfl,zeromq_stop_barrier false false true
    (started ++ requestAnswered ++ stopping ++ [.life true]) _ ?_ rfl⟩
  refine Transition.meets_append (Transition.meets_of_holdsAlong callsDrained_sound rfl) ?_
  intro t ht
  obtain rfl := Option.some.inj ht
  refine ⟨fun _ n => ?_,fun _ _ => trivial⟩
  cases n <;> rfl

def requestPolling : List Action := List.replicate 5 (.call 0 true)

theorem zeromq_stop_barrier_counterexample :
    ¬ ∀ (isServer hasBroadcast hasRequest : Bool) (as : List Action) (s : System),
      Transition.run step (.initial isServer hasBroadcast hasRequest) as = some s → Barrier s := by
  intro h
  have reopened := h false false true
    (started ++ requestPolling ++ stopping ++ List.replicate 4 (.life true)) _ rfl
  have same := reopened.exclusive .request (.caller 0) .owner ⟨rfl,rfl⟩ rfl
  cases same

end DdsAbstract.ZeroMq.Node
