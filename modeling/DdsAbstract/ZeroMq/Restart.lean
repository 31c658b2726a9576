import DdsAbstract.ZeroMq.Barrier
import DdsAbstract.ZeroMq.Inbox

namespace DdsAbstract.ZeroMq.Node

variable {s s' : System} {ok : Bool} {k c : Channel} {a : Action} {outcome : HandlerOutcome}

def RestartIsolated (s : System) : Prop := ∀ d ∈ s.dispatched, d.entry.period = d.period

def LifePc.pastReset (k : Channel) : LifePc → Bool
  | .atOpen c | .atReset c => k = .broadcast && c = .request
  | .atCreate c | .atBind c => k = .broadcast || c = .request
  | .atSpawn | .atReady | .running | .atFlag | .atClose _ | .atJoin => true
  | _ => false

def InboxFresh (s : System) (k : Channel) : Prop :=
  s.life.pastReset k = true → ∀ m ∈ inbox s k, m.period = s.period

structure OwnPeriod (s : System) : Prop where
  worker : s.worker = .exited ∨ s.life.serving = true
  inbox : InboxFresh s s.workChannel
  carried : ∀ m, s.worker = .atDispatch m → m.period = s.period
  dispatched : RestartIsolated s

theorem life_inbox (h : s.lifeStep ok = some s') (hs : InboxFresh s k) : InboxFresh s' k := by
  cases life_move h with
  | start _ pc next =>
    subst next
    simp [InboxFresh,LifePc.pastReset]
  | absent _ c pc given next | bind c pc next =>
    subst next
    simp only [InboxFresh,pc] at hs ⊢
    cases c <;> cases k <;> simp_all [LifePc.pastReset,inbox,System.afterOpen]
  | exchange _ c t pc given closed next | reset _ c t pc given next | create c t pc given next =>
    subst next
    simp only [InboxFresh,pc] at hs ⊢
    cases c <;> cases k <;>
      simp_all [LifePc.pastReset,inbox,System.setTransport,Function.update]
  | spawn pc next | ready pc next | readyFails pc next | stop _ pc next | flag _ pc next =>
    subst next
    simp only [InboxFresh,pc] at hs ⊢
    exact fun _ => hs rfl
  | close _ pc next | closeEnds _ pc next =>
    subst next
    simp only [InboxFresh,pc] at hs ⊢
    exact fun _ m hm => hs rfl m (close_inbox s _ k ▸ hm)
  | _ =>
    rename_i next
    subst next
    simp [InboxFresh,LifePc.pastReset]

theorem Beside.workChannel (h : Beside s s') : s'.workChannel = s.workChannel := by
  simp only [System.workChannel,h.isServer]

theorem InboxFresh.beside (hs : InboxFresh s k) (h : Beside s s')
    (sub : ∀ m ∈ inbox s' k, m ∈ inbox s k) : InboxFresh s' k := by
  intro hl m hm
  rw [h.life] at hl
  rw [h.period]
  exact hs hl m (sub m hm)

theorem life_ownPeriod (ho : OwnPeriod s) (h : s.lifeStep ok = some s') : OwnPeriod s' := by
  have hf := life_frame h
  have channel : s'.workChannel = s.workChannel := by
    simp only [System.workChannel,hf.isServer]
  refine ⟨life_worker h ho.worker,channel ▸ life_inbox h ho.inbox,?_,?_⟩
  · intro m hm
    rcases hf.worker with hw | hw
    · rw [hw] at hm
      have stop : s.life ≠ .stopped := by
        intro hl
        rcases ho.worker with he | he
        · rw [hm] at he
          cases he
        · rw [hl] at he
          cases he
      rw [hf.period stop]
      exact ho.carried m hm
    · rw [hm] at hw
      cases hw
  · intro d hd
    exact ho.dispatched d (hf.dispatched ▸ hd)

theorem worker_ownPeriod (ho : OwnPeriod s) (h : s.workerStep outcome = some s') :
    OwnPeriod s' := by
  have hf := worker_frame h
  have serving := ho.worker.resolve_left hf.alive
  have fresh : ∀ m ∈ inbox s s.workChannel, m.period = s.period := by
    refine ho.inbox ?_
    cases hl : s.life <;> simp_all [LifePc.serving,LifePc.pastReset]
  refine ⟨.inr (hf.life ▸ serving),?_,?_,?_⟩
  · rw [hf.workChannel]
    exact ho.inbox.beside hf.toBeside (hf.inbox _)
  · intro m hm
    rw [hf.period]
    exact fresh m (hf.carried m hm)
  · intro d hd
    rcases hf.dispatched with same | ⟨m,hw,appended⟩
    · exact ho.dispatched d (same ▸ hd)
    · rw [appended,List.mem_append,List.mem_singleton] at hd
      rcases hd with hd | rfl
      · exact ho.dispatched d hd
      · exact ho.carried m hw

theorem arrive_ownPeriod (ho : OwnPeriod s) (data : DdsBytes) : OwnPeriod (s.arrive c data) := by
  obtain ⟨beside,-,-,hworker⟩ := arrive_beside (s := s) (c := c) data
  have same : (s.arrive c data).dispatched = s.dispatched := by
    unfold System.arrive
    split
    · rfl
    · split <;> rfl
  refine ⟨by rw [hworker,beside.life]; exact ho.worker,?_,?_,?_⟩
  · rw [beside.workChannel]
    intro hl m hm
    rw [beside.life] at hl
    rw [beside.period]
    have old := ho.inbox hl m
    unfold System.arrive at hm
    split at hm
    · exact old hm
    · rename_i t ht
      split at hm
      · by_cases hk : s.workChannel = c
        · rw [hk] at hm
          simp only [inbox,System.setTransport,Function.update_self,Option.elim_some,
            List.mem_append,List.mem_singleton] at hm
          rcases hm with hm | rfl
          · exact old (by rw [hk]; simpa [inbox,ht] using hm)
          · rfl
        · exact old (by simpa [inbox,System.setTransport,hk] using hm)
      · exact old hm
  · intro m hm
    rw [hworker] at hm
    rw [beside.period]
    exact ho.carried m hm
  · intro d hd
    exact ho.dispatched d (same ▸ hd)

theorem call_ownPeriod {n : Nat} (ho : OwnPeriod s) (h : s.callStep n ok = some s') :
    OwnPeriod s' := by
  have hf := (call_move h).1
  refine ⟨by rw [hf.worker,hf.life]; exact ho.worker,?_,?_,?_⟩
  · rw [hf.workChannel]
    exact ho.inbox.beside hf.toBeside (hf.inbox _)
  · intro m hm
    rw [hf.worker] at hm
    rw [hf.period]
    exact ho.carried m hm
  · intro d hd
    exact ho.dispatched d (hf.dispatched ▸ hd)

theorem step_ownPeriod (ho : OwnPeriod s) (h : step s a = some s') : OwnPeriod s' := by
  cases a with
  | life ok => exact life_ownPeriod ho h
  | worker outcome => exact worker_ownPeriod ho h
  | call n ok => exact call_ownPeriod ho h
  | arrive c data =>
    obtain rfl := Option.some.inj h
    exact arrive_ownPeriod ho data

theorem ownPeriod_initial (isServer hasBroadcast hasRequest : Bool) :
    OwnPeriod (.initial isServer hasBroadcast hasRequest) := by
  constructor <;> simp [System.initial,InboxFresh,LifePc.pastReset,RestartIsolated]

theorem run_restartIsolated {isServer hasBroadcast hasRequest : Bool} {as : List Action}
    (h : Transition.run step (.initial isServer hasBroadcast hasRequest) as = some s) :
    RestartIsolated s :=
  (Transition.run_invariant (I := OwnPeriod) (fun _ _ _ ho h => step_ownPeriod ho h)
    (ownPeriod_initial isServer hasBroadcast hasRequest) h).dispatched

end DdsAbstract.ZeroMq.Node
