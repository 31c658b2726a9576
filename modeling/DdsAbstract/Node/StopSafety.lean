import DdsAbstract.Node.Stop

namespace DdsAbstract.Node.Stop

variable {s s' : System} {a : Action}

def StopPc.pastCheck : StopPc → Bool
  | .atFlag => true
  | .atClose => true
  | .atJoin => true
  | .atCheck => false
  | .outside => false

def SingleStop (s : System) : Action → Prop
  | .stop t => t ≠ .worker ∧
      (s.stops t = .atCheck → s.joinable = true → ∀ u, (s.stops u).pastCheck = false)
  | .worker _ _ => True

structure JoinedOnce (s : System) : Prop where
  running : s.terminated = false
  once : s.joinedBy.length = if s.joinable then 0 else 1
  other : Thread.worker ∉ s.joinedBy

def CanJoin (s : System) : Prop :=
  ∃ bs t, Transition.run step s bs = some t ∧ JoinedOnce t ∧ t.joinable = false

structure StopSafe (s : System) : Prop extends JoinedOnce s where
  ends : ∀ t, (s.stops t).pastCheck = true → CanJoin s

structure Invariant (s : System) : Prop extends JoinedOnce s where
  workerOutside : s.stops .worker = .outside
  joinable : ∀ t, (s.stops t).pastCheck = true → s.joinable = true
  unique : ∀ t u, (s.stops t).pastCheck = true → (s.stops u).pastCheck = true → t = u
  requested : ∀ t, s.stops t = .atClose ∨ s.stops t = .atJoin → s.stopRequested = true

theorem Invariant.others {t : Thread} (h : Invariant s) (ht : (s.stops t).pastCheck = true) :
    ∀ u, u ≠ t → (s.stops u).pastCheck = false := by
  intro u hu
  cases hp : (s.stops u).pastCheck with
  | false => rfl
  | true => exact absurd (h.unique u t hp ht) hu

theorem Invariant.set {t : Thread} {pc : StopPc} {requested isOpen : Bool} (h : Invariant s)
    (ht : t ≠ .worker)
    (past : pc.pastCheck = true →
      s.joinable = true ∧ ∀ u, u ≠ t → (s.stops u).pastCheck = false)
    (keeps : s.stopRequested = true → requested = true)
    (asks : pc = .atClose ∨ pc = .atJoin → requested = true) :
    Invariant (System.setStop { s with stopRequested := requested, isOpen := isOpen } t pc) := by
  refine ⟨⟨h.running,h.once,h.other⟩,?_,?_,?_,?_⟩ <;> simp only [System.setStop]
  · rw [Function.update_of_ne ht.symm]
    exact h.workerOutside
  · intro u hu
    rw [Function.update_apply] at hu
    split at hu
    · exact (past hu).1
    · exact h.joinable u hu
  · intro u v hu hv
    rw [Function.update_apply] at hu hv
    split at hu <;> split at hv
    · rename_i hut hvt
      rw [hut,hvt]
    · rename_i hvt
      rw [(past hu).2 v hvt] at hv
      cases hv
    · rename_i hut _
      rw [(past hv).2 u hut] at hu
      cases hu
    · exact h.unique u v hu hv
  · intro u hu
    rw [Function.update_apply] at hu
    split at hu
    · exact asks hu
    · exact keeps (h.requested u hu)

theorem Invariant.join {t : Thread} (h : Invariant s) (ht : t ≠ .worker)
    (hpc : s.stops t = .atJoin) :
    Invariant (System.setStop
      { s with joinable := false, joinedBy := s.joinedBy ++ [t] } t .outside) := by
  have past : (s.stops t).pastCheck = true := by rw [hpc]; rfl
  have once := h.once
  rw [h.joinable t past] at once
  have none : s.joinedBy = [] := List.length_eq_zero_iff.mp once
  have clear : ∀ u, (Function.update s.stops t StopPc.outside u).pastCheck = false := by
    intro u
    rw [Function.update_apply]
    split
    · rfl
    · exact h.others past u ‹_›
  refine ⟨⟨h.running,?_,?_⟩,?_,?_,?_,?_⟩ <;> simp only [System.setStop]
  · simp [none]
  · simp [none,ht.symm]
  · rw [Function.update_of_ne ht.symm]
    exact h.workerOutside
  · intro u hu
    rw [clear u] at hu
    cases hu
  · intro u v hu
    rw [clear u] at hu
    cases hu
  · intro u hu
    rw [Function.update_apply] at hu
    split at hu
    · rcases hu with hu | hu <;> cases hu
    · exact h.requested u hu

theorem stopStep_invariant {t : Thread} (h : Invariant s) (hC : SingleStop s (.stop t))
    (ha : s.stopStep t = some s') : Invariant s' := by
  obtain ⟨ht,single⟩ := hC
  unfold System.stopStep at ha
  cases hpc : s.stops t <;> simp only [hpc] at ha
  case outside =>
    split at ha
    · obtain rfl := Option.some.inj ha
      exact h.set ht (by simp [StopPc.pastCheck]) id (by simp)
    · cases ha
  case atCheck =>
    obtain rfl := Option.some.inj ha
    cases hj : s.joinable with
    | false => exact h.set ht (by simp [StopPc.pastCheck]) id (by simp)
    | true => exact h.set ht (fun _ => ⟨hj,fun u _ => single hpc hj u⟩) id (by simp)
  case atFlag =>
    obtain rfl := Option.some.inj ha
    have past : (s.stops t).pastCheck = true := by rw [hpc]; rfl
    exact h.set ht (fun _ => ⟨h.joinable t past,h.others past⟩) (fun _ => rfl) (fun _ => rfl)
  case atClose =>
    obtain rfl := Option.some.inj ha
    have past : (s.stops t).pastCheck = true := by rw [hpc]; rfl
    exact h.set ht (fun _ => ⟨h.joinable t past,h.others past⟩) id
      (fun _ => h.requested t (.inl hpc))
  case atJoin =>
    have joins := h.joinable t (by rw [hpc]; rfl)
    simp only [ht,joins,decide_false,Bool.not_true,Bool.or_false,Bool.false_eq_true,
      if_false] at ha
    split at ha
    · obtain rfl := Option.some.inj ha
      exact h.join ht hpc
    · cases ha

theorem workerStep_some {received : Received} {ok : Bool}
    (ha : s.workerStep received ok = some s') : ∃ pc, s' = { s with worker := pc } := by
  unfold System.workerStep at ha
  split at ha
  · obtain ⟨pc,-,rfl⟩ := Option.map_eq_some_iff.mp ha
    exact ⟨pc,rfl⟩
  · cases ha

theorem step_invariant (h : Invariant s) (hC : SingleStop s a) (ha : step s a = some s') :
    Invariant s' := by
  simp only [step,h.running,Bool.false_eq_true,if_false] at ha
  cases a with
  | stop t => exact stopStep_invariant h hC ha
  | worker received ok =>
    obtain ⟨pc,rfl⟩ := workerStep_some ha
    exact ⟨⟨h.running,h.once,h.other⟩,h.workerOutside,h.joinable,h.unique,h.requested⟩

def WorkerPc.stepsToExit : WorkerPc → Nat
  | .exited => 0
  | .atLoop => 1
  | .inHandler .request => 3
  | _ => 2

theorem worker_exits (h : Invariant s) (hr : s.stopRequested = true) :
    Transition.run step s (List.replicate s.worker.stepsToExit (.worker .nothing true)) =
      some { s with worker := .exited } := by
  have outside := h.workerOutside
  have running := h.running
  cases hpc : s.worker with
  | exited =>
    have same : s = { s with worker := .exited } := by rw [← hpc]
    exact congrArg some same
  | inHandler handler =>
    cases handler <;>
      simp [WorkerPc.stepsToExit,List.replicate,Transition.run,step,System.workerStep,
        System.nextWorker,outside,running,hpc,hr]
  | _ =>
    simp [WorkerPc.stepsToExit,List.replicate,Transition.run,step,System.workerStep,
      System.nextWorker,outside,running,hpc,hr]

theorem canJoin_atJoin {t : Thread} (h : Invariant s) (ht : t ≠ .worker)
    (hpc : s.stops t = .atJoin) : CanJoin s := by
  have joins := h.joinable t (by rw [hpc]; rfl)
  have exits := worker_exits h (h.requested t (.inr hpc))
  have exited : Invariant { s with worker := .exited } :=
    ⟨⟨h.running,h.once,h.other⟩,h.workerOutside,h.joinable,h.unique,h.requested⟩
  have joined := exited.join ht hpc
  refine ⟨_,_,Transition.run_trans exits (Transition.run_single (a := .stop t) ?_),
    joined.toJoinedOnce,rfl⟩
  simp [step,h.running,System.stopStep,hpc,ht,joins,System.setStop]

theorem CanJoin.after (ha : step s a = some s') (h : CanJoin s') : CanJoin s := by
  obtain ⟨bs,t,hrun,hjoined,hj⟩ := h
  exact ⟨a :: bs,t,Transition.run_cons_iff.mpr ⟨s',ha,hrun⟩,hjoined,hj⟩

theorem canJoin_next {t : Thread} {pc : StopPc} (h : Invariant s) (ht : t ≠ .worker)
    (hpc : (s.stops t).pastCheck = true) (ha : s.stopStep t = some s')
    (next : ∀ {r : System}, Invariant r → r.stops t = pc → CanJoin r) (hs : s'.stops t = pc) :
    CanJoin s := by
  have invariant : Invariant s' := by
    refine stopStep_invariant h ⟨ht,fun hcheck => ?_⟩ ha
    rw [hcheck] at hpc
    cases hpc
  refine CanJoin.after (a := .stop t) ?_ (next invariant hs)
  simpa [step,h.running] using ha

theorem canJoin_of_pastCheck {t : Thread} (h : Invariant s) (past : (s.stops t).pastCheck = true) :
    CanJoin s := by
  have ht : t ≠ .worker := by
    rintro rfl
    rw [h.workerOutside] at past
    cases past
  have close {r : System} (hr : Invariant r) (hpc : r.stops t = .atClose) : CanJoin r :=
    canJoin_next hr ht (by rw [hpc]; rfl) (by rw [System.stopStep,hpc])
      (fun hi hj => canJoin_atJoin hi ht hj) (by simp [System.setStop])
  cases hpc : s.stops t with
  | atJoin => exact canJoin_atJoin h ht hpc
  | atClose => exact close h hpc
  | atFlag =>
    exact canJoin_next h ht past (by rw [System.stopStep,hpc]) close (by simp [System.setStop])
  | atCheck => rw [hpc] at past; cases past
  | outside => rw [hpc] at past; cases past

theorem invariant_started : Invariant .started := by
  constructor <;> simp [System.started,StopPc.pastCheck]
  exact ⟨rfl,rfl,List.not_mem_nil⟩

theorem node_stop_safe (as : List Action) (s : System)
    (single : Transition.Meets step SingleStop .started as)
    (h : Transition.run step .started as = some s) : StopSafe s := by
  have hi : Invariant s := Transition.run_invariant_of_meets (I := Invariant)
    (fun _ _ _ hi hC ha => step_invariant hi hC ha) invariant_started single h
  exact ⟨hi.toJoinedOnce,fun t past => canJoin_of_pastCheck hi past⟩

def singleStop (s : System) : Action → Bool
  | .stop t => t ≠ .worker && (s.stops t ≠ .atCheck || !s.joinable)
  | .worker _ _ => true

theorem singleStop_sound (s : System) (a : Action) (h : singleStop s a = true) :
    SingleStop s a := by
  cases a with
  | stop t =>
    simp only [singleStop,Bool.and_eq_true,decide_eq_true_eq,Bool.or_eq_true,Bool.not_eq_true'] at h
    refine ⟨h.1,fun hcheck hjoinable => ?_⟩
    rcases h.2 with hne | hnot
    · exact absurd hcheck hne
    · rw [hnot] at hjoinable
      cases hjoinable
  | worker received ok => trivial

def stoppedTwice : List Action :=
  List.replicate 4 (.stop (.app 0)) ++ [.worker .nothing true,.stop (.app 0)] ++
    List.replicate 2 (.stop (.app 1)) ++ List.replicate 2 (.stop (.app 0))

theorem node_stop_safe_twice : ∃ s,
    Transition.run step .started stoppedTwice = some s ∧ s.joinedBy = [.app 0] ∧ StopSafe s := by
  refine ⟨_,rfl,rfl,node_stop_safe stoppedTwice _ ?_ rfl⟩
  refine ⟨⟨by decide,by simp [System.started]⟩,fun s hs => ?_⟩
  obtain rfl := Option.some.inj hs
  refine ⟨⟨by decide,fun _ _ u => ?_⟩,fun s hs => ?_⟩
  · simp only [System.setStop,System.started,Function.update_apply]
    split <;> rfl
  · obtain rfl := Option.some.inj hs
    exact Transition.meets_of_holdsAlong (P := singleStop) singleStop_sound rfl

def handlerStops : List Action :=
  [.worker .nothing true,.worker (.message .request) true] ++
    List.replicate 5 (.stop .worker)

theorem node_stop_safe_counterexample :
    ¬ ∀ (as : List Action) (s : System), Transition.run step .started as = some s →
      StopSafe s := by
  intro h
  have running := (h handlerStops _ rfl).running
  cases running

-- Two threads are past the check; the second `join` finds the worker joined already.
example : ((Transition.run step .started ([.stop (.app 0),.stop (.app 1),.stop (.app 0),
    .stop (.app 1),.stop (.app 0),.stop (.app 1),.stop (.app 0),.stop (.app 1),
    .worker .nothing true,.stop (.app 0),.stop (.app 1)])).map (·.terminated)) = some true := rfl

end DdsAbstract.Node.Stop
