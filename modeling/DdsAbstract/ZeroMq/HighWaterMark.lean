import DdsAbstract.ZeroMq.LateReply

namespace DdsAbstract.ZeroMq.Dealer

variable {s s' : System} {a : Action} {as : List Action} {hwm : Nat}

-- The steps of the call that holds `request_mutex_`; `timeout` is always open to an empty inbox.
def Action.ofCall : Action → Bool
  | .send | .timeout | .receive => true
  | _ => false

def Unblocked (s : System) : Prop :=
  ∀ call data, s.current = .sending call data → s.outgoing.length < s.hwm

def Governed (s : System) : Prop :=
  ∃ as t, (∀ a ∈ as, a.ofCall = true) ∧ as.length ≤ 2 ∧ Transition.run step s as = some t ∧
    t.current = .idle

def NeverBlocks (s : System) (as : List Action) : Prop :=
  ∀ before after t, as = before ++ after → Transition.run step s before = some t →
    Unblocked t ∧ Governed t

def FindsRoom (s : System) : Action → Prop
  | .request _ => s.current = .idle → s.outgoing.length < s.hwm
  | _ => True

theorem poll_ends {call : Nat} {data : DdsBytes} (h : s.current = .polling call data) :
    ∃ a t, a.ofCall = true ∧ step s a = some t ∧ t.current = .idle := by
  cases hi : s.inbox with
  | nil => exact ⟨.timeout,_,rfl,by simp only [step,h,hi]; rfl,rfl⟩
  | cons response rest => exact ⟨.receive,_,rfl,by simp only [step,h,hi]; rfl,rfl⟩

theorem governed_of_unblocked (h : Unblocked s) : Governed s := by
  cases hc : s.current with
  | idle => exact ⟨[],s,by simp,by simp,rfl,hc⟩
  | polling call data =>
    obtain ⟨a,t,ha,ht,hidle⟩ := poll_ends hc
    exact ⟨[a],t,by simpa using ha,by simp,Transition.run_single ht,hidle⟩
  | sending call data =>
    have sent : step s .send = some { s with
        current := .polling call data
        outgoing := s.outgoing ++ [⟨call,data⟩] } := by
      simp only [step,hc,if_pos (h call data hc)]
    obtain ⟨a,t,ha,ht,hidle⟩ := poll_ends (s := { s with
      current := .polling call data
      outgoing := s.outgoing ++ [⟨call,data⟩] }) rfl
    exact ⟨[.send,a],t,by simpa [Action.ofCall] using ha,by simp,
      Transition.run_cons_iff.mpr ⟨_,sent,Transition.run_single ht⟩,hidle⟩

theorem step_unblocked (hs : Unblocked s) (hC : FindsRoom s a) (h : step s a = some s') :
    Unblocked s' := by
  cases step_move h with
  | request data idle next =>
    subst next
    intro call message _
    exact hC idle
  | send call data pc room next =>
    subst next
    intro call message hc
    cases hc
  | take q rest queue next =>
    subst next
    intro call message hc
    have room := hs call message hc
    rw [queue,List.length_cons] at room
    exact Nat.lt_of_succ_lt room
  | drop outcome q rest queue threw next =>
    subst next
    exact hs
  | answer outcome q rest response queue answered next =>
    subst next
    exact hs
  | deliver r rest queue next =>
    subst next
    exact hs
  | timeout call data pc empty next =>
    subst next
    intro call message hc
    cases hc
  | receive call data r rest pc queue next =>
    subst next
    intro call message hc
    cases hc

theorem request_step (data : DdsBytes) (idle : s.current = .idle) :
    step s (.request data) = some { s with
      current := .sending s.started data
      started := s.started + 1 } := by
  simp only [step,idle]

theorem findsRoom_of_unblocked (h : ∀ t, step s a = some t → Unblocked t) : FindsRoom s a := by
  cases a with
  | request data =>
    intro idle
    have unblocked := h _ (request_step data idle)
    exact unblocked s.started data rfl
  | _ => trivial

theorem meets_of_neverBlocks (h : NeverBlocks s as) : Transition.Meets step FindsRoom s as := by
  induction as generalizing s with
  | nil => trivial
  | cons a as ih =>
    refine ⟨?_,?_⟩
    · refine findsRoom_of_unblocked (fun t ht => ?_)
      exact (h [a] as t rfl (Transition.run_single ht)).1
    · intro t ht
      refine ih (fun before after u hsplit hu => ?_)
      exact h (a :: before) after u (by rw [hsplit,List.cons_append])
        (Transition.run_cons_iff.mpr ⟨t,ht,hu⟩)

theorem neverBlocks_of_meets (hs : Unblocked s) (h : Transition.Meets step FindsRoom s as) :
    NeverBlocks s as := by
  rintro before after t rfl ht
  have meets := Transition.meets_of_append h
  have unblocked := Transition.run_invariant_of_meets
    (fun _ _ _ hi hC ha => step_unblocked hi hC ha) hs meets ht
  exact ⟨unblocked,governed_of_unblocked unblocked⟩

theorem never_blocks_iff (hwm : Nat) (as : List Action) :
    NeverBlocks (initial hwm) as ↔ Transition.Meets step FindsRoom (initial hwm) as :=
  ⟨meets_of_neverBlocks,neverBlocks_of_meets (fun _ _ hc => by cases hc)⟩

def abandoned : Nat → List Action
  | 0 => []
  | n + 1 => abandoned n ++ [.request [],.send,.timeout]

theorem abandoned_fills {n : Nat} (h : n ≤ hwm) : ∃ s,
    Transition.run step (initial hwm) (abandoned n) = some s ∧ s.hwm = hwm ∧ s.current = .idle ∧
      s.inbox = [] ∧ s.outgoing.length = n := by
  induction n with
  | zero => exact ⟨_,rfl,rfl,rfl,rfl,rfl⟩
  | succ n ih =>
    obtain ⟨s,hrun,hhwm,hidle,hinbox,hlen⟩ := ih (Nat.le_of_succ_le h)
    let sent : System := { s with
      current := .idle
      started := s.started + 1
      outgoing := s.outgoing ++ [⟨s.started,[]⟩]
      timedOut := s.timedOut ++ [s.started] }
    refine ⟨sent,Transition.run_trans hrun ?_,hhwm,rfl,hinbox,by simp [sent,hlen]⟩
    have room : s.outgoing.length < s.hwm := by omega
    simp only [Transition.run,step,hidle,Option.bind_some,if_pos room,hinbox,sent]

theorem never_blocks_counterexample :
    ¬ ∃ hwm, 1 ≤ hwm ∧ ∀ as, NeverBlocks (initial hwm) as := by
  rintro ⟨hwm,-,h⟩
  obtain ⟨s,hrun,hhwm,hidle,-,hlen⟩ := abandoned_fills (Nat.le_refl hwm)
  have unblocked := (h (abandoned hwm ++ [.request []]) _ [] _ (List.append_nil _).symm
    (Transition.run_trans hrun (Transition.run_single (request_step [] hidle)))).1
  have room := unblocked s.started [] rfl
  simp only [hlen,hhwm,Nat.lt_irrefl] at room

end DdsAbstract.ZeroMq.Dealer
