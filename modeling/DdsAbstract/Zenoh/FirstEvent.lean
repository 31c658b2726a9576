import DdsAbstract.Lib.Trace
import DdsAbstract.Transport.Timeout
import DdsAbstract.Zenoh.ClientRequest

namespace DdsAbstract.Zenoh.Client

variable {s s' t : System} {a : Action} {as : List Action} {r : Nat} {c c' : RequestCall}
  {seen : List ReplyEvent} {first : Option ReplyEvent} {requester ok timedOut : Bool}

def verdict : Option ReplyEvent → Except RequestError DdsBytes
  | none => .error (.runtime "Zenoh request timed out".toList)
  | some (.replyOk payload) => .ok payload
  | some (.replyErr []) | some .done =>
    .error (.runtime "Zenoh query completed without a reply".toList)
  | some (.replyErr text) => .error (.runtime ("Zenoh reply error: ".toList ++ text))

def eventOn (r : Nat) : Action → Option ReplyEvent
  | .callback q event => if q = r then some event else none
  | _ => none

def firstEvent (r : Nat) (as : List Action) : Option ReplyEvent := (as.filterMap (eventOn r)).head?

def RequestCall.DecidingCheck (c : RequestCall) : Prop :=
  ∃ timedOut, c.pc = .atCheck timedOut ∧ (c.state.done = true ∨ timedOut = true)

def RequestPc.undecided : RequestPc → Bool
  | .idle | .atGet | .atLock | .atCheck _ | .inWait => true
  | _ => false

def RequestPc.accepting : RequestPc → Bool
  | .atError | .atValue | .ended (.ok _) => true
  | _ => false

def received : Option ReplyEvent → ClientReply
  | none => .initial
  | some event => ClientReply.initial.receive event

theorem receive_absorbs (event later : ReplyEvent) :
    (ClientReply.initial.receive event).receive later = ClientReply.initial.receive event := by
  cases event <;> cases later <;> rfl

theorem foldl_receive (events : List ReplyEvent) :
    events.foldl ClientReply.receive .initial = received events.head? := by
  rw [Trace.foldl_of_absorbs receive_absorbs]
  cases events <;> rfl

theorem received_done : (received first).done = first.isSome := by
  cases first with
  | none => rfl
  | some event => cases event <;> rfl

theorem verdict_ok_iff {payload : DdsBytes} :
    verdict first = .ok payload ↔ first = some (.replyOk payload) := by
  rcases first with _ | ⟨payload⟩ | ⟨_ | _⟩ | _ <;> simp [verdict]

inductive CallMove (c c' : RequestCall) : Option ReplyEvent → Prop
  | rests (same : c' = c) : CallMove c c' none
  | moves (requester ok timedOut : Bool) (moved : c.step requester ok timedOut = some c') :
    CallMove c c' none
  | receives (event : ReplyEvent) (queried : c.queried = true) (free : c.pc.holdsMutex = false)
    (now : c' = { c with state := c.state.receive event }) : CallMove c c' (some event)

theorem step_call (h : step s a = some s') (r : Nat) :
    CallMove (s.calls r) (s'.calls r) (eventOn r a) := by
  cases a with
  | request q ok timedOut =>
    obtain ⟨c,hc,rfl⟩ := Option.map_eq_some_iff.mp h
    by_cases hq : q = r
    · subst hq
      exact .moves s.requester ok timedOut (by simpa [System.setCall] using hc)
    · exact .rests (by simp [System.setCall,Ne.symm hq])
  | callback q event =>
    obtain ⟨c,hc,rfl⟩ := Option.map_eq_some_iff.mp h
    by_cases hq : q = r
    · subst hq
      simp only [RequestCall.receive,Bool.and_eq_true,Bool.not_eq_true',
        Option.ite_none_right_eq_some,Option.some.injEq] at hc
      obtain ⟨⟨queried,free⟩,rfl⟩ := hc
      rw [eventOn,if_pos rfl]
      exact .receives event queried free (by simp [System.setCall])
    · rw [eventOn,if_neg hq]
      exact .rests (by simp [System.setCall,Ne.symm hq])
  | configure isServer isOpen requestKey =>
    obtain rfl := Option.some.inj h
    exact .rests rfl

structure Followed (seen : List ReplyEvent) (c : RequestCall) : Prop where
  fresh : c.pc = .idle → c.queried = false
  silent : c.queried = false → seen = []
  state : c.pc.undecided = true → c.state = seen.foldl .receive .initial

theorem step_followed (h : Followed seen c) (hs : c.step requester ok timedOut = some c') :
    Followed seen c' := by
  obtain ⟨fresh,silent,state⟩ := h
  unfold RequestCall.step at hs
  cases hpc : c.pc <;> simp only [hpc] at hs fresh state
  case idle =>
    have nothing := silent (fresh trivial)
    split at hs <;> obtain rfl := Option.some.inj hs
    · exact ⟨nofun,nofun,fun _ => by rw [nothing]; rfl⟩
    · exact ⟨nofun,silent,nofun⟩
  case atGet =>
    obtain rfl := Option.some.inj hs
    cases ok
    · exact ⟨nofun,silent,nofun⟩
    · exact ⟨nofun,silent,fun _ => state rfl⟩
  case atLock | inWait =>
    obtain rfl := Option.some.inj hs
    exact ⟨nofun,silent,fun _ => state rfl⟩
  case atCheck late =>
    split at hs
    · obtain rfl := Option.some.inj hs
      exact ⟨nofun,silent,nofun⟩
    · split at hs <;> obtain rfl := Option.some.inj hs
      · exact ⟨nofun,silent,nofun⟩
      · exact ⟨nofun,silent,fun _ => state rfl⟩
  case atError | atValue =>
    split at hs <;> obtain rfl := Option.some.inj hs <;> exact ⟨nofun,silent,nofun⟩
  case ended => cases hs

theorem move_followed {event : Option ReplyEvent} (h : Followed seen c)
    (hm : CallMove c c' event) : Followed (seen ++ event.toList) c' := by
  cases hm with
  | rests same =>
    rw [same,Option.toList_none,List.append_nil]
    exact h
  | moves requester ok timedOut moved =>
    rw [Option.toList_none,List.append_nil]
    exact step_followed h moved
  | receives event queried free now =>
    subst now
    refine ⟨h.fresh,fun hq => ?_,fun hu => ?_⟩
    · rw [queried] at hq
      cases hq
    · rw [Option.toList_some,List.foldl_append,← h.state hu]
      rfl

theorem run_followed (r : Nat) (h : Transition.run step .initial as = some s) :
    Followed (as.filterMap (eventOn r)) (s.calls r) := by
  refine Transition.run_traced (J := fun as s => Followed (as.filterMap (eventOn r)) (s.calls r))
    ?_ ⟨fun _ => rfl,fun _ => rfl,fun _ => rfl⟩ h
  intro as s a t hf ht
  have moved := move_followed hf (step_call ht r)
  rw [List.filterMap_append]
  cases he : eventOn r a <;> simpa [he] using moved

inductive Settling (first : Option ReplyEvent) (c : RequestCall) : Prop
  | checking (late : Bool) (pc : c.pc = .atCheck late) (state : c.state = received first)
    (decides : first.isSome = true ∨ late = true)
  | atError (pc : c.pc = .atError) (state : c.state = received first) (present : first.isSome = true)
  | atValue (pc : c.pc = .atValue) (state : c.state = received first) (present : first.isSome = true)
    (noError : c.state.error = [])
  | ended (pc : c.pc = .ended (verdict first))

theorem settling_of_check (h : Followed seen c) (hc : c.DecidingCheck) :
    Settling seen.head? c := by
  obtain ⟨late,hpc,decides⟩ := hc
  have state : c.state = received seen.head? := by
    rw [h.state (by rw [hpc]; rfl),foldl_receive]
  rw [state,received_done] at decides
  exact .checking late hpc state decides

def RequestPc.remaining : RequestPc → Nat
  | .atCheck _ => 3
  | .atError => 2
  | .atValue => 1
  | _ => 0

theorem settling_step (h : Settling first c) (requester ok timedOut : Bool) :
    (c.pc = .ended (verdict first) ∧ c.step requester ok timedOut = none) ∨
      ∃ c', c.step requester ok timedOut = some c' ∧ Settling first c' ∧
        c'.pc.remaining < c.pc.remaining := by
  cases h with
  | checking late pc state decides =>
    refine .inr ?_
    simp only [RequestCall.step,pc]
    by_cases hsome : first.isSome = true
    · have done : c.state.done = true := by rw [state,received_done,hsome]
      exact ⟨_,if_pos done,.atError rfl state hsome,by simp [RequestPc.remaining]⟩
    · have waiting : ¬ c.state.done = true := by rwa [state,received_done]
      obtain rfl : first = none := by simpa using hsome
      exact ⟨_,by rw [if_neg waiting,if_pos (decides.resolve_left hsome)],.ended rfl,
        by simp [RequestPc.remaining]⟩
  | atError pc state present =>
    refine .inr ?_
    simp only [RequestCall.step,pc]
    by_cases herror : c.state.error = []
    · exact ⟨_,if_neg (not_not_intro herror),.atValue rfl state present herror,
        by simp [RequestPc.remaining]⟩
    · refine ⟨_,if_pos herror,.ended ?_,by simp [RequestPc.remaining]⟩
      rw [state] at herror ⊢
      rcases first with _ | ⟨payload⟩ | ⟨_ | ⟨letter,text⟩⟩ | _
      · cases present
      · exact absurd rfl herror
      · exact absurd rfl herror
      · rfl
      · exact absurd rfl herror
  | atValue pc state present noError =>
    refine .inr ?_
    simp only [RequestCall.step,pc,state]
    rw [state] at noError
    rcases first with _ | ⟨payload⟩ | ⟨_ | ⟨letter,text⟩⟩ | _
    · cases present
    · exact ⟨_,rfl,.ended rfl,Nat.one_pos⟩
    · exact ⟨_,rfl,.ended rfl,Nat.one_pos⟩
    · cases noError
    · exact ⟨_,rfl,.ended rfl,Nat.one_pos⟩
  | ended pc => exact .inl ⟨pc,by simp only [RequestCall.step,pc]⟩

theorem move_settling {event : Option ReplyEvent} (h : Settling first c)
    (hm : CallMove c c' event) : Settling first c' := by
  cases hm with
  | rests same => exact same ▸ h
  | moves requester ok timedOut moved =>
    rcases settling_step h requester ok timedOut with ⟨-,stuck⟩ | ⟨next,hnext,settling,-⟩
    · rw [stuck] at moved
      cases moved
    · rw [hnext] at moved
      exact Option.some.inj moved ▸ settling
  | receives event queried free now =>
    subst now
    cases h with
    | checking late pc state decides | atError pc state present | atValue pc state present noError =>
      rw [pc] at free
      cases free
    | ended pc => exact .ended pc

theorem run_settling (h : Settling first (s.calls r)) (ht : Transition.run step s as = some t) :
    Settling first (t.calls r) :=
  Transition.run_invariant (I := fun u => Settling first (u.calls r))
    (fun _ _ _ hi ha => move_settling hi (step_call ha r)) h ht

theorem settling_outcome {outcome : Except RequestError DdsBytes} (h : Settling first c)
    (hpc : c.pc = .ended outcome) : outcome = verdict first := by
  cases h with
  | checking late pc state decides | atError pc state present | atValue pc state present noError =>
    rw [pc] at hpc
    cases hpc
  | ended pc =>
    rw [pc] at hpc
    exact (RequestPc.ended.inj hpc).symm

theorem settling_ends {n : Nat} (ok timedOut : Bool) (h : Settling first (s.calls r))
    (hn : (s.calls r).pc.remaining ≤ n) : ∃ k ≤ n, ∃ t,
      Transition.run step s (List.replicate k (.request r ok timedOut)) = some t ∧
        (t.calls r).pc = .ended (verdict first) := by
  induction n generalizing s with
  | zero =>
    refine ⟨0,Nat.le_refl 0,s,rfl,?_⟩
    rcases settling_step h s.requester ok timedOut with ⟨ended,-⟩ | ⟨c,-,-,less⟩
    · exact ended
    · omega
  | succ n ih =>
    rcases settling_step h s.requester ok timedOut with ⟨ended,-⟩ | ⟨c,hc,settling,less⟩
    · exact ⟨0,Nat.zero_le _,s,rfl,ended⟩
    · have hs : step s (.request r ok timedOut) = some (s.setCall r c) := by
        rw [step,hc,Option.map_some]
      have now : (s.setCall r c).calls r = c := Function.update_self ..
      obtain ⟨k,hk,t,ht,ended⟩ := ih (now.symm ▸ settling) (by rw [now]; omega)
      exact ⟨k + 1,by omega,t,Transition.run_cons_iff.mpr ⟨_,hs,ht⟩,ended⟩

theorem check_of_accepting (hs : c.step requester ok timedOut = some c')
    (before : ¬ c.pc.accepting = true) (after : c'.pc.accepting = true) : c.DecidingCheck := by
  unfold RequestCall.step at hs
  cases hpc : c.pc <;> simp only [hpc] at hs before
  case atCheck late =>
    split at hs
    · rename_i hdone
      exact ⟨late,hpc,.inl hdone⟩
    · split at hs <;> obtain rfl := Option.some.inj hs <;> cases after
  case idle => split at hs <;> obtain rfl := Option.some.inj hs <;> cases after
  case atGet => cases ok <;> obtain rfl := Option.some.inj hs <;> cases after
  case atLock | inWait =>
    obtain rfl := Option.some.inj hs
    cases after
  case atError | atValue => exact absurd rfl before
  case ended => cases hs

def shown : Except RequestError DdsBytes → Option RequestOutcome
  | .ok payload => some (.returns payload)
  | .error (.logic what) | .error (.runtime what) => some (.throws what)
  | .error .zenoh => none

theorem timed_request_verdict {now : Int} {timeout : Milliseconds} {limit : Nat}
    (hlimit : waitLimit now timeout = some limit) (events : List (Nat × ReplyEvent)) :
    shown (verdict ((events.head?.filter (·.1 ≤ limit)).map (·.2))) =
      some (Zenoh.request now timeout events) := by
  cases events with
  | nil => rw [request_silent hlimit]; rfl
  | cons head rest =>
    obtain ⟨time,event⟩ := head
    unfold Zenoh.request
    rw [hlimit]
    by_cases hin : time ≤ limit
    · simp only [waitFor_first hin,List.head?_cons,Option.filter_some,hin,decide_true,if_true,
        Option.map_some]
      rcases event with payload | ⟨_ | _⟩ | _ <;> rfl
    · simp only [waitFor_late hin,List.head?_cons,Option.filter_some,hin,decide_false,
        Bool.false_eq_true,if_false,Option.map_none]
      rfl

def DecidesAfter (r : Nat) (before as : List Action) : Prop :=
  before <+: as ∧ ∃ m, Transition.run step .initial before = some m ∧ (m.calls r).DecidingCheck

structure TakesFirst (r : Nat) (before : List Action) (s : System) : Prop where
  returns : ∀ outcome, (s.calls r).pc = .ended outcome →
    ∀ payload, outcome = .ok payload ↔ firstEvent r before = some (.replyOk payload)
  throws : ∀ outcome, (s.calls r).pc = .ended outcome →
    (∀ payload, firstEvent r before ≠ some (.replyOk payload)) → ∃ error, outcome = .error error
  result : ∀ outcome, (s.calls r).pc = .ended outcome → outcome = verdict (firstEvent r before)
  ends : ∀ ok timedOut, ∃ k ≤ 3, ∃ t,
    Transition.run step s (List.replicate k (.request r ok timedOut)) = some t ∧
      (t.calls r).pc = .ended (verdict (firstEvent r before))

theorem takesFirst_of_settling {before : List Action}
    (h : Settling (firstEvent r before) (s.calls r)) : TakesFirst r before s := by
  refine ⟨?_,?_,fun _ => settling_outcome h,?_⟩
  · intro outcome hpc payload
    rw [settling_outcome h hpc,verdict_ok_iff]
  · intro outcome hpc hno
    cases outcome with
    | ok payload => exact absurd (verdict_ok_iff.mp (settling_outcome h hpc).symm) (hno payload)
    | error error => exact ⟨error,rfl⟩
  · intro ok timedOut
    refine settling_ends ok timedOut h ?_
    cases (s.calls r).pc <;> simp [RequestPc.remaining]

theorem accepting_decided (h : Transition.run step .initial as = some s)
    (ha : (s.calls r).pc.accepting = true) : ∃ before, DecidesAfter r before as := by
  obtain ⟨before,a,after,m,u,rfl,hm,hu,hnot,hyes⟩ :=
    Transition.run_crosses (Q := fun s => (s.calls r).pc.accepting = true)
      Bool.false_ne_true ha h
  refine ⟨before,⟨a :: after,rfl⟩,m,hm,?_⟩
  have move := step_call hu r
  generalize eventOn r a = event at move
  cases move with
  | rests same => exact absurd (same ▸ hyes) hnot
  | moves requester ok timedOut moved => exact check_of_accepting moved hnot hyes
  | receives event queried free now =>
    rw [now] at hyes
    exact absurd hyes hnot

theorem settling_of_decides {before : List Action}
    (h : Transition.run step .initial as = some s) (hd : DecidesAfter r before as) :
    Settling (firstEvent r before) (s.calls r) := by
  obtain ⟨⟨after,rfl⟩,m,hm,hcheck⟩ := hd
  obtain ⟨u,hu,hrest⟩ := Transition.run_append_iff.mp h
  obtain rfl := Option.some.inj (hm.symm.trans hu)
  exact run_settling (settling_of_check (run_followed r hm) hcheck) hrest

theorem request_takes_first_event (as : List Action) (s : System) (r : Nat)
    (h : Transition.run step .initial as = some s) :
    (∀ before, DecidesAfter r before as → TakesFirst r before s) ∧
      ∀ payload, (s.calls r).pc = .ended (.ok payload) →
        ∃ before, DecidesAfter r before as ∧ firstEvent r before = some (.replyOk payload) := by
  refine ⟨fun before hd => takesFirst_of_settling (settling_of_decides h hd),?_⟩
  intro payload hpc
  obtain ⟨before,hd⟩ := accepting_decided h (by rw [hpc]; rfl)
  have same := settling_outcome (settling_of_decides h hd) hpc
  exact ⟨before,hd,verdict_ok_iff.mp same.symm⟩

def twoQueries : List Action :=
  [.configure false true ['k'],.request 0 true false,.request 1 true false,.request 0 true false,
    .request 1 true false,.request 0 true false,.request 0 true false,.callback 1 (.replyErr []),
    .callback 0 (.replyOk []),.callback 0 (.replyErr ['e']),.callback 1 (.replyOk [1]),
    .callback 0 .done,.callback 1 .done,.request 0 true false,.request 1 true false] ++
    List.replicate 3 (.request 0 true false) ++ List.replicate 3 (.request 1 true false)

theorem request_takes_first_event_empty : ∃ s,
    Transition.run step .initial twoQueries = some s ∧ (s.calls 0).pc = .ended (.ok []) ∧
      (∃ before, DecidesAfter 0 before twoQueries ∧ firstEvent 0 before = some (.replyOk [])) ∧
        TakesFirst 1 (twoQueries.take 18) s :=
  ⟨_,rfl,rfl,(request_takes_first_event twoQueries _ 0 rfl).2 [] rfl,
    (request_takes_first_event twoQueries _ 1 rfl).1 (twoQueries.take 18)
      ⟨List.take_prefix _ _,_,rfl,false,rfl,.inl rfl⟩⟩

end DdsAbstract.Zenoh.Client
