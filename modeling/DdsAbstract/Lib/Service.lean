import Mathlib.Logic.Function.Basic
import DdsAbstract.Lib.Transition

namespace Service

variable {C T P R E : Type*}

-- A ticket is one delivery of a call to one server.
@[ext] structure State (C T P R E : Type*) where
  sent : C → Option P
  offered : T → Option C
  executed : T → List (P × Option R)
  result : C → Option (Except E R)

inductive Action (C T P R E : Type*) where
  | send (call : C) (payload : P)
  | offer (ticket : T) (call : C)
  | execute (ticket : T) (response : Option R)
  | answer (call : C) (ticket : T)
  | fail (call : C) (error : E)

def State.initial : State C T P R E := ⟨fun _ => none,fun _ => none,fun _ => [],fun _ => none⟩

variable {s t : State C T P R E}

structure Faithful (s : State C T P R E) : Prop where
  offered : ∀ ticket call, s.offered ticket = some call → ∃ payload, s.sent call = some payload
  once : ∀ ticket, (s.executed ticket).length ≤ 1
  executed : ∀ ticket, ∀ x ∈ s.executed ticket,
    ∃ call, s.offered ticket = some call ∧ s.sent call = some x.1
  answered : ∀ call response, s.result call = some (.ok response) → ∃ ticket payload,
    s.offered ticket = some call ∧ s.sent call = some payload ∧
      s.executed ticket = [(payload,some response)]

structure Extends (s t : State C T P R E) : Prop where
  sent : ∀ call payload, s.sent call = some payload → t.sent call = some payload
  offered : ∀ ticket call, s.offered ticket = some call → t.offered ticket = some call
  executed : ∀ ticket, s.executed ticket <+: t.executed ticket
  result : ∀ call x, s.result call = some x → t.result call = some x

theorem Extends.refl (s : State C T P R E) : Extends s s :=
  ⟨fun _ _ h => h,fun _ _ h => h,fun _ => List.prefix_rfl,fun _ _ h => h⟩

theorem faithful_initial : Faithful (.initial : State C T P R E) := by
  refine ⟨nofun,fun _ => Nat.zero_le 1,nofun,nofun⟩

theorem Faithful.kept (h : Faithful s) (hx : Extends s t)
    (offered : ∀ ticket call, t.offered ticket = some call → s.offered ticket = some call ∨
      ∃ payload, t.sent call = some payload)
    (executed : ∀ ticket, t.executed ticket = s.executed ticket ∨
      ∃ x call, t.executed ticket = [x] ∧ t.offered ticket = some call ∧ t.sent call = some x.1)
    (answered : ∀ call response, t.result call = some (.ok response) →
      s.result call = some (.ok response) ∨ ∃ ticket payload, t.offered ticket = some call ∧
        t.sent call = some payload ∧ t.executed ticket = [(payload,some response)]) :
    Faithful t := by
  have once (ticket : T) : (t.executed ticket).length ≤ 1 := by
    rcases executed ticket with same | ⟨x,call,single,-,-⟩
    · exact same ▸ h.once ticket
    · exact Nat.le_of_eq (congrArg List.length single)
  refine ⟨?_,once,?_,?_⟩
  · intro ticket call ht
    rcases offered ticket call ht with before | now
    · obtain ⟨payload,hp⟩ := h.offered ticket call before
      exact ⟨payload,hx.sent call payload hp⟩
    · exact now
  · intro ticket x ht
    rcases executed ticket with same | ⟨y,call,single,hc,hp⟩
    · obtain ⟨call,hc,hp⟩ := h.executed ticket x (same ▸ ht)
      exact ⟨call,hx.offered ticket call hc,hx.sent call x.1 hp⟩
    · rw [single,List.mem_singleton] at ht
      exact ⟨call,hc,ht ▸ hp⟩
  · intro call response ht
    rcases answered call response ht with before | now
    · obtain ⟨ticket,payload,hc,hp,he⟩ := h.answered call response before
      refine ⟨ticket,payload,hx.offered ticket call hc,hx.sent call payload hp,?_⟩
      have kept := hx.executed ticket
      rw [he] at kept
      exact (kept.eq_of_length_le (once ticket)).symm
    · exact now

variable [DecidableEq C] [DecidableEq T]

def step (s : State C T P R E) : Action C T P R E → Option (State C T P R E)
  | .send call payload =>
    match s.sent call with
    | none => some { s with sent := Function.update s.sent call (some payload) }
    | some _ => none
  | .offer ticket call =>
    match s.offered ticket,s.sent call with
    | none,some _ => some { s with offered := Function.update s.offered ticket (some call) }
    | _,_ => none
  | .execute ticket response =>
    match s.offered ticket,s.executed ticket with
    | some call,[] => (s.sent call).map (fun payload =>
        { s with executed := Function.update s.executed ticket [(payload,response)] })
    | _,_ => none
  | .answer call ticket =>
    match s.result call,s.executed ticket with
    | none,[(_,some response)] =>
      if s.offered ticket = some call then
        some { s with result := Function.update s.result call (some (.ok response)) }
      else none
    | _,_ => none
  | .fail call error =>
    match s.result call with
    | none => some { s with result := Function.update s.result call (some (.error error)) }
    | some _ => none

variable {a : Action C T P R E} {as : List (Action C T P R E)}
  {call : C} {ticket : T} {payload : P} {response : R} {error : E}

inductive Move (s t : State C T P R E) : Prop
  | send (call : C) (payload : P) (fresh : s.sent call = none)
      (now : t = { s with sent := Function.update s.sent call (some payload) })
  | offer (ticket : T) (call : C) (payload : P) (fresh : s.offered ticket = none)
      (sent : s.sent call = some payload)
      (now : t = { s with offered := Function.update s.offered ticket (some call) })
  | execute (ticket : T) (call : C) (payload : P) (response : Option R)
      (offered : s.offered ticket = some call) (fresh : s.executed ticket = [])
      (sent : s.sent call = some payload)
      (now : t = { s with executed := Function.update s.executed ticket [(payload,response)] })
  | answer (call : C) (ticket : T) (payload : P) (response : R) (fresh : s.result call = none)
      (offered : s.offered ticket = some call)
      (executed : s.executed ticket = [(payload,some response)])
      (now : t = { s with result := Function.update s.result call (some (.ok response)) })
  | fail (call : C) (error : E) (fresh : s.result call = none)
      (now : t = { s with result := Function.update s.result call (some (.error error)) })

theorem step_move (h : step s a = some t) : Move s t := by
  cases a with
  | send call payload =>
    simp only [step] at h
    split at h
    · exact .send call payload ‹_› (Option.some.inj h).symm
    · cases h
  | offer ticket call =>
    simp only [step] at h
    split at h
    · rename_i fresh sent
      exact .offer ticket call _ fresh sent (Option.some.inj h).symm
    · cases h
  | execute ticket response =>
    simp only [step] at h
    split at h
    · rename_i call offered fresh
      obtain ⟨payload,sent,rfl⟩ := Option.map_eq_some_iff.mp h
      exact .execute ticket call payload response offered fresh sent rfl
    · cases h
  | answer call ticket =>
    simp only [step] at h
    split at h
    · rename_i fresh executed
      simp only [Option.ite_none_right_eq_some,Option.some.injEq] at h
      exact .answer call ticket _ _ fresh h.1 executed h.2.symm
    · cases h
  | fail call error =>
    simp only [step] at h
    split at h
    · exact .fail call error ‹_› (Option.some.inj h).symm
    · cases h

theorem update_extends {K V : Type*} [DecidableEq K] {f : K → Option V} {k : K} {v : V}
    (fresh : f k = none) (j : K) (x : V) (h : f j = some x) :
    Function.update f k (some v) j = some x := by
  by_cases hj : j = k
  · subst hj
    rw [fresh] at h
    cases h
  · rw [Function.update_of_ne hj]
    exact h

theorem step_extends (h : step s a = some t) : Extends s t := by
  cases step_move h with
  | send call payload fresh now =>
    subst now
    exact ⟨update_extends fresh,fun _ _ h => h,fun _ => List.prefix_rfl,fun _ _ h => h⟩
  | offer ticket call payload fresh sent now =>
    subst now
    exact ⟨fun _ _ h => h,update_extends fresh,fun _ => List.prefix_rfl,fun _ _ h => h⟩
  | execute ticket call payload response offered fresh sent now =>
    subst now
    refine ⟨fun _ _ h => h,fun _ _ h => h,fun j => ?_,fun _ _ h => h⟩
    by_cases hj : j = ticket
    · subst hj
      rw [fresh]
      exact List.nil_prefix
    · have same : Function.update s.executed ticket [(payload,response)] j = s.executed j :=
        Function.update_of_ne hj ..
      exact same.symm ▸ List.prefix_rfl
  | answer call ticket payload response fresh offered executed now =>
    subst now
    exact ⟨fun _ _ h => h,fun _ _ h => h,fun _ => List.prefix_rfl,update_extends fresh⟩
  | fail call error fresh now =>
    subst now
    exact ⟨fun _ _ h => h,fun _ _ h => h,fun _ => List.prefix_rfl,update_extends fresh⟩

theorem mem_update {K V : Type*} [DecidableEq K] {f : K → Option V} {k j : K} {v x : V}
    (h : Function.update f k (some v) j = some x) : f j = some x ∨ j = k ∧ x = v := by
  by_cases hj : j = k
  · subst hj
    rw [Function.update_self] at h
    exact .inr ⟨rfl,(Option.some.inj h).symm⟩
  · rw [Function.update_of_ne hj] at h
    exact .inl h

theorem step_faithful (hf : Faithful s) (h : step s a = some t) : Faithful t := by
  have hx := step_extends h
  cases step_move h with
  | send call payload fresh now =>
    subst now
    exact hf.kept hx (fun _ _ h => .inl h) (fun _ => .inl rfl) (fun _ _ h => .inl h)
  | offer ticket call payload fresh sent now =>
    subst now
    refine hf.kept hx (fun j x hj => ?_) (fun _ => .inl rfl) (fun _ _ h => .inl h)
    rcases mem_update hj with before | ⟨-,rfl⟩
    · exact .inl before
    · exact .inr ⟨payload,sent⟩
  | execute ticket call payload response offered fresh sent now =>
    subst now
    refine hf.kept hx (fun _ _ h => .inl h) (fun j => ?_) (fun _ _ h => .inl h)
    by_cases hj : j = ticket
    · subst hj
      exact .inr ⟨(payload,response),call,Function.update_self ..,offered,sent⟩
    · exact .inl (Function.update_of_ne hj ..)
  | answer call ticket payload response fresh offered executed now =>
    subst now
    refine hf.kept hx (fun _ _ h => .inl h) (fun _ => .inl rfl) (fun j x hj => ?_)
    rcases mem_update hj with before | ⟨rfl,same⟩
    · exact .inl before
    · obtain rfl := Except.ok.inj same
      obtain ⟨own,hown,sent⟩ := hf.executed ticket _ (executed ▸ List.mem_singleton_self _)
      obtain rfl := Option.some.inj (offered.symm.trans hown)
      exact .inr ⟨ticket,payload,offered,sent,executed⟩
  | fail call error fresh now =>
    subst now
    refine hf.kept hx (fun _ _ h => .inl h) (fun _ => .inl rfl) (fun j x hj => ?_)
    rcases mem_update hj with before | ⟨-,same⟩
    · exact .inl before
    · cases same

theorem run_faithful (h : Transition.run step .initial as = some s) : Faithful s :=
  Transition.run_invariant (I := Faithful) (fun _ _ _ hi hs => step_faithful hi hs)
    faithful_initial h

theorem run_extends (h : Transition.run step s as = some t) : Extends s t := by
  refine Transition.run_invariant (I := Extends s) (fun u a v hu hs => ?_) (.refl s) h
  have hx := step_extends hs
  exact ⟨fun c p h => hx.sent c p (hu.sent c p h),fun c p h => hx.offered c p (hu.offered c p h),
    fun ticket => (hu.executed ticket).trans (hx.executed ticket),
    fun c p h => hx.result c p (hu.result c p h)⟩

end Service
