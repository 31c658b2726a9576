import DdsAbstract.Rpc.System
import DdsAbstract.Zenoh.Correlation

namespace DdsAbstract.Rpc

variable {payload : Nat × Nat → DdsBytes} {s s' : System} {a : Action}

def Reached (s : Zenoh.System) : Prop :=
  ∃ as, Transition.run Zenoh.step (.initial true) as = some s

theorem Reached.step {s s' : Zenoh.System} {a : Zenoh.Action} (h : Reached s)
    (hs : Zenoh.step s a = some s') : Reached s' := by
  obtain ⟨as,run⟩ := h
  exact ⟨as ++ [a],Transition.run_trans run (Transition.run_single hs)⟩

structure QueriesKept (s s' : Zenoh.System) : Prop where
  payload : ∀ k, k < s.arrived → (s'.callbacks k).payload = (s.callbacks k).payload
  replies : ∀ k, k < s.arrived → ∀ value ∈ (s.callbacks k).replies,
    value ∈ (s'.callbacks k).replies

theorem server_kept {s s' : Zenoh.System} {a : Zenoh.Action} (h : Zenoh.step s a = some s') :
    QueriesKept s s' := by
  have same (kept : ∀ j, Zenoh.CallbackKept (s.callbacks j) (s'.callbacks j)) : QueriesKept s s' :=
    ⟨fun k _ => (kept k).payload,fun k _ value hv => (kept k).replies ▸ hv⟩
  cases a with
  | callback j ok =>
    have frame := Zenoh.callback_frame h
    refine ⟨(Zenoh.callback_stable h).payload,fun k _ value hv => ?_⟩
    by_cases hk : k = j
    · subst hk
      cases Zenoh.callback_move h with
      | reply sent pc pc' held pending queue he hr => exact hr ▸ List.mem_cons_of_mem _ hv
      | quiet pc pending queue he hr | insert pc pending queue he hr
      | push pc pc' pending queue he hr | erase pc pc' pending queue he hr => exact hr ▸ hv
    · exact frame.others k hk ▸ hv
  | worker timedOut outcome => exact same (Zenoh.worker_kept h)
  | close c pick => exact same (Zenoh.close_kept h)
  | arrive payload =>
    obtain rfl := Option.some.inj h
    refine ⟨(Zenoh.arrive_stable payload).payload,fun k hk value hv => ?_⟩
    rw [(Zenoh.arrive_frame payload).others k (by omega)]
    exact hv
  | openTransport o ok =>
    obtain ⟨isOpen,openers,opens,he⟩ := Zenoh.openStep_fields (s := s) o ok
    obtain rfl := Option.some.inj h
    rw [he] at same ⊢
    exact same fun _ => .refl _
  | requestStop | clearStop =>
    obtain rfl := Option.some.inj h
    exact same fun _ => .refl _
  | startWorker =>
    obtain ⟨-,rfl⟩ := Zenoh.startWorker_some h
    exact same fun _ => .refl _

theorem server_arrived {s s' : Zenoh.System} {a : Zenoh.Action} (h : Zenoh.step s a = some s')
    (quiet : ∀ value, a ≠ .arrive value) : s'.arrived = s.arrived := by
  cases a with
  | callback k ok => exact (Zenoh.callback_frame h).arrived
  | worker timedOut outcome => exact (Zenoh.worker_frame h).arrived
  | close c pick => exact (Zenoh.close_frame h).arrived
  | arrive payload => exact absurd rfl (quiet payload)
  | openTransport o ok =>
    obtain ⟨isOpen,openers,opens,he⟩ := Zenoh.openStep_fields (s := s) o ok
    obtain rfl := Option.some.inj h
    rw [he]
  | requestStop | clearStop =>
    obtain rfl := Option.some.inj h
    rfl
  | startWorker =>
    obtain ⟨-,rfl⟩ := Zenoh.startWorker_some h
    rfl

inductive ClientMove (t t' : Zenoh.Client.System) (a : Zenoh.Client.Action) : Prop
  | configure (same : t'.calls = t.calls)
  | moves (r : Nat) (requester ok timedOut : Bool)
      (moved : (t.calls r).step requester ok timedOut = some (t'.calls r))
      (others : ∀ q, q ≠ r → t'.calls q = t.calls q)
  | receives (r : Nat) (event : Zenoh.ReplyEvent) (was : a = .callback r event)
      (now : t'.calls r = { t.calls r with state := (t.calls r).state.receive event })
      (others : ∀ q, q ≠ r → t'.calls q = t.calls q)

theorem client_move {t t' : Zenoh.Client.System} {a : Zenoh.Client.Action}
    (h : Zenoh.Client.step t a = some t') : ClientMove t t' a := by
  cases a with
  | request r ok timedOut =>
    obtain ⟨c,hc,rfl⟩ := Option.map_eq_some_iff.mp h
    exact .moves r t.requester ok timedOut (by simpa [Zenoh.Client.System.setCall] using hc)
      (fun q hq => by simp [Zenoh.Client.System.setCall,hq])
  | callback r event =>
    obtain ⟨c,hc,rfl⟩ := Option.map_eq_some_iff.mp h
    simp only [Zenoh.Client.RequestCall.receive,Option.ite_none_right_eq_some,
      Option.some.injEq] at hc
    exact .receives r event rfl (by simp [Zenoh.Client.System.setCall,hc.2])
      (fun q hq => by simp [Zenoh.Client.System.setCall,hq])
  | configure isServer isOpen requestKey =>
    obtain rfl := Option.some.inj h
    exact .configure rfl

def result : Zenoh.Client.RequestPc → Option (Except Zenoh.Client.RequestError DdsBytes)
  | .ended outcome => some outcome
  | _ => none

inductive CallEffect (c c' : Zenoh.Client.RequestCall) : Prop
  | quiet (started : c'.pc ≠ .idle) (queried : c'.queried = c.queried)
      (results : result c'.pc = result c.pc) (value : c'.state.value = c.state.value)
  | sends (fresh : c.pc = .idle) (started : c'.pc ≠ .idle) (queried : c'.queried = true)
      (before : result c.pc = none) (after : result c'.pc = none) (value : c'.state.value = none)
  | ends (outcome : Except Zenoh.Client.RequestError DdsBytes) (queried : c'.queried = c.queried)
      (before : result c.pc = none) (now : result c'.pc = some outcome)
      (held : ∀ value, outcome = .ok value → c.state.value = some value)

theorem call_effect {c c' : Zenoh.Client.RequestCall} {requester ok timedOut : Bool}
    (h : c.step requester ok timedOut = some c') : CallEffect c c' := by
  unfold Zenoh.Client.RequestCall.step at h
  cases hpc : c.pc <;> simp only [hpc] at h
  case ended => cases h
  all_goals have before : result c.pc = none := by rw [hpc]; rfl
  case idle =>
    split at h <;> obtain rfl := Option.some.inj h
    · exact .sends hpc nofun rfl before rfl rfl
    · exact .ends _ rfl before rfl nofun
  case atGet =>
    obtain rfl := Option.some.inj h
    cases ok
    · exact .ends _ rfl before rfl nofun
    · exact .quiet nofun rfl before.symm rfl
  case atLock | inWait =>
    obtain rfl := Option.some.inj h
    exact .quiet nofun rfl before.symm rfl
  case atCheck late =>
    split at h
    · obtain rfl := Option.some.inj h
      exact .quiet nofun rfl before.symm rfl
    · split at h <;> obtain rfl := Option.some.inj h
      · exact .ends _ rfl before rfl nofun
      · exact .quiet nofun rfl before.symm rfl
  case atError =>
    split at h <;> obtain rfl := Option.some.inj h
    · exact .ends _ rfl before rfl nofun
    · exact .quiet nofun rfl before.symm rfl
  case atValue =>
    split at h
    · obtain rfl := Option.some.inj h
      exact .ends _ rfl before rfl nofun
    · rename_i value held
      obtain rfl := Option.some.inj h
      refine .ends _ rfl before rfl ?_
      rintro _ ⟨⟩
      exact held

inductive ClientStep (s s' : System) (c : Nat) (a : Zenoh.Client.Action) : Prop
  | rests (same : ∀ call, s'.callOf call = s.callOf call)
  | moves (r : Nat) (effect : CallEffect (s.callOf (c,r)) (s'.callOf (c,r)))
      (others : ∀ call, call ≠ (c,r) → s'.callOf call = s.callOf call)
  | receives (r : Nat) (event : Zenoh.ReplyEvent) (was : a = .callback r event)
      (now : s'.callOf (c,r) = { s.callOf (c,r) with
        state := (s.callOf (c,r)).state.receive event })
      (others : ∀ call, call ≠ (c,r) → s'.callOf call = s.callOf call)

theorem client_step {c : Nat} {a : Zenoh.Client.Action} {t : Zenoh.Client.System}
    (h : Zenoh.Client.step (s.clients c) a = some t) : ClientStep s (s.setClient c t) c a := by
  have own (r : Nat) : (s.setClient c t).callOf (c,r) = t.calls r := by
    simp [System.setClient,System.callOf]
  have apart {r : Nat} (others : ∀ q, q ≠ r → t.calls q = (s.clients c).calls q)
      (call : Nat × Nat) (hc : call ≠ (c,r)) : (s.setClient c t).callOf call = s.callOf call := by
    obtain ⟨d,q⟩ := call
    by_cases hd : d = c
    · subst hd
      rw [own]
      exact others q (fun hq => hc (by rw [hq]))
    · simp [System.setClient,System.callOf,hd]
  cases client_move h with
  | configure same =>
    refine .rests fun call => ?_
    obtain ⟨d,q⟩ := call
    by_cases hd : d = c
    · subst hd
      rw [own,same]
      rfl
    · simp [System.setClient,System.callOf,hd]
  | moves r requester ok timedOut moved others =>
    exact .moves r (own r ▸ call_effect moved) (apart others)
  | receives r event was now others =>
    exact .receives r event was (by rw [own,now]; rfl) (apart others)

structure Sound (payload : Nat × Nat → DdsBytes) (s : System) : Prop where
  servers : ∀ i, Reached (s.servers i)
  payload : ∀ i k, k < (s.servers i).arrived →
    ((s.servers i).callbacks k).payload = some (payload (s.origin i k))
  queried : ∀ i k, k < (s.servers i).arrived → (s.callOf (s.origin i k)).queried = true
  fresh : ∀ call, (s.callOf call).pc = .idle → (s.callOf call).queried = false
  value : ∀ call value, result (s.callOf call).pc = none →
    (s.callOf call).state.value = some value → ∃ i k, k < (s.servers i).arrived ∧
      s.origin i k = call ∧ value ∈ ((s.servers i).callbacks k).replies

def Arrives (s : System) (c : Nat) (a : Zenoh.Client.Action) : Prop :=
  ∀ r value, a = .callback r (.replyOk value) → ∃ i k, s.origin i k = (c,r) ∧
    value ∈ ((s.servers i).callbacks k).replies

theorem replied_present (hs : Sound payload s) {i k : Nat} {value : DdsBytes}
    (h : value ∈ ((s.servers i).callbacks k).replies) : k < (s.servers i).arrived := by
  obtain ⟨as,run⟩ := hs.servers i
  by_contra late
  rw [((Zenoh.run_wellFormed run).fresh k (by omega)).2.2] at h
  cases h

theorem received_value {state : Zenoh.ClientReply} {event : Zenoh.ReplyEvent} {value : DdsBytes}
    (h : (state.receive event).value = some value) :
    event = .replyOk value ∨ state.value = some value := by
  cases event with
  | replyOk sent =>
    cases hd : state.done <;> simp [Zenoh.ClientReply.receive,hd] at h
    · exact .inl (by rw [h])
    · exact .inr h
  | replyErr text =>
    right
    cases hd : state.done <;> simpa [Zenoh.ClientReply.receive,hd] using h
  | done => exact .inr h

theorem client_sound (hs : Sound payload s) {c : Nat} {a : Zenoh.Client.Action}
    (arrives : Arrives s c a) (servers : s'.servers = s.servers) (origin : s'.origin = s.origin)
    (h : ClientStep s s' c a) : Sound payload s' := by
  have base (queried : ∀ call, (s.callOf call).queried = true → (s'.callOf call).queried = true)
      (fresh : ∀ call, (s'.callOf call).pc = .idle → (s'.callOf call).queried = false)
      (value : ∀ call value, result (s'.callOf call).pc = none →
        (s'.callOf call).state.value = some value → ∃ i k, k < (s.servers i).arrived ∧
          s.origin i k = call ∧ value ∈ ((s.servers i).callbacks k).replies) : Sound payload s' := by
    refine ⟨?_,?_,?_,fresh,?_⟩ <;> rw [servers] <;> try rw [origin]
    · exact hs.servers
    · exact hs.payload
    · exact fun i k hk => queried _ (hs.queried i k hk)
    · exact value
  cases h with
  | rests same =>
    refine base ?_ ?_ ?_ <;> simp only [same]
    · exact fun _ h => h
    · exact hs.fresh
    · exact hs.value
  | moves r effect others =>
    refine base (fun call hq => ?_) (fun call hpc => ?_) (fun call value hr hv => ?_) <;>
      by_cases hc : call = (c,r)
    · subst hc
      cases effect with
      | quiet started queried results value => exact queried.trans hq
      | sends fresh started queried before after value => exact queried
      | ends outcome queried before now held => exact queried.trans hq
    · exact others call hc ▸ hq
    · subst hc
      cases effect with
      | quiet started queried results value => exact absurd hpc started
      | sends fresh started queried before after value => exact absurd hpc started
      | ends outcome queried before now held =>
        rw [hpc] at now
        cases now
    · rw [others call hc] at hpc ⊢
      exact hs.fresh call hpc
    · subst hc
      cases effect with
      | quiet started queried results same =>
        exact hs.value _ value (results ▸ hr) (same ▸ hv)
      | sends fresh started queried before after none =>
        rw [none] at hv
        cases hv
      | ends outcome queried before now held =>
        rw [hr] at now
        cases now
    · rw [others call hc] at hr hv
      exact hs.value call value hr hv
  | receives r event was now others =>
    refine base (fun call hq => ?_) (fun call hpc => ?_) (fun call value hr hv => ?_) <;>
      by_cases hc : call = (c,r)
    · subst hc
      rw [now]
      exact hq
    · exact others call hc ▸ hq
    · subst hc
      rw [now] at hpc ⊢
      exact hs.fresh _ hpc
    · rw [others call hc] at hpc ⊢
      exact hs.fresh call hpc
    · subst hc
      rw [now] at hr hv
      rcases received_value hv with rfl | held
      · obtain ⟨i,k,own,sent⟩ := arrives r value was
        exact ⟨i,k,replied_present hs sent,own,sent⟩
      · exact hs.value _ value hr held
    · rw [others call hc] at hr hv
      exact hs.value call value hr hv

theorem served_sound (hs : Sound payload s) (i : Nat) (clients : s'.clients = s.clients)
    (others : ∀ j, j ≠ i → s'.servers j = s.servers j ∧ s'.origin j = s.origin j)
    (reached : Reached (s'.servers i)) (kept : QueriesKept (s.servers i) (s'.servers i))
    (arrived : (s.servers i).arrived ≤ (s'.servers i).arrived)
    (origin : ∀ k, k < (s.servers i).arrived → s'.origin i k = s.origin i k)
    (newest : ∀ k, k < (s'.servers i).arrived → k < (s.servers i).arrived ∨
      ((s'.servers i).callbacks k).payload = some (payload (s'.origin i k)) ∧
        (s.callOf (s'.origin i k)).queried = true) : Sound payload s' := by
  have same (call : Nat × Nat) : s'.callOf call = s.callOf call := by
    rw [System.callOf,clients]
    rfl
  refine ⟨fun j => ?_,fun j k hk => ?_,fun j k hk => ?_,?_,fun call value hr hv => ?_⟩
  · by_cases hj : j = i
    · subst hj
      exact reached
    · exact (others j hj).1 ▸ hs.servers j
  · by_cases hj : j = i
    · subst hj
      rcases newest k hk with old | ⟨new,-⟩
      · rw [kept.payload k old,origin k old]
        exact hs.payload j k old
      · exact new
    · rw [(others j hj).1] at hk ⊢
      rw [(others j hj).2]
      exact hs.payload j k hk
  · rw [same]
    by_cases hj : j = i
    · subst hj
      rcases newest k hk with old | ⟨-,new⟩
      · exact origin k old ▸ hs.queried j k old
      · exact new
    · rw [(others j hj).1] at hk
      rw [(others j hj).2]
      exact hs.queried j k hk
  · simp only [same]
    exact hs.fresh
  · rw [same] at hr hv
    obtain ⟨j,k,hk,own,sent⟩ := hs.value call value hr hv
    refine ⟨j,k,?_⟩
    by_cases hj : j = i
    · subst hj
      exact ⟨Nat.lt_of_lt_of_le hk arrived,(origin k hk).trans own,kept.replies k hk value sent⟩
    · rw [(others j hj).1,(others j hj).2]
      exact ⟨hk,own,sent⟩

theorem server_sound (hs : Sound payload s) {i : Nat} {t : Zenoh.System} {a : Zenoh.Action}
    (quiet : ∀ value, a ≠ .arrive value) (h : Zenoh.step (s.servers i) a = some t) :
    Sound payload (s.setServer i t) := by
  have now : (s.setServer i t).servers i = t := Function.update_self ..
  have arrived := server_arrived h quiet
  refine served_sound hs i rfl (fun j hj => ⟨Function.update_of_ne hj ..,rfl⟩) ?_ ?_ ?_
    (fun _ _ => rfl) ?_ <;> rw [now]
  · exact (hs.servers i).step h
  · exact server_kept h
  · exact Nat.le_of_eq arrived.symm
  · exact fun k hk => .inl (arrived ▸ hk)

theorem query_sound (hs : Sound payload s) {i : Nat} {call : Nat × Nat}
    (queried : (s.callOf call).queried = true) : Sound payload (s.query payload call i) := by
  have now : (s.query payload call i).servers i = (s.servers i).arrive (some (payload call)) :=
    Function.update_self ..
  have moved : Zenoh.step (s.servers i) (.arrive (some (payload call))) =
      some ((s.servers i).arrive (some (payload call))) := rfl
  have frame := Zenoh.arrive_frame (s := s.servers i) (some (payload call))
  have origin (k : Nat) : (s.query payload call i).origin i k =
      if k = (s.servers i).arrived then call else s.origin i k := by
    simp [System.query,Function.update_apply]
  refine served_sound hs i rfl
    (fun j hj => ⟨Function.update_of_ne hj ..,Function.update_of_ne hj ..⟩) ?_ ?_ ?_ ?_ ?_ <;>
    simp only [now,origin,frame.arrived]
  · exact (hs.servers i).step moved
  · exact server_kept moved
  · omega
  · exact fun k hk => if_neg (by omega)
  · intro k hk
    by_cases hka : k = (s.servers i).arrived
    · subst hka
      refine .inr ⟨?_,?_⟩
      · rw [frame.newest,if_pos rfl]
      · rw [if_pos rfl]
        exact queried
    · exact .inl (by omega)

inductive Move (payload : Nat × Nat → DdsBytes) (s s' : System) : Prop
  | server (i : Nat) (a : Zenoh.Action) (t : Zenoh.System) (quiet : ∀ value, a ≠ .arrive value)
      (moved : Zenoh.step (s.servers i) a = some t) (now : s' = s.setServer i t)
  | query (call : Nat × Nat) (i : Nat) (queried : (s.callOf call).queried = true)
      (now : s' = s.query payload call i)
  | client (c : Nat) (a : Zenoh.Client.Action) (t : Zenoh.Client.System) (arrives : Arrives s c a)
      (moved : Zenoh.Client.step (s.clients c) a = some t) (now : s' = s.setClient c t)

theorem server_step {i : Nat} {a : Zenoh.Action} (quiet : ∀ value, a ≠ .arrive value) :
    step payload s (.server i a) = (Zenoh.step (s.servers i) a).map (s.setServer i) := by
  cases a with
  | arrive value => exact absurd rfl (quiet value)
  | _ => rfl

theorem client_own {c : Nat} {a : Zenoh.Client.Action}
    (own : ∀ r value, a ≠ .callback r (.replyOk value)) :
    step payload s (.client c a) = (Zenoh.Client.step (s.clients c) a).map (s.setClient c) := by
  cases a with
  | callback r event =>
    cases event with
    | replyOk value => exact absurd rfl (own r value)
    | _ => rfl
  | _ => rfl

theorem step_move (h : step payload s a = some s') : Move payload s s' := by
  cases a with
  | server i a =>
    by_cases quiet : ∀ value, a ≠ .arrive value
    · rw [server_step quiet] at h
      obtain ⟨t,ht,rfl⟩ := Option.map_eq_some_iff.mp h
      exact .server i a t quiet ht rfl
    · obtain ⟨value,rfl⟩ := by simpa using quiet
      cases h
  | client c a =>
    by_cases own : ∀ r value, a ≠ .callback r (.replyOk value)
    · rw [client_own own] at h
      obtain ⟨t,ht,rfl⟩ := Option.map_eq_some_iff.mp h
      exact .client c a t (fun r value same => absurd same (own r value)) ht rfl
    · obtain ⟨r,value,rfl⟩ := by simpa using own
      cases h
  | query call i =>
    simp only [step,Option.ite_none_right_eq_some,Option.some.injEq] at h
    exact .query call i h.1 h.2.symm
  | reply i k value =>
    simp only [step,Option.ite_none_right_eq_some] at h
    obtain ⟨sent,h⟩ := h
    obtain ⟨t,ht,rfl⟩ := Option.map_eq_some_iff.mp h
    refine .client _ _ t ?_ ht rfl
    rintro r value' same
    simp only [Zenoh.Client.Action.callback.injEq,Zenoh.ReplyEvent.replyOk.injEq] at same
    obtain ⟨rfl,rfl⟩ := same
    exact ⟨i,k,rfl,sent⟩

theorem step_sound (hs : Sound payload s) (h : step payload s a = some s') : Sound payload s' := by
  cases step_move h with
  | server i a t quiet moved now => exact now ▸ server_sound hs quiet moved
  | query call i queried now => exact now ▸ query_sound hs queried
  | client c a t arrives moved now =>
    subst now
    exact client_sound hs arrives rfl rfl (client_step moved)

theorem sound_initial : Sound payload .initial := by
  refine ⟨fun _ => ⟨[],rfl⟩,?_,?_,fun _ _ => rfl,?_⟩
  · intro i k hk
    cases hk
  · intro i k hk
    cases hk
  · intro call value hr hv
    cases hv

theorem run_sound {as : List Action} (h : Transition.run (step payload) .initial as = some s) :
    Sound payload s :=
  Transition.run_invariant (I := Sound payload) (fun _ _ _ hi hs => step_sound hi hs)
    sound_initial h

def Few (s : System) : Prop := ∀ i, (s.servers i).arrived < 2 ^ 64

theorem step_arrived (h : step payload s a = some s') (j : Nat) :
    (s.servers j).arrived ≤ (s'.servers j).arrived ∧
      (s'.servers j).arrived ≤ (s.servers j).arrived + 1 := by
  cases step_move h with
  | server i a t quiet moved now =>
    subst now
    by_cases hj : j = i
    · subst hj
      simp [System.setServer,server_arrived moved quiet]
    · simp [System.setServer,hj]
  | query call i queried now =>
    subst now
    by_cases hj : j = i
    · subst hj
      simp [System.query,System.setServer,
        (Zenoh.arrive_frame (s := s.servers j) (some (payload call))).arrived]
    · simp [System.query,System.setServer,hj]
  | client c a t arrives moved now =>
    subst now
    exact ⟨Nat.le_refl _,Nat.le_succ _⟩

theorem step_few (h : step payload s a = some s') (few : Few s') : Few s :=
  fun j => Nat.lt_of_le_of_lt (step_arrived h j).1 (few j)

theorem run_few {as : List Action} (h : Transition.run (step payload) s as = some s')
    (few : Few s') : Few s := by
  induction as generalizing s with
  | nil =>
    obtain rfl : s = s' := by simpa using h
    exact few
  | cons a as ih =>
    obtain ⟨r,hr,rest⟩ := Transition.run_cons_iff.mp h
    exact step_few hr (ih rest)

theorem few_of_length (payload : Nat × Nat → DdsBytes) (as : List Action)
    (h : Transition.run (step payload) .initial as = some s)
    (short : as.length < 2 ^ 64) : Few s := by
  intro j
  refine Nat.lt_of_le_of_lt ?_ short
  refine Transition.run_traced (J := fun as (s : System) => (s.servers j).arrived ≤ as.length)
    (fun as s a t hs ht => ?_) (Nat.le_refl 0) h
  have := (step_arrived ht j).2
  rw [List.length_append,List.length_singleton]
  omega

end DdsAbstract.Rpc
