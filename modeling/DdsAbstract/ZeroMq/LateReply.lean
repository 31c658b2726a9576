import DdsAbstract.ZeroMq.Dealer

namespace DdsAbstract.ZeroMq.Dealer

variable {s s' : System} {a : Action}

def CallPc.call : CallPc → Option Nat
  | .idle => none
  | .sending call _ => some call
  | .polling call _ => some call

def sentCalls (s : System) : List Nat :=
  s.answered.map (·.call) ++ s.serverQueue.map (·.call) ++ s.outgoing.map (·.call)

structure Channel (s : System) : Prop where
  fifo : s.returned.map (·.response) ++ s.inbox ++ s.network = s.answered.map Answer.reply
  order : (sentCalls s).Pairwise (· < ·)
  sent : ∀ k ∈ sentCalls s, k < s.started ∧ ∀ data, s.current ≠ .sending k data
  latest : ∀ k, s.current.call = some k → k + 1 = s.started
  requests : ∀ f ∈ s.serverQueue ++ s.outgoing, ∀ data, s.current = .polling f.call data →
    f.bytes = data
  answers : ∀ e ∈ s.answered, ∀ data, s.current = .polling e.call data → e.request = data

structure Ledger (s : System) : Prop where
  ended : ∀ k, k < s.started →
    s.current.call = some k ∨ k ∈ s.timedOut ∨ ∃ e ∈ s.returned, e.call = k
  timedOut : ∀ k ∈ s.timedOut,
    k < s.started ∧ s.current.call ≠ some k ∧ ∀ e ∈ s.returned, e.call ≠ k
  returned : ∀ e ∈ s.returned, e.call < s.started ∧ s.current.call ≠ some e.call

inductive Move (s s' : System) : Action → Prop
  | request (data : DdsBytes) (idle : s.current = .idle)
      (next : s' = { s with current := .sending s.started data, started := s.started + 1 }) :
      Move s s' (.request data)
  | send (call : Nat) (data : DdsBytes) (pc : s.current = .sending call data)
      (room : s.outgoing.length < s.hwm)
      (next : s' = { s with
        current := .polling call data, outgoing := s.outgoing ++ [⟨call,data⟩] }) :
      Move s s' .send
  | take (q : Frame) (rest : List Frame) (queue : s.outgoing = q :: rest)
      (next : s' = { s with outgoing := rest, serverQueue := s.serverQueue ++ [q] }) :
      Move s s' .take
  | drop (outcome : HandlerOutcome) (q : Frame) (rest : List Frame)
      (queue : s.serverQueue = q :: rest) (threw : outcome.response = none)
      (next : s' = { s with serverQueue := rest }) : Move s s' (.serve outcome)
  | answer (outcome : HandlerOutcome) (q : Frame) (rest : List Frame) (response : DdsBytes)
      (queue : s.serverQueue = q :: rest) (answered : outcome.response = some response)
      (next : s' = { s with
        serverQueue := rest
        network := s.network ++ [⟨q.call,response⟩]
        answered := s.answered ++ [⟨q.call,q.bytes,response⟩] }) : Move s s' (.serve outcome)
  | deliver (r : Frame) (rest : List Frame) (queue : s.network = r :: rest)
      (next : s' = { s with network := rest, inbox := s.inbox ++ [r] }) : Move s s' .deliver
  | timeout (call : Nat) (data : DdsBytes) (pc : s.current = .polling call data)
      (empty : s.inbox = [])
      (next : s' = { s with current := .idle, timedOut := s.timedOut ++ [call] }) :
      Move s s' .timeout
  | receive (call : Nat) (data : DdsBytes) (r : Frame) (rest : List Frame)
      (pc : s.current = .polling call data) (queue : s.inbox = r :: rest)
      (next : s' = { s with
        current := .idle
        inbox := rest
        returned := s.returned ++ [⟨call,data,r⟩] }) : Move s s' .receive

theorem step_move (h : step s a = some s') : Move s s' a := by
  cases a with
  | request data =>
    cases hc : s.current <;> simp only [step,hc] at h
    · exact .request data hc (Option.some.inj h).symm
    all_goals cases h
  | send =>
    cases hc : s.current <;> simp only [step,hc] at h
    case sending call data =>
      split at h
      · exact .send call data hc ‹_› (Option.some.inj h).symm
      · cases h
    all_goals cases h
  | take =>
    cases hq : s.outgoing <;> simp only [step,hq] at h
    · cases h
    · exact .take _ _ hq (Option.some.inj h).symm
  | serve outcome =>
    cases hq : s.serverQueue <;> simp only [step,serve,hq] at h
    · cases h
    · split at h
      · exact .drop outcome _ _ hq ‹_› (Option.some.inj h).symm
      · exact .answer outcome _ _ _ hq ‹_› (Option.some.inj h).symm
  | deliver =>
    cases hq : s.network <;> simp only [step,hq] at h
    · cases h
    · exact .deliver _ _ hq (Option.some.inj h).symm
  | timeout =>
    simp only [step] at h
    split at h
    · exact .timeout _ _ ‹_› ‹_› (Option.some.inj h).symm
    · cases h
  | receive =>
    simp only [step] at h
    split at h
    · exact .receive _ _ _ _ ‹_› ‹_› (Option.some.inj h).symm
    · cases h

theorem step_ledger (hl : Ledger s) (hc : Channel s) (h : step s a = some s') : Ledger s' := by
  have latest := hc.latest
  obtain ⟨ended,timedOut,returned⟩ := hl
  cases step_move h with
  | request data idle next =>
    subst next
    simp only [idle,CallPc.call] at ended timedOut returned
    refine ⟨?_,?_,?_⟩ <;> simp only [CallPc.call] <;> grind
  | send call data pc room next =>
    subst next
    simp only [pc,CallPc.call] at ended timedOut returned
    exact ⟨ended,timedOut,returned⟩
  | timeout call data pc empty next =>
    subst next
    simp only [pc,CallPc.call] at ended timedOut returned latest
    refine ⟨?_,?_,?_⟩ <;> simp only [CallPc.call] <;> grind
  | receive call data r rest pc queue next =>
    subst next
    simp only [pc,CallPc.call] at ended timedOut returned latest
    refine ⟨?_,?_,?_⟩ <;> simp only [CallPc.call]
    · intro k hk
      rcases ended k hk with hcall | htimed | ⟨e,he,hek⟩
      · exact .inr (.inr ⟨⟨call,data,r⟩,by simp,Option.some.inj hcall⟩)
      · exact .inr (.inl htimed)
      · exact .inr (.inr ⟨e,List.mem_append_left _ he,hek⟩)
    · grind
    · grind
  | take q rest queue next => subst next; exact ⟨ended,timedOut,returned⟩
  | drop outcome q rest queue threw next => subst next; exact ⟨ended,timedOut,returned⟩
  | answer outcome q rest response queue answered next =>
    subst next; exact ⟨ended,timedOut,returned⟩
  | deliver r rest queue next => subst next; exact ⟨ended,timedOut,returned⟩

theorem Channel.sent_lt {call : Nat} {data : DdsBytes} (hc : Channel s)
    (pc : s.current = .sending call data) : ∀ k ∈ sentCalls s, k < call := by
  intro k hk
  obtain ⟨hlt,hne⟩ := hc.sent k hk
  have hcall := hc.latest call (by rw [pc]; rfl)
  rw [pc] at hne
  have : k ≠ call := fun he => hne data (by rw [he])
  omega

theorem request_channel (hc : Channel s) (data : DdsBytes) :
    Channel { s with current := .sending s.started data, started := s.started + 1 } := by
  refine ⟨hc.fifo,hc.order,?_,?_,by simp,by simp⟩
  · intro k hk
    have hlt := (hc.sent k hk).1
    refine ⟨Nat.lt_succ_of_lt hlt,?_⟩
    simp only [ne_eq,CallPc.sending.injEq]
    omega
  · simp only [CallPc.call,Option.some.injEq]
    omega

theorem send_channel {call : Nat} {data : DdsBytes} (hc : Channel s)
    (pc : s.current = .sending call data) :
    Channel { s with
      current := .polling call data, outgoing := s.outgoing ++ [⟨call,data⟩] } := by
  have below := hc.sent_lt pc
  have hcall := hc.latest call (by rw [pc]; rfl)
  have list : sentCalls { s with
      current := .polling call data, outgoing := s.outgoing ++ [⟨call,data⟩] } =
      sentCalls s ++ [call] := by
    simp [sentCalls]
  refine ⟨hc.fifo,?_,?_,by simpa [CallPc.call] using hcall,?_,?_⟩
  · rw [list,List.pairwise_append]
    exact ⟨hc.order,by simp,fun j hj k hk => by simpa [List.mem_singleton.mp hk] using below j hj⟩
  · intro k hk
    rw [list,List.mem_append,List.mem_singleton] at hk
    refine ⟨?_,by simp⟩
    rcases hk with hk | rfl
    · exact (hc.sent k hk).1
    · simp only
      omega
  · intro f hf d hd
    obtain ⟨hfc,rfl⟩ : call = f.call ∧ data = d := by simpa using hd
    have hold : ∀ g ∈ s.serverQueue ++ s.outgoing, g.call < call := by
      intro g hg
      refine below _ ?_
      simp only [sentCalls,List.mem_append,List.mem_map] at hg ⊢
      rcases hg with hg | hg
      · exact .inl (.inr ⟨g,hg,rfl⟩)
      · exact .inr ⟨g,hg,rfl⟩
    rw [← List.append_assoc,List.mem_append,List.mem_singleton] at hf
    rcases hf with hf | hf
    · exact absurd (hold f hf) (by omega)
    · rw [hf]
  · intro e he d hd
    obtain ⟨rfl,rfl⟩ : call = e.call ∧ data = d := by simpa using hd
    have : e.call < e.call := below _ (by
      simp only [sentCalls,List.mem_append,List.mem_map]
      exact .inl (.inl ⟨e,he,rfl⟩))
    omega

theorem drop_channel {q : Frame} {rest : List Frame} (hc : Channel s)
    (queue : s.serverQueue = q :: rest) : Channel { s with serverQueue := rest } := by
  have sub : List.Sublist (sentCalls { s with serverQueue := rest }) (sentCalls s) := by
    simp [sentCalls,queue]
  refine ⟨hc.fifo,hc.order.sublist sub,fun k hk => hc.sent k (sub.subset hk),hc.latest,?_,
    hc.answers⟩
  intro f hf
  refine hc.requests f ?_
  rw [queue]
  exact List.mem_cons_of_mem _ hf

theorem answer_channel {q : Frame} {rest : List Frame} (hc : Channel s)
    (queue : s.serverQueue = q :: rest) (response : DdsBytes) :
    Channel { s with
      serverQueue := rest
      network := s.network ++ [⟨q.call,response⟩]
      answered := s.answered ++ [⟨q.call,q.bytes,response⟩] } := by
  have list : sentCalls { s with
      serverQueue := rest
      network := s.network ++ [⟨q.call,response⟩]
      answered := s.answered ++ [⟨q.call,q.bytes,response⟩] } = sentCalls s := by
    simp [sentCalls,queue]
  refine ⟨?_,list ▸ hc.order,list ▸ hc.sent,hc.latest,(drop_channel hc queue).requests,?_⟩
  · simp [← List.append_assoc,← hc.fifo,Answer.reply]
  · intro e he d hd
    rw [List.mem_append,List.mem_singleton] at he
    rcases he with he | rfl
    · exact hc.answers e he d hd
    · exact hc.requests q (by simp [queue]) d hd

theorem step_channel (hc : Channel s) (h : step s a = some s') : Channel s' := by
  cases step_move h with
  | request data idle next => exact next ▸ request_channel hc data
  | send call data pc room next => exact next ▸ send_channel hc pc
  | take q rest queue next =>
    subst next
    have list : sentCalls { s with outgoing := rest, serverQueue := s.serverQueue ++ [q] } =
        sentCalls s := by
      simp [sentCalls,queue]
    refine ⟨hc.fifo,list ▸ hc.order,list ▸ hc.sent,hc.latest,?_,hc.answers⟩
    simpa [queue] using hc.requests
  | drop outcome q rest queue threw next => exact next ▸ drop_channel hc queue
  | answer outcome q rest response queue answered next =>
    exact next ▸ answer_channel hc queue response
  | deliver r rest queue next =>
    subst next
    refine ⟨?_,hc.order,hc.sent,hc.latest,hc.requests,hc.answers⟩
    simpa [queue] using hc.fifo
  | timeout call data pc empty next =>
    subst next
    exact ⟨hc.fifo,hc.order,fun k hk => ⟨(hc.sent k hk).1,by simp⟩,by simp [CallPc.call],by simp,
      by simp⟩
  | receive call data r rest pc queue next =>
    subst next
    refine ⟨?_,hc.order,fun k hk => ⟨(hc.sent k hk).1,by simp⟩,by simp [CallPc.call],by simp,by simp⟩
    simpa [queue] using hc.fifo

def CorrelationOk (s : System) : Prop :=
  ∀ e ∈ s.returned, e.response.call = e.call ∧ ⟨e.call,e.message,e.response.bytes⟩ ∈ s.answered

def NoLateAnswer (s : System) (a : Action) : Prop :=
  a = .receive → ∀ e ∈ s.answered, e.call ∉ s.timedOut

theorem step_grows (h : step s a = some s') :
    s.returned <+: s'.returned ∧ s.answered <+: s'.answered := by
  cases step_move h with
  | answer outcome q rest response queue answered next =>
    subst next
    exact ⟨List.prefix_rfl,List.prefix_append _ _⟩
  | receive call data r rest pc queue next =>
    subst next
    exact ⟨List.prefix_append _ _,List.prefix_rfl⟩
  | _ =>
    rename_i next
    subst next
    exact ⟨List.prefix_rfl,List.prefix_rfl⟩

theorem run_grows {as : List Action} (h : Transition.run step s as = some s') :
    s.returned <+: s'.returned := by
  induction as generalizing s with
  | nil =>
    obtain rfl : s = s' := by simpa using h
    exact List.prefix_rfl
  | cons a as ih =>
    obtain ⟨t,ha,ht⟩ := Transition.run_cons_iff.mp h
    exact (step_grows ha).1.trans (ih ht)

theorem Channel.replyOrder (hc : Channel s) :
    ((s.returned.map (·.response) ++ s.inbox ++ s.network).map (·.call)).Pairwise (· < ·) := by
  rw [hc.fifo,List.map_map]
  have sub : List.Sublist (s.answered.map (Frame.call ∘ Answer.reply)) (sentCalls s) := by
    simp only [sentCalls,List.append_assoc]
    exact List.sublist_append_left _ _
  exact hc.order.sublist sub

theorem Channel.head_answered {r : Frame} {rest : List Frame} (hc : Channel s)
    (queue : s.inbox = r :: rest) : ∃ e ∈ s.answered, e.reply = r := by
  have hr : r ∈ s.answered.map Answer.reply := by
    rw [← hc.fifo,queue]
    simp
  exact List.mem_map.mp hr

theorem Channel.answered_lt {e : Answer} (hc : Channel s) (he : e ∈ s.answered) :
    e.call < s.started := by
  refine (hc.sent e.call ?_).1
  simp only [sentCalls,List.mem_append,List.mem_map]
  exact .inl (.inl ⟨e,he,rfl⟩)

theorem Channel.returned_lt_head {e : Returned} {r : Frame} {rest : List Frame} (hc : Channel s)
    (queue : s.inbox = r :: rest) (he : e ∈ s.returned) : e.response.call < r.call := by
  have order := hc.replyOrder
  rw [queue] at order
  simp only [List.append_assoc,List.map_append,List.map_map,List.pairwise_append] at order
  refine order.2.2 _ (List.mem_map.mpr ⟨e,he,rfl⟩) _ ?_
  simp

theorem Channel.head_le {e : Answer} {r : Frame} {rest : List Frame} (hc : Channel s)
    (queue : s.inbox = r :: rest) (he : e ∈ s.answered)
    (kept : ∀ d ∈ s.returned, d.response.call ≠ e.call) : r.call ≤ e.call := by
  have order := hc.replyOrder
  have hmem : e.reply ∈ s.returned.map (·.response) ++ s.inbox ++ s.network := by
    rw [hc.fifo]
    exact List.mem_map_of_mem he
  rw [queue] at order hmem
  simp only [List.append_assoc,List.mem_append,List.mem_map,List.cons_append,
    List.mem_cons] at hmem
  simp only [List.append_assoc,List.map_append,List.map_cons,List.cons_append,
    List.pairwise_append,List.pairwise_cons] at order
  rcases hmem with ⟨d,hd,hde⟩ | hr | hlater
  · exact absurd (congrArg Frame.call hde) (kept d hd)
  · exact Nat.le_of_eq (congrArg Frame.call hr).symm
  · refine Nat.le_of_lt (order.2.1.1 e.call ?_)
    rw [← List.map_append]
    exact List.mem_map.mpr ⟨e.reply,List.mem_append.mpr hlater,rfl⟩

theorem step_correlationOk (hc : Channel s) (hl : Ledger s) (ok : CorrelationOk s)
    (cond : NoLateAnswer s a) (h : step s a = some s') : CorrelationOk s' := by
  have grows := (step_grows h).2.subset
  have old : ∀ e ∈ s.returned, e.response.call = e.call ∧
      ⟨e.call,e.message,e.response.bytes⟩ ∈ s'.answered := fun e he =>
    ⟨(ok e he).1,grows (ok e he).2⟩
  cases step_move h with
  | receive call data r rest pc queue next =>
    have own : r.call = call ∧ ⟨call,data,r.bytes⟩ ∈ s.answered := by
      obtain ⟨e,he,rfl⟩ := hc.head_answered queue
      have hcall := hc.latest call (by rw [pc]; rfl)
      have hlt := hc.answered_lt he
      rcases hl.ended e.call hlt with hcur | htimed | ⟨d,hd,hdc⟩
      · rw [pc] at hcur
        obtain rfl : call = e.call := Option.some.inj hcur
        exact ⟨rfl,by rw [← hc.answers e he data pc]; exact he⟩
      · exact absurd htimed (cond rfl e he)
      · have hlast := hc.returned_lt_head queue hd
        rw [(ok d hd).1,hdc] at hlast
        exact absurd hlast (Nat.lt_irrefl _)
    subst next
    intro e he
    rw [List.mem_append,List.mem_singleton] at he
    rcases he with he | rfl
    · exact old e he
    · exact own
  | _ =>
    rename_i next
    subst next
    exact old

theorem noLateAnswer_of_correlationOk {as : List Action} {t u : System} (hc : Channel s)
    (hl : Ledger s) (ha : step s a = some t) (hu : Transition.run step t as = some u)
    (ok : CorrelationOk u) : NoLateAnswer s a := by
  rintro rfl e he htimed
  cases step_move ha with
  | receive call data r rest pc queue next =>
    have into : ∀ d ∈ s.returned ++ [⟨call,data,r⟩], d.response.call = d.call := by
      intro d hd
      refine (ok d ((run_grows hu).subset ?_)).1
      rw [next]
      exact hd
    obtain ⟨hlt,hne,hret⟩ := hl.timedOut e.call htimed
    have hcall := hc.latest call (by rw [pc]; rfl)
    have hself : r.call = call := into ⟨call,data,r⟩ (by simp)
    have hle := hc.head_le queue he (fun d hd => by
      rw [into d (List.mem_append_left _ hd)]
      exact hret d hd)
    rw [pc] at hne
    have : e.call = call := by omega
    exact hne (by rw [this]; rfl)

theorem run_meets_of_correlationOk {as : List Action} {u : System} (hc : Channel s)
    (hl : Ledger s) (h : Transition.run step s as = some u) (ok : CorrelationOk u) :
    Transition.Meets step NoLateAnswer s as := by
  induction as generalizing s with
  | nil => trivial
  | cons a as ih =>
    obtain ⟨t,ha,ht⟩ := Transition.run_cons_iff.mp h
    refine ⟨noLateAnswer_of_correlationOk hc hl ha ht ok,?_⟩
    intro r hr
    obtain rfl : t = r := Option.some.inj (ha.symm.trans hr)
    exact ih (step_channel hc ha) (step_ledger hl hc ha) ht

theorem channel_initial (hwm : Nat) : Channel (initial hwm) := by
  constructor <;> simp [initial,sentCalls,CallPc.call]

theorem ledger_initial (hwm : Nat) : Ledger (initial hwm) := by
  constructor <;> simp [initial]

theorem zeromq_request_correlation (hwm : Nat) (as : List Action) (s : System)
    (h : Transition.run step (initial hwm) as = some s) :
    CorrelationOk s ↔ Transition.Meets step NoLateAnswer (initial hwm) as := by
  constructor
  · exact run_meets_of_correlationOk (channel_initial hwm) (ledger_initial hwm) h
  · intro cond
    have all := Transition.run_invariant_of_meets
      (I := fun s => Channel s ∧ Ledger s ∧ CorrelationOk s)
      (fun _ _ _ hi hC ha => ⟨step_channel hi.1 ha,step_ledger hi.2.1 hi.1 ha,
        step_correlationOk hi.1 hi.2.1 hi.2.2 hC ha⟩)
      ⟨channel_initial hwm,ledger_initial hwm,by simp [CorrelationOk,initial]⟩ cond h
    exact all.2.2

def noLateAnswer (s : System) (a : Action) : Bool :=
  a ≠ .receive || s.answered.all (fun e => !s.timedOut.contains e.call)

theorem noLateAnswer_sound (s : System) (a : Action) (h : noLateAnswer s a = true) :
    NoLateAnswer s a := by
  rintro rfl e he
  have all : ∀ e ∈ s.answered, e.call ∉ s.timedOut := by simpa [noLateAnswer] using h
  exact all e he

def answeredInTime : List Action :=
  [.request [6],.send,.take,.timeout,.serve .throws,.request [7],.send,.take,
    .serve (.returns [8]),.deliver,.receive]

theorem zeromq_request_correlation_inTime : ∃ s,
    Transition.run step (initial 1000) answeredInTime = some s ∧ s.timedOut = [0] ∧
      s.returned = [⟨1,[7],⟨1,[8]⟩⟩] ∧ CorrelationOk s := by
  refine ⟨_,rfl,rfl,rfl,(zeromq_request_correlation 1000 answeredInTime _ rfl).mpr ?_⟩
  exact Transition.meets_of_holdsAlong noLateAnswer_sound rfl

def lateEcho : List Action :=
  [.request [0],.send,.take,.timeout,.serve (.returns [0]),.request [1],.send,.deliver,.receive]

theorem zeromq_request_correlation_counterexample :
    ¬ ∀ (hwm : Nat) (as : List Action) (s : System),
      Transition.run step (initial hwm) as = some s → CorrelationOk s := by
  intro h
  have ok := h 1000 lateEcho _ rfl
  have own := (ok ⟨1,[1],⟨0,[0]⟩⟩ (by decide)).1
  cases own

end DdsAbstract.ZeroMq.Dealer
