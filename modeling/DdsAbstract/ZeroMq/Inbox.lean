import DdsAbstract.ZeroMq.NodeSteps

namespace DdsAbstract.ZeroMq.Node

variable {s s' : System} {n : Nat} {ok : Bool} {k c : Channel} {outcome : HandlerOutcome}

def WorkerPc.inHand : WorkerPc → List Accepted
  | .atDispatch message => [message]
  | _ => []

def pending (s : System) : List Accepted := s.worker.inHand ++ inbox s s.workChannel

theorem workChannel_ne_callChannel (s : System) : s.workChannel ≠ s.callChannel := by
  cases hs : s.isServer <;> simp [System.workChannel,System.callChannel,hs]

theorem worker_pending (h : s.workerStep outcome = some s') :
    s.worker.inHand ++ pending s' = pending s := by
  unfold System.workerStep at h
  cases hw : s.worker <;> simp only [hw] at h
  case exited => cases h
  case atLoop =>
    split at h
    · obtain rfl := Option.some.inj h
      simp [pending,WorkerPc.inHand,hw,inbox,System.workChannel]
    · split at h <;> obtain rfl := Option.some.inj h <;>
        simp [pending,WorkerPc.inHand,hw,inbox,System.workChannel]
  case atOpenCheck | atPoll | atReply =>
    obtain rfl := Option.some.inj h
    split <;> simp [pending,WorkerPc.inHand,hw,inbox,System.workChannel]
  case atRecv =>
    obtain ⟨⟨m,t⟩,hm,rfl⟩ := Option.map_eq_some_iff.mp h
    have hinbox := (takeMessage_inbox_eq hm).1
    obtain ⟨u,rest,hu,-,rfl⟩ := takeMessage_some hm
    simp only [pending,hw,WorkerPc.inHand,List.nil_append,hinbox]
    rfl
  case atDispatch m =>
    obtain rfl := Option.some.inj h
    split <;> simp [pending,WorkerPc.inHand,hw,inbox,System.workChannel]
  case atSend =>
    obtain rfl := Option.some.inj h
    simp [pending,WorkerPc.inHand,hw,inbox,System.workChannel]

theorem call_pending (h : s.callStep n ok = some s') : pending s' = pending s := by
  have frame := (call_move h).1
  have channel : s'.workChannel = s.workChannel := by
    simp only [System.workChannel,frame.isServer]
  suffices inbox s' s.workChannel = inbox s s.workChannel by
    rw [pending,frame.worker,channel,this]
    rfl
  unfold System.callStep at h
  cases hc : s.calls n <;> simp only [hc] at h
  case atLock =>
    split at h
    · obtain rfl := Option.some.inj h
      rfl
    · cases h
  case atSend =>
    obtain rfl := Option.some.inj h
    split <;> rfl
  case inPoll =>
    split at h
    · obtain rfl := Option.some.inj h
      rfl
    · split at h
      · obtain rfl := Option.some.inj h
        rfl
      · cases h
  case atRecv =>
    obtain ⟨⟨m,t⟩,hm,rfl⟩ := Option.map_eq_some_iff.mp h
    exact (takeMessage_inbox_eq hm).2 _ (workChannel_ne_callChannel s)
  all_goals
    obtain rfl := Option.some.inj h
    rfl

theorem setTransport_inbox {t : Transport} :
    inbox (s.setTransport c t) k = if k = c then t.inbox else inbox s k := by
  by_cases hk : k = c
  · subst hk
    simp [inbox,System.setTransport]
  · simp [inbox,System.setTransport,hk]

theorem inbox_of_transport {t : Transport} (h : s.transports c = some t) : inbox s c = t.inbox := by
  simp [inbox,h]

theorem close_inbox (s : System) (c k : Channel) : inbox (s.close c) k = inbox s k := by
  unfold System.close
  split
  · rfl
  · rename_i t ht
    rw [setTransport_inbox]
    split
    · subst k
      exact (inbox_of_transport ht).symm
    · rfl

theorem life_inbox_sublist (h : s.lifeStep ok = some s') (k : Channel) :
    (inbox s' k).Sublist (inbox s k) := by
  have replaced {c : Channel} {t u : Transport} (ht : s.transports c = some t)
      (hu : u.inbox.Sublist t.inbox) : (inbox (s.setTransport c u) k).Sublist (inbox s k) := by
    rw [setTransport_inbox]
    split
    · subst k
      rwa [inbox_of_transport ht]
    · exact List.Sublist.refl _
  cases life_move h with
  | exchange _ c t pc given closed next | create c t pc given next =>
    subst next
    exact replaced given (List.Sublist.refl _)
  | reset _ c t pc given next =>
    subst next
    exact replaced given (List.nil_sublist _)
  | undo _ c pc next =>
    subst next
    change (inbox (s.setTransport c ⟨false,none,[]⟩) k).Sublist (inbox s k)
    rw [setTransport_inbox]
    split
    · exact List.nil_sublist _
    · exact List.Sublist.refl _
  | rollback _ pc next | rollbackEnds _ pc next | close _ pc next | closeEnds _ pc next =>
    subst next
    exact (close_inbox s _ k).symm ▸ List.Sublist.refl _
  | _ =>
    rename_i next
    subst next
    exact List.Sublist.refl _

theorem life_pending (h : s.lifeStep ok = some s') : (pending s').Sublist (pending s) := by
  have frame := life_frame h
  have channel : s'.workChannel = s.workChannel := by
    simp only [System.workChannel,frame.isServer]
  rw [pending,channel]
  refine List.Sublist.append ?_ (life_inbox_sublist h _)
  rcases frame.worker with hw | hw
  · exact hw ▸ List.Sublist.refl _
  · rw [hw]
    exact List.nil_sublist _

theorem arrive_pending (data : DdsBytes) :
    pending (s.arrive c data) = pending s ∨
      c = s.workChannel ∧ pending (s.arrive c data) = pending s ++ [⟨data,s.period⟩] := by
  unfold System.arrive
  split
  · exact .inl rfl
  · rename_i t ht
    split
    · rw [pending,show (s.setTransport c _).workChannel = s.workChannel from rfl,setTransport_inbox]
      split
      · rename_i hc
        refine .inr ⟨hc.symm,?_⟩
        rw [pending,hc,inbox_of_transport ht,List.append_assoc]
        rfl
      · exact .inl rfl
    · exact .inl rfl

end DdsAbstract.ZeroMq.Node
