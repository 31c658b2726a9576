import Mathlib.Data.List.Nodup
import DdsAbstract.ZeroMq.ExchangeRefinement
import DdsAbstract.ZeroMq.LateReply

namespace DdsAbstract.ZeroMq

namespace Dealer

variable {s s' : System} {a : Action}

def Returned.answer (e : Returned) : Answer := ⟨e.call,e.message,e.response.bytes⟩

theorem Channel.answered_unique {d e : Answer} (hc : Channel s) (hd : d ∈ s.answered)
    (he : e ∈ s.answered) (same : d.call = e.call) : d = e := by
  have nodup : (s.answered.map (·.call)).Nodup := by
    have order := hc.order
    rw [sentCalls,List.append_assoc] at order
    exact (List.pairwise_append.mp order).1.imp Nat.ne_of_lt
  exact List.inj_on_of_nodup_map nodup hd he same

theorem returned_prefix (hc : Channel s) (ok : CorrelationOk s) :
    s.returned.map Returned.answer <+: s.answered := by
  have fifo := hc.fifo
  rw [List.append_assoc] at fifo
  obtain ⟨early,late,split,replies,-⟩ := List.map_eq_append_iff.mp fifo.symm
  have length : s.returned.length = early.length := by
    simpa using (congrArg List.length replies).symm
  refine ⟨late,?_⟩
  rw [split,List.append_cancel_right_eq]
  refine List.ext_getElem (by simpa using length) ?_
  intro j hj hj'
  have hreturned : j < s.returned.length := by simpa using hj
  have reply : (early[j]).reply = (s.returned[j]).response := by
    simpa [hj',hreturned] using congrArg (·[j]?) replies
  obtain ⟨own,mem⟩ := ok _ (List.getElem_mem hreturned)
  rw [List.getElem_map]
  refine hc.answered_unique mem (split ▸ List.mem_append_left _ (List.getElem_mem hj')) ?_
  exact own.symm.trans (congrArg Frame.call reply.symm)

theorem step_timedOut (h : step s a = some s') : s.timedOut <+: s'.timedOut := by
  cases step_move h with
  | timeout call data pc empty next =>
    subst next
    exact List.prefix_append _ _
  | _ =>
    rename_i next
    subst next
    exact List.prefix_rfl

structure Patient (s : System) : Prop where
  channel : Channel s
  ledger : Ledger s
  correlated : s.timedOut = [] → CorrelationOk s

theorem step_patient (hp : Patient s) (h : step s a = some s') : Patient s' := by
  refine ⟨step_channel hp.channel h,step_ledger hp.ledger hp.channel h,fun none => ?_⟩
  have before : s.timedOut = [] := List.prefix_nil.mp (none ▸ step_timedOut h)
  refine step_correlationOk hp.channel hp.ledger (hp.correlated before) ?_ h
  intro _ e _
  simp [before]

theorem run_patient {hwm : Nat} {as : List Action}
    (h : Transition.run step (initial hwm) as = some s) : Patient s :=
  Transition.run_invariant (I := Patient) (fun _ _ _ => step_patient)
    ⟨channel_initial hwm,ledger_initial hwm,fun _ => by simp [CorrelationOk,initial]⟩ h

end Dealer

namespace Exchange
open Server

variable {clients : Clients} {hwm : Nat} {s : System} {i : Nat} {u : Dealer.System}

theorem answers_responses (handled : List Handled) :
    (answers handled).map (·.2) = handled.filterMap (·.outcome.response) := by
  rw [answers,List.map_filterMap]
  refine congrArg (List.filterMap · handled) (funext fun h => ?_)
  cases h.outcome.response <;> rfl

theorem Projects.inOrder (h : Projects clients hwm i u s) (hc : Dealer.Channel u) :
    (s.clients i).returned.map (·.response) ++ (s.clients i).inbox <+:
      results clients s.server i := by
  have answered : u.answered.map (·.response) = results clients s.server i := by
    rw [results_eq,← answers_responses,← h.answered,List.map_map]
    rfl
  have fifo := congrArg (List.map Dealer.Frame.bytes) hc.fifo
  simp only [List.map_append,List.map_map] at fifo
  refine ⟨u.network.map (·.bytes),?_⟩
  rw [← answered,← h.returned,← h.inbox,List.map_map]
  exact fifo

theorem zeromq_rpc_end_to_end (clients : Clients) (hwm : Nat) (as : List Action) (s : System)
    (h : Transition.run (step clients hwm) initial as = some s) (i : Nat) :
    (s.clients i).returned.map (·.response) ++ (s.clients i).inbox <+: results clients s.server i ∧
      ((s.clients i).timedOut = [] → (s.clients i).returned.map (fun e => (e.message,e.response)) <+:
        answers (handledFrom clients s.server i)) := by
  obtain ⟨bs,u,hu,-,hp⟩ := run_projects h i
  have patient := Dealer.run_patient hu
  refine ⟨hp.inOrder patient.channel,fun none => ?_⟩
  have correlated := Dealer.returned_prefix patient.channel
    (patient.correlated (hp.timedOut.trans none))
  rw [← hp.answered,← hp.returned,List.map_map]
  have mapped := correlated.map (fun e : Dealer.Answer => (e.request,e.response))
  rw [List.map_map] at mapped
  exact mapped

theorem zeromq_rpc_end_to_end_twoClients : ∃ s,
    Transition.run (step numbered 1000) initial twoClients = some s ∧
      (s.clients 1).timedOut = [] ∧ (s.clients 1).returned = [⟨0,[5],[8]⟩] ∧
        (s.clients 1).returned.map (·.response) ++ (s.clients 1).inbox <+:
          results numbered s.server 1 ∧
        ((s.clients 1).timedOut = [] →
          (s.clients 1).returned.map (fun e => (e.message,e.response)) <+:
            answers (handledFrom numbered s.server 1)) := by
  refine ⟨_,rfl,rfl,rfl,?_⟩
  exact zeromq_rpc_end_to_end numbered 1000 twoClients _ rfl 1

end Exchange

end DdsAbstract.ZeroMq
