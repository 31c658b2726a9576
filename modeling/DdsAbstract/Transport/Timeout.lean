import Mathlib.Algebra.Group.Int.Defs
import Mathlib.Algebra.Group.Nat.Defs
import Mathlib.Tactic.Common
import DdsAbstract.Zenoh.ClientReply

namespace DdsAbstract

-- `std::chrono::milliseconds` with a 64-bit count.
structure Milliseconds where
  count : Int
  lower : -2 ^ 63 ≤ count
  upper : count < 2 ^ 63

inductive RequestOutcome where
  | returns (response : DdsBytes)
  | throws (message : StdString)
  | hangs
  | undefined
  deriving DecidableEq, Repr

structure Arrival where
  time : Nat
  response : DdsBytes
  deriving DecidableEq, Repr

namespace ZeroMq

inductive Poll where
  | ready (response : DdsBytes)
  | timedOut
  | blocked
  deriving DecidableEq, Repr

-- `zmq::poll` passes `static_cast<long>(timeout.count())` on.
def pollTimeout (longBits : Nat) (timeout : Milliseconds) : Int :=
  timeout.count.bmod (2 ^ longBits)

def poll (timeout : Int) : Option Arrival → Poll
  | none => if timeout < 0 then .blocked else .timedOut
  | some arrival =>
    if timeout < 0 ∨ (arrival.time : Int) ≤ timeout then .ready arrival.response else .timedOut

def request (longBits : Nat) (timeout : Milliseconds) (arrival : Option Arrival) : RequestOutcome :=
  match poll (pollTimeout longBits timeout) arrival with
  | .ready response => .returns response
  | .timedOut => .throws "ZeroMQ request timed out".toList
  | .blocked => .hangs

end ZeroMq

namespace Zenoh

def getTimeout (timeout : Milliseconds) : Nat := (timeout.count % 2 ^ 64).toNat

def clockLimit : Int := 2 ^ 63

-- The deadline of `wait_for` in milliseconds from now; `now` counts the steady clock's
-- nanoseconds, and a deadline past the clock's range is undefined.
def waitLimit (now : Int) (timeout : Milliseconds) : Option Nat :=
  if timeout.count ≤ 0 then some 0
  else if now + timeout.count * 1000000 < clockLimit then some timeout.count.toNat
  else none

def request (now : Int) (timeout : Milliseconds) (events : List (Nat × ReplyEvent)) :
    RequestOutcome :=
  match waitLimit now timeout with
  | none => .undefined
  | some limit =>
    match waitFor limit .initial events with
    | none => .throws "Zenoh request timed out".toList
    | some state =>
      match state.result with
      | .ok response => .returns response
      | .error message => .throws message

def callbacks (arrival : Option Arrival) (completed : Option Nat) : List (Nat × ReplyEvent) :=
  match arrival, completed with
  | none, none => []
  | none, some time => [(time,.done)]
  | some arrival, none => [(arrival.time,.replyOk arrival.response)]
  | some arrival, some time =>
    if arrival.time ≤ time then [(arrival.time,.replyOk arrival.response),(time,.done)]
    else [(time,.done),(arrival.time,.replyOk arrival.response)]

end Zenoh

-- The backend completes a query when its reply has come or its own timeout has passed.
def CompletesLate (timeout : Milliseconds) (arrival : Option Arrival) (completed : Option Nat) :
    Prop :=
  ∀ reply time, arrival = some reply → completed = some time →
    reply.time ≤ time ∨ Zenoh.getTimeout timeout ≤ time

def Expected (timeout : Milliseconds) (arrival : Option Arrival) (outcome : RequestOutcome) : Prop :=
  match arrival with
  | none => ∃ message, outcome = .throws message
  | some reply =>
    if (reply.time : Int) ≤ max timeout.count 0 then outcome = .returns reply.response
    else ∃ message, outcome = .throws message

structure TimeoutsAgree (longBits : Nat) (now : Int) (timeout : Milliseconds) : Prop where
  zeroMq : ∀ arrival, Expected timeout arrival (ZeroMq.request longBits timeout arrival)
  zenoh : ∀ arrival completed, CompletesLate timeout arrival completed →
    Expected timeout arrival (Zenoh.request now timeout (Zenoh.callbacks arrival completed))
  bounded : 0 ≤ ZeroMq.pollTimeout longBits timeout
  passed : (Zenoh.getTimeout timeout : Int) = timeout.count

variable {longBits : Nat} {now : Int} {timeout : Milliseconds}

theorem half_pow (w : Nat) : (((2 ^ w : Nat) : Int) + 1) / 2 = 2 ^ (w - 1) := by
  cases w with
  | zero => rfl
  | succ w =>
    rw [Nat.add_sub_cancel]
    push_cast
    rw [Int.pow_succ]
    omega

theorem lt_of_le_bmod {t : Int} {w : Nat} (h : t ≤ t.bmod (2 ^ w)) : t < 2 ^ (w - 1) :=
  Int.lt_of_le_of_lt h (half_pow w ▸ Int.bmod_lt (Nat.two_pow_pos w))

theorem bmod_eq_self {t : Int} {w : Nat} (ht : 0 ≤ t) (h : t < 2 ^ (w - 1)) :
    t.bmod (2 ^ w) = t := by
  have small : t % (2 ^ w : Nat) = t := by
    refine Int.emod_eq_of_lt ht (Int.lt_of_lt_of_le h ?_)
    exact_mod_cast Nat.pow_le_pow_right (by decide) (Nat.sub_le w 1)
  rw [Int.bmod_eq_emod_of_lt (by rw [small,half_pow]; exact h),small]

theorem getTimeout_eq_iff : (Zenoh.getTimeout timeout : Int) = timeout.count ↔ 0 ≤ timeout.count := by
  have := timeout.upper
  unfold Zenoh.getTimeout
  constructor
  · intro h
    omega
  · intro h
    rw [Int.emod_eq_of_lt h (by omega)]
    exact Int.toNat_of_nonneg h

theorem request_expected {t : Milliseconds} (ht : 0 ≤ t.count)
    (hpoll : ZeroMq.pollTimeout longBits t = t.count) (arrival : Option Arrival) :
    Expected t arrival (ZeroMq.request longBits t arrival) := by
  have bounded : ¬ t.count < 0 := by omega
  unfold ZeroMq.request
  rw [hpoll]
  cases arrival with
  | none => exact ⟨_,by simp only [ZeroMq.poll,if_neg bounded]; rfl⟩
  | some reply =>
    simp only [Expected,ZeroMq.poll,Int.max_eq_left ht,bounded,false_or]
    by_cases hin : (reply.time : Int) ≤ t.count
    · rw [if_pos hin,if_pos hin]
    · rw [if_neg hin,if_neg hin]
      exact ⟨_,rfl⟩

theorem waitFor_first {limit time : Nat} {event : Zenoh.ReplyEvent}
    {rest : List (Nat × Zenoh.ReplyEvent)} (h : time ≤ limit) :
    Zenoh.waitFor limit .initial ((time,event) :: rest) =
      some (Zenoh.ClientReply.initial.receive event) := by
  have hdone : (Zenoh.ClientReply.initial.receive event).done = true := by cases event <;> rfl
  rw [Zenoh.waitFor,if_neg (by decide),if_pos h]
  cases rest with
  | nil => rw [Zenoh.waitFor,if_pos hdone]
  | cons next rest => rw [Zenoh.waitFor,if_pos hdone]

theorem waitFor_late {limit time : Nat} {event : Zenoh.ReplyEvent}
    {rest : List (Nat × Zenoh.ReplyEvent)} (h : ¬ time ≤ limit) :
    Zenoh.waitFor limit .initial ((time,event) :: rest) = none := by
  rw [Zenoh.waitFor,if_neg (by decide),if_neg h]

theorem request_reply {t : Milliseconds} {reply : Arrival} {rest : List (Nat × Zenoh.ReplyEvent)}
    {limit : Nat} (hlimit : Zenoh.waitLimit now t = some limit) :
    Zenoh.request now t ((reply.time,.replyOk reply.response) :: rest) =
      if reply.time ≤ limit then .returns reply.response
      else .throws "Zenoh request timed out".toList := by
  unfold Zenoh.request
  rw [hlimit]
  by_cases hin : reply.time ≤ limit
  · rw [if_pos hin]
    simp only [waitFor_first hin]
    rfl
  · rw [if_neg hin]
    simp only [waitFor_late hin]

theorem request_done {t : Milliseconds} {time limit : Nat} {rest : List (Nat × Zenoh.ReplyEvent)}
    (hlimit : Zenoh.waitLimit now t = some limit) :
    ∃ message, Zenoh.request now t ((time,.done) :: rest) = .throws message := by
  unfold Zenoh.request
  rw [hlimit]
  by_cases hin : time ≤ limit
  · exact ⟨_,by simp only [waitFor_first hin]; rfl⟩
  · exact ⟨_,by simp only [waitFor_late hin]; rfl⟩

theorem request_silent {t : Milliseconds} {limit : Nat}
    (hlimit : Zenoh.waitLimit now t = some limit) :
    Zenoh.request now t [] = .throws "Zenoh request timed out".toList := by
  unfold Zenoh.request
  rw [hlimit]
  rfl

theorem zenoh_request_expected {t : Milliseconds} (ht : 0 ≤ t.count)
    (hlimit : Zenoh.waitLimit now t = some t.count.toNat) (arrival : Option Arrival)
    (completed : Option Nat) (hlate : CompletesLate t arrival completed) :
    Expected t arrival (Zenoh.request now t (Zenoh.callbacks arrival completed)) := by
  cases arrival with
  | none =>
    cases completed with
    | none => exact ⟨_,request_silent hlimit⟩
    | some time => exact request_done hlimit
  | some reply =>
    have within : (reply.time : Int) ≤ max t.count 0 ↔ reply.time ≤ t.count.toNat := by
      rw [Int.max_eq_left ht]
      omega
    have first (rest : List (Nat × Zenoh.ReplyEvent)) : Expected t (some reply)
        (Zenoh.request now t ((reply.time,.replyOk reply.response) :: rest)) := by
      rw [request_reply hlimit,Expected]
      by_cases hin : reply.time ≤ t.count.toNat
      · rw [if_pos hin,if_pos (within.mpr hin)]
      · rw [if_neg hin,if_neg (fun h => hin (within.mp h))]
        exact ⟨_,rfl⟩
    cases completed with
    | none => exact first []
    | some time =>
      by_cases horder : reply.time ≤ time
      · rw [Zenoh.callbacks,if_pos horder]
        exact first _
      · -- The query has timed out before its reply.
        have passed := (hlate reply time rfl rfl).resolve_left horder
        have exact := getTimeout_eq_iff.mpr ht
        rw [Zenoh.callbacks,if_neg horder,Expected,if_neg (fun h => by
          have := within.mp h
          omega)]
        exact request_done hlimit

theorem waitLimit_of_fits {t : Milliseconds} (ht : 0 ≤ t.count)
    (hfits : t.count = 0 ∨ now + t.count * 1000000 < Zenoh.clockLimit) :
    Zenoh.waitLimit now t = some t.count.toNat := by
  unfold Zenoh.waitLimit
  by_cases hzero : t.count = 0
  · rw [if_pos (by omega),hzero]
    rfl
  · rw [if_neg (by omega),if_pos (hfits.resolve_left hzero)]

theorem timeouts_agree_iff (longBits : Nat) (now : Int) (timeout : Milliseconds) :
    TimeoutsAgree longBits now timeout ↔
      0 ≤ timeout.count ∧ timeout.count < 2 ^ (longBits - 1) ∧
        (timeout.count = 0 ∨ now + timeout.count * 1000000 < Zenoh.clockLimit) := by
  constructor
  · intro h
    have nonneg := getTimeout_eq_iff.mp h.passed
    refine ⟨nonneg,?_,?_⟩
    · -- A reply at the very end of the timeout is still within it.
      have last := h.zeroMq (some ⟨timeout.count.toNat,[]⟩)
      have bounded := h.bounded
      have reached : timeout.count ≤ ZeroMq.pollTimeout longBits timeout := by
        by_contra hshort
        simp only [Expected,ZeroMq.request,ZeroMq.poll] at last
        rw [if_pos (by rw [Int.max_eq_left nonneg]; omega),if_neg (by omega)] at last
        cases last
      exact lt_of_le_bmod reached
    · by_contra hover
      obtain ⟨hzero,hclock⟩ := not_or.mp hover
      have first := h.zenoh (some ⟨0,[]⟩) none (fun _ _ _ hc => by cases hc)
      have undefined : Zenoh.waitLimit now timeout = none := by
        rw [Zenoh.waitLimit,if_neg (by omega),if_neg hclock]
      simp only [Expected,Zenoh.request,undefined] at first
      rw [if_pos (by rw [Int.max_eq_left nonneg]; exact nonneg)] at first
      cases first
  · rintro ⟨nonneg,hlong,hfits⟩
    have hpoll : ZeroMq.pollTimeout longBits timeout = timeout.count := bmod_eq_self nonneg hlong
    refine ⟨request_expected nonneg hpoll,?_,?_,getTimeout_eq_iff.mpr nonneg⟩
    · exact zenoh_request_expected nonneg (waitLimit_of_fits nonneg hfits)
    · rw [hpoll]
      exact nonneg

def minusOne : Milliseconds := ⟨-1,by decide,by decide⟩

theorem timeouts_agree_counterexample :
    ¬ ∀ (now : Int) (timeout : Milliseconds), TimeoutsAgree 64 now timeout := by
  intro h
  obtain ⟨message,hangs⟩ := (h 0 minusOne).zeroMq none
  cases hangs

end DdsAbstract
