import Mathlib.Logic.Function.Basic
import Mathlib.Logic.Relation

namespace Locks

variable {T L : Type*}

def Matches (owner : L → Option T) (holds : T → L → Prop) : Prop :=
  ∀ t l, owner l = some t ↔ holds t l

inductive Move [DecidableEq L] (owner owner' : L → Option T) (holds holds' : T → L → Prop)
    (t : T) : Prop
  | keep (ho : owner' = owner) (hh : ∀ u m, holds' u m ↔ holds u m)
  | acquire (l : L) (free : owner l = none) (ho : owner' = Function.update owner l (some t))
      (hh : ∀ u m, holds' u m ↔ holds u m ∨ (u = t ∧ m = l))
  | release (l : L) (held : holds t l) (ho : owner' = Function.update owner l none)
      (hh : ∀ u m, holds' u m ↔ holds u m ∧ ¬ (u = t ∧ m = l))

theorem Matches.unique {owner : L → Option T} {holds : T → L → Prop} (h : Matches owner holds)
    {t u : T} {l : L} (ht : holds t l) (hu : holds u l) : t = u := by
  have := ((h t l).mpr ht).symm.trans ((h u l).mpr hu)
  exact Option.some.inj this

theorem Matches.move [DecidableEq L] {owner owner' : L → Option T} {holds holds' : T → L → Prop}
    {t : T} (h : Matches owner holds) (hm : Move owner owner' holds holds' t) :
    Matches owner' holds' := by
  intro u m
  cases hm with
  | keep ho hh => rw [ho,hh]; exact h u m
  | acquire l free ho hh =>
    rw [ho,hh]
    by_cases hml : m = l
    · subst hml
      have hn : ¬ holds u m := fun hu => by simp [(h u m).mpr hu] at free
      simp [hn,eq_comm]
    · simp [hml,h u m]
  | release l held ho hh =>
    rw [ho,hh]
    by_cases hml : m = l
    · subst hml
      simp only [Function.update_self,reduceCtorEq,and_true,false_iff,not_and,not_not]
      exact fun hu => h.unique hu held
    · simp [hml,h u m]

def WaitsFor (owner : L → Option T) (wants : T → Option L) (t u : T) : Prop :=
  ∃ l, wants t = some l ∧ owner l = some u

def CyclicWait (owner : L → Option T) (wants : T → Option L) : Prop :=
  ∃ t, Relation.TransGen (WaitsFor owner wants) t t

theorem cyclicWait_of_pair {owner : L → Option T} {wants : T → Option L} {t u : T}
    (ht : WaitsFor owner wants t u) (hu : WaitsFor owner wants u t) : CyclicWait owner wants :=
  ⟨t,.tail (.single ht) hu⟩

theorem not_cyclicWait_of_rank {owner : L → Option T} {wants : T → Option L} (rank : T → Nat)
    (hrank : ∀ t u, WaitsFor owner wants t u → rank u < rank t) : ¬ CyclicWait owner wants := by
  have descends {t u : T} (h : Relation.TransGen (WaitsFor owner wants) t u) :
      rank u < rank t := by
    induction h with
    | single h => exact hrank _ _ h
    | tail _ h ih => exact Nat.lt_trans (hrank _ _ h) ih
  rintro ⟨t,ht⟩
  exact Nat.lt_irrefl _ (descends ht)

theorem exists_unblocked {owner : L → Option T} {wants : T → Option L} (rank : T → Nat)
    (hrank : ∀ t u, WaitsFor owner wants t u → rank u < rank t) (t : T) :
    ∃ u, (u = t ∨ ∃ l, owner l = some u) ∧ ∀ l, wants u = some l → owner l = none := by
  induction hn : rank t using Nat.strongRecOn generalizing t with
  | ind n ih =>
    by_cases blocked : ∃ u, WaitsFor owner wants t u
    · obtain ⟨u,hu⟩ := blocked
      obtain ⟨v,hv,free⟩ := ih (rank u) (hn ▸ hrank t u hu) u rfl
      obtain ⟨l,-,ho⟩ := hu
      rcases hv with rfl | held
      · exact ⟨v,.inr ⟨l,ho⟩,free⟩
      · exact ⟨v,.inr held,free⟩
    · refine ⟨t,.inl rfl,fun l hl => ?_⟩
      cases ho : owner l with
      | none => rfl
      | some u => exact absurd ⟨u,l,hl,ho⟩ blocked

end Locks
