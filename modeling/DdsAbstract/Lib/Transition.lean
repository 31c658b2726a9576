import Mathlib.Logic.Relation

namespace Transition

variable {σ α : Type*}

def run (step : σ → α → Option σ) : σ → List α → Option σ
  | s, [] => some s
  | s, a :: as => (step s a).bind (fun t => run step t as)

def Meets (step : σ → α → Option σ) (C : σ → α → Prop) : σ → List α → Prop
  | _, [] => True
  | s, a :: as => C s a ∧ ∀ t, step s a = some t → Meets step C t as

variable {step : σ → α → Option σ} {C : σ → α → Prop} {I : σ → Prop} {s t u : σ} {as bs : List α}

@[simp] theorem run_nil : run step s [] = some s := rfl

theorem run_cons_iff {a : α} :
    run step s (a :: as) = some u ↔ ∃ t, step s a = some t ∧ run step t as = some u := by
  simp [run, Option.bind_eq_some_iff]

theorem run_append_iff :
    run step s (as ++ bs) = some u ↔ ∃ t, run step s as = some t ∧ run step t bs = some u := by
  induction as generalizing s with
  | nil => simp [run]
  | cons a as ih =>
    simp only [List.cons_append, run_cons_iff, ih]
    constructor
    · rintro ⟨r,hr,t,ht,hu⟩
      exact ⟨t,⟨r,hr,ht⟩,hu⟩
    · rintro ⟨t,⟨r,hr,ht⟩,hu⟩
      exact ⟨r,hr,t,ht,hu⟩

theorem run_trans (h : run step s as = some t) (h' : run step t bs = some u) :
    run step s (as ++ bs) = some u := run_append_iff.mpr ⟨t,h,h'⟩

theorem run_single {a : α} (h : step s a = some t) : run step s [a] = some t := by
  simp [run, h]

theorem run_invariant (hI : ∀ s a t, I s → step s a = some t → I t) (hs : I s)
    (h : run step s as = some t) : I t := by
  induction as generalizing s with
  | nil =>
    obtain rfl : s = t := by simpa using h
    exact hs
  | cons a as ih =>
    obtain ⟨r,hr,ht⟩ := run_cons_iff.mp h
    exact ih (hI s a r hs hr) ht

theorem run_traced {J : List α → σ → Prop}
    (hJ : ∀ as s a t, J as s → step s a = some t → J (as ++ [a]) t) (hs : J [] s)
    (h : run step s as = some t) : J as t := by
  suffices continued : ∀ before, J before s → J (before ++ as) t from continued [] hs
  clear hs
  induction as generalizing s with
  | nil =>
    obtain rfl : s = t := by simpa using h
    intro before hb
    rwa [List.append_nil]
  | cons a as ih =>
    obtain ⟨r,hr,ht⟩ := run_cons_iff.mp h
    intro before hb
    rw [List.append_cons]
    exact ih ht (before ++ [a]) (hJ before s a r hb hr)

theorem run_invariant_of_meets (hI : ∀ s a t, I s → C s a → step s a = some t → I t) (hs : I s)
    (hC : Meets step C s as) (h : run step s as = some t) : I t := by
  induction as generalizing s with
  | nil =>
    obtain rfl : s = t := by simpa using h
    exact hs
  | cons a as ih =>
    obtain ⟨r,hr,ht⟩ := run_cons_iff.mp h
    exact ih (hI s a r hs hC.1 hr) (hC.2 r hr) ht

theorem meets_append (h : Meets step C s as)
    (h' : ∀ t, run step s as = some t → Meets step C t bs) : Meets step C s (as ++ bs) := by
  induction as generalizing s with
  | nil => exact h' s rfl
  | cons a as ih =>
    refine ⟨h.1,?_⟩
    intro t ht
    exact ih (h.2 t ht) (fun u hu => h' u (run_cons_iff.mpr ⟨t,ht,hu⟩))

theorem meets_of_append (h : Meets step C s (as ++ bs)) : Meets step C s as := by
  induction as generalizing s with
  | nil => trivial
  | cons a as ih => exact ⟨h.1,fun t ht => ih (h.2 t ht)⟩

theorem meets_of_forall {P : α → Prop} (h : ∀ a ∈ as, P a) : Meets step (fun _ a => P a) s as := by
  induction as generalizing s with
  | nil => trivial
  | cons a as ih =>
    exact ⟨h a List.mem_cons_self,fun t _ => ih (fun b hb => h b (List.mem_cons_of_mem _ hb))⟩

def Each (step : σ → α → Option σ) (Q : σ → α → σ → Prop) : σ → List α → Prop
  | _, [] => True
  | s, a :: as => ∀ t, step s a = some t → Q s a t ∧ Each step Q t as

theorem each_of_meets {Q : σ → α → σ → Prop} (hI : ∀ s a t, I s → C s a → step s a = some t → I t)
    (hQ : ∀ s a t, I s → C s a → step s a = some t → Q s a t) (hs : I s) (h : Meets step C s as) :
    Each step Q s as := by
  induction as generalizing s with
  | nil => trivial
  | cons a as ih => exact fun t ht => ⟨hQ s a t hs h.1 ht,ih (hI s a t hs h.1 ht) (h.2 t ht)⟩

theorem each_iff_meets {Q : σ → α → σ → Prop} (total : ∀ s a, ∃ t, step s a = some t)
    (hI : ∀ s a t, I s → C s a → step s a = some t → I t)
    (hQ : ∀ s a t, I s → step s a = some t → (Q s a t ↔ C s a)) (hs : I s) :
    Each step Q s as ↔ Meets step C s as := by
  refine ⟨fun h => ?_,each_of_meets hI (fun s a t hs hC ht => (hQ s a t hs ht).mpr hC) hs⟩
  induction as generalizing s with
  | nil => trivial
  | cons a as ih =>
    obtain ⟨t,ht⟩ := total s a
    have hC := (hQ s a t hs ht).mp (h t ht).1
    exact ⟨hC,fun u hu => ih (hI s a u hs hC hu) (h u hu).2⟩

def holdsAlong (step : σ → α → Option σ) (P : σ → α → Bool) : σ → List α → Bool
  | _, [] => true
  | s, a :: as => P s a && (step s a).all (fun t => holdsAlong step P t as)

theorem meets_of_holdsAlong {P : σ → α → Bool} (hP : ∀ s a, P s a = true → C s a)
    (h : holdsAlong step P s as = true) : Meets step C s as := by
  induction as generalizing s with
  | nil => trivial
  | cons a as ih =>
    simp only [holdsAlong,Bool.and_eq_true] at h
    refine ⟨hP s a h.1,?_⟩
    intro t ht
    rw [ht] at h
    exact ih h.2

theorem run_crosses {Q : σ → Prop} (hs : ¬ Q s) (ht : Q t) (h : run step s as = some t) :
    ∃ before a after u v, as = before ++ a :: after ∧ run step s before = some u ∧
      step u a = some v ∧ ¬ Q u ∧ Q v := by
  induction as generalizing s with
  | nil =>
    obtain rfl : s = t := by simpa using h
    exact absurd ht hs
  | cons a as ih =>
    obtain ⟨r,hr,hrest⟩ := run_cons_iff.mp h
    by_cases hq : Q r
    · exact ⟨[],a,as,s,r,rfl,rfl,hr,hs,hq⟩
    · obtain ⟨before,b,after,u,v,rfl,hu,hv,hnot,hyes⟩ := ih hq hrest
      exact ⟨a :: before,b,after,u,v,rfl,run_cons_iff.mpr ⟨r,hr,hu⟩,hv,hnot,hyes⟩

theorem exists_run_of_measure {G : σ → Prop} {P : α → Prop} (μ : σ → Nat)
    (progress : ∀ s, I s → ¬ G s →
      ∃ a t, P a ∧ step s a = some t ∧ I t ∧ (G t ∨ μ t < μ s)) (hs : I s) :
    ∃ as t, (∀ a ∈ as, P a) ∧ run step s as = some t ∧ I t ∧ G t := by
  induction hn : μ s using Nat.strongRecOn generalizing s with
  | ind n ih =>
    by_cases hg : G s
    · exact ⟨[],s,by simp,rfl,hs,hg⟩
    · obtain ⟨a,t,ha,ht,hit,hdone | hless⟩ := progress s hs hg
      · exact ⟨[a],t,by simpa,run_single ht,hit,hdone⟩
      · obtain ⟨as,u,has,hu,hiu,hgu⟩ := ih (μ t) (hn ▸ hless) hit rfl
        exact ⟨a :: as,u,by simpa using ⟨ha,has⟩,run_cons_iff.mpr ⟨t,ht,hu⟩,hiu,hgu⟩

theorem run_turns_le (turn : α → Bool) (μ : σ → Nat)
    (falls : ∀ s a t, I s → C s a → step s a = some t →
      I t ∧ μ t ≤ μ s ∧ (turn a = true → μ t < μ s)) (hs : I s) (hC : Meets step C s as)
    (h : run step s as = some t) : I t ∧ as.countP turn + μ t ≤ μ s := by
  induction as generalizing s with
  | nil =>
    obtain rfl : s = t := by simpa using h
    exact ⟨hs,by simp⟩
  | cons a as ih =>
    obtain ⟨r,hr,ht⟩ := run_cons_iff.mp h
    obtain ⟨hir,keeps,less⟩ := falls s a r hs hC.1 hr
    obtain ⟨hit,count⟩ := ih hir (hC.2 r hr) ht
    refine ⟨hit,?_⟩
    cases hturn : turn a with
    | true =>
      have := less hturn
      simp only [List.countP_cons,hturn,if_true]
      omega
    | false =>
      simp only [List.countP_cons,hturn]
      simp
      omega

theorem run_length_le (μ : σ → Nat)
    (falls : ∀ s a t, I s → C s a → step s a = some t → I t ∧ μ t < μ s) (hs : I s)
    (hC : Meets step C s as) (h : run step s as = some t) : I t ∧ as.length + μ t ≤ μ s := by
  have count := run_turns_le (fun _ => true) μ
    (fun s a t hi hc ha => by
      obtain ⟨hit,less⟩ := falls s a t hi hc ha
      exact ⟨hit,Nat.le_of_lt less,fun _ => less⟩) hs hC h
  rwa [List.countP_true] at count

theorem run_reaches_of_turns {G : σ → Prop} {P : α → Prop} (turn : α → Bool) (μ : σ → Nat)
    (hI : ∀ s a t, I s → P a → step s a = some t → I t)
    (kept : ∀ s a t, G s → step s a = some t → G t)
    (falls : ∀ s a t, I s → P a → step s a = some t →
      G t ∨ (μ t ≤ μ s ∧ (turn a = true → μ t < μ s)))
    (hs : I s) (has : ∀ a ∈ as, P a) (count : μ s < as.countP turn)
    (h : run step s as = some t) : G t := by
  induction as generalizing s with
  | nil => simp at count
  | cons a as ih =>
    obtain ⟨r,hr,ht⟩ := run_cons_iff.mp h
    have hrest : ∀ b ∈ as, P b := fun b hb => has b (List.mem_cons_of_mem _ hb)
    have hir := hI s a r hs (has a List.mem_cons_self) hr
    rcases falls s a r hs (has a List.mem_cons_self) hr with done | ⟨keeps,less⟩
    · exact run_invariant kept done ht
    · refine ih hir hrest ?_ ht
      cases hturn : turn a with
      | true =>
        have := less hturn
        simp only [List.countP_cons,hturn,if_true] at count
        omega
      | false =>
        simp only [List.countP_cons,hturn] at count
        simp at count
        omega

theorem run_simulates_of_meets {τ β : Type*} {step' : τ → β → Option τ} {R : τ → σ → Prop}
    (simulates : ∀ u s a t, R u s → C s a → step s a = some t →
      ∃ bs v, run step' u bs = some v ∧ R v t)
    {u : τ} (hu : R u s) (hC : Meets step C s as) (h : run step s as = some t) :
    ∃ bs v, run step' u bs = some v ∧ R v t := by
  induction as generalizing s u with
  | nil =>
    obtain rfl : s = t := by simpa using h
    exact ⟨[],u,rfl,hu⟩
  | cons a as ih =>
    obtain ⟨r,hr,ht⟩ := run_cons_iff.mp h
    obtain ⟨bs,v,hv,hrv⟩ := simulates u s a r hu hC.1 hr
    obtain ⟨cs,w,hw,hrw⟩ := ih hrv (hC.2 r hr) ht
    exact ⟨bs ++ cs,w,run_trans hv hw,hrw⟩

theorem run_simulates {τ β : Type*} {step' : τ → β → Option τ} {R : τ → σ → Prop}
    (simulates : ∀ u s a t, R u s → step s a = some t → ∃ bs v, run step' u bs = some v ∧ R v t)
    {u : τ} (hu : R u s) (h : run step s as = some t) :
    ∃ bs v, run step' u bs = some v ∧ R v t :=
  run_simulates_of_meets (C := fun _ _ => True) (fun u s a t hr _ => simulates u s a t hr) hu
    (meets_of_forall (P := fun _ => True) (fun _ _ => trivial)) h

theorem run_lift {τ β : Type*} {step' : τ → β → Option τ} {R : τ → σ → Prop} {P : α → Prop}
    (lift : α → β)
    (simulates : ∀ u s a t, R u s → P a → step s a = some t → ∃ v, step' u (lift a) = some v ∧ R v t)
    {u : τ} (hu : R u s) (has : ∀ a ∈ as, P a) (h : run step s as = some t) :
    ∃ v, run step' u (as.map lift) = some v ∧ R v t := by
  induction as generalizing s u with
  | nil =>
    obtain rfl : s = t := by simpa using h
    exact ⟨u,rfl,hu⟩
  | cons a as ih =>
    obtain ⟨r,hr,ht⟩ := run_cons_iff.mp h
    obtain ⟨v,hv,hrv⟩ := simulates u s a r hu (has a List.mem_cons_self) hr
    obtain ⟨w,hw,hrw⟩ := ih hrv (fun b hb => has b (List.mem_cons_of_mem _ hb)) ht
    exact ⟨w,run_cons_iff.mpr ⟨v,hv,hw⟩,hrw⟩

end Transition
