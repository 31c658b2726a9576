import Mathlib.Data.List.Forall2

namespace Trace

variable {α β : Type*} {τ events pre post : List α} {x y : α}

def Everywhere (P : List α → α → Prop) (τ : List α) : Prop :=
  ∀ pre x post, τ = pre ++ x :: post → P pre x

def Owed (f g : α → Option β) (τ : List α) (hand : List β) : Prop :=
  τ.filterMap f = τ.filterMap g ++ hand

theorem append_eq_append_cons (h : τ ++ events = pre ++ x :: post) (hx : x ∉ events) :
    ∃ rest, τ = pre ++ x :: rest ∧ post = rest ++ events := by
  rcases List.append_eq_append_iff.mp h with ⟨mid,rfl,hmid⟩ | ⟨mid,rfl,hmid⟩
  · refine absurd ?_ hx
    rw [hmid]
    simp
  · cases mid with
    | nil =>
      refine absurd ?_ hx
      rw [← List.nil_append events,← hmid]
      simp
    | cons y rest =>
      obtain ⟨rfl,rfl⟩ := List.cons.inj hmid
      exact ⟨rest,rfl,rfl⟩

theorem snoc_eq_append_cons (h : τ ++ [y] = pre ++ x :: post) :
    (τ = pre ∧ y = x ∧ post = []) ∨ ∃ rest, τ = pre ++ x :: rest ∧ post = rest ++ [y] := by
  rcases List.eq_nil_or_concat post with rfl | ⟨rest,z,rfl⟩
  · obtain ⟨hpre,hx⟩ := List.append_inj' h rfl
    exact .inl ⟨hpre,(List.cons.inj hx).1,rfl⟩
  · rw [List.concat_eq_append,← List.cons_append,← List.append_assoc] at h
    obtain ⟨hpre,hx⟩ := List.append_inj' h rfl
    exact .inr ⟨rest,hpre,by rw [List.concat_eq_append,hx]⟩

theorem eq_or_snoc_of_prefix (h : pre <+: τ) (few : τ.length ≤ pre.length + 1) :
    τ = pre ∨ ∃ x, τ = pre ++ [x] := by
  obtain ⟨more,rfl⟩ := h
  rw [List.length_append] at few
  match more with
  | [] => exact .inl (List.append_nil _)
  | [x] => exact .inr ⟨x,rfl⟩
  | _ :: _ :: _ =>
    simp only [List.length_cons] at few
    omega

theorem everywhere_nil (P : List α → α → Prop) : Everywhere P [] := by
  intro pre x post h
  simp at h

theorem Everywhere.snoc {P : List α → α → Prop} (h : Everywhere P τ) (hy : P τ y) :
    Everywhere P (τ ++ [y]) := by
  intro pre x post hsplit
  rcases snoc_eq_append_cons hsplit with ⟨rfl,rfl,-⟩ | ⟨rest,hrest,-⟩
  · exact hy
  · exact h pre x rest hrest

theorem Owed.append {f g : α → Option β} {hand hand' : List β} (h : Owed f g τ hand)
    (hmove : hand ++ events.filterMap f = events.filterMap g ++ hand') :
    Owed f g (τ ++ events) hand' := by
  unfold Owed at h ⊢
  rw [List.filterMap_append,List.filterMap_append,h,List.append_assoc,hmove,List.append_assoc]

theorem forall₂_replace_last {R : α → β → Prop} {as : List α} {bs : List β} {b c : β}
    (h : List.Forall₂ R as (bs ++ [b])) (hbc : ∀ a ∈ as, R a b → R a c) :
    List.Forall₂ R as (bs ++ [c]) := by
  induction bs generalizing as with
  | nil =>
    cases h with
    | cons hab rest =>
      cases rest
      exact .cons (hbc _ List.mem_cons_self hab) .nil
  | cons d bs ih =>
    cases h with
    | cons had rest => exact .cons had (ih rest (fun a ha => hbc a (List.mem_cons_of_mem _ ha)))

theorem foldl_of_absorbs {f : β → α → β} {b : β} (h : ∀ x y, f (f b x) y = f b x) :
    τ.foldl f b = τ.head?.elim b (f b) := by
  cases τ with
  | nil => rfl
  | cons x rest =>
    rw [List.foldl_cons,List.head?_cons,Option.elim_some]
    induction rest with
    | nil => rfl
    | cons y rest ih => rw [List.foldl_cons,h x y,ih]

end Trace
