import Mathlib.Data.Nat.Digits.Defs

namespace Split

variable {α : Type*} [DecidableEq α] {c : α} {l a b : List α} {i : Nat}

theorem findIdx_none : l.findIdx? (· == c) = none ↔ c ∉ l := by
  rw [List.findIdx?_eq_none_iff]
  constructor
  · intro h hc
    simpa using h c hc
  · rintro h x hx
    simpa using fun hxc : x = c => h (hxc ▸ hx)

theorem findIdx_append (h : c ∉ a) : (a ++ c :: b).findIdx? (· == c) = some a.length := by
  rw [List.findIdx?_append,findIdx_none.mpr h]
  simp [List.findIdx?_cons]

theorem eq_of_findIdx (h : l.findIdx? (· == c) = some i) :
    l = l.take i ++ c :: l.drop (i + 1) ∧ c ∉ l.take i := by
  obtain ⟨hi,hc,before⟩ := List.findIdx?_eq_some_iff_getElem.mp h
  have hget : l.drop i = c :: l.drop (i + 1) := by
    have hc : l[i] = c := by simpa using hc
    rw [List.drop_eq_getElem_cons hi,hc]
  refine ⟨by rw [← hget,List.take_append_drop],?_⟩
  intro hmem
  obtain ⟨j,hj,hjc⟩ := List.getElem_of_mem hmem
  rw [List.length_take] at hj
  have := before j (by omega)
  rw [List.getElem_take] at hjc
  simp [hjc] at this

theorem findIdx_reverse_append (h : c ∉ b) :
    (a ++ c :: b).reverse.findIdx? (· == c) = some b.length := by
  have hb : c ∉ b.reverse := fun hc => h (List.mem_reverse.mp hc)
  rw [List.reverse_append,List.reverse_cons,List.append_assoc,List.singleton_append,
    findIdx_append hb,List.length_reverse]

theorem eq_of_findIdx_reverse (h : l.reverse.findIdx? (· == c) = some i) :
    ∃ a b, l = a ++ c :: b ∧ c ∉ b ∧ b.length = i := by
  obtain ⟨hsplit,hbefore⟩ := eq_of_findIdx h
  have hi : i < l.length := by
    have := (List.findIdx?_eq_some_iff_getElem.mp h).1
    rwa [List.length_reverse] at this
  refine ⟨(l.reverse.drop (i + 1)).reverse,(l.reverse.take i).reverse,?_,?_,?_⟩
  · rw [← List.reverse_reverse l]
    conv_lhs => rw [hsplit]
    simp
  · exact fun hc => hbefore (List.mem_reverse.mp hc)
  · rw [List.length_reverse,List.length_take,List.length_reverse]
    omega

end Split
