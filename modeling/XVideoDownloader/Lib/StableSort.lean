import Mathlib.Data.List.Nodup

/-!
# Where an element stands after a stable sort

`List.mergeSort` keeps the order of entries of which neither has to come before the other. So an entry stands at the
place that is the number of entries that come before it in the order or, being equal to it there, in the list
(`getElem?_rank`).
-/

namespace Lib

section
variable {α : Type}

/-- The numbered entry `x` comes before `y`. -/
def Precedes (le : α → α → Bool) (x y : α × Nat) : Prop := le x.1 y.1 = true ∧ (le y.1 x.1 = true → x.2 < y.2)

instance (le : α → α → Bool) (x y : α × Nat) : Decidable (Precedes le x y) := inferInstanceAs (Decidable (_ ∧ _))

/-- The number of entries that come before `x`. -/
def rank (le : α → α → Bool) (l : List α) (x : α × Nat) : Nat := l.zipIdx.countP fun y => Precedes le y x

variable {le : α → α → Bool} {l : List α}

theorem precedes_irrefl (x : α × Nat) : ¬ Precedes le x x := fun h => Nat.lt_irrefl _ (h.2 h.1)

theorem Precedes.asymm {x y : α × Nat} (h : Precedes le x y) : ¬ Precedes le y x := by
  intro h'
  have hxy := h.2 h'.1
  have hyx := h'.2 h.1
  omega

/-- In an ordered list, the place of an entry is the number of entries before it. -/
theorem countP_precedes {s : List (α × Nat)} (hs : s.Pairwise (Precedes le)) {i : Nat} {x : α × Nat}
    (hx : s[i]? = some x) : (s.countP fun y => Precedes le y x) = i := by
  induction s generalizing i with
  | nil => simp at hx
  | cons y s ih =>
    rw [List.pairwise_cons] at hs
    rcases i with _ | i
    · simp only [List.getElem?_cons_zero, Option.some.injEq] at hx
      subst hx
      refine List.countP_eq_zero.2 fun z hz => ?_
      rcases List.mem_cons.1 hz with rfl | hz
      · simpa using precedes_irrefl z
      · simpa using (hs.1 z hz).asymm
    · rw [List.getElem?_cons_succ] at hx
      have hyx : Precedes le y x := hs.1 x (List.mem_of_getElem? hx)
      rw [List.countP_cons, ih hs.2 hx]
      simp [hyx]

/-- The sort of the numbered entries. -/
def numbered (le : α → α → Bool) (l : List α) : List (α × Nat) := l.zipIdx.mergeSort (List.zipIdxLE le)

theorem map_numbered (le : α → α → Bool) (l : List α) : (numbered le l).map (·.1) = l.mergeSort le :=
  List.mergeSort_zipIdx

theorem mem_numbered (le : α → α → Bool) {x : α × Nat} : x ∈ numbered le l ↔ x ∈ l.zipIdx := List.mem_mergeSort

theorem pairwise_numbered (trans : ∀ a b c, le a b → le b c → le a c) (total : ∀ a b, le a b || le b a) :
    (numbered le l).Pairwise (Precedes le) := by
  have hle : (numbered le l).Pairwise fun x y => List.zipIdxLE le x y = true :=
    List.pairwise_mergeSort (List.zipIdxLE_trans trans) (List.zipIdxLE_total total) _
  have hne : (numbered le l).Pairwise fun x y => x.2 ≠ y.2 := by
    have hperm : ((numbered le l).map (·.2)).Perm (l.zipIdx.map (·.2)) := (List.mergeSort_perm _ _).map _
    refine List.pairwise_map.1 (hperm.nodup_iff.2 ?_)
    rw [List.zipIdx_map_snd]
    exact List.nodup_range'
  refine (hle.and hne).imp ?_
  rintro x y ⟨hxy, hne⟩
  unfold List.zipIdxLE at hxy
  split at hxy
  · rename_i h
    refine ⟨h, fun h' => ?_⟩
    rw [if_pos h', decide_eq_true_eq] at hxy
    omega
  · cases hxy

theorem rank_of_numbered (trans : ∀ a b c, le a b → le b c → le a c) (total : ∀ a b, le a b || le b a) {i : Nat}
    {x : α × Nat} (h : (numbered le l)[i]? = some x) : rank le l x = i := by
  rw [rank, ← (List.mergeSort_perm l.zipIdx (List.zipIdxLE le)).countP_eq]
  exact countP_precedes (pairwise_numbered trans total) h

/-- Every entry stands at its rank. -/
theorem getElem?_rank (trans : ∀ a b c, le a b → le b c → le a c) (total : ∀ a b, le a b || le b a) {x : α × Nat}
    (h : x ∈ l.zipIdx) : (l.mergeSort le)[rank le l x]? = some x.1 := by
  obtain ⟨i, hi⟩ := List.mem_iff_getElem?.1 ((mem_numbered le).2 h)
  rw [rank_of_numbered trans total hi, ← map_numbered, List.getElem?_map, hi]
  rfl

/-- Every place is the rank of an entry. -/
theorem exists_rank (trans : ∀ a b c, le a b → le b c → le a c) (total : ∀ a b, le a b || le b a) {i : Nat} {a : α}
    (h : (l.mergeSort le)[i]? = some a) : ∃ x ∈ l.zipIdx, rank le l x = i ∧ x.1 = a := by
  rw [← map_numbered, List.getElem?_map, Option.map_eq_some_iff] at h
  obtain ⟨x, hx, rfl⟩ := h
  exact ⟨x, (mem_numbered le).1 (List.mem_of_getElem? hx), rank_of_numbered trans total hx, rfl⟩

end
end Lib
