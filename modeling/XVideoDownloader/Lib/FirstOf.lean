import Mathlib.Data.List.Basic

/-!
# One element for each key

`firstOf key l` keeps of the elements of `l` with one key only the first. Appending elements one by one, each only
where its key is not there yet, appends the first ones of those whose keys were not there from the start
(`foldl_pushNew`), and appending them once more appends nothing (`foldl_pushNew_append`).
-/

namespace Lib
variable {α κ : Type} [DecidableEq κ] {key : α → κ} {a b : α} {l acc : List α}

def firstOf (key : α → κ) (l : List α) : List α := l.eraseDupsBy fun a b => key a = key b

@[simp] theorem firstOf_nil : firstOf key ([] : List α) = [] := rfl

theorem firstOf_cons : firstOf key (a :: l) = a :: firstOf key (l.filter fun b => key b ≠ key a) := by
  simp [firstOf, List.eraseDupsBy_cons]

/-- The recursion of `firstOf`. -/
theorem firstOf_induction {P : List α → Prop} (key : α → κ) (nil : P [])
    (cons : ∀ a l, P (l.filter fun b => key b ≠ key a) → P (a :: l)) (l : List α) : P l := by
  induction h : l.length using Nat.strongRecOn generalizing l with
  | _ n ih =>
    rcases l with _ | ⟨a, l⟩
    · exact nil
    · refine cons a l (ih _ ?_ _ rfl)
      have := List.length_filter_le (fun b => key b ≠ key a) l
      rw [List.length_cons] at h
      omega

theorem firstOf_sublist (l : List α) : (firstOf key l).Sublist l := by
  induction l using firstOf_induction key with
  | nil => exact .slnil
  | cons a l ih =>
    rw [firstOf_cons]
    exact (ih.trans List.filter_sublist).cons_cons a

theorem pairwise_firstOf (l : List α) : (firstOf key l).Pairwise fun a b => key a ≠ key b := by
  induction l using firstOf_induction key with
  | nil => exact .nil
  | cons a l ih =>
    rw [firstOf_cons, List.pairwise_cons]
    refine ⟨fun b hb => ?_, ih⟩
    have hne := (List.mem_filter.1 ((firstOf_sublist _).subset hb)).2
    exact Ne.symm (by simpa using hne)

theorem exists_mem_firstOf (key : α → κ) (h : a ∈ l) : ∃ b ∈ firstOf key l, key b = key a := by
  induction l using firstOf_induction key with
  | nil => simp at h
  | cons c l ih =>
    rw [firstOf_cons]
    by_cases hc : key a = key c
    · exact ⟨c, by simp, hc.symm⟩
    · have hl : a ∈ l := by
        rcases List.mem_cons.1 h with rfl | hl
        · exact absurd rfl hc
        · exact hl
      obtain ⟨b, hb, hba⟩ := ih (List.mem_filter.2 ⟨hl, by simpa using hc⟩)
      exact ⟨b, List.mem_cons_of_mem c hb, hba⟩

theorem firstOf_eq_self (h : l.Pairwise fun a b => key a ≠ key b) : firstOf key l = l := by
  induction l using firstOf_induction key with
  | nil => rfl
  | cons a l ih =>
    obtain ⟨ha, hl⟩ := List.pairwise_cons.1 h
    have hf : l.filter (fun b => key b ≠ key a) = l :=
      List.filter_eq_self.2 fun b hb => by simpa using Ne.symm (ha b hb)
    rw [hf] at ih
    rw [firstOf_cons, hf, ih hl]

/-- The elements of `l` whose keys `acc` does not have. -/
def unknown (key : α → κ) (acc l : List α) : List α := l.filter fun a => key a ∉ acc.map key

theorem mem_unknown : a ∈ unknown key acc l ↔ a ∈ l ∧ key a ∉ acc.map key := by
  simp [unknown]

theorem unknown_concat : unknown key (acc ++ [a]) l = (unknown key acc l).filter fun b => key b ≠ key a := by
  rw [unknown, unknown, List.filter_filter]
  refine List.filter_congr fun b _ => ?_
  rw [List.map_append, Bool.eq_iff_iff]
  simp [-List.mem_map, and_comm]

def pushNew (key : α → κ) (acc : List α) (a : α) : List α :=
  if acc.any fun b => key b = key a then acc else acc ++ [a]

theorem pushNew_known (h : key a ∈ acc.map key) : pushNew key acc a = acc := by
  obtain ⟨b, hb, hba⟩ := List.mem_map.1 h
  exact if_pos (List.any_eq_true.2 ⟨b, hb, by simpa using hba⟩)

theorem pushNew_unknown (h : key a ∉ acc.map key) : pushNew key acc a = acc ++ [a] := by
  refine if_neg fun hany => h ?_
  obtain ⟨b, hb, hba⟩ := List.any_eq_true.1 hany
  exact List.mem_map.2 ⟨b, hb, by simpa using hba⟩

/-- What is pushed one by one is the first of each key that was not there. -/
theorem foldl_pushNew (key : α → κ) (l acc : List α) :
    l.foldl (pushNew key) acc = acc ++ firstOf key (unknown key acc l) := by
  induction l generalizing acc with
  | nil => simp [unknown]
  | cons a l ih =>
    rw [List.foldl_cons, ih]
    by_cases ha : key a ∈ acc.map key
    · have hu : unknown key acc (a :: l) = unknown key acc l := List.filter_cons_of_neg (by simpa using ha)
      rw [pushNew_known ha, hu]
    · have hu : unknown key acc (a :: l) = a :: unknown key acc l := List.filter_cons_of_pos (by simpa using ha)
      rw [pushNew_unknown ha, hu, firstOf_cons, unknown_concat, List.append_assoc, List.singleton_append]

/-- Pushing what has been pushed changes nothing, whatever else is among it whose key is there. -/
theorem foldl_pushNew_append {known : List α} (hknown : ∀ a ∈ known, key a ∈ acc.map key) (l : List α) :
    (known ++ firstOf key (unknown key acc l)).foldl (pushNew key) acc = acc ++ firstOf key (unknown key acc l) := by
  have hu : unknown key acc (known ++ firstOf key (unknown key acc l)) = firstOf key (unknown key acc l) := by
    rw [unknown, List.filter_append, List.filter_eq_nil_iff.2, List.nil_append, List.filter_eq_self]
    · intro a ha
      simpa using (mem_unknown.1 ((firstOf_sublist _).subset ha)).2
    · intro a ha
      simpa using hknown a ha
  rw [foldl_pushNew, hu, firstOf_eq_self (pairwise_firstOf _)]

end Lib
