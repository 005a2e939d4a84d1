import Mathlib.Order.Lattice
import Mathlib.Data.List.Induction

/-!
# Sliding windows

Events arrive one after another, and an event at `t` is admitted if fewer than `max` of the events admitted before
it lie in the half-open window of the given length that ends at `t`. `length_filter_admitted_le`: no window, wherever
it ends, then holds more than `max` admitted events.
-/

namespace Lib
variable {τ : Type*} [LinearOrder τ] [Add τ]

/-- `u` lies in the window that ends at `t`, open on the left and closed on the right. -/
def InWindow (window t u : τ) : Prop := u ≤ t ∧ t < u + window

instance (window t : τ) : DecidablePred (InWindow window t) := fun _ => inferInstanceAs (Decidable (_ ∧ _))

/-- The events of `ts`, oldest first, that a limit of `max` events in a window admits. -/
def admitted (window : τ) (max : Nat) (ts : List τ) : List τ :=
  ts.foldl (fun kept t => if (kept.filter (InWindow window t)).length < max then kept ++ [t] else kept) []

variable {window : τ} {max : Nat}

theorem admitted_concat (ts : List τ) (t : τ) :
    admitted window max (ts ++ [t]) =
      if ((admitted window max ts).filter (InWindow window t)).length < max then admitted window max ts ++ [t]
      else admitted window max ts := by
  rw [admitted, List.foldl_append]
  rfl

theorem admitted_subset (ts : List τ) : admitted window max ts ⊆ ts := by
  induction ts using List.reverseRecOn with
  | nil => exact List.Subset.refl _
  | append_singleton ts t ih =>
    rw [admitted_concat]
    split
    · exact List.append_subset.2 ⟨List.subset_append_of_subset_left _ ih, List.subset_append_right _ _⟩
    · exact List.subset_append_of_subset_left _ ih

/-- Where a window holds a new event, its older events all lie in the window that ends at the new one. -/
theorem length_filter_admitted_le {ts : List τ} (hts : ts.Pairwise (· ≤ ·)) (t : τ) :
    ((admitted window max ts).filter (InWindow window t)).length ≤ max := by
  induction ts using List.reverseRecOn with
  | nil => exact Nat.zero_le _
  | append_singleton ts u ih =>
    obtain ⟨hts, -, hu⟩ := List.pairwise_append.1 hts
    have ih := ih hts
    rw [admitted_concat]
    split
    · rename_i hlt
      rw [List.filter_append, List.length_append]
      by_cases hut : InWindow window t u
      · have hsub : ((admitted window max ts).filter (InWindow window t)).length ≤
            ((admitted window max ts).filter (InWindow window u)).length := by
          rw [← List.countP_eq_length_filter, ← List.countP_eq_length_filter]
          refine List.countP_mono_left fun x hx hxt => ?_
          have hxu : x ≤ u := hu x (admitted_subset ts hx) u (List.mem_singleton_self u)
          exact decide_eq_true ⟨hxu, hut.1.trans_lt (of_decide_eq_true hxt).2⟩
        simp only [hut, decide_true, List.filter_cons_of_pos, List.filter_nil, List.length_singleton]
        omega
      · simpa [hut] using ih
    · exact ih

end Lib
