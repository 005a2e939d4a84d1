import Mathlib.Data.List.Induction

/-!
# The last write

A run of steps over a state with a place that may be empty. A step leaves the place alone (`write a = none`), or it puts
something there or empties it. What is found in the place after a run was put there by the last step that did not leave
it alone (`last_write`).
-/

namespace Lib
variable {σ α β : Type*} {step : σ → α → σ} {g : σ → Option β} {write : α → Option (Option β)}

theorem last_write (hstep : ∀ s a, g (step s a) = (write a).getD (g s)) {s : σ} (hs : g s = none) {as : List α}
    {v : β} (h : g (as.foldl step s) = some v) :
    ∃ before a after, as = before ++ a :: after ∧ write a = some (some v) ∧ ∀ b ∈ after, write b = none := by
  induction as using List.reverseRecOn with
  | nil =>
    rw [List.foldl_nil, hs] at h
    cases h
  | append_singleton as a ih =>
    rw [List.foldl_append, List.foldl_cons, List.foldl_nil, hstep] at h
    cases hw : write a with
    | none =>
      rw [hw, Option.getD_none] at h
      obtain ⟨before, b, after, rfl, hb, hafter⟩ := ih h
      refine ⟨before, b, after ++ [a], by simp, hb, ?_⟩
      rw [List.forall_mem_append, List.forall_mem_singleton]
      exact ⟨hafter, hw⟩
    | some w =>
      rw [hw, Option.getD_some] at h
      exact ⟨as, a, [], rfl, by rw [hw, h], by simp⟩

end Lib
