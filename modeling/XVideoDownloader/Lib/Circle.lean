import Mathlib.Order.Bounds.Basic

/-!
# Successors on a circle

The points of a linear order are read as a circle: past the greatest one comes the least again. `Successor S h a`
says that `a` is the first point of `S` met on a walk that starts at `h`. Both facts that consistent hashing rests
on are about subsets: a successor is unique, and it stays the successor in every subset it belongs to.
-/

namespace Lib
variable {α : Type*} [LinearOrder α] {S T : Set α} {h a b : α}

/-- The least point at or above `h`, or the least point of all when there is none. -/
def Successor (S : Set α) (h a : α) : Prop :=
  IsLeast (S ∩ Set.Ici h) a ∨ (∀ b ∈ S, b < h) ∧ IsLeast S a

namespace Successor

theorem unique (ha : Successor S h a) (hb : Successor S h b) : a = b := by
  rcases ha with ha | ⟨hlow, ha⟩
  · rcases hb with hb | ⟨hlow, -⟩
    · exact ha.unique hb
    · exact absurd (hlow a ha.1.1) (not_lt.2 ha.1.2)
  · rcases hb with hb | ⟨-, hb⟩
    · exact absurd (hlow b hb.1.1) (not_lt.2 hb.1.2)
    · exact ha.unique hb

/-- Taking other points away does not change the successor. -/
theorem anti (ha : Successor S h a) (hTS : T ⊆ S) (haT : a ∈ T) : Successor T h a := by
  rcases ha with ha | ⟨hlow, ha⟩
  · refine Or.inl ⟨⟨haT, ha.1.2⟩, ?_⟩
    rintro b ⟨hbT, hb⟩
    exact ha.2 ⟨hTS hbT, hb⟩
  · exact Or.inr ⟨fun b hb => hlow b (hTS hb), haT, fun b hb => ha.2 (hTS hb)⟩

end Successor
end Lib
