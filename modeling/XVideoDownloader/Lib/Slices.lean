import Mathlib.Order.Monotone.Basic
import Mathlib.Algebra.BigOperators.Group.List.Basic
import Mathlib.Data.List.Flatten
import Mathlib.Data.List.Induction

/-!
# Pieces of a list

`slice l a b` is the piece of `l` from position `a` up to, not including, position `b`. Pieces that share
their ends compose (`slice_append_slice`), so the pieces between consecutive cuts tile what lies between the
first cut and the last (`flatMap_slice`), and lists that put end to end are `l` are the pieces of `l` at the places
where each of them begins (`flatMap_range_eq_iff`). Parts of such pieces, put end to end, are a part of `l` (`flatMap_range_sublist`). A
list that ends in `y` is cut at an element `x` either there or before (`concat_cut`), and what each element
keeps of all that comes before it is so of every beginning (`prefix_induction`). Where one element is replaced,
so is what it counts for (`filterMap_set_perm`); where one is taken out, only that is (`filterMap_eraseIdx_of_some`).
-/

namespace Lib
variable {α : Type}

def slice (l : List α) (a b : Nat) : List α := (l.take b).drop a

@[simp] theorem length_slice (l : List α) (a b : Nat) : (slice l a b).length = min b l.length - a := by
  simp [slice]

theorem slice_of_le {l : List α} {a b : Nat} (h : b ≤ a) : slice l a b = [] := by
  rw [← List.length_eq_zero_iff, length_slice]
  omega

theorem slice_of_length_le {l : List α} (a : Nat) {b : Nat} (h : l.length ≤ b) : slice l a b = l.drop a := by
  rw [slice, List.take_of_length_le h]

theorem slice_full {l : List α} {b : Nat} (h : l.length ≤ b) : slice l 0 b = l := slice_of_length_le 0 h

theorem slice_append_slice (l : List α) {a b c : Nat} (hab : a ≤ b) (hbc : b ≤ c) :
    slice l a b ++ slice l b c = slice l a c := by
  have hb : l.take b = (l.take c).take b := by rw [List.take_take, Nat.min_eq_left hbc]
  have hd : (l.take c).drop b = ((l.take c).drop a).drop (b - a) := by
    rw [List.drop_drop, Nat.add_sub_cancel' hab]
  unfold slice
  rw [hb, List.drop_take, hd, List.take_append_drop]

/-- The pieces between consecutive cuts, in order. -/
theorem flatMap_slice (l : List α) {cut : Nat → Nat} (hcut : Monotone cut) (n : Nat) :
    (List.range n).flatMap (fun i => slice l (cut i) (cut (i + 1))) = slice l (cut 0) (cut n) := by
  induction n with
  | zero => exact (slice_of_le le_rfl).symm
  | succ n ih =>
    rw [List.range_succ, List.flatMap_append, ih, List.flatMap_singleton]
    exact slice_append_slice l (hcut n.zero_le) (hcut n.le_succ)

/-- Where the `i`-th of some pieces begins, by their sizes. -/
def place (size : Nat → Nat) : Nat → Nat
  | 0 => 0
  | i + 1 => place size i + size i

theorem place_mono (size : Nat → Nat) : Monotone (place size) :=
  monotone_nat_of_le_succ fun i => Nat.le_add_right (place size i) (size i)

theorem place_congr {size size' : Nat → Nat} {n : Nat} (h : ∀ i < n, size i = size' i) :
    place size n = place size' n := by
  induction n with
  | zero => rfl
  | succ n ih => rw [place, place, ih fun i hi => h i (Nat.lt_succ_of_lt hi), h n n.lt_succ_self]

/-- Lists put end to end are `l` if and only if they have its length and each is what `l` has in its place. -/
theorem flatMap_range_eq_iff (f : Nat → List α) (n : Nat) (l : List α) :
    (List.range n).flatMap f = l ↔ place (fun i => (f i).length) n = l.length ∧
      ∀ i < n, f i = slice l (place (fun i => (f i).length) i) (place (fun i => (f i).length) (i + 1)) := by
  have hlength (i : Nat) : ((List.range i).flatMap f).length = place (fun i => (f i).length) i := by
    induction i with
    | zero => rfl
    | succ i ih => rw [List.range_succ, List.flatMap_append, List.flatMap_singleton, List.length_append, ih, place]
  constructor
  · rintro rfl
    refine ⟨(hlength n).symm, fun i hi => ?_⟩
    have hstep : (List.range (i + 1)).flatMap f = (List.range i).flatMap f ++ f i := by
      rw [List.range_succ, List.flatMap_append, List.flatMap_singleton]
    have hbegins : (List.range (i + 1)).flatMap f <+: (List.range n).flatMap f := by
      obtain ⟨k, hk⟩ := Nat.exists_eq_add_of_le hi
      conv_rhs => rw [hk, List.range_add, List.flatMap_append]
      exact List.prefix_append _ _
    obtain ⟨rest, hrest⟩ := hbegins
    rw [slice, ← hlength i, ← hlength (i + 1), ← hrest, List.take_left, hstep, List.drop_left]
  · rintro ⟨hn, hf⟩
    rw [List.flatMap_congr fun i hi => hf i (List.mem_range.1 hi), flatMap_slice l (place_mono _), hn]
    exact slice_full le_rfl

theorem take_slice (l : List α) (a b k : Nat) : (slice l a b).take k = slice l a (min (a + k) b) := by
  rw [slice, List.take_drop, List.take_take, slice]

/-- Of each piece a part. -/
theorem flatMap_range_sublist {f : Nat → List α} {n : Nat} {l : List α} {cut : Nat → Nat} (hcut : Monotone cut)
    (h : ∀ i < n, (f i).Sublist (slice l (cut i) (cut (i + 1)))) : ((List.range n).flatMap f).Sublist l := by
  have hparts := List.Sublist.flatMap_right (List.range n) fun i hi => h i (List.mem_range.1 hi)
  rw [flatMap_slice l hcut] at hparts
  exact hparts.trans ((List.drop_sublist _ _).trans (List.take_sublist _ _))

theorem concat_cut {l before after : List α} {x y : α} (h : l ++ [y] = before ++ x :: after) :
    (l = before ∧ y = x ∧ after = []) ∨ ∃ after', after = after' ++ [y] ∧ l = before ++ x :: after' := by
  rcases List.eq_nil_or_concat after with rfl | ⟨after', z, rfl⟩
  · obtain ⟨hl, hy⟩ := List.append_singleton_inj.1 h
    exact Or.inl ⟨hl, hy, rfl⟩
  · rw [List.concat_eq_append, ← List.cons_append, ← List.append_assoc] at h
    obtain ⟨hl, rfl⟩ := List.append_singleton_inj.1 h
    exact Or.inr ⟨after', List.concat_eq_append, hl⟩

/-- One element is replaced. -/
theorem filterMap_set_perm {β : Type*} {f : α → Option β} {l : List α} {i : Nat} {a : α} (h : l[i]? = some a) (b : α) :
    ((l.set i b).filterMap f ++ (f a).toList).Perm (l.filterMap f ++ (f b).toList) := by
  obtain ⟨hi, rfl⟩ := List.getElem?_eq_some_iff.1 h
  have hcons (x : α) : (x :: l.eraseIdx i).filterMap f = (f x).toList ++ (l.eraseIdx i).filterMap f := by
    rw [List.filterMap_cons]
    cases f x <;> rfl
  have hset := (List.set_perm_cons_eraseIdx hi b).filterMap f
  have hget := (List.getElem_cons_eraseIdx_perm hi).filterMap f
  rw [hcons] at hset hget
  refine (hset.append_right _).trans (.trans ?_ (hget.append_right _))
  rw [List.append_assoc]
  exact List.perm_append_comm.trans (List.perm_append_comm.append_right _)

theorem prefix_induction {l : List α} {P : List α → Prop} (hnil : P [])
    (hstep : ∀ before x after, l = before ++ x :: after → P before → P (before ++ [x])) :
    ∀ before after, l = before ++ after → P before := by
  intro before
  induction before using List.reverseRecOn with
  | nil => exact fun _ _ => hnil
  | append_singleton before x ih =>
    intro after h
    rw [List.append_assoc, List.singleton_append] at h
    exact hstep before x after h (ih _ h)

section
variable {β : Type*} {f : α → Option β} {l : List α} {k : Nat} {x : α} {y : β}

theorem eq_take_cons_drop (hx : l[k]? = some x) : l = l.take k ++ x :: l.drop (k + 1) := by
  obtain ⟨hk, rfl⟩ := List.getElem?_eq_some_iff.1 hx
  rw [← List.drop_eq_getElem_cons hk, List.take_append_drop]

theorem filterMap_eraseIdx_of_none (hx : l[k]? = some x) (hf : f x = none) :
    (l.eraseIdx k).filterMap f = l.filterMap f := by
  conv_rhs => rw [eq_take_cons_drop hx]
  rw [List.eraseIdx_eq_take_drop_succ, List.filterMap_append, List.filterMap_append, List.filterMap_cons_none hf]

theorem filterMap_of_some (hx : l[k]? = some x) (hf : f x = some y) :
    l.filterMap f = (l.take k).filterMap f ++ y :: (l.drop (k + 1)).filterMap f := by
  conv_lhs => rw [eq_take_cons_drop hx]
  rw [List.filterMap_append, List.filterMap_cons_some hf]

theorem getElem?_filterMap_of_some (hx : l[k]? = some x) (hf : f x = some y) :
    (l.filterMap f)[((l.take k).filterMap f).length]? = some y := by
  rw [filterMap_of_some hx hf, List.getElem?_append_right (Nat.le_refl _), Nat.sub_self, List.getElem?_cons_zero]

theorem filterMap_eraseIdx_of_some (hx : l[k]? = some x) (hf : f x = some y) :
    (l.eraseIdx k).filterMap f = (l.filterMap f).eraseIdx ((l.take k).filterMap f).length := by
  rw [filterMap_of_some hx hf, List.eraseIdx_append_of_length_le (Nat.le_refl _), Nat.sub_self,
    List.eraseIdx_eq_take_drop_succ, List.filterMap_append]
  rfl

theorem any_eraseIdx_of_not {p : α → Bool} (hx : l[k]? = some x) (hp : p x = false) (h : l.any p) :
    (l.eraseIdx k).any p := by
  obtain ⟨y, hy, hpy⟩ := List.any_eq_true.1 h
  obtain ⟨i, hi⟩ := List.getElem?_of_mem hy
  refine List.any_eq_true.2 ⟨y, List.mem_eraseIdx_iff_getElem?.2 ⟨i, ?_, hi⟩, hpy⟩
  rintro rfl
  rw [hx, Option.some.injEq] at hi
  rw [hi, hpy] at hp
  exact Bool.noConfusion hp

end

end Lib
