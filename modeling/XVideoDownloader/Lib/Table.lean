import Mathlib.Data.List.Basic
import Mathlib.Data.List.Pairwise

/-!
# Tables with uniqueness constraints

A `Table ρ Clash` is the list of its rows in insertion order. `Clash a b` says that `a` and `b` cannot
both be stored (they agree on a primary key or on another unique column); `Table.unique` is carried by
the table itself, so no operation can build one that breaks it.
-/

namespace Lib

structure Table (ρ : Type) (Clash : ρ → ρ → Prop) where
  rows : List ρ
  unique : rows.Pairwise fun a b => ¬ Clash a b
  deriving DecidableEq

namespace Table
variable {ρ : Type} {Clash : ρ → ρ → Prop}

/-- `f` may be applied to stored rows: it does not touch what `Clash` looks at. -/
def KeepsKey (Clash : ρ → ρ → Prop) (f : ρ → ρ) : Prop :=
  ∀ a b, (Clash (f a) b ↔ Clash a b) ∧ (Clash b (f a) ↔ Clash b a)

theorem KeepsKey.ite {f : ρ → ρ} (hf : KeepsKey Clash f) (p : ρ → Prop) [DecidablePred p] :
    KeepsKey Clash fun r => if p r then f r else r := by
  intro a b
  dsimp only
  split
  · exact hf a b
  · exact ⟨Iff.rfl, Iff.rfl⟩

def empty : Table ρ Clash := ⟨[], .nil⟩

/-- `INSERT`: refused when the new row clashes with a stored one. -/
def insert [DecidableRel Clash] (t : Table ρ Clash) (r : ρ) : Option (Table ρ Clash) :=
  if h : ∀ x ∈ t.rows, ¬ Clash x r then
    some ⟨t.rows ++ [r], List.pairwise_append.2 ⟨t.unique, List.pairwise_singleton _ _, by simpa using h⟩⟩
  else none

/-- `UPDATE … SET f WHERE p`. -/
def modify (t : Table ρ Clash) (p : ρ → Prop) [DecidablePred p] (f : ρ → ρ) (hf : KeepsKey Clash f) :
    Table ρ Clash :=
  ⟨t.rows.map fun r => if p r then f r else r, by
    refine List.pairwise_map.2 (t.unique.imp fun {a b} h hc => h ?_)
    have hab := hf.ite p a (if p b then f b else b)
    exact (hf.ite p b a).2.1 (hab.1.1 hc)⟩

/-- `DELETE … WHERE p`. -/
def delete (t : Table ρ Clash) (p : ρ → Prop) [DecidablePred p] : Table ρ Clash :=
  ⟨t.rows.filter fun r => !p r, t.unique.filter _⟩

/-- Insertion into a map: the row replaces the ones it clashes with. -/
def put [DecidableRel Clash] (t : Table ρ Clash) (r : ρ) : Table ρ Clash :=
  ⟨t.rows.filter (fun x => ¬ Clash x r) ++ [r], by
    refine List.pairwise_append.2 ⟨t.unique.filter _, List.pairwise_singleton _ _, fun a ha b hb => ?_⟩
    rw [List.mem_singleton.1 hb]
    simpa using (List.mem_filter.1 ha).2⟩

@[ext] theorem ext {t t' : Table ρ Clash} (h : t.rows = t'.rows) : t = t' := by
  cases t
  cases t'
  cases h
  rfl

@[simp] theorem rows_empty : (empty : Table ρ Clash).rows = [] := rfl

theorem insert_eq_some [DecidableRel Clash] {t t' : Table ρ Clash} {r : ρ} :
    t.insert r = some t' ↔ (∀ x ∈ t.rows, ¬ Clash x r) ∧ t'.rows = t.rows ++ [r] := by
  unfold insert
  split <;> rename_i h
  · obtain ⟨rows', unique'⟩ := t'
    simp only [Option.some.injEq, mk.injEq]
    exact ⟨fun e => ⟨h, e.symm⟩, fun e => e.2.symm⟩
  · constructor
    · intro e
      cases e
    · intro e
      exact absurd e.1 h

theorem insert_eq_none [DecidableRel Clash] {t : Table ρ Clash} {r : ρ} :
    t.insert r = none ↔ ∃ x ∈ t.rows, Clash x r := by
  unfold insert
  split <;> rename_i h
  · constructor
    · intro e
      cases e
    · rintro ⟨x, hx, hc⟩
      exact absurd hc (h x hx)
  · simpa using h

@[simp] theorem rows_modify (t : Table ρ Clash) (p : ρ → Prop) [DecidablePred p] (f : ρ → ρ)
    (hf : KeepsKey Clash f) :
    (t.modify p f hf).rows = t.rows.map fun r => if p r then f r else r := rfl

@[simp] theorem rows_delete (t : Table ρ Clash) (p : ρ → Prop) [DecidablePred p] :
    (t.delete p).rows = t.rows.filter fun r => !p r := rfl

@[simp] theorem rows_put [DecidableRel Clash] (t : Table ρ Clash) (r : ρ) :
    (t.put r).rows = t.rows.filter (fun x => ¬ Clash x r) ++ [r] := rfl

theorem rows_put_of_forall [DecidableRel Clash] {t : Table ρ Clash} {r : ρ} (h : ∀ x ∈ t.rows, ¬ Clash x r) :
    (t.put r).rows = t.rows ++ [r] := by
  rw [rows_put, List.filter_eq_self.2 (by simpa using h)]

theorem insert_eq_put [DecidableRel Clash] {t : Table ρ Clash} {r : ρ} (h : ∀ x ∈ t.rows, ¬ Clash x r) :
    t.insert r = some (t.put r) :=
  insert_eq_some.2 ⟨h, rows_put_of_forall h⟩

/-- Two stored rows that clash are one row. -/
theorem eq_of_clash (t : Table ρ Clash) {a b : ρ} (ha : a ∈ t.rows) (hb : b ∈ t.rows)
    (hab : Clash a b) (hba : Clash b a) : a = b := by
  by_contra hne
  have hp : t.rows.Pairwise fun a b => ¬ Clash a b ∨ ¬ Clash b a := t.unique.imp fun h => Or.inl h
  have : Std.Symm fun a b => ¬ Clash a b ∨ ¬ Clash b a := ⟨fun _ _ => Or.symm⟩
  rcases hp.forall ha hb hne with h | h
  · exact h hab
  · exact h hba

theorem find?_eq_some (t : Table ρ Clash) {p : ρ → Bool} {r : ρ} (hr : r ∈ t.rows) (hp : p r = true)
    (hu : ∀ x, p x = true → Clash x r ∧ Clash r x) : t.rows.find? p = some r := by
  cases hx : t.rows.find? p with
  | none => exact absurd hp (by simpa using List.find?_eq_none.1 hx r hr)
  | some x =>
    have hc := hu x (List.find?_some hx)
    rw [t.eq_of_clash (List.mem_of_find?_eq_some hx) hr hc.1 hc.2]

end Table

/-- Where each row makes an `R` step, each is the end of one. -/
theorem exists_of_map {ρ : Type} {R : ρ → ρ → Prop} {f : ρ → ρ} {l l' : List ρ} (h : l' = l.map f)
    (hR : ∀ r ∈ l, R r (f r)) : (∀ r ∈ l, ∃ r' ∈ l', R r r') ∧ ∀ r' ∈ l', ∃ r ∈ l, R r r' := by
  subst h
  constructor
  · intro r hr
    exact ⟨f r, List.mem_map_of_mem hr, hR r hr⟩
  · intro r' hr'
    obtain ⟨r, hr, rfl⟩ := List.mem_map.1 hr'
    exact ⟨r, hr, hR r hr⟩

end Lib
