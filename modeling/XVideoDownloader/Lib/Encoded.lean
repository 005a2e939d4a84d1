import XVideoDownloader.Lib.Table
import Mathlib.Data.List.Dedup

/-!
# Tables whose rows are stored encoded

`Encodes enc ok t t'` says that the table `t'` holds the rows of `t`, each encoded by `enc`, and that all of them are
`ok`. Where two encoded rows clash exactly if the rows do, the operations of a table keep it, and what is selected
from `t'` and decoded is what is selected from `t`.
-/

namespace Lib
variable {ρ κ β ε : Type} {Clash : ρ → ρ → Prop} {Clash' : κ → κ → Prop}

theorem mapM_map_eq_ok {enc : ρ → κ} {dec : κ → Except ε ρ} {l : List ρ} (h : ∀ r ∈ l, dec (enc r) = .ok r) :
    (l.map enc).mapM dec = .ok l := by
  induction l with
  | nil => rfl
  | cons r l ih =>
    rw [List.map_cons, List.mapM_cons, h r List.mem_cons_self, ih fun r' hr' => h r' (List.mem_cons_of_mem _ hr')]
    rfl

structure Encodes (enc : ρ → κ) (ok : ρ → Prop) (t : Table ρ Clash) (t' : Table κ Clash') : Prop where
  rows : t'.rows = t.rows.map enc
  ok : ∀ r ∈ t.rows, ok r

namespace Encodes
variable {enc : ρ → κ} {ok ok' : ρ → Prop} {t u : Table ρ Clash} {t' : Table κ Clash'} {r : ρ}

theorem empty : Encodes enc ok (.empty : Table ρ Clash) (.empty : Table κ Clash') :=
  ⟨rfl, fun _ h => absurd h List.not_mem_nil⟩

/-- Every table can be stored. -/
theorem of (hclash : ∀ a b, Clash' (enc a) (enc b) ↔ Clash a b) (hok : ∀ r ∈ t.rows, ok r) :
    Encodes enc ok t (⟨t.rows.map enc, List.pairwise_map.2 (t.unique.imp fun h hc => h ((hclash _ _).1 hc))⟩ :
      Table κ Clash') :=
  ⟨rfl, hok⟩

theorem mono (h : Encodes enc ok t t') (hok : ∀ r, ok r → ok' r) : Encodes enc ok' t t' :=
  ⟨h.rows, fun r hr => hok r (h.ok r hr)⟩

theorem exists_clash (hclash : ∀ a b, Clash' (enc a) (enc b) ↔ Clash a b) (h : Encodes enc ok t t') (r : ρ) :
    (∃ x ∈ t'.rows, Clash' x (enc r)) ↔ ∃ x ∈ t.rows, Clash x r := by
  rw [h.rows]
  simp only [List.mem_map, exists_exists_and_eq_and, hclash]

section
variable [DecidableRel Clash] [DecidableRel Clash']

theorem insert_none (hclash : ∀ a b, Clash' (enc a) (enc b) ↔ Clash a b) (h : Encodes enc ok t t')
    (hr : t.insert r = none) : t'.insert (enc r) = none :=
  Table.insert_eq_none.2 ((h.exists_clash hclash r).2 (Table.insert_eq_none.1 hr))

theorem insert_some (hclash : ∀ a b, Clash' (enc a) (enc b) ↔ Clash a b) (h : Encodes enc ok t t')
    (hr : t.insert r = some u) (hok : ok r) : ∃ u', t'.insert (enc r) = some u' ∧ Encodes enc ok u u' := by
  obtain ⟨hfree, hrows⟩ := Table.insert_eq_some.1 hr
  have hfree' : ∀ x ∈ t'.rows, ¬ Clash' x (enc r) := by
    intro x hx hc
    obtain ⟨y, hy, hcy⟩ := (h.exists_clash hclash r).1 ⟨x, hx, hc⟩
    exact hfree y hy hcy
  refine ⟨t'.put (enc r), Table.insert_eq_put hfree', ?_, ?_⟩
  · rw [Table.rows_put_of_forall hfree', hrows, h.rows, List.map_append]
    rfl
  · intro x hx
    rw [hrows] at hx
    rcases List.mem_append.1 hx with hx | hx
    · exact h.ok x hx
    · exact List.mem_singleton.1 hx ▸ hok

end

theorem update {p : ρ → Prop} [DecidablePred p] {p' : κ → Prop} [DecidablePred p'] {f : ρ → ρ} {f' : κ → κ}
    {u' : Table κ Clash'} (h : Encodes enc ok t t') (hu : u.rows = t.rows.map fun r => if p r then f r else r)
    (hu' : u'.rows = t'.rows.map fun r => if p' r then f' r else r) (hok : ∀ r, ok r → ok' r)
    (hp : ∀ r, p' (enc r) ↔ p r) (henc : ∀ r, ok r → f' (enc r) = enc (f r)) (hset : ∀ r, ok r → ok' (f r)) :
    Encodes enc ok' u u' := by
  constructor
  · rw [hu', hu, h.rows, List.map_map, List.map_map]
    refine List.map_congr_left fun r hr => ?_
    by_cases hpr : p r
    · simp only [Function.comp_apply, if_pos hpr, if_pos ((hp r).2 hpr), henc r (h.ok r hr)]
    · simp only [Function.comp_apply, if_neg hpr, if_neg (mt (hp r).1 hpr)]
  · intro r' hr'
    rw [hu] at hr'
    obtain ⟨r, hr, rfl⟩ := List.mem_map.1 hr'
    split
    · exact hset r (h.ok r hr)
    · exact hok r (h.ok r hr)

/-- What is decoded of the selected rows are the rows that the plain selection gives. -/
theorem filter_mapM {p : ρ → Prop} [DecidablePred p] {p' : κ → Prop} [DecidablePred p'] {dec : κ → Except ε ρ}
    (h : Encodes enc ok t t') (hp : ∀ r, p' (enc r) ↔ p r) (hdec : ∀ r, ok r → dec (enc r) = .ok r) :
    (t'.rows.filter fun x => p' x).mapM dec = .ok (t.rows.filter fun r => p r) := by
  have hfilter : t'.rows.filter (fun x => p' x) = (t.rows.filter fun r => p r).map enc := by
    rw [h.rows, List.filter_map]
    exact congrArg _ (List.filter_congr fun r _ => decide_eq_decide.2 (hp r))
  rw [hfilter]
  exact mapM_map_eq_ok fun r hr => hdec r (h.ok r (List.mem_filter.1 hr).1)

theorem find? {p : ρ → Prop} [DecidablePred p] {p' : κ → Prop} [DecidablePred p'] (h : Encodes enc ok t t')
    (hp : ∀ r, p' (enc r) ↔ p r) : (t'.rows.find? fun x => p' x) = (t.rows.find? fun r => p r).map enc := by
  rw [h.rows, List.find?_map]
  exact congrArg (fun q => (t.rows.find? q).map enc) (funext fun r => decide_eq_decide.2 (hp r))

theorem any {p : ρ → Prop} [DecidablePred p] {p' : κ → Prop} [DecidablePred p'] (h : Encodes enc ok t t')
    (hp : ∀ r, p' (enc r) ↔ p r) : (t'.rows.any fun x => p' x) = t.rows.any fun r => p r := by
  rw [h.rows, List.any_map]
  exact congrArg _ (funext fun r => decide_eq_decide.2 (hp r))

/-- The values of a column, each once. -/
theorem dedup_map [DecidableEq β] {γ : Type} [DecidableEq γ] {g : ρ → β} {g' : κ → γ} {write : β → γ} {dec : γ → Except ε β}
    (h : Encodes enc ok t t') (hg : ∀ r, g' (enc r) = write (g r)) (hdec : ∀ b, dec (write b) = .ok b) :
    ((t'.rows.map g').dedup).mapM dec = .ok ((t.rows.map g).dedup) := by
  have hinj : Function.Injective write := fun a b hab => by
    have hdec' := hdec a
    rw [hab, hdec b] at hdec'
    exact (Except.ok.inj hdec').symm
  have hmap : t'.rows.map g' = (t.rows.map g).map write := by
    rw [h.rows, List.map_map, List.map_map]
    exact List.map_congr_left fun r _ => hg r
  rw [hmap, List.dedup_map_of_injective hinj]
  exact mapM_map_eq_ok fun b _ => hdec b

end Encodes
end Lib
