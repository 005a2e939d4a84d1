import Mathlib.Data.List.Basic
import XVideoDownloader.Lib.Utf8

/-!
# Paths under Unix rules

A path is the text between slashes, with the reading of the Rust standard library: empty pieces do not count, and `.`
counts only at the start of a relative path. It may be text or bytes of which only the slash and the dot are known.
Joining a plain name adds one component (`components_join`), joining nothing adds none (`components_join_nil`), and the
last component of a path is a plain name if it is not `..` (`named_of_fileName`).
-/

namespace Lib

/-- What a path is made of. -/
class PathUnit (α : Type*) where
  slash : α
  dot : α

instance : PathUnit Char := ⟨'/', '.'⟩

instance : PathUnit UInt8 := ⟨0x2F, 0x2E⟩

namespace UnixPath
open PathUnit

theorem not_mem_of_mem_splitOn {α : Type*} [DecidableEq α] {sep : α} {l w : List α} (h : w ∈ l.splitOn sep) :
    sep ∉ w := by
  induction l generalizing w with
  | nil =>
    rw [List.splitOn_nil, List.mem_singleton] at h
    simp [h]
  | cons x l ih =>
    rw [List.splitOn_cons_eq_if_modifyHead] at h
    by_cases hx : x = sep
    · rw [if_pos (by simpa using hx)] at h
      rcases List.mem_cons.1 h with rfl | h
      · simp
      · exact ih h
    · rw [if_neg (by simpa using hx)] at h
      obtain ⟨first, rest, hl⟩ := List.exists_cons_of_ne_nil (List.splitOn_ne_nil sep l)
      rw [hl] at h ih
      rcases List.mem_cons.1 h with rfl | h
      · rw [List.mem_cons, not_or]
        exact ⟨Ne.symm hx, ih List.mem_cons_self⟩
      · exact ih (List.mem_cons_of_mem _ h)

variable {α : Type*} [PathUnit α]

/-- A component that names something in its directory. -/
structure Named (c : List α) : Prop where
  ne_nil : c ≠ []
  ne_dot : c ≠ [dot]
  ne_dotdot : c ≠ [dot, dot]
  slash_not_mem : slash ∉ c

variable [DecidableEq α]

/-- Other than empty and `.`. -/
def counts (c : List α) : Bool := c ≠ [] && c ≠ [dot]

def isAbsolute (p : List α) : Bool := p.head? = some slash

/-- Of the first piece `.` counts as well. -/
def names (p : List α) : List (List α) :=
  ((p.splitOn slash).take 1).filter (· ≠ []) ++ ((p.splitOn slash).drop 1).filter counts

/-- Whether there is a root, and the components behind it. -/
def components (p : List α) : Bool × List (List α) := (isAbsolute p, names p)

/-- An absolute `name` replaces the directory. -/
def join (dir name : List α) : List α :=
  if isAbsolute name then name
  else if dir = [] then name
  else if dir.getLast? = some slash then dir ++ name
  else dir ++ slash :: name

def fileName (p : List α) : Option (List α) :=
  match ((p.splitOn slash).filter counts).getLast? with
  | some c => if c = [dot, dot] then none else some c
  | none => none

/-- `p` is `dir` with one name more. -/
def Child (dir p : List α) : Prop := ∃ c, Named c ∧ components p = (isAbsolute dir, names dir ++ [c])

variable {dir p c : List α}

theorem names_append (dir : List α) (hc : slash ∉ c) : names (dir ++ slash :: c) = names dir ++ [c].filter counts := by
  obtain ⟨first, rest, hdir⟩ := List.exists_cons_of_ne_nil (List.splitOn_ne_nil slash dir)
  rw [names, names, List.splitOn_append_cons_self, List.splitOn_eq_singleton hc, hdir]
  simp [List.filter_append]

theorem names_append_slash (dir : List α) : names (dir ++ [slash]) = names dir := by
  rw [names_append dir (by simp)]
  simp [counts]

theorem isAbsolute_append (hdir : dir ≠ []) (l : List α) : isAbsolute (dir ++ l) = isAbsolute dir := by
  rw [isAbsolute, isAbsolute, List.head?_append_of_ne_nil _ hdir]

theorem Named.counts (h : Named c) : counts c = true := by
  simp [UnixPath.counts, h.ne_nil, h.ne_dot]

theorem Named.not_isAbsolute (h : Named c) : isAbsolute c = false := by
  rcases c with _ | ⟨x, c⟩
  · rfl
  · have hx : x ≠ slash := fun he => h.slash_not_mem (he ▸ List.mem_cons_self)
    simp [isAbsolute, hx]

theorem names_of_named (h : Named c) : names c = [c] := by
  rw [names, List.splitOn_eq_singleton h.slash_not_mem]
  simp [h.ne_nil]

/-- A name that is joined becomes the last component. -/
theorem components_join (dir : List α) (h : Named c) :
    components (join dir c) = (isAbsolute dir, names dir ++ [c]) := by
  have hfilter : [c].filter UnixPath.counts = [c] := List.filter_cons_of_pos h.counts
  rw [join, h.not_isAbsolute, if_neg Bool.false_ne_true]
  by_cases hdir : dir = []
  · rw [if_pos hdir, hdir, components, h.not_isAbsolute, names_of_named h]
    rfl
  rw [if_neg hdir, components]
  by_cases hlast : dir.getLast? = some slash
  · obtain ⟨d, rfl⟩ := List.getLast?_eq_some_iff.1 hlast
    rw [if_pos hlast, isAbsolute_append hdir, List.append_assoc, List.singleton_append,
      names_append d h.slash_not_mem, names_append_slash, hfilter]
  · rw [if_neg hlast, isAbsolute_append hdir, names_append dir h.slash_not_mem, hfilter]

/-- Nothing that is joined leaves the directory, at most with a slash behind it. -/
theorem components_join_nil (dir : List α) : components (join dir []) = components dir := by
  rw [join, if_neg (by simp [isAbsolute])]
  by_cases hdir : dir = []
  · rw [if_pos hdir, hdir]
  rw [if_neg hdir]
  by_cases hlast : dir.getLast? = some slash
  · rw [if_pos hlast, List.append_nil]
  · rw [if_neg hlast, components, components, isAbsolute_append hdir, names_append_slash]

theorem named_of_fileName (h : fileName p = some c) : Named c := by
  unfold fileName at h
  split at h
  · rename_i last hlast
    split at h
    · cases h
    · rename_i hdots
      cases h
      obtain ⟨hmem, hcounts⟩ := List.mem_filter.1 (List.mem_of_getLast? hlast)
      simp only [UnixPath.counts, ne_eq, Bool.and_eq_true, decide_not, Bool.not_eq_true',
        decide_eq_false_iff_not] at hcounts
      exact ⟨hcounts.1, hcounts.2, hdots, not_mem_of_mem_splitOn hmem⟩
  · cases h

theorem child_join (dir : List α) (h : Named c) : Child dir (join dir c) := ⟨c, h, components_join dir h⟩

theorem not_child_join_nil (dir : List α) : ¬ Child dir (join dir []) := by
  rintro ⟨c, -, hc⟩
  rw [components_join_nil, components, Prod.mk.injEq] at hc
  have hlen := congrArg List.length hc.2
  simp at hlen

/-- Nor does a dot that is joined. -/
theorem not_child_join_dot (hdot : (dot : α) ≠ slash) (dir : List α) : ¬ Child dir (join dir [dot]) := by
  have hslash : (slash : α) ∉ [dot] := by simpa using hdot.symm
  rintro ⟨c, hc, h⟩
  rw [join, if_neg (by simpa [isAbsolute] using hdot)] at h
  by_cases hdir : dir = []
  · have hnil : names ([] : List α) = [] := by simp [names]
    have hnames : names [dot] = [[(dot : α)]] := by simp [names, List.splitOn_eq_singleton hslash]
    rw [if_pos hdir, hdir, components, Prod.mk.injEq, hnames, hnil] at h
    exact hc.ne_dot (List.singleton_inj.1 h.2).symm
  have hlen : ∀ d : List α, names d = names dir → names (d ++ slash :: [dot]) ≠ names dir ++ [c] := by
    intro d hd he
    rw [names_append d hslash, hd] at he
    simpa [UnixPath.counts] using congrArg List.length he
  rw [if_neg hdir] at h
  by_cases hlast : dir.getLast? = some slash
  · obtain ⟨d, rfl⟩ := List.getLast?_eq_some_iff.1 hlast
    rw [if_pos hlast, List.append_assoc, components, Prod.mk.injEq] at h
    exact hlen d (names_append_slash d).symm h.2
  · rw [if_neg hlast, components, Prod.mk.injEq] at h
    exact hlen dir rfl h.2

/-- A plain name stays one when it is encoded. -/
theorem Named.utf8 {s : String} (h : Named s.toList) : Named (utf8 s) where
  ne_nil he := h.ne_nil (by simp [utf8_eq_nil.1 he])
  ne_dot he := by
    rw [show [dot] = Lib.utf8 "." by decide, utf8_inj] at he
    exact h.ne_dot (by simp [he, dot])
  ne_dotdot he := by
    rw [show [dot, dot] = Lib.utf8 ".." by decide, utf8_inj] at he
    exact h.ne_dotdot (by simp [he, dot])
  slash_not_mem := not_mem_utf8 rfl (by decide) h.slash_not_mem

end UnixPath
end Lib
