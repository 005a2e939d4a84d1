import Mathlib.Data.List.Basic

/-!
# Command lines

A program reads the words of its command line from the left: a separator makes all that follows positional, an option
is a flag or takes the next word as its value, and any other word is positional. `Arg.words` writes arguments as words,
and words that are written from `Valid` arguments are read as these (`read_words`), whatever the values look like. One
positional word that looks like an option is not (`read_option_ne`).
-/

namespace Lib
variable {W : Type} [DecidableEq W]

structure OptionTable (W : Type) where
  isOption : W → Bool
  takesValue : W → Bool
  separator : W

inductive Arg (W : Type)
  | flag (name : W)
  | setting (name value : W)
  | positional (word : W)
  deriving DecidableEq

def Arg.words : Arg W → List W
  | flag name => [name]
  | setting name value => [name, value]
  | positional word => [word]

namespace OptionTable

def read (t : OptionTable W) : List W → List (Arg W)
  | [] => []
  | w :: ws =>
    if w = t.separator then ws.map .positional
    else if t.isOption w then
      if t.takesValue w then
        match ws with
        | [] => [.flag w]
        | v :: ws => .setting w v :: read t ws
      else .flag w :: read t ws
    else .positional w :: read t ws

/-- The argument is read as what it is. -/
def Valid (t : OptionTable W) : Arg W → Prop
  | .flag name => name ≠ t.separator ∧ t.isOption name = true ∧ t.takesValue name = false
  | .setting name _ => name ≠ t.separator ∧ t.isOption name = true ∧ t.takesValue name = true
  | .positional word => word ≠ t.separator ∧ t.isOption word = false

variable {t : OptionTable W}

theorem read_cons {a : Arg W} (h : t.Valid a) (rest : List W) : t.read (a.words ++ rest) = a :: t.read rest := by
  rcases a with name | ⟨name, value⟩ | word
  · obtain ⟨hsep, hopt, hvalue⟩ := h
    show t.read (name :: rest) = _
    rw [read.eq_def]
    simp only [hsep, hopt, hvalue, if_false, if_true, Bool.false_eq_true]
  · obtain ⟨hsep, hopt, hvalue⟩ := h
    show t.read (name :: value :: rest) = _
    rw [read.eq_def]
    simp only [hsep, hopt, hvalue, if_false, if_true]
  · obtain ⟨hsep, hopt⟩ := h
    show t.read (word :: rest) = _
    rw [read.eq_def]
    simp only [hsep, hopt, if_false, Bool.false_eq_true]

/-- What is written from valid arguments is read as these, in front of any other words. -/
theorem read_words_append {args : List (Arg W)} (h : ∀ a ∈ args, t.Valid a) (rest : List W) :
    t.read (args.flatMap Arg.words ++ rest) = args ++ t.read rest := by
  induction args with
  | nil => rfl
  | cons a args ih =>
    rw [List.forall_mem_cons] at h
    rw [List.flatMap_cons, List.append_assoc, read_cons h.1, ih h.2, List.cons_append]

theorem read_words {args : List (Arg W)} (h : ∀ a ∈ args, t.Valid a) : t.read (args.flatMap Arg.words) = args := by
  have hread := read_words_append h []
  rwa [List.append_nil, show t.read [] = [] from rfl, List.append_nil] at hread

/-- A last word that looks like an option is not read as a positional one. -/
theorem read_option_ne {w : W} (h : t.isOption w = true) : t.read [w] ≠ [.positional w] := by
  rw [read.eq_def]
  by_cases hsep : w = t.separator
  · simp [hsep]
  · by_cases hvalue : t.takesValue w = true <;> simp [hsep, h, hvalue, read]

end OptionTable

end Lib
