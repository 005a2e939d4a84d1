/-!
# State in memory with a copy in files

An operation edits the state in memory and then writes the whole state to its files. `commit` is that order of
events: the edit may be refused, the write may fail, and a failed write does not undo the edit. `commit_invariant`
and `leavesNoTrace_commit` say what this order is good for and what it is not.
-/

namespace Lib

/-- A text form of the values of a type; either direction may fail. -/
class Codec (τ : Type) where
  encode : τ → Except String String
  decode : String → Except String τ

/-- How a write to a file ends. One that fails may leave anything in the file, or no file at all. -/
inductive FileWrite
  | done
  | failed (error : String) (left : Option String)

def FileWrite.run (w : FileWrite) (text : String) : Except String Unit × Option String :=
  match w with
  | done => (.ok (), some text)
  | failed error left => (.error error, left)

theorem FileWrite.run_ok {w : FileWrite} {text : String} : (w.run text).1 = .ok () ↔ w = done := by
  cases w with
  | done => exact ⟨fun _ => rfl, fun _ => rfl⟩
  | failed => constructor <;> intro h <;> cases h

section
variable {ε σ δ α : Type} {edit : σ → Except ε σ} {save : σ → δ → Except ε Unit × δ} {s : σ} {d : δ}

/-- Edit the state `s`, then save it to the files `d`. -/
def commit (edit : σ → Except ε σ) (save : σ → δ → Except ε Unit × δ) (s : σ) (d : δ) :
    Except ε Unit × σ × δ :=
  match edit s with
  | .error e => (.error e, s, d)
  | .ok s' => ((save s' d).1, s', (save s' d).2)

theorem commit_of_error {e : ε} (h : edit s = .error e) : commit edit save s d = (.error e, s, d) := by
  rw [commit, h]

theorem commit_of_ok {s' : σ} (h : edit s = .ok s') :
    commit edit save s d = ((save s' d).1, s', (save s' d).2) := by
  rw [commit, h]

/-- Whatever becomes of the save, the state is the old one or the edited one. -/
theorem commit_invariant {J : σ → Prop} (hs : J s) (hedit : ∀ s', edit s = .ok s' → J s') :
    J (commit edit save s d).2.1 := by
  cases he : edit s with
  | error e =>
    rw [commit_of_error he]
    exact hs
  | ok s' =>
    rw [commit_of_ok he]
    exact hedit s' he

/-- If the result is an error, the state in memory is still `s`. -/
def LeavesNoTrace (s : σ) (r : Except ε α × σ × δ) : Prop := (∃ e, r.1 = .error e) → r.2.1 = s

theorem leavesNoTrace_map {β : Type} {f : α → β} {r : Except ε α × σ × δ} :
    LeavesNoTrace s (r.1.map f, r.2) ↔ LeavesNoTrace s r := by
  unfold LeavesNoTrace
  cases r.1 <;> simp [Except.map]

/-- A failing operation leaves no trace when it is refused, when there is nothing to edit and when the save
succeeds, and otherwise it does. -/
theorem leavesNoTrace_commit :
    LeavesNoTrace s (commit edit save s d) ↔
      (∃ e, edit s = .error e) ∨ edit s = .ok s ∨ ∀ s', edit s = .ok s' → (save s' d).1 = .ok () := by
  cases he : edit s with
  | error e =>
    rw [commit_of_error he]
    exact ⟨fun _ => Or.inl ⟨e, rfl⟩, fun _ _ => rfl⟩
  | ok s' =>
    rw [commit_of_ok he]
    constructor
    · intro h
      right
      cases hr : (save s' d).1 with
      | error e => exact Or.inl (congrArg Except.ok (h ⟨e, hr⟩))
      | ok => exact Or.inr fun s'' hs => by rwa [← Except.ok.inj hs]
    · rintro (⟨e, ⟨⟩⟩ | heq | hok) ⟨e, hr⟩
      · exact Except.ok.inj heq
      · have hr : (save s' d).1 = .error e := hr
        rw [hok s' rfl] at hr
        cases hr

end
end Lib
