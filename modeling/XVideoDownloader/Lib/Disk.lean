import Mathlib.Logic.Function.Basic

/-!
# Files written byte by byte

`std::fs::write` truncates the file and then writes its bytes from left to right. `write` is the list of these steps,
so that what a crash leaves is what the first few of them leave: of two writes one after the other, each file is as it
was, cut, or complete (`after_take_write_fst`, `after_take_write_snd`).
-/

namespace Lib

/-- The contents of the files that there are. -/
abbrev Disk (ν : Type) := ν → Option (List UInt8)

inductive DiskStep (ν : Type)
  | truncate (name : ν)
  | append (name : ν) (b : UInt8)

/-- The contents of a file of which `n` of the steps of a write have been taken. -/
def cut (old : Option (List UInt8)) (bytes : List UInt8) (n : Nat) : Option (List UInt8) :=
  if n = 0 then old else some (bytes.take (n - 1))

namespace Disk
variable {ν : Type} {a b : ν} {x y : List UInt8} {n : Nat}

def write (name : ν) (bytes : List UInt8) : List (DiskStep ν) := .truncate name :: bytes.map (.append name)

theorem length_write : (write a x).length = x.length + 1 := by simp [write]

theorem cut_length {old : Option (List UInt8)} : cut old x (x.length + 1) = some x := by simp [cut]

variable [DecidableEq ν] {d : Disk ν}

def step (d : Disk ν) : DiskStep ν → Disk ν
  | .truncate name => Function.update d name (some [])
  | .append name b => Function.update d name (some ((d name).getD [] ++ [b]))

def after (d : Disk ν) (steps : List (DiskStep ν)) : Disk ν := steps.foldl step d

theorem after_append (steps steps' : List (DiskStep ν)) : d.after (steps ++ steps') = (d.after steps).after steps' :=
  List.foldl_append

theorem after_map_append (h : d a = some y) : d.after (x.map (.append a)) = Function.update d a (some (y ++ x)) := by
  induction x generalizing d y with
  | nil => simp [after, ← h]
  | cons b x ih =>
    have hstep : d.step (.append a b) = Function.update d a (some (y ++ [b])) := by simp [step, h]
    show (d.step (.append a b)).after (x.map (.append a)) = _
    rw [hstep, ih (Function.update_self a _ d)]
    simp

theorem after_take_write : d.after ((write a x).take n) = Function.update d a (cut (d a) x n) := by
  rcases n with _ | n
  · simp [after, cut]
  · have htrunc : d.step (.truncate a) = Function.update d a (some []) := rfl
    show (d.step (.truncate a)).after ((x.map (.append a)).take n) = _
    rw [← List.map_take, htrunc, after_map_append (Function.update_self a _ d)]
    simp [cut]

theorem after_write : d.after (write a x) = Function.update d a (some x) := by
  have h := after_take_write (d := d) (a := a) (x := x) (n := x.length + 1)
  rwa [List.take_of_length_le (Nat.le_of_eq length_write), cut_length] at h

/-- The file that is written first. -/
theorem after_take_write_fst (hab : a ≠ b) : d.after ((write a x ++ write b y).take n) a = cut (d a) x n := by
  rw [List.take_append, after_append, after_take_write, after_take_write, Function.update_of_ne hab,
    Function.update_self]

/-- The file that is written second. -/
theorem after_take_write_snd (hab : a ≠ b) :
    d.after ((write a x ++ write b y).take n) b = cut (d b) y (n - (x.length + 1)) := by
  rw [List.take_append, after_append, after_take_write, after_take_write, Function.update_self,
    Function.update_of_ne (Ne.symm hab), length_write]

end Disk
end Lib
