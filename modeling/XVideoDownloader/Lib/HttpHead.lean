import XVideoDownloader.Lib.Utf8

/-!
# The head of an HTTP response

How a client reads the bytes of a response: lines that end with CRLF, up to an empty one (`readHead`), and then
the body. A header is looked up by its name; its first occurrence counts. Numbers are decimal.
-/

namespace Lib

/-- The lines before the first empty line, and what comes behind it; `line` is what has been read of the present
line. -/
def readHeadFrom (line : List UInt8) : List UInt8 → Option (List (List UInt8) × List UInt8)
  | 13 :: 10 :: rest =>
    if line = [] then some ([], rest) else (readHeadFrom [] rest).map fun p => (line :: p.1, p.2)
  | b :: rest => readHeadFrom (line ++ [b]) rest
  | [] => none

def readHead (bs : List UInt8) : Option (List (List UInt8) × List UInt8) := readHeadFrom [] bs

/-- The value of the first header with that name; `name` has the colon and the space behind it. -/
def header (name : String) (lines : List (List UInt8)) : Option (List UInt8) :=
  (lines.find? fun line => (utf8 name).isPrefixOf line).map fun line => line.drop (utf8 name).length

def decimal (bs : List UInt8) : Option Nat :=
  if bs ≠ [] ∧ bs.all (fun b => 48 ≤ b && b ≤ 57) then some (bs.foldl (fun n b => 10 * n + (b.toNat - 48)) 0)
  else none

def cutAt (sep : UInt8) : List UInt8 → Option (List UInt8 × List UInt8)
  | [] => none
  | b :: bs => if b = sep then some ([], bs) else (cutAt sep bs).map fun p => (b :: p.1, p.2)

/-- `bytes {start}-{end}/{size}`. -/
def contentRange (value : List UInt8) : Option (Nat × Nat × Nat) := do
  let (unit, rest) ← cutAt 32 value
  let (first, rest) ← cutAt 45 rest
  let (last, size) ← cutAt 47 rest
  if unit = utf8 "bytes" then some (← decimal first, ← decimal last, ← decimal size) else none

/-! ### Lines -/

theorem readHeadFrom_line {line l : List UInt8} (h : 13 ∉ l) (rest : List UInt8) :
    readHeadFrom line (l ++ 13 :: 10 :: rest) =
      if line ++ l = [] then some ([], rest) else (readHeadFrom [] rest).map fun p => ((line ++ l) :: p.1, p.2) := by
  induction l generalizing line with
  | nil => simp only [List.append_nil, List.nil_append, readHeadFrom]
  | cons b l ih =>
    rw [List.mem_cons, not_or] at h
    have hstep : readHeadFrom line ((b :: l) ++ 13 :: 10 :: rest) =
        readHeadFrom (line ++ [b]) (l ++ 13 :: 10 :: rest) := by
      rw [List.cons_append, readHeadFrom]
      intro _ hb
      exact absurd hb.symm h.1
    rw [hstep, ih h.2, List.append_assoc, List.singleton_append]

/-- Whole lines at the beginning are read off one by one. -/
theorem readHead_lines {ls : List (List UInt8)} (h : ∀ l ∈ ls, l ≠ [] ∧ 13 ∉ l) (rest : List UInt8) :
    readHead (ls.flatMap (fun l => l ++ [13, 10]) ++ rest) =
      (readHead rest).map fun p => (ls ++ p.1, p.2) := by
  induction ls with
  | nil => simp
  | cons l ls ih =>
    rw [List.forall_mem_cons] at h
    rw [List.flatMap_cons, List.append_assoc, List.append_assoc, readHead]
    show readHeadFrom [] (l ++ 13 :: 10 :: (_ ++ rest)) = _
    rw [readHeadFrom_line h.1.2, List.nil_append, if_neg h.1.1]
    show (readHead _).map _ = _
    rw [ih h.2, Option.map_map]
    rfl

theorem readHead_emptyLine (rest : List UInt8) : readHead (13 :: 10 :: rest) = some ([], rest) := rfl

theorem length_of_readHeadFrom {line bs : List UInt8} {p : List (List UInt8) × List UInt8}
    (h : readHeadFrom line bs = some p) : p.2.length + 2 ≤ bs.length := by
  induction line, bs using readHeadFrom.induct generalizing p with
  | case1 rest =>
    simp only [readHeadFrom, if_true, Option.some.injEq] at h
    simp [← h]
  | case2 line rest hline ih =>
    simp only [readHeadFrom, hline, if_false, Option.map_eq_some_iff] at h
    obtain ⟨q, hq, rfl⟩ := h
    have hlen := ih hq
    simp only [List.length_cons]
    omega
  | case3 line b rest hne ih =>
    have hstep : readHeadFrom line (b :: rest) = readHeadFrom (line ++ [b]) rest := by
      rw [readHeadFrom]
      exact hne
    rw [hstep] at h
    have hlen := ih h
    rw [List.length_cons]
    omega
  | case4 line => cases h

/-- A head that has been read stays as it is, whatever comes behind. -/
theorem readHeadFrom_append {line bs : List UInt8} {p : List (List UInt8) × List UInt8}
    (h : readHeadFrom line bs = some p) (more : List UInt8) : readHeadFrom line (bs ++ more) = some (p.1, p.2 ++ more) := by
  induction line, bs using readHeadFrom.induct generalizing p with
  | case1 rest =>
    simp only [readHeadFrom, if_true, Option.some.injEq] at h
    simp [← h, readHeadFrom]
  | case2 line rest hline ih =>
    simp only [readHeadFrom, hline, if_false, Option.map_eq_some_iff] at h
    obtain ⟨q, hq, rfl⟩ := h
    simp [readHeadFrom, hline, ih hq]
  | case3 line b rest hne ih =>
    have hstep : readHeadFrom line (b :: rest) = readHeadFrom (line ++ [b]) rest := by
      rw [readHeadFrom]
      exact hne
    rw [hstep] at h
    have hmore : readHeadFrom line (b :: (rest ++ more)) = readHeadFrom (line ++ [b]) (rest ++ more) := by
      rw [readHeadFrom]
      intro rest' hb hrest
      cases rest with
      | nil => cases h
      | cons b' rest =>
        cases hrest
        exact hne rest hb rfl
    rw [List.cons_append, hmore]
    exact ih h
  | case4 line => cases h

/-! ### Headers -/

theorem header_cons_self (name : String) (value : List UInt8) (ls : List (List UInt8)) :
    header name ((utf8 name ++ value) :: ls) = some value := by
  have hpre : (utf8 name).isPrefixOf (utf8 name ++ value) = true :=
    List.isPrefixOf_iff_prefix.2 (List.prefix_append _ _)
  rw [header, List.find?_cons_of_pos hpre, Option.map_some, List.drop_left]

theorem header_cons_of_not {name : String} {line : List UInt8} {ls : List (List UInt8)}
    (h : (utf8 name).isPrefixOf line = false) : header name (line :: ls) = header name ls := by
  have hne : ¬ (utf8 name).isPrefixOf line = true := by simp [h]
  rw [header, List.find?_cons_of_neg hne]
  rfl

/-! ### Numbers -/

theorem isDigit_toDigits {n : Nat} {c : Char} (h : c ∈ Nat.toDigits 10 n) : 48 ≤ c.toNat ∧ c.toNat ≤ 57 := by
  have hd := Nat.isDigit_of_mem_toDigits (by decide) (by decide) h
  rw [Char.isDigit, Bool.and_eq_true, decide_eq_true_eq, decide_eq_true_eq] at hd
  exact hd

theorem utf8_toString (n : Nat) : utf8 (toString n) = (Nat.toDigits 10 n).map fun c => UInt8.ofNat c.toNat := by
  have hdigit : ∀ c ∈ Nat.toDigits 10 n, String.utf8EncodeChar c = [UInt8.ofNat c.toNat] := by
    intro c hc
    have hle : c.val.toNat ≤ 127 := Nat.le_trans (isDigit_toDigits hc).2 (by decide)
    rw [String.utf8EncodeChar]
    exact if_pos hle
  rw [utf8, Nat.toString_eq_ofList_toDigits, String.toList_ofList, List.flatMap_congr hdigit]
  exact List.flatMap_pure_eq_map _ _

theorem mem_utf8_toString {n : Nat} {b : UInt8} (h : b ∈ utf8 (toString n)) : 48 ≤ b ∧ b ≤ 57 := by
  rw [utf8_toString] at h
  obtain ⟨c, hc, rfl⟩ := List.mem_map.1 h
  have hd := isDigit_toDigits hc
  rw [UInt8.le_iff_toNat_le, UInt8.le_iff_toNat_le, UInt8.toNat_ofNat', Nat.mod_eq_of_lt (by omega)]
  exact hd

theorem decimal_utf8_toString (n : Nat) : decimal (utf8 (toString n)) = some n := by
  have hne : utf8 (toString n) ≠ [] := by
    rw [utf8_toString, Ne, List.map_eq_nil_iff]
    exact Nat.toDigits_ne_nil
  have hall : (utf8 (toString n)).all (fun b => 48 ≤ b && b ≤ 57) = true := by
    rw [List.all_eq_true]
    intro b hb
    simpa using mem_utf8_toString hb
  have hfold : ∀ (cs : List Char) (k : Nat), (∀ c ∈ cs, c.toNat < 256) →
      (cs.map fun c => UInt8.ofNat c.toNat).foldl (fun n b => 10 * n + (b.toNat - 48)) k = Nat.ofDigitChars 10 cs k := by
    intro cs
    induction cs with
    | nil => intro k _; rfl
    | cons c cs ih =>
      intro k h
      rw [List.forall_mem_cons] at h
      rw [List.map_cons, List.foldl_cons, Nat.ofDigitChars_cons, UInt8.toNat_ofNat', Nat.mod_eq_of_lt h.1]
      exact ih _ h.2
  have hbyte : ∀ c ∈ Nat.toDigits 10 n, c.toNat < 256 := fun c hc =>
    Nat.lt_of_le_of_lt (isDigit_toDigits hc).2 (by decide)
  rw [decimal, if_pos ⟨hne, hall⟩, utf8_toString, hfold _ _ hbyte, Nat.ofDigitChars_ten_toDigits]

theorem cutAt_append {sep : UInt8} {l : List UInt8} (h : sep ∉ l) (rest : List UInt8) :
    cutAt sep (l ++ sep :: rest) = some (l, rest) := by
  induction l with
  | nil => simp [cutAt]
  | cons b l ih =>
    rw [List.mem_cons, not_or] at h
    rw [List.cons_append, cutAt, if_neg (Ne.symm h.1), ih h.2]
    rfl

theorem contentRange_utf8 (first last size : Nat) :
    contentRange (utf8 ("bytes " ++ toString first ++ "-" ++ toString last ++ "/" ++ toString size)) =
      some (first, last, size) := by
  have hdash (n : Nat) : 45 ∉ utf8 (toString n) := fun h => absurd (mem_utf8_toString h).1 (by decide)
  have hslash (n : Nat) : 47 ∉ utf8 (toString n) := fun h => absurd (mem_utf8_toString h).1 (by decide)
  have hbytes : utf8 ("bytes " ++ toString first ++ "-" ++ toString last ++ "/" ++ toString size) =
      utf8 "bytes" ++ 32 :: (utf8 (toString first) ++ 45 :: (utf8 (toString last) ++ 47 :: utf8 (toString size))) := by
    have hunit : utf8 "bytes " = utf8 "bytes" ++ [32] := by decide
    have h45 : utf8 "-" = [45] := by decide
    have h47 : utf8 "/" = [47] := by decide
    simp only [utf8_append, hunit, h45, h47, List.append_assoc, List.cons_append, List.nil_append]
  have hspace : 32 ∉ utf8 "bytes" := by decide
  simp only [contentRange, hbytes, cutAt_append hspace, cutAt_append (hdash first), cutAt_append (hslash last),
    decimal_utf8_toString, Option.bind_eq_bind, Option.bind_some, if_true]

end Lib
