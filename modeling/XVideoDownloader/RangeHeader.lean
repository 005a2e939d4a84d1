import XVideoDownloader.AuthMessage
import Mathlib.Data.Bool.AllAny

/-!
# The `Range` header

`parse_range` takes what is between the first two `=` of the first line that starts like a range of bytes, and of its
pieces between dashes the first two. What a client writes is read back (`parseRange_rangeLine`), and what is read is
exactly `Accepted`: the grammar of a range, and beside it texts that are let through because the other pieces are
ignored, a dash is not asked for, and `u64::from_str` takes a plus sign (`grammatical_iff`).
-/

namespace XVideoDownloader
open Lib

namespace Text
variable {c : Char} {l : List Char} {n : Nat}

/-- One or more digits that denote `n`. -/
def Decimal (l : List Char) (n : Nat) : Prop := l ≠ [] ∧ l.all Char.isDigit ∧ digitsValue l = n

/-- What `u64::from_str` reads as `n`. -/
def Number (l : List Char) (n : Nat) : Prop :=
  n < UInt64.size ∧ (Decimal l n ∨ ∃ ds, l = '+' :: ds ∧ Decimal ds n)

theorem Decimal.not_mem (h : Decimal l n) (hc : c.isDigit = false) : c ∉ l := by
  intro hmem
  rw [List.all_eq_true.1 h.2.1 c hmem] at hc
  cases hc

theorem Number.not_mem (h : Number l n) (hc : c.isDigit = false) (hplus : c ≠ '+') : c ∉ l := by
  obtain ⟨-, hl | ⟨ds, rfl, hds⟩⟩ := h
  · exact hl.not_mem hc
  · rw [List.mem_cons, not_or]
    exact ⟨hplus, hds.not_mem hc⟩

theorem Number.decimal (h : Number l n) (hplus : '+' ∉ l) : Decimal l n := by
  obtain ⟨-, hl | ⟨ds, rfl, -⟩⟩ := h
  · exact hl
  · exact absurd List.mem_cons_self hplus

theorem parseU64_eq_some_iff : parseU64 (.ofList l) = some n ↔ Number l n := by
  have hif (ds : List Char) : (if ds ≠ [] ∧ ds.all Char.isDigit ∧ digitsValue ds < UInt64.size then
      some (digitsValue ds) else none) = some n ↔ n < UInt64.size ∧ Decimal ds n := by
    rw [Option.ite_none_right_eq_some, Option.some.injEq, Decimal]
    constructor
    · rintro ⟨⟨h1, h2, h3⟩, rfl⟩
      exact ⟨h3, h1, h2, rfl⟩
    · rintro ⟨h3, h1, h2, rfl⟩
      exact ⟨⟨h1, h2, h3⟩, rfl⟩
  rw [parseU64, String.toList_ofList, hif, Number, and_congr_right_iff]
  intro hn
  by_cases hl : ∃ ds, l = '+' :: ds
  · obtain ⟨ds, rfl⟩ := hl
    have hplus : ¬ Decimal ('+' :: ds) n := fun h => h.not_mem (by decide) List.mem_cons_self
    simp [hplus]
  · have hds : ¬ ∃ ds, l = '+' :: ds ∧ Decimal ds n := fun ⟨ds, he, _⟩ => hl ⟨ds, he⟩
    rw [or_iff_left hds]
    split
    · exact absurd ⟨_, rfl⟩ hl
    · rfl

/-- Nothing, or a piece that begins with a separator. -/
def Tail (c : Char) (l : List Char) : Prop := l = [] ∨ ∃ l', l = c :: l'

/-- The first piece of a text, with the rest from the separator on. -/
theorem exists_piece (c : Char) (l : List Char) : ∃ a tail, l = a ++ tail ∧ c ∉ a ∧ Tail c tail := by
  by_cases h : c ∈ l
  · obtain ⟨a, b, rfl, ha⟩ := List.eq_append_cons_of_mem h
    exact ⟨a, c :: b, rfl, ha, .inr ⟨b, rfl⟩⟩
  · exact ⟨l, [], (List.append_nil l).symm, h, .inl rfl⟩

theorem splitOn_head {a tail : List Char} (ha : c ∉ a) (ht : Tail c tail) : ((a ++ tail).splitOn c)[0]? = some a := by
  rcases ht with rfl | ⟨l', rfl⟩
  · rw [List.append_nil, List.splitOn_eq_singleton ha]
    rfl
  · rw [List.splitOn_append_cons_self_of_not_mem ha]
    rfl

theorem splitOn_second {a b tail : List Char} (ha : c ∉ a) (hb : c ∉ b) (ht : Tail c tail) :
    ((a ++ c :: (b ++ tail)).splitOn c)[1]? = some b := by
  rw [List.splitOn_append_cons_self_of_not_mem ha, List.getElem?_cons_succ, splitOn_head hb ht]

theorem toLower_ne_equals {c : Char} (h : c ≠ '=') : c.toLower ≠ '=' := by
  intro he
  delta Char.toLower at he
  split at he
  · rename_i hupper
    have hle : 'A'.val.toNat ≤ c.val.toNat ∧ c.val.toNat ≤ 'Z'.val.toNat :=
      ⟨UInt32.le_iff_toNat_le.1 hupper.1, UInt32.le_iff_toNat_le.1 hupper.2⟩
    have hval : (c.val.toNat + 32) % 2 ^ 32 = 61 := congrArg (fun c : Char => c.val.toNat) he
    have hA : 'A'.val.toNat = 65 := rfl
    have hZ : 'Z'.val.toNat = 90 := rfl
    omega
  · exact h he

end Text

namespace FileServer
open Text

variable {lines before after : List String} {line name : String} {rest text tail : List Char} {start : Nat}
  {stop : Option Nat}

def IsRangeLine (line : String) : Bool := startsWithLower line "range: bytes="

/-- A range line is 12 characters without an `=`, an `=` and the specification. -/
theorem toList_of_isRangeLine (h : IsRangeLine line = true) :
    ∃ pre, line.toList = pre ++ '=' :: line.toList.drop 13 ∧ '=' ∉ pre := by
  obtain ⟨rest, hrest⟩ := List.isPrefixOf_iff_prefix.1 h
  have hpre : "range: bytes=".toList = "range: bytes".toList ++ ['='] := by decide
  have hsplit : line.toList = line.toList.take 13 ++ line.toList.drop 13 := (List.take_append_drop 13 _).symm
  have hmap : (line.toList.take 13).map Char.toLower = "range: bytes".toList ++ ['='] := by
    rw [List.map_take, ← hrest, hpre]
    rfl
  obtain ⟨pre, last, htake, hpremap, hlast⟩ := List.map_eq_append_iff.1 hmap
  obtain ⟨c, l, rfl, hc, hl⟩ := List.map_eq_cons_iff.1 hlast
  rw [List.map_eq_nil_iff.1 hl] at htake
  refine ⟨pre, ?_, fun hmem => ?_⟩
  · have hceq : c = '=' := by_contra fun hne => toLower_ne_equals hne hc
    rw [htake, hceq, List.append_assoc] at hsplit
    exact hsplit
  · have hlower := List.mem_map_of_mem (f := Char.toLower) hmem
    rw [hpremap] at hlower
    exact absurd hlower (by decide)

/-- What a start makes of the second piece. -/
def rangeEnd (start : Nat) : Option String → Option (Nat × Option Nat)
  | none | some "" => some (start, none)
  | some part => do
    let stop ← Text.parseU64 part
    if stop < start then none else some (start, some stop)

/-- What becomes of the text between the first two `=`. -/
def rangeOf (text : List Char) : Option (Nat × Option Nat) := do
  let parts := Text.split '-' (.ofList text)
  let start ← Text.parseU64 (parts[0]?.getD "")
  rangeEnd start parts[1]?

theorem parseRange_eq (hfind : lines.find? IsRangeLine = some line) (hline : line.toList.drop 13 = text ++ tail)
    (htext : '=' ∉ text) (htail : Tail '=' tail) : parseRange lines = rangeOf text := by
  obtain ⟨pre, hpre, hnot⟩ := toList_of_isRangeLine (List.find?_some hfind)
  have hspec : (split '=' line)[1]? = some (.ofList text) := by
    rw [split, hpre, hline, List.getElem?_map, splitOn_second hnot htext htail]
    rfl
  rw [parseRange, show lines.find? (fun line => startsWithLower line "range: bytes=") = some line from hfind]
  simp only [hspec, Option.bind_eq_bind, Option.bind_some]
  rfl

theorem parseRange_none (hfind : lines.find? IsRangeLine = none) : parseRange lines = none := by
  rw [parseRange, show lines.find? (fun line => startsWithLower line "range: bytes=") = none from hfind]

section
variable {a b more : List Char}

theorem rangeEnd_eq_some_iff {n : Nat} : rangeEnd n (some (.ofList b)) = some (start, stop) ↔
    n = start ∧ (b = [] ∧ stop = none ∨ ∃ e, Number b e ∧ start ≤ e ∧ stop = some e) := by
  by_cases hb : b = []
  · subst hb
    have hnumber (e : Nat) : ¬ Number [] e := by simp [Number, Decimal]
    show some (n, none) = some (start, stop) ↔ _
    simp [hnumber, eq_comm]
  · have hne : String.ofList b ≠ "" := fun he => hb (by simpa using congrArg String.toList he)
    have hif (e : Nat) : (if e < n then none else some (n, some e)) = some (start, stop) ↔
        n = start ∧ start ≤ e ∧ stop = some e := by
      rw [Option.ite_none_left_eq_some, Option.some.injEq, Prod.mk.injEq, Nat.not_lt]
      constructor
      · rintro ⟨hle, rfl, rfl⟩
        exact ⟨rfl, hle, rfl⟩
      · rintro ⟨rfl, hle, rfl⟩
        exact ⟨hle, rfl, rfl⟩
    unfold rangeEnd
    split
    · rename_i he
      cases he
    · rename_i he
      exact absurd (Option.some.inj he) hne
    · rename_i part _ he
      cases he
      simp only [Option.bind_eq_bind, Option.bind_eq_some_iff, parseU64_eq_some_iff, hif, hb, false_and, false_or]
      constructor
      · rintro ⟨e, he, hn, h⟩
        exact ⟨hn, e, he, h⟩
      · rintro ⟨hn, e, he, h⟩
        exact ⟨e, he, hn, h⟩

theorem rangeOf_single (ha : '-' ∉ a) : rangeOf a = some (start, stop) ↔ Number a start ∧ stop = none := by
  have h0 : (split '-' (.ofList a))[0]? = some (.ofList a) ∧ (split '-' (.ofList a))[1]? = none := by
    rw [split, String.toList_ofList, List.splitOn_eq_singleton ha]
    exact ⟨rfl, rfl⟩
  rw [rangeOf, ← parseU64_eq_some_iff]
  simp only [h0, Option.getD_some, Option.bind_eq_bind, Option.bind_eq_some_iff, rangeEnd, Option.some.injEq,
    Prod.mk.injEq]
  constructor
  · rintro ⟨n, hn, rfl, rfl⟩
    exact ⟨hn, rfl⟩
  · rintro ⟨hn, rfl⟩
    exact ⟨start, hn, rfl, rfl⟩

theorem rangeOf_pair (ha : '-' ∉ a) (hb : '-' ∉ b) (hmore : Tail '-' more) :
    rangeOf (a ++ '-' :: (b ++ more)) = some (start, stop) ↔
      Number a start ∧ (b = [] ∧ stop = none ∨ ∃ e, Number b e ∧ start ≤ e ∧ stop = some e) := by
  have h0 : (split '-' (.ofList (a ++ '-' :: (b ++ more))))[0]? = some (.ofList a) := by
    rw [split, String.toList_ofList, List.getElem?_map, splitOn_head ha (.inr ⟨_, rfl⟩)]
    rfl
  have h1 : (split '-' (.ofList (a ++ '-' :: (b ++ more))))[1]? = some (.ofList b) := by
    rw [split, String.toList_ofList, List.getElem?_map, splitOn_second ha hb hmore]
    rfl
  rw [rangeOf, ← parseU64_eq_some_iff]
  simp only [h0, h1, Option.getD_some, Option.bind_eq_bind, Option.bind_eq_some_iff, rangeEnd_eq_some_iff]
  constructor
  · rintro ⟨n, hn, rfl, h⟩
    exact ⟨hn, h⟩
  · rintro ⟨hn, h⟩
    exact ⟨start, hn, rfl, h⟩

end

/-- A start alone, or a start and what may be an end behind the first dash. -/
def Parts (text : List Char) (start : Nat) (stop : Option Nat) : Prop :=
  ∃ a, Number a start ∧ (text = a ∧ stop = none ∨
    ∃ b more, text = a ++ '-' :: (b ++ more) ∧ Tail '-' more ∧
      (b = [] ∧ stop = none ∨ ∃ e, Number b e ∧ start ≤ e ∧ stop = some e))

theorem rangeOf_eq_some_iff : rangeOf text = some (start, stop) ↔ Parts text start stop := by
  constructor
  · intro h
    obtain ⟨a, tail, rfl, ha, rfl | ⟨l, rfl⟩⟩ := exists_piece '-' text
    · rw [List.append_nil, rangeOf_single ha] at h
      exact ⟨a, h.1, .inl ⟨List.append_nil a, h.2⟩⟩
    · obtain ⟨b, more, rfl, hb, hmore⟩ := exists_piece '-' l
      rw [rangeOf_pair ha hb hmore] at h
      exact ⟨a, h.1, .inr ⟨b, more, rfl, hmore, h.2⟩⟩
  · rintro ⟨a, ha, ⟨rfl, rfl⟩ | ⟨b, more, rfl, hmore, hstop⟩⟩
    · exact (rangeOf_single (ha.not_mem (by decide) (by decide))).2 ⟨ha, rfl⟩
    · have hb : '-' ∉ b := by
        rcases hstop with ⟨rfl, -⟩ | ⟨e, he, -, -⟩
        · simp
        · exact he.not_mem (by decide) (by decide)
      exact (rangeOf_pair (ha.not_mem (by decide) (by decide)) hb hmore).2 ⟨ha, hstop⟩

/-- What `parse_range` takes from the rest of a range line, up to a second `=`. -/
def Accepted (rest : List Char) (start : Nat) (stop : Option Nat) : Prop :=
  ∃ text tail, rest = text ++ tail ∧ '=' ∉ text ∧ Tail '=' tail ∧ Parts text start stop

theorem parseRange_eq_some_iff (hfind : lines.find? IsRangeLine = some line) :
    parseRange lines = some (start, stop) ↔ Accepted (line.toList.drop 13) start stop := by
  constructor
  · intro h
    obtain ⟨text, tail, hrest, htext, htail⟩ := exists_piece '=' (line.toList.drop 13)
    rw [parseRange_eq hfind hrest htext htail, rangeOf_eq_some_iff] at h
    exact ⟨text, tail, hrest, htext, htail, h⟩
  · rintro ⟨text, tail, hrest, htext, htail, h⟩
    rw [parseRange_eq hfind hrest htext htail, rangeOf_eq_some_iff]
    exact h

/-! ### Reading back what a client writes -/

/-- The line of a client, with the name and `bytes` in some letter case. -/
def rangeLine (name : String) (start : UInt64) (stop : Option UInt64) : String :=
  name ++ toString start.toNat ++ "-" ++ (stop.elim "" fun e => toString e.toNat)

theorem number_toString (n : UInt64) : Number (toString n.toNat).toList n.toNat := by
  rw [← parseU64_eq_some_iff, String.ofList_toList]
  exact parseU64_toString n.toNat_lt_size

/-- The range that a client asks for is read, whatever lines stand around it. -/
theorem parseRange_rangeLine {start : UInt64} {stop : Option UInt64} (hstop : ∀ e ∈ stop, start ≤ e)
    (hname : name.toList.map Char.toLower = "range: bytes=".toList) (hbefore : ∀ l ∈ before, ¬ IsRangeLine l) :
    parseRange (before ++ rangeLine name start stop :: after) = some (start.toNat, stop.map UInt64.toNat) := by
  have hlist : (rangeLine name start stop).toList = name.toList ++ ((toString start.toNat).toList ++
      '-' :: ((stop.elim "" fun e => toString e.toNat).toList ++ [])) := by
    simp [rangeLine]
  have hlen : name.toList.length = 13 := by
    rw [← List.length_map Char.toLower, hname]
    rfl
  have hrange : IsRangeLine (rangeLine name start stop) := by
    rw [IsRangeLine, startsWithLower, hlist, List.map_append, hname, List.isPrefixOf_iff_prefix]
    exact List.prefix_append _ _
  have hfind : (before ++ rangeLine name start stop :: after).find? IsRangeLine = some (rangeLine name start stop) := by
    rw [List.find?_append, List.find?_eq_none.2 hbefore, Option.none_or, List.find?_cons_of_pos hrange]
  rw [parseRange_eq_some_iff hfind, hlist, List.drop_left' hlen]
  have hstart := number_toString start
  refine ⟨_, [], (List.append_nil _).symm, ?_, .inl rfl, _, hstart, .inr ⟨_, [], rfl, .inl rfl, ?_⟩⟩
  · rw [List.append_nil, List.mem_append, List.mem_cons, not_or, not_or]
    refine ⟨hstart.not_mem (by decide) (by decide), by decide, ?_⟩
    rcases stop with _ | e
    · simp
    · exact (number_toString e).not_mem (by decide) (by decide)
  · rcases stop with _ | e
    · exact .inl ⟨rfl, rfl⟩
    · exact .inr ⟨e.toNat, number_toString e, UInt64.le_iff_toNat_le.1 (hstop e rfl), rfl⟩

/-! ### The grammar -/

/-- Digits, a dash, and nothing or the digits of an end that is not before the start. -/
def RangeSpec (rest : List Char) (start : Nat) (stop : Option Nat) : Prop :=
  ∃ a b, rest = a ++ '-' :: b ∧ Decimal a start ∧
    (b = [] ∧ stop = none ∨ ∃ e, Decimal b e ∧ start ≤ e ∧ stop = some e)

/-- What is read is what the first range line says. -/
def Grammatical (lines : List String) : Prop :=
  ∀ start stop, parseRange lines = some (start, stop) →
    ∃ line, lines.find? IsRangeLine = some line ∧ RangeSpec (line.toList.drop 13) start stop

/-- Taken without being of the grammar: there is a sign, a second `=`, no dash or more than one. -/
def Slack (rest : List Char) : Prop :=
  (∃ start stop, Accepted rest start stop) ∧ ('+' ∈ rest ∨ '=' ∈ rest ∨ rest.count '-' ≠ 1)

theorem RangeSpec.strict (h : RangeSpec rest start stop) : '+' ∉ rest ∧ '=' ∉ rest ∧ rest.count '-' = 1 := by
  obtain ⟨a, b, rfl, ha, hb⟩ := h
  have hnot : ∀ c : Char, c.isDigit = false → c ∉ b := by
    intro c hc
    rcases hb with ⟨rfl, -⟩ | ⟨e, he, -, -⟩
    · simp
    · exact he.not_mem hc
  have hmem : ∀ c : Char, c.isDigit = false → c ≠ '-' → c ∉ a ++ '-' :: b := by
    intro c hc hne
    rw [List.mem_append, List.mem_cons, not_or, not_or]
    exact ⟨ha.not_mem hc, hne, hnot c hc⟩
  refine ⟨hmem '+' (by decide) (by decide), hmem '=' (by decide) (by decide), ?_⟩
  rw [List.count_append, List.count_cons_self, List.count_eq_zero.2 (ha.not_mem (by decide)),
    List.count_eq_zero.2 (hnot '-' (by decide))]

theorem rangeSpec_of_accepted (h : Accepted rest start stop) (hplus : '+' ∉ rest) (heq : '=' ∉ rest)
    (hdash : rest.count '-' = 1) : RangeSpec rest start stop := by
  obtain ⟨text, tail, rfl, htext, htail, a, ha, hparts⟩ := h
  have htail : tail = [] := by
    rcases htail with rfl | ⟨l, rfl⟩
    · rfl
    · simp at heq
  subst htail
  rw [List.append_nil] at hplus hdash ⊢
  rcases hparts with ⟨rfl, -⟩ | ⟨b, more, rfl, hmore, hstop⟩
  · rw [List.count_eq_zero.2 (ha.not_mem (by decide) (by decide))] at hdash
    cases hdash
  · have hmore : more = [] := by
      rcases hmore with rfl | ⟨l, rfl⟩
      · rfl
      · simp only [List.count_append, List.count_cons_self] at hdash
        omega
    subst hmore
    rw [List.append_nil] at hplus ⊢
    rw [List.mem_append, List.mem_cons, not_or, not_or] at hplus
    refine ⟨a, b, rfl, ha.decimal hplus.1, ?_⟩
    rcases hstop with h | ⟨e, he, hle, rfl⟩
    · exact .inl h
    · exact .inr ⟨e, he.decimal hplus.2.2, hle, rfl⟩

/-- Only ranges of the grammar are read, unless the first range line goes on with a text that is let through. -/
theorem grammatical_iff (lines : List String) :
    Grammatical lines ↔ ∀ line, lines.find? IsRangeLine = some line → ¬ Slack (line.toList.drop 13) := by
  constructor
  · rintro h line hfind ⟨⟨start, stop, haccepted⟩, hslack⟩
    obtain ⟨line', hfind', hspec⟩ := h start stop ((parseRange_eq_some_iff hfind).2 haccepted)
    cases hfind.symm.trans hfind'
    obtain ⟨hplus, heq, hdash⟩ := hspec.strict
    rcases hslack with h | h | h
    · exact hplus h
    · exact heq h
    · exact h hdash
  · intro h start stop hparse
    rcases hfind : lines.find? IsRangeLine with _ | line
    · rw [parseRange_none hfind] at hparse
      cases hparse
    · have haccepted := (parseRange_eq_some_iff hfind).1 hparse
      have hslack := h line hfind
      rw [Slack, not_and, not_or, not_or, not_not] at hslack
      obtain ⟨hplus, heq, hdash⟩ := hslack ⟨start, stop, haccepted⟩
      exact ⟨line, rfl, rangeSpec_of_accepted haccepted hplus heq hdash⟩

end FileServer

namespace Sample
open FileServer

def rangeRequest (spec : String) : List String :=
  ["GET /file/00000000-0000-0000-0000-000000000007 HTTP/1.1", "Range: bytes=" ++ spec]

theorem parseRange_rangeLine_half :
    parseRange (["GET / HTTP/1.1"] ++ rangeLine "RANGE: Bytes=" 5 (some 9) :: ["range: bytes=0-"]) =
      some (5, some 9) :=
  parseRange_rangeLine (by simp) (by decide) (by decide)

/-- No dash, a sign and a dash too many, and a second `=`. -/
theorem not_grammatical_rangeRequest :
    parseRange (rangeRequest "5") = some (5, none) ∧ parseRange (rangeRequest "+1-2-x") = some (1, some 2) ∧
      parseRange (rangeRequest "7-=9") = some (7, none) ∧ ¬ Grammatical (rangeRequest "5") := by
  refine ⟨by decide, by decide, by decide, fun h => ?_⟩
  obtain ⟨line, hfind, hspec⟩ := h 5 none (by decide)
  have hrest : line.toList.drop 13 = ['5'] := by
    have hline : (rangeRequest "5").find? IsRangeLine = some "Range: bytes=5" := by decide
    rw [hline] at hfind
    cases hfind
    decide
  have hcount := hspec.strict.2.2
  rw [hrest] at hcount
  cases hcount

end Sample

end XVideoDownloader
