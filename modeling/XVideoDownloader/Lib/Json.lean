import Mathlib.Data.List.TakeWhile
import XVideoDownloader.Lib.JsonText

/-!
# JSON text

`Json.write` is the compact text of a value, `Json.parse` the reader: white space between the tokens, all escapes in
strings, and at most `maxDepth` arrays and objects within each other. A number is kept as its text. What is written
is read as the value that it was written for, if its numbers are numbers of JSON and it is not too deep
(`Json.parse_write`); so is an object of texts that is written over several lines (`Json.parse_pretty`).
-/

namespace Lib

/-- A number as its text. -/
abbrev Token := List Char

namespace Json

/-! ### Writing -/

def hexDigits : List Char := "0123456789abcdef".toList

/-- The quotation mark, the backslash and the control characters. -/
def escapeChar (c : Char) : List Char :=
  if c = '"' then ['\\', '"']
  else if c = '\\' then ['\\', '\\']
  else if c.toNat = 8 then ['\\', 'b']
  else if c.toNat = 9 then ['\\', 't']
  else if c.toNat = 10 then ['\\', 'n']
  else if c.toNat = 12 then ['\\', 'f']
  else if c.toNat = 13 then ['\\', 'r']
  else if c.toNat < 32 then
    ['\\', 'u', '0', '0', hexDigits.getD (c.toNat / 16) '0', hexDigits.getD (c.toNat % 16) '0']
  else [c]

def quote (s : String) : List Char := '"' :: (s.toList.flatMap escapeChar ++ ['"'])

/-- What stands behind an opening bracket, `last` with the closing one. -/
def closing (last : List Char) : List (List Char) → List Char
  | [] => last
  | text :: texts => text ++ (texts.flatMap (',' :: ·) ++ last)

mutual
def write : Json Token → List Char
  | null => "null".toList
  | bool true => "true".toList
  | bool false => "false".toList
  | number token => token
  | string s => quote s
  | array items => '[' :: closing [']'] (writeItems items)
  | object fields => '{' :: closing ['}'] (writeFields fields)

def writeItems : List (Json Token) → List (List Char)
  | [] => []
  | item :: items => item.write :: writeItems items

def writeFields : List (String × Json Token) → List (List Char)
  | [] => []
  | (name, value) :: fields => (quote name ++ ':' :: value.write) :: writeFields fields
end

/-- A line with a field of an object. -/
def prettyField (f : String × Json Token) : List Char :=
  '\n' :: ' ' :: ' ' :: (quote f.1 ++ ':' :: ' ' :: f.2.write)

/-- An object, its fields on lines of their own. -/
def pretty : List (String × Json Token) → List Char
  | [] => "{}".toList
  | fields => '{' :: closing ['\n', '}'] (fields.map prettyField)

/-! ### Reading -/

def isSpace (c : Char) : Bool := c = ' ' || c = '\n' || c = '\t' || c = '\r'

def skip (cs : List Char) : List Char := cs.dropWhile isSpace

def hexValue (c : Char) : Option Nat :=
  if '0' ≤ c ∧ c ≤ '9' then some (c.toNat - '0'.toNat)
  else if 'a' ≤ c ∧ c ≤ 'f' then some (c.toNat - 'a'.toNat + 10)
  else if 'A' ≤ c ∧ c ≤ 'F' then some (c.toNat - 'A'.toNat + 10)
  else none

/-- The code unit of four digits. -/
def hex4 (a b c d : Char) : Option Nat := do
  return (((← hexValue a) * 16 + (← hexValue b)) * 16 + (← hexValue c)) * 16 + (← hexValue d)

def isLeading (n : Nat) : Bool := 0xD800 ≤ n && n < 0xDC00

def isTrailing (n : Nat) : Bool := 0xDC00 ≤ n && n < 0xE000

def unescape : Char → Option Char
  | '"' => some '"'
  | '\\' => some '\\'
  | '/' => some '/'
  | 'b' => some (Char.ofNat 8)
  | 'f' => some (Char.ofNat 12)
  | 'n' => some '\n'
  | 'r' => some '\r'
  | 't' => some '\t'
  | _ => none

/-- The rest of a string behind its opening quotation mark. -/
def readString : List Char → Option (List Char × List Char)
  | '"' :: cs => some ([], cs)
  | '\\' :: 'u' :: a :: b :: c :: d :: '\\' :: 'u' :: a' :: b' :: c' :: d' :: cs =>
    match hex4 a b c d, hex4 a' b' c' d' with
    | some n, some n' =>
      if isLeading n && isTrailing n' then
        (readString cs).map fun p => (Char.ofNat (0x10000 + (n - 0xD800) * 0x400 + (n' - 0xDC00)) :: p.1, p.2)
      else if isLeading n || isTrailing n then none
      else (readString ('\\' :: 'u' :: a' :: b' :: c' :: d' :: cs)).map fun p => (Char.ofNat n :: p.1, p.2)
    | _, _ => none
  | '\\' :: 'u' :: a :: b :: c :: d :: cs =>
    match hex4 a b c d with
    | some n => if isLeading n || isTrailing n then none
      else (readString cs).map fun p => (Char.ofNat n :: p.1, p.2)
    | none => none
  | '\\' :: c :: cs =>
    match unescape c with
    | some c => (readString cs).map fun p => (c :: p.1, p.2)
    | none => none
  | c :: cs => if c.toNat < 32 then none else (readString cs).map fun p => (c :: p.1, p.2)
  | [] => none

/-! A number: its sign, its digits without leading zeros, a fraction and an exponent. -/

def isDigit (c : Char) : Bool := '0' ≤ c && c ≤ '9'

def digits (cs : List Char) : Option (List Char) :=
  if (cs.takeWhile isDigit).isEmpty then none else some (cs.dropWhile isDigit)

def exponent : List Char → Bool
  | 'e' :: cs | 'E' :: cs =>
    digits (match cs with
      | '+' :: cs | '-' :: cs => cs
      | cs => cs) = some []
  | cs => cs.isEmpty

def fraction : List Char → Bool
  | '.' :: cs => (digits cs).any exponent
  | cs => exponent cs

def unsigned : List Char → Bool
  | '0' :: cs => fraction cs
  | cs => (digits cs).any fraction

def isNumber : List Char → Bool
  | '-' :: cs => unsigned cs
  | cs => unsigned cs

def isNumberChar (c : Char) : Bool := isDigit c || c = '-' || c = '+' || c = '.' || c = 'e' || c = 'E'

def scalar : List Char → Option (Json Token × List Char)
  | 'n' :: 'u' :: 'l' :: 'l' :: cs => some (null, cs)
  | 't' :: 'r' :: 'u' :: 'e' :: cs => some (bool true, cs)
  | 'f' :: 'a' :: 'l' :: 's' :: 'e' :: cs => some (bool false, cs)
  | '"' :: cs => (readString cs).map fun p => (string (.ofList p.1), p.2)
  | cs =>
    let token := cs.takeWhile isNumberChar
    if isNumber token then some (number token, cs.dropWhile isNumberChar) else none

section
variable {α : Type} (close : Char) (p : List Char → Option (α × List Char))

/-- The items behind the first, each behind its comma; there are at most `fuel` of them. -/
def readRest : Nat → List Char → Option (List α × List Char)
  | 0, _ => none
  | fuel + 1, cs =>
    match skip cs with
    | [] => none
    | c :: cs =>
      if c = close then some ([], cs)
      else if c = ',' then do
        let (x, cs) ← p (skip cs)
        let (xs, cs) ← readRest fuel cs
        return (x :: xs, cs)
      else none

def readAll (cs : List Char) : Option (List α × List Char) :=
  match skip cs with
  | [] => none
  | c :: cs' =>
    if c = close then some ([], cs')
    else do
      let (x, rest) ← p (c :: cs')
      let (xs, rest) ← readRest close p (cs'.length + 1) rest
      return (x :: xs, rest)

end

def readField (value : List Char → Option (Json Token × List Char)) : List Char → Option ((String × Json Token) × List Char)
  | '"' :: cs => do
    let (name, cs) ← readString cs
    match skip cs with
    | ':' :: cs =>
      let (v, cs) ← value (skip cs)
      return ((.ofList name, v), cs)
    | _ => none
  | _ => none

/-- A value, in which arrays and objects are at most so deep. -/
def value : Nat → List Char → Option (Json Token × List Char)
  | depth + 1, '[' :: cs => (readAll ']' (value depth) cs).map fun p => (array p.1, p.2)
  | depth + 1, '{' :: cs => (readAll '}' (readField (value depth)) cs).map fun p => (object p.1, p.2)
  | _, cs => scalar cs

def parse (cs : List Char) : Option (Json Token) :=
  match value maxDepth (skip cs) with
  | some (v, rest) => if (skip rest).isEmpty then some v else none
  | none => none

open List

/-! ### Strings -/

theorem hex4_control : ∀ n < 32,
    hex4 '0' '0' (hexDigits.getD (n / 16) '0') (hexDigits.getD (n % 16) '0') = some n := by decide

theorem readString_of_hex4_none {a b c d : Char} (h : hex4 a b c d = none) (cs : List Char) :
    readString ('\\' :: 'u' :: a :: b :: c :: d :: cs) = none := by
  by_cases hpair : ∃ a' b' c' d' cs', cs = '\\' :: 'u' :: a' :: b' :: c' :: d' :: cs'
  · obtain ⟨a', b', c', d', cs', rfl⟩ := hpair
    rw [readString.eq_2, h]
  · rw [readString.eq_3 _ _ _ _ _ fun a' b' c' d' cs' he => hpair ⟨a', b', c', d', cs', he⟩, h]

theorem readString_unit {a b c d : Char} {n : Nat} (h : hex4 a b c d = some n) (hl : isLeading n = false)
    (ht : isTrailing n = false) (cs : List Char) :
    readString ('\\' :: 'u' :: a :: b :: c :: d :: cs) =
      (readString cs).map fun p => (Char.ofNat n :: p.1, p.2) := by
  by_cases hpair : ∃ a' b' c' d' cs', cs = '\\' :: 'u' :: a' :: b' :: c' :: d' :: cs'
  · obtain ⟨a', b', c', d', cs', rfl⟩ := hpair
    rw [readString.eq_2, h]
    cases h' : hex4 a' b' c' d' with
    | none => rw [readString_of_hex4_none h']; rfl
    | some n' => simp only [hl, ht, Bool.false_and, Bool.or_self, Bool.false_eq_true, if_false]
  · rw [readString.eq_3 _ _ _ _ _ fun a' b' c' d' cs' he => hpair ⟨a', b', c', d', cs', he⟩, h]
    simp only [hl, ht, Bool.or_self, Bool.false_eq_true, if_false]

/-- A plain character. -/
theorem readString_plain {c : Char} (hq : c ≠ '"') (hb : c ≠ '\\') (h : ¬ c.toNat < 32) (cs : List Char) :
    readString (c :: cs) = (readString cs).map fun p => (c :: p.1, p.2) := by
  rw [readString.eq_5 c cs hq (fun _ _ _ _ _ _ _ _ _ he => absurd he hb) (fun _ _ _ _ _ he => absurd he hb)
    fun _ _ he => absurd he hb, if_neg h]

theorem readString_escapeChar (c : Char) (cs : List Char) :
    readString (escapeChar c ++ cs) = (readString cs).map fun p => (c :: p.1, p.2) := by
  have hchar (n : Nat) (h : c.toNat = n) : c = Char.ofNat n := by rw [← h, Char.ofNat_toNat]
  unfold escapeChar
  split_ifs with h₁ h₂ h₃ h₄ h₅ h₆ h₇ h₈
  · rw [h₁]; simp [readString, unescape]
  · rw [h₂]; simp [readString, unescape]
  · rw [hchar 8 h₃]; simp [readString, unescape]
  · rw [hchar 9 h₄]; simp [readString, unescape]
  · rw [hchar 10 h₅]; simp [readString, unescape]
  · rw [hchar 12 h₆]; simp [readString, unescape]
  · rw [hchar 13 h₇]; simp [readString, unescape]
  · have hunit := readString_unit (hex4_control c.toNat h₈) (by simp [isLeading]; omega) (by simp [isTrailing]; omega) cs
    rw [Char.ofNat_toNat] at hunit
    exact hunit
  · exact readString_plain h₁ h₂ h₈ cs

theorem readString_quote (s : String) (cs : List Char) :
    readString (s.toList.flatMap escapeChar ++ '"' :: cs) = some (s.toList, cs) := by
  induction s.toList with
  | nil => rfl
  | cons c l ih => rw [flatMap_cons, append_assoc, readString_escapeChar, ih]; rfl

/-! ### What a number is made of -/

theorem digits_eq_some {cs rest : List Char} (h : digits cs = some rest) :
    ∃ ds, cs = ds ++ rest ∧ ds ≠ [] ∧ ∀ c ∈ ds, isDigit c = true := by
  unfold digits at h
  split at h
  · cases h
  · rename_i hne
    cases h
    refine ⟨cs.takeWhile isDigit, takeWhile_append_dropWhile.symm, ?_, all_eq_true.1 all_takeWhile⟩
    intro h
    exact hne (by rw [h]; rfl)

theorem isNumberChar_of_isDigit {c : Char} (h : isDigit c = true) : isNumberChar c = true := by
  simp [isNumberChar, h]

/-- Of the characters of numbers only. -/
def Numeric (cs : List Char) : Prop := ∀ c ∈ cs, isNumberChar c = true

theorem numeric_of_digits {cs rest : List Char} (h : digits cs = some rest) (hrest : Numeric rest) : Numeric cs := by
  obtain ⟨ds, rfl, -, hds⟩ := digits_eq_some h
  exact forall_mem_append.2 ⟨fun c hc => isNumberChar_of_isDigit (hds c hc), hrest⟩

theorem numeric_cons {c : Char} {cs : List Char} (hc : isNumberChar c = true) (h : Numeric cs) : Numeric (c :: cs) :=
  forall_mem_cons.2 ⟨hc, h⟩

theorem numeric_of_exponent {cs : List Char} (h : exponent cs = true) : Numeric cs := by
  have hsigned : ∀ {cs : List Char}, digits (match cs with
      | '+' :: cs | '-' :: cs => cs
      | cs => cs) = some [] → Numeric cs := by
    intro cs h
    split at h
    · exact numeric_cons (by decide) (numeric_of_digits h nofun)
    · exact numeric_cons (by decide) (numeric_of_digits h nofun)
    · exact numeric_of_digits h nofun
  unfold exponent at h
  split at h
  · exact numeric_cons (by decide) (hsigned (of_decide_eq_true h))
  · exact numeric_cons (by decide) (hsigned (of_decide_eq_true h))
  · rw [isEmpty_iff.1 h]
    exact nofun

theorem numeric_of_fraction {cs : List Char} (h : fraction cs = true) : Numeric cs := by
  unfold fraction at h
  split at h
  · rename_i cs
    cases hd : digits cs with
    | none =>
      rw [hd] at h
      cases h
    | some rest =>
      rw [hd] at h
      exact numeric_cons (by decide) (numeric_of_digits hd (numeric_of_exponent h))
  · exact numeric_of_exponent h

/-- A number begins with a digit or with the sign. -/
theorem exists_of_unsigned {cs : List Char} (h : unsigned cs = true) :
    Numeric cs ∧ ∃ c t, cs = c :: t ∧ isDigit c = true := by
  unfold unsigned at h
  split at h
  · exact ⟨numeric_cons (by decide) (numeric_of_fraction h), _, _, rfl, by decide⟩
  · cases hd : digits cs with
    | none =>
      rw [hd] at h
      cases h
    | some rest =>
      rw [hd] at h
      refine ⟨numeric_of_digits hd (numeric_of_fraction h), ?_⟩
      obtain ⟨ds, rfl, hne, hds⟩ := digits_eq_some hd
      obtain ⟨c, ds, rfl⟩ := exists_cons_of_ne_nil hne
      exact ⟨c, ds ++ rest, rfl, hds c mem_cons_self⟩

theorem exists_of_isNumber {cs : List Char} (h : isNumber cs = true) :
    Numeric cs ∧ ∃ c t, cs = c :: t ∧ (isDigit c = true ∨ c = '-') := by
  unfold isNumber at h
  split at h
  · exact ⟨numeric_cons (by decide) (exists_of_unsigned h).1, _, _, rfl, .inr rfl⟩
  · obtain ⟨hall, c, t, he, hc⟩ := exists_of_unsigned h
    exact ⟨hall, c, t, he, .inl hc⟩

/-! ### Natural numbers -/

theorem head_toDigits {n : Nat} (hn : 0 < n) : (Nat.toDigits 10 n).head? ≠ some '0' := by
  induction n using Nat.strongRecOn with
  | _ n ih =>
    rw [Nat.toDigits_eq_if (by decide)]
    split
    · rename_i hlt
      rw [head?_cons, Ne, Option.some.injEq, Nat.digitChar_eq_zero]
      omega
    · rename_i hge
      have hhead := ih (n / 10) (by omega) (by omega)
      obtain ⟨c, ds, hds⟩ := exists_cons_of_ne_nil (Nat.toDigits_ne_nil (n := n / 10) (b := 10))
      rw [hds] at hhead ⊢
      exact hhead

/-- Decimal digits are a number of JSON. -/
theorem isNumber_toString (n : Nat) : isNumber (toString n).toList = true := by
  have hall : ∀ c ∈ Nat.toDigits 10 n, isDigit c = true := by
    intro c hc
    have hd := Nat.isDigit_of_mem_toDigits (by decide) (by decide) hc
    exact hd
  have hlist : (toString n).toList = Nat.toDigits 10 n := by
    rw [Nat.toString_eq_ofList_toDigits, String.toList_ofList]
  rw [hlist]
  rcases Nat.eq_zero_or_pos n with rfl | hn
  · rw [Nat.toDigits_zero]
    decide
  · have hhead := head_toDigits hn
    obtain ⟨c, ds, hds⟩ := exists_cons_of_ne_nil (Nat.toDigits_ne_nil (n := n) (b := 10))
    rw [hds] at hall hhead ⊢
    have hne : c ≠ '0' := fun h => hhead (congrArg some h)
    have hsign : c ≠ '-' := by
      rintro rfl
      exact absurd (hall '-' mem_cons_self) (by decide)
    have htake : (c :: ds).takeWhile isDigit = c :: ds := takeWhile_eq_self_iff.2 hall
    have hdrop : (c :: ds).dropWhile isDigit = [] := dropWhile_eq_nil_iff.2 hall
    rw [isNumber.eq_2 _ fun _ he => hsign (cons.inj he).1, unsigned.eq_2 _ fun _ he => hne (cons.inj he).1, digits,
      htake, hdrop]
    rfl

/-! ### What is written is read -/

/-- Behind a value: nothing that could belong to a number. -/
def Ends (cs : List Char) : Prop := ∀ c ∈ cs.head?, isNumberChar c = false

theorem skip_cons {c : Char} (h : isSpace c = false) (cs : List Char) : skip (c :: cs) = c :: cs := by
  rw [skip, dropWhile_cons_of_neg (by simp [h])]

theorem takeWhile_token {token cs : List Char} (h : Numeric token) (hcs : Ends cs) :
    (token ++ cs).takeWhile isNumberChar = token ∧ (token ++ cs).dropWhile isNumberChar = cs := by
  have hstop : cs.takeWhile isNumberChar = [] ∧ cs.dropWhile isNumberChar = cs := by
    cases cs with
    | nil => exact ⟨rfl, rfl⟩
    | cons c cs =>
      have hc := hcs c rfl
      exact ⟨takeWhile_cons_of_neg (by simp [hc]), dropWhile_cons_of_neg (by simp [hc])⟩
  rw [takeWhile_append_of_pos h, dropWhile_append_of_pos h, hstop.1, hstop.2, append_nil]
  exact ⟨rfl, rfl⟩

theorem scalar_number {token cs : List Char} (h : isNumber token = true) (hcs : Ends cs) :
    scalar (token ++ cs) = some (number token, cs) := by
  obtain ⟨hall, c, t, rfl, hc⟩ := exists_of_isNumber h
  obtain ⟨htake, hdrop⟩ := takeWhile_token hall hcs
  have hne : c ≠ 'n' ∧ c ≠ 't' ∧ c ≠ 'f' ∧ c ≠ '"' := by
    refine ⟨?_, ?_, ?_, ?_⟩ <;> rintro rfl <;> revert hc <;> decide
  rw [cons_append] at htake hdrop ⊢
  rw [scalar.eq_5 _ (fun _ he => hne.1 (cons.inj he).1) (fun _ he => hne.2.1 (cons.inj he).1)
    (fun _ he => hne.2.2.1 (cons.inj he).1) fun _ he => hne.2.2.2 (cons.inj he).1]
  simp only [htake, hdrop, h, if_true]

/-- A number of JSON. -/
def IsToken (token : Token) : Prop := isNumber token = true

/-- How the text of a value begins. -/
def Starts (cs : List Char) : Prop := ∃ c t, cs = c :: t ∧ isSpace c = false ∧ c ≠ ']' ∧ c ≠ '}'

theorem Starts.append {cs : List Char} (h : Starts cs) (cs' : List Char) : Starts (cs ++ cs') := by
  obtain ⟨c, t, rfl, h⟩ := h
  exact ⟨c, t ++ cs', rfl, h⟩

theorem starts_quote (s : String) : Starts (quote s) := ⟨'"', _, rfl, by decide⟩

theorem starts_write {n : Nat} {v : Json Token} (h : v.Fits IsToken n) : Starts v.write := by
  cases v with
  | null => exact ⟨'n', _, rfl, by decide⟩
  | bool b => cases b <;> exact ⟨_, _, rfl, by decide⟩
  | string s => exact starts_quote s
  | array items => exact ⟨'[', _, rfl, by decide⟩
  | object fields => exact ⟨'{', _, rfl, by decide⟩
  | number token =>
    have hnum : isNumber token = true := by cases n <;> exact h
    obtain ⟨-, c, t, rfl, hc⟩ := exists_of_isNumber hnum
    refine ⟨c, t, rfl, ?_, ?_, ?_⟩
    · by_contra hs
      rw [Bool.not_eq_false, isSpace] at hs
      simp only [Bool.or_eq_true, decide_eq_true_eq] at hs
      rcases hs with ((rfl | rfl) | rfl) | rfl <;> revert hc <;> decide
    · rintro rfl
      revert hc
      decide
    · rintro rfl
      revert hc
      decide

section
variable {α : Type} {close : Char} {last : List Char} {p : List Char → Option (α × List Char)} {text : α → List Char}
  {xs : List α}

/-- Behind white space, `p` reads the texts one by one, and `last` is the closing bracket. -/
structure Enclosed (close : Char) (last : List Char) (p : List Char → Option (α × List Char)) (text : α → List Char)
    (xs : List α) : Prop where
  closes : ∀ cs, skip (last ++ cs) = close :: cs
  ends : ∀ cs, Ends (last ++ cs)
  comma : close ≠ ','
  starts : ∀ x ∈ xs, ∃ c t, c ≠ close ∧ ∀ cs, skip (text x ++ cs) = c :: (t ++ cs)
  reads : ∀ x ∈ xs, ∀ cs, Ends cs → p (skip (text x ++ cs)) = some (x, cs)

namespace Enclosed

theorem tail {x : α} (h : Enclosed close last p text (x :: xs)) : Enclosed close last p text xs :=
  { h with
    starts := fun y hy => h.starts y (mem_cons_of_mem _ hy)
    reads := fun y hy => h.reads y (mem_cons_of_mem _ hy) }

theorem ends_rest (h : Enclosed close last p text xs) (cs : List Char) :
    Ends ((xs.map text).flatMap (',' :: ·) ++ (last ++ cs)) := by
  cases xs with
  | nil => exact h.ends cs
  | cons x xs =>
    rintro c ⟨⟩
    decide

theorem readRest_eq (h : Enclosed close last p text xs) {fuel : Nat} (hfuel : xs.length < fuel) (cs : List Char) :
    readRest close p fuel ((xs.map text).flatMap (',' :: ·) ++ (last ++ cs)) = some (xs, cs) := by
  induction xs generalizing fuel with
  | nil =>
    obtain ⟨fuel, rfl⟩ := Nat.exists_eq_add_one_of_ne_zero (Nat.ne_of_gt hfuel)
    rw [map_nil, flatMap_nil, nil_append, readRest, h.closes]
    exact if_pos rfl
  | cons x xs ih =>
    obtain ⟨fuel, rfl⟩ := Nat.exists_eq_add_one_of_ne_zero (Nat.ne_of_gt (Nat.lt_of_le_of_lt (Nat.zero_le _) hfuel))
    have hread := h.reads x mem_cons_self _ (h.tail.ends_rest cs)
    have hrest := ih h.tail (Nat.lt_of_succ_lt_succ hfuel)
    rw [map_cons, flatMap_cons, append_assoc, cons_append, readRest, skip_cons (by decide)]
    simp only [h.comma.symm, if_false, if_true, bind, Option.bind, hread, hrest]
    rfl

theorem readAll_eq (h : Enclosed close last p text xs) (cs : List Char) :
    readAll close p (closing last (xs.map text) ++ cs) = some (xs, cs) := by
  cases xs with
  | nil =>
    rw [map_nil, closing, readAll, h.closes]
    exact if_pos rfl
  | cons x xs =>
    have hread := h.reads x mem_cons_self _ (h.tail.ends_rest cs)
    obtain ⟨c, t, hne, hskip⟩ := h.starts x mem_cons_self
    have hlen : xs.length < (t ++ ((xs.map text).flatMap (',' :: ·) ++ (last ++ cs))).length + 1 := by
      have hle : xs.length ≤ ((xs.map text).flatMap (',' :: ·)).length := by
        clear hread h
        induction xs with
        | nil => exact Nat.zero_le _
        | cons y ys ih =>
          rw [map_cons, flatMap_cons, length_append, length_cons, length_cons]
          omega
      rw [length_append, length_append]
      omega
    have hrest := h.tail.readRest_eq hlen cs
    rw [hskip] at hread
    rw [map_cons, closing, append_assoc, append_assoc, readAll, hskip]
    simp only [hne, if_false, bind, Option.bind, hread, hrest]
    rfl

end Enclosed
end

theorem Starts.enclosed {α : Type} {close : Char} {p : List Char → Option (α × List Char)} {text : α → List Char}
    {xs : List α} (hclose : close = ']' ∨ close = '}') (hstart : ∀ x ∈ xs, Starts (text x))
    (hp : ∀ x ∈ xs, ∀ cs, Ends cs → p (text x ++ cs) = some (x, cs)) : Enclosed close [close] p text xs where
  closes cs := skip_cons (by rcases hclose with rfl | rfl <;> decide) cs
  ends cs := by
    rcases hclose with rfl | rfl <;> rintro c ⟨⟩ <;> decide
  comma := by rcases hclose with rfl | rfl <;> decide
  starts x hx := by
    obtain ⟨c, t, ht, hs, hne₁, hne₂⟩ := hstart x hx
    refine ⟨c, t, ?_, fun cs => ?_⟩
    · rcases hclose with rfl | rfl
      · exact hne₁
      · exact hne₂
    · rw [ht, cons_append, skip_cons hs]
  reads x hx cs hcs := by
    obtain ⟨c, t, ht, hs, -⟩ := hstart x hx
    have hread := hp x hx cs hcs
    rw [ht, cons_append] at hread ⊢
    rwa [skip_cons hs]

theorem writeItems_eq (items : List (Json Token)) : writeItems items = items.map write := by
  induction items with
  | nil => rfl
  | cons v items ih => rw [writeItems, ih]; rfl

theorem writeFields_eq (fields : List (String × Json Token)) :
    writeFields fields = fields.map fun f => quote f.1 ++ ':' :: f.2.write := by
  induction fields with
  | nil => rfl
  | cons f fields ih => rw [writeFields, ih]; rfl

/-- A value that is no array and no object. -/
def IsScalar : Json Token → Prop
  | array _ | object _ => False
  | _ => True

theorem scalar_write {n : Nat} {v : Json Token} (h : v.Fits IsToken n) (hv : IsScalar v) {cs : List Char} (hcs : Ends cs) :
    scalar (v.write ++ cs) = some (v, cs) := by
  cases v with
  | null => rfl
  | bool b => cases b <;> rfl
  | number token => exact scalar_number (by cases n <;> exact h) hcs
  | array | object => exact hv.elim
  | string s =>
    have hread := readString_quote s cs
    show (readString ((s.toList.flatMap escapeChar ++ ['"']) ++ cs)).map _ = _
    rw [append_assoc, singleton_append, hread, Option.map_some, String.ofList_toList]

theorem value_scalar {n : Nat} {v : Json Token} (h : v.Fits IsToken n) (hv : IsScalar v) (cs : List Char) :
    value n (v.write ++ cs) = scalar (v.write ++ cs) := by
  have hne : ∀ t, v.write ++ cs ≠ '[' :: t ∧ v.write ++ cs ≠ '{' :: t := by
    intro t
    cases v with
    | null => exact ⟨nofun, nofun⟩
    | bool b => cases b <;> exact ⟨nofun, nofun⟩
    | string s => exact ⟨nofun, nofun⟩
    | array | object => exact hv.elim
    | number token =>
      have hnum : isNumber token = true := by cases n <;> exact h
      obtain ⟨-, c, t', rfl, hc⟩ := exists_of_isNumber hnum
      constructor <;> intro he <;> obtain ⟨rfl, -⟩ := cons.inj he <;> revert hc <;> decide
  rw [value.eq_3 n _ (fun _ t _ he => (hne t).1 he) fun _ t _ he => (hne t).2 he]

theorem readField_field {value : List Char → Option (Json Token × List Char)} {f : String × Json Token} {cs : List Char}
    (hstart : Starts f.2.write) (h : value (f.2.write ++ cs) = some (f.2, cs)) :
    readField value ((quote f.1 ++ ':' :: f.2.write) ++ cs) = some (f, cs) := by
  obtain ⟨name, v⟩ := f
  have hread := readString_quote name (':' :: (v.write ++ cs))
  obtain ⟨c, t, ht, hs, -⟩ := hstart
  have htext : (quote name ++ ':' :: v.write) ++ cs =
      '"' :: (name.toList.flatMap escapeChar ++ '"' :: ':' :: (v.write ++ cs)) := by simp [quote]
  rw [htext, readField, hread]
  simp only [bind, Option.bind, skip_cons (show isSpace ':' = false by decide)]
  dsimp only at ht
  rw [ht, cons_append, skip_cons hs, ← cons_append, ← ht, h]
  simp only [pure, String.ofList_toList]

/-- What is written for a value is read as it, whatever comes behind. -/
theorem value_write {n : Nat} {v : Json Token} (h : v.Fits IsToken n) {cs : List Char} (hcs : Ends cs) :
    value n (v.write ++ cs) = some (v, cs) := by
  induction n generalizing v cs with
  | zero =>
    have hv : IsScalar v := by
      cases v with
      | array | object => exact h
      | null | bool | number | string => trivial
    rw [value_scalar h hv, scalar_write h hv hcs]
  | succ n ih =>
    cases v with
    | null | bool | number | string => rw [value_scalar h trivial, scalar_write h trivial hcs]
    | array items =>
      have hall := (Starts.enclosed (.inl rfl) (fun v hv => starts_write (h v hv))
        fun v hv cs hcs => ih (h v hv) hcs).readAll_eq cs
      show (readAll ']' (value n) (closing [']'] (writeItems items) ++ cs)).map _ = _
      rw [writeItems_eq, hall]
      rfl
    | object fields =>
      have hall := (Starts.enclosed (.inr rfl) (fun f _ => (starts_quote f.1).append (':' :: f.2.write))
        fun f hf cs hcs => readField_field (starts_write (h f hf)) (ih (h f hf) hcs)).readAll_eq cs
      show (readAll '}' (readField (value n)) (closing ['}'] (writeFields fields) ++ cs)).map _ = _
      rw [writeFields_eq, hall]
      rfl

theorem parse_of_value {cs : List Char} {v : Json Token} (hstart : Starts cs) (h : value maxDepth cs = some (v, [])) :
    parse cs = some v := by
  obtain ⟨c, t, rfl, hs, -⟩ := hstart
  rw [parse, skip_cons hs, h]
  rfl

theorem parse_write {v : Json Token} (h : v.Fits IsToken maxDepth) : parse v.write = some v := by
  have hread : value maxDepth (v.write ++ []) = some (v, []) := value_write h nofun
  rw [append_nil] at hread
  exact parse_of_value (starts_write h) hread

theorem skip_prettyField (f : String × Json Token) (cs : List Char) :
    skip (prettyField f ++ cs) = (quote f.1 ++ ':' :: ' ' :: f.2.write) ++ cs := by
  simp [prettyField, skip, isSpace, quote]

theorem readField_prettyField {value : List Char → Option (Json Token × List Char)} {f : String × Json Token}
    {cs : List Char} (hstart : Starts f.2.write) (h : value (f.2.write ++ cs) = some (f.2, cs)) :
    readField value (skip (prettyField f ++ cs)) = some (f, cs) := by
  obtain ⟨name, v⟩ := f
  have hread := readString_quote name (':' :: ' ' :: (v.write ++ cs))
  obtain ⟨c, t, ht, hs, -⟩ := hstart
  have htext : (quote name ++ ':' :: ' ' :: v.write) ++ cs =
      '"' :: (name.toList.flatMap escapeChar ++ '"' :: ':' :: ' ' :: (v.write ++ cs)) := by simp [quote]
  have hspace : skip (' ' :: (v.write ++ cs)) = v.write ++ cs := by
    dsimp only at ht
    rw [ht]
    exact skip_cons hs (t ++ cs)
  rw [skip_prettyField, htext, readField, hread]
  simp only [bind, Option.bind, skip_cons (show isSpace ':' = false by decide), hspace]
  dsimp only at h
  rw [h]
  simp only [pure, String.ofList_toList]

theorem parse_pretty {fields : List (String × Json Token)} (h : (object fields).Fits IsToken maxDepth) :
    parse (pretty fields) = some (.object fields) := by
  cases fields with
  | nil => rfl
  | cons f fields =>
    have hall : Enclosed '}' ['\n', '}'] (readField (value 126)) prettyField (f :: fields) := {
      closes := fun cs => rfl
      ends := fun cs c hc => by
        cases hc
        decide
      comma := by decide
      starts := fun f hf => ⟨'"', _, by decide, skip_prettyField f⟩
      reads := fun f hf cs hcs => readField_prettyField (starts_write (h f hf)) (value_write (h f hf) hcs) }
    have hread := hall.readAll_eq []
    rw [append_nil] at hread
    refine parse_of_value ⟨'{', _, rfl, by decide⟩ ?_
    show (readAll '}' (readField (value 126)) _).map _ = _
    rw [hread]
    rfl

end Json
end Lib
