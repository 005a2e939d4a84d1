import Mathlib.Data.List.Zip

/-!
# JSON, and a package that writes and reads it

A value of JSON has numbers of the package's own: it makes them of integers and fractions and reads them as such. What
is relied on of a package (`JsonText.Lawful`) is that it reads what it has written, unless the value is too deep, and
what its numbers come back as.
-/

namespace Lib

/-- A value of JSON, with `ν` for the numbers. -/
inductive Json (ν : Type)
  | null
  | bool (b : Bool)
  | number (n : ν)
  | string (s : String)
  | array (items : List (Json ν))
  | object (fields : List (String × Json ν))

namespace Json
variable {ν : Type}

/-- How many arrays and objects may be within each other. -/
def maxDepth : Nat := 127

/-- Arrays and objects are at most `n` deep, and the numbers are of a kind. -/
def Fits (num : ν → Prop) : Nat → Json ν → Prop
  | n + 1, array items => ∀ v ∈ items, Fits num n v
  | n + 1, object fields => ∀ f ∈ fields, Fits num n f.2
  | 0, array _ | 0, object _ => False
  | _, number x => num x
  | _, null | _, bool _ | _, string _ => True

theorem Fits.imp {p q : ν → Prop} (hpq : ∀ x, p x → q x) {n : Nat} {v : Json ν} (h : v.Fits p n) : v.Fits q n := by
  induction n generalizing v with
  | zero =>
    cases v with
    | number x => exact hpq x h
    | null | bool | string => trivial
    | array | object => exact h.elim
  | succ n ih =>
    cases v with
    | number x => exact hpq x h
    | null | bool | string => trivial
    | array items => exact fun v hv => ih (h v hv)
    | object fields => exact fun f hf => ih (h f hf)

end Json

/-- A package for JSON. -/
class JsonText where
  Number : Type
  toString : Json Number → List Char
  /-- Of an object of texts, over several lines. -/
  toStringPretty : List (String × String) → List Char
  /-- Without a result the text is no JSON, or its numbers are out of range, or it is too deep. -/
  fromStr : List Char → Option (Json Number)
  ofU64 : UInt64 → Number
  toU64 : Number → Option UInt64
  ofF64 : Rat → Number
  toF64 : Number → Option Rat

namespace JsonText
variable [JsonText]

/-- A number that was made of an integer or a fraction. -/
def Written (x : Number) : Prop := (∃ n, x = ofU64 n) ∨ ∃ y, x = ofF64 y

/-- What is written is read as the same value. An integer comes back, and a fraction comes back as one. -/
structure Lawful : Prop where
  fromStr_toString : ∀ v : Json Number, v.Fits Written Json.maxDepth → fromStr (toString v) = some v
  toU64_ofU64 : ∀ n, toU64 (ofU64 n) = some n
  toF64_ofF64 : ∀ x, (toF64 (ofF64 x)).isSome

/-- So it is with an object of texts, the names in order, and what ends before its closing brace is no JSON. -/
structure LawfulPretty : Prop where
  fromStr_toStringPretty : ∀ fields : List (String × String), (fields.map Prod.fst).Pairwise (· < ·) →
    fromStr (toStringPretty fields) = some (.object (fields.map fun f => (f.1, .string f.2)))
  fromStr_of_cut : ∀ (fields : List (String × String)) (before after : List Char),
    before ++ after = toStringPretty fields → after ≠ [] → fromStr before = none

end JsonText
end Lib
