import XVideoDownloader.Lib.StateFile
import Mathlib.Data.List.Forall2

/-!
# Lists of flat records as JSON

An array of objects whose fields are null, numbers and strings, as `serde` writes a list of records and reads it
back. The text of an array and the texts of its numbers are the serializer's own: they are the fields of
`SerdeJson`. A record type says how one value becomes an object and back (`Record`), and the list of its values
has a text then. `Record.decode_iff` takes what is read back of one record to the list.
-/

namespace Lib

/-- The bits of a double that is neither an infinity nor a NaN. -/
def IsFinite (x : BitVec 64) : Prop := x.extractLsb' 52 11 ≠ BitVec.allOnes 11

instance (x : BitVec 64) : Decidable (IsFinite x) := inferInstanceAs (Decidable (_ ≠ _))

/-- What stands in a field, with `ν` for the numbers. -/
inductive Scalar (ν : Type)
  | null
  | number (n : ν)
  | string (s : String)
  deriving DecidableEq

abbrev Object (ν : Type) := List (String × Scalar ν)

class SerdeJson where
  Number : Type
  /-- `to_string_pretty` of an array of objects. -/
  toStringPretty : List (Object Number) → String
  /-- `from_str`, up to the fields' types. -/
  fromStr : String → Except String (List (Object Number))
  /-- The message for a text that is JSON and no list of such records. -/
  dataError : String → String
  ofF64 : BitVec 64 → Number
  toF64 : Number → Option (BitVec 64)
  ofU64 : Nat → Number
  toU64 : Number → Option Nat

/-- What is relied on of the serializer: an array reads back, and so does a `u64`, and a finite double is read as
one. -/
structure SerdeJson.Lawful [SerdeJson] : Prop where
  fromStr_toStringPretty : ∀ objects, fromStr (toStringPretty objects) = .ok objects
  toU64_ofU64 : ∀ n < UInt64.size, toU64 (ofU64 n) = some n
  lt_of_toU64 : ∀ {n m}, toU64 n = some m → m < UInt64.size
  toF64_ofF64 : ∀ x, IsFinite x → ∃ y, toF64 (ofF64 x) = some y
  isFinite_of_toF64 : ∀ {n x}, toF64 n = some x → IsFinite x

section
variable [SerdeJson]

/-! ### Fields -/

/-- How a value stands in a field, and how it is read from one. -/
structure JsonField (α : Type) where
  write : α → Except String (Scalar SerdeJson.Number)
  read : Scalar SerdeJson.Number → Option α

namespace JsonField
variable {α : Type}

/-- A string that `parse` reads. -/
def text (write : α → Except String String) (parse : String → Option α) : JsonField α where
  write a := (write a).map Scalar.string
  read
    | .string s => parse s
    | _ => none

def u64 : JsonField Nat where
  write n := .ok (.number (SerdeJson.ofU64 n))
  read
    | .number n => SerdeJson.toU64 n
    | _ => none

/-- A number, but null for what is not finite; and null is not read as a number. -/
def f64 : JsonField (BitVec 64) where
  write x := .ok (if IsFinite x then .number (SerdeJson.ofF64 x) else .null)
  read
    | .number n => SerdeJson.toF64 n
    | _ => none

def option (field : JsonField α) : JsonField (Option α) where
  write
    | none => .ok .null
    | some a => field.write a
  read
    | .null => some none
    | s => (field.read s).map some

/-- A field without which there is no record; a name that stands twice is refused. -/
def required (field : JsonField α) (name : String) (o : Object SerdeJson.Number) : Option α :=
  match o.filter (·.1 = name) with
  | [f] => field.read f.2
  | _ => none

/-- A field of an `Option` type, which may be missing. -/
def optional (field : JsonField α) (name : String) (o : Object SerdeJson.Number) : Option (Option α) :=
  match o.filter (·.1 = name) with
  | [] => some none
  | [f] => field.option.read f.2
  | _ => none

/-- What is written for `a` is read as `a`. -/
def ReadsBack (field : JsonField α) (a : α) : Prop := ∀ s, field.write a = .ok s → field.read s = some a

theorem readsBack_text {write : α → Except String String} {parse : String → Option α} {a : α}
    (h : ∀ s, write a = .ok s → parse s = some a) : (text write parse).ReadsBack a := by
  intro s hs
  cases hw : write a with
  | error e => simp [text, hw, Except.map] at hs
  | ok t =>
    simp only [text, hw, Except.map, Except.ok.injEq] at hs
    subst hs
    exact h t hw

theorem readsBack_u64 (hlaw : SerdeJson.Lawful) {n : Nat} (h : n < UInt64.size) : u64.ReadsBack n := by
  rintro _ ⟨⟩
  exact hlaw.toU64_ofU64 n h

theorem readsBack_option {field : JsonField α} {a : Option α} (hnull : ∀ b ∈ a, field.write b ≠ .ok .null)
    (h : ∀ b ∈ a, field.ReadsBack b) : field.option.ReadsBack a := by
  intro s hs
  rcases a with _ | a
  · cases hs
    rfl
  · have hread := h a rfl s hs
    have hs : field.write a = .ok s := hs
    rcases s with _ | n | s
    · exact absurd hs (hnull a rfl)
    · simp [option, hread]
    · simp [option, hread]

theorem text_ne_null {write : α → Except String String} {parse : String → Option α} {a : α} :
    (text write parse).write a ≠ .ok .null := by
  cases hw : write a <;> simp [text, hw, Except.map]

theorem u64_ne_null {n : Nat} : u64.write n ≠ .ok .null := by simp [u64]

theorem read_of_required {field : JsonField α} {name : String} {o : Object SerdeJson.Number} {a : α}
    (h : field.required name o = some a) : ∃ s, field.read s = some a := by
  unfold required at h
  split at h
  · exact ⟨_, h⟩
  · cases h

theorem read_of_optional {field : JsonField α} {name : String} {o : Object SerdeJson.Number} {a : Option α}
    (h : field.optional name o = some a) : ∀ b ∈ a, ∃ s, field.read s = some b := by
  unfold optional at h
  split at h
  · cases h
    simp
  · rename_i f _
    rintro b rfl
    refine ⟨f.2, ?_⟩
    cases hs : f.2 with
    | null => simp [option, hs] at h
    | number n => simpa [option, hs] using h
    | string s => simpa [option, hs] using h
  · cases h

end JsonField

/-! ### Records -/

/-- The object of the fields, where each can be written. -/
def objectOf (fields : List (String × Except String (Scalar SerdeJson.Number))) :
    Except String (Object SerdeJson.Number) :=
  fields.mapM fun f => f.2.map fun s => (f.1, s)

theorem objectOf_nil {o : Object SerdeJson.Number} : objectOf [] = .ok o ↔ o = [] := by
  simp [objectOf, pure, Except.pure, eq_comm]

theorem objectOf_cons {name : String} {w : Except String (Scalar SerdeJson.Number)}
    {fields : List (String × Except String (Scalar SerdeJson.Number))} {o : Object SerdeJson.Number} :
    objectOf ((name, w) :: fields) = .ok o ↔ ∃ s o', w = .ok s ∧ objectOf fields = .ok o' ∧ o = (name, s) :: o' := by
  rw [objectOf, objectOf, List.mapM_cons]
  cases w <;> cases fields.mapM (fun f => f.2.map fun s => (f.1, s)) <;>
    simp [Except.map, bind, Except.bind, pure, Except.pure, eq_comm]

class Record (α : Type) where
  serialize : α → Except String (Object SerdeJson.Number)
  deserialize : Object SerdeJson.Number → Option α

variable {α : Type} [Record α] {as bs : List α} {text : String}

instance (priority := 2000) Record.codec : Codec (List α) where
  encode as := (as.mapM serialize).map SerdeJson.toStringPretty
  decode text := do
    let objects ← SerdeJson.fromStr text
    match objects.mapM deserialize with
    | some as => .ok as
    | none => .error (SerdeJson.dataError text)

theorem Record.decode_of_none {os : List (Object SerdeJson.Number)} (hparse : SerdeJson.fromStr text = .ok os)
    (hnone : os.mapM (@deserialize _ α _) = none) :
    (Codec.decode text : Except String (List α)) = .error (SerdeJson.dataError text) := by
  simp only [Codec.decode, hparse, bind, Except.bind, hnone]

/-- `b` is read where `a` was written. -/
def Record.Rereads (a b : α) : Prop := ∃ o, serialize a = .ok o ∧ deserialize o = some b

theorem Record.mapM_deserialize_iff {os : List (Object SerdeJson.Number)} (h : as.mapM serialize = .ok os) :
    os.mapM deserialize = some bs ↔ List.Forall₂ Rereads as bs := by
  induction as generalizing os bs with
  | nil =>
    cases h
    cases bs <;> simp
  | cons a as ih =>
    rw [List.mapM_cons] at h
    cases ha : serialize a with
    | error e => simp [ha, bind, Except.bind] at h
    | ok o =>
      cases has : as.mapM serialize with
      | error e => simp [ha, has, bind, Except.bind] at h
      | ok os' =>
        simp only [ha, has, bind, Except.bind, pure, Except.pure, Except.ok.injEq] at h
        subst h
        have hrereads {b : α} : Rereads a b ↔ deserialize o = some b := by simp [Rereads, ha]
        cases hd : (deserialize o : Option α) <;> cases hds : os'.mapM (@deserialize _ α _) <;>
          cases bs <;> simp [hd, hds, hrereads, ← ih has]

/-- The text of a list is read as the list of what is read for each value. -/
theorem Record.decode_iff (hlaw : SerdeJson.Lawful) (he : Codec.encode as = .ok text) :
    Codec.decode text = .ok bs ↔ List.Forall₂ Rereads as bs := by
  cases hos : as.mapM serialize with
  | error e => simp [Codec.encode, hos, Except.map] at he
  | ok os =>
    simp only [Codec.encode, hos, Except.map, Except.ok.injEq] at he
    subst he
    rw [← mapM_deserialize_iff hos]
    simp only [Codec.decode, hlaw.fromStr_toStringPretty, bind, Except.bind]
    cases os.mapM (@deserialize _ α _) <;> simp

theorem Record.serialize_of_encode (h : Codec.encode as = .ok text) {a : α} (ha : a ∈ as) :
    ∃ o, serialize a = .ok o := by
  cases hos : as.mapM serialize with
  | error e => simp [Codec.encode, hos, Except.map] at h
  | ok os =>
    clear h
    induction as generalizing os with
    | nil => cases ha
    | cons b as ih =>
      rw [List.mapM_cons] at hos
      cases hb : serialize b with
      | error e => simp [hb, bind, Except.bind] at hos
      | ok o =>
        rcases List.mem_cons.1 ha with rfl | ha
        · exact ⟨o, hb⟩
        · cases has : as.mapM serialize with
          | error e => simp [hb, has, bind, Except.bind] at hos
          | ok os' => exact ih ha os' has

omit [SerdeJson] in
theorem exists_of_forall₂ {β γ : Type} {R : β → γ → Prop} {bs : List β} {cs : List γ} (h : List.Forall₂ R bs cs)
    {b : β} (hb : b ∈ bs) : ∃ c, R b c := by
  induction h with
  | nil => cases hb
  | cons hr _ ih =>
    rcases List.mem_cons.1 hb with rfl | hb
    · exact ⟨_, hr⟩
    · exact ih hb

theorem Record.mem_of_mapM {os : List (Object SerdeJson.Number)} (h : os.mapM deserialize = some as) {a : α}
    (ha : a ∈ as) : ∃ o, deserialize o = some a := by
  induction os generalizing as with
  | nil =>
    simp only [List.mapM_nil, pure, Option.some.injEq] at h
    subst h
    cases ha
  | cons o os ih =>
    simp only [List.mapM_cons, bind, Option.bind_eq_some_iff, pure, Option.some.injEq] at h
    obtain ⟨b, hb, bs, hbs, rfl⟩ := h
    rcases List.mem_cons.1 ha with rfl | ha
    · exact ⟨o, hb⟩
    · exact ih hbs ha

theorem Record.deserialize_of_decode (h : Codec.decode text = .ok as) {a : α} (ha : a ∈ as) :
    ∃ o, deserialize o = some a := by
  simp only [Codec.decode, bind, Except.bind] at h
  split at h
  · cases h
  · split at h
    · cases h
      exact mem_of_mapM (by assumption) ha
    · cases h

end
end Lib
