import Mathlib.Algebra.GroupWithZero.Nat
import Mathlib.Data.List.Basic

/-!
# UTF-8 text in byte strings

`utf8` encodes. `decodeLossy` decodes arbitrary bytes, with one replacement character for every maximal piece
that is not valid; it takes encoded text back whatever comes behind it (`decodeLossy_utf8_append`). `fromUtf8`
refuses bytes that are not valid. A byte below 128 is a character of its own (`mem_utf8EncodeChar`). Encoding keeps the
lexicographic order (`utf8_lt_utf8`).
-/

namespace Lib

def utf8 (s : String) : List UInt8 := s.toList.flatMap String.utf8EncodeChar

theorem utf8_append (s t : String) : utf8 (s ++ t) = utf8 s ++ utf8 t := by
  simp [utf8]

theorem length_utf8 (s : String) : (utf8 s).length = (s.toList.map Char.utf8Size).sum := by
  simp [utf8, List.length_flatMap, String.length_utf8EncodeChar]

/-- Evaluated by the kernel without decoding `s`. -/
theorem utf8_eq (s : String) : utf8 s = s.toByteArray.data.toList := by
  rw [← String.utf8Encode_toList, List.utf8Encode, utf8]
  simp

theorem mem_utf8EncodeChar {c : Char} {b : UInt8} (h : b ∈ String.utf8EncodeChar c) (hb : b.toNat < 128) :
    c.toNat = b.toNat := by
  have hc : c.toNat = c.val.toNat := rfl
  rw [hc]
  unfold String.utf8EncodeChar at h
  dsimp only at h
  split at h
  · rw [List.mem_singleton.1 h, UInt8.toNat_ofNat']
    omega
  · exfalso
    -- the bytes of longer encodings are at least 128
    have hbig : ∀ n, 128 ≤ n → n < 256 → b ≠ UInt8.ofNat n := by
      rintro n h1 h2 rfl
      rw [UInt8.toNat_ofNat', Nat.mod_eq_of_lt (by omega)] at hb
      omega
    split at h
    · simp only [List.mem_cons, List.not_mem_nil, or_false] at h
      rcases h with h | h <;> exact hbig _ (by omega) (by omega) h
    · split at h <;> simp only [List.mem_cons, List.not_mem_nil, or_false] at h
      · rcases h with h | h | h <;> exact hbig _ (by omega) (by omega) h
      · rcases h with h | h | h | h <;> exact hbig _ (by omega) (by omega) h

theorem not_mem_utf8 {s : String} {c : Char} {b : UInt8} (hc : c.toNat = b.toNat) (hb : b.toNat < 128)
    (h : c ∉ s.toList) : b ∉ utf8 s := by
  intro hmem
  obtain ⟨d, hd, hbd⟩ := List.mem_flatMap.1 hmem
  have hdc : d.toNat = c.toNat := (mem_utf8EncodeChar hbd hb).trans hc.symm
  exact h (Char.toNat_inj.1 hdc ▸ hd)

/-! ### Order -/

/-- The encodings of characters are ordered as these are, whatever comes behind them. -/
theorem utf8EncodeChar_append_lt {c d : Char} (h : c < d) (bs bs' : List UInt8) :
    String.utf8EncodeChar c ++ bs < String.utf8EncodeChar d ++ bs' := by
  have hlt : c.val.toNat < d.val.toNat := h
  have hmax : d.val.toNat < 0x110000 := by
    have hvalid := d.valid
    simp only [UInt32.isValidChar, Nat.isValidChar] at hvalid
    omega
  have hdigits (n : Nat) : n / 64 / 64 = n / 4096 ∧ n / 4096 / 64 = n / 262144 :=
    ⟨Nat.div_div_eq_div_mul .., Nat.div_div_eq_div_mul ..⟩
  unfold String.utf8EncodeChar
  dsimp only
  generalize c.val.toNat = m at hlt ⊢
  generalize d.val.toNat = n at hlt hmax ⊢
  have hm := hdigits m
  have hn := hdigits n
  -- the first byte tells the length, and it is larger the longer the encoding is
  repeat' split
  all_goals
    simp only [List.cons_append, List.nil_append, List.cons_lt_cons_iff, UInt8.lt_iff_toNat_lt,
      ← UInt8.toNat_inj, UInt8.toNat_ofNat']
    simp (disch := omega) only [Nat.mod_eq_of_lt (b := 2 ^ 8), Nat.mod_eq_of_lt (b := 8)]
    omega

theorem flatMap_utf8EncodeChar_lt {l l' : List Char} (h : l < l') :
    l.flatMap String.utf8EncodeChar < l'.flatMap String.utf8EncodeChar := by
  induction h with
  | @nil c cs =>
    have hpos := String.length_utf8EncodeChar c ▸ c.utf8Size_pos
    obtain ⟨b, bs, hbs⟩ := List.exists_cons_of_ne_nil (List.ne_nil_of_length_pos hpos)
    rw [List.flatMap_cons, hbs]
    exact List.nil_lt_cons _ _
  | rel h => exact utf8EncodeChar_append_lt h _ _
  | cons h ih => exact List.append_left_lt ih

theorem utf8_lt_utf8 {s t : String} (h : s.toList < t.toList) : utf8 s < utf8 t := flatMap_utf8EncodeChar_lt h

/-! ### Decoding -/

/-- The character that the bytes begin with. -/
def decodeChar (bs : List UInt8) : Option Char := bs.toByteArray.utf8DecodeChar? 0

/-- Whether `b` can follow the first byte `lead` of an encoding of at least three bytes. -/
def continues (lead b : UInt8) : Bool :=
  if lead = 0xE0 then 0xA0 ≤ b && b ≤ 0xBF
  else if lead = 0xED then 0x80 ≤ b && b ≤ 0x9F
  else if 0xE1 ≤ lead && lead ≤ 0xEF then 0x80 ≤ b && b ≤ 0xBF
  else if lead = 0xF0 then 0x90 ≤ b && b ≤ 0xBF
  else if lead = 0xF4 then 0x80 ≤ b && b ≤ 0x8F
  else if 0xF1 ≤ lead && lead ≤ 0xF3 then 0x80 ≤ b && b ≤ 0xBF
  else false

/-- The length of the maximal piece that is replaced, where the bytes begin with no character: how far they
agree with the beginning of some encoding. -/
def invalidLength : List UInt8 → Nat
  | lead :: b :: rest =>
    if !continues lead b then 1
    else if lead < 0xF0 then 2
    else
      match rest with
      | b' :: _ => if 0x80 ≤ b' && b' ≤ 0xBF then 3 else 2
      | [] => 2
  | _ => 1

theorem invalidLength_pos (bs : List UInt8) : 0 < invalidLength bs := by
  unfold invalidLength
  repeat' split
  all_goals decide

def decodeLossy (bs : List UInt8) : List Char :=
  if _ : bs = [] then []
  else
    match decodeChar bs with
    | some c => c :: decodeLossy (bs.drop c.utf8Size)
    | none => '\uFFFD' :: decodeLossy (bs.drop (invalidLength bs))
termination_by bs.length
decreasing_by
  · have hpos := List.length_pos_of_ne_nil ‹¬ bs = []›
    have hsize := c.utf8Size_pos
    rw [List.length_drop]
    omega
  · have hpos := List.length_pos_of_ne_nil ‹¬ bs = []›
    have hsize := invalidLength_pos bs
    rw [List.length_drop]
    omega

theorem decodeChar_utf8EncodeChar_append (c : Char) (bs : List UInt8) :
    decodeChar (String.utf8EncodeChar c ++ bs) = some c := by
  rw [decodeChar, List.toByteArray_append]
  exact ByteArray.utf8DecodeChar?_utf8EncodeChar_append

theorem decodeLossy_flatMap_append (cs : List Char) (bs : List UInt8) :
    decodeLossy (cs.flatMap String.utf8EncodeChar ++ bs) = cs ++ decodeLossy bs := by
  induction cs with
  | nil => rfl
  | cons c cs ih =>
    have hlen : (String.utf8EncodeChar c).length = c.utf8Size := String.length_utf8EncodeChar c
    have hne : String.utf8EncodeChar c ++ (cs.flatMap String.utf8EncodeChar ++ bs) ≠ [] := by
      intro h
      have hsize := c.utf8Size_pos
      rw [← hlen, (List.append_eq_nil_iff.1 h).1] at hsize
      cases hsize
    rw [List.flatMap_cons, List.append_assoc, decodeLossy, dif_neg hne, decodeChar_utf8EncodeChar_append]
    dsimp only
    rw [← hlen, List.drop_left, ih, List.cons_append]

/-- Encoded text is taken back, whatever comes behind it. -/
theorem decodeLossy_utf8_append (s : String) (bs : List UInt8) :
    decodeLossy (utf8 s ++ bs) = s.toList ++ decodeLossy bs :=
  decodeLossy_flatMap_append s.toList bs

theorem decodeLossy_nil : decodeLossy [] = [] := by rw [decodeLossy, dif_pos rfl]

theorem decodeLossy_utf8 (s : String) : decodeLossy (utf8 s) = s.toList := by
  have h := decodeLossy_utf8_append s []
  rwa [List.append_nil, decodeLossy_nil, List.append_nil] at h

theorem utf8_inj {s t : String} : utf8 s = utf8 t ↔ s = t := by
  refine ⟨fun h => ?_, congrArg utf8⟩
  rw [← String.toList_inj, ← decodeLossy_utf8, ← decodeLossy_utf8, h]

theorem utf8_eq_nil {s : String} : utf8 s = [] ↔ s = "" := by
  rw [show ([] : List UInt8) = utf8 "" from rfl, utf8_inj]

/-- The text that the bytes encode, where they are valid: where the lossy text loses nothing. -/
def fromUtf8 (bs : List UInt8) : Option String :=
  if utf8 (String.ofList (decodeLossy bs)) = bs then some (String.ofList (decodeLossy bs)) else none

theorem fromUtf8_eq_some {bs : List UInt8} {s : String} : fromUtf8 bs = some s ↔ utf8 s = bs := by
  unfold fromUtf8
  constructor
  · intro h
    split at h
    · cases h
      assumption
    · cases h
  · rintro rfl
    rw [decodeLossy_utf8, String.ofList_toList, if_pos rfl]

end Lib
