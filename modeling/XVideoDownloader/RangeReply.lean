import XVideoDownloader.FileServer

/-!
# The arithmetic of a range request

`serveRange` is the range branch of `serveFile` with every addition and subtraction checked, as in a debug build:
`none` means that one of them left the 64 bits. Where none does, `serveFile` writes what it decides
(`serveFile_of_serveRange`). One range makes an addition overflow (`range_arithmetic_iff`), and with the wrapped sum
`serveFile` announces the whole file, however large it is (`serveFile_of_overflow`).
-/

namespace XVideoDownloader
open Lib

def checkedAdd (a b : Nat) : Option Nat := if a + b < UInt64.size then some (a + b) else none

def checkedSub (a b : Nat) : Option Nat := if b ≤ a then some (a - b) else none

namespace FileServer

inductive RangeReply
  | notSatisfiable
  | part (contentLength start stop : Nat)
  deriving DecidableEq

def serveRange (fileSize start : Nat) (stop : Option Nat) : Option RangeReply :=
  if fileSize ≤ start then some .notSatisfiable
  else do
    let last ← checkedSub fileSize 1
    let stop := stop.getD last
    if stop < start then some .notSatisfiable
    else
      let span ← checkedSub stop start
      let rangeSize ← checkedAdd span 1
      if maxRangeSize < rangeSize then some .notSatisfiable
      else
        let last ← checkedSub fileSize 1
        let stop := min stop last
        let span ← checkedSub stop start
        let contentLength ← checkedAdd span 1
        some (.part contentLength start stop)

/-- What is written before the file for a reply. -/
def RangeReply.head (fileSize : Nat) (origin : String) : RangeReply → Bytes
  | notSatisfiable => utf8 (rangeNotSatisfiable (CorsAllowList.buildCorsHeaders origin))
  | part contentLength start stop =>
    utf8 (partialContent contentLength start stop fileSize (CorsAllowList.buildCorsHeaders origin))

def RangeReply.body (file : Bytes) : RangeReply → Bytes
  | notSatisfiable => []
  | part .. => file

/-- No operation overflows, and a part that is announced lies in the file and within the limit. -/
def SoundRange (fileSize start : Nat) (stop : Option Nat) : Prop :=
  ∃ reply, serveRange fileSize start stop = some reply ∧
    ∀ contentLength first last, reply = .part contentLength first last →
      first ≤ last ∧ last < fileSize ∧ contentLength = last - first + 1 ∧ contentLength ≤ maxRangeSize

variable {fileSize start : Nat} {stop : Option Nat}

theorem checkedAdd_of_lt {a b : Nat} (h : a + b < UInt64.size) : checkedAdd a b = some (a + b) := if_pos h

theorem checkedSub_of_le {a b : Nat} (h : b ≤ a) : checkedSub a b = some (a - b) := if_pos h

/-- The one sum that can overflow is the length of the range as it was asked for. -/
theorem serveRange_eq (hsize : fileSize < UInt64.size) :
    serveRange fileSize start stop =
      if fileSize ≤ start ∨ stop.getD (fileSize - 1) < start then some .notSatisfiable
      else if UInt64.size ≤ stop.getD (fileSize - 1) - start + 1 then none
      else if maxRangeSize < stop.getD (fileSize - 1) - start + 1 then some .notSatisfiable
      else some (.part (min (stop.getD (fileSize - 1)) (fileSize - 1) - start + 1) start
        (min (stop.getD (fileSize - 1)) (fileSize - 1))) := by
  unfold serveRange
  by_cases hstart : fileSize ≤ start
  · simp [hstart]
  have hlast : checkedSub fileSize 1 = some (fileSize - 1) := checkedSub_of_le (by omega)
  simp only [hstart, if_false, false_or, hlast, Option.bind_eq_bind, Option.bind_some]
  generalize stop.getD (fileSize - 1) = stop
  by_cases hstop : stop < start
  · simp [hstop]
  have hspan : checkedSub stop start = some (stop - start) := checkedSub_of_le (by omega)
  have hspan' : checkedSub (min stop (fileSize - 1)) start = some (min stop (fileSize - 1) - start) :=
    checkedSub_of_le (by omega)
  have hlength : checkedAdd (min stop (fileSize - 1) - start) 1 = some (min stop (fileSize - 1) - start + 1) :=
    checkedAdd_of_lt (by omega)
  simp only [hstop, if_false, hspan, Option.bind_some]
  by_cases hover : UInt64.size ≤ stop - start + 1
  · have hnone : checkedAdd (stop - start) 1 = none := if_neg (by omega)
    simp [hnone, hover]
  · simp only [checkedAdd_of_lt (Nat.not_le.1 hover), Option.bind_some, hover, if_false, hspan', hlength]

theorem serveFile_of_serveRange {file : Bytes} {origin : String} {reply : RangeReply}
    (hsize : file.length < UInt64.size) (h : serveRange file.length start stop = some reply) :
    serveFile (.ok file) (some (start, stop)) origin = .ok (reply.head file.length origin ++ reply.body file) := by
  rw [serveRange_eq hsize] at h
  simp only [serveFile, bind, Except.bind, pure, Except.pure]
  by_cases hstart : file.length ≤ start
  · simp only [hstart, true_or, if_true, Option.some.injEq] at h ⊢
    rw [← h, RangeReply.head, RangeReply.body, List.append_nil]
  by_cases hstop : stop.getD (file.length - 1) < start
  · simp only [hstart, hstop, or_true, if_true, if_false, Option.some.injEq] at h ⊢
    rw [← h, RangeReply.head, RangeReply.body, List.append_nil]
  by_cases hover : UInt64.size ≤ stop.getD (file.length - 1) - start + 1
  · simp [hstart, hstop, hover] at h
  have hmod := Nat.mod_eq_of_lt (Nat.not_le.1 hover)
  by_cases hlimit : maxRangeSize < stop.getD (file.length - 1) - start + 1
  · simp only [hstart, hstop, hover, hlimit, hmod, or_self, if_true, if_false, Option.some.injEq] at h ⊢
    rw [← h, RangeReply.head, RangeReply.body, List.append_nil]
  · simp only [hstart, hstop, hover, hlimit, hmod, or_self, if_false, Option.some.injEq] at h ⊢
    rw [← h]
    rfl

/-- The wrapped length of the range is 0, and so it passes the limit. -/
theorem serveFile_of_overflow {file : Bytes} (origin : String) (hfile : file ≠ []) (hsize : file.length < UInt64.size) :
    serveFile (.ok file) (some (0, some (UInt64.size - 1))) origin =
      .ok ((RangeReply.part file.length 0 (file.length - 1)).head file.length origin ++ file) := by
  have hpos := List.length_pos_of_ne_nil hfile
  have hmin : min (UInt64.size - 1) (file.length - 1) = file.length - 1 := Nat.min_eq_right (by omega)
  have hlength : file.length - 1 - 0 + 1 = file.length := by omega
  have hwrap : ¬ maxRangeSize < (UInt64.size - 1 - 0 + 1) % UInt64.size := by decide
  simp only [serveFile, bind, Except.bind, pure, Except.pure, Option.getD_some, Nat.not_le.2 hpos, Nat.not_lt_zero,
    if_false, hwrap, hmin, hlength]
  rfl

theorem soundRange_iff (hsize : fileSize < UInt64.size) (hstop : ∀ e, stop = some e → e < UInt64.size) :
    SoundRange fileSize start stop ↔ ¬ (start = 0 ∧ stop = some (UInt64.size - 1) ∧ 0 < fileSize) := by
  unfold SoundRange
  rw [serveRange_eq hsize]
  constructor
  · rintro ⟨reply, hreply, -⟩ ⟨rfl, rfl, hpos⟩
    simp [Nat.not_le.2 hpos, UInt64.size] at hreply
  · intro hnot
    have hover : ¬ (fileSize ≤ start ∨ stop.getD (fileSize - 1) < start) →
        ¬ UInt64.size ≤ stop.getD (fileSize - 1) - start + 1 := by
      intro hin hover
      cases stop with
      | none =>
        simp only [Option.getD_none] at hin hover
        omega
      | some e =>
        have he := hstop e rfl
        simp only [Option.getD_some] at hin hover
        exact hnot ⟨by omega, congrArg some (by omega), by omega⟩
    split
    · exact ⟨_, rfl, by simp⟩
    · rename_i hin
      rw [if_neg (hover hin)]
      split
      · exact ⟨_, rfl, by simp⟩
      · refine ⟨_, rfl, ?_⟩
        rintro contentLength first last ⟨rfl, rfl, rfl⟩
        omega

theorem parseU64_lt {s : String} {n : Nat} (h : Text.parseU64 s = some n) : n < UInt64.size := by
  unfold Text.parseU64 at h
  simp only [Option.ite_none_right_eq_some, Option.some.injEq] at h
  rw [← h.2]
  exact h.1.2.2

theorem parseRange_lt {lines : List String} {e : Nat} (h : parseRange lines = some (start, some e)) :
    e < UInt64.size := by
  unfold parseRange at h
  split at h
  · cases h
  · simp only [Option.bind_eq_bind, Option.bind_eq_some_iff] at h
    obtain ⟨rangeSpec, -, first, -, h⟩ := h
    split at h
    · simp at h
    · simp at h
    · obtain ⟨stop, hstop, h⟩ := Option.bind_eq_some_iff.1 h
      split at h
      · cases h
      · cases h
        exact parseU64_lt hstop

/-- Whatever the header lines ask for, the arithmetic is sound, unless they ask for the bytes from 0 to the greatest
`u64` of a file that is not empty. -/
theorem range_arithmetic_iff (lines : List String) (fileSize : UInt64) :
    (∀ start stop, parseRange lines = some (start, stop) → SoundRange fileSize.toNat start stop) ↔
      ¬ (parseRange lines = some (0, some (UInt64.size - 1)) ∧ 0 < fileSize.toNat) := by
  constructor
  · rintro h ⟨hr, hpos⟩
    refine (soundRange_iff fileSize.toNat_lt_size ?_).1 (h _ _ hr) ⟨rfl, rfl, hpos⟩
    rintro e ⟨⟩
    decide
  · intro h start stop hr
    refine (soundRange_iff fileSize.toNat_lt_size ?_).2 ?_
    · rintro e rfl
      exact parseRange_lt hr
    · rintro ⟨rfl, rfl, hpos⟩
      exact h ⟨hr, hpos⟩

end FileServer

namespace Sample
open FileServer

def greatestRange : List String := ["GET / HTTP/1.1", "Range: bytes=0-18446744073709551615"]

theorem greatestRange_overflows :
    parseRange greatestRange = some (0, some (UInt64.size - 1)) ∧
      serveRange 104857601 0 (some (UInt64.size - 1)) = none ∧
      ¬ SoundRange 104857601 0 (some (UInt64.size - 1)) := by
  have hnone : serveRange 104857601 0 (some (UInt64.size - 1)) = none := by decide
  refine ⟨by decide +kernel, hnone, ?_⟩
  rintro ⟨reply, h, -⟩
  rw [hnone] at h
  cases h

end Sample

end XVideoDownloader
