import XVideoDownloader.PeerDownload
import XVideoDownloader.RangeReply
import XVideoDownloader.VideoDownload
import XVideoDownloader.Lib.Tiling

/-!
# The ranges of chunks and segments

`chunkRange?` and `segmentRange?` compute the range of a part with checked arithmetic, as in a debug build: `none` means
an overflow. The chunks of `download_parallel` tile the file (`chunk_ranges_tile`). The last segment of
`parallel_download` has to end where the file does, wherever it starts, and so the segments tile the file only if it
starts inside (`segment_ranges_tile_iff`).
-/

namespace XVideoDownloader
open Lib FileServer

def checkedMul (a b : Nat) : Option Nat := if a * b < UInt64.size then some (a * b) else none

theorem checkedMul_of_lt {a b : Nat} (h : a * b < UInt64.size) : checkedMul a b = some (a * b) := if_pos h

theorem checkedMul_eq_some {a b c : Nat} (h : checkedMul a b = some c) : a * b = c := by
  unfold checkedMul at h
  split at h
  · exact Option.some.inj h
  · cases h

namespace ChunkedDownloader
variable (d : ChunkedDownloader)

def chunkRange? (totalSize i : Nat) : Option (Nat × Nat) := do
  let start ← checkedMul i d.chunkSize
  let next ← checkedAdd start d.chunkSize
  let stop ← checkedSub next 1
  let last ← checkedSub totalSize 1
  return (start, min stop last)

variable {d} {total i : Nat}

theorem chunkEnd_eq (hd : 0 < d.chunkSize) (ht : 0 < total) (hfit : total + d.chunkSize ≤ UInt64.size)
    (hi : i < divCeil total d.chunkSize) :
    d.chunkEnd total i = min (i * d.chunkSize + d.chunkSize - 1) (total - 1) := by
  have hlt := mul_chunkSize_lt hd ht hi
  rw [chunkEnd, chunkStart_eq hd ht (by omega) hi, Nat.mod_eq_of_lt (by omega)]

/-- Nothing overflows. -/
theorem chunkRange?_eq (hd : 0 < d.chunkSize) (ht : 0 < total) (hfit : total + d.chunkSize ≤ UInt64.size)
    (hi : i < divCeil total d.chunkSize) : d.chunkRange? total i = some (d.chunkStart i, d.chunkEnd total i) := by
  have hlt := mul_chunkSize_lt hd ht hi
  rw [chunkRange?, checkedMul_of_lt (by omega), chunkStart_eq hd ht (by omega) hi, chunkEnd_eq hd ht hfit hi]
  simp only [Option.bind_eq_bind, Option.bind_some]
  rw [checkedAdd_of_lt (by omega), Option.bind_some, checkedSub_of_le (by omega), Option.bind_some,
    checkedSub_of_le (by omega)]
  rfl

/-- The ranges of the chunks are computed without overflow, and they tile the file. -/
theorem chunk_ranges_tile (d : ChunkedDownloader) (total : Nat) (hd : 1 ≤ d.chunkSize)
    (hlarge : 2 * d.chunkSize < total) (hfit : total + d.chunkSize ≤ UInt64.size) :
    (∀ i < divCeil total d.chunkSize,
      d.chunkRange? total i = some (d.chunkStart i, d.chunkEnd total i) ∧ d.chunkStart i = i * d.chunkSize ∧
        d.chunkEnd total i = min (i * d.chunkSize + d.chunkSize - 1) (total - 1)) ∧
      Tiles total (divCeil total d.chunkSize) d.chunkStart (d.chunkEnd total) := by
  have ht : 0 < total := by omega
  obtain ⟨-, hlast, hcover⟩ := divCeil_spec ht hd
  have hstart : ∀ i < divCeil total d.chunkSize, d.chunkStart i = i * d.chunkSize :=
    fun i hi => chunkStart_eq hd ht (by omega) hi
  refine ⟨fun i hi => ⟨chunkRange?_eq hd ht hfit hi, hstart i hi, chunkEnd_eq hd ht hfit hi⟩,
    tiles_of_width hd hlast hcover hstart fun i hi => ?_⟩
  rw [chunkEnd_eq hd ht hfit hi, Nat.add_mul, Nat.one_mul]
  omega

end ChunkedDownloader

namespace DownloaderConfig

/-- `chunkSize` is the quotient that is rounded up. -/
def segmentRange? (totalSize segments chunkSize i : Nat) : Option (Nat × Nat) := do
  let start ← checkedMul i chunkSize
  let last ← checkedSub segments 1
  if i = last then
    let stop ← checkedSub totalSize 1
    return (start, stop)
  else
    let next ← checkedMul (i + 1) chunkSize
    let stop ← checkedSub next 1
    return (start, stop)

/-- The ranges of all segments are computed, and they tile. -/
def SegmentsTile (totalSize segments chunkSize : Nat) : Prop :=
  ∃ start stop : Nat → Nat,
    (∀ i < segments, segmentRange? totalSize segments chunkSize i = some (start i, stop i)) ∧
      Tiles totalSize segments start stop

variable {total segments chunk i : Nat}

theorem start_of_segmentRange? {start stop : Nat} (h : segmentRange? total segments chunk i = some (start, stop)) :
    start = i * chunk := by
  unfold segmentRange? at h
  obtain ⟨first, hfirst, h⟩ := Option.bind_eq_some_iff.1 h
  obtain ⟨last, -, h⟩ := Option.bind_eq_some_iff.1 h
  have hstart : first = start := by
    split at h <;> simp only [Option.bind_eq_bind, Option.bind_eq_some_iff] at h
    · obtain ⟨_, -, h⟩ := h
      cases h
      rfl
    · obtain ⟨_, -, _, -, h⟩ := h
      cases h
      rfl
  rw [← hstart, checkedMul_eq_some hfirst]

/-- Nothing overflows where the segments fit into 64 bits. -/
theorem segmentRange?_eq (ht : 0 < total) (hchunk : 0 < chunk) (hfit : segments * chunk < UInt64.size)
    (hi : i < segments) :
    segmentRange? total segments chunk i =
      some (i * chunk, if i = segments - 1 then total - 1 else (i + 1) * chunk - 1) := by
  have hnext : (i + 1) * chunk ≤ segments * chunk := Nat.mul_le_mul_right _ hi
  have hpos : 0 < (i + 1) * chunk := Nat.mul_pos i.succ_pos hchunk
  have hle : i * chunk ≤ (i + 1) * chunk := Nat.mul_le_mul_right _ i.le_succ
  rw [segmentRange?, checkedMul_of_lt (by omega), checkedSub_of_le (by omega)]
  simp only [Option.bind_eq_bind, Option.bind_some]
  split
  · rw [checkedSub_of_le (by omega)]
    rfl
  · rw [checkedMul_of_lt (by omega), Option.bind_some, checkedSub_of_le (by omega)]
    rfl

/-- The ranges are those of the download, where the quotient of the `f64`s is exact. -/
theorem segmentRange?_eq_segmentStart {config : DownloaderConfig} (ht : 0 < total)
    (hexact : f64DivCeil total config.parallelSegments = chunk) (hchunk : 0 < chunk)
    (hfit : config.parallelSegments * chunk < UInt64.size) (hi : i < config.parallelSegments) :
    segmentRange? total config.parallelSegments chunk i =
      some (config.segmentStart total i, config.segmentEnd total i) := by
  obtain ⟨hstart, hend⟩ := segment_range ht (hexact ▸ hchunk) (hexact ▸ hfit.le) hi
  rw [hexact] at hstart hend
  have hstop : (if i = config.parallelSegments - 1 then total - 1 else (i + 1) * chunk - 1) =
      config.segmentEnd total i := by
    split at hend <;> rename_i hlast
    · rw [if_pos hlast]
      omega
    · rw [if_neg hlast, ← hend, Nat.add_sub_cancel]
  rw [segmentRange?_eq ht hchunk hfit hi, hstart, hstop]

/-- With the quotient that is rounded up exactly, the segments tile the file if and only if the last one starts
inside. -/
theorem segment_ranges_tile_iff {total segments : Nat} (hlarge : 10 * 1024 * 1024 < total) (h53 : total < 2 ^ 53)
    (hsegments : 1 ≤ segments) :
    SegmentsTile total segments (divCeil total segments) ↔ (segments - 1) * divCeil total segments < total := by
  have ht : 0 < total := by omega
  obtain ⟨hchunk, hsmaller, hcover⟩ := ChunkedDownloader.divCeil_spec ht hsegments
  rw [Nat.mul_comm] at hcover
  constructor
  · rintro ⟨start, stop, hrange, htiles⟩
    have hlast : segments - 1 < segments := by omega
    have hle := htiles.start_le_stop _ hlast
    have hlt := htiles.stop_lt _ hlast
    rw [← start_of_segmentRange? (hrange _ hlast)]
    omega
  · intro hinside
    have hle : divCeil total segments ≤ total := by
      have hmul : (divCeil total segments - 1) * 1 ≤ (divCeil total segments - 1) * segments :=
        Nat.mul_le_mul_left _ hsegments
      omega
    have hfit : segments * divCeil total segments < UInt64.size := by
      have hsum : segments * divCeil total segments = (segments - 1) * divCeil total segments +
          divCeil total segments := by rw [← Nat.succ_mul, Nat.succ_eq_add_one, Nat.sub_add_cancel hsegments]
      have h64 : (2 : Nat) ^ 53 + 2 ^ 53 < UInt64.size := by decide
      omega
    refine ⟨_, _, fun i hi => segmentRange?_eq ht hchunk hfit hi,
      tiles_of_width hchunk hinside hcover (fun _ _ => rfl) fun i hi => ?_⟩
    split
    · rename_i hlast
      rw [hlast, Nat.sub_add_cancel hsegments]
      omega
    · have hbefore : (i + 1) * divCeil total segments ≤ (segments - 1) * divCeil total segments :=
        Nat.mul_le_mul_right _ (by omega)
      have hpos : 0 < (i + 1) * divCeil total segments := Nat.mul_pos i.succ_pos hchunk
      omega

end DownloaderConfig

namespace Sample
open ChunkedDownloader DownloaderConfig

/-- Three chunks, the last one of one byte. -/
theorem chunk_ranges_tile_five :
    (∀ i < divCeil 5 2, (⟨2⟩ : ChunkedDownloader).chunkRange? 5 i =
          some ((⟨2⟩ : ChunkedDownloader).chunkStart i, (⟨2⟩ : ChunkedDownloader).chunkEnd 5 i) ∧
        (⟨2⟩ : ChunkedDownloader).chunkStart i = i * 2 ∧
        (⟨2⟩ : ChunkedDownloader).chunkEnd 5 i = min (i * 2 + 2 - 1) (5 - 1)) ∧
      Tiles 5 (divCeil 5 2) (⟨2⟩ : ChunkedDownloader).chunkStart ((⟨2⟩ : ChunkedDownloader).chunkEnd 5) :=
  chunk_ranges_tile ⟨2⟩ 5 (by decide) (by decide) (by decide)

/-- Four segments, as by default. -/
theorem segment_ranges_tile_four :
    SegmentsTile 10485761 4 (divCeil 10485761 4) ↔ (4 - 1) * divCeil 10485761 4 < 10485761 :=
  segment_ranges_tile_iff (by decide) (by decide) (by decide)

/-- Of five thousand segments the last one starts behind the end of the file. -/
theorem not_segmentsTile_fiveThousand :
    10 * 1024 * 1024 < 10485761 ∧ divCeil 10485761 5000 = 2098 ∧
      segmentRange? 10485761 5000 (divCeil 10485761 5000) 4999 = some (10487902, 10485760) ∧
      ¬ SegmentsTile 10485761 5000 (divCeil 10485761 5000) := by
  have hrange : segmentRange? 10485761 5000 (divCeil 10485761 5000) 4999 = some (10487902, 10485760) := by decide
  refine ⟨by decide, by decide, hrange, ?_⟩
  rintro ⟨start, stop, hall, htiles⟩
  have hlast := Option.some.inj (hrange.symm.trans (hall 4999 (by decide)))
  have hle := htiles.start_le_stop 4999 (by decide)
  have hstart := congrArg Prod.fst hlast
  have hstop := congrArg Prod.snd hlast
  dsimp only at hstart hstop
  omega

end Sample

end XVideoDownloader
