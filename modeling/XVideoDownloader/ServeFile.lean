import XVideoDownloader.FileServer

/-!
# The responses of the file server

`Delivers file bytes`: read as an HTTP response, `bytes` announce what they carry and carry what they announce.
`serve_file_iff` says when `serveFile` writes such a response. Two things stand in the way: a part is followed by
the whole file, and with CORS headers the empty line behind the head is missing.
-/

namespace XVideoDownloader
open Lib

/-- The body has the announced length, and is the whole file, or the announced part of it, or nothing. -/
def Carries (file status : Bytes) (headers : List Bytes) (body : Bytes) : Prop :=
  (header "Content-Length: " headers).bind decimal = some body.length ∧
    (status = utf8 "HTTP/1.1 200 OK" ∧ body = file ∨
      status = utf8 "HTTP/1.1 206 Partial Content" ∧
        (∃ start stop, (header "Content-Range: " headers).bind contentRange = some (start, stop, file.length) ∧
          body = slice file start (stop + 1)) ∨
      status = utf8 "HTTP/1.1 416 Range Not Satisfiable" ∧ body = [])

/-- A head with a status line and headers, an empty line, and a body as it is announced. -/
def Delivers (file bytes : Bytes) : Prop :=
  ∃ status headers body, readHead bytes = some (status :: headers, body) ∧ (∀ h ∈ headers, 58 ∈ h) ∧
    Carries file status headers body

namespace FileServer

/-- The range is served, up to the end of the file. -/
def Serves (fileSize start : Nat) (stop : Option Nat) : Prop :=
  start < fileSize ∧ start ≤ stop.getD (fileSize - 1) ∧
    (stop.getD (fileSize - 1) - start + 1) % UInt64.size ≤ maxRangeSize

instance (fileSize start : Nat) (stop : Option Nat) : Decidable (Serves fileSize start stop) :=
  inferInstanceAs (Decidable (_ ∧ _ ∧ _))

/-! ### Heads -/

def IsHeader (l : Bytes) : Prop := l ≠ [] ∧ 13 ∉ l ∧ 58 ∈ l

instance (l : Bytes) : Decidable (IsHeader l) := inferInstanceAs (Decidable (_ ∧ _ ∧ _))

theorem IsHeader.append {name value : Bytes} (h : IsHeader name) (hv : 13 ∉ value) : IsHeader (name ++ value) :=
  ⟨List.append_ne_nil_of_left_ne_nil h.1 _, fun hm => (List.mem_append.1 hm).elim h.2.1 hv,
    List.mem_append_left _ h.2.2⟩

theorem not_mem_utf8_toString (n : Nat) : 13 ∉ utf8 (toString n) := fun h =>
  absurd (mem_utf8_toString h).1 (by decide)

def corsLines (origin : String) : List Bytes :=
  if origin = "" then []
  else [utf8 "Access-Control-Allow-Origin: " ++ utf8 origin, utf8 "Access-Control-Allow-Credentials: true"]

/-- The lines of a head; the empty line is there only if there are no CORS headers. -/
def headOf (lines : List Bytes) (origin : String) : Bytes :=
  (lines ++ corsLines origin).flatMap (fun l => l ++ [13, 10]) ++ if origin = "" then [13, 10] else []

theorem headOf_eq (lines : List Bytes) (origin : String) :
    headOf lines origin =
      lines.flatMap (fun l => l ++ [13, 10]) ++ (utf8 (CorsAllowList.buildCorsHeaders origin) ++ [13, 10]) := by
  have hcrlf : utf8 "\r\n" = [13, 10] := by decide
  unfold headOf CorsAllowList.buildCorsHeaders corsLines
  split
  · simp [utf8]
  · simp [utf8_append, hcrlf]

theorem isHeader_corsLines {origin : String} (hcr : '\r' ∉ origin.toList) :
    ∀ l ∈ corsLines origin, IsHeader l := by
  have hname : IsHeader (utf8 "Access-Control-Allow-Origin: ") := by decide
  have htrue : IsHeader (utf8 "Access-Control-Allow-Credentials: true") := by decide
  have horigin : 13 ∉ utf8 origin := not_mem_utf8 (c := '\r') (by decide) (by decide) hcr
  intro l hl
  unfold corsLines at hl
  split at hl
  · cases hl
  · rcases List.mem_pair.1 hl with rfl | rfl
    · exact hname.append horigin
    · exact htrue

section
variable {file status rest : Bytes} {headers : List Bytes} {origin : String}

theorem readHead_headOf (hs : status ≠ [] ∧ 13 ∉ status) (hh : ∀ h ∈ headers, IsHeader h)
    (hcr : '\r' ∉ origin.toList) :
    readHead (headOf (status :: headers) origin ++ rest) =
      if origin = "" then some (status :: headers, rest)
      else (readHead rest).map fun p => (status :: (headers ++ (corsLines origin ++ p.1)), p.2) := by
  have hall : ∀ l ∈ status :: headers ++ corsLines origin, l ≠ [] ∧ 13 ∉ l := by
    intro l hl
    rw [List.cons_append, List.mem_cons, List.mem_append] at hl
    rcases hl with rfl | hl | hl
    · exact hs
    · exact ⟨(hh l hl).1, (hh l hl).2.1⟩
    · exact ⟨(isHeader_corsLines hcr l hl).1, (isHeader_corsLines hcr l hl).2.1⟩
  rw [headOf, List.append_assoc, readHead_lines hall]
  split
  · rename_i ho
    show (readHead (13 :: 10 :: rest)).map _ = _
    rw [readHead_emptyLine, ho]
    simp [corsLines]
  · rw [List.nil_append]
    simp only [List.cons_append, List.append_assoc]

theorem delivers_headOf (hs : status ≠ [] ∧ 13 ∉ status) (hh : ∀ h ∈ headers, IsHeader h)
    (hcr : '\r' ∉ origin.toList) :
    Delivers file (headOf (status :: headers) origin ++ rest) ↔
      origin = "" ∧ Carries file status headers rest ∨
        origin ≠ "" ∧ ∃ ls body, readHead rest = some (ls, body) ∧ (∀ l ∈ ls, 58 ∈ l) ∧
          Carries file status (headers ++ (corsLines origin ++ ls)) body := by
  unfold Delivers
  rw [readHead_headOf hs hh hcr]
  by_cases ho : origin = ""
  · simp only [ho, if_true, true_and, ne_eq, not_true_eq_false, false_and, or_false, Option.some.injEq, Prod.mk.injEq,
      List.cons.injEq]
    constructor
    · rintro ⟨_, _, _, ⟨⟨rfl, rfl⟩, rfl⟩, -, h⟩
      exact h
    · intro h
      exact ⟨_, _, _, ⟨⟨rfl, rfl⟩, rfl⟩, fun l hl => (hh l hl).2.2, h⟩
  · simp only [ho, if_false, false_and, ne_eq, not_false_eq_true, true_and, false_or, Option.map_eq_some_iff,
      Prod.mk.injEq, List.cons.injEq]
    constructor
    · rintro ⟨_, _, _, ⟨⟨ls, body⟩, hread, ⟨rfl, rfl⟩, rfl⟩, hc, h⟩
      exact ⟨ls, body, hread, fun l hl => hc l (List.mem_append_right _ (List.mem_append_right _ hl)), h⟩
    · rintro ⟨ls, body, hread, hc, h⟩
      refine ⟨_, _, _, ⟨(ls, body), hread, ⟨rfl, rfl⟩, rfl⟩, ?_, h⟩
      intro l hl
      rw [List.mem_append, List.mem_append] at hl
      rcases hl with hl | hl | hl
      · exact (hh l hl).2.2
      · exact (isHeader_corsLines hcr l hl).2.2
      · exact hc l hl

end

/-! ### The three heads -/

def notSatisfiableHeaders : List Bytes := [utf8 "Content-Range: */", utf8 "Content-Length: " ++ utf8 "0"]

def okHeaders (fileSize : Nat) : List Bytes :=
  [utf8 "Content-Type: application/octet-stream", utf8 "Content-Length: " ++ utf8 (toString fileSize),
    utf8 "Accept-Ranges: bytes"]

def partialHeaders (contentLength start stop fileSize : Nat) : List Bytes :=
  [utf8 "Content-Type: application/octet-stream", utf8 "Content-Length: " ++ utf8 (toString contentLength),
    utf8 "Content-Range: " ++
      utf8 ("bytes " ++ toString start ++ "-" ++ toString stop ++ "/" ++ toString fileSize),
    utf8 "Accept-Ranges: bytes"]

section
variable (origin : String)

theorem crlf_lines :
    utf8 "\r\n" = [13, 10] ∧
      utf8 "Content-Type: application/octet-stream\r\n" = utf8 "Content-Type: application/octet-stream" ++ [13, 10] ∧
      utf8 "Accept-Ranges: bytes\r\n" = utf8 "Accept-Ranges: bytes" ++ [13, 10] := by
  decide

theorem utf8_rangeNotSatisfiable :
    utf8 (rangeNotSatisfiable (CorsAllowList.buildCorsHeaders origin)) =
      headOf (utf8 "HTTP/1.1 416 Range Not Satisfiable" :: notSatisfiableHeaders) origin := by
  have hstatus : utf8 "HTTP/1.1 416 Range Not Satisfiable\r\n" =
    utf8 "HTTP/1.1 416 Range Not Satisfiable" ++ [13, 10] := by decide
  have hrange : utf8 "Content-Range: */\r\n" = utf8 "Content-Range: */" ++ [13, 10] := by decide
  have hlength : utf8 "Content-Length: 0\r\n" = utf8 "Content-Length: " ++ utf8 "0" ++ [13, 10] := by decide
  obtain ⟨hcrlf, -⟩ := crlf_lines
  unfold rangeNotSatisfiable
  repeat rw [utf8_append]
  simp only [hstatus, hrange, hlength, hcrlf, headOf_eq, notSatisfiableHeaders,
    List.flatMap_cons, List.flatMap_nil, List.append_assoc, List.append_nil]

theorem utf8_okHead (fileSize : Nat) :
    utf8 (okHead fileSize (CorsAllowList.buildCorsHeaders origin)) =
      headOf (utf8 "HTTP/1.1 200 OK" :: okHeaders fileSize) origin := by
  have hstatus : utf8 "HTTP/1.1 200 OK\r\n" = utf8 "HTTP/1.1 200 OK" ++ [13, 10] := by decide
  obtain ⟨hcrlf, htype, hranges⟩ := crlf_lines
  unfold okHead
  repeat rw [utf8_append]
  simp only [hstatus, htype, hranges, hcrlf, headOf_eq, okHeaders, List.flatMap_cons,
    List.flatMap_nil, List.append_assoc, List.append_nil]

theorem utf8_partialContent (contentLength start stop fileSize : Nat) :
    utf8 (partialContent contentLength start stop fileSize (CorsAllowList.buildCorsHeaders origin)) =
      headOf (utf8 "HTTP/1.1 206 Partial Content" :: partialHeaders contentLength start stop fileSize) origin := by
  have hstatus : utf8 "HTTP/1.1 206 Partial Content\r\n" = utf8 "HTTP/1.1 206 Partial Content" ++ [13, 10] := by
    decide
  have hrange : utf8 "Content-Range: bytes " = utf8 "Content-Range: " ++ utf8 "bytes " := by decide
  obtain ⟨hcrlf, htype, hranges⟩ := crlf_lines
  have hvalue : utf8 ("bytes " ++ toString start ++ "-" ++ toString stop ++ "/" ++ toString fileSize) =
      utf8 "bytes " ++ utf8 (toString start) ++ utf8 "-" ++ utf8 (toString stop) ++ utf8 "/" ++
        utf8 (toString fileSize) := by
    repeat rw [utf8_append]
  unfold partialContent
  repeat rw [utf8_append]
  simp only [hstatus, htype, hrange, hranges, hcrlf, hvalue, headOf_eq, partialHeaders, List.flatMap_cons,
    List.flatMap_nil, List.append_assoc, List.append_nil]

end

theorem isHeader_notSatisfiableHeaders : ∀ h ∈ notSatisfiableHeaders, IsHeader h := by
  decide

theorem isHeader_okHeaders (fileSize : Nat) : ∀ h ∈ okHeaders fileSize, IsHeader h := by
  have hother : IsHeader (utf8 "Content-Type: application/octet-stream") ∧ IsHeader (utf8 "Content-Length: ") ∧
    IsHeader (utf8 "Accept-Ranges: bytes") := by decide
  unfold okHeaders
  rw [List.forall_mem_cons, List.forall_mem_cons, List.forall_mem_singleton]
  exact ⟨hother.1, hother.2.1.append (not_mem_utf8_toString _), hother.2.2⟩

theorem isHeader_partialHeaders (contentLength start stop fileSize : Nat) :
    ∀ h ∈ partialHeaders contentLength start stop fileSize, IsHeader h := by
  have hother : IsHeader (utf8 "Content-Type: application/octet-stream") ∧ IsHeader (utf8 "Content-Length: ") ∧
    IsHeader (utf8 "Content-Range: ") ∧ IsHeader (utf8 "Accept-Ranges: bytes") := by decide
  have hlit : 13 ∉ utf8 "bytes " ∧ 13 ∉ utf8 "-" ∧ 13 ∉ utf8 "/" := by decide
  have hrange : 13 ∉ utf8 ("bytes " ++ toString start ++ "-" ++ toString stop ++ "/" ++ toString fileSize) := by
    repeat rw [utf8_append]
    simp only [List.mem_append, not_or]
    exact ⟨⟨⟨⟨⟨hlit.1, not_mem_utf8_toString _⟩, hlit.2.1⟩, not_mem_utf8_toString _⟩, hlit.2.2⟩,
      not_mem_utf8_toString _⟩
  unfold partialHeaders
  rw [List.forall_mem_cons, List.forall_mem_cons, List.forall_mem_cons, List.forall_mem_singleton]
  exact ⟨hother.1, hother.2.1.append (not_mem_utf8_toString _), hother.2.2.1.append hrange, hother.2.2.2⟩

/-! ### What the heads announce -/

section
variable {file body : Bytes} (more : List Bytes)

theorem status_ne :
    utf8 "HTTP/1.1 206 Partial Content" ≠ utf8 "HTTP/1.1 200 OK" ∧
      utf8 "HTTP/1.1 416 Range Not Satisfiable" ≠ utf8 "HTTP/1.1 200 OK" ∧
      utf8 "HTTP/1.1 416 Range Not Satisfiable" ≠ utf8 "HTTP/1.1 206 Partial Content" := by
  decide

theorem carries_notSatisfiable :
    Carries file (utf8 "HTTP/1.1 416 Range Not Satisfiable") (notSatisfiableHeaders ++ more) body ↔ body = [] := by
  have hrange : (utf8 "Content-Length: ").isPrefixOf (utf8 "Content-Range: */") = false := by decide
  have hzero : decimal (utf8 "0") = some 0 := by decide
  have hlength : (header "Content-Length: " (notSatisfiableHeaders ++ more)).bind decimal = some 0 := by
    rw [notSatisfiableHeaders, List.cons_append, header_cons_of_not hrange, List.cons_append, header_cons_self,
      Option.bind_some, hzero]
  simp only [Carries, hlength, status_ne, false_and, true_and, false_or, Option.some.injEq]
  constructor
  · rintro ⟨-, h⟩
    exact h
  · rintro rfl
    exact ⟨rfl, rfl⟩

theorem carries_ok (fileSize : Nat) :
    Carries file (utf8 "HTTP/1.1 200 OK") (okHeaders fileSize ++ more) body ↔
      fileSize = body.length ∧ body = file := by
  have htype : (utf8 "Content-Length: ").isPrefixOf (utf8 "Content-Type: application/octet-stream") = false := by
    decide
  have hlength : (header "Content-Length: " (okHeaders fileSize ++ more)).bind decimal = some fileSize := by
    rw [okHeaders, List.cons_append, header_cons_of_not htype, List.cons_append, header_cons_self, Option.bind_some,
      decimal_utf8_toString]
  simp only [Carries, hlength, status_ne.1.symm, status_ne.2.1.symm, false_and, true_and, or_false, Option.some.injEq]

theorem carries_part (contentLength start stop : Nat) :
    Carries file (utf8 "HTTP/1.1 206 Partial Content")
        (partialHeaders contentLength start stop file.length ++ more) body ↔
      contentLength = body.length ∧ body = slice file start (stop + 1) := by
  have htype : (utf8 "Content-Length: ").isPrefixOf (utf8 "Content-Type: application/octet-stream") = false ∧
      (utf8 "Content-Range: ").isPrefixOf (utf8 "Content-Type: application/octet-stream") = false := by
    decide
  have hother : (utf8 "Content-Range: ").isPrefixOf
      (utf8 "Content-Length: " ++ utf8 (toString contentLength)) = false := by
    rw [← Bool.not_eq_true, List.isPrefixOf_iff_prefix]
    intro h
    have hshort : (utf8 "Content-Range: ").length ≤ (utf8 "Content-Length: ").length := by decide
    have hpre := List.prefix_of_prefix_length_le h (List.prefix_append _ _) hshort
    revert hpre
    decide
  have hlength : (header "Content-Length: " (partialHeaders contentLength start stop file.length ++ more)).bind
      decimal = some contentLength := by
    rw [partialHeaders, List.cons_append, header_cons_of_not htype.1, List.cons_append, header_cons_self, Option.bind_some,
      decimal_utf8_toString]
  have hrange : (header "Content-Range: " (partialHeaders contentLength start stop file.length ++ more)).bind
      contentRange = some (start, stop, file.length) := by
    rw [partialHeaders, List.cons_append, header_cons_of_not htype.2, List.cons_append, header_cons_of_not hother,
      List.cons_append, header_cons_self, Option.bind_some, contentRange_utf8]
  simp only [Carries, hlength, hrange, status_ne.1, status_ne.2.2.symm, false_and, true_and, false_or, or_false,
    Option.some.injEq, Prod.mk.injEq]
  refine and_congr_right fun _ => ⟨?_, fun h => ⟨start, stop, ⟨rfl, rfl, trivial⟩, h⟩⟩
  rintro ⟨_, _, ⟨rfl, rfl, -⟩, h⟩
  exact h

end

/-! ### What is written -/

variable (file : Bytes) (origin : String)

theorem serveFile_none :
    serveFile (.ok file) none origin =
      .ok (headOf (utf8 "HTTP/1.1 200 OK" :: okHeaders file.length) origin ++ file) := by
  rw [← utf8_okHead]
  rfl

variable {file} {start : Nat} {stop : Option Nat}

theorem serveFile_of_not_serves (h : ¬ Serves file.length start stop) :
    serveFile (.ok file) (some (start, stop)) origin =
      .ok (headOf (utf8 "HTTP/1.1 416 Range Not Satisfiable" :: notSatisfiableHeaders) origin) := by
  rw [← utf8_rangeNotSatisfiable]
  simp only [serveFile, bind, Except.bind, pure, Except.pure]
  split
  · rfl
  split
  · rfl
  split
  · rfl
  · rename_i h1 h2 h3
    exact absurd ⟨Nat.not_le.1 h1, Nat.not_lt.1 h2, Nat.not_lt.1 h3⟩ h

theorem serveFile_of_serves (h : Serves file.length start stop) :
    serveFile (.ok file) (some (start, stop)) origin =
      .ok (headOf (utf8 "HTTP/1.1 206 Partial Content" :: partialHeaders
        (min (stop.getD (file.length - 1)) (file.length - 1) - start + 1) start
        (min (stop.getD (file.length - 1)) (file.length - 1)) file.length) origin ++ file) := by
  obtain ⟨h1, h2, h3⟩ := h
  rw [← utf8_partialContent]
  simp only [serveFile, bind, Except.bind, pure, Except.pure, Nat.not_le.2 h1, Nat.not_lt.2 h2, Nat.not_lt.2 h3,
    if_false]

theorem slice_served :
    slice file start (min (stop.getD (file.length - 1)) (file.length - 1) + 1) =
      slice file start (stop.getD (file.length - 1) + 1) := by
  rcases Nat.le_total (stop.getD (file.length - 1)) (file.length - 1) with h | h
  · rw [Nat.min_eq_left h]
  · rw [Nat.min_eq_right h, slice_of_length_le _ (by omega), slice_of_length_le _ (by omega)]

theorem status_wellFormed :
    (utf8 "HTTP/1.1 200 OK" ≠ [] ∧ 13 ∉ utf8 "HTTP/1.1 200 OK") ∧
      (utf8 "HTTP/1.1 206 Partial Content" ≠ [] ∧ 13 ∉ utf8 "HTTP/1.1 206 Partial Content") ∧
      utf8 "HTTP/1.1 416 Range Not Satisfiable" ≠ [] ∧ 13 ∉ utf8 "HTTP/1.1 416 Range Not Satisfiable" := by
  decide

/-- A part is followed by the whole file. -/
theorem delivers_part (hcr : '\r' ∉ origin.toList) (h : Serves file.length start stop) :
    Delivers file (headOf (utf8 "HTTP/1.1 206 Partial Content" :: partialHeaders
        (min (stop.getD (file.length - 1)) (file.length - 1) - start + 1) start
        (min (stop.getD (file.length - 1)) (file.length - 1)) file.length) origin ++ file) ↔
      origin = "" ∧ (start = 0 ∧ file.length ≤ stop.getD (file.length - 1) + 1) ∨
        origin ≠ "" ∧ ∃ ls, readHead file = some (ls, slice file start (stop.getD (file.length - 1) + 1)) ∧
          ∀ l ∈ ls, 58 ∈ l := by
  obtain ⟨hlt, hle, -⟩ := h
  have hlen : min (stop.getD (file.length - 1)) (file.length - 1) - start + 1 =
      (slice file start (stop.getD (file.length - 1) + 1)).length := by
    rw [length_slice]
    omega
  rw [delivers_headOf status_wellFormed.2.1 (isHeader_partialHeaders _ _ _ _) hcr]
  refine or_congr (and_congr_right fun _ => ?_) (and_congr_right fun _ => ?_)
  · rw [← List.append_nil (partialHeaders _ _ _ _), carries_part, slice_served, hlen]
    constructor
    · rintro ⟨hl, -⟩
      rw [length_slice] at hl
      omega
    · rintro ⟨rfl, hstop⟩
      rw [slice_full hstop]
      exact ⟨rfl, rfl⟩
  · constructor
    · rintro ⟨ls, body, hread, hcolon, hc⟩
      rw [carries_part, slice_served] at hc
      exact ⟨ls, hc.2 ▸ hread, hcolon⟩
    · rintro ⟨ls, hread, hcolon⟩
      refine ⟨ls, _, hread, hcolon, ?_⟩
      rw [carries_part, slice_served]
      exact ⟨hlen, rfl⟩

theorem delivers_ok (hcr : '\r' ∉ origin.toList) :
    Delivers file (headOf (utf8 "HTTP/1.1 200 OK" :: okHeaders file.length) origin ++ file) ↔ origin = "" := by
  rw [delivers_headOf status_wellFormed.1 (isHeader_okHeaders _) hcr]
  constructor
  · rintro (⟨ho, -⟩ | ⟨-, ls, body, hread, -, h⟩)
    · exact ho
    · -- what completes the head is missing from the body
      have hlen : body.length + 2 ≤ file.length := length_of_readHeadFrom hread
      rw [((carries_ok _ _).1 h).2] at hlen
      omega
  · intro ho
    refine .inl ⟨ho, ?_⟩
    rw [← List.append_nil (okHeaders _), carries_ok]
    exact ⟨rfl, rfl⟩

theorem delivers_notSatisfiable (hcr : '\r' ∉ origin.toList) :
    Delivers file (headOf (utf8 "HTTP/1.1 416 Range Not Satisfiable" :: notSatisfiableHeaders) origin) ↔
      origin = "" := by
  rw [← List.append_nil (headOf _ _), delivers_headOf status_wellFormed.2.2 isHeader_notSatisfiableHeaders hcr]
  constructor
  · rintro (⟨ho, -⟩ | ⟨-, ls, body, hread, -⟩)
    · exact ho
    · cases hread
  · intro ho
    refine .inl ⟨ho, ?_⟩
    rw [← List.append_nil notSatisfiableHeaders, carries_notSatisfiable]

/-- The response is right if and only if the request has no origin and the range, where it is served, is the whole
file; or it has one, and the served file happens to complete the head and to go on with the range itself. -/
theorem serve_file_iff (file : Bytes) (lines : List String) (origin : String) (hcr : '\r' ∉ origin.toList) :
    (∃ bytes, serveFile (.ok file) (parseRange lines) origin = .ok bytes ∧ Delivers file bytes) ↔
      origin = "" ∧ (∀ start stop, parseRange lines = some (start, stop) → Serves file.length start stop →
          start = 0 ∧ file.length ≤ stop.getD (file.length - 1) + 1) ∨
        origin ≠ "" ∧ ∃ start stop ls, parseRange lines = some (start, stop) ∧ Serves file.length start stop ∧
          readHead file = some (ls, slice file start (stop.getD (file.length - 1) + 1)) ∧ ∀ l ∈ ls, 58 ∈ l := by
  rcases Option.eq_none_or_eq_some (parseRange lines) with hr | ⟨⟨start, stop⟩, hr⟩
  · rw [hr, serveFile_none]
    simp [delivers_ok origin hcr]
  · rw [hr]
    by_cases hserves : Serves file.length start stop
    · rw [serveFile_of_serves origin hserves]
      simp only [Except.ok.injEq, exists_eq_left', delivers_part origin hcr hserves, Option.some.injEq,
        Prod.mk.injEq]
      refine or_congr (and_congr_right fun _ => ?_) (and_congr_right fun _ => ?_)
      · constructor
        · rintro h _ _ ⟨rfl, rfl⟩ -
          exact h
        · intro h
          exact h start stop ⟨rfl, rfl⟩ hserves
      · constructor
        · rintro ⟨ls, h⟩
          exact ⟨start, stop, ls, ⟨rfl, rfl⟩, hserves, h⟩
        · rintro ⟨_, _, ls, ⟨rfl, rfl⟩, -, h⟩
          exact ⟨ls, h⟩
    · rw [serveFile_of_not_serves origin hserves]
      simp only [Except.ok.injEq, exists_eq_left', delivers_notSatisfiable origin hcr, Option.some.injEq,
        Prod.mk.injEq]
      constructor
      · intro ho
        refine .inl ⟨ho, ?_⟩
        rintro _ _ ⟨rfl, rfl⟩ h
        exact absurd h hserves
      · rintro (⟨ho, -⟩ | ⟨-, _, _, ls, ⟨rfl, rfl⟩, h, -⟩)
        · exact ho
        · exact absurd h hserves

end FileServer

namespace Sample
open FileServer

def abc : Bytes := [97, 98, 99]

theorem serve_file_abc :
    ∃ bytes, serveFile (.ok abc) (parseRange ["GET / HTTP/1.1", "Range: bytes=0-"]) "" = .ok bytes ∧
      Delivers abc bytes := by
  refine (serve_file_iff abc ["GET / HTTP/1.1", "Range: bytes=0-"] "" (by decide)).2 (.inl ⟨rfl, ?_⟩)
  have hr : parseRange ["GET / HTTP/1.1", "Range: bytes=0-"] = some (0, none) := by decide +kernel
  rw [hr]
  rintro _ _ ⟨rfl, rfl⟩ -
  decide

/-- The last two of three bytes are announced, and all three follow; and with an origin the head has no end. -/
theorem not_serve_file_abc :
    (¬ ∃ bytes, serveFile (.ok abc) (parseRange ["GET / HTTP/1.1", "Range: bytes=1-2"]) "" = .ok bytes ∧
        Delivers abc bytes) ∧
      ¬ ∃ bytes, serveFile (.ok abc) (parseRange ["GET / HTTP/1.1"]) "http://localhost" = .ok bytes ∧
        Delivers abc bytes := by
  have hpart : (serveFile (.ok abc) (parseRange ["GET / HTTP/1.1", "Range: bytes=1-2"]) "").map (fun bytes =>
      (readHead bytes).map fun p => ((header "Content-Length: " p.1.tail).bind decimal, p.2)) =
      .ok (some (some 2, abc)) := by decide +kernel
  have hcors : (serveFile (.ok abc) (parseRange ["GET / HTTP/1.1"]) "http://localhost").map readHead = .ok none := by
    decide +kernel
  constructor
  · rintro ⟨bytes, hs, status, headers, body, hread, -, hlen, -⟩
    rw [hs] at hpart
    simp only [Except.map, hread, Option.map_some, List.tail_cons, hlen, Except.ok.injEq, Option.some.injEq,
      Prod.mk.injEq] at hpart
    rw [hpart.2] at hpart
    exact absurd hpart.1 (by decide)
  · rintro ⟨bytes, hs, status, headers, body, hread, -⟩
    rw [hs] at hcors
    simp only [Except.map, hread, Except.ok.injEq] at hcors
    cases hcors

end Sample

end XVideoDownloader
