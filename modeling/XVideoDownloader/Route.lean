import XVideoDownloader.FileServer

/-!
# From the client's URL to the served file

The downloader asks for `http://{ip}:{port}/file/{task_id}`, so the request line is `GET /file/{task_id} HTTP/1.1`.
The server cuts it at every slash and takes the fourth piece for the id; but that piece is the `1.1` behind the
slash of the protocol. So no request of the downloader is ever answered with a file.
-/

namespace XVideoDownloader
open Lib

namespace Text

theorem linesFrom_append {line l : List Char} (h : '\n' ∉ l) (cs : List Char) :
    linesFrom line (l ++ cs) = linesFrom (line ++ l) cs := by
  induction l generalizing line with
  | nil => rw [List.nil_append, List.append_nil]
  | cons c l ih =>
    rw [List.mem_cons, not_or] at h
    have hstep : linesFrom line (c :: (l ++ cs)) = linesFrom (line ++ [c]) (l ++ cs) := by
      rw [linesFrom]
      exact fun hc => h.1 hc.symm
    rw [List.cons_append, hstep, ih h.2, List.append_assoc, List.singleton_append]

/-- A line that ends with CRLF. -/
theorem lines_crlf {s : String} (h : '\n' ∉ s.toList) (cs : List Char) :
    lines (s.toList ++ '\r' :: '\n' :: cs) = s :: lines cs := by
  have hline : linesFrom [] (s.toList ++ '\r' :: '\n' :: cs) = s.toList :: linesFrom [] cs := by
    rw [linesFrom_append h, List.nil_append, linesFrom, linesFrom, if_pos List.getLast?_concat, List.dropLast_concat]
    decide
  rw [lines, hline, List.map_cons, String.ofList_toList]
  rfl

end Text

namespace FileServer

theorem readRequest_eq {reads : List Bytes} (h : ∀ r ∈ reads, r ≠ []) (buffer : Bytes) :
    readRequest reads buffer =
      if (buffer ++ reads.flatten).length < maxRequestSize then .ok (buffer ++ reads.flatten)
      else .error "请求过大，超过 10MB 限制" := by
  induction reads generalizing buffer with
  | nil =>
    rw [readRequest, List.flatten_nil, List.append_nil]
    split <;> rename_i hlen
    · rw [if_neg (by omega)]
    · rw [if_pos (by omega)]
  | cons r reads ih =>
    rw [List.forall_mem_cons] at h
    cases r with
    | nil => exact absurd rfl h.1
    | cons b bs =>
      rw [readRequest, List.flatten_cons, ← List.append_assoc]
      split <;> rename_i hlen
      · rw [if_neg (by rw [List.length_append, List.length_append]; omega)]
      · exact ih h.2 _
      · simp

/-! ### The request line -/

variable [AuthDeps]

/-- What the downloader's client sends first for `http://{ip}:{port}/file/{task_id}`. -/
def requestLine (taskId : Uuid) : String := "GET /file/" ++ AuthDeps.uuidText taskId ++ " HTTP/1.1"

theorem isOriginLine_requestLine (taskId : Uuid) : CorsAllowList.isOriginLine (requestLine taskId) = false := by
  have hline : (requestLine taskId).toList =
      'G' :: ("ET /file/" ++ AuthDeps.uuidText taskId ++ " HTTP/1.1").toList := by
    simp [requestLine]
  have ho : "origin:".toList = 'o' :: "rigin:".toList := by decide
  have hne : ('o' == 'G'.toLower) = false := by decide
  rw [CorsAllowList.isOriginLine, Text.startsWithLower, hline, ho, List.map_cons, List.isPrefixOf, hne, Bool.false_and]

section
variable {taskId : Uuid}
  (hhex : ∀ c ∈ (AuthDeps.uuidText taskId).toList, c.isDigit ∨ ('a' ≤ c ∧ c ≤ 'f') ∨ c = '-')
  (hparse : ∀ text, 32 ≤ text.length ∨ AuthDeps.parseStr text = none)

include hhex in
theorem newline_not_mem_requestLine : '\n' ∉ (requestLine taskId).toList := by
  have hid : '\n' ∉ (AuthDeps.uuidText taskId).toList := fun h => absurd (hhex _ h) (by decide)
  have hget : '\n' ∉ "GET /file/".toList := by decide
  have hversion : '\n' ∉ " HTTP/1.1".toList := by decide
  rw [requestLine, String.toList_append, String.toList_append, List.mem_append, List.mem_append]
  tauto

include hhex in
theorem split_requestLine :
    Text.split '/' (requestLine taskId) = ["GET ", "file", AuthDeps.uuidText taskId ++ " HTTP", "1.1"] := by
  have hline : (requestLine taskId).toList = "GET ".toList ++ '/' :: ("file".toList ++ '/' ::
      ((AuthDeps.uuidText taskId ++ " HTTP").toList ++ '/' :: "1.1".toList)) := by
    simp [requestLine]
  have hslash : '/' ∉ (AuthDeps.uuidText taskId ++ " HTTP").toList := by
    rw [String.toList_append, List.mem_append, not_or]
    exact ⟨fun h => absurd (hhex _ h) (by decide), by decide⟩
  have hget : '/' ∉ "GET ".toList := by decide
  have hfile : '/' ∉ "file".toList := by decide
  have hversion : '/' ∉ "1.1".toList := by decide
  rw [Text.split, hline, List.splitOn_append_cons_self_of_not_mem hget,
    List.splitOn_append_cons_self_of_not_mem hfile, List.splitOn_append_cons_self_of_not_mem hslash,
    List.splitOn_eq_singleton hversion]
  simp only [List.map_cons, List.map_nil, String.ofList_toList]

include hhex hparse in
/-- The piece that is taken for the id is the version of the protocol. -/
theorem requestedPath_requestLine (files : Files) : requestedPath files (requestLine taskId) = none := by
  have hword : Text.firstWord "1.1" = "1.1" := by decide
  have hnone : AuthDeps.parseStr "1.1" = none := (hparse "1.1").resolve_left (by decide)
  unfold requestedPath
  split
  · rfl
  · rw [split_requestLine hhex]
    simp only [List.getElem?_cons_succ, List.getElem?_cons_zero, hword, hnone]

/-! ### The reply -/

variable [UrlDeps] {rest : Bytes} (horigin : ∀ line ∈ Text.lines (decodeLossy rest), ¬ CorsAllowList.isOriginLine line)

include hhex hparse horigin in
theorem route_requestLine (files : Files) (cors : CorsAllowList) :
    route files cors (Text.lines (decodeLossy (utf8 (requestLine taskId ++ "\r\n") ++ rest))) = .notFound "" := by
  have hlines : Text.lines (decodeLossy (utf8 (requestLine taskId ++ "\r\n") ++ rest)) =
      requestLine taskId :: Text.lines (decodeLossy rest) := by
    have hcrlf : "\r\n".toList = ['\r', '\n'] := by decide
    rw [decodeLossy_utf8_append, String.toList_append, hcrlf, List.append_assoc]
    exact Text.lines_crlf (newline_not_mem_requestLine hhex) _
  have hget : CorsAllowList.getOriginFromRequest (requestLine taskId :: Text.lines (decodeLossy rest)) = none := by
    have hfind : (requestLine taskId :: Text.lines (decodeLossy rest)).find? CorsAllowList.isOriginLine = none := by
      rw [List.find?_eq_none, List.forall_mem_cons, isOriginLine_requestLine]
      exact ⟨Bool.false_ne_true, horigin⟩
    rw [CorsAllowList.getOriginFromRequest, hfind]
  have hallowed : cors.isAllowed "" = true := by rw [CorsAllowList.isAllowed, if_pos rfl]
  rw [hlines, route, hget, Option.getD_none, hallowed, List.head?_cons, Option.getD_some,
    requestedPath_requestLine hhex hparse files]
  rfl

include hhex hparse horigin in
/-- Whatever the files are, the reply to a request of the downloader is none of them. -/
theorem handleRequest_requestLine {reads : List Bytes} (hreads : ∀ r ∈ reads, r ≠ [])
    (hflat : reads.flatten = utf8 (requestLine taskId ++ "\r\n") ++ rest) (files : Files) (limiter : RateLimiter)
    (cors : CorsAllowList) (now : Nat) (ip : IpAddr) :
    (handleRequest files limiter cors now ip reads).1 =
      if (limiter.isAllowed now ip).1 then
        if reads.flatten.length < maxRequestSize then .ok (.notFound "") else .error "请求过大，超过 10MB 限制"
      else .ok .tooManyRequests := by
  have hcrlf : utf8 "\r\n" = [13, 10] := by decide
  have hne : reads.flatten ≠ [] := by
    intro h
    rw [hflat, utf8_append, hcrlf] at h
    simp at h
  have hroute := route_requestLine hhex hparse horigin files cors
  have hread := readRequest_eq hreads []
  rw [← hflat] at hroute
  rw [List.nil_append] at hread
  rw [handleRequest, hread]
  generalize reads.flatten = request at hne hroute
  cases limiter.isAllowed now ip with
  | mk allowed limiter =>
    cases allowed with
    | false => rfl
    | true =>
      by_cases hlen : request.length < maxRequestSize
      · rw [if_pos hlen, if_pos rfl, if_pos hlen]
        cases request with
        | nil => exact absurd rfl hne
        | cons b bs => exact congrArg Except.ok hroute
      · rw [if_neg hlen, if_pos rfl, if_neg hlen]
        rfl

include hhex hparse horigin in
/-- A request of the downloader is answered as it should be if and only if it is let in, is not too long, and its
task has no file. -/
theorem client_url_agrees_iff {reads : List Bytes} (hreads : ∀ r ∈ reads, r ≠ [])
    (hflat : reads.flatten = utf8 (requestLine taskId ++ "\r\n") ++ rest) (files : Files) (limiter : RateLimiter)
    (cors : CorsAllowList) (now : Nat) (ip : IpAddr) :
    ((∀ path, files.get taskId = some path →
          ∃ range, (handleRequest files limiter cors now ip reads).1 = .ok (.serve path range "")) ∧
        (files.get taskId = none → (handleRequest files limiter cors now ip reads).1 = .ok (.notFound ""))) ↔
      (limiter.isAllowed now ip).1 ∧ reads.flatten.length < maxRequestSize ∧ files.get taskId = none := by
  rw [handleRequest_requestLine hhex hparse horigin hreads hflat]
  have hserve : ∀ path, ¬ ∃ range, (if (limiter.isAllowed now ip).1 then
      if reads.flatten.length < maxRequestSize then .ok (.notFound "") else .error "请求过大，超过 10MB 限制"
      else .ok .tooManyRequests : Except String Reply) = .ok (.serve path range "") := by
    rintro path ⟨range, h⟩
    split at h
    · split at h <;> cases h
    · cases h
  constructor
  · rintro ⟨hfound, hnone⟩
    have hget : files.get taskId = none := by
      rcases Option.eq_none_or_eq_some (files.get taskId) with h | ⟨path, h⟩
      · exact h
      · exact absurd (hfound path h) (hserve path)
    have hreply := hnone hget
    split at hreply
    · rename_i hallowed
      split at hreply
      · exact ⟨hallowed, by assumption, hget⟩
      · cases hreply
    · cases hreply
  · rintro ⟨hallowed, hlen, hget⟩
    rw [if_pos hallowed, if_pos hlen, hget]
    refine ⟨?_, fun _ => rfl⟩
    intro path h
    cases h

end

end FileServer

namespace Sample
open FileServer

theorem length_hexDigits (n width : Nat) : (hexDigits n width).length = width := by
  induction width generalizing n with
  | zero => rfl
  | succ width ih => rw [hexDigits, List.length_append, ih, List.length_singleton]

theorem length_uuidText (u : Uuid) : (uuidText u).length = 36 := by
  have h := length_hexDigits u.toNat 32
  unfold uuidText
  generalize hexDigits u.toNat 32 = ds at h
  rw [String.length_ofList]
  simp only [List.intercalate, List.intersperse, List.flatten_cons, List.flatten_nil, List.length_append,
    List.length_take, List.length_drop, List.length_cons, List.length_nil, h]
  omega

theorem hex_uuidText {u : Uuid}
    (h : (uuidText u).toList.all fun c => decide (c.isDigit ∨ ('a' ≤ c ∧ c ≤ 'f') ∨ c = '-')) :
    ∀ c ∈ (AuthDeps.uuidText u).toList, c.isDigit ∨ ('a' ≤ c ∧ c ≤ 'f') ∨ c = '-' :=
  fun c hc => of_decide_eq_true (List.all_eq_true.1 h c hc)

theorem parseStr_of_short (text : String) : 32 ≤ text.length ∨ AuthDeps.parseStr text = none := by
  have hlen : ∀ u, uuidText u = text → 32 ≤ text.length := by
    rintro u rfl
    rw [length_uuidText]
    omega
  show 32 ≤ text.length ∨ parseStr text = none
  unfold parseStr
  dsimp only
  split
  · exact .inl (hlen _ (by assumption))
  · exact .inr rfl

/-- Only the one origin that is used. -/
scoped instance url : UrlDeps := ⟨fun origin => if origin = "http://localhost:3000" then some "localhost" else none⟩

def videos : Files := ⟨[(7, "files/a.mp4")], by decide⟩

/-- The request for a task in two pieces, with a range. -/
def fileRequest (taskId : Uuid) : List Bytes :=
  [utf8 (requestLine taskId ++ "\r\n"), utf8 "range: bytes=0-\r\n\r\n"]

theorem lines_fileRequest : ∀ line ∈ Text.lines (decodeLossy (utf8 "range: bytes=0-\r\n\r\n")),
    ¬ CorsAllowList.isOriginLine line := by
  rw [decodeLossy_utf8]
  decide

theorem fileRequest_ne_nil (taskId : Uuid) : ∀ r ∈ fileRequest taskId, r ≠ [] := by
  have hcrlf : utf8 "\r\n" = [13, 10] := by decide
  have hrange : utf8 "range: bytes=0-\r\n\r\n" ≠ [] := by decide
  have hline : utf8 (requestLine taskId ++ "\r\n") ≠ [] := by
    rw [utf8_append, hcrlf]
    exact List.append_ne_nil_of_right_ne_nil _ (List.cons_ne_nil 13 [10])
  rw [fileRequest, List.forall_mem_cons, List.forall_mem_singleton]
  exact ⟨hline, hrange⟩

theorem flatten_fileRequest (taskId : Uuid) : (fileRequest taskId).flatten =
    utf8 (requestLine taskId ++ "\r\n") ++ utf8 "range: bytes=0-\r\n\r\n" := by
  rw [fileRequest, List.flatten_cons, List.flatten_singleton]

/-- Task 8 has no file, and the answer is 404. -/
theorem client_url_agrees_eight :
    (∀ path, videos.get 8 = some path → ∃ range, (handleRequest videos (.new 60 100) .new 0 (.v4 1)
        (fileRequest 8)).1 = .ok (.serve path range "")) ∧
      (videos.get 8 = none →
        (handleRequest videos (.new 60 100) .new 0 (.v4 1) (fileRequest 8)).1 = .ok (.notFound "")) := by
  refine (client_url_agrees_iff (hex_uuidText (by decide +kernel)) parseStr_of_short lines_fileRequest
    (fileRequest_ne_nil 8) (flatten_fileRequest 8) _ _ _ _ _).2 ⟨?_, ?_, ?_⟩
  · decide
  · decide +kernel
  · decide

/-- Task 7 has a file, and the answer is 404 too. -/
theorem not_client_url_agrees_seven :
    videos.get 7 = some "files/a.mp4" ∧
      ¬ ∃ range, (handleRequest videos (.new 60 100) .new 0 (.v4 1) (fileRequest 7)).1 =
        .ok (.serve "files/a.mp4" range "") := by
  have hlen : (fileRequest 7).flatten.length < maxRequestSize := by decide +kernel
  have hallowed : ((RateLimiter.new 60 100).isAllowed 0 (.v4 1)).1 = true := by decide
  refine ⟨by decide, ?_⟩
  rw [handleRequest_requestLine (hex_uuidText (by decide +kernel)) parseStr_of_short lines_fileRequest
    (fileRequest_ne_nil 7) (flatten_fileRequest 7), if_pos hallowed, if_pos hlen]
  rintro ⟨range, h⟩
  cases h

end Sample

end XVideoDownloader
