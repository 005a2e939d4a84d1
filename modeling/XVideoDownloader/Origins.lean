import XVideoDownloader.Route
import Mathlib.Data.Bool.AllAny

/-!
# The origin that the server checks

The value of an `Origin` header contains a colon, and the server takes what is between the first two colons of the
line: of `Origin: http://localhost:3000` the scheme `http` (`getOriginFromRequest_eq`). That is no absolute URL, so a
request with an origin is refused, whatever the allow list says.
-/

namespace XVideoDownloader
open Lib

namespace Text

/-- What stands between white space. -/
theorem trim_of_word {s : String} {pad pad' word : List Char} (hs : s.toList = pad ++ word ++ pad')
    (hpad : ∀ c ∈ pad, isWhitespace c = true) (hpad' : ∀ c ∈ pad', isWhitespace c = true)
    (hword : ∀ c ∈ word, isWhitespace c = false) (hne : word ≠ []) : trim s = .ofList word := by
  have hdrop : ∀ {l : List Char} (rest : List Char), l ≠ [] → (∀ c ∈ l, isWhitespace c = false) →
      (l ++ rest).dropWhile isWhitespace = l ++ rest := by
    intro l rest hl hw
    rcases List.exists_cons_of_ne_nil hl with ⟨c, l, rfl⟩
    simp [hw c List.mem_cons_self]
  have hskip : ∀ {l : List Char} (rest : List Char), (∀ c ∈ l, isWhitespace c = true) →
      (l ++ rest).dropWhile isWhitespace = rest.dropWhile isWhitespace :=
    fun rest hl => List.dropWhile_append_of_pos hl
  rw [trim, hs, List.append_assoc, hskip _ hpad, hdrop _ hne hword, List.reverse_append,
    hskip _ (by simpa using hpad')]
  have hback := hdrop [] (l := word.reverse) (by simpa using hne) (by simpa using hword)
  rw [List.append_nil] at hback
  rw [hback, List.reverse_reverse]

end Text

/-- `scheme://host` or `scheme://host:port`. -/
structure Origin where
  scheme : String
  host : String
  port : Option Nat
  scheme_ne : scheme ≠ ""
  scheme_chars : ∀ c ∈ scheme.toList, c.isAlphanum ∨ c = '+' ∨ c = '-' ∨ c = '.'

namespace Origin
variable (o : Origin)

def text : String :=
  o.scheme ++ "://" ++ o.host ++
    match o.port with
    | some port => ":" ++ toString port
    | none => ""

theorem colon_not_mem_scheme : ':' ∉ o.scheme.toList := fun h => absurd (o.scheme_chars ':' h) (by decide)

theorem toList_text : ∃ rest, o.text.toList = o.scheme.toList ++ ':' :: rest := by
  refine ⟨"//".toList ++ o.host.toList ++ String.toList (match o.port with
    | some port => ":" ++ toString port
    | none => ""), ?_⟩
  simp [text]

theorem scheme_ne_text : o.scheme ≠ o.text := by
  intro h
  obtain ⟨rest, ht⟩ := o.toList_text
  rw [← h] at ht
  exact o.colon_not_mem_scheme (ht ▸ by simp)

theorem not_whitespace_of_mem_scheme : ∀ c ∈ o.scheme.toList, Text.isWhitespace c = false := by
  intro c hc
  have hrange : 43 ≤ c.toNat ∧ c.toNat < 123 := by
    rcases o.scheme_chars c hc with h | rfl | rfl | rfl
    · have h : (decide (c.val ≥ 'A'.val ∧ c.val ≤ 'Z'.val) || (c.val ≥ 'a'.val && c.val ≤ 'z'.val) ||
          (c.val ≥ '0'.val && c.val ≤ '9'.val)) = true := h
      simp only [Bool.or_eq_true, Bool.and_eq_true, decide_eq_true_eq, UInt32.le_iff_toNat_le, ge_iff_le] at h
      have : c.toNat = c.val.toNat := rfl
      simp at h
      omega
    all_goals decide
  simp [Text.isWhitespace]
  omega

/-- A header line with the name `Origin`, in any letter case, and the value `o`. -/
def IsHeader (line : String) : Prop :=
  ∃ name pad pad' : List Char, line.toList = name ++ ':' :: (pad ++ o.text.toList ++ pad') ∧
    name.map Char.toLower = "origin".toList ∧ (∀ c ∈ pad, c = ' ' ∨ c = '\t') ∧ ∀ c ∈ pad', c = ' ' ∨ c = '\t'

end Origin

namespace FileServer
open CorsAllowList

variable {o : Origin} {before after : List String} {line : String}

theorem isOriginLine_of_isHeader (h : o.IsHeader line) : isOriginLine line = true := by
  obtain ⟨name, pad, pad', hline, hname, -, -⟩ := h
  have hpre : "origin:".toList = "origin".toList ++ [':'] := by decide
  rw [isOriginLine, Text.startsWithLower, hline, List.map_append, hname, hpre, List.isPrefixOf_iff_prefix]
  exact List.prefix_append_right_inj _ |>.2 ⟨_, rfl⟩

/-- What is taken for the origin is its scheme. -/
theorem getOriginFromRequest_eq (hbefore : ∀ l ∈ before, ¬ isOriginLine l) (hline : o.IsHeader line) :
    getOriginFromRequest (before ++ line :: after) = some o.scheme := by
  have hfind : (before ++ line :: after).find? isOriginLine = some line := by
    have hnone : before.find? isOriginLine = none := List.find?_eq_none.2 hbefore
    rw [List.find?_append, hnone, Option.none_or, List.find?_cons_of_pos (isOriginLine_of_isHeader hline)]
  obtain ⟨name, pad, pad', htext, hname, hpad, -⟩ := hline
  obtain ⟨rest, ho⟩ := o.toList_text
  have hcolon : ':' ∉ name := by
    intro hmem
    have hlower := List.mem_map_of_mem (f := Char.toLower) hmem
    rw [hname] at hlower
    exact absurd hlower (by decide)
  have hcolon' : ':' ∉ pad ++ o.scheme.toList := by
    rw [List.mem_append, not_or]
    exact ⟨fun h => absurd (hpad _ h) (by decide), o.colon_not_mem_scheme⟩
  have hsplit : (Text.split ':' line)[1]? = some (.ofList (pad ++ o.scheme.toList)) := by
    have hline : line.toList = name ++ ':' :: ((pad ++ o.scheme.toList) ++ ':' :: (rest ++ pad')) := by
      simp [htext, ho]
    rw [Text.split, hline, List.splitOn_append_cons_self_of_not_mem hcolon,
      List.splitOn_append_cons_self_of_not_mem hcolon']
    rfl
  have htrim : Text.trim (.ofList (pad ++ o.scheme.toList)) = o.scheme := by
    have hwhite : ∀ c ∈ pad, Text.isWhitespace c = true := by
      intro c hc
      rcases hpad c hc with rfl | rfl <;> decide
    have htext : (String.ofList (pad ++ o.scheme.toList)).toList = pad ++ o.scheme.toList ++ [] := by simp
    rw [Text.trim_of_word htext hwhite (by simp) o.not_whitespace_of_mem_scheme (by simpa using o.scheme_ne),
      String.ofList_toList]
  rw [getOriginFromRequest, hfind]
  simp only [hsplit, Option.map_some, htrim]

variable [AuthDeps] [UrlDeps]

/-- The server sees the origin `o`, and refuses the request exactly if the allow list does not have it. -/
def ChecksOrigin (cors : CorsAllowList) (lines : List String) (reply : Except String Reply) (o : Origin) : Prop :=
  getOriginFromRequest lines = some o.text ∧ (reply = .ok .forbidden ↔ cors.isAllowed o.text = false)

/-- No request with an origin is checked as it should be: it is refused, where it is not turned away as one too
many. -/
theorem origin_not_checked (hrelative : ∀ s : String, ':' ∉ s.toList → UrlDeps.hostStr s = none)
    (files : Files) (limiter : RateLimiter) (cors : CorsAllowList) (now : Nat) (ip : IpAddr) {reads : List Bytes}
    {request : Bytes} (hread : readRequest reads [] = .ok request)
    (hlines : Text.lines (decodeLossy request) = before ++ line :: after) (hbefore : ∀ l ∈ before, ¬ isOriginLine l)
    (hline : o.IsHeader line) :
    ¬ ChecksOrigin cors (before ++ line :: after) (handleRequest files limiter cors now ip reads).1 o ∧
      (handleRequest files limiter cors now ip reads).1 =
        .ok (if (limiter.isAllowed now ip).1 then .forbidden else .tooManyRequests) := by
  have horigin : getOriginFromRequest (before ++ line :: after) = some o.scheme := getOriginFromRequest_eq hbefore hline
  have hrefused : cors.isAllowed o.scheme = false := by
    rw [CorsAllowList.isAllowed, if_neg o.scheme_ne, hrelative _ o.colon_not_mem_scheme]
  have hroute : route files cors (before ++ line :: after) = .forbidden := by
    rw [route, horigin, Option.getD_some, hrefused]
    rfl
  constructor
  · rintro ⟨h, -⟩
    rw [horigin] at h
    exact o.scheme_ne_text (Option.some.inj h)
  · have hne : request ≠ [] := by
      rintro rfl
      rw [decodeLossy, dif_pos rfl] at hlines
      exact absurd (congrArg List.length hlines) (by simp [Text.lines, Text.linesFrom])
    rw [handleRequest, hread]
    cases limiter.isAllowed now ip with
    | mk allowed limiter =>
      cases allowed with
      | false => rfl
      | true =>
        cases request with
        | nil => exact absurd rfl hne
        | cons b bs =>
          rw [← hlines] at hroute
          exact congrArg Except.ok hroute

end FileServer

namespace Sample
open FileServer

def localhost : Origin := ⟨"http", "localhost", some 3000, by decide, List.all_iff_forall_prop.1 (by decide)⟩

def originRequest : Bytes := utf8 "GET / HTTP/1.1\r\nOrigin: http://localhost:3000\r\n\r\n"

theorem lines_originRequest :
    Text.lines (decodeLossy originRequest) = ["GET / HTTP/1.1"] ++ "Origin: http://localhost:3000" :: [""] := by
  rw [originRequest, decodeLossy_utf8]
  decide

theorem origin_not_checked_localhost :
    ¬ ChecksOrigin .new ["GET / HTTP/1.1", "Origin: http://localhost:3000", ""]
        (handleRequest videos (.new 60 100) .new 0 (.v4 1) [originRequest]).1 localhost ∧
      (handleRequest videos (.new 60 100) .new 0 (.v4 1) [originRequest]).1 = .ok .forbidden := by
  have hrelative : ∀ s : String, ':' ∉ s.toList → UrlDeps.hostStr s = none := by
    intro s hs
    have hne : s ≠ "http://localhost:3000" := by
      rintro rfl
      exact hs (by decide)
    exact if_neg hne
  have hread : readRequest [originRequest] [] = .ok originRequest := by
    rw [readRequest_eq (by decide)]
    exact if_pos (by decide)
  have hline : localhost.IsHeader "Origin: http://localhost:3000" :=
    ⟨"Origin".toList, [' '], [], by decide, by decide, by simp, by simp⟩
  exact origin_not_checked hrelative videos (.new 60 100) .new 0 (.v4 1) hread lines_originRequest (by decide) hline

/-- Every port of `localhost` is allowed, and a request from one is refused. -/
theorem localhost_refused :
    CorsAllowList.new.isAllowed "http://localhost:3000" = true ∧
      CorsAllowList.getOriginFromRequest ["GET / HTTP/1.1", "Origin: http://localhost:3000", ""] = some "http" ∧
      route videos .new ["GET / HTTP/1.1", "Origin: http://localhost:3000", ""] = .forbidden := by
  refine ⟨by decide, by decide, by decide⟩

end Sample

end XVideoDownloader
