import Mathlib.Algebra.GroupWithZero.Nat
import XVideoDownloader.Cli
import XVideoDownloader.Gui
import XVideoDownloader.Lib.UnixPath

/-!
# File names (`types.rs`, `main.rs`, `gui.rs`)

A sanitised name is safe (`SafeName`), and sanitising changes no safe name; with the template of the extension behind
it, it names a file of the output directory (`sanitizeFilename_safe`), and so do the command lines for yt-dlp
(`ytdlpArgs_child`, `downloadArgs_child`). That it is short is true of its characters, not of its bytes, and it may be
the dot alone (`creatable_iff`): then a direct download goes to the directory itself (`child_direct_iff`).
-/

namespace XVideoDownloader
open Lib

theorem getLast?_utf8_eq_slash {s : String} :
    (utf8 s).getLast? = some PathUnit.slash ↔ s.toList.getLast? = some '/' := by
  constructor
  · intro h
    rcases List.eq_nil_or_concat s.toList with hnil | ⟨cs, c, hcs⟩
    · simp [utf8, hnil] at h
    · have hc : (String.utf8EncodeChar c).getLast? = some PathUnit.slash := by
        rw [utf8, hcs, List.concat_eq_append, List.flatMap_append, List.flatMap_singleton,
          List.getLast?_append_of_ne_nil _ (by simp)] at h
        exact h
      have hslash : c.toNat = '/'.toNat := mem_utf8EncodeChar (List.mem_of_getLast? hc) (by decide)
      rw [hcs, List.concat_eq_append, List.getLast?_append, Char.toNat_inj.1 hslash]
      rfl
  · intro h
    obtain ⟨cs, hcs⟩ := List.getLast?_eq_some_iff.1 h
    rw [utf8, hcs, List.flatMap_append, List.getLast?_append]
    rfl

/-- The paths as texts are joined as those in bytes. -/
theorem utf8_joinPath {dir name : String} (h : UnixPath.isAbsolute (utf8 name) = false) :
    utf8 (joinPath dir name) = UnixPath.join (utf8 dir) (utf8 name) := by
  rw [joinPath, UnixPath.join, h, if_neg Bool.false_ne_true]
  simp only [utf8_eq_nil, getLast?_utf8_eq_slash]
  split
  · rfl
  split
  · rw [utf8_append]
  · rw [utf8_append, utf8_append, List.append_assoc]
    rfl

/-- What the yt-dlp downloads join to their directory. -/
def outputTemplate (filename : String) : String := filename ++ ".%(ext)s"

/-- What the text has behind each percent sign: there yt-dlp reads a field of an output template. -/
def templateFields (text : List Char) : List (List Char) := (text.splitOn '%').tail

section
variable [UnicodeDeps]

/-- The characters that are kept. -/
def keeps (c : Char) : Bool := UnicodeDeps.isAlphanumeric c || c = '-' || c = '_' || c = '.'

def sanitizedChar (c : Char) : Char := if keeps c then c else '_'

def hasPathTraversal (name : String) : Bool :=
  Text.contains name ".." || name.toList.head? = some '/' || name.toList.head? = some '\\' ||
    name.toList.head? = some '~'

/-- What sanitising is for. -/
structure SafeName (s : String) : Prop where
  ne_empty : s ≠ ""
  length_le : s.length ≤ 200
  keeps : ∀ c ∈ s.toList, keeps c = true
  no_dotdot : Text.contains s ".." = false

theorem sanitizeFilename_eq (name : String) :
    sanitizeFilename name = if hasPathTraversal name then "video"
      else if (name.toList.map sanitizedChar).take 200 = [] then "video"
      else .ofList ((name.toList.map sanitizedChar).take 200) := rfl

/-- What sanitising does: a name is put in place of the given one, or the first characters of that are written. -/
theorem sanitizeFilename_cases (name : String) :
    (hasPathTraversal name = true ∨ name = "") ∧ sanitizeFilename name = "video" ∨
      hasPathTraversal name = false ∧ name ≠ "" ∧
        (sanitizeFilename name).toList = (name.toList.take 200).map sanitizedChar := by
  rw [sanitizeFilename_eq]
  cases htraversal : hasPathTraversal name with
  | true => exact .inl ⟨.inl rfl, if_pos rfl⟩
  | false =>
    rw [if_neg Bool.false_ne_true]
    by_cases hname : name = ""
    · exact .inl ⟨.inr hname, if_pos (by simp [hname])⟩
    · rw [if_neg (by simpa using hname), String.toList_ofList, List.map_take]
      exact .inr ⟨rfl, hname, rfl⟩

theorem keeps_sanitizedChar (c : Char) : keeps (sanitizedChar c) = true := by
  unfold sanitizedChar
  split
  · assumption
  · simp [keeps]

theorem sanitizedChar_eq_dot {c : Char} : sanitizedChar c = '.' ↔ c = '.' := by
  unfold sanitizedChar
  split
  · rfl
  · rename_i hc
    simp only [Char.reduceEq, false_iff]
    rintro rfl
    simp [keeps] at hc

/-- Two dots in a row are written for nothing else. -/
theorem dots_infix_of_map {cs : List Char} (h : ['.', '.'] <:+: cs.map sanitizedChar) : ['.', '.'] <:+: cs := by
  obtain ⟨before, after, h⟩ := h
  obtain ⟨first, last, rfl, hfirst, -⟩ := List.map_eq_append_iff.1 h.symm
  obtain ⟨start, dots, rfl, -, hdots⟩ := List.map_eq_append_iff.1 hfirst
  have heq : dots = ['.', '.'] := by
    obtain ⟨c, rest, rfl, hc, hrest⟩ := List.map_eq_cons_iff.1 hdots
    obtain ⟨d, rest, rfl, hd, hrest⟩ := List.map_eq_cons_iff.1 hrest
    rw [sanitizedChar_eq_dot.1 hc, sanitizedChar_eq_dot.1 hd, List.map_eq_nil_iff.1 hrest]
  exact ⟨start, last, by rw [heq]⟩

omit [UnicodeDeps] in
theorem contains_dots {s : String} : Text.contains s ".." = true ↔ ['.', '.'] <:+: s.toList := Text.occurs_iff

omit [UnicodeDeps] in
theorem joinPath_eq_append (dir name : String) (hdir : '%' ∉ dir.toList) :
    ∃ before, '%' ∉ before ∧ (joinPath dir name).toList = before ++ name.toList := by
  unfold joinPath
  split
  · exact ⟨[], by simp, rfl⟩
  split
  · exact ⟨dir.toList, hdir, String.toList_append⟩
  · exact ⟨dir.toList ++ ['/'], by simp [hdir], by simp⟩

/-! ### Safe names -/

section Ascii

-- in ASCII the letters and the digits are alphanumeric
variable (hascii : ∀ c : Char, c.toNat < 128 → UnicodeDeps.isAlphanumeric c = c.isAlphanum)
include hascii

theorem keeps_ascii {c : Char} (hc : c.toNat < 128) :
    keeps c = (c.isAlphanum || c = '-' || c = '_' || c = '.') := by
  rw [keeps, hascii c hc]

theorem safeName_video : SafeName "video" where
  ne_empty := by decide
  length_le := by decide
  keeps c hc := by
    have hall : ∀ c ∈ "video".toList, c.toNat < 128 ∧ c.isAlphanum = true := by simp
    rw [keeps, hascii c (hall c hc).1, (hall c hc).2]
    rfl
  no_dotdot := by decide

theorem safeName_sanitizeFilename (name : String) : SafeName (sanitizeFilename name) := by
  rcases sanitizeFilename_cases name with ⟨-, hvideo⟩ | ⟨htraversal, hname, hwritten⟩
  · rw [hvideo]
    exact safeName_video hascii
  refine ⟨fun h => hname ?_, ?_, fun c hc => ?_, ?_⟩
  · rw [h] at hwritten
    simpa using hwritten.symm
  · rw [← String.length_toList, hwritten, List.length_map]
    exact List.length_take_le 200 _
  · rw [hwritten] at hc
    obtain ⟨d, -, rfl⟩ := List.mem_map.1 hc
    exact keeps_sanitizedChar d
  · rw [Bool.eq_false_iff, ne_eq, contains_dots, hwritten]
    intro hdots
    have hname := (dots_infix_of_map hdots).trans (List.take_prefix 200 _).isInfix
    simp [hasPathTraversal, contains_dots.2 hname] at htraversal

namespace SafeName
variable {s : String}

theorem not_mem (h : SafeName s) {c : Char} (hc : c ∈ ['/', '\\', '~', '%']) : c ∉ s.toList := by
  intro hmem
  have hkeeps := h.keeps c hmem
  simp only [List.mem_cons, List.not_mem_nil, or_false] at hc
  rcases hc with rfl | rfl | rfl | rfl <;> rw [keeps_ascii hascii (by decide)] at hkeeps <;> cases hkeeps

/-- A safe name is left as it is. -/
theorem sanitizeFilename_eq_self (h : SafeName s) : sanitizeFilename s = s := by
  have hhead : ∀ c ∈ ['/', '\\', '~', '%'], s.toList.head? ≠ some c :=
    fun c hc he => h.not_mem hascii hc (List.mem_of_head? he)
  have htraversal : hasPathTraversal s = false := by
    simp [hasPathTraversal, h.no_dotdot, hhead]
  have hmap : s.toList.map sanitizedChar = s.toList :=
    (List.map_congr_left fun c hc => if_pos (h.keeps c hc)).trans (List.map_id _)
  have htake : s.toList.take 200 = s.toList := List.take_of_length_le (String.length_toList ▸ h.length_le)
  have hne : s.toList ≠ [] := by simpa using h.ne_empty
  rw [sanitizeFilename_eq, htraversal, if_neg Bool.false_ne_true, hmap, htake, if_neg hne, String.ofList_toList]

/-- With the template of the extension behind it, it names a file of its directory. -/
theorem named_template (h : SafeName s) : UnixPath.Named (utf8 (outputTemplate s)) := by
  have hmem : '%' ∈ (outputTemplate s).toList := by simp [outputTemplate]
  refine UnixPath.Named.utf8 ⟨List.ne_nil_of_mem hmem, fun he => ?_, fun he => ?_, ?_⟩
  · simp [he, PathUnit.dot] at hmem
  · simp [he, PathUnit.dot] at hmem
  · have hslash : '/' ∉ s.toList := h.not_mem hascii (by simp)
    simpa [outputTemplate, PathUnit.slash] using hslash

theorem templateFields_template (h : SafeName s) {before : List Char} (hbefore : '%' ∉ before) :
    templateFields (before ++ (outputTemplate s).toList) = ["(ext)s".toList] := by
  have hpercent : '%' ∉ s.toList := h.not_mem hascii (by simp)
  have heq : before ++ (outputTemplate s).toList = (before ++ s.toList ++ ['.']) ++ '%' :: "(ext)s".toList := by
    simp [outputTemplate]
  rw [templateFields, heq, List.splitOn_append_cons_self, List.splitOn_eq_singleton (by simp [hbefore, hpercent]),
    List.splitOn_eq_singleton (by decide)]
  rfl

end SafeName

/-- Sanitising makes a safe name of every text and changes no name that it has made. The file that yt-dlp is told to
write is one of the output directory, and only its extension is a field of the template, unless the path of the directory
has fields of its own. -/
theorem sanitizeFilename_safe (name : String) :
    SafeName (sanitizeFilename name) ∧ (∀ c ∈ ['/', '\\', '~', '%'], c ∉ (sanitizeFilename name).toList) ∧
      sanitizeFilename (sanitizeFilename name) = sanitizeFilename name ∧
      (∀ dir : List UInt8, UnixPath.Child dir (UnixPath.join dir (utf8 (outputTemplate (sanitizeFilename name))))) ∧
      templateFields (outputTemplate (sanitizeFilename name)).toList = ["(ext)s".toList] ∧
      ∀ dir : String,
        utf8 (joinPath dir (outputTemplate (sanitizeFilename name))) =
          UnixPath.join (utf8 dir) (utf8 (outputTemplate (sanitizeFilename name))) ∧
        ('%' ∉ dir.toList →
          templateFields (joinPath dir (outputTemplate (sanitizeFilename name))).toList = ["(ext)s".toList]) := by
  have hsafe := safeName_sanitizeFilename hascii name
  have hnamed := hsafe.named_template hascii
  refine ⟨hsafe, fun c hc => ?_, hsafe.sanitizeFilename_eq_self hascii, fun dir => UnixPath.child_join dir hnamed, ?_,
    fun dir => ⟨utf8_joinPath hnamed.not_isAbsolute, fun hdir => ?_⟩⟩
  · exact hsafe.not_mem hascii hc
  · have hfields := hsafe.templateFields_template hascii (List.not_mem_nil (a := '%'))
    rwa [List.nil_append] at hfields
  · obtain ⟨before, hbefore, heq⟩ := joinPath_eq_append dir (outputTemplate (sanitizeFilename name)) hdir
    rw [heq, hsafe.templateFields_template hascii hbefore]

theorem child_joinPath (dir name : String) :
    UnixPath.Child (utf8 dir) (utf8 (joinPath dir (outputTemplate (sanitizeFilename name)))) := by
  have hnamed := (safeName_sanitizeFilename hascii name).named_template hascii
  rw [utf8_joinPath hnamed.not_isAbsolute]
  exact UnixPath.child_join _ hnamed

/-- Whatever the title of the video is, yt-dlp is told to write to a file of the output directory. -/
theorem ytdlpArgs_child (cli : Cli) (ytdlp : YtDlp) (w : Cli.World) (info : VideoInfo) (outputDir : String) :
    ∃ path, ["-o", path] <:+: cli.ytdlpArgs ytdlp w info outputDir ∧ UnixPath.Child (utf8 outputDir) (utf8 path) :=
  ⟨_, ⟨["--no-warnings", "--newline"], _, rfl⟩, child_joinPath hascii outputDir _⟩

theorem downloadArgs_child (executable : String) (world : YtDlpWorld) (url formatId outputDir title : String) :
    ∃ path, ["-o", path] <:+: downloadArgs executable world url formatId outputDir title ∧
      UnixPath.Child (utf8 outputDir) (utf8 path) :=
  ⟨_, ⟨["--no-warnings", "--newline"], _, rfl⟩, child_joinPath hascii outputDir _⟩

end Ascii

/-! ### Names that can be created -/

/-- The names of the files made of a file name: that of a direct download, and those of a yt-dlp download. -/
inductive FileNameOf (filename : String) : String → Prop
  | direct : FileNameOf filename filename
  | ytdlp (ext : String) (hlen : ext.length ≤ 4) (halpha : ∀ c ∈ ext.toList, c.isAlpha = true) :
    FileNameOf filename (filename ++ "." ++ ext)

/-- Other than the directory and the one above it, and at most 255 bytes. -/
structure Creatable (file : String) : Prop where
  ne_dot : file ≠ "."
  ne_dotdot : file ≠ ".."
  length_le : (utf8 file).length ≤ 255

/-- The bytes that are written for a character. -/
def sanitizedSize (c : Char) : Nat := if keeps c then c.utf8Size else 1

theorem sanitizedSize_eq (c : Char) : sanitizedSize c = (sanitizedChar c).utf8Size := by
  unfold sanitizedSize sanitizedChar
  split <;> rfl

omit [UnicodeDeps] in
/-- A letter of ASCII takes one byte. -/
theorem length_utf8_of_alpha {ext : String} (halpha : ∀ c ∈ ext.toList, c.isAlpha = true) :
    (utf8 ext).length = ext.length := by
  have hone : ext.toList.map Char.utf8Size = ext.toList.map fun _ => 1 := by
    refine List.map_congr_left fun c hc => Char.utf8Size_eq_one_iff.2 ?_
    have hletter : (decide ('A'.val ≤ c.val ∧ c.val ≤ 'Z'.val) ||
        (decide ('a'.val ≤ c.val) && decide (c.val ≤ 'z'.val))) = true := halpha c hc
    simp only [Bool.or_eq_true, Bool.and_eq_true, decide_eq_true_eq, UInt32.le_iff_toNat_le] at hletter ⊢
    rcases hletter with ⟨-, h⟩ | ⟨-, h⟩ <;> exact h.trans (by decide)
  rw [length_utf8, hone, List.map_const', List.sum_replicate_nat, Nat.mul_one, String.length_toList]

omit [UnicodeDeps] in
/-- An extension of four letters is the worst that can come. -/
theorem forall_creatable_iff {s : String} (hs : s ≠ "") :
    (∀ file, FileNameOf s file → Creatable file) ↔ s ≠ "." ∧ s ≠ ".." ∧ (utf8 s).length ≤ 250 := by
  constructor
  · intro h
    have hwebm := (h _ (.ytdlp "webm" (by decide) (by simp))).length_le
    rw [utf8_append, utf8_append, List.length_append, List.length_append,
      show (utf8 ".").length = 1 by decide, show (utf8 "webm").length = 4 by decide] at hwebm
    exact ⟨(h s .direct).ne_dot, (h s .direct).ne_dotdot, by omega⟩
  · rintro ⟨hdot, hdotdot, hlen⟩ file (_ | ⟨ext, hext, halpha⟩)
    · exact ⟨hdot, hdotdot, by omega⟩
    have hpos : s.toList ≠ [] := by simpa using hs
    have hlist : (s ++ "." ++ ext).toList = s.toList ++ '.' :: ext.toList := by simp
    obtain ⟨c, cs, hcs⟩ := List.exists_cons_of_ne_nil hpos
    refine ⟨fun he => ?_, fun he => ?_, ?_⟩
    · rw [he, hcs] at hlist
      simp at hlist
    · rw [he, hcs] at hlist
      have htwo : ['.', '.'] = c :: (cs ++ '.' :: ext.toList) := hlist
      rcases cs with _ | ⟨d, cs⟩
      · rw [List.nil_append, List.cons.injEq] at htwo
        exact hdot (String.toList_inj.1 (by rw [hcs, ← htwo.1]; rfl))
      · simp at htwo
    · rw [utf8_append, utf8_append, List.length_append, List.length_append, length_utf8_of_alpha halpha,
        show (utf8 ".").length = 1 by decide]
      omega

theorem sanitizeFilename_ne_empty (name : String) : sanitizeFilename name ≠ "" := by
  rcases sanitizeFilename_cases name with ⟨-, hvideo⟩ | ⟨-, hname, hwritten⟩
  · simp [hvideo]
  · intro he
    rw [he] at hwritten
    exact hname (by simpa using hwritten.symm)

/-- Only the dot itself becomes the name of the directory. -/
theorem sanitizeFilename_eq_dot {name : String} : sanitizeFilename name = "." ↔ name = "." := by
  rcases sanitizeFilename_cases name with ⟨htraversal | rfl, hvideo⟩ | ⟨-, -, hwritten⟩
  · have hne : name ≠ "." := by
      rintro rfl
      exact absurd htraversal (by decide)
    simp [hvideo, hne]
  · simp [hvideo]
  · rw [← String.toList_inj, ← String.toList_inj, hwritten]
    constructor
    · intro hdot
      rcases hcs : name.toList with _ | ⟨c, _ | ⟨d, cs⟩⟩ <;> rw [hcs] at hdot
      · simp at hdot
      · rw [sanitizedChar_eq_dot.1 (List.head_eq_of_cons_eq hdot)]
        rfl
      · simp at hdot
    · intro hdot
      rw [hdot]
      simp [sanitizedChar, keeps]

theorem sanitizeFilename_ne_dotdot (name : String) : sanitizeFilename name ≠ ".." := by
  rcases sanitizeFilename_cases name with ⟨-, hvideo⟩ | ⟨htraversal, -, hwritten⟩
  · simp [hvideo]
  · intro he
    rw [he] at hwritten
    have hdots := (dots_infix_of_map ⟨[], [], hwritten⟩).trans (List.take_prefix 200 _).isInfix
    simp [hasPathTraversal, contains_dots.2 hdots] at htraversal

/-- A direct download goes to a file of the output directory unless its name is the dot. -/
theorem child_direct_iff (hascii : ∀ c : Char, c.toNat < 128 → UnicodeDeps.isAlphanumeric c = c.isAlphanum)
    (dir name : String) : UnixPath.Child (utf8 dir) (utf8 (joinPath dir (sanitizeFilename name))) ↔ name ≠ "." := by
  have hsafe := safeName_sanitizeFilename hascii name
  constructor
  · rintro h rfl
    have hdot : utf8 "." = [PathUnit.dot] := by decide
    rw [sanitizeFilename_eq_dot.2 rfl, utf8_joinPath (by decide), hdot] at h
    exact UnixPath.not_child_join_dot (by decide) _ h
  · intro hname
    have hnamed : UnixPath.Named (sanitizeFilename name).toList := by
      refine ⟨fun he => hsafe.ne_empty (String.toList_eq_nil_iff.1 he), fun he => ?_, fun he => ?_,
        hsafe.not_mem hascii (by simp [PathUnit.slash])⟩
      · exact hname (sanitizeFilename_eq_dot.1 (String.toList_inj.1 he))
      · exact sanitizeFilename_ne_dotdot name (String.toList_inj.1 he)
    rw [utf8_joinPath hnamed.utf8.not_isAbsolute]
    exact UnixPath.child_join _ hnamed.utf8

theorem length_sanitizeFilename_le_iff {name : String} {n : Nat} (hn : 5 ≤ n) :
    (utf8 (sanitizeFilename name)).length ≤ n ↔
      hasPathTraversal name = true ∨ ((name.toList.take 200).map sanitizedSize).sum ≤ n := by
  have hlen : (utf8 "video").length = 5 := by decide
  rcases sanitizeFilename_cases name with ⟨htraversal | rfl, hvideo⟩ | ⟨htraversal, -, hwritten⟩
  · rw [hvideo, hlen]
    exact iff_of_true hn (.inl htraversal)
  · rw [hvideo, hlen]
    exact iff_of_true hn (.inr (by simp))
  · have hsum : (utf8 (sanitizeFilename name)).length = ((name.toList.take 200).map sanitizedSize).sum := by
      rw [length_utf8, hwritten, List.map_map]
      exact congrArg List.sum (List.map_congr_left fun c _ => (sanitizedSize_eq c).symm)
    simp [hsum, htraversal]

/-- Every name that the downloads make of the sanitised name can be created exactly when the given name is not the dot
alone and the characters that are written take at most 250 bytes. -/
theorem creatable_iff (name : String) :
    (∀ file, FileNameOf (sanitizeFilename name) file → Creatable file) ↔
      name ≠ "." ∧ (hasPathTraversal name = true ∨ ((name.toList.take 200).map sanitizedSize).sum ≤ 250) := by
  rw [forall_creatable_iff (sanitizeFilename_ne_empty name), ne_eq, sanitizeFilename_eq_dot,
    length_sanitizeFilename_le_iff (by omega)]
  exact ⟨fun h => ⟨h.1, h.2.2⟩, fun h => ⟨h.1, sanitizeFilename_ne_dotdot name, h.2⟩⟩

end

namespace Sample

/-- A name that is cleaned. -/
theorem safe_percent : SafeName (sanitizeFilename "a/100%") ∧
    (∀ c ∈ ['/', '\\', '~', '%'], c ∉ (sanitizeFilename "a/100%").toList) ∧
    sanitizeFilename (sanitizeFilename "a/100%") = sanitizeFilename "a/100%" ∧
    (∀ dir : List UInt8, UnixPath.Child dir (UnixPath.join dir (utf8 (outputTemplate (sanitizeFilename "a/100%"))))) ∧
    templateFields (outputTemplate (sanitizeFilename "a/100%")).toList = ["(ext)s".toList] ∧
    ∀ dir : String,
      utf8 (joinPath dir (outputTemplate (sanitizeFilename "a/100%"))) =
        UnixPath.join (utf8 dir) (utf8 (outputTemplate (sanitizeFilename "a/100%"))) ∧
      ('%' ∉ dir.toList →
        templateFields (joinPath dir (outputTemplate (sanitizeFilename "a/100%"))).toList = ["(ext)s".toList]) :=
  sanitizeFilename_safe (fun _ _ => rfl) "a/100%"

/-- A percent sign of the directory begins a field, too. -/
theorem templateFields_idDir :
    templateFields (joinPath "/v/%(id)s" (outputTemplate (sanitizeFilename "a"))).toList =
        ["(id)s/a.".toList, "(ext)s".toList] ∧
      templateFields (joinPath "/v/%(id)s" (outputTemplate (sanitizeFilename "a"))).toList ≠ ["(ext)s".toList] := by
  decide +kernel

/-- ASCII and one of the letters beyond it. -/
abbrev hanUnicode : UnicodeDeps := ⟨fun c => c.isAlphanum || c = '视'⟩

theorem hasPathTraversal_replicate (n : Nat) : hasPathTraversal (.ofList (.replicate n '视')) = false := by
  have hcontains : Text.contains (.ofList (.replicate n '视')) ".." = false := by
    rw [Bool.eq_false_iff, ne_eq, contains_dots, String.toList_ofList]
    intro h
    have hdot := List.eq_of_mem_replicate (h.subset List.mem_cons_self)
    revert hdot
    decide
  rw [hasPathTraversal, hcontains, String.toList_ofList, List.head?_replicate]
  split <;> rfl

/-- The dot is the directory, and of a hundred letters three bytes each are too many. -/
theorem not_creatable :
    (¬ ∀ file, FileNameOf (@sanitizeFilename hanUnicode ".") file → Creatable file) ∧
      ¬ ∀ file, FileNameOf (@sanitizeFilename hanUnicode (.ofList (.replicate 100 '视'))) file →
        Creatable file := by
  constructor
  · intro h
    exact (h _ .direct).ne_dot ((@sanitizeFilename_eq_dot hanUnicode _).2 rfl)
  · intro h
    have hle := (h _ .direct).length_le
    rw [@length_sanitizeFilename_le_iff hanUnicode _ _ (by decide), hasPathTraversal_replicate, String.toList_ofList,
      List.take_replicate, List.map_replicate, List.sum_replicate_nat] at hle
    revert hle
    decide

end Sample

end XVideoDownloader
