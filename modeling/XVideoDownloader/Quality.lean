import XVideoDownloader.Gui
import XVideoDownloader.Lib.StableSort

/-!
# The chosen quality

A button sends its place in the sorted list of at most eight formats, and a download looks that place up in the whole
list. `chosen_iff` says when the two agree: when the place of every format that has a button is that of an entry with
its id. With distinct ids this is to say that the whole list begins with the formats of the buttons and that these come
in the order of their sizes (`chosen_iff_of_nodup`).
-/

namespace XVideoDownloader
open Lib

variable {w : GuiWorld} {app : App} {info : VideoInfo}

namespace VideoInfo

theorem notSmaller_trans (a b c : VideoFormat) (hab : notSmaller a b) (hbc : notSmaller b c) : notSmaller a c := by
  simp only [notSmaller, decide_eq_true_eq] at *
  omega

theorem notSmaller_total (a b : VideoFormat) : notSmaller a b || notSmaller b a := by
  simp only [notSmaller, Bool.or_eq_true, decide_eq_true_eq]
  omega

theorem length_candidates_le (info : VideoInfo) : info.candidates.length ≤ info.formats.length := by
  rw [candidates, List.length_take]
  have := List.length_filter_le (fun f => !f.audioOnly && f.ext ≠ "unknown") info.formats
  omega

theorem mem_formatButtons {b : FormatButton} :
    b ∈ info.formatButtons ↔
      ∃ i a, (info.candidates.mergeSort notSmaller)[i]? = some a ∧ b = ⟨a, .selectFormat i⟩ := by
  simp only [formatButtons, List.mem_map, Prod.exists, List.mk_mem_zipIdx_iff_getElem?]
  constructor
  · rintro ⟨a, i, h, rfl⟩
    exact ⟨i, a, h, rfl⟩
  · rintro ⟨i, a, h, rfl⟩
    exact ⟨a, i, h, rfl⟩

end VideoInfo

open VideoInfo

/-- What a download after a button takes. -/
theorem update_startDownload (w : GuiWorld) (hinfo : app.videoInfo = some info) {url : String}
    (hurl : validateUrl app.urlInput = .ok url) {i : Nat} {f : VideoFormat} (hf : info.formats[i]? = some f) :
    ((app.update w (.selectFormat i)).1.update w .startDownload).2 =
      .download app.urlInput f.formatId app.outputDir info.title := by
  have hselected : (app.update w (.selectFormat i)).1.formatId info = f.formatId := by
    simp [App.update, App.formatId, hf]
  have hinfo' : (app.update w (.selectFormat i)).1.videoInfo = some info := hinfo
  have hurl' : validateUrl (app.update w (.selectFormat i)).1.urlInput = .ok url := hurl
  rw [App.startDownload_command w hurl' hinfo', hselected]
  rfl

/-- A button downloads what it shows exactly when the entry of the whole list at its place has that id. -/
theorem chosen_iff_getElem (w : GuiWorld) (hinfo : app.videoInfo = some info) {url : String}
    (hurl : validateUrl app.urlInput = .ok url) :
    (∀ b ∈ info.formatButtons, ((app.update w b.onPress).1.update w .startDownload).2 =
        .download app.urlInput b.format.formatId app.outputDir info.title) ↔
      ∀ (i : Nat) (a : VideoFormat), (info.candidates.mergeSort notSmaller)[i]? = some a →
        (info.formats[i]?).map (·.formatId) = some a.formatId := by
  have hformat : ∀ (i : Nat) (a : VideoFormat), (info.candidates.mergeSort notSmaller)[i]? = some a →
      ∃ f, info.formats[i]? = some f := by
    intro i a h
    have hlt := (List.getElem?_eq_some_iff.1 h).1
    rw [List.length_mergeSort] at hlt
    exact ⟨_, List.getElem?_eq_getElem (Nat.lt_of_lt_of_le hlt info.length_candidates_le)⟩
  constructor
  · intro h i a ha
    obtain ⟨f, hf⟩ := hformat i a ha
    have hdownload := h _ (mem_formatButtons.2 ⟨i, a, ha, rfl⟩)
    rw [update_startDownload w hinfo hurl hf, Command.download.injEq] at hdownload
    rw [hf, Option.map_some, hdownload.2.1]
  · rintro h b hb
    obtain ⟨i, a, ha, rfl⟩ := mem_formatButtons.1 hb
    obtain ⟨f, hf⟩ := hformat i a ha
    have hid := h i a ha
    rw [hf, Option.map_some, Option.some.injEq] at hid
    rw [update_startDownload w hinfo hurl hf, hid]

/-- Every button downloads the format that it shows exactly when each candidate has the id of the entry of the whole
list whose place is the number of candidates that are larger, or as large and before it. -/
theorem chosen_iff (w : GuiWorld) (app : App) (info : VideoInfo) (hinfo : app.videoInfo = some info) (url : String)
    (hurl : validateUrl app.urlInput = .ok url) :
    (∀ b ∈ info.formatButtons, ((app.update w b.onPress).1.update w .startDownload).2 =
        .download app.urlInput b.format.formatId app.outputDir info.title) ↔
      ∀ x ∈ info.candidates.zipIdx, (info.formats[rank notSmaller info.candidates x]?).map (·.formatId) =
        some x.1.formatId := by
  rw [chosen_iff_getElem w hinfo hurl]
  constructor
  · intro h x hx
    exact h _ _ (getElem?_rank notSmaller_trans notSmaller_total hx)
  · intro h i a ha
    obtain ⟨x, hx, rfl, rfl⟩ := exists_rank notSmaller_trans notSmaller_total ha
    exact h x hx

/-- With distinct ids: the whole list begins with the candidates, the largest first. -/
theorem chosen_iff_of_nodup (w : GuiWorld) (hinfo : app.videoInfo = some info) {url : String}
    (hurl : validateUrl app.urlInput = .ok url) (hnodup : (info.formats.map (·.formatId)).Nodup) :
    (∀ b ∈ info.formatButtons, ((app.update w b.onPress).1.update w .startDownload).2 =
        .download app.urlInput b.format.formatId app.outputDir info.title) ↔
      info.candidates <+: info.formats ∧ info.candidates.Pairwise fun a b => notSmaller a b = true := by
  rw [chosen_iff_getElem w hinfo hurl]
  have hperm := List.mergeSort_perm info.candidates notSmaller
  constructor
  · intro h
    have hsorted : info.candidates.mergeSort notSmaller <+: info.formats := by
      refine List.prefix_iff_getElem?.2 fun i hi => ?_
      have ha := List.getElem?_eq_getElem hi
      have hid := h i _ ha
      have hmem : (info.candidates.mergeSort notSmaller)[i] ∈ info.formats :=
        List.mem_of_mem_filter (List.mem_of_mem_take (hperm.mem_iff.1 (List.getElem_mem hi)))
      obtain ⟨f, hf, hfid⟩ := Option.map_eq_some_iff.1 hid
      rw [hf, List.inj_on_of_nodup_map hnodup (List.mem_of_getElem? hf) hmem hfid]
    have heq : info.candidates.mergeSort notSmaller = info.candidates := by
      obtain ⟨rest, hrest⟩ := hsorted
      have hkeep : ∀ f ∈ info.candidates.mergeSort notSmaller, (!f.audioOnly && f.ext ≠ "unknown") = true :=
        fun f hf => (List.mem_filter.1 (List.mem_of_mem_take (hperm.mem_iff.1 hf))).2
      have hlen : (info.candidates.mergeSort notSmaller).length ≤ 8 := by
        rw [List.length_mergeSort, candidates, List.length_take]
        omega
      have hprefix : info.candidates.mergeSort notSmaller <+: info.candidates := by
        conv_rhs => rw [candidates, ← hrest, List.filter_append, List.filter_eq_self.2 hkeep]
        exact List.prefix_take_iff.2 ⟨List.prefix_append _ _, hlen⟩
      exact hprefix.eq_of_length hperm.length_eq
    refine ⟨heq ▸ hsorted, ?_⟩
    rw [← heq]
    exact List.pairwise_mergeSort notSmaller_trans notSmaller_total _
  · rintro ⟨⟨rest, hrest⟩, hsorted⟩ i a ha
    rw [List.mergeSort_of_pairwise hsorted] at ha
    have hlt := (List.getElem?_eq_some_iff.1 ha).1
    rw [← hrest, List.getElem?_append_left hlt, ha, Option.map_some]

namespace Sample

def mp4 : VideoFormat := ⟨"18", "mp4", some "640x360", some 9000, none, none, false, none⟩

def m4a : VideoFormat := ⟨"140", "m4a", none, some 1000, none, none, true, none⟩

def shownInfo (formats : List VideoFormat) : VideoInfo :=
  { VideoInfo.new "1970-01-01T00:00:00+00:00" "a" "https://x.com/a" with formats := formats }

/-- The window with a video, and its link in the URL field. -/
def shownApp (formats : List VideoFormat) : App :=
  { App.new "yt-dlp" "" "" "/videos" with urlInput := "https://x.com/a", videoInfo := some (shownInfo formats) }

def noFiles : GuiWorld := ⟨fun _ => none, fun _ _ => .ok ()⟩

theorem validateUrl_sample : validateUrl "https://x.com/a" = .ok "https://x.com/a" := by decide +kernel

theorem chosen_mp4 : ⟨mp4, .selectFormat 0⟩ ∈ (shownInfo [mp4, m4a]).formatButtons ∧
    (((shownApp [mp4, m4a]).update noFiles (.selectFormat 0)).1.update noFiles .startDownload).2 =
      .download "https://x.com/a" "18" "/videos" "a" := by
  have hcandidates : (shownInfo [mp4, m4a]).candidates = [mp4] := by decide
  have hbutton : ⟨mp4, .selectFormat 0⟩ ∈ (shownInfo [mp4, m4a]).formatButtons := by
    refine mem_formatButtons.2 ⟨0, mp4, ?_, rfl⟩
    rw [hcandidates, List.mergeSort_singleton]
    rfl
  have hplaces : ∀ x ∈ (shownInfo [mp4, m4a]).candidates.zipIdx,
      ((shownInfo [mp4, m4a]).formats[Lib.rank notSmaller (shownInfo [mp4, m4a]).candidates x]?).map (·.formatId) =
        some x.1.formatId := by
    decide
  have hall := (chosen_iff noFiles (shownApp [mp4, m4a]) (shownInfo [mp4, m4a]) rfl _ validateUrl_sample).2 hplaces
  have hchosen := hall ⟨mp4, .selectFormat 0⟩ hbutton
  exact ⟨hbutton, hchosen⟩

/-- With the audio first, the only button shows the video and downloads the audio. -/
theorem not_chosen_m4a : ⟨mp4, .selectFormat 0⟩ ∈ (shownInfo [m4a, mp4]).formatButtons ∧
    (((shownApp [m4a, mp4]).update noFiles (.selectFormat 0)).1.update noFiles .startDownload).2 =
      .download "https://x.com/a" "140" "/videos" "a" := by
  have hcandidates : (shownInfo [m4a, mp4]).candidates = [mp4] := by decide
  refine ⟨mem_formatButtons.2 ⟨0, mp4, ?_, rfl⟩, ?_⟩
  · rw [hcandidates, List.mergeSort_singleton]
    rfl
  · have hinfo : (shownApp [m4a, mp4]).videoInfo = some (shownInfo [m4a, mp4]) := rfl
    have hfirst : (shownInfo [m4a, mp4]).formats[0]? = some m4a := rfl
    exact update_startDownload noFiles hinfo validateUrl_sample hfirst

end Sample

end XVideoDownloader
