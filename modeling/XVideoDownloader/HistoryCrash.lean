import XVideoDownloader.History
import XVideoDownloader.Lib.Disk
import XVideoDownloader.Lib.Utf8

/-!
# The history across crashes

A save writes `history.json` and then `bookmarks.json`, each in place, and a file whose text does not parse is opened
as an empty list. So a crash while a file is written leaves a list that is opened empty, whatever was in the file
before, unless the cut goes through a character: then nothing can be opened. `survives_iff` says that this is all that
can go wrong.
-/

namespace XVideoDownloader
open Lib

namespace History

inductive FileName
  | history
  | bookmarks
  deriving DecidableEq

/-- The operations, with the two that return whether they removed something and not whether it was saved. -/
inductive Change
  | op (o : Op)
  | removeEntry (id : Uuid)
  | removeBookmark (id : Uuid)

/-- What an operation makes of the lists; `none` where it is refused or finds nothing to remove, and nothing is
saved. -/
def Change.edit : Change → History → Option History
  | op o, h => (o.edit h).toOption
  | removeEntry id, h =>
    let entries := h.entries.filter (·.id ≠ id)
    if entries.length ≠ h.entries.length then some { h with entries := entries } else none
  | removeBookmark id, h =>
    let bookmarks := h.bookmarks.filter (·.id ≠ id)
    if bookmarks.length ≠ h.bookmarks.length then some { h with bookmarks := bookmarks } else none

/-- Whether an entry stays in the list. -/
def Change.keepsEntry : Change → HistoryEntry → Bool
  | op .clear, _ => false
  | removeEntry id, e => e.id ≠ id
  | _, _ => true

def Change.keepsBookmark : Change → BookmarkEntry → Bool
  | removeBookmark id, b => b.id ≠ id
  | _, _ => true

/-- The operations on the bookmarks. -/
def Change.OnBookmarks : Change → Prop
  | op (.addBookmark ..) | removeBookmark _ => True
  | _ => False

/-- What an operation keeps is there after it. -/
theorem Change.edit_keeps {c : Change} {h h' : History} (hedit : c.edit h = some h') :
    (∀ e ∈ h.entries, c.keepsEntry e → e ∈ h'.entries) ∧ ∀ b ∈ h.bookmarks, c.keepsBookmark b → b ∈ h'.bookmarks := by
  rcases c with (_ | _ | _) | id | id
  · cases hedit
    exact ⟨fun e he _ => List.mem_cons_of_mem _ he, fun b hb _ => hb⟩
  · cases hedit
    exact ⟨fun e _ hk => by simp [keepsEntry] at hk, fun b hb _ => hb⟩
  · simp only [edit, Op.edit] at hedit
    split at hedit <;> cases hedit
    exact ⟨fun e he _ => he, fun b hb _ => List.mem_append_left _ hb⟩
  · simp only [edit] at hedit
    split at hedit <;> cases hedit
    exact ⟨fun e he hk => List.mem_filter.2 ⟨he, hk⟩, fun b hb _ => hb⟩
  · simp only [edit] at hedit
    split at hedit <;> cases hedit
    exact ⟨fun e he _ => he, fun b hb hk => List.mem_filter.2 ⟨hb, hk⟩⟩

/-- An operation on the bookmarks leaves the entries alone, and the others leave the bookmarks alone. -/
theorem Change.edit_frame {c : Change} {h h' : History} (hedit : c.edit h = some h') :
    (c.OnBookmarks → h'.entries = h.entries) ∧ (¬ c.OnBookmarks → h'.bookmarks = h.bookmarks) := by
  rcases c with (_ | _ | _) | id | id
  · cases hedit
    exact ⟨False.elim, fun _ => rfl⟩
  · cases hedit
    exact ⟨False.elim, fun _ => rfl⟩
  · simp only [edit, Op.edit] at hedit
    split at hedit <;> cases hedit
    exact ⟨fun _ => rfl, fun hn => absurd trivial hn⟩
  · simp only [edit] at hedit
    split at hedit <;> cases hedit
    exact ⟨False.elim, fun _ => rfl⟩
  · simp only [edit] at hedit
    split at hedit <;> cases hedit
    exact ⟨fun _ => rfl, fun hn => absurd trivial hn⟩

section
variable [Codec (List HistoryEntry)] [Codec (List BookmarkEntry)]

/-- The steps of `save`, and whether they are all of them. The argument is the error of `create_dir_all`. -/
def saveSteps (createDir : Option String) (h : History) : List (DiskStep FileName) × Bool :=
  match createDir, Codec.encode h.entries, Codec.encode h.bookmarks with
  | none, .ok json, .ok json' => (Disk.write .history (utf8 json) ++ Disk.write .bookmarks (utf8 json'), true)
  | none, .ok json, .error _ => (Disk.write .history (utf8 json), false)
  | _, _, _ => ([], false)

/-- The list in a file: none where there is no file or its text is no list, and an error where it is no text. -/
def readList {α : Type} [Codec (List α)] : Option (List UInt8) → Except String (List α)
  | none => .ok []
  | some bytes =>
    match fromUtf8 bytes with
    | none => .error "stream did not contain valid UTF-8"
    | some content =>
      match Codec.decode content with
      | .ok l => .ok l
      | .error _ => .ok []

def new (d : Disk FileName) : Except String History := do
  let entries ← readList (d .history)
  let bookmarks ← readList (d .bookmarks)
  return ⟨entries, bookmarks⟩

end

/-! ### Lists in files -/

section
variable {α : Type} [Codec (List α)] {R : α → α → Prop} {l kept : List α} {file : Option (List UInt8)}
  {json : String} {n : Nat}

/-- A list reads back up to `R`, and no proper beginning of its text is that of a list. -/
structure ReadsBack (R : α → α → Prop) : Prop where
  trans : ∀ {a b c}, R a b → R b c → R a c
  decode : ∀ {l : List α} {json}, Codec.encode l = .ok json → ∃ l' : List α, Codec.decode json = .ok l' ∧
    ∀ a ∈ l, ∃ b ∈ l', R a b
  decode_cut : ∀ {l : List α} {json text}, Codec.encode l = .ok json → utf8 text <+: utf8 json → text ≠ json →
    ∃ e, (Codec.decode text : Except String (List α)) = .error e

/-- Everything in `kept` is in the file, where it can be read. -/
def Holds (R : α → α → Prop) (kept : List α) (file : Option (List UInt8)) : Prop :=
  ∀ l, readList file = .ok l → ∀ a ∈ kept, ∃ b ∈ l, R a b

/-- After `n` steps of the write of a text, it is cut, and between two characters. -/
def CutsText (json : String) (n : Nat) : Prop :=
  0 < n ∧ n ≤ (utf8 json).length ∧ ∃ text, utf8 text = (utf8 json).take (n - 1)

theorem readList_utf8 {l : List α} (h : Codec.decode json = .ok l) : readList (some (utf8 json)) = .ok l := by
  simp only [readList, fromUtf8_eq_some.2 rfl, h]

/-- A text that is cut between two characters is opened as an empty list. -/
theorem readList_cut (file : Option (List UInt8)) (hlaw : ReadsBack R) (he : Codec.encode l = .ok json)
    (hn : CutsText json n) :
    readList (cut file (utf8 json) n) = .ok ([] : List α) := by
  obtain ⟨hpos, hle, text, htext⟩ := hn
  have hne : text ≠ json := by
    rintro rfl
    have := congrArg List.length htext
    rw [List.length_take] at this
    omega
  obtain ⟨e, hdecode⟩ := hlaw.decode_cut he (htext ▸ List.take_prefix _ _) hne
  rw [cut, if_neg (by omega), ← htext]
  simp only [readList, fromUtf8_eq_some.2 rfl, hdecode]

theorem readable_utf8 (hlaw : ReadsBack R) (he : Codec.encode l = .ok json) :
    ∃ l : List α, readList (some (utf8 json)) = .ok l := by
  obtain ⟨l', hdecode, -⟩ := hlaw.decode he
  exact ⟨l', readList_utf8 hdecode⟩

theorem holds_write (hlaw : ReadsBack R) (he : Codec.encode l = .ok json) (hl : ∀ a ∈ kept, ∃ b ∈ l, R a b) :
    Holds R kept (some (utf8 json)) := by
  obtain ⟨l', hdecode, hl'⟩ := hlaw.decode he
  intro l'' hl'' a ha
  cases (readList_utf8 hdecode).symm.trans hl''
  obtain ⟨b, hb, hab⟩ := hl a ha
  obtain ⟨c, hc, hbc⟩ := hl' b hb
  exact ⟨c, hc, hlaw.trans hab hbc⟩

theorem Holds.of_subset {kept' : List α} (h : Holds R kept file) (hsub : kept' ⊆ kept) : Holds R kept' file :=
  fun l hl a ha => h l hl a (hsub ha)

/-- A write keeps what is in the file and in the new list, unless it is cut between two characters. -/
theorem holds_cut (hlaw : ReadsBack R) (he : Codec.encode l = .ok json) (hfile : Holds R kept file)
    (hl : ∀ a ∈ kept, ∃ b ∈ l, R a b) (hn : CutsText json n → kept = []) : Holds R kept (cut file (utf8 json) n) := by
  rcases Nat.eq_zero_or_pos n with rfl | hpos
  · exact hfile
  rw [cut, if_neg (by omega)]
  by_cases hle : n ≤ (utf8 json).length
  · intro l' hl' a ha
    cases htext : fromUtf8 ((utf8 json).take (n - 1)) with
    | none => simp [readList, htext] at hl'
    | some text =>
      rw [hn ⟨hpos, hle, text, fromUtf8_eq_some.1 htext⟩] at ha
      cases ha
  · rw [List.take_of_length_le (by omega)]
    exact holds_write hlaw he hl

end

/-! ### Runs -/

/-- The same entry, with a duration that may have been rounded or, being no number, lost. -/
def SameEntry (e e' : HistoryEntry) : Prop := e' = { e with durationSecs := e'.durationSecs }

theorem SameEntry.id_eq {e e' : HistoryEntry} (h : SameEntry e e') : e'.id = e.id := by rw [h]

theorem SameEntry.trans {a b c : HistoryEntry} (hab : SameEntry a b) (hbc : SameEntry b c) : SameEntry a c := by
  unfold SameEntry at *
  rw [hbc, hab]

/-- The disk, the history that is open, where the last opening succeeded, and what completed saves have written and no
operation has removed. -/
structure CrashState where
  disk : Disk FileName
  history : Option History
  entries : List HistoryEntry
  bookmarks : List BookmarkEntry

inductive CrashEvent
  /-- An operation, with the error of its `create_dir_all`. -/
  | call (c : Change) (createDir : Option String)
  /-- An operation that a crash interrupts after `n` steps of its save. The history is opened again. -/
  | crash (c : Change) (n : Nat)
  | restart

/-- What a save has written is in the list, too. -/
theorem forall_saved {α : Type} {R : α → α → Prop} (hrefl : ∀ a, R a a) (saved : Bool) {l kept : List α}
    (h : ∀ a ∈ kept, ∃ b ∈ l, R a b) : ∀ a ∈ (if saved then l else []) ++ kept, ∃ b ∈ l, R a b := by
  intro a ha
  rcases List.mem_append.1 ha with ha | ha
  · cases saved with
    | false => cases ha
    | true => exact ⟨a, ha, hrefl a⟩
  · exact h a ha

variable [Codec (List HistoryEntry)] [Codec (List BookmarkEntry)]

namespace CrashState

/-- An operation has left the lists `h`, and its save, complete or not, the disk `d`. -/
def change (s : CrashState) (c : Change) (h : History) (d : Disk FileName) (saved : Bool) : CrashState where
  disk := d
  history := some h
  entries := (if saved then h.entries else []) ++ s.entries.filter c.keepsEntry
  bookmarks := (if saved then h.bookmarks else []) ++ s.bookmarks.filter c.keepsBookmark

def reopen (s : CrashState) : CrashState := { s with history := (new s.disk).toOption }

/-- Without an open history there is nothing to call. -/
def step (s : CrashState) : CrashEvent → CrashState
  | .call c createDir =>
    match s.history.bind c.edit with
    | none => s
    | some h => s.change c h (s.disk.after (saveSteps createDir h).1) (saveSteps createDir h).2
  | .crash c n =>
    match s.history.bind c.edit with
    | none => s.reopen
    | some h => (s.change c h (s.disk.after ((saveSteps none h).1.take n)) false).reopen
  | .restart => s.reopen

def after (s : CrashState) (xs : List CrashEvent) : CrashState := xs.foldl step s

/-- The history of a directory without files. -/
def fresh : CrashState := ⟨fun _ => none, some ⟨[], []⟩, [], []⟩

/-- The history can be opened with all that is kept, or not at all. -/
def Survives (s : CrashState) : Prop :=
  ∀ h, new s.disk = .ok h →
    (∀ e ∈ s.entries, ∃ e' ∈ h.entries, SameEntry e e') ∧ ∀ b ∈ s.bookmarks, b ∈ h.bookmarks

/-- A crash cuts one of the files between two characters, and the operation does not remove all that is kept in
it. -/
def Loses (s : CrashState) : CrashEvent → Prop
  | .crash c n => ∃ h json, s.history.bind c.edit = some h ∧ Codec.encode h.entries = .ok json ∧
    ((CutsText json n ∧ ∃ e ∈ s.entries, c.keepsEntry e) ∨
      ∃ json', Codec.encode h.bookmarks = .ok json' ∧ CutsText json' (n - ((utf8 json).length + 1)) ∧
        ∃ b ∈ s.bookmarks, c.keepsBookmark b)
  | _ => False

end CrashState

/-! ### One save -/

section
variable {h : History} {createDir : Option String} {d : Disk FileName} {n : Nat} {json json' : String}

/-- What `n` steps of a save leave in `history.json`. -/
theorem after_take_history (he : Codec.encode h.entries = .ok json) :
    d.after ((saveSteps none h).1.take n) .history = cut (d .history) (utf8 json) n := by
  cases hb : Codec.encode h.bookmarks with
  | error e =>
    simp only [saveSteps, he, hb]
    rw [Disk.after_take_write, Function.update_self]
  | ok json' =>
    simp only [saveSteps, he, hb]
    rw [Disk.after_take_write_fst (by decide)]

theorem after_take_bookmarks (he : Codec.encode h.entries = .ok json) (hb : Codec.encode h.bookmarks = .ok json') :
    d.after ((saveSteps none h).1.take n) .bookmarks =
      cut (d .bookmarks) (utf8 json') (n - ((utf8 json).length + 1)) := by
  simp only [saveSteps, he, hb]
  rw [Disk.after_take_write_snd (by decide)]

/-- Without the text of a list, its file is not touched. -/
theorem after_take_history_error {e : String} (he : Codec.encode h.entries = .error e) :
    d.after ((saveSteps none h).1.take n) .history = d .history := by
  simp [saveSteps, he, Disk.after]

theorem after_take_bookmarks_error
    (he : (∃ e, Codec.encode h.entries = .error e) ∨ ∃ e, Codec.encode h.bookmarks = .error e) :
    d.after ((saveSteps none h).1.take n) .bookmarks = d .bookmarks := by
  cases hj : Codec.encode h.entries with
  | error e => simp [saveSteps, hj, Disk.after]
  | ok json =>
    rcases he with ⟨e, he⟩ | ⟨e, he⟩
    · cases hj.symm.trans he
    · simp only [saveSteps, hj, he]
      rw [Disk.after_take_write, Function.update_of_ne (by decide)]

theorem holds_crash_history (hlaw : ReadsBack SameEntry) {kept : List HistoryEntry}
    (hd : Holds SameEntry kept (d .history)) (hh : ∀ e ∈ kept, ∃ e' ∈ h.entries, SameEntry e e')
    (hn : ∀ json, Codec.encode h.entries = .ok json → CutsText json n → kept = []) :
    Holds SameEntry kept (d.after ((saveSteps none h).1.take n) .history) := by
  cases he : Codec.encode h.entries with
  | error e =>
    rw [after_take_history_error he]
    exact hd
  | ok json =>
    rw [after_take_history he]
    exact holds_cut hlaw he hd hh (hn json he)

theorem holds_crash_bookmarks (hlaw : ReadsBack (@Eq BookmarkEntry)) {kept : List BookmarkEntry}
    (hd : Holds Eq kept (d .bookmarks)) (hh : ∀ b ∈ kept, ∃ b' ∈ h.bookmarks, b = b')
    (hn : ∀ json json', Codec.encode h.entries = .ok json → Codec.encode h.bookmarks = .ok json' →
      CutsText json' (n - ((utf8 json).length + 1)) → kept = []) :
    Holds Eq kept (d.after ((saveSteps none h).1.take n) .bookmarks) := by
  cases he : Codec.encode h.entries with
  | error e =>
    rw [after_take_bookmarks_error (.inl ⟨e, he⟩)]
    exact hd
  | ok json =>
    cases hb : Codec.encode h.bookmarks with
    | error e =>
      rw [after_take_bookmarks_error (.inr ⟨e, hb⟩)]
      exact hd
    | ok json' =>
      rw [after_take_bookmarks he hb]
      exact holds_cut hlaw hb hd hh (hn json json' he hb)

/-- A save that is not interrupted: nothing is written, or the history, or both and then it is complete. -/
theorem after_saveSteps_cases (createDir : Option String) (h : History) (d : Disk FileName) :
    (d.after (saveSteps createDir h).1 = d ∧ (saveSteps createDir h).2 = false) ∨
      ∃ json, Codec.encode h.entries = .ok json ∧ d.after (saveSteps createDir h).1 .history = some (utf8 json) ∧
        ((d.after (saveSteps createDir h).1 .bookmarks = d .bookmarks ∧ (saveSteps createDir h).2 = false) ∨
          ∃ json', Codec.encode h.bookmarks = .ok json' ∧
            d.after (saveSteps createDir h).1 .bookmarks = some (utf8 json')) := by
  rcases createDir with _ | e
  · cases he : Codec.encode h.entries with
    | error e => exact .inl (by simp [saveSteps, he, Disk.after])
    | ok json =>
      refine .inr ⟨json, rfl, ?_⟩
      cases hb : Codec.encode h.bookmarks with
      | error e =>
        simp only [saveSteps, he, hb, Disk.after_write]
        exact ⟨Function.update_self .., .inl ⟨Function.update_of_ne (by decide) .., trivial⟩⟩
      | ok json' =>
        simp only [saveSteps, he, hb, Disk.after_append, Disk.after_write]
        refine ⟨?_, .inr ⟨json', rfl, Function.update_self ..⟩⟩
        rw [Function.update_of_ne (by decide), Function.update_self]
  · exact .inl (by simp [saveSteps, Disk.after])

end

/-- What is relied on of the texts of the two lists. -/
structure TextsReadBack : Prop where
  entries : ReadsBack SameEntry
  bookmarks : ReadsBack (@Eq BookmarkEntry)

theorem new_eq_ok {d : Disk FileName} {h : History} :
    new d = .ok h ↔ readList (d .history) = .ok h.entries ∧ readList (d .bookmarks) = .ok h.bookmarks := by
  cases h
  unfold new
  cases readList (α := HistoryEntry) (d .history) <;> cases readList (α := BookmarkEntry) (d .bookmarks) <;>
    simp [bind, Except.bind, pure, Except.pure]

namespace CrashState
variable {s : CrashState} {x : CrashEvent} {c : Change} {h h' : History}

/-- What the induction carries: all that is kept is in the files that can be read, and in the open history. -/
structure Safe (s : CrashState) : Prop where
  entries : Holds SameEntry s.entries (s.disk .history)
  bookmarks : Holds Eq s.bookmarks (s.disk .bookmarks)
  history : ∀ h, s.history = some h →
    (∀ e ∈ s.entries, ∃ e' ∈ h.entries, SameEntry e e') ∧ ∀ b ∈ s.bookmarks, b ∈ h.bookmarks

theorem Safe.survives (hs : s.Safe) : s.Survives := by
  intro h hnew
  obtain ⟨he, hb⟩ := new_eq_ok.1 hnew
  refine ⟨hs.entries _ he, fun b hmem => ?_⟩
  obtain ⟨b', hb', rfl⟩ := hs.bookmarks _ hb b hmem
  exact hb'

theorem Safe.reopen (hs : s.Safe) : s.reopen.Safe := by
  refine ⟨hs.entries, hs.bookmarks, fun h hh => ?_⟩
  cases hnew : new s.disk with
  | error e => simp [CrashState.reopen, hnew, Except.toOption] at hh
  | ok h' =>
    simp only [CrashState.reopen, hnew, Except.toOption, Option.some.injEq] at hh
    exact hs.survives h (hh ▸ hnew)

/-- What an operation keeps of the kept entries and bookmarks is in the lists after it. -/
theorem Safe.mem_edit (hs : s.Safe) (hedit : s.history.bind c.edit = some h') :
    (∀ e ∈ s.entries.filter c.keepsEntry, ∃ e' ∈ h'.entries, SameEntry e e') ∧
      ∀ b ∈ s.bookmarks.filter c.keepsBookmark, ∃ b' ∈ h'.bookmarks, b = b' := by
  obtain ⟨h, hh, hedit⟩ := Option.bind_eq_some_iff.1 hedit
  obtain ⟨hentries, hbookmarks⟩ := hs.history h hh
  obtain ⟨hkeepE, hkeepB⟩ := Change.edit_keeps hedit
  constructor
  · intro e he
    obtain ⟨hmem, hkeep⟩ := List.mem_filter.1 he
    obtain ⟨e', he', hsame⟩ := hentries e hmem
    have hid : c.keepsEntry e' = c.keepsEntry e := by
      rcases c with (_ | _ | _) | id | id <;> simp [Change.keepsEntry, hsame.id_eq]
    exact ⟨e', hkeepE e' he' (hid ▸ hkeep), hsame⟩
  · intro b hb
    obtain ⟨hmem, hkeep⟩ := List.mem_filter.1 hb
    exact ⟨b, hkeepB b (hbookmarks b hmem) hkeep, rfl⟩

theorem Safe.holds_filter (hs : s.Safe) (c : Change) :
    Holds SameEntry (s.entries.filter c.keepsEntry) (s.disk .history) ∧
      Holds Eq (s.bookmarks.filter c.keepsBookmark) (s.disk .bookmarks) :=
  ⟨hs.entries.of_subset List.filter_sublist.subset, hs.bookmarks.of_subset List.filter_sublist.subset⟩

theorem Safe.call (hlaw : TextsReadBack) (hs : s.Safe) (createDir : Option String) :
    (s.step (.call c createDir)).Safe := by
  cases hedit : s.history.bind c.edit with
  | none =>
    rw [step, hedit]
    exact hs
  | some h =>
    rw [step, hedit]
    obtain ⟨holdE, holdB⟩ := hs.holds_filter c
    obtain ⟨hentries, hbookmarks⟩ := hs.mem_edit hedit
    have hE (saved : Bool) := forall_saved (R := SameEntry) (fun _ => rfl) saved hentries
    have hB (saved : Bool) := forall_saved (R := @Eq BookmarkEntry) (fun _ => rfl) saved hbookmarks
    have hopen (saved : Bool) (h' : History) (he : some h = some h') :
        (∀ e ∈ (if saved then h.entries else []) ++ s.entries.filter c.keepsEntry, ∃ e' ∈ h'.entries, SameEntry e e') ∧
          ∀ b ∈ (if saved then h.bookmarks else []) ++ s.bookmarks.filter c.keepsBookmark, b ∈ h'.bookmarks := by
      cases he
      refine ⟨hE saved, fun b hb => ?_⟩
      obtain ⟨b', hb', rfl⟩ := hB saved b hb
      exact hb'
    rcases after_saveSteps_cases createDir h s.disk with
      ⟨hd, hsaved⟩ | ⟨json, he, hdisk, ⟨hdb, hsaved⟩ | ⟨json', hb, hdb⟩⟩
    · simp only [hd, hsaved]
      exact ⟨holdE, holdB, hopen false⟩
    · simp only [hsaved]
      refine ⟨?_, ?_, hopen false⟩
      · simpa only [change, hdisk] using holds_write hlaw.entries he (hE false)
      · show Holds Eq (s.bookmarks.filter c.keepsBookmark) (s.disk.after (saveSteps createDir h).1 .bookmarks)
        rwa [hdb]
    · refine ⟨?_, ?_, hopen _⟩
      · simpa only [change, hdisk] using holds_write hlaw.entries he (hE _)
      · simpa only [change, hdb] using holds_write hlaw.bookmarks hb (hB _)

theorem Safe.crash (hlaw : TextsReadBack) (hs : s.Safe) {n : Nat} (hx : ¬ s.Loses (.crash c n)) :
    (s.step (.crash c n)).Safe := by
  cases hedit : s.history.bind c.edit with
  | none =>
    rw [step, hedit]
    exact hs.reopen
  | some h =>
    rw [step, hedit]
    obtain ⟨hentries, hbookmarks⟩ := hs.mem_edit hedit
    obtain ⟨holdE, holdB⟩ := hs.holds_filter c
    refine Safe.reopen ⟨?_, ?_, ?_⟩
    · refine holds_crash_history hlaw.entries holdE hentries ?_
      intro json he hcut
      refine List.filter_eq_nil_iff.2 fun e hmem hkeep => hx ⟨h, json, hedit, he, .inl ⟨hcut, e, hmem, hkeep⟩⟩
    · refine holds_crash_bookmarks hlaw.bookmarks holdB hbookmarks ?_
      intro json json' he hb hcut
      refine List.filter_eq_nil_iff.2 fun b hmem hkeep =>
        hx ⟨h, json, hedit, he, .inr ⟨json', hb, hcut, b, hmem, hkeep⟩⟩
    · rintro h' ⟨⟩
      refine ⟨hentries, fun b hb => ?_⟩
      obtain ⟨b', hb', rfl⟩ := hbookmarks b hb
      exact hb'

theorem Safe.step (hlaw : TextsReadBack) (hs : s.Safe) (hx : ¬ s.Loses x) : (s.step x).Safe := by
  cases x with
  | call c createDir => exact hs.call hlaw createDir
  | crash c n => exact hs.crash hlaw hx
  | restart => exact hs.reopen

/-- Where a history is open, both files can be read. -/
def Readable (s : CrashState) : Prop :=
  ∀ h, s.history = some h →
    (∃ l : List HistoryEntry, readList (s.disk .history) = .ok l) ∧
      ∃ l : List BookmarkEntry, readList (s.disk .bookmarks) = .ok l

theorem readable_reopen (s : CrashState) : s.reopen.Readable := by
  intro h hh
  cases hnew : new s.disk with
  | error e => simp [reopen, hnew, Except.toOption] at hh
  | ok h' =>
    obtain ⟨he, hb⟩ := new_eq_ok.1 hnew
    exact ⟨⟨_, he⟩, ⟨_, hb⟩⟩

theorem Readable.step (hlaw : TextsReadBack) (hs : s.Readable) (x : CrashEvent) : (s.step x).Readable := by
  cases x with
  | call c createDir =>
    cases hedit : s.history.bind c.edit with
    | none =>
      rw [CrashState.step, hedit]
      exact hs
    | some h =>
      rw [CrashState.step, hedit]
      obtain ⟨h₀, hh₀, -⟩ := Option.bind_eq_some_iff.1 hedit
      obtain ⟨he₀, hb₀⟩ := hs h₀ hh₀
      intro h' _
      show (∃ l : List HistoryEntry, readList (s.disk.after (saveSteps createDir h).1 .history) = .ok l) ∧
        ∃ l : List BookmarkEntry, readList (s.disk.after (saveSteps createDir h).1 .bookmarks) = .ok l
      rcases after_saveSteps_cases createDir h s.disk with
        ⟨hd, -⟩ | ⟨json, he, hdisk, ⟨hdb, -⟩ | ⟨json', hb, hdb⟩⟩
      · rw [hd]
        exact ⟨he₀, hb₀⟩
      · rw [hdisk, hdb]
        exact ⟨readable_utf8 hlaw.entries he, hb₀⟩
      · rw [hdisk, hdb]
        exact ⟨readable_utf8 hlaw.entries he, readable_utf8 hlaw.bookmarks hb⟩
  | crash c n =>
    rw [CrashState.step]
    split <;> exact readable_reopen _
  | restart => exact readable_reopen s

/-- After a crash that loses something, the history is opened without it. -/
theorem not_survives_of_loses (hlaw : TextsReadBack) (hs : s.Readable) (hx : s.Loses x) : ¬ (s.step x).Survives := by
  cases x with
  | call c createDir => exact hx.elim
  | restart => exact hx.elim
  | crash c n =>
    obtain ⟨h, json, hedit, he, hloss⟩ := hx
    obtain ⟨h₀, hh₀, -⟩ := Option.bind_eq_some_iff.1 hedit
    obtain ⟨⟨l₁, hl₁⟩, ⟨l₂, hl₂⟩⟩ := hs h₀ hh₀
    rw [step, hedit]
    intro hsurvives
    have hhistory := after_take_history (d := s.disk) (n := n) he
    rcases hloss with ⟨hcut, e, hmem, hkeep⟩ | ⟨json', hb, hcut, b, hmem, hkeep⟩
    · have hread : readList (s.disk.after ((saveSteps none h).1.take n) .bookmarks) = .ok l₂ := by
        cases hb : Codec.encode h.bookmarks with
        | error e => rw [after_take_bookmarks_error (.inr ⟨e, hb⟩), hl₂]
        | ok json' =>
          have hle := hcut.2.1
          rw [after_take_bookmarks he hb, show n - ((utf8 json).length + 1) = 0 by omega]
          exact hl₂
      have hempty := readList_cut (s.disk .history) hlaw.entries he hcut
      rw [← hhistory] at hempty
      obtain ⟨e', he', -⟩ := (hsurvives ⟨[], l₂⟩ (new_eq_ok.2 ⟨hempty, hread⟩)).1 e (List.mem_filter.2 ⟨hmem, hkeep⟩)
      cases he'
    · obtain ⟨l, hl⟩ := readable_utf8 hlaw.entries he
      have hfull : cut (s.disk .history) (utf8 json) n = some (utf8 json) := by
        have hpos := hcut.1
        rw [cut, if_neg (by omega), List.take_of_length_le (by omega)]
      have hread : readList (s.disk.after ((saveSteps none h).1.take n) .history) = .ok l := by
        rw [hhistory, hfull, hl]
      have hempty := readList_cut (s.disk .bookmarks) hlaw.bookmarks hb hcut
      rw [← after_take_bookmarks he hb] at hempty
      cases (hsurvives ⟨l, []⟩ (new_eq_ok.2 ⟨hread, hempty⟩)).2 b (List.mem_filter.2 ⟨hmem, hkeep⟩)

theorem after_concat (s : CrashState) (xs : List CrashEvent) (x : CrashEvent) :
    s.after (xs ++ [x]) = (s.after xs).step x := by
  rw [after, List.foldl_append]
  rfl

theorem safe_fresh : fresh.Safe where
  entries _ _ e he := by cases he
  bookmarks _ _ b hb := by cases hb
  history _ _ := ⟨fun _ he => (List.not_mem_nil he).elim, fun _ hb => (List.not_mem_nil hb).elim⟩

theorem readable_fresh : fresh.Readable := fun _ _ => ⟨⟨[], rfl⟩, ⟨[], rfl⟩⟩

end CrashState

open CrashState in
/-- On every run, all that completed saves have written and no operation has removed is there when the history is
opened, or it cannot be opened, exactly when no crash cuts a file between two characters that holds any of it; and
the operations on one list never change the other. -/
theorem survives_iff (hlaw : TextsReadBack) (xs : List CrashEvent) :
    ((∀ before after, xs = before ++ after → (fresh.after before).Survives) ∧
        ∀ (c : Change) (h h' : History), c.edit h = some h' →
          (c.OnBookmarks → h'.entries = h.entries) ∧ (¬ c.OnBookmarks → h'.bookmarks = h.bookmarks)) ↔
      ∀ before x after, xs = before ++ x :: after → ¬ (fresh.after before).Loses x := by
  constructor
  · rintro ⟨hsurvives, -⟩ before x after rfl hloses
    have hreadable : (fresh.after before).Readable := by
      clear hsurvives hloses
      induction before using List.reverseRecOn with
      | nil => exact readable_fresh
      | append_singleton before y ih =>
        rw [after_concat]
        exact ih.step hlaw y
    refine not_survives_of_loses hlaw hreadable hloses ?_
    rw [← after_concat]
    exact hsurvives (before ++ [x]) after (by simp)
  · intro hkeeps
    refine ⟨fun before after he => Safe.survives ?_, fun c h h' hedit => Change.edit_frame hedit⟩
    refine prefix_induction (P := fun before => (fresh.after before).Safe) safe_fresh ?_ before after he
    intro before x after he ih
    rw [after_concat]
    exact ih.step hlaw (hkeeps before x after he)

end History

namespace Sample
open History CrashState

/-- `serde_json` on the lists of a table. -/
abbrev tableCodec {α : Type} [DecidableEq α] (table : List (List α × String)) : Codec (List α) where
  encode l := (table.find? fun e => e.1 = l).elim (.error "another list") fun e => .ok e.2
  decode text := (table.find? fun e => e.2 = text).elim (.error "EOF while parsing a list at line 1 column 0")
    fun e => .ok e.1

theorem readsBack_tableCodec {α : Type} [DecidableEq α] {table : List (List α × String)} {R : α → α → Prop}
    (hrefl : ∀ a, R a a) (htrans : ∀ {a b c}, R a b → R b c → R a c)
    (hdistinct : ∀ e ∈ table, table.find? (fun f => f.2 = e.2) = some e)
    (hcut : ∀ e ∈ table, ∀ f ∈ table, utf8 f.2 <+: utf8 e.2 → f.2 = e.2) : @ReadsBack α (tableCodec table) R := by
  have hencode : ∀ {l : List α} {json : String}, (table.find? fun e => e.1 = l).elim (.error "another list")
      (fun e => .ok e.2) = (.ok json : Except String String) → (l, json) ∈ table := by
    intro l json he
    cases hfind : table.find? fun e => e.1 = l with
    | none => simp [hfind] at he
    | some e =>
      have hl : e.1 = l := by simpa using List.find?_some hfind
      simp only [hfind, Option.elim_some, Except.ok.injEq] at he
      rw [← hl, ← he]
      exact List.mem_of_find?_eq_some hfind
  refine @ReadsBack.mk α (tableCodec table) R htrans ?_ ?_
  · intro l json he
    refine ⟨l, ?_, fun a ha => ⟨a, ha, hrefl a⟩⟩
    show (table.find? fun e => e.2 = json).elim _ _ = _
    rw [hdistinct _ (hencode he)]
    rfl
  · intro l json text he hpre hne
    cases hfind : table.find? fun e => e.2 = text with
    | none =>
      refine ⟨"EOF while parsing a list at line 1 column 0", ?_⟩
      show (table.find? fun e => e.2 = text).elim _ _ = _
      rw [hfind]
      rfl
    | some f =>
      have hf : f.2 = text := by simpa using List.find?_some hfind
      exact absurd (hf ▸ hcut _ (hencode he) f (List.mem_of_find?_eq_some hfind) (hf ▸ hpre)) hne

def videoEntry : HistoryEntry := ⟨7, "u", none, none, none, 0, none⟩

def titledEntry : HistoryEntry := ⟨9, "https://x.com/a", some "a", none, none, 0, none⟩

def videoBookmark : BookmarkEntry := ⟨8, "u", none, 0, none⟩

def entryTexts : List (List HistoryEntry × String) := [([], "[]"), ([videoEntry],
  "[\n  \x7b\n    \"id\": \"00000000-0000-0000-0000-000000000007\",\n    \"url\": \"u\",\n    \"title\": null,\n" ++
  "    \"file_path\": null,\n    \"file_size\": null,\n    \"downloaded_at\": \"1970-01-01T00:00:00Z\",\n" ++
  "    \"duration_secs\": null\n  \x7d\n]"), ([titledEntry],
  "[\n  \x7b\n    \"id\": \"00000000-0000-0000-0000-000000000009\",\n    \"url\": \"https://x.com/a\",\n" ++
  "    \"title\": \"a\",\n    \"file_path\": null,\n    \"file_size\": null,\n" ++
  "    \"downloaded_at\": \"1970-01-01T00:00:00Z\",\n    \"duration_secs\": null\n  \x7d\n]")]

def bookmarkTexts : List (List BookmarkEntry × String) := [([], "[]"), ([videoBookmark],
  "[\n  \x7b\n    \"id\": \"00000000-0000-0000-0000-000000000008\",\n    \"url\": \"u\",\n    \"title\": null,\n" ++
  "    \"added_at\": \"1970-01-01T00:00:00Z\",\n    \"note\": null\n  \x7d\n]")]

scoped instance entryCodec : Codec (List HistoryEntry) := tableCodec entryTexts

scoped instance bookmarkCodec : Codec (List BookmarkEntry) := tableCodec bookmarkTexts

theorem historyTexts : History.TextsReadBack where
  entries := readsBack_tableCodec (fun _ => rfl) SameEntry.trans (by decide +kernel)
    (by simp only [utf8_eq]; decide +kernel)
  bookmarks := readsBack_tableCodec (fun _ => rfl) Eq.trans (by decide +kernel) (by simp only [utf8_eq]; decide +kernel)

/-- An entry is added and saved, and a crash interrupts the save of a bookmark after `n` steps. -/
def interrupted (n : Nat) : List CrashEvent :=
  [.call (.op (.addEntry "u" none none none none 7 0)) none, .crash (.op (.addBookmark "u" none none 8 0)) n]

/-- Before the save has begun, the entry survives the crash. -/
theorem survives_interrupted : (fresh.after (interrupted 0)).Survives := by
  refine ((survives_iff historyTexts (interrupted 0)).2 ?_).1 _ [] (List.append_nil _).symm
  rintro before x after he
  rcases before with _ | ⟨a, _ | ⟨b, before⟩⟩
  · cases he
    exact id
  · cases he
    rintro ⟨h, json, -, -, ⟨⟨hpos, -⟩, -⟩ | ⟨json', -, ⟨hpos, -⟩, -⟩⟩
    · cases hpos
    · rw [Nat.zero_sub] at hpos
      cases hpos
  · have := congrArg List.length he
    simp [interrupted] at this

/-- After `history.json` has been truncated, it is opened without the entry that was saved. -/
theorem not_survives_interrupted :
    (fresh.after (interrupted 1)).entries = [videoEntry] ∧ (fresh.after (interrupted 1)).history = some ⟨[], []⟩ := by
  decide +kernel

end Sample

end XVideoDownloader
