import XVideoDownloader.Lib.Json

/-!
# Beginnings of JSON texts

Where a value has been read, it is read the same whatever comes behind it, unless it is a number, which may go on
(`value_append`). So no proper beginning of the text of an object is a JSON text (`parse_of_cut`), but for white space at
the end (`skip_of_parse_append`).
-/

namespace Lib.Json
open List

def IsNumber : Json Token → Prop
  | number _ => True
  | _ => False

variable {cs rest more : List Char}

/-! ### Strings -/

theorem readString_escape {c c' : Char} (h : unescape c = some c') (cs : List Char) :
    readString ('\\' :: c :: cs) = (readString cs).map fun p => (c' :: p.1, p.2) := by
  have hu : c ≠ 'u' := by
    rintro rfl
    cases h
  rw [readString.eq_4 _ _ (fun _ _ _ _ _ _ _ _ _ hc => absurd hc hu) fun _ _ _ _ _ hc => absurd hc hu, h]

theorem readString_append {s : List Char} (h : readString cs = some (s, rest)) (more : List Char) :
    readString (cs ++ more) = some (s, rest ++ more) := by
  induction cs using readString.induct generalizing s rest with
  | case1 cs =>
    cases h
    rfl
  | case2 a b c d a' b' c' d' cs n n' htrail hlead hpair ih =>
    simp only [readString.eq_2, hlead, htrail, hpair, if_true, Option.map_eq_some_iff] at h
    obtain ⟨⟨s, rest⟩, hread, heq⟩ := h
    cases heq
    simp only [cons_append, readString.eq_2, hlead, htrail, hpair, if_true, ih hread, Option.map_some]
  | case3 a b c d a' b' c' d' cs n n' htrail hlead hpair hsingle =>
    simp [readString.eq_2, hlead, htrail, hpair, hsingle] at h
  | case4 a b c d a' b' c' d' cs n n' htrail hlead hpair hsingle ih | case7 a b c d cs hne n hlead hsingle ih =>
    rw [Bool.or_eq_true, not_or, Bool.not_eq_true, Bool.not_eq_true] at hsingle
    rw [readString_unit hlead hsingle.1 hsingle.2, Option.map_eq_some_iff] at h
    obtain ⟨⟨s, rest⟩, hread, heq⟩ := h
    cases heq
    rw [cons_append, cons_append, cons_append, cons_append, cons_append, cons_append,
      readString_unit hlead hsingle.1 hsingle.2, ih hread, Option.map_some]
  | case5 a b c d a' b' c' d' cs hnone =>
    rw [readString.eq_2] at h
    split at h
    · exact absurd ‹_› fun h' => hnone _ _ ‹_› h'
    · cases h
  | case6 a b c d cs hne n hlead hsingle => simp [readString.eq_3 _ _ _ _ _ hne, hlead, hsingle] at h
  | case8 a b c d cs hne hnone =>
    rw [readString_of_hex4_none hnone] at h
    cases h
  | case9 c cs hne hne' c' hc ih =>
    rw [readString_escape hc, Option.map_eq_some_iff] at h
    obtain ⟨⟨s, rest⟩, hread, heq⟩ := h
    cases heq
    rw [cons_append, cons_append, readString_escape hc, ih hread, Option.map_some]
  | case10 c cs hne hne' hc =>
    rw [readString.eq_4 _ _ hne hne', hc] at h
    cases h
  | case11 c cs hquote hne hne' hne'' hlt =>
    rw [readString.eq_5 _ _ hquote hne hne' hne'', if_pos hlt] at h
    cases h
  | case12 c cs hquote hne hne' hne'' hlt ih =>
    rw [readString.eq_5 _ _ hquote hne hne' hne'', if_neg hlt, Option.map_eq_some_iff] at h
    obtain ⟨⟨s, rest⟩, hread, heq⟩ := h
    cases heq
    have hback : c ≠ '\\' := by
      rintro rfl
      cases cs with
      | nil => cases hread
      | cons c cs => exact hne'' c cs rfl rfl
    rw [cons_append, readString_plain hquote hback hlt, ih hread, Option.map_some]
  | case13 => cases h

/-! ### Scalars -/

theorem scalar_nil : scalar [] = none := by decide

theorem takeWhile_append {p : Char → Bool} {c : Char} {t : List Char} (h : cs.dropWhile p = c :: t) (more : List Char) :
    (cs ++ more).takeWhile p = cs.takeWhile p ∧ (cs ++ more).dropWhile p = c :: t ++ more := by
  rw [List.takeWhile_append, List.dropWhile_append, h]
  refine ⟨if_neg fun hlen => ?_, rfl⟩
  have happ := congrArg length (takeWhile_append_dropWhile (p := p) (l := cs))
  rw [h, length_append, length_cons] at happ
  omega

theorem skip_append {c : Char} {t : List Char} (h : skip cs = c :: t) (more : List Char) :
    skip (cs ++ more) = c :: (t ++ more) :=
  (takeWhile_append h more).2

theorem scalar_append {v : Json Token} (h : scalar cs = some (v, rest)) (hv : rest = [] → ¬ v.IsNumber) (more : List Char) :
    scalar (cs ++ more) = some (v, rest ++ more) := by
  unfold scalar at h
  split at h
  · cases h
    rfl
  · cases h
    rfl
  · cases h
    rfl
  · rename_i cs
    obtain ⟨⟨s, rest'⟩, hread, heq⟩ := Option.map_eq_some_iff.1 h
    cases heq
    show (readString (cs ++ more)).map _ = _
    rw [readString_append hread]
    rfl
  · rename_i hn ht hf hq
    dsimp only at h
    split at h
    · rename_i hnumber
      cases h
      obtain ⟨c, t, hrest⟩ := exists_cons_of_ne_nil fun hnil => hv hnil trivial
      obtain ⟨htake, hdrop⟩ := takeWhile_append hrest more
      obtain ⟨hall, c', t', htoken, hc'⟩ := exists_of_isNumber hnumber
      have hcs : cs = c' :: (t' ++ cs.dropWhile isNumberChar) := by
        rw [← cons_append, ← htoken, takeWhile_append_dropWhile]
      have hne : c' ≠ 'n' ∧ c' ≠ 't' ∧ c' ≠ 'f' ∧ c' ≠ '"' := by
        refine ⟨?_, ?_, ?_, ?_⟩ <;> rintro rfl <;> revert hc' <;> decide
      have hhead : ∀ {c t}, cs ++ more = c :: t → c = c' := by
        intro c t h
        rw [hcs, cons_append] at h
        exact (cons.inj h).1.symm
      rw [scalar.eq_5 _ (fun _ h => hne.1 (hhead h).symm) (fun _ h => hne.2.1 (hhead h).symm)
        (fun _ h => hne.2.2.1 (hhead h).symm) fun _ h => hne.2.2.2 (hhead h).symm]
      simp only [htake, hdrop, hnumber, if_true, hrest]
    · cases h

/-! ### Arrays and objects -/

section
variable {α : Type} {close : Char} {p : List Char → Option (α × List Char)} {x : α} {xs : List α}

theorem some_skip_append (hnil : p [] = none)
    (hp : ∀ {cs rest x}, p cs = some (x, rest) → rest ≠ [] → ∀ more, p (cs ++ more) = some (x, rest ++ more))
    (h : p (skip cs) = some (x, rest)) (hrest : rest ≠ []) (more : List Char) :
    p (skip (cs ++ more)) = some (x, rest ++ more) := by
  cases hskip : skip cs with
  | nil =>
    rw [hskip, hnil] at h
    cases h
  | cons c t =>
    rw [hskip] at h
    rw [skip_append hskip]
    exact hp h hrest more

theorem readRest_append (hnil : p [] = none)
    (hp : ∀ {cs rest x}, p cs = some (x, rest) → rest ≠ [] → ∀ more, p (cs ++ more) = some (x, rest ++ more))
    {fuel fuel' : Nat} (hfuel : fuel ≤ fuel') (h : readRest close p fuel cs = some (xs, rest)) (more : List Char) :
    readRest close p fuel' (cs ++ more) = some (xs, rest ++ more) := by
  induction fuel generalizing fuel' cs xs with
  | zero => cases h
  | succ fuel ih =>
    obtain ⟨fuel', rfl⟩ := Nat.exists_eq_add_one_of_ne_zero (Nat.ne_of_gt (Nat.lt_of_lt_of_le fuel.succ_pos hfuel))
    rw [readRest] at h ⊢
    cases hskip : skip cs with
    | nil =>
      rw [hskip] at h
      cases h
    | cons c t =>
      rw [skip_append hskip]
      rw [hskip] at h
      dsimp only at h ⊢
      split_ifs at h ⊢ with hclose hcomma
      · cases h
        rfl
      · obtain ⟨⟨x, cs'⟩, hread, h⟩ := Option.bind_eq_some_iff.1 h
        obtain ⟨⟨xs', rest'⟩, htail, h⟩ := Option.bind_eq_some_iff.1 h
        cases h
        have hne : cs' ≠ [] := by
          rintro rfl
          cases fuel <;> cases htail
        have hread' := some_skip_append hnil hp hread hne more
        have htail' := ih (Nat.le_of_succ_le_succ hfuel) htail
        simp only [bind, Option.bind, hread', htail']
        rfl

theorem readAll_append (hnil : p [] = none)
    (hp : ∀ {cs rest x}, p cs = some (x, rest) → rest ≠ [] → ∀ more, p (cs ++ more) = some (x, rest ++ more))
    (h : readAll close p cs = some (xs, rest)) (more : List Char) :
    readAll close p (cs ++ more) = some (xs, rest ++ more) := by
  rw [readAll] at h ⊢
  cases hskip : skip cs with
  | nil =>
    rw [hskip] at h
    cases h
  | cons c t =>
    rw [skip_append hskip]
    rw [hskip] at h
    dsimp only at h ⊢
    split_ifs at h ⊢ with hclose
    · cases h
      rfl
    · obtain ⟨⟨x, cs'⟩, hread, h⟩ := Option.bind_eq_some_iff.1 h
      obtain ⟨⟨xs', rest'⟩, htail, h⟩ := Option.bind_eq_some_iff.1 h
      cases h
      have hne : cs' ≠ [] := by
        rintro rfl
        cases htail
      have hread' := hp hread hne more
      have hlen : t.length + 1 ≤ (t ++ more).length + 1 := by
        rw [length_append]
        omega
      have htail' := readRest_append hnil hp hlen htail more
      rw [cons_append] at hread'
      simp only [bind, Option.bind, hread', htail']
      rfl

end

theorem readField_append {value : List Char → Option (Json Token × List Char)} {f : String × Json Token} (hnil : value [] = none)
    (hvalue : ∀ {cs rest v}, value cs = some (v, rest) → rest ≠ [] →
      ∀ more, value (cs ++ more) = some (v, rest ++ more))
    (h : readField value cs = some (f, rest)) (hrest : rest ≠ []) (more : List Char) :
    readField value (cs ++ more) = some (f, rest ++ more) := by
  unfold readField at h
  split at h
  · rename_i cs
    obtain ⟨⟨name, cs'⟩, hname, h⟩ := Option.bind_eq_some_iff.1 h
    dsimp only at h
    split at h
    · rename_i cs'' hskip
      obtain ⟨⟨v, rest'⟩, hread, h⟩ := Option.bind_eq_some_iff.1 h
      cases h
      have hname' := readString_append hname more
      have hskip' := skip_append hskip more
      have hread' := some_skip_append hnil hvalue hread hrest more
      rw [cons_append, readField]
      simp only [bind, Option.bind, hname', hskip', hread']
      rfl
    · cases h
  · cases h

/-! ### Values -/

theorem value_nil (n : Nat) : value n [] = none := by
  rw [value.eq_3 n [] (by simp) (by simp)]
  exact scalar_nil

theorem value_of_ne {c : Char} (hbracket : c ≠ '[') (hbrace : c ≠ '{') (n : Nat) (t : List Char) :
    value n (c :: t) = scalar (c :: t) :=
  value.eq_3 n (c :: t) (fun _ _ _ h => hbracket (cons.inj h).1) fun _ _ _ h => hbrace (cons.inj h).1

theorem value_append {n : Nat} {v : Json Token} (h : value n cs = some (v, rest)) (hv : rest = [] → ¬ v.IsNumber)
    (more : List Char) : value n (cs ++ more) = some (v, rest ++ more) := by
  induction n generalizing cs rest v more with
  | zero =>
    have hscalar (cs : List Char) : value 0 cs = scalar cs := value.eq_3 0 cs (by simp) (by simp)
    rw [hscalar] at h ⊢
    exact scalar_append h hv more
  | succ n ih =>
    have hp : ∀ {cs rest v}, value n cs = some (v, rest) → rest ≠ [] →
        ∀ more, value n (cs ++ more) = some (v, rest ++ more) :=
      fun h hrest more => ih h (fun hnil => absurd hnil hrest) more
    cases cs with
    | nil =>
      rw [value_nil] at h
      cases h
    | cons c t =>
      by_cases hbracket : c = '['
      · subst hbracket
        obtain ⟨⟨items, rest'⟩, hread, heq⟩ := Option.map_eq_some_iff.1 h
        cases heq
        show (readAll ']' (value n) (t ++ more)).map _ = _
        rw [readAll_append (value_nil n) hp hread, Option.map_some]
      · by_cases hbrace : c = '{'
        · subst hbrace
          obtain ⟨⟨fields, rest'⟩, hread, heq⟩ := Option.map_eq_some_iff.1 h
          cases heq
          show (readAll '}' (readField (value n)) (t ++ more)).map _ = _
          rw [readAll_append rfl (readField_append (value_nil n) hp) hread, Option.map_some]
        · rw [value_of_ne hbracket hbrace] at h
          rw [cons_append, value_of_ne hbracket hbrace]
          exact scalar_append h hv more

theorem not_isNumber_of_brace {v : Json Token} (h : parse ('{' :: cs) = some v) : ¬ v.IsNumber := by
  have hvalue : value maxDepth (skip ('{' :: cs)) =
      (readAll '}' (readField (value 126)) cs).map fun p => (object p.1, p.2) := rfl
  rw [parse, hvalue] at h
  cases hread : readAll '}' (readField (value 126)) cs with
  | none =>
    rw [hread] at h
    cases h
  | some p =>
    rw [hread, Option.map_some] at h
    dsimp only at h
    split_ifs at h
    cases h
    exact id

/-- Where a text and a longer one are both read, and the first is no number, only white space has come behind it. -/
theorem skip_of_parse_append {v w : Json Token} (h : parse cs = some v) (hv : ¬ v.IsNumber)
    (h' : parse (cs ++ more) = some w) : skip more = [] := by
  unfold parse at h h'
  cases hskip : skip cs with
  | nil =>
    rw [hskip, value_nil] at h
    cases h
  | cons c t =>
    rw [hskip] at h
    rw [skip_append hskip, ← cons_append] at h'
    split at h
    · rename_i v' rest hread
      split_ifs at h
      · cases h
        rw [value_append hread (fun _ => hv) more] at h'
        dsimp only at h'
        split_ifs at h' with hrest
        have hspace := dropWhile_eq_nil_iff.1 (isEmpty_iff.1 hrest)
        exact dropWhile_eq_nil_iff.2 fun c hc => hspace c (mem_append_right rest hc)
    · cases h

theorem pretty_ends (fields : List (String × Json Token)) :
    (∃ t, pretty fields = '{' :: t) ∧ (pretty fields).getLast? = some '}' := by
  cases fields with
  | nil => exact ⟨⟨_, rfl⟩, rfl⟩
  | cons f fields => exact ⟨⟨_, rfl⟩, by simp [pretty, closing, getLast?_cons, getLast?_append]⟩

/-- What ends before the closing brace of an object is no JSON. -/
theorem parse_of_cut {fields : List (String × Json Token)} (hfits : (object fields).Fits IsToken maxDepth)
    (h : cs ++ more = pretty fields) (hne : more ≠ []) : parse cs = none := by
  by_contra hsome
  obtain ⟨v, hv⟩ := Option.ne_none_iff_exists'.1 hsome
  obtain ⟨⟨t, hbrace⟩, hlast⟩ := pretty_ends fields
  have hparse := parse_pretty hfits
  rw [← h] at hparse hbrace hlast
  have hobject : ¬ v.IsNumber := by
    cases cs with
    | nil => cases hv
    | cons c t =>
      obtain ⟨rfl, -⟩ := cons.inj hbrace
      exact not_isNumber_of_brace hv
  have hspace := skip_of_parse_append hv hobject hparse
  rw [getLast?_append_of_ne_nil _ hne, getLast?_eq_some_getLast hne] at hlast
  have hmem := dropWhile_eq_nil_iff.1 hspace _ (getLast_mem hne)
  rw [Option.some.inj hlast] at hmem
  exact absurd hmem (by decide)

end Lib.Json
