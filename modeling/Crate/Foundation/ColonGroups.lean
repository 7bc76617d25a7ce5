import Crate.Foundation.Substring

/-!
# Words between colons

Texts made of words that are separated by single colons, with at most one place
where two colons stand together.  Every text in which no second pair of colons
begins is the text of a spelling: its words before and behind the pair, and
whether a single colon stands alone at either end.  A scanner of such texts is
then described by what it does on the text of a spelling.
-/

namespace Crate.Foundation

def colon (present : Bool) : Str := if present then [':'] else []

def joinColons (words : List Str) : Str := [':'].intercalate words

/-- A word that separates from its neighbours: not empty, and without a colon. -/
structure CleanWord (w : Str) : Prop where
  ne_nil : w ≠ []
  no_colon : ':' ∉ w

abbrev Clean (words : List Str) : Prop := ∀ w ∈ words, CleanWord w

section Join

variable {w : Str} {words : List Str}

@[simp] theorem joinColons_nil : joinColons [] = [] := rfl

@[simp] theorem joinColons_singleton : joinColons [w] = w := by
  simp [joinColons]

theorem joinColons_cons_cons {w' : Str} :
    joinColons (w :: w' :: words) = w ++ ':' :: joinColons (w' :: words) := by
  simp [joinColons, List.intercalate_cons_cons]

theorem head?_joinColons_cons (h : CleanWord w) : (joinColons (w :: words)).head? = w.head? := by
  obtain ⟨c, rest, rfl⟩ := List.exists_cons_of_ne_nil h.ne_nil
  cases words with
  | nil => simp
  | cons w' words =>
      rw [joinColons_cons_cons]
      rfl

/-- A clean text does not begin with a colon. -/
theorem head?_joinColons_ne (h : Clean words) : (joinColons words).head? ≠ some ':' := by
  cases words with
  | nil => simp
  | cons w words =>
      obtain ⟨hw, -⟩ := List.forall_mem_cons.mp h
      rw [head?_joinColons_cons hw]
      intro hhead
      exact hw.no_colon (List.mem_of_head? hhead)

theorem joinColons_ne_nil (h : Clean words) (hne : words ≠ []) : joinColons words ≠ [] := by
  obtain ⟨w, rest, rfl⟩ := List.exists_cons_of_ne_nil hne
  obtain ⟨hw, -⟩ := List.forall_mem_cons.mp h
  intro hnil
  have hhead : (joinColons (w :: rest)).head? = w.head? := head?_joinColons_cons hw
  rw [hnil, List.head?_nil] at hhead
  exact hw.ne_nil (List.head?_eq_none_iff.mp hhead.symm)

theorem head?_joinColons_append_ne (h : Clean words) (hne : words ≠ []) (rest : Str) :
    (joinColons words ++ rest).head? ≠ some ':' := by
  rw [List.head?_append_of_ne_nil _ (joinColons_ne_nil h hne)]
  exact head?_joinColons_ne h

end Join

/-! ## Texts without a pair of colons -/

theorem pair_prefix_cons_iff {c : Char} {rest : Str} :
    [':', ':'] <+: c :: rest ↔ c = ':' ∧ rest.head? = some ':' := by
  cases rest with
  | nil => simp [List.cons_prefix_cons]
  | cons d rest => simp [List.cons_prefix_cons, eq_comm]

/-- Words with a colon at their ends hold no pair of colons, unless the ends meet. -/
theorem no_pair_of_clean {words : List Str} (h : Clean words) (lead trail : Bool)
    (hends : words = [] → ¬(lead = true ∧ trail = true)) :
    ¬[':', ':'] <:+: colon lead ++ joinColons words ++ colon trail := by
  have hword : ∀ (w rest : Str), ':' ∉ w → ¬[':', ':'] <:+: rest → rest.head? ≠ some ':' →
      ¬[':', ':'] <:+: w ++ ':' :: rest := by
    intro w rest hw hrest hhead hpair
    have hinside := infix_append_of_not_mem hw hpair
    rcases List.infix_cons_iff.mp hinside with hstart | hinside
    · exact hhead (pair_prefix_cons_iff.mp hstart).2
    · exact hrest hinside
  have htail : ¬[':', ':'] <:+: joinColons words ++ colon trail := by
    induction words with
    | nil => cases trail <;> simp [colon, List.infix_cons_iff]
    | cons w words ih =>
        obtain ⟨hw, hwords⟩ := List.forall_mem_cons.mp h
        cases words with
        | nil =>
            rw [joinColons_singleton]
            cases trail with
            | false =>
                intro hpair
                rw [colon, if_neg (by simp), List.append_nil] at hpair
                exact hw.no_colon (hpair.subset (by simp))
            | true => exact hword w [] hw.no_colon (by simp) (by simp)
        | cons w' words =>
            rw [joinColons_cons_cons, List.append_assoc, List.cons_append]
            exact hword w _ hw.no_colon (ih hwords (by simp))
              (head?_joinColons_append_ne hwords (by simp) _)
  cases lead with
  | false => simpa [colon] using htail
  | true =>
      rw [List.append_assoc]
      refine hword [] _ (by simp) htail ?_
      cases words with
      | nil =>
          cases trail with
          | false => simp [colon]
          | true => exact absurd ⟨rfl, rfl⟩ (hends rfl)
      | cons w words => exact head?_joinColons_append_ne h (by simp) _

/-- A text without a pair of colons is words between colons, with or without one at its ends. -/
theorem exists_words_of_not_pair {s : Str} (h : ¬[':', ':'] <:+: s) :
    ∃ lead words trail, s = colon lead ++ joinColons words ++ colon trail ∧ Clean words ∧
      (words = [] → trail = false) := by
  induction s with
  | nil => exact ⟨false, [], false, rfl, List.forall_mem_nil _, fun _ => rfl⟩
  | cons c s ih =>
      have hrest : ¬[':', ':'] <:+: s := fun hpair => h (hpair.trans (List.suffix_cons c s).isInfix)
      obtain ⟨lead, words, trail, rfl, hclean, htrail⟩ := ih hrest
      by_cases hc : c = ':'
      · subst hc
        cases lead with
        | true => exact absurd (List.infix_cons_iff.mpr (.inl (by simp [colon]))) h
        | false => exact ⟨true, words, trail, rfl, hclean, htrail⟩
      · have hsingle : CleanWord [c] := ⟨by simp, by simpa using Ne.symm hc⟩
        cases lead with
        | true =>
            cases words with
            | nil =>
                rw [htrail rfl]
                exact ⟨false, [[c]], true, by simp [colon], List.forall_mem_singleton.mpr hsingle,
                  by simp⟩
            | cons w words =>
                refine ⟨false, [c] :: w :: words, trail, ?_, ?_, by simp⟩
                · simp [colon, joinColons_cons_cons]
                · exact List.forall_mem_cons.mpr ⟨hsingle, hclean⟩
        | false =>
            cases words with
            | nil =>
                rw [htrail rfl]
                exact ⟨false, [[c]], false, by simp [colon], List.forall_mem_singleton.mpr hsingle,
                  by simp⟩
            | cons w words =>
                obtain ⟨hw, hwords⟩ := List.forall_mem_cons.mp hclean
                refine ⟨false, (c :: w) :: words, trail, ?_, ?_, by simp⟩
                · cases words with
                  | nil => simp [colon]
                  | cons w' words => simp [colon, joinColons_cons_cons]
                · refine List.forall_mem_cons.mpr ⟨⟨by simp, ?_⟩, hwords⟩
                  simp only [List.mem_cons, not_or]
                  exact ⟨Ne.symm hc, hw.no_colon⟩

/-! ## Spellings -/

/-- The words of a text before and behind its pair of colons, and the colons that stand alone. -/
structure Spelling where
  lead : Bool
  front : List Str
  /-- The words behind the pair; `none` when there is no pair. -/
  back : Option (List Str)
  trail : Bool
  clean_front : Clean front
  clean_back : Clean (back.getD [])
  lead_front : back.isSome = true → lead = true → front ≠ []
  trail_last : trail = true → back.getD front ≠ []

namespace Spelling

variable (p : Spelling)

def frontText : Str := colon p.lead ++ joinColons p.front

def text : Str :=
  p.frontText ++
    match p.back with
    | none => colon p.trail
    | some back => ':' :: ':' :: (joinColons back ++ colon p.trail)

def words : List Str := p.front ++ p.back.getD []

theorem text_of_none (h : p.back = none) :
    p.text = colon p.lead ++ joinColons p.front ++ colon p.trail := by
  rw [text, h, frontText]

theorem text_of_some {back : List Str} (h : p.back = some back) :
    p.text = p.frontText ++ ([':', ':'] ++ (joinColons back ++ colon p.trail)) := by
  rw [text, h]
  rfl

theorem text_ne_nil (h : p.back = none → p.words ≠ []) : p.text ≠ [] := by
  intro hempty
  cases hback : p.back with
  | none =>
      have hne := h hback
      rw [words, hback, Option.getD_none, List.append_nil] at hne
      rw [p.text_of_none hback, List.append_eq_nil_iff, List.append_eq_nil_iff] at hempty
      exact joinColons_ne_nil p.clean_front hne hempty.1.2
  | some back =>
      rw [p.text_of_some hback] at hempty
      simp at hempty

theorem mem_joinColons {words : List Str} {c : Char} (h : c ∈ joinColons words) :
    c = ':' ∨ ∃ w ∈ words, c ∈ w := by
  induction words with
  | nil => exact absurd h List.not_mem_nil
  | cons w words ih =>
      cases words with
      | nil =>
          rw [joinColons_singleton] at h
          exact .inr ⟨w, List.mem_singleton_self w, h⟩
      | cons w' words =>
          rw [joinColons_cons_cons, List.mem_append, List.mem_cons] at h
          rcases h with h | rfl | h
          · exact .inr ⟨w, List.mem_cons_self, h⟩
          · exact .inl rfl
          · rcases ih h with rfl | ⟨v, hv, hc⟩
            · exact .inl rfl
            · exact .inr ⟨v, List.mem_cons_of_mem w hv, hc⟩

theorem mem_text {c : Char} (h : c ∈ p.text) : c = ':' ∨ ∃ w ∈ p.words, c ∈ w := by
  have hcolon : ∀ present, c ∈ colon present → c = ':' := by
    intro present hc
    cases present with
    | false => exact absurd hc List.not_mem_nil
    | true => exact List.mem_singleton.mp hc
  have hjoin : ∀ words, (∀ w ∈ words, w ∈ p.words) → c ∈ joinColons words →
      c = ':' ∨ ∃ w ∈ p.words, c ∈ w := by
    intro words hsub hc
    rcases mem_joinColons hc with hc | ⟨w, hw, hc⟩
    · exact .inl hc
    · exact .inr ⟨w, hsub w hw, hc⟩
  have hfront : ∀ w ∈ p.front, w ∈ p.words := fun w hw => List.mem_append_left _ hw
  cases hback : p.back with
  | none =>
      rw [p.text_of_none hback, List.mem_append, List.mem_append] at h
      rcases h with (h | h) | h
      · exact .inl (hcolon _ h)
      · exact hjoin p.front hfront h
      · exact .inl (hcolon _ h)
  | some back =>
      have hwords : ∀ w ∈ back, w ∈ p.words := by
        intro w hw
        rw [words, hback]
        exact List.mem_append_right _ hw
      rw [p.text_of_some hback, frontText] at h
      simp only [List.mem_append, List.mem_cons, List.not_mem_nil, or_false, or_self] at h
      rcases h with (h | h) | h | h | h
      · exact .inl (hcolon _ h)
      · exact hjoin p.front hfront h
      · exact .inl h
      · exact hjoin back hwords h
      · exact .inl (hcolon _ h)

/-- Words between single colons. -/
def plain (words : List Str) (h : Clean words) : Spelling :=
  ⟨false, words, none, false, h, List.forall_mem_nil _, by simp, by simp⟩

/-- Words around a pair of colons. -/
def around (front back : List Str) (hfront : Clean front) (hback : Clean back) : Spelling :=
  ⟨false, front, some back, false, hfront, hback, by simp, by simp⟩

@[simp] theorem text_plain {words : List Str} (h : Clean words) :
    (plain words h).text = joinColons words := by
  simp [plain, text, frontText, colon]

@[simp] theorem words_plain {words : List Str} (h : Clean words) :
    (plain words h).words = words := by
  simp [plain, Spelling.words]

@[simp] theorem text_around {front back : List Str} (hfront : Clean front) (hback : Clean back) :
    (around front back hfront hback).text = joinColons front ++ ':' :: ':' :: joinColons back := by
  simp [around, text, frontText, colon]

@[simp] theorem words_around {front back : List Str} (hfront : Clean front) (hback : Clean back) :
    (around front back hfront hback).words = front ++ back := by
  simp [around, Spelling.words]

end Spelling

/-- No second pair of colons begins in the text, not even inside the first. -/
def OncePair (s : Str) : Prop :=
  ∀ before behind, splitFirst [':', ':'] s = some (before, behind) →
    ¬[':', ':'] <:+: ':' :: behind

theorem Spelling.splitFirst_text (p : Spelling) :
    splitFirst [':', ':'] p.text =
      p.back.map (fun back => (p.frontText, joinColons back ++ colon p.trail)) := by
  cases hback : p.back with
  | none =>
      rw [p.text_of_none hback]
      refine splitFirst_eq_none_of_not_infix (no_pair_of_clean p.clean_front _ _ ?_)
      rintro hnil ⟨-, htrail⟩
      have hlast := p.trail_last htrail
      rw [hback] at hlast
      exact hlast hnil
  | some back =>
      rw [p.text_of_some hback]
      refine splitFirst_append (by simp) ?_
      refine no_pair_of_clean p.clean_front p.lead true ?_
      rintro hnil ⟨hlead, -⟩
      exact p.lead_front (by rw [hback]; rfl) hlead hnil

theorem Spelling.oncePair (p : Spelling) : OncePair p.text := by
  intro before behind hsplit
  rw [p.splitFirst_text] at hsplit
  obtain ⟨back, hback, hparts⟩ := Option.map_eq_some_iff.mp hsplit
  obtain ⟨-, rfl⟩ := Prod.mk.inj hparts
  have hclean := p.clean_back
  have htrail := p.trail_last
  rw [hback] at hclean htrail
  have hnot := no_pair_of_clean hclean true p.trail (fun hnil hends => htrail hends.2 hnil)
  rwa [List.append_assoc] at hnot

/-- Where no second pair begins, the text is the text of a spelling. -/
theorem exists_spelling {s : Str} (h : OncePair s) : ∃ p : Spelling, p.text = s := by
  cases hsplit : splitFirst [':', ':'] s with
  | none =>
      have hnone : ¬[':', ':'] <:+: s := by
        rw [← isSome_splitFirst_iff, hsplit]
        simp
      obtain ⟨lead, words, trail, rfl, hclean, htrail⟩ := exists_words_of_not_pair hnone
      refine ⟨⟨lead, words, none, trail, hclean, List.forall_mem_nil _, by simp, ?_⟩, rfl⟩
      intro ht hnil
      rw [htrail hnil] at ht
      contradiction
  | some parts =>
      obtain ⟨before, behind⟩ := parts
      have hs := eq_of_splitFirst hsplit
      have hbehind := h before behind hsplit
      -- nothing before the pair ends in a colon, nothing behind it begins with one
      have hbefore : ¬[':', ':'] <:+: before ++ [':'] := by
        intro hpair
        obtain ⟨b, b', hfirst, hlen⟩ := exists_splitFirst_of_infix (':' :: behind) hpair
        have hsame : before ++ [':'] ++ ':' :: behind = s := by rw [hs]; simp
        rw [hsame, hsplit] at hfirst
        obtain ⟨rfl, -⟩ := Prod.mk.inj (Option.some.inj hfirst)
        simp at hlen
      obtain ⟨lead, front, trail, hfront, hcleanFront, htrailFront⟩ :=
        exists_words_of_not_pair
          (fun hpair => hbefore (hpair.trans (List.prefix_append before [':']).isInfix))
      obtain ⟨lead', back, trail', hback, hcleanBack, htrailBack⟩ :=
        exists_words_of_not_pair
          (fun hpair => hbehind (hpair.trans (List.suffix_cons ':' behind).isInfix))
      have htrail : trail = false := by
        cases trail with
        | false => rfl
        | true =>
            refine absurd ⟨colon lead ++ joinColons front, [], ?_⟩ hbefore
            rw [hfront]
            simp [colon]
      have hlead' : lead' = false := by
        cases lead' with
        | false => rfl
        | true =>
            refine absurd ⟨[], joinColons back ++ colon trail', ?_⟩ hbehind
            rw [hback]
            simp [colon]
      subst htrail hlead'
      have htext : s = colon lead ++ joinColons front ++
          ':' :: ':' :: (joinColons back ++ colon trail') := by
        rw [hs, hfront, hback]
        simp [colon]
      refine ⟨⟨lead, front, some back, trail', hcleanFront, hcleanBack, ?_, ?_⟩, ?_⟩
      · rintro - hlead hnil
        subst hlead hnil
        refine hbefore ⟨[], [], ?_⟩
        rw [hfront]
        simp [colon]
      · intro ht hnil
        rw [htrailBack hnil] at ht
        contradiction
      · exact htext.symm

/-- A search for a pair of colons that goes on inside the first one it finds. -/
theorem secondPair_iff (s : Str) :
    ((suffixFrom "::" s).bind (fun rest => suffixFrom "::" rest.tail)).isSome = true ↔
      ¬OncePair s := by
  have hpair : ("::" : Str) = [':', ':'] := rfl
  rw [hpair, suffixFrom_eq_map_splitFirst]
  unfold OncePair
  cases hsplit : splitFirst [':', ':'] s with
  | none => simp
  | some parts =>
      obtain ⟨before, behind⟩ := parts
      have htail : ([':', ':'] ++ behind).tail = ':' :: behind := rfl
      rw [Option.map_some, Option.bind_some, htail, isSome_suffixFrom_iff]
      constructor
      · intro hinfix h
        exact h before behind rfl hinfix
      · intro h
        by_contra hnot
        refine h (fun before' behind' heq => ?_)
        obtain ⟨-, rfl⟩ := Prod.mk.inj (Option.some.inj heq)
        exact hnot

end Crate.Foundation
