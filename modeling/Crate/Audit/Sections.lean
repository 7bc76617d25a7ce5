import Crate.Audit.Probe

/-!
# Reading sections

What a line of the probe's output does to the sections read so far: a line
without the mark is added to the current section, a line with the mark opens
one, and the section that is read last under a name is the one that counts.
-/

namespace Crate.JailAuditPure

open Crate.Foundation

/-! ## Lines -/

/-- The lines of a text that a line end closes, and what stands behind the last one. -/
def scan : Str → Str → List Str × Str
  | cur, [] => ([], cur)
  | cur, c :: rest =>
      if c = '\n' then (cur :: (scan [] rest).1, (scan [] rest).2)
      else if c = '\r' then scan cur rest
      else scan (cur ++ [c]) rest

def whole (rest : Str) : List Str := if rest = [] then [] else [rest]

theorem linesLoop_append (cur a b : Str) :
    linesLoop cur (a ++ b) = (scan cur a).1 ++ linesLoop (scan cur a).2 b := by
  induction a generalizing cur with
  | nil => rfl
  | cons c a ih =>
      simp only [List.cons_append, linesLoop, scan]
      split
      · rw [ih]
        rfl
      · split
        · exact ih cur
        · exact ih (cur ++ [c])

theorem linesLoop_eq (cur a : Str) : linesLoop cur a = (scan cur a).1 ++ whole (scan cur a).2 := by
  have happ := linesLoop_append cur a []
  rwa [List.append_nil] at happ

theorem lines_eq (text : Str) : lines text = (scan [] text).1 ++ whole (scan [] text).2 :=
  linesLoop_eq [] text

theorem scan_word {word : Str} (hn : '\n' ∉ word) (hr : '\r' ∉ word) (cur : Str) :
    scan cur word = ([], cur ++ word) := by
  induction word generalizing cur with
  | nil => simp [scan]
  | cons c word ih =>
      rw [List.mem_cons, not_or] at hn hr
      rw [scan, if_neg fun h => hn.1 h.symm, if_neg fun h => hr.1 h.symm, ih hn.2 hr.2]
      simp

theorem linesLoop_word {word : Str} (hn : '\n' ∉ word) (hr : '\r' ∉ word) (cur rest : Str) :
    linesLoop cur (word ++ '\n' :: rest) = (cur ++ word) :: linesLoop [] rest := by
  rw [linesLoop_append, scan_word hn hr]
  rfl

/-- What a line begins with goes to its first line. -/
theorem scan_append_cur (pre cur text : Str) :
    scan (pre ++ cur) text =
      match scan cur text with
      | ([], rest) => ([], pre ++ rest)
      | (first :: others, rest) => ((pre ++ first) :: others, rest) := by
  induction text generalizing cur with
  | nil => rfl
  | cons c text ih =>
      simp only [scan]
      split
      · rfl
      · split
        · exact ih cur
        · rw [List.append_assoc]
          exact ih (cur ++ [c])

theorem newline_not_mem_scan (text : Str) {cur : Str} (h : '\n' ∉ cur) :
    (∀ l ∈ (scan cur text).1, '\n' ∉ l) ∧ '\n' ∉ (scan cur text).2 := by
  induction text generalizing cur with
  | nil => exact ⟨fun _ hl => absurd hl List.not_mem_nil, h⟩
  | cons c text ih =>
      simp only [scan]
      split
      · obtain ⟨hlines, hrest⟩ := @ih [] List.not_mem_nil
        exact ⟨List.forall_mem_cons.mpr ⟨h, hlines⟩, hrest⟩
      · rename_i hc
        split
        · exact ih h
        · apply ih
          rw [List.mem_append, List.mem_singleton, not_or]
          exact ⟨h, fun heq => hc heq.symm⟩

/-- Carriage returns aside, the text is empty or ends with a line end. -/
def endsLine (text : Str) : Bool := (text.filter (· ≠ '\r')).getLast?.all (· = '\n')

theorem endsLine_iff (text : Str) : endsLine text = true ↔ (scan [] text).2 = [] := by
  have hloop : ∀ cur : Str, (scan cur text).2 = [] ↔
      (text.filter (· ≠ '\r')).getLast?.all (· = '\n') = true ∧
        (text.filter (· ≠ '\r') = [] → cur = []) := by
    induction text with
    | nil => simp [scan]
    | cons c text ih =>
        intro cur
        simp only [scan]
        split
        · rename_i hc
          rw [ih [], List.filter_cons_of_pos (by simp [hc])]
          cases text.filter (· ≠ '\r') with
          | nil => simp [hc]
          | cons d rest => simp
        · rename_i hc
          split
          · rename_i hr
            rw [ih cur, List.filter_cons_of_neg (by simp [hr])]
          · rename_i hr
            rw [ih (cur ++ [c]), List.filter_cons_of_pos (by simpa using hr)]
            cases text.filter (· ≠ '\r') with
            | nil => simp [hc]
            | cons d rest => simp
  rw [hloop [], endsLine]
  simp

/-- The text of a section with these lines. -/
def sectionText (ls : List Str) : Str := ls.flatMap (· ++ "\n")

theorem sectionText_append (a b : List Str) :
    sectionText (a ++ b) = sectionText a ++ sectionText b :=
  List.flatMap_append

theorem sectionText_injective {a b : List Str} (ha : ∀ l ∈ a, '\n' ∉ l) (hb : ∀ l ∈ b, '\n' ∉ l)
    (h : sectionText a = sectionText b) : a = b := by
  have hsplit := congrArg (List.splitOn '\n') h
  have hread : ∀ ls : List Str, (∀ l ∈ ls, '\n' ∉ l) →
      (sectionText ls).splitOn '\n' = ls ++ [[]] := by
    rintro ls hls
    have hmap := splitOn_flatMap_snoc id ls hls
    rwa [List.map_id] at hmap
  rw [hread a ha, hread b hb] at hsplit
  exact List.append_cancel_right hsplit

/-! ## Marker lines -/

def Marked (raw : Str) : Prop := startsWith raw "@@" = true

instance (raw : Str) : Decidable (Marked raw) := inferInstanceAs (Decidable (_ = true))

/-- The section that a marker line opens, and what the line carries. -/
def naming (raw : Str) : Option (Str × Str) :=
  let marker := trim (raw.drop 2)
  let name := marker.takeWhile (· ≠ ' ')
  if Marked raw ∧ startsWith marker "rc=" = false ∧ name ≠ [] then
    some (name, trim (marker.dropWhile (· ≠ ' ')).tail)
  else none

theorem marked_iff {raw : Str} : Marked raw ↔ ∃ rest, raw = '@' :: '@' :: rest := by
  rw [Marked, startsWith, List.isPrefixOf_iff_prefix]
  constructor
  · rintro ⟨rest, rfl⟩
    exact ⟨rest, rfl⟩
  · rintro ⟨rest, rfl⟩
    exact ⟨rest, rfl⟩

theorem marked_of_naming {raw name arg : Str} (h : naming raw = some (name, arg)) : Marked raw := by
  unfold naming at h
  dsimp only at h
  split at h
  · rename_i hcond
    exact hcond.1
  · contradiction

theorem name_ne_nil {raw name arg : Str} (h : naming raw = some (name, arg)) : name ≠ [] := by
  unfold naming at h
  dsimp only at h
  split at h
  · rename_i hcond
    cases h
    exact hcond.2.2
  · contradiction

section Line

variable {sections : Sections} {cur raw : Str}

theorem splitLine_plain (h : ¬Marked raw) (hcur : cur ≠ []) :
    splitLine (sections, cur) raw = (appendTo sections cur (raw ++ "\n"), cur) := by
  have hplain : startsWith raw "@@" = false := Bool.not_eq_true _ ▸ h
  simp only [splitLine, hplain]
  exact if_pos hcur

theorem splitLine_named {name arg : Str} (h : naming raw = some (name, arg)) :
    splitLine (sections, cur) raw = (sections.insert name (argText arg), name) := by
  unfold naming at h
  dsimp only at h
  split at h
  · rename_i hcond
    cases h
    have hmark : startsWith raw "@@" = true := hcond.1
    simp only [splitLine, hmark, hcond.2.1, if_true, if_neg hcond.2.2]
    rfl
  · contradiction

/-- Any other line keeps the current section, and adds text only to it or to its exit code. -/
theorem splitLine_unnamed (sections : Sections) (cur : Str) (h : naming raw = none) :
    splitLine (sections, cur) raw = (sections, cur) ∨
      (∃ rc, splitLine (sections, cur) raw = (sections.insert (cur ++ ".rc") rc, cur)) ∨
      (¬Marked raw ∧ cur ≠ [] ∧
        splitLine (sections, cur) raw = (appendTo sections cur (raw ++ "\n"), cur)) := by
  by_cases hmark : Marked raw
  · have hstart : startsWith raw "@@" = true := hmark
    simp only [splitLine, hstart, if_true]
    split
    · split
      · exact .inr (.inl ⟨_, rfl⟩)
      · exact .inl rfl
    · rename_i hrc
      rw [Bool.not_eq_true] at hrc
      have hname : (trim (raw.drop 2)).takeWhile (· ≠ ' ') = [] := by
        by_contra hne
        rw [naming, if_pos ⟨hmark, hrc, hne⟩] at h
        contradiction
      rw [if_pos hname]
      exact .inl rfl
  · by_cases hcur : cur = []
    · left
      have hplain : startsWith raw "@@" = false := Bool.not_eq_true _ ▸ hmark
      simp only [splitLine, hplain, hcur]
      rfl
    · exact .inr (.inr ⟨hmark, hcur, splitLine_plain hmark hcur⟩)

end Line

/-! ## Runs of lines -/

section Run

variable {n : Str} (hdot : '.' ∉ n)

include hdot

theorem ne_rc (cur : Str) : cur ++ ".rc" ≠ n := by
  rintro rfl
  exact hdot (by simp)

theorem find?_splitLine_ne {sections : Sections} {cur raw : Str} (hcur : cur ≠ n)
    (h : ∀ arg, naming raw ≠ some (n, arg)) :
    (splitLine (sections, cur) raw).1.find? n = sections.find? n ∧
      (splitLine (sections, cur) raw).2 ≠ n := by
  cases hname : naming raw with
  | none =>
      rcases splitLine_unnamed sections cur hname with
        hsame | ⟨rc, hrc⟩ | ⟨-, -, hadd⟩
      · rw [hsame]
        exact ⟨rfl, hcur⟩
      · rw [hrc]
        exact ⟨OrdMap.find?_insert_ne (ne_rc hdot cur) _ _, hcur⟩
      · rw [hadd]
        exact ⟨OrdMap.find?_insert_ne hcur _ _, hcur⟩
  | some found =>
      obtain ⟨name, arg⟩ := found
      have hne : name ≠ n := by
        rintro rfl
        exact h arg hname
      rw [splitLine_named hname]
      exact ⟨OrdMap.find?_insert_ne hne _ _, hne⟩

/-- A section that is not open and not named again keeps its text. -/
theorem find?_foldl_ne {ls : List Str} (h : ∀ raw ∈ ls, ∀ arg, naming raw ≠ some (n, arg))
    {state : Sections × Str} (hcur : state.2 ≠ n) :
    (ls.foldl splitLine state).1.find? n = state.1.find? n := by
  induction ls generalizing state with
  | nil => rfl
  | cons raw ls ih =>
      obtain ⟨hfind, hnext⟩ := @find?_splitLine_ne n hdot state.1 state.2 raw hcur
        (h raw List.mem_cons_self)
      rw [List.foldl_cons, ih (fun l hl => h l (List.mem_cons_of_mem raw hl)) hnext, hfind]

/-- A section that is not named again only grows. -/
theorem find?_foldl_grows {ls : List Str} (h : ∀ raw ∈ ls, ∀ arg, naming raw ≠ some (n, arg))
    {state : Sections × Str} {v : Str} (hv : state.1.find? n = some v) :
    ∃ more, (ls.foldl splitLine state).1.find? n = some (v ++ more) := by
  induction ls generalizing state v with
  | nil => exact ⟨[], by simpa using hv⟩
  | cons raw ls ih =>
      have hstep : ∃ more, (splitLine state raw).1.find? n = some (v ++ more) := by
        by_cases hcur : state.2 = n
        · obtain ⟨sections, cur⟩ := state
          cases hname : naming raw with
          | none =>
              rcases splitLine_unnamed sections cur hname with
                hsame | ⟨rc, hrc⟩ | ⟨-, -, hadd⟩
              · exact ⟨[], by rw [hsame, List.append_nil, hv]⟩
              · refine ⟨[], ?_⟩
                rw [hrc, OrdMap.find?_insert_ne (ne_rc hdot cur), List.append_nil, hv]
              · refine ⟨raw ++ "\n", ?_⟩
                subst hcur
                rw [hadd, appendTo, OrdMap.find?_insert_self, hv]
                rfl
          | some found =>
              obtain ⟨name, arg⟩ := found
              have hne : name ≠ n := by
                rintro rfl
                exact h raw List.mem_cons_self arg hname
              refine ⟨[], ?_⟩
              rw [splitLine_named hname, OrdMap.find?_insert_ne hne, List.append_nil, hv]
        · refine ⟨[], ?_⟩
          rw [List.append_nil, ← hv]
          exact (find?_splitLine_ne hdot hcur (h raw List.mem_cons_self)).1
      obtain ⟨more, hmore⟩ := hstep
      obtain ⟨rest, hrest⟩ := ih (fun l hl => h l (List.mem_cons_of_mem raw hl)) hmore
      exact ⟨more ++ rest, by rw [List.foldl_cons, hrest, List.append_assoc]⟩

/-- The current section is there. -/
theorem exists_find?_cur {ls : List Str} (hne : n ≠ [])
    (h : (ls.foldl splitLine (.empty, [])).2 = n) :
    ∃ v, (ls.foldl splitLine (.empty, [])).1.find? n = some v := by
  induction ls using List.reverseRecOn with
  | nil => exact absurd h.symm hne
  | append_singleton ls raw ih =>
      rw [List.foldl_append, List.foldl_cons, List.foldl_nil] at h ⊢
      cases hstate : ls.foldl splitLine (.empty, []) with
      | mk sections cur =>
          rw [hstate] at h ih
          cases hname : naming raw with
          | some found =>
              rw [splitLine_named hname] at h ⊢
              have hn : found.1 = n := h
              rw [hn]
              exact ⟨_, OrdMap.find?_insert_self _ _ _⟩
          | none =>
              rcases splitLine_unnamed sections cur hname with
                hsame | ⟨rc, hrc⟩ | ⟨-, -, hadd⟩
              · rw [hsame] at h ⊢
                exact ih h
              · rw [hrc] at h ⊢
                obtain ⟨v, hv⟩ := ih h
                exact ⟨v, (OrdMap.find?_insert_ne (ne_rc hdot cur) _ _).trans hv⟩
              · rw [hadd] at h ⊢
                have hn : cur = n := h
                rw [hn]
                exact ⟨_, OrdMap.find?_insert_self _ _ _⟩

/-- What stands in a section: what its marker line carries, and lines without the mark. -/
theorem shape_of_find? {ls : List Str} {v : Str}
    (h : (ls.foldl splitLine (.empty, [])).1.find? n = some v) :
    ∃ raw ∈ ls, ∃ arg, naming raw = some (n, arg) ∧
      ∃ plain : List Str, (∀ l ∈ plain, l ∈ ls ∧ ¬Marked l) ∧
        v = argText arg ++ sectionText plain := by
  induction ls using List.reverseRecOn generalizing v with
  | nil => simp at h
  | append_singleton ls raw ih =>
      rw [List.foldl_append, List.foldl_cons, List.foldl_nil] at h
      -- a section that the last line leaves alone
      have hkeep : (ls.foldl splitLine (.empty, [])).1.find? n = some v →
          ∃ r ∈ ls ++ [raw], ∃ arg, naming r = some (n, arg) ∧ ∃ plain : List Str,
            (∀ l ∈ plain, l ∈ ls ++ [raw] ∧ ¬Marked l) ∧ v = argText arg ++ sectionText plain := by
        intro hbefore
        obtain ⟨r, hr, arg, hname, plain, hplain, hv⟩ := ih hbefore
        exact ⟨r, List.mem_append_left _ hr, arg, hname, plain,
          fun l hl => ⟨List.mem_append_left _ (hplain l hl).1, (hplain l hl).2⟩, hv⟩
      have hopen := @exists_find?_cur n hdot ls
      cases hstate : ls.foldl splitLine (.empty, []) with
      | mk sections cur =>
          rw [hstate] at h hkeep ih hopen
          cases hname : naming raw with
          | some found =>
              obtain ⟨name, arg⟩ := found
              rw [splitLine_named hname] at h
              by_cases hn : name = n
              · rw [hn, OrdMap.find?_insert_self, Option.some.injEq] at h
                rw [hn] at hname
                exact ⟨raw, by simp, arg, hname, [], by simp, by simp [← h, sectionText]⟩
              · rw [OrdMap.find?_insert_ne hn] at h
                exact hkeep h
          | none =>
              rcases splitLine_unnamed sections cur hname with
                hsame | ⟨rc, hrc⟩ | ⟨hmark, hcur, hadd⟩
              · rw [hsame] at h
                exact hkeep h
              · rw [hrc, OrdMap.find?_insert_ne (ne_rc hdot cur)] at h
                exact hkeep h
              · rw [hadd, appendTo] at h
                by_cases hn : cur = n
                · -- the line goes to the end of this section
                  obtain ⟨before, hbefore⟩ := hopen (hn ▸ hcur) hn
                  obtain ⟨r, hr, arg, hnamed, plain, hplain, hv⟩ := ih hbefore
                  rw [hn, OrdMap.find?_insert_self, hbefore, Option.some.injEq] at h
                  refine ⟨r, List.mem_append_left _ hr, arg, hnamed, plain ++ [raw], ?_, ?_⟩
                  · rintro l hl
                    rcases List.mem_append.mp hl with hl | hl
                    · exact ⟨List.mem_append_left _ (hplain l hl).1, (hplain l hl).2⟩
                    · rw [List.mem_singleton.mp hl]
                      exact ⟨by simp, hmark⟩
                  · rw [← h, Option.getD_some, hv, sectionText_append, List.append_assoc]
                    simp [sectionText]
                · rw [OrdMap.find?_insert_ne hn] at h
                  exact hkeep h

end Run

/-- Lines without the mark go to the current section, one behind the other. -/
theorem foldl_plain {ls : List Str} (h : ∀ l ∈ ls, ¬Marked l) {sections : Sections} {cur v : Str}
    (hcur : cur ≠ []) :
    ls.foldl splitLine (sections.insert cur v, cur) =
      (sections.insert cur (v ++ sectionText ls), cur) := by
  induction ls generalizing v with
  | nil => simp [sectionText]
  | cons l ls ih =>
      have hadd : appendTo (sections.insert cur v) cur (l ++ "\n") =
          sections.insert cur (v ++ (l ++ "\n")) := by
        apply OrdMap.ext_find?
        rintro key
        rw [appendTo, OrdMap.find?_insert_self, Option.getD_some]
        by_cases hkey : cur = key
        · rw [hkey, OrdMap.find?_insert_self, OrdMap.find?_insert_self]
        · rw [OrdMap.find?_insert_ne hkey, OrdMap.find?_insert_ne hkey, OrdMap.find?_insert_ne hkey]
      rw [List.foldl_cons, splitLine_plain (h l List.mem_cons_self) hcur, hadd,
        ih fun k hk => h k (List.mem_cons_of_mem l hk), List.append_assoc]
      rfl

/-! ## Counting in a marker line -/

theorem trim_parts (s : Str) : ∃ a b, s = a ++ (trim s ++ b) ∧
    (∀ c ∈ a, isSpace c = true) ∧ ∀ c ∈ b, isSpace c = true := by
  refine ⟨s.takeWhile isSpace, (s.dropWhile isSpace).rtakeWhile isSpace, ?_, ?_, ?_⟩
  · rw [trim, List.rdropWhile_append_rtakeWhile, List.takeWhile_append_dropWhile]
  · exact fun c hc => List.mem_takeWhile_imp hc
  · exact fun c hc => List.mem_rtakeWhile_imp hc

theorem count_trim_of_not_space {c : Char} (hc : isSpace c = false) (s : Str) :
    (trim s).count c = s.count c := by
  obtain ⟨a, b, hs, ha, hb⟩ := trim_parts s
  have hnot : ∀ t : Str, (∀ d ∈ t, isSpace d = true) → t.count c = 0 := by
    rintro t ht
    apply List.count_eq_zero_of_not_mem
    intro hmem
    rw [ht c hmem] at hc
    contradiction
  conv_rhs => rw [hs]
  rw [List.count_append, List.count_append, hnot a ha, hnot b hb, Nat.zero_add, Nat.add_zero]

theorem infix_of_trim (s : Str) : trim s <:+: s := by
  obtain ⟨a, b, hs, -, -⟩ := trim_parts s
  exact ⟨a, b, by rw [List.append_assoc]; exact hs.symm⟩

/-- What a marker line carries is on the line, behind the name and a blank. -/
theorem count_of_naming {raw name arg : Str} (h : naming raw = some (name, arg)) (harg : arg ≠ []) :
    raw.count 'w' = name.count 'w' + arg.count 'w' ∧ arg.count ' ' < raw.count ' ' := by
  obtain ⟨rest, rfl⟩ := marked_iff.mp (marked_of_naming h)
  unfold naming at h
  dsimp only at h
  split at h
  · obtain ⟨hname, hargument⟩ := Prod.mk.inj (Option.some.inj h)
    obtain ⟨marker, hmarker⟩ : ∃ marker, trim (('@' :: '@' :: rest).drop 2) = marker := ⟨_, rfl⟩
    rw [hmarker] at hname hargument
    have hparts : marker = name ++ marker.dropWhile (· ≠ ' ') := by
      rw [← hname, List.takeWhile_append_dropWhile]
    cases hdrop : marker.dropWhile (· ≠ ' ') with
    | nil =>
        rw [hdrop] at hargument
        exact absurd hargument.symm harg
    | cons c behind =>
        have hblank : c = ' ' := by
          have hhead := List.head?_dropWhile_not (· ≠ ' ') marker
          rw [hdrop] at hhead
          simpa using hhead
        rw [hdrop, List.tail_cons] at hargument
        rw [hdrop, hblank] at hparts
        have hdropped : ('@' :: '@' :: rest).drop 2 = rest := rfl
        rw [hdropped] at hmarker
        have hw : rest.count 'w' = name.count 'w' + behind.count 'w' := by
          rw [← count_trim_of_not_space rfl rest, hmarker, hparts, List.count_append,
            List.count_cons_of_ne (by decide)]
        have hwarg : behind.count 'w' = arg.count 'w' := by
          rw [← hargument, count_trim_of_not_space rfl]
        have hblanks : marker.count ' ' ≤ rest.count ' ' := by
          rw [← hmarker]
          exact (infix_of_trim rest).sublist.count_le ' '
        have hbehind : arg.count ' ' ≤ behind.count ' ' := by
          rw [← hargument]
          exact (infix_of_trim behind).sublist.count_le ' '
        rw [hparts, List.count_append, List.count_cons_self] at hblanks
        rw [List.count_cons_of_ne (by decide), List.count_cons_of_ne (by decide),
          List.count_cons_of_ne (by decide), List.count_cons_of_ne (by decide)]
        omega
  · contradiction

theorem arg_subset {raw name arg : Str} (h : naming raw = some (name, arg)) : arg ⊆ raw := by
  unfold naming at h
  dsimp only at h
  split at h
  · obtain ⟨-, hargument⟩ := Prod.mk.inj (Option.some.inj h)
    rw [← hargument]
    intro c hc
    have hbehind := List.mem_of_mem_tail ((infix_of_trim _).subset hc)
    have hmarker := (infix_of_trim _).subset ((List.dropWhile_suffix _).subset hbehind)
    exact List.mem_of_mem_drop hmarker
  · contradiction

/-! ## Names of marker lines -/

/-- No white space at either end. -/
structure Trimmed (t : Str) : Prop where
  head : ∀ c, t.head? = some c → isSpace c = false
  last : ∀ c, t.getLast? = some c → isSpace c = false

theorem trimmed_trim (s : Str) : Trimmed (trim s) := by
  constructor
  · intro c hc
    obtain ⟨rest, hcons⟩ := List.head?_eq_some_iff.mp hc
    have hdrop : (trim s).dropWhile isSpace = trim s := dropWhile_rdropWhile_dropWhile isSpace s
    rw [hcons, List.dropWhile_cons] at hdrop
    split at hdrop
    · have hlength := (List.dropWhile_suffix (l := rest) isSpace).length_le
      rw [hdrop, List.length_cons] at hlength
      omega
    · rename_i hspace
      simpa using hspace
  · intro c hc
    have hne : trim s ≠ [] := by
      intro hnil
      rw [hnil] at hc
      contradiction
    have hlast := List.rdropWhile_last_not isSpace (s.dropWhile isSpace) hne
    rw [List.getLast?_eq_some_getLast hne, Option.some.injEq] at hc
    rw [← hc]
    exact Bool.not_eq_true _ ▸ hlast

theorem trim_append {a t b : Str} (ha : ∀ c ∈ a, isSpace c = true) (ht : Trimmed t)
    (hb : ∀ c ∈ b, isSpace c = true) : trim (a ++ (t ++ b)) = t := by
  cases hcase : t with
  | nil =>
      have hall : ∀ c ∈ a ++ ([] ++ b), isSpace c = true := by
        rintro c hc
        rcases List.mem_append.mp hc with hc | hc
        · exact ha c hc
        · exact hb c hc
      rw [trim, List.dropWhile_eq_nil_iff.mpr hall]
      rfl
  | cons c rest =>
      have hc := ht.head c (by rw [hcase]; rfl)
      have hfront : (a ++ (c :: rest ++ b)).dropWhile isSpace = c :: rest ++ b := by
        rw [List.dropWhile_append_of_pos ha, List.cons_append,
          List.dropWhile_cons_of_neg (by simp [hc])]
      have hback : (c :: rest ++ b).rdropWhile isSpace = (c :: rest).rdropWhile isSpace := by
        rw [List.rdropWhile, List.reverse_append, List.dropWhile_append_of_pos (by simpa using hb)]
        rfl
      rw [trim, hfront, hback, List.rdropWhile_eq_self_iff]
      intro hne
      rw [ht.last _ (by rw [hcase, List.getLast?_eq_some_getLast hne])]
      simp

theorem trim_of_trimmed {t : Str} (ht : Trimmed t) : trim t = t := by
  have hsame := trim_append (a := []) (b := []) (by simp) ht (by simp)
  rwa [List.append_nil] at hsame

theorem trimmed_of_no_space {t : Str} (h : ∀ c ∈ t, isSpace c = false) : Trimmed t :=
  ⟨fun c hc => h c (List.mem_of_mem_head? hc), fun c hc => h c (List.mem_of_getLast? hc)⟩

/-- A marker line for the gateway: the name, a blank and the value without the blanks around it. -/
theorem naming_gw (value : Str) : naming (("@@gw " : Str) ++ value) =
    some (("gw" : Str), trim value) := by
  have hgw : Trimmed "gw" := trimmed_of_no_space
    (List.forall_mem_cons.mpr ⟨rfl, List.forall_mem_singleton.mpr rfl⟩)
  obtain ⟨a, b, hvalue, ha, hb⟩ := trim_parts value
  have hdrop : (("@@gw " : Str) ++ value).drop 2 = [] ++ (("gw" : Str) ++ ' ' :: value) := rfl
  cases htrim : trim value with
  | nil =>
      have hspace : ∀ c ∈ ' ' :: value, isSpace c = true := by
        rw [htrim] at hvalue
        rintro c hc
        rcases List.mem_cons.mp hc with rfl | hc
        · rfl
        · rw [hvalue] at hc
          rcases List.mem_append.mp hc with hc | hc
          · exact ha c hc
          · exact hb c hc
      have hmarker : trim ((("@@gw " : Str) ++ value).drop 2) = "gw" := by
        rw [hdrop]
        exact trim_append (by simp) hgw hspace
      rw [naming, hmarker]
      rfl
  | cons c rest =>
      have hends := trimmed_trim value
      rw [htrim] at hends hvalue
      have hmarked : Trimmed (("gw" : Str) ++ ' ' :: (a ++ c :: rest)) := by
        constructor
        · intro d hd
          obtain rfl : 'g' = d := Option.some.inj hd
          rfl
        · intro d hd
          have hfront : ("gw" : Str) ++ ' ' :: (a ++ c :: rest) =
              ("gw" : Str) ++ ' ' :: a ++ c :: rest := by simp
          rw [hfront, List.getLast?_append_of_ne_nil _ (by simp)] at hd
          exact hends.last d hd
      have hmarker : trim ((("@@gw " : Str) ++ value).drop 2) =
          ("gw" : Str) ++ ' ' :: (a ++ c :: rest) := by
        have hparts : ("gw" : Str) ++ ' ' :: value =
            ("gw" : Str) ++ ' ' :: (a ++ c :: rest) ++ b := by
          rw [hvalue]
          simp
        rw [hdrop, hparts]
        exact trim_append (by simp) hmarked hb
      have hname := @takeWhile_append_cons ' ' "gw" (by decide) (a ++ c :: rest)
      have hbehind := @dropWhile_append_cons ' ' "gw" (by decide) (a ++ c :: rest)
      have harg : trim (a ++ c :: rest) = c :: rest := by
        have happ := trim_append (b := []) ha hends (by simp)
        rwa [List.append_nil] at happ
      rw [naming, hmarker, hname, hbehind, List.tail_cons, harg]
      rfl

/-- A piece of text in front of a marker takes it out of the frame, or makes it name another. -/
theorem naming_glued {p m : Str} (hp : p ≠ []) (hplain : ¬Marked p) (hm : Marked m) :
    ¬Marked (p ++ m) ∨ ∃ name arg, naming (p ++ m) = some (name, arg) ∧ name.head? = some '@' := by
  obtain ⟨rest, rfl⟩ := marked_iff.mp hm
  cases p with
  | nil => contradiction
  | cons c p =>
      cases p with
      | cons d p =>
          left
          intro hmark
          apply hplain
          obtain ⟨tail, htail⟩ := marked_iff.mp hmark
          simp only [List.cons_append, List.cons.injEq] at htail
          rw [htail.1, htail.2.1]
          exact marked_iff.mpr ⟨p, rfl⟩
      | nil =>
          by_cases hc : c = '@'
          · right
            have hmarker : ∃ tail, trim (([c] ++ '@' :: '@' :: rest).drop 2) = '@' :: tail := by
              have hfront : ('@' :: rest).dropWhile isSpace = '@' :: rest := rfl
              have hdrop : ([c] ++ '@' :: '@' :: rest).drop 2 = '@' :: rest := rfl
              have hne : ('@' :: rest).rdropWhile isSpace ≠ [] := by
                intro hnil
                exact absurd (List.rdropWhile_eq_nil_iff.mp hnil '@' List.mem_cons_self) (by decide)
              obtain ⟨d, tail, hcons⟩ := List.exists_cons_of_ne_nil hne
              have hd := List.rdropWhile_prefix isSpace ('@' :: rest)
              rw [hcons, List.cons_prefix_cons] at hd
              exact ⟨tail, by rw [hdrop, trim, hfront, hcons, hd.1]⟩
            obtain ⟨tail, htail⟩ := hmarker
            have hmark : Marked ([c] ++ '@' :: '@' :: rest) :=
              marked_iff.mpr ⟨'@' :: rest, by rw [hc]; rfl⟩
            refine ⟨('@' :: tail).takeWhile (· ≠ ' '),
              trim (('@' :: tail).dropWhile (· ≠ ' ')).tail, ?_, rfl⟩
            rw [naming, htail]
            exact if_pos ⟨hmark, rfl, by simp⟩
          · left
            intro hmark
            obtain ⟨tail, htail⟩ := marked_iff.mp hmark
            exact hc (List.cons.inj htail).1

end Crate.JailAuditPure
