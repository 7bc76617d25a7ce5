import Crate.Registry.TextForm

/-!
# The grammar of the registry file

`parse` splits the text into lines and each line into columns by hand, and reads
its numbers into a 64-bit word that is tested with `nv < v` after each digit.
The grammar below says which texts are files and what they hold without any of
this; the parser accepts exactly these texts.
-/

namespace Crate.JidOwnerRegistryPure

open Crate.Foundation

/-! ## The grammar -/

/-- The lines that are neither blank nor a comment. -/
def recordLines (lines : List Str) : List Str :=
  lines.filter (fun line => line ≠ [] ∧ line.head? ≠ some '#')

/-- The line has four columns that are not empty, and they hold this jid and this entry. -/
structure Reads (line : Str) (jid : Nat) (e : Entry) : Prop where
  columns : ∃ jidText uidText, line.splitOn '\t' = [jidText, uidText, e.name, e.path] ∧
    (allDigits jidText = true ∧ decimalValue jidText = jid) ∧
    (allDigits uidText = true ∧ decimalValue uidText = e.uid.toNat)
  jid_range : 1 ≤ jid ∧ jid ≤ 65535
  name_ne_nil : e.name ≠ []
  path_ne_nil : e.path ≠ []

def HasJid (line : Str) (jid : Nat) : Prop := ∃ e, Reads line jid e

/-- Every record line reads as an entry, and no jid occurs twice. -/
structure WellFormed (lines : List Str) : Prop where
  reads : ∀ line ∈ recordLines lines, ∃ jid e, Reads line jid e
  distinct : (recordLines lines).Pairwise (fun a b => ∀ jid, HasJid a jid → ¬HasJid b jid)

/-! ## The call with its out parameters -/

structure ParseResult where
  ok : Bool
  out : EntryMap
  err : Str
  deriving DecidableEq

def parseLinesInto : Nat → List Str → EntryMap → ParseResult
  | _, [], out => ⟨true, out, []⟩
  | lineNo, line :: rest, out =>
      if line = [] ∨ line.head? = some '#' then parseLinesInto (lineNo + 1) rest out
      else
        match parseEntry lineNo line with
        -- each failing test of a line runs `out.clear()` before it returns
        | .error err => ⟨false, .empty, err⟩
        | .ok (jid, e) =>
            if (out.find? jid).isSome then
              ⟨false, .empty, "line " ++ decimal lineNo ++ ": duplicate jid " ++ decimal jid⟩
            else parseLinesInto (lineNo + 1) rest (out.insert jid e)

/-- `parse(text, out, err)`: what `out` held before is cleared first. -/
def parseInto (_out : EntryMap) (text : Str) : ParseResult :=
  parseLinesInto 1 (text.splitOn '\n') .empty

theorem parseLinesInto_eq (lines : List Str) (lineNo : Nat) (out : EntryMap) :
    parseLinesInto lineNo lines out =
      match parseLines lineNo lines out with
      | .ok m => ⟨true, m, []⟩
      | .error err => ⟨false, .empty, err⟩ := by
  induction lines generalizing lineNo out with
  | nil => rfl
  | cons line rest ih =>
      unfold parseLinesInto parseLines
      split
      · exact ih _ _
      · cases hentry : parseEntry lineNo line with
        | error err => rfl
        | ok found =>
            dsimp only
            split
            · rfl
            · exact ih _ _

/-! ## Columns -/

theorem splitColumn_eq_some_iff {s a b : Str} :
    splitColumn s = some (a, b) ↔ s = a ++ '\t' :: b ∧ a ≠ [] ∧ '\t' ∉ a := by
  have htake : '\t' ∉ s.takeWhile (· ≠ '\t') := fun hmem => by
    simpa using List.mem_takeWhile_imp hmem
  constructor
  · intro h
    unfold splitColumn at h
    split at h
    · contradiction
    · rename_i hmem
      split at h
      · contradiction
      · rename_i hne
        obtain ⟨rfl, rfl⟩ := Prod.mk.inj (Option.some.inj h)
        exact ⟨(takeWhile_append_tail (not_not.mp hmem)).symm, hne, htake⟩
  · rintro ⟨rfl, hne, htab⟩
    exact splitColumn_append hne htab

theorem splitOn_tab_eq {a b : Str} (ha : '\t' ∉ a) :
    (a ++ '\t' :: b).splitOn '\t' = a :: b.splitOn '\t' :=
  List.splitOn_append_cons_self_of_not_mem ha b

theorem splitTabs4_eq_some_iff {line a b c d : Str} :
    splitTabs4 line = some (a, b, c, d) ↔
      line.splitOn '\t' = [a, b, c, d] ∧ a ≠ [] ∧ b ≠ [] ∧ c ≠ [] ∧ d ≠ [] := by
  constructor
  · intro h
    simp only [splitTabs4, Option.bind_eq_bind, Option.bind_eq_some_iff] at h
    obtain ⟨⟨a', rest⟩, ha, ⟨b', rest'⟩, hb, ⟨c', d'⟩, hc, hd⟩ := h
    dsimp only at hb hc hd
    split at hd
    · contradiction
    · rename_i hlast
      obtain ⟨hdne, hdtab⟩ := not_or.mp hlast
      obtain ⟨rfl, rfl, rfl, rfl⟩ : a' = a ∧ b' = b ∧ c' = c ∧ d' = d := by simpa using hd
      obtain ⟨rfl, hane, hatab⟩ := splitColumn_eq_some_iff.mp ha
      obtain ⟨rfl, hbne, hbtab⟩ := splitColumn_eq_some_iff.mp hb
      obtain ⟨rfl, hcne, hctab⟩ := splitColumn_eq_some_iff.mp hc
      refine ⟨?_, hane, hbne, hcne, hdne⟩
      rw [splitOn_tab_eq hatab, splitOn_tab_eq hbtab, splitOn_tab_eq hctab,
        List.splitOn_eq_singleton hdtab]
  · rintro ⟨hsplit, hane, hbne, hcne, hdne⟩
    have htab : ∀ word ∈ [a, b, c, d], '\t' ∉ word := by
      intro word hword
      exact not_mem_of_mem_splitOn (hsplit ▸ hword)
    have hline : line = a ++ '\t' :: (b ++ '\t' :: (c ++ '\t' :: d)) := by
      have hback : ['\t'].intercalate (line.splitOn '\t') = line := List.intercalate_splitOn '\t'
      rw [← hback, hsplit]
      simp [List.intercalate_cons_cons]
    have hlast : ¬(d = [] ∨ '\t' ∈ d) := by
      rintro (hnil | hmem)
      · exact hdne hnil
      · exact htab d (by simp) hmem
    simp only [splitTabs4, hline, splitColumn_append hane (htab a (by simp)),
      splitColumn_append hbne (htab b (by simp)), splitColumn_append hcne (htab c (by simp)),
      Option.bind_eq_bind, Option.bind_some, hlast, if_false]

/-! ## Numbers -/

/-- The test `nv < v` stops the loop whenever the word gets smaller. -/
theorem le_of_parseDecimalLoop {s : Str} {v w : UInt64} (h : parseDecimalLoop s v = some w) :
    v.toNat ≤ w.toNat := by
  induction s generalizing v with
  | nil =>
      obtain rfl : v = w := Option.some.inj h
      exact le_rfl
  | cons c rest ih =>
      simp only [parseDecimalLoop] at h
      split at h
      · contradiction
      · split at h
        · contradiction
        · rename_i hstep
          rw [UInt64.lt_iff_toNat_lt, not_lt] at hstep
          exact hstep.trans (ih h)

theorem all_digits_of_parseDecimalLoop {s : Str} {v w : UInt64}
    (h : parseDecimalLoop s v = some w) : s.all isDecimalDigit = true := by
  induction s generalizing v with
  | nil => rfl
  | cons c rest ih =>
      simp only [parseDecimalLoop] at h
      split at h
      · contradiction
      · rename_i hc
        split at h
        · contradiction
        · have hdigit : isDecimalDigit c = true := by
            simp only [Bool.or_eq_true, decide_eq_true_eq, not_or, not_lt] at hc
            simp [isDecimalDigit, hc.1, hc.2]
          rw [List.all_cons, hdigit, ih h]
          rfl

/--
A multiplication by ten can wrap around without making the word smaller, but
the word never shrinks and a small result leaves no room for a wrap before it.
-/
theorem value_of_parseDecimalLoop {s : Str} {v w : UInt64} (h : parseDecimalLoop s v = some w)
    (hsmall : w.toNat ≤ 0xFFFFFFFF) : Nat.ofDigitChars 10 s v.toNat = w.toNat := by
  induction s generalizing v with
  | nil =>
      obtain rfl : v = w := Option.some.inj h
      rfl
  | cons c rest ih =>
      have hv := le_of_parseDecimalLoop h
      have hdigits := all_digits_of_parseDecimalLoop h
      simp only [parseDecimalLoop] at h
      split at h
      · contradiction
      · split at h
        · contradiction
        · have hc : c.toNat ≤ 57 := by
            rw [List.all_cons, Bool.and_eq_true, isDecimalDigit, Bool.and_eq_true,
              decide_eq_true_eq, decide_eq_true_eq] at hdigits
            exact hdigits.1.2
          have hnv : (v * 10 + UInt64.ofNat (c.toNat - '0'.toNat)).toNat =
              10 * v.toNat + (c.toNat - '0'.toNat) := toNat_snoc_digit64 (by omega)
          rw [Nat.ofDigitChars_cons, ← hnv]
          exact ih h

/-- A number that passes the range checks is the value of its digits. -/
theorem parseDecimal_small_iff {s : Str} {w : UInt64} (hsmall : w.toNat ≤ 0xFFFFFFFF) :
    parseDecimal s = some w ↔ allDigits s = true ∧ decimalValue s = w.toNat := by
  constructor
  · intro h
    unfold parseDecimal at h
    split at h
    · contradiction
    · rename_i hne
      refine ⟨?_, value_of_parseDecimalLoop h hsmall⟩
      rw [allDigits, all_digits_of_parseDecimalLoop h]
      simpa using hne
  · rintro ⟨hdigits, hvalue⟩
    rw [allDigits, Bool.and_eq_true, Bool.not_eq_true', List.all_eq_true] at hdigits
    have hval : Nat.ofDigitChars 10 s (0 : UInt64).toNat = w.toNat := hvalue
    unfold parseDecimal
    rw [hdigits.1, if_neg Bool.false_ne_true,
      parseDecimalLoop_digits hdigits.2 _ (by rw [hval]; exact w.toNat_lt), hval,
      UInt64.ofNat_toNat]

-- the test alone lets a wrapped word through; the range checks stop it
example : parseDecimal "30000000000000000000" = some 11553255926290448384 := by decide

/-! ## One line -/

theorem Reads.unique {line : Str} {jid jid' : Nat} {e e' : Entry} (h : Reads line jid e)
    (h' : Reads line jid' e') : jid = jid' ∧ e = e' := by
  obtain ⟨jidText, uidText, hcols, ⟨-, hjid⟩, -, huid⟩ := h.columns
  obtain ⟨jidText', uidText', hcols', ⟨-, hjid'⟩, -, huid'⟩ := h'.columns
  rw [hcols, List.cons.injEq, List.cons.injEq, List.cons.injEq, List.cons.injEq] at hcols'
  obtain ⟨rfl, rfl, hname, hpath, -⟩ := hcols'
  have huids : e.uid = e'.uid := UInt32.toNat_inj.mp (huid.symm.trans huid')
  refine ⟨hjid.symm.trans hjid', ?_⟩
  cases e
  cases e'
  simp_all

theorem parseEntry_eq_ok_iff {lineNo jid : Nat} {line : Str} {e : Entry} :
    parseEntry lineNo line = .ok (jid, e) ↔ Reads line jid e := by
  constructor
  · intro h
    unfold parseEntry at h
    split at h
    · contradiction
    · rename_i col0 col1 col2 col3 hcols
      obtain ⟨hsplit, hne0, hne1, hne2, hne3⟩ := splitTabs4_eq_some_iff.mp hcols
      split at h
      · contradiction
      · rename_i jidNum hjid
        split at h
        · contradiction
        · rename_i hrange
          split at h
          · contradiction
          · rename_i uidNum huid
            split at h
            · contradiction
            · rename_i huidRange
              obtain ⟨rfl, rfl⟩ := Prod.mk.inj (Except.ok.inj h)
              rw [← UInt64.toNat_inj, gt_iff_lt, UInt64.lt_iff_toNat_lt] at hrange
              rw [gt_iff_lt, UInt64.lt_iff_toNat_lt, not_lt] at huidRange
              simp only [UInt64.reduceToNat, not_or, not_lt] at hrange huidRange
              refine ⟨⟨col0, col1, hsplit, (parseDecimal_small_iff (by omega)).mp hjid, ?_⟩,
                by omega, hne2, hne3⟩
              obtain ⟨hdigits, hvalue⟩ := (parseDecimal_small_iff huidRange).mp huid
              refine ⟨hdigits, ?_⟩
              rw [hvalue, UInt64.toNat_toUInt32]
              omega
  · rintro ⟨⟨jidText, uidText, hsplit, hjid, huid⟩, hrange, hname, hpath⟩
    have hne : ∀ s : Str, allDigits s = true → s ≠ [] := by
      rintro s hs rfl
      exact absurd hs (by decide)
    have huidLt := e.uid.toNat_lt
    have hnat : (UInt64.ofNat jid).toNat = jid := by
      rw [UInt64.toNat_ofNat']
      omega
    have hcols := splitTabs4_eq_some_iff.mpr
      ⟨hsplit, hne jidText hjid.1, hne uidText huid.1, hname, hpath⟩
    have hjidNum : parseDecimal jidText = some (UInt64.ofNat jid) :=
      (parseDecimal_small_iff (by omega)).mpr ⟨hjid.1, by rw [hnat]; exact hjid.2⟩
    have huidNum : parseDecimal uidText = some e.uid.toUInt64 :=
      (parseDecimal_small_iff (by rw [UInt32.toNat_toUInt64]; omega)).mpr
        ⟨huid.1, by rw [UInt32.toNat_toUInt64]; exact huid.2⟩
    have hjidRange : ¬(UInt64.ofNat jid = 0 ∨ UInt64.ofNat jid > 0xFFFF) := by
      rw [← UInt64.toNat_inj, gt_iff_lt, UInt64.lt_iff_toNat_lt, hnat]
      simp only [UInt64.reduceToNat]
      omega
    have huidRange : ¬e.uid.toUInt64 > 0xFFFFFFFF := by
      rw [gt_iff_lt, UInt64.lt_iff_toNat_lt, UInt32.toNat_toUInt64]
      simp only [UInt64.reduceToNat]
      omega
    unfold parseEntry
    simp only [hcols, hjidNum, huidNum, if_neg hjidRange, if_neg huidRange, hnat,
      UInt32.toUInt32_toUInt64]

/-! ## The whole file -/

theorem recordLines_cons_skip {line : Str} {rest : List Str}
    (h : line = [] ∨ line.head? = some '#') :
    recordLines (line :: rest) = recordLines rest := by
  rw [recordLines, List.filter_cons_of_neg]
  · rfl
  · rw [decide_eq_true_eq, not_and_or, not_not, not_not]
    exact h

theorem recordLines_cons_keep {line : Str} {rest : List Str}
    (h : ¬(line = [] ∨ line.head? = some '#')) :
    recordLines (line :: rest) = line :: recordLines rest := by
  rw [recordLines, List.filter_cons_of_pos]
  · rfl
  · rw [decide_eq_true_eq]
    exact not_or.mp h

/-- What a successful pass over the lines adds to the map it started from. -/
theorem parseLines_ok {lines : List Str} {lineNo : Nat} {out m : EntryMap}
    (h : parseLines lineNo lines out = .ok m) :
    WellFormed lines ∧
      (∀ line ∈ recordLines lines, ∀ jid, HasJid line jid → out.find? jid = none) ∧
      ∀ jid e, m.find? jid = some e ↔
        out.find? jid = some e ∨ ∃ line ∈ recordLines lines, Reads line jid e := by
  induction lines generalizing lineNo out with
  | nil =>
      obtain rfl : out = m := Except.ok.inj h
      refine ⟨⟨?_, .nil⟩, ?_, ?_⟩ <;> simp [recordLines]
  | cons line rest ih =>
      by_cases hskip : line = [] ∨ line.head? = some '#'
      · rw [parseLines_skip hskip] at h
        have hrest := ih h
        simp only [recordLines_cons_skip hskip]
        refine ⟨⟨?_, ?_⟩, hrest.2⟩
        · rw [recordLines_cons_skip hskip]
          exact hrest.1.reads
        · rw [recordLines_cons_skip hskip]
          exact hrest.1.distinct
      · rw [parseLines, if_neg hskip] at h
        cases hentry : parseEntry lineNo line with
        | error err => simp [hentry] at h
        | ok found =>
            obtain ⟨jid, e⟩ := found
            simp only [hentry] at h
            split at h
            · contradiction
            · rename_i hnew
              have hreads := parseEntry_eq_ok_iff.mp hentry
              have hout : out.find? jid = none := by simpa using hnew
              obtain ⟨hwell, hfresh, hmap⟩ := ih h
              have hself : ∀ j, HasJid line j → j = jid := by
                rintro j ⟨e', he'⟩
                exact (he'.unique hreads).1
              have hlater : ∀ l ∈ recordLines rest, ∀ j, HasJid l j →
                  jid ≠ j ∧ out.find? j = none := by
                intro l hl j hj
                have hnone := hfresh l hl j hj
                rw [OrdMap.find?_insert] at hnone
                split at hnone
                · contradiction
                · rename_i hne
                  exact ⟨hne, hnone⟩
              rw [recordLines_cons_keep hskip]
              refine ⟨⟨?_, ?_⟩, ?_, ?_⟩
              · rw [recordLines_cons_keep hskip, List.forall_mem_cons]
                exact ⟨⟨jid, e, hreads⟩, hwell.reads⟩
              · rw [recordLines_cons_keep hskip]
                refine List.pairwise_cons.mpr ⟨?_, hwell.distinct⟩
                intro l hl j hj hj'
                exact (hlater l hl j hj').1 (hself j hj).symm
              · rw [List.forall_mem_cons]
                refine ⟨fun j hj => ?_, fun l hl j hj => (hlater l hl j hj).2⟩
                rw [hself j hj]
                exact hout
              · intro j e'
                rw [hmap, OrdMap.find?_insert, List.exists_mem_cons_iff]
                constructor
                · rintro (hfind | hline)
                  · split at hfind
                    · rename_i hsame
                      obtain rfl : e = e' := Option.some.inj hfind
                      exact .inr (.inl (hsame ▸ hreads))
                    · exact .inl hfind
                  · exact .inr (.inr hline)
                · rintro (hfind | hline | hline)
                  · refine .inl ?_
                    rw [if_neg]
                    · exact hfind
                    · rintro rfl
                      rw [hout] at hfind
                      contradiction
                  · obtain ⟨rfl, rfl⟩ := hline.unique hreads
                    exact .inl (if_pos rfl)
                  · exact .inr hline

/-- A well-formed file whose jids are new is read to its end. -/
theorem exists_parseLines_ok {lines : List Str} {lineNo : Nat} {out : EntryMap}
    (h : WellFormed lines)
    (hfresh : ∀ line ∈ recordLines lines, ∀ jid, HasJid line jid → out.find? jid = none) :
    ∃ m, parseLines lineNo lines out = .ok m := by
  induction lines generalizing lineNo out with
  | nil => exact ⟨out, rfl⟩
  | cons line rest ih =>
      obtain ⟨hreads, hdistinct⟩ := h
      by_cases hskip : line = [] ∨ line.head? = some '#'
      · rw [recordLines_cons_skip hskip] at hreads hdistinct hfresh
        rw [parseLines_skip hskip]
        exact ih ⟨hreads, hdistinct⟩ hfresh
      · rw [recordLines_cons_keep hskip] at hreads hdistinct hfresh
        rw [List.forall_mem_cons] at hreads hfresh
        obtain ⟨⟨jid, e, hline⟩, hreads⟩ := hreads
        obtain ⟨hhead, hdistinct⟩ := List.pairwise_cons.mp hdistinct
        have hnew : (out.find? jid).isSome = false := by
          rw [hfresh.1 jid ⟨e, hline⟩]
          rfl
        rw [parseLines, if_neg hskip]
        simp only [parseEntry_eq_ok_iff.mpr hline, hnew, Bool.false_eq_true, if_false]
        refine ih ⟨hreads, hdistinct⟩ ?_
        intro l hl j hj
        rw [OrdMap.find?_insert, if_neg]
        · exact hfresh.2 l hl j hj
        · rintro rfl
          exact hhead l hl jid ⟨e, hline⟩ hj

/-- The parser accepts exactly the well-formed files and holds exactly what they say. -/
theorem parse_accepts_exactly (before : EntryMap) (text : Str) :
    ((parseInto before text).ok = true ↔ WellFormed (text.splitOn '\n')) ∧
      ((parseInto before text).ok = true → ∀ jid e,
        (parseInto before text).out.find? jid = some e ↔
          ∃ line ∈ recordLines (text.splitOn '\n'), Reads line jid e) ∧
      ((parseInto before text).ok = false → (parseInto before text).out = .empty) ∧
      ∀ (digits : Str) (w : UInt64), w.toNat ≤ 0xFFFFFFFF →
        (parseDecimal digits = some w ↔
          allDigits digits = true ∧ decimalValue digits = w.toNat) := by
  unfold parseInto
  rw [parseLinesInto_eq]
  refine ⟨?_, ?_, ?_, fun digits w hw => parseDecimal_small_iff hw⟩
  · constructor
    · intro hok
      cases hrun : parseLines 1 (text.splitOn '\n') .empty with
      | error err => simp [hrun] at hok
      | ok m => exact (parseLines_ok hrun).1
    · intro hwell
      obtain ⟨m, hm⟩ : ∃ m, parseLines 1 (text.splitOn '\n') .empty = .ok m :=
        exists_parseLines_ok hwell (fun _ _ _ _ => OrdMap.find?_empty _)
      rw [hm]
  · intro hok jid e
    cases hrun : parseLines 1 (text.splitOn '\n') .empty with
    | error err => simp [hrun] at hok
    | ok m => simpa using (parseLines_ok hrun).2.2 jid e
  · intro hfail
    cases hrun : parseLines 1 (text.splitOn '\n') .empty with
    | error err => rfl
    | ok m => simp [hrun] at hfail

end Crate.JidOwnerRegistryPure
