import Crate.Audit.Sections

/-!
# Sections framed in band

The lines of a stream made of blocks: a marker line, the output that follows it
and, for some, a line with an exit code.  An output that does not end with a line
end runs into the marker line behind it, and a line of it that carries the mark is
read as a marker line.  Whenever each section reads back as its own lines, neither
has happened.
-/

namespace Crate.JailAuditPure

open Crate.Foundation

/-- A section of the stream; `own` are the lines that belong to it. -/
structure Block where
  name : Str
  arg : Str
  marker : Str
  full : List Str
  rest : Str
  status : Option Nat
  own : List Str

namespace Block

/-- The line with the exit code. -/
def statusLine (rc : Nat) : Str := ("@@rc=" : Str) ++ decimal rc

/-- The lines of the blocks behind a piece of text that no line end closes. -/
def stream (p : Str) : List Block → List Str
  | [] => whole p
  | b :: blocks =>
      (p ++ b.marker) :: (b.full ++
        match b.status with
        | none => stream b.rest blocks
        | some rc => (b.rest ++ statusLine rc) :: stream [] blocks)

/-- What the reader makes of a block in which nothing runs over. -/
def text (b : Block) : Str := argText b.arg ++ sectionText b.full

def record (sections : Sections) (b : Block) : Sections :=
  match b.status with
  | none => sections.insert b.name b.text
  | some rc => (sections.insert b.name b.text).insert (b.name ++ ".rc") (decimal rc)

/-- A section whose marker line is its name, or one that carries a value on its marker line. -/
inductive Form (b : Block) : Prop where
  | plain (hname : b.name.count 'w' = 0) (harg : b.arg = []) (hown : b.own = b.full ++ whole b.rest)
  | value (hrest : b.rest = []) (hfull : ∀ l ∈ b.full, l = [] ∨ l ∈ b.own.tail)
      (hstatus : b.status = none)

structure Ok (b : Block) : Prop where
  named : naming b.marker = some (b.name, b.arg)
  name_dot : '.' ∉ b.name
  name_mark : b.name.head? ≠ some '@'
  marker_count : b.marker.count ' ' = 0 ∨ 0 < b.marker.count 'w'
  newline_own : ∀ l ∈ b.own, '\n' ∉ l
  newline_marker : '\n' ∉ b.marker
  newline_full : ∀ l ∈ b.full, '\n' ∉ l
  newline_rest : '\n' ∉ b.rest
  form : b.Form

theorem statusLine_count (rc : Nat) : (statusLine rc).count ' ' = 0 := by
  apply List.count_eq_zero_of_not_mem
  intro hmem
  rcases List.mem_append.mp hmem with hmem | hmem
  · exact absurd hmem (by decide)
  · exact absurd (isDecimalDigit_of_mem_decimal hmem) (by decide)

theorem space_of_mem_decimal {n : Nat} {c : Char} (hc : c ∈ decimal n) : isSpace c = false := by
  cases hspace : isSpace c with
  | false => rfl
  | true =>
      have hdigit := isDecimalDigit_of_mem_decimal hc
      simp only [isSpace, Bool.or_eq_true, decide_eq_true_eq] at hspace
      rcases hspace with ((((rfl | rfl) | rfl) | rfl) | rfl) | rfl <;> contradiction

theorem trimmed_rc (rc : Nat) : Trimmed (("rc=" : Str) ++ decimal rc) := by
  apply trimmed_of_no_space
  intro c hc
  rcases List.mem_append.mp hc with hc | hc
  · have hall : ("rc=" : Str).all (fun d => !isSpace d) = true := rfl
    simpa using List.all_eq_true.mp hall c hc
  · exact space_of_mem_decimal hc

theorem marker_statusLine (rc : Nat) :
    trim ((statusLine rc).drop 2) = ("rc=" : Str) ++ decimal rc :=
  trim_of_trimmed (trimmed_rc rc)

theorem marked_statusLine (rc : Nat) : Marked (statusLine rc) := marked_iff.mpr ⟨_, rfl⟩

theorem startsWith_rc (rc : Nat) : startsWith (("rc=" : Str) ++ decimal rc) "rc=" = true := by
  rw [startsWith, List.isPrefixOf_iff_prefix]
  exact List.prefix_append _ _

theorem splitLine_statusLine {sections : Sections} {cur : Str} (hcur : cur ≠ []) (rc : Nat) :
    splitLine (sections, cur) (statusLine rc) =
      (sections.insert (cur ++ ".rc") (decimal rc), cur) := by
  have hmark : startsWith (statusLine rc) "@@" = true := marked_statusLine rc
  have htrim : trim ((("rc=" : Str) ++ decimal rc).drop 3) = decimal rc :=
    trim_of_trimmed (trimmed_of_no_space fun _ hc => space_of_mem_decimal hc)
  simp only [splitLine, hmark, marker_statusLine, startsWith_rc, if_true, htrim]
  exact if_pos hcur

theorem naming_statusLine (rc : Nat) : naming (statusLine rc) = none := by
  rw [naming, marker_statusLine]
  apply if_neg
  rw [startsWith_rc]
  simp

/-! ## The lines of a stream -/

theorem mem_stream {p raw : Str} {blocks : List Block} (h : raw ∈ stream p blocks) :
    (∃ b ∈ blocks, raw ∈ b.full) ∨
      ∃ q m, raw = q ++ m ∧ (q = p ∨ q = [] ∨ ∃ b ∈ blocks, q = b.rest) ∧
        (m = [] ∨ (∃ b ∈ blocks, m = b.marker) ∨ ∃ rc, m = statusLine rc) := by
  induction blocks generalizing p with
  | nil =>
      rw [stream, whole] at h
      split at h
      · contradiction
      · rw [List.mem_singleton] at h
        exact .inr ⟨p, [], by simp [h], .inl rfl, .inl rfl⟩
  | cons b blocks ih =>
      have hlater : ∀ q, raw ∈ stream q blocks → (q = [] ∨ q = b.rest) →
          (∃ b' ∈ b :: blocks, raw ∈ b'.full) ∨ ∃ q' m, raw = q' ++ m ∧
            (q' = p ∨ q' = [] ∨ ∃ b' ∈ b :: blocks, q' = b'.rest) ∧
            (m = [] ∨ (∃ b' ∈ b :: blocks, m = b'.marker) ∨ ∃ rc, m = statusLine rc) := by
        intro q hmem hq
        rcases ih hmem with ⟨b', hb', hfull⟩ | ⟨q', m, hraw, hq', hm⟩
        · exact .inl ⟨b', List.mem_cons_of_mem b hb', hfull⟩
        · refine .inr ⟨q', m, hraw, ?_, ?_⟩
          · rcases hq' with hq' | hq' | ⟨b', hb', hrest⟩
            · rcases hq with hq | hq
              · exact .inr (.inl (hq'.trans hq))
              · exact .inr (.inr ⟨b, List.mem_cons_self, hq'.trans hq⟩)
            · exact .inr (.inl hq')
            · exact .inr (.inr ⟨b', List.mem_cons_of_mem b hb', hrest⟩)
          · rcases hm with hm | ⟨b', hb', hm⟩ | hm
            · exact .inl hm
            · exact .inr (.inl ⟨b', List.mem_cons_of_mem b hb', hm⟩)
            · exact .inr (.inr hm)
      rw [stream] at h
      rcases List.mem_cons.mp h with hraw | h
      · exact .inr ⟨p, b.marker, hraw, .inl rfl, .inr (.inl ⟨b, List.mem_cons_self, rfl⟩)⟩
      · rcases List.mem_append.mp h with hfull | h
        · exact .inl ⟨b, List.mem_cons_self, hfull⟩
        · cases hstatus : b.status with
          | none =>
              rw [hstatus] at h
              exact hlater b.rest h (.inr rfl)
          | some rc =>
              rw [hstatus] at h
              rcases List.mem_cons.mp h with hraw | h
              · exact .inr ⟨b.rest, statusLine rc, hraw,
                  .inr (.inr ⟨b, List.mem_cons_self, rfl⟩), .inr (.inr ⟨rc, rfl⟩)⟩
              · exact hlater [] h (.inl rfl)

theorem newline_statusLine (rc : Nat) : '\n' ∉ statusLine rc := by
  intro hmem
  rcases List.mem_append.mp hmem with hmem | hmem
  · exact absurd hmem (by decide)
  · exact absurd (isDecimalDigit_of_mem_decimal hmem) (by decide)

theorem newline_stream {blocks : List Block} (hok : ∀ b ∈ blocks, b.Ok) {raw : Str}
    (h : raw ∈ stream [] blocks) : '\n' ∉ raw := by
  rcases mem_stream h with ⟨b, hb, hfull⟩ | ⟨q, m, rfl, hq, hm⟩
  · exact (hok b hb).newline_full raw hfull
  · rw [List.mem_append, not_or]
    constructor
    · rcases hq with rfl | rfl | ⟨b, hb, rfl⟩
      · exact List.not_mem_nil
      · exact List.not_mem_nil
      · exact (hok b hb).newline_rest
    · rcases hm with rfl | ⟨b, hb, rfl⟩ | ⟨rc, rfl⟩
      · exact List.not_mem_nil
      · exact (hok b hb).newline_marker
      · exact newline_statusLine rc

/-! ## Lines with the mark -/

section Kept

variable {blocks : List Block} (hok : ∀ b ∈ blocks, b.Ok)
  (hkept : ∀ b ∈ blocks, ((stream [] blocks).foldl splitLine (.empty, [])).1.find? b.name =
    some (sectionText b.own))

include hok hkept

/-- The lines of a section: the value on its marker line, then lines without the mark. -/
theorem own_shape {b : Block} (hb : b ∈ blocks) :
    ∃ raw ∈ stream [] blocks, ∃ arg, naming raw = some (b.name, arg) ∧
      ∃ plain : List Str, (∀ l ∈ plain, ¬Marked l) ∧ b.own = whole arg ++ plain := by
  obtain ⟨raw, hraw, arg, hname, plain, hplain, htext⟩ :=
    shape_of_find? (hok b hb).name_dot (hkept b hb)
  refine ⟨raw, hraw, arg, hname, plain, fun l hl => (hplain l hl).2, ?_⟩
  have harg : argText arg = sectionText (whole arg) := by
    unfold argText whole
    split <;> simp [sectionText]
  rw [harg, ← sectionText_append] at htext
  apply sectionText_injective (hok b hb).newline_own _ htext
  intro l hl
  rcases List.mem_append.mp hl with hl | hl
  · have hline : l = arg := by
      unfold whole at hl
      split at hl
      · contradiction
      · exact List.mem_singleton.mp hl
    rw [hline]
    exact fun hmem => newline_stream hok hraw (arg_subset hname hmem)
  · exact newline_stream hok (hplain l hl).1

theorem tail_not_marked {b : Block} (hb : b ∈ blocks) : ∀ l ∈ b.own.tail, ¬Marked l := by
  obtain ⟨raw, -, arg, -, plain, hplain, hown⟩ := own_shape hok hkept hb
  rintro l hl
  rw [hown] at hl
  unfold whole at hl
  split at hl
  · exact hplain l (List.mem_of_mem_tail hl)
  · exact hplain l hl

/-- A line with the mark is restored by a marker line that carries it. -/
theorem carrier_of_marked {b : Block} (hb : b ∈ blocks) {l : Str} (hl : l ∈ b.own)
    (hmark : Marked l) : ∃ raw ∈ stream [] blocks, naming raw = some (b.name, l) := by
  obtain ⟨raw, hraw, arg, hname, plain, hplain, hown⟩ := own_shape hok hkept hb
  rw [hown] at hl
  rcases List.mem_append.mp hl with hl | hl
  · unfold whole at hl
    split at hl
    · contradiction
    · rw [List.mem_singleton.mp hl]
      exact ⟨raw, hraw, hname⟩
  · exact absurd hmark (hplain l hl)

/-- A line of a block that is not among the lines in which the mark is harmless. -/
theorem mem_own_of_marked {b : Block} (hb : b ∈ blocks) {l : Str} (hmark : Marked l)
    (hl : l ∈ b.full ∨ l = b.rest) :
    b.name.count 'w' = 0 ∧ b.arg = [] ∧ l ∈ b.own := by
  have hne : l ≠ [] := by
    rintro rfl
    exact absurd hmark (by decide)
  cases (hok b hb).form with
  | plain hname harg hown =>
      refine ⟨hname, harg, ?_⟩
      rw [hown]
      rcases hl with hl | rfl
      · exact List.mem_append_left _ hl
      · simp [whole, hne]
  | value hrest hfull hstatus =>
      exfalso
      rcases hl with hl | rfl
      · rcases hfull l hl with hnil | htail
        · exact hne hnil
        · exact tail_not_marked hok hkept hb l htail hmark
      · exact hne hrest

/-- The line that restores a marked line is built from another marked line with fewer letters
of the one marker that has blanks, or with as many and more blanks. -/
theorem larger_marked (hnodup : (blocks.map name).Nodup) {b : Block} (hb : b ∈ blocks)
    (hname : b.name.count 'w' = 0) (harg : b.arg = []) {l : Str} (hl : l ∈ b.own)
    (hmark : Marked l) :
    ∃ b' ∈ blocks, b'.name.count 'w' = 0 ∧ b'.arg = [] ∧ ∃ l' ∈ b'.own, Marked l' ∧
      (l'.count 'w' < l.count 'w' ∨ l'.count 'w' = l.count 'w' ∧ l.count ' ' < l'.count ' ') := by
  obtain ⟨raw, hraw, hcarrier⟩ := carrier_of_marked hok hkept hb hl hmark
  have hne : l ≠ [] := by
    rintro rfl
    exact absurd hmark (by decide)
  obtain ⟨hw, hblank⟩ := count_of_naming hcarrier hne
  rw [hname, Nat.zero_add] at hw
  have hmarked := marked_of_naming hcarrier
  rcases mem_stream hraw with ⟨b', hb', hfull⟩ | ⟨q, m, hglue, hq, hm⟩
  · obtain ⟨hname', harg', hown⟩ := mem_own_of_marked hok hkept hb' hmarked (.inl hfull)
    exact ⟨b', hb', hname', harg', raw, hown, hmarked, .inr ⟨hw, hblank⟩⟩
  · by_cases hqnil : q = []
    · -- the line is a marker of the stream itself, and those carry nothing here
      exfalso
      rw [hqnil, List.nil_append] at hglue
      rcases hm with rfl | ⟨b', hb', rfl⟩ | ⟨rc, rfl⟩
      · rw [hglue] at hmarked
        exact absurd hmarked (by decide)
      · rw [hglue, (hok b' hb').named] at hcarrier
        obtain ⟨hsame, hcarried⟩ := Prod.mk.inj (Option.some.inj hcarrier)
        have hblock : b' = b := List.inj_on_of_nodup_map hnodup hb' hb hsame
        rw [hblock, harg] at hcarried
        exact hne hcarried.symm
      · rw [hglue, naming_statusLine] at hcarrier
        contradiction
    · obtain ⟨b', hb', hrest⟩ : ∃ b' ∈ blocks, q = b'.rest := by
        rcases hq with hq | hq | hq
        · exact absurd hq hqnil
        · exact absurd hq hqnil
        · exact hq
      have hcounts : m.count ' ' = 0 ∨ 0 < m.count 'w' := by
        rcases hm with rfl | ⟨b'', hb'', rfl⟩ | ⟨rc, rfl⟩
        · exact .inl rfl
        · exact (hok b'' hb'').marker_count
        · exact .inl (statusLine_count rc)
      have hqmark : Marked q := by
        by_contra hplain
        have hm' : m = [] ∨ Marked m := by
          rcases hm with hm | ⟨b'', hb'', rfl⟩ | ⟨rc, rfl⟩
          · exact .inl hm
          · exact .inr (marked_of_naming (hok b'' hb'').named)
          · exact .inr (marked_statusLine rc)
        rcases hm' with rfl | hm'
        · rw [hglue, List.append_nil] at hmarked
          exact hplain hmarked
        · rcases naming_glued hqnil hplain hm' with hunmarked | ⟨name, arg, hnamed, hhead⟩
          · exact hunmarked (hglue ▸ hmarked)
          · rw [← hglue, hcarrier] at hnamed
            obtain ⟨rfl, -⟩ := Prod.mk.inj (Option.some.inj hnamed)
            exact (hok b hb).name_mark hhead
      obtain ⟨hname', harg', hown⟩ := mem_own_of_marked hok hkept hb' hqmark (.inr hrest)
      refine ⟨b', hb', hname', harg', q, hown, hqmark, ?_⟩
      rw [hglue, List.count_append] at hw hblank
      omega

/-- No line of an output carries the mark: the chain of restoring lines would not end. -/
theorem own_not_marked (hnodup : (blocks.map name).Nodup) {b : Block} (hb : b ∈ blocks)
    (hname : b.name.count 'w' = 0) (harg : b.arg = []) : ∀ l ∈ b.own, ¬Marked l := by
  obtain ⟨bound, hbound⟩ : ∃ bound, ∀ b ∈ blocks, ∀ l ∈ b.own, l.count ' ' ≤ bound := by
    refine ⟨(blocks.flatMap own).flatten.length, fun b hb l hl => ?_⟩
    have hmem : l ∈ blocks.flatMap own := List.mem_flatMap.mpr ⟨b, hb, hl⟩
    exact List.count_le_length.trans (List.sublist_flatten_of_mem hmem).length_le
  have hchain : ∀ weight, ∀ b ∈ blocks, b.name.count 'w' = 0 → b.arg = [] → ∀ l ∈ b.own, Marked l →
      l.count 'w' * (bound + 1) + (bound - l.count ' ') ≠ weight := by
    intro weight
    induction weight using Nat.strong_induction_on with
    | _ weight ih =>
        rintro b hb hname harg l hl hmark rfl
        obtain ⟨b', hb', hname', harg', l', hl', hmark', hcounts⟩ :=
          larger_marked hok hkept hnodup hb hname harg hl hmark
        refine ih _ ?_ b' hb' hname' harg' l' hl' hmark' rfl
        have hlast := hbound b' hb' l' hl'
        rcases hcounts with hw | ⟨hw, hblank⟩
        · have hmul : (l'.count 'w' + 1) * (bound + 1) ≤ l.count 'w' * (bound + 1) :=
            Nat.mul_le_mul_right _ hw
          rw [Nat.add_mul, Nat.one_mul] at hmul
          omega
        · rw [hw]
          omega
  exact fun l hl hmark => hchain _ b hb hname harg l hl hmark rfl

theorem plain_of_kept (hnodup : (blocks.map name).Nodup) {b : Block} (hb : b ∈ blocks) :
    (∀ l ∈ b.full, ¬Marked l) ∧ ¬Marked b.rest := by
  have hline : ∀ l, (l ∈ b.full ∨ l = b.rest) → ¬Marked l := by
    intro l hl hmark
    obtain ⟨hname, harg, hown⟩ := mem_own_of_marked hok hkept hb hmark hl
    exact own_not_marked hok hkept hnodup hb hname harg l hown hmark
  exact ⟨fun l hl => hline l (.inl hl), hline b.rest (.inr rfl)⟩

end Kept

/-! ## Blocks one by one -/

def Unmarked (b : Block) : Prop := (∀ l ∈ b.full, ¬Marked l) ∧ ¬Marked b.rest

/-- A glued line is no marker of the name in question. -/
theorem naming_append_ne {q m n : Str} (hq : ¬Marked q) (hm : Marked m) (hn : n.head? ≠ some '@')
    (hqm : q = [] → ∀ arg, naming m ≠ some (n, arg)) (arg : Str) :
    naming (q ++ m) ≠ some (n, arg) := by
  by_cases hnil : q = []
  · rw [hnil, List.nil_append]
    exact hqm hnil arg
  · intro hname
    rcases naming_glued hnil hq hm with hplain | ⟨name, arg', hnamed, hhead⟩
    · exact hplain (marked_of_naming hname)
    · rw [hname] at hnamed
      obtain ⟨rfl, -⟩ := Prod.mk.inj (Option.some.inj hnamed)
      exact hn hhead

section Stream

variable {blocks : List Block}

/-- A name that no block has is named by no line. -/
theorem naming_stream_ne (hok : ∀ b ∈ blocks, b.Ok) (hplain : ∀ b ∈ blocks, b.Unmarked) {p n : Str}
    (hp : ¬Marked p) (hn : n.head? ≠ some '@') (hnames : ∀ b ∈ blocks, b.name ≠ n) :
    ∀ raw ∈ stream p blocks, ∀ arg, naming raw ≠ some (n, arg) := by
  intro raw hraw arg
  rcases mem_stream hraw with ⟨b, hb, hfull⟩ | ⟨q, m, rfl, hq, hm⟩
  · exact fun hname => (hplain b hb).1 raw hfull (marked_of_naming hname)
  · have hqplain : ¬Marked q := by
      rcases hq with rfl | rfl | ⟨b, hb, rfl⟩
      · exact hp
      · decide
      · exact (hplain b hb).2
    rcases hm with rfl | ⟨b, hb, rfl⟩ | ⟨rc, rfl⟩
    · rw [List.append_nil]
      exact fun hname => hqplain (marked_of_naming hname)
    · apply naming_append_ne hqplain (marked_of_naming (hok b hb).named) hn
      intro _ arg' hname
      rw [(hok b hb).named] at hname
      exact hnames b hb (Prod.mk.inj (Option.some.inj hname)).1
    · apply naming_append_ne hqplain (marked_statusLine rc) hn
      intro _ arg' hname
      rw [naming_statusLine] at hname
      contradiction

theorem foldl_block {b : Block} (hok : b.Ok) (hplain : b.Unmarked) (state : Sections × Str)
    (ls : List Str) :
    (b.marker :: (b.full ++ ls)).foldl splitLine state =
      ls.foldl splitLine (state.1.insert b.name b.text, b.name) := by
  have hmarker : splitLine state b.marker = (state.1.insert b.name (argText b.arg), b.name) :=
    splitLine_named hok.named
  rw [List.foldl_cons, hmarker, List.foldl_append,
    foldl_plain hplain.1 (name_ne_nil hok.named)]
  rfl

theorem text_of_rest {b : Block} (hok : b.Ok) (hrest : b.rest ≠ []) :
    sectionText b.own = b.text ++ (b.rest ++ "\n") := by
  cases hok.form with
  | plain hname harg hown =>
      rw [hown, sectionText_append, text, harg]
      simp [argText, sectionText, whole, hrest]
  | value hnil hfull hstatus => exact absurd hnil hrest

/-- An exit code that is echoed behind an open line is not read as one. -/
theorem rest_eq_nil_of_status {b : Block} (hok : b.Ok) (hplain : b.Unmarked) {sections : Sections}
    {rc : Nat} {ls : List Str} (hls : ∀ raw ∈ ls, ∀ arg, naming raw ≠ some (b.name, arg))
    (hkept : (((b.rest ++ statusLine rc) :: ls).foldl splitLine
      (sections.insert b.name b.text, b.name)).1.find? b.name = some (sectionText b.own)) :
    b.rest = [] := by
  by_contra hrest
  rw [text_of_rest hok hrest, List.foldl_cons] at hkept
  rcases naming_glued hrest hplain.2 (marked_statusLine rc) with hline | ⟨name, arg, hname, hhead⟩
  · have hadd : (splitLine (sections.insert b.name b.text, b.name)
        (b.rest ++ statusLine rc)).1.find? b.name =
          some (b.text ++ (b.rest ++ statusLine rc ++ "\n")) := by
      rw [splitLine_plain hline (name_ne_nil hok.named), appendTo, OrdMap.find?_insert_self,
        OrdMap.find?_insert_self]
      rfl
    obtain ⟨more, hmore⟩ := find?_foldl_grows hok.name_dot hls hadd
    rw [hmore, Option.some.injEq, List.append_assoc, List.append_cancel_left_eq, List.append_assoc,
      List.append_assoc, List.append_cancel_left_eq] at hkept
    exact absurd (List.cons.inj hkept).1 (by decide)
  · have hne : name ≠ b.name := by
      rintro rfl
      exact hok.name_mark hhead
    have hkeep := @find?_foldl_ne b.name hok.name_dot ls hls
      (splitLine (sections.insert b.name b.text, b.name) (b.rest ++ statusLine rc))
      (by rw [splitLine_named hname]; exact hne)
    rw [hkeep, splitLine_named hname, OrdMap.find?_insert_ne hne, OrdMap.find?_insert_self,
      Option.some.injEq] at hkept
    have hlength := congrArg List.length hkept
    simp at hlength

/-- Sections that all read back have markers at the beginning of a line. -/
theorem rest_of_kept (hok : ∀ b ∈ blocks, b.Ok) (hplain : ∀ b ∈ blocks, b.Unmarked)
    (hnodup : (blocks.map name).Nodup) {p : Str} (hp : ¬Marked p) {state : Sections × Str}
    (hnone : ∀ b ∈ blocks, state.1.find? b.name = none) (hcur : ∀ b ∈ blocks, state.2 ≠ b.name)
    (hkept : ∀ b ∈ blocks, ((stream p blocks).foldl splitLine state).1.find? b.name =
      some (sectionText b.own)) :
    (blocks ≠ [] → p = []) ∧
      ∀ b ∈ blocks, b.rest = [] ∨ blocks.getLast? = some b ∧ b.status = none := by
  induction blocks generalizing p state with
  | nil => simp
  | cons b blocks ih =>
      have hb := List.mem_cons_self (a := b) (l := blocks)
      have hlater : ∀ b' ∈ blocks, b' ∈ b :: blocks := fun b' => List.mem_cons_of_mem b
      obtain ⟨hfresh, hnodup⟩ := List.nodup_cons.mp hnodup
      have hnames : ∀ b' ∈ blocks, b'.name ≠ b.name := fun b' hb' heq =>
        hfresh (heq ▸ List.mem_map_of_mem hb')
      have htail : ∀ q, ¬Marked q →
          ∀ raw ∈ stream q blocks, ∀ arg, naming raw ≠ some (b.name, arg) :=
        fun q hq => naming_stream_ne (fun b' hb' => hok b' (hlater b' hb'))
          (fun b' hb' => hplain b' (hlater b' hb')) hq (hok b hb).name_mark hnames
      -- a piece of text in front of the marker would leave the section without a name
      have hpnil : p = [] := by
        by_contra hne
        have hlines : ∀ raw ∈ stream p (b :: blocks), ∀ arg, naming raw ≠ some (b.name, arg) := by
          intro raw hraw arg
          rw [stream] at hraw
          rcases List.mem_cons.mp hraw with rfl | hraw
          · exact naming_append_ne hp (marked_of_naming (hok b hb).named) (hok b hb).name_mark
              (fun hnil => absurd hnil hne) arg
          · rcases List.mem_append.mp hraw with hfull | hraw
            · exact fun hname => (hplain b hb).1 raw hfull (marked_of_naming hname)
            · cases hstatus : b.status with
              | none =>
                  rw [hstatus] at hraw
                  exact htail b.rest (hplain b hb).2 raw hraw arg
              | some rc =>
                  rw [hstatus] at hraw
                  rcases List.mem_cons.mp hraw with rfl | hraw
                  · apply naming_append_ne (hplain b hb).2 (marked_statusLine rc)
                      (hok b hb).name_mark
                    intro _ arg' hname
                    rw [naming_statusLine] at hname
                    contradiction
                  · exact htail [] (by decide) raw hraw arg
        have hfind := find?_foldl_ne (hok b hb).name_dot hlines (hcur b hb)
        rw [hkept b hb, hnone b hb] at hfind
        contradiction
      subst hpnil
      have hnone' : ∀ b' ∈ blocks, (state.1.insert b.name b.text).find? b'.name = none := by
        rintro b' hb'
        rw [OrdMap.find?_insert_ne (hnames b' hb').symm, hnone b' (hlater b' hb')]
      have hcur' : ∀ b' ∈ blocks, b.name ≠ b'.name := fun b' hb' => (hnames b' hb').symm
      refine ⟨fun _ => rfl, ?_⟩
      have hlast : ∀ b' ∈ blocks, (b'.rest = [] ∨ blocks.getLast? = some b' ∧ b'.status = none) →
          b'.rest = [] ∨ (b :: blocks).getLast? = some b' ∧ b'.status = none := by
        rintro b' hb' (hrest | ⟨hlast, hstatus⟩)
        · exact .inl hrest
        · refine .inr ⟨?_, hstatus⟩
          rw [List.getLast?_cons, hlast]
          rfl
      cases hstatus : b.status with
      | none =>
          have hstream : stream [] (b :: blocks) =
              b.marker :: (b.full ++ stream b.rest blocks) := by
            simp [stream, hstatus]
          rw [hstream, foldl_block (hok b hb) (hplain b hb)] at hkept
          obtain ⟨hrest, hothers⟩ := ih (fun b' hb' => hok b' (hlater b' hb'))
            (fun b' hb' => hplain b' (hlater b' hb')) hnodup (hplain b hb).2 hnone' hcur'
            fun b' hb' => hkept b' (hlater b' hb')
          rintro b' hb'
          rcases List.mem_cons.mp hb' with rfl | hb'
          · cases blocks with
            | nil => exact .inr ⟨rfl, hstatus⟩
            | cons next blocks => exact .inl (hrest (by simp))
          · exact hlast b' hb' (hothers b' hb')
      | some rc =>
          have hstream : stream [] (b :: blocks) =
              b.marker :: (b.full ++ (b.rest ++ statusLine rc) :: stream [] blocks) := by
            simp [stream, hstatus]
          rw [hstream, foldl_block (hok b hb) (hplain b hb)] at hkept
          have hrest := rest_eq_nil_of_status (hok b hb) (hplain b hb) (htail [] (by decide))
            (hkept b hb)
          rw [hrest, List.nil_append, List.foldl_cons,
            splitLine_statusLine (name_ne_nil (hok b hb).named)] at hkept
          have hnone'' : ∀ b' ∈ blocks, ((state.1.insert b.name b.text).insert (b.name ++ ".rc")
              (decimal rc)).find? b'.name = none := by
            rintro b' hb'
            rw [OrdMap.find?_insert_ne (ne_rc (hok b' (hlater b' hb')).name_dot b.name),
              hnone' b' hb']
          obtain ⟨-, hothers⟩ := ih (fun b' hb' => hok b' (hlater b' hb'))
            (fun b' hb' => hplain b' (hlater b' hb')) hnodup (by decide) hnone'' hcur'
            fun b' hb' => hkept b' (hlater b' hb')
          rintro b' hb'
          rcases List.mem_cons.mp hb' with rfl | hb'
          · exact .inl hrest
          · exact hlast b' hb' (hothers b' hb')

/-! ## Blocks that keep to themselves -/

theorem foldl_stream (hok : ∀ b ∈ blocks, b.Ok)
    (h : ∀ b ∈ blocks, b.rest = [] ∧ ∀ l ∈ b.full, ¬Marked l) (state : Sections × Str) :
    ((stream [] blocks).foldl splitLine state).1 = blocks.foldl record state.1 := by
  induction blocks generalizing state with
  | nil => rfl
  | cons b blocks ih =>
      have hb := List.mem_cons_self (a := b) (l := blocks)
      obtain ⟨hrest, hfull⟩ := h b hb
      have hplain : b.Unmarked := ⟨hfull, by rw [hrest]; decide⟩
      have hlater := ih (fun b' hb' => hok b' (List.mem_cons_of_mem b hb'))
        fun b' hb' => h b' (List.mem_cons_of_mem b hb')
      rw [stream, List.nil_append, foldl_block (hok b hb) hplain, List.foldl_cons]
      cases hstatus : b.status with
      | none =>
          rw [hrest, hlater, record, hstatus]
      | some rc =>
          have hline : b.rest ++ statusLine rc = statusLine rc := by rw [hrest, List.nil_append]
          dsimp only
          rw [hline, List.foldl_cons, splitLine_statusLine (name_ne_nil (hok b hb).named), hlater,
            record, hstatus]

end Stream

theorem find?_record_ne {b : Block} {key : Str} (hname : b.name ≠ key) (hrc : b.name ++ ".rc" ≠ key)
    (sections : Sections) : (record sections b).find? key = sections.find? key := by
  unfold record
  split
  · exact OrdMap.find?_insert_ne hname _ _
  · rw [OrdMap.find?_insert_ne hrc, OrdMap.find?_insert_ne hname]

theorem find?_record_name {b : Block} (hdot : '.' ∉ b.name) (sections : Sections) :
    (record sections b).find? b.name = some b.text := by
  unfold record
  split
  · exact OrdMap.find?_insert_self _ _ _
  · rw [OrdMap.find?_insert_ne (ne_rc hdot b.name), OrdMap.find?_insert_self]

theorem find?_foldl_record {blocks : List Block} (hdot : ∀ b ∈ blocks, '.' ∉ b.name)
    (hnodup : (blocks.map name).Nodup) (sections : Sections) :
    ∀ b ∈ blocks, (blocks.foldl record sections).find? b.name = some b.text := by
  induction blocks using List.reverseRecOn with
  | nil => simp
  | append_singleton blocks last ih =>
      rw [List.map_append, List.nodup_append] at hnodup
      obtain ⟨hfront, -, hapart⟩ := hnodup
      rw [List.foldl_append, List.foldl_cons, List.foldl_nil]
      rintro b hb
      rcases List.mem_append.mp hb with hb | hb
      · have hname : last.name ≠ b.name :=
          (hapart b.name (List.mem_map_of_mem hb) last.name (by simp)).symm
        rw [find?_record_ne hname (ne_rc (hdot b (List.mem_append_left _ hb)) _)]
        exact ih (fun b' hb' => hdot b' (List.mem_append_left _ hb')) hfront b hb
      · rw [List.mem_singleton.mp hb]
        exact find?_record_name (hdot last (by simp)) _

theorem find?_record_congr {b : Block} {key : Str} {m m' : Sections}
    (h : m.find? key = m'.find? key) :
    (record m b).find? key = (record m' b).find? key := by
  unfold record
  split
  · rw [OrdMap.find?_insert, OrdMap.find?_insert, h]
  · rw [OrdMap.find?_insert, OrdMap.find?_insert, OrdMap.find?_insert, OrdMap.find?_insert, h]

/-- Blocks that differ in one place make a difference to that section only. -/
theorem find?_foldl_record_congr {α : Type} (f g : α → Block) (same : ∀ a, (f a).name = (g a).name)
    {l : List α} {key : Str}
    (h : ∀ a ∈ l, f a = g a ∨ (f a).name ≠ key ∧ (f a).name ++ ".rc" ≠ key)
    (sections : Sections) :
    ((l.map f).foldl record sections).find? key = ((l.map g).foldl record sections).find? key := by
  induction l using List.reverseRecOn with
  | nil => rfl
  | append_singleton l a ih =>
      have hfront := ih fun a' ha' => h a' (List.mem_append_left _ ha')
      rw [List.map_append, List.map_append, List.map_singleton, List.map_singleton,
        List.foldl_append, List.foldl_append, List.foldl_cons, List.foldl_nil, List.foldl_cons,
        List.foldl_nil]
      rcases h a (by simp) with hsame | ⟨hname, hrc⟩
      · rw [hsame, find?_record_congr hfront]
      · rw [find?_record_ne hname hrc, find?_record_ne (same a ▸ hname) (same a ▸ hrc), hfront]

end Block

end Crate.JailAuditPure
