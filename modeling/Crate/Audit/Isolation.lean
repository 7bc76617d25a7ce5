import Crate.Audit.Framing

/-!
# Audit sections and what the jail prints

The commands of the probe print what runs in the jail wants them to print.  A
section is what its own commands printed exactly when no output runs into the
marker behind it and none carries the mark.
-/

namespace Crate.JailAuditPure

open Crate.Foundation

/-- The lines of a value that stands on the marker line. -/
def pieces (text : Str) : List Str := (scan [] text).1 ++ [(scan [] text).2]

theorem marker_is_line (s : Section) :
    '\n' ∉ ("@@" : Str) ++ s.name ∧ '\r' ∉ ("@@" : Str) ++ s.name := by
  cases s <;> decide

theorem naming_name (s : Section) : naming (("@@" : Str) ++ s.name) = some (s.name, []) := by
  cases s <;> rfl

theorem name_plain (s : Section) : '.' ∉ s.name ∧ s.name.head? ≠ some '@' := by
  cases s <;> decide

theorem count_name {s : Section} (h : s ≠ .gw) :
    s.name.count 'w' = 0 ∧ (("@@" : Str) ++ s.name).count ' ' = 0 := by
  cases s <;> first | decide | contradiction

theorem nodup_names (offline : Bool) : ((probeSections offline).map Section.name).Nodup := by
  cases offline <;> decide

namespace Run

variable (run : Run)

def gwBlock : Block :=
  { name := "gw"
    arg := trim ((pieces run.gw).headD [])
    marker := ("@@gw " : Str) ++ (pieces run.gw).headD []
    full := (pieces run.gw).tail
    rest := []
    status := none
    own := lines run.gw }

def plainBlock (s : Section) : Block :=
  { name := s.name
    arg := []
    marker := ("@@" : Str) ++ s.name
    full := (scan [] (run.printed s)).1
    rest := (scan [] (run.printed s)).2
    status := run.status s
    own := lines (run.printed s) }

def block (s : Section) : Block := if s = .gw then run.gwBlock else run.plainBlock s

theorem block_gw : run.block .gw = run.gwBlock := if_pos rfl

theorem block_of_ne {s : Section} (h : s ≠ .gw) : run.block s = run.plainBlock s := if_neg h

theorem block_name (s : Section) : (run.block s).name = s.name := by
  unfold block
  split
  · rename_i h
    rw [h]
    rfl
  · rfl

theorem block_own (s : Section) : (run.block s).own = lines (run.printed s) := by
  unfold block
  split
  · rename_i h
    rw [h]
    rfl
  · rfl

theorem sectionOutput_of_ne {s : Section} (h : s ≠ .gw) :
    run.sectionOutput s = ("@@" : Str) ++ s.name ++ "\n" ++ run.printed s ++ run.statusText s := by
  cases s <;> first | rfl | contradiction

/-! ## The output as a stream of blocks -/

theorem linesLoop_gw (p tail : Str) :
    linesLoop p (run.sectionOutput .gw ++ tail) =
      (p ++ run.gwBlock.marker) :: (run.gwBlock.full ++ linesLoop [] tail) := by
  have hparts : run.sectionOutput .gw ++ tail =
      ("@@gw " : Str) ++ (run.gw ++ ("\n" ++ tail)) := by
    have hout : run.sectionOutput .gw = ("@@gw " : Str) ++ run.gw ++ "\n" := rfl
    rw [hout, List.append_assoc, List.append_assoc]
  have hend : ∀ q, linesLoop q ("\n" ++ tail) = q :: linesLoop [] tail := fun _ => rfl
  have hline := scan_append_cur (p ++ "@@gw ") [] run.gw
  rw [List.append_nil] at hline
  rw [hparts, linesLoop_append, scan_word (by decide) (by decide), linesLoop_append, hline, hend]
  unfold gwBlock pieces
  cases scan [] run.gw with
  | mk ls r => cases ls <;> simp

theorem linesLoop_plain {s : Section} (h : s ≠ .gw) (p tail : Str) :
    linesLoop p (run.sectionOutput s ++ tail) =
      (p ++ (run.plainBlock s).marker) :: ((run.plainBlock s).full ++
        match run.status s with
        | none => linesLoop (run.plainBlock s).rest tail
        | some rc => ((run.plainBlock s).rest ++ Block.statusLine rc) :: linesLoop [] tail) := by
  have hparts : run.sectionOutput s ++ tail = (run.plainBlock s).marker ++
      '\n' :: (run.printed s ++ (run.statusText s ++ tail)) := by
    rw [sectionOutput_of_ne run h]
    simp [plainBlock]
  have hmarker : '\n' ∉ (run.plainBlock s).marker ∧ '\r' ∉ (run.plainBlock s).marker :=
    marker_is_line s
  rw [hparts, linesLoop_word hmarker.1 hmarker.2, linesLoop_append]
  unfold statusText
  cases hstatus : run.status s with
  | none => rfl
  | some rc =>
      have hline : ("@@rc=" : Str) ++ decimal rc ++ "\n" ++ tail =
          Block.statusLine rc ++ '\n' :: tail := by
        simp [Block.statusLine]
      have hreturn : '\r' ∉ Block.statusLine rc := by
        intro hmem
        rcases List.mem_append.mp hmem with hmem | hmem
        · exact absurd hmem (by decide)
        · exact absurd (isDecimalDigit_of_mem_decimal hmem) (by decide)
      dsimp only
      rw [hline, linesLoop_word (Block.newline_statusLine rc) hreturn]
      rfl

theorem lines_probeOutput (offline : Bool) :
    lines (run.probeOutput offline) = Block.stream [] ((probeSections offline).map run.block) := by
  have hloop : ∀ (sections : List Section) (p : Str),
      linesLoop p (sections.flatMap run.sectionOutput) =
        Block.stream p (sections.map run.block) := by
    intro sections
    induction sections with
    | nil => exact fun p => rfl
    | cons s sections ih =>
        intro p
        rw [List.flatMap_cons, List.map_cons, Block.stream]
        by_cases hs : s = .gw
        · rw [hs, linesLoop_gw, block_gw, ih]
          rfl
        · rw [linesLoop_plain run hs, block_of_ne run hs, ih, ih]
          rfl
  exact hloop _ []

theorem newline_whole {rest : Str} (h : '\n' ∉ rest) : ∀ l ∈ whole rest, '\n' ∉ l := by
  unfold whole
  split
  · simp
  · simpa using h

theorem newline_lines (text : Str) : ∀ l ∈ lines text, '\n' ∉ l := by
  obtain ⟨hlines, hrest⟩ := newline_not_mem_scan text List.not_mem_nil
  intro l hl
  rw [lines_eq] at hl
  rcases List.mem_append.mp hl with hl | hl
  · exact hlines l hl
  · exact newline_whole hrest l hl

theorem newline_pieces (text : Str) : ∀ l ∈ pieces text, '\n' ∉ l := by
  obtain ⟨hlines, hrest⟩ := newline_not_mem_scan text List.not_mem_nil
  intro l hl
  rcases List.mem_append.mp hl with hl | hl
  · exact hlines l hl
  · rwa [List.mem_singleton.mp hl]

theorem plainBlock_ok {s : Section} (h : s ≠ .gw) : (run.plainBlock s).Ok := by
  obtain ⟨hlines, hrest⟩ := newline_not_mem_scan (run.printed s) List.not_mem_nil
  exact
    { named := naming_name s
      name_dot := (name_plain s).1
      name_mark := (name_plain s).2
      marker_count := .inl (count_name h).2
      newline_own := newline_lines _
      newline_marker := (marker_is_line s).1
      newline_full := hlines
      newline_rest := hrest
      form := .plain (count_name h).1 rfl (lines_eq _) }

theorem full_gwBlock : ∀ l ∈ run.gwBlock.full, l = [] ∨ l ∈ run.gwBlock.own.tail := by
  intro l hl
  have hown : run.gwBlock.own = lines run.gw := rfl
  have hfull : run.gwBlock.full = (pieces run.gw).tail := rfl
  rw [hown, lines_eq]
  rw [hfull, pieces] at hl
  cases hscan : scan [] run.gw with
  | mk ls rest =>
      rw [hscan] at hl
      cases ls with
      | nil => contradiction
      | cons first others =>
          rcases List.mem_append.mp hl with hl | hl
          · exact .inr (List.mem_append_left _ hl)
          · by_cases hrest : rest = []
            · exact .inl ((List.mem_singleton.mp hl).trans hrest)
            · exact .inr (List.mem_append_right _ (by simpa [whole, hrest] using hl))

theorem gwBlock_ok : run.gwBlock.Ok := by
  have hhead : '\n' ∉ (pieces run.gw).headD [] := by
    cases hpieces : pieces run.gw with
    | nil => exact List.not_mem_nil
    | cons first others =>
        have hmem : first ∈ pieces run.gw := by
          rw [hpieces]
          exact List.mem_cons_self
        exact newline_pieces run.gw first hmem
  exact
    { named := naming_gw _
      name_dot := (name_plain .gw).1
      name_mark := (name_plain .gw).2
      marker_count := .inr (by simp [gwBlock])
      newline_own := newline_lines _
      newline_marker := by
        rw [gwBlock, List.mem_append, not_or]
        exact ⟨by decide, hhead⟩
      newline_full := fun l hl => newline_pieces run.gw l (List.mem_of_mem_tail hl)
      newline_rest := List.not_mem_nil
      form := .value rfl run.full_gwBlock rfl }

theorem block_ok (s : Section) : (run.block s).Ok := by
  by_cases hs : s = .gw
  · rw [hs, block_gw]
    exact run.gwBlock_ok
  · rw [block_of_ne run hs]
    exact run.plainBlock_ok hs

theorem nodup_blocks (offline : Bool) :
    (((probeSections offline).map run.block).map Block.name).Nodup := by
  have hnames : ((probeSections offline).map run.block).map Block.name =
      (probeSections offline).map Section.name := by
    rw [List.map_map]
    exact List.map_congr_left fun s _ => run.block_name s
  rw [hnames]
  exact nodup_names offline

/-! ## When sections stay apart -/

/-- Every section is made of the lines its own commands printed. -/
def Isolated (offline : Bool) : Prop :=
  ∀ s ∈ probeSections offline, (splitSections (run.probeOutput offline)).find? s.name =
    some (sectionText (lines (run.printed s)))

end Run

/-- The value of the gateway: no later line carries the mark; the first line has no blanks at its
ends, and the last one is there, unless nothing but line ends is. -/
def GwFramed (value : Str) : Prop :=
  (∀ l ∈ (lines value).tail, startsWith l "@@" = false) ∧
    ((∀ l ∈ lines value, l = []) ∨
      endsLine value = false ∧ (lines value).head? ≠ some [] ∧
        ∀ first ∈ (lines value).head?, trim first = first)

instance (value : Str) : Decidable (GwFramed value) := inferInstanceAs (Decidable (_ ∧ _))

/-- An output that the next marker line does not run into and that carries no mark. -/
def OutputFramed (text : Str) : Prop :=
  endsLine text = true ∧ ∀ l ∈ lines text, startsWith l "@@" = false

instance (text : Str) : Decidable (OutputFramed text) := inferInstanceAs (Decidable (_ ∧ _))

namespace Run

variable (run : Run)

def SectionFramed (s : Section) : Prop :=
  if s = .gw then GwFramed run.gw else OutputFramed (run.printed s)

instance (s : Section) : Decidable (run.SectionFramed s) :=
  inferInstanceAs (Decidable (if s = .gw then GwFramed run.gw else OutputFramed (run.printed s)))

theorem text_plainBlock_iff (s : Section) :
    (run.plainBlock s).rest = [] ∧ (∀ l ∈ (run.plainBlock s).full, ¬Marked l) ↔
      OutputFramed (run.printed s) := by
  unfold OutputFramed
  rw [endsLine_iff]
  constructor
  · rintro ⟨hrest, hfull⟩
    have hlines : lines (run.printed s) = (run.plainBlock s).full := by
      have hwhole : whole (scan [] (run.printed s)).2 = [] := if_pos hrest
      rw [lines_eq, hwhole, List.append_nil]
      rfl
    refine ⟨hrest, fun l hl => ?_⟩
    rw [hlines] at hl
    exact Bool.not_eq_true _ ▸ hfull l hl
  · rintro ⟨hrest, hlines⟩
    refine ⟨hrest, fun l hl hmark => ?_⟩
    have hfull : l ∈ lines (run.printed s) := by
      rw [lines_eq]
      exact List.mem_append_left _ hl
    rw [Marked, hlines l hfull] at hmark
    contradiction

theorem eq_of_cons_eq_snoc {l : List Str} {first last : Str} (h : first :: l = l ++ [last]) :
    ∀ x ∈ first :: l, x = last := by
  induction l generalizing first with
  | nil => simpa using h
  | cons second l ih =>
      obtain ⟨rfl, htail⟩ := List.cons.inj h
      have hrest := ih htail
      intro x hx
      rcases List.mem_cons.mp hx with rfl | hx
      · exact hrest x List.mem_cons_self
      · exact hrest x hx

theorem cons_eq_snoc {l : List Str} {x : Str} (h : ∀ y ∈ l, y = x) : x :: l = l ++ [x] := by
  induction l with
  | nil => rfl
  | cons y l ih =>
      obtain ⟨rfl, hl⟩ := List.forall_mem_cons.mp h
      rw [List.cons_append, ← ih hl]

/-- A marker line carries the first line of a value without the blanks at its ends. -/
theorem carried_iff (ls : List Str) (rest : Str) :
    whole (trim ((ls ++ [rest]).headD [])) ++ (ls ++ [rest]).tail = ls ++ whole rest ↔
      (∀ l ∈ ls ++ whole rest, l = []) ∨
        rest ≠ [] ∧ (ls ++ whole rest).head? ≠ some [] ∧
          ∀ first ∈ (ls ++ whole rest).head?, trim first = first := by
  have hnil : trim [] = [] := rfl
  cases ls with
  | nil =>
      by_cases hrest : rest = []
      · rw [hrest]
        simp [whole, hnil]
      · by_cases htrim : trim rest = [] <;> simp [whole, hrest, htrim]
  | cons first others =>
      by_cases hrest : rest = []
      · by_cases htrim : trim first = []
        · have hlist : others ++ [[]] = first :: others ↔ ∀ l ∈ first :: others, l = [] := by
            constructor
            · exact fun h => eq_of_cons_eq_snoc h.symm
            · intro h
              obtain ⟨rfl, hothers⟩ := List.forall_mem_cons.mp h
              exact (cons_eq_snoc hothers).symm
          simpa [whole, hrest, htrim] using hlist
        · have hfirst : first ≠ [] := by
            rintro rfl
            exact htrim hnil
          simp [whole, hrest, htrim, hfirst]
      · by_cases htrim : trim first = []
        · simp [whole, hrest, htrim]
        · have hfirst : first ≠ [] := by
            rintro rfl
            exact htrim hnil
          simp [whole, hrest, htrim, hfirst]

theorem text_gwBlock_iff :
    run.gwBlock.text = sectionText (lines run.gw) ↔
      (∀ l ∈ lines run.gw, l = []) ∨
        endsLine run.gw = false ∧ (lines run.gw).head? ≠ some [] ∧
          ∀ first ∈ (lines run.gw).head?, trim first = first := by
  have hlist : run.gwBlock.text = sectionText (whole run.gwBlock.arg ++ run.gwBlock.full) := by
    rw [sectionText_append, Block.text]
    congr 1
    unfold argText whole
    split <;> simp [sectionText]
  have hnewline : ∀ l ∈ whole run.gwBlock.arg ++ run.gwBlock.full, '\n' ∉ l := by
    intro l hl
    rcases List.mem_append.mp hl with hl | hl
    · exact newline_whole (fun hmem => run.gwBlock_ok.newline_marker
        (arg_subset run.gwBlock_ok.named hmem)) l hl
    · exact run.gwBlock_ok.newline_full l hl
  have hsame : run.gwBlock.text = sectionText (lines run.gw) ↔
      whole run.gwBlock.arg ++ run.gwBlock.full = lines run.gw := by
    rw [hlist]
    exact ⟨sectionText_injective hnewline (newline_lines _), fun h => by rw [h]⟩
  have hends : endsLine run.gw = false ↔ (scan [] run.gw).2 ≠ [] := by
    rw [← Bool.not_eq_true, endsLine_iff]
  rw [hsame, hends, lines_eq, gwBlock, pieces]
  cases scan [] run.gw with
  | mk ls rest => exact carried_iff ls rest

section Apart

variable {run} {offline : Bool}

theorem splitSections_eq : splitSections (run.probeOutput offline) =
    ((Block.stream [] ((probeSections offline).map run.block)).foldl splitLine (.empty, [])).1 := by
  rw [splitSections, lines_probeOutput]

theorem blocks_ok : ∀ b ∈ (probeSections offline).map run.block, b.Ok := by
  intro b hb
  obtain ⟨s, -, rfl⟩ := List.mem_map.mp hb
  exact run.block_ok s

/-- Framed sections are recorded one by one. -/
theorem splitSections_of_framed (h : ∀ s ∈ probeSections offline, run.SectionFramed s) :
    splitSections (run.probeOutput offline) =
      ((probeSections offline).map run.block).foldl Block.record .empty := by
  rw [splitSections_eq]
  apply Block.foldl_stream blocks_ok
  intro b hb
  obtain ⟨s, hs, rfl⟩ := List.mem_map.mp hb
  have hframed := h s hs
  unfold SectionFramed at hframed
  split at hframed
  · rename_i hgw
    rw [hgw, block_gw]
    refine ⟨rfl, fun l hl hmark => ?_⟩
    rcases run.full_gwBlock l hl with rfl | htail
    · exact absurd hmark (by decide)
    · rw [Marked, hframed.1 l htail] at hmark
      contradiction
  · rename_i hgw
    rw [block_of_ne run hgw]
    exact (text_plainBlock_iff run s).mpr hframed

theorem text_of_framed {s : Section} (h : run.SectionFramed s) :
    (run.block s).text = sectionText (lines (run.printed s)) := by
  unfold SectionFramed at h
  split at h
  · rename_i hgw
    rw [hgw, block_gw]
    exact run.text_gwBlock_iff.mpr h.2
  · rename_i hgw
    have hrest := ((text_plainBlock_iff run s).mpr h).1
    have hwhole : whole (scan [] (run.printed s)).2 = [] := if_pos hrest
    rw [block_of_ne run hgw, lines_eq, hwhole, List.append_nil]
    rfl

theorem isolated_of_framed (h : ∀ s ∈ probeSections offline, run.SectionFramed s) :
    run.Isolated offline := by
  intro s hs
  have hfind := Block.find?_foldl_record (fun b hb => (blocks_ok b hb).name_dot)
    (run.nodup_blocks offline) .empty (run.block s) (List.mem_map_of_mem hs)
  rw [block_name] at hfind
  rw [splitSections_of_framed h, hfind, text_of_framed (h s hs)]

theorem kept_of_isolated (h : run.Isolated offline) :
    ∀ b ∈ (probeSections offline).map run.block,
      ((Block.stream [] ((probeSections offline).map run.block)).foldl splitLine
        (.empty, [])).1.find? b.name = some (sectionText b.own) := by
  intro b hb
  obtain ⟨s, hs, rfl⟩ := List.mem_map.mp hb
  rw [← splitSections_eq, block_name, block_own]
  exact h s hs

/-- The last section is the gateway, which keeps its own line, or one with an exit code. -/
theorem rest_of_last {s : Section}
    (h : ((probeSections offline).map run.block).getLast? = some (run.block s))
    (hstatus : (run.block s).status = none) : (run.block s).rest = [] := by
  cases offline with
  | true =>
      have hlast : ((probeSections true).map run.block).getLast? = some run.gwBlock := rfl
      rw [hlast, Option.some.injEq] at h
      rw [← h]
      rfl
  | false =>
      have hlast : ((probeSections false).map run.block).getLast? =
          some (run.plainBlock .dns) := rfl
      rw [hlast, Option.some.injEq] at h
      rw [← h] at hstatus
      contradiction

theorem framed_of_isolated (h : run.Isolated offline) :
    ∀ s ∈ probeSections offline, run.SectionFramed s := by
  have hkept := kept_of_isolated h
  have hnodup := run.nodup_blocks offline
  have hplain : ∀ b ∈ (probeSections offline).map run.block, b.Unmarked := fun b hb =>
    Block.plain_of_kept blocks_ok hkept hnodup hb
  obtain ⟨-, hrests⟩ := Block.rest_of_kept blocks_ok hplain hnodup (p := []) (by decide)
    (fun b hb => OrdMap.find?_empty b.name)
    (fun b hb => (name_ne_nil (blocks_ok b hb).named).symm) hkept
  have hrest : ∀ s ∈ probeSections offline, (run.block s).rest = [] := by
    intro s hs
    rcases hrests _ (List.mem_map_of_mem hs) with hrest | ⟨hlast, hstatus⟩
    · exact hrest
    · exact rest_of_last hlast hstatus
  intro s hs
  have hmem : run.block s ∈ (probeSections offline).map run.block := List.mem_map_of_mem hs
  unfold SectionFramed
  split
  · rename_i hgw
    rw [hgw] at hs hmem
    have htail := Block.tail_not_marked blocks_ok hkept hmem
    -- nothing runs over, so the section holds what its block says
    have hfold := Block.foldl_stream blocks_ok (fun b hb => by
      obtain ⟨t, ht, rfl⟩ := List.mem_map.mp hb
      exact ⟨hrest t ht, (hplain _ hb).1⟩) (.empty, [])
    have hfind := Block.find?_foldl_record (fun b hb => (blocks_ok b hb).name_dot) hnodup .empty
      (run.block .gw) hmem
    rw [← hfold, hkept _ hmem, Option.some.injEq, block_gw] at hfind
    rw [block_gw] at htail
    exact ⟨fun l hl => Bool.not_eq_true _ ▸ htail l hl, run.text_gwBlock_iff.mp hfind.symm⟩
  · rename_i hgw
    apply (text_plainBlock_iff run s).mp
    rw [← block_of_ne run hgw]
    exact ⟨hrest s hs, (hplain _ hmem).1⟩

end Apart

end Run

/-- The keys of a section in the result. -/
def Section.keys (s : Section) : List Str := [s.name, s.name ++ ".rc"]

/-- Sections are what their commands printed exactly when every output is framed, and then a
section depends on its own commands only. -/
theorem sections_apart_iff (offline : Bool) (run : Run) :
    (run.Isolated offline ↔ ∀ s ∈ probeSections offline, run.SectionFramed s) ∧
      ∀ (other : Run) (s : Section),
        (∀ t ∈ probeSections offline, run.SectionFramed t ∧ other.SectionFramed t) →
        (∀ t ≠ s, run.printed t = other.printed t ∧ run.status t = other.status t) →
        ∀ key ∉ s.keys, (splitSections (run.probeOutput offline)).find? key =
          (splitSections (other.probeOutput offline)).find? key := by
  refine ⟨⟨Run.framed_of_isolated, Run.isolated_of_framed⟩, ?_⟩
  intro other s hframed hsame key hkey
  rw [Section.keys, List.mem_cons, List.mem_singleton, not_or] at hkey
  rw [Run.splitSections_of_framed fun t ht => (hframed t ht).1,
    Run.splitSections_of_framed fun t ht => (hframed t ht).2]
  apply Block.find?_foldl_record_congr
  · intro t
    rw [Run.block_name, Run.block_name]
  · intro t _
    by_cases ht : t = s
    · right
      rw [Run.block_name, ht]
      exact ⟨fun h => hkey.1 h.symm, fun h => hkey.2 h.symm⟩
    · left
      obtain ⟨hprinted, hstatus⟩ := hsame t ht
      unfold Run.block
      split
      · rename_i hgw
        have hvalue : run.gw = other.gw := by
          rw [hgw] at hprinted
          exact hprinted
        rw [Run.gwBlock, Run.gwBlock, hvalue]
      · rw [Run.plainBlock, Run.plainBlock, hprinted, hstatus]

def exampleRun (resolvConf : Str) : Run :=
  { output := fun
      | .cat => resolvConf
      | .gateway => "10.0.0.1\n"
      | .nc => "nc: connect to 10.0.0.1 port 22 (tcp) failed: Connection refused\n"
      | .drill => "93.184.216.34\n"
      | _ => "text\n"
    ncStatus := 1
    drillStatus := 0 }

theorem example_run_isolated : (exampleRun "nameserver 10.0.0.1\n").Isolated false :=
  (sections_apart_iff false _).1.mpr (by decide)

/-- A `resolv.conf` without a line end at its end takes the next section with it. -/
theorem open_line_hides_gateway :
    ¬(exampleRun "nameserver 10.0.0.1").Isolated false ∧
      ∃ key ∉ Section.resolv.keys,
        (splitSections ((exampleRun "nameserver 10.0.0.1").probeOutput false)).find? key ≠
          (splitSections ((exampleRun "nameserver 10.0.0.1\n").probeOutput false)).find? key := by
  have hopen : (splitSections ((exampleRun "nameserver 10.0.0.1").probeOutput false)).find? "gw" =
      none := by decide
  have hclosed : (splitSections ((exampleRun "nameserver 10.0.0.1\n").probeOutput false)).find?
      "gw" = some ("10.0.0.1\n" : Str) := by decide
  constructor
  · intro h
    have hsection := h .gw (by decide)
    exact absurd (hopen.symm.trans hsection) (by simp)
  · refine ⟨"gw", by decide, ?_⟩
    rw [hopen, hclosed]
    simp

end Crate.JailAuditPure
