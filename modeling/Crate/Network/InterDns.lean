import Crate.Foundation.Check
import Crate.Foundation.Occurrences
import Crate.Foundation.Run
import Crate.Foundation.Sort

/-!
# The managed block of the hosts file

`lib/inter_dns_pure.cpp`.  Whenever a container starts or stops, crate writes
the block anew between its two marker lines.  The operator owns the text around
the block and may change it at any time.
-/

namespace Crate.InterDnsPure

open Crate.Foundation

def BLOCK_BEGIN : Str := "# >>> crate inter-container DNS <<<"

def BLOCK_END : Str := "# <<< crate inter-container DNS >>>"

structure Entry where
  name : Str
  ip4 : Str := []
  ip6 : Str := []
  deriving DecidableEq, Repr

def isAlnum (c : Char) : Bool :=
  ('a' ≤ c && c ≤ 'z') || ('A' ≤ c && c ≤ 'Z') || ('0' ≤ c && c ≤ '9')

def validateHostname (name : Str) : Check := do
  reject (name = []) "hostname is empty"
  reject (name.length > 63) "hostname is longer than 63 chars"
  reject (!name.head?.any isAlnum) "hostname must start with a letter or digit"
  reject (!name.getLast?.any isAlnum) "hostname must end with a letter or digit"
  checkChars (fun c => isAlnum c || c = '-') "hostname" name

def lowerChar (c : Char) : Char :=
  if 'A' ≤ c ∧ c ≤ 'Z' then Char.ofNat (c.toNat - 'A'.toNat + 'a'.toNat) else c

def normalizeName (name : Str) : Str := name.map lowerChar

def sortedByName (impl : StdSort) (entries : List Entry) : List Entry :=
  impl.sort (fun a b => normalizeName a.name < normalizeName b.name) entries

def hostsRow (e : Entry) : Str :=
  let n := normalizeName e.name
  if e.ip4 ≠ [] then e.ip4 ++ "\t" ++ n ++ ".crate " ++ n ++ "\n"
  else if e.ip6 ≠ [] then e.ip6 ++ "\t" ++ n ++ ".crate " ++ n ++ "\n"
  else []

def buildHostsBlock (impl : StdSort) (entries : List Entry) : Str :=
  BLOCK_BEGIN ++ "\n" ++ (sortedByName impl entries).flatMap hostsRow ++ BLOCK_END ++ "\n"

/-- `if (!out.empty() && out.back() != '\n') out += '\n';` -/
def endLine (s : Str) : Str :=
  match s.getLast? with
  | none => s
  | some c => if c = '\n' then s else s ++ ['\n']

def dropNewline : Str → Str
  | '\n' :: rest => rest
  | s => s

def replaceHostsBlock (existing block : Str) : Str :=
  match splitFirst BLOCK_BEGIN existing with
  | none => endLine existing ++ block
  | some (before, behind) =>
      -- the end marker is looked for from the begin marker on
      match splitFirst BLOCK_END (BLOCK_BEGIN ++ behind) with
      | none => endLine before ++ block
      | some (_, after) => before ++ block ++ dropNewline after

/-! ## The operator and crate take turns -/

/-- The block in a text: from the begin marker to the end of the line of the end marker. -/
def managedBlock (text : Str) : Str :=
  match splitFirst BLOCK_BEGIN text with
  | none => []
  | some (_, behind) =>
      match splitFirst BLOCK_END (BLOCK_BEGIN ++ behind) with
      | none => []
      | some (body, _) => body ++ BLOCK_END ++ "\n"

inductive Event where
  | rebuild (entries : List Entry)
  /-- The operator changes what stands before and behind the block. -/
  | edit (before after : Str)

def step (impl : StdSort) (text : Str) : Event → Str
  | .rebuild entries => replaceHostsBlock text (buildHostsBlock impl entries)
  | .edit before after => before ++ managedBlock text ++ after

/--
What the callers hand over: names that passed `validateHostname`, and address
texts, in which `#` has no place.
-/
structure Entry.WellFormed (e : Entry) : Prop where
  name : validateHostname e.name = .ok ()
  ip4 : '#' ∉ e.ip4
  ip6 : '#' ∉ e.ip6

/-- An edit must not introduce a marker. -/
def Admissible (impl : StdSort) (text : Str) : Event → Prop
  | .rebuild entries => ∀ e ∈ entries, e.WellFormed
  | .edit before after =>
      ∀ marker ∈ [BLOCK_BEGIN, BLOCK_END],
        occurrences marker (step impl text (.edit before after)) ≤ occurrences marker text

/-- What the file should hold: the operator's text on both sides and the last entries. -/
structure View where
  before : Str
  last : Option (List Entry) := none
  after : Str := []

def View.step (v : View) : Event → View
  | .rebuild entries =>
      match v.last with
      | none => { before := endLine (v.before ++ v.after), last := some entries }
      | some _ => { v with last := some entries }
  | .edit before after => { v with before, after }

def View.block (impl : StdSort) (v : View) : Str := (v.last.map (buildHostsBlock impl)).getD []

def View.text (impl : StdSort) (v : View) : Str := v.before ++ v.block impl ++ v.after

/-! ## The markers in a file with one block -/

/-- The markers behind the `#` they begin with. -/
def beginRest : Str := " >>> crate inter-container DNS <<<"

def endRest : Str := " <<< crate inter-container DNS >>>"

theorem begin_eq : BLOCK_BEGIN = '#' :: beginRest := rfl

theorem end_eq : BLOCK_END = '#' :: endRest := rfl

theorem hash_not_mem_begin : '#' ∉ beginRest := by
  decide

theorem hash_not_mem_end : '#' ∉ endRest := by
  decide

theorem newline_not_mem_begin : '\n' ∉ beginRest := by
  decide

theorem newline_not_mem_end : '\n' ∉ endRest := by
  decide

theorem lowerChar_ne_hash {c : Char} (h : c ≠ '#') : lowerChar c ≠ '#' := by
  unfold lowerChar
  split
  · rename_i hupper
    have hlow : 65 ≤ c.toNat := hupper.1
    have hhigh : c.toNat ≤ 90 := hupper.2
    intro heq
    have hnat := congrArg Char.toNat heq
    rw [Char.toNat_ofNat, if_pos (by left; change c.toNat - 65 + 97 < 0xd800; omega)] at hnat
    change c.toNat - 65 + 97 = 35 at hnat
    omega
  · exact h

theorem hash_not_mem_normalizeName {name : Str} (h : validateHostname name = .ok ()) :
    '#' ∉ normalizeName name := by
  simp only [validateHostname, check_seq_eq_ok, checkChars_eq_ok] at h
  obtain ⟨-, -, -, -, hchars⟩ := h
  intro hmem
  obtain ⟨c, hc, hlower⟩ := List.mem_map.mp hmem
  refine lowerChar_ne_hash ?_ hlower
  rintro rfl
  exact absurd (hchars _ hc) (by decide)

theorem hash_not_mem_hostsRow {e : Entry} (h : e.WellFormed) : '#' ∉ hostsRow e := by
  have hname := hash_not_mem_normalizeName h.name
  have := h.ip4
  have := h.ip6
  unfold hostsRow
  dsimp only
  split_ifs <;> simp [*]

section Block

variable {impl : StdSort} {entries : List Entry} {before after : Str}

def rows (impl : StdSort) (entries : List Entry) : Str :=
  (sortedByName impl entries).flatMap hostsRow

theorem hash_not_mem_rows (h : ∀ e ∈ entries, e.WellFormed) : '#' ∉ rows impl entries := by
  intro hmem
  obtain ⟨e, he, hhash⟩ := List.mem_flatMap.mp hmem
  have horder : StrictWeak fun a b : Entry => normalizeName a.name < normalizeName b.name :=
    StrictWeak.of_key_iff (fun e => normalizeName e.name) fun _ _ => decide_eq_true_iff
  have hin : e ∈ entries := (impl.mem_sort horder).mp he
  exact hash_not_mem_hostsRow (h e hin) hhash

theorem around_eq :
    before ++ buildHostsBlock impl entries ++ after =
      before ++ '#' :: (beginRest ++ '\n' :: (rows impl entries ++
        '#' :: (endRest ++ '\n' :: after))) := by
  simp [buildHostsBlock, begin_eq, end_eq, rows]

/-- A file with a block holds each marker once more than the operator's text. -/
theorem occurrences_around {m : Str} (hhash : '#' ∉ m) (hnewline : '\n' ∉ m)
    (hmarkers : occurrences ('#' :: m) ('#' :: beginRest) +
      occurrences ('#' :: m) ('#' :: endRest) = 1) (h : ∀ e ∈ entries, e.WellFormed) :
    occurrences ('#' :: m) (before ++ buildHostsBlock impl entries ++ after) =
      occurrences ('#' :: m) before + 1 + occurrences ('#' :: m) after := by
  have hrows := occurrences_of_not_mem (m := m) (@hash_not_mem_rows impl entries h)
  have hlead : ∀ text : Str, '#' :: (beginRest ++ text) = ('#' :: beginRest) ++ text :=
    fun _ => rfl
  have hlast : ∀ text : Str, '#' :: (endRest ++ text) = ('#' :: endRest) ++ text :=
    fun _ => rfl
  rw [around_eq, occurrences_append hhash, hlead, occurrences_append hnewline,
    occurrences_cons_ne (d := '\n') (by decide), occurrences_append hhash, hrows, hlast,
    occurrences_append hnewline, occurrences_cons_ne (d := '\n') (by decide)]
  omega

theorem splitFirst_begin (h : occurrences BLOCK_BEGIN before = 0) :
    splitFirst BLOCK_BEGIN (before ++ buildHostsBlock impl entries ++ after) =
      some (before, '\n' :: (rows impl entries ++ (BLOCK_END ++ '\n' :: after))) := by
  rw [begin_eq] at h ⊢
  rw [around_eq]
  exact splitFirst_of_occurrences hash_not_mem_begin h

theorem splitFirst_end (h : ∀ e ∈ entries, e.WellFormed) :
    splitFirst BLOCK_END
        (BLOCK_BEGIN ++ '\n' :: (rows impl entries ++ (BLOCK_END ++ '\n' :: after))) =
      some (BLOCK_BEGIN ++ '\n' :: rows impl entries, '\n' :: after) := by
  have hnone : occurrences BLOCK_END (BLOCK_BEGIN ++ '\n' :: rows impl entries) = 0 := by
    rw [end_eq, occurrences_append newline_not_mem_end, occurrences_cons_ne (by decide),
      occurrences_of_not_mem (hash_not_mem_rows h)]
    decide
  rw [end_eq] at hnone ⊢
  rw [← List.cons_append, ← List.append_assoc]
  exact splitFirst_of_occurrences hash_not_mem_end hnone

/-- A block takes the place of the one in the file. -/
theorem replaceHostsBlock_around (hbefore : occurrences BLOCK_BEGIN before = 0)
    (h : ∀ e ∈ entries, e.WellFormed) (block : Str) :
    replaceHostsBlock (before ++ buildHostsBlock impl entries ++ after) block =
      before ++ block ++ after := by
  rw [replaceHostsBlock, splitFirst_begin hbefore]
  simp only
  rw [splitFirst_end h]
  rfl

theorem managedBlock_around (hbefore : occurrences BLOCK_BEGIN before = 0)
    (h : ∀ e ∈ entries, e.WellFormed) :
    managedBlock (before ++ buildHostsBlock impl entries ++ after) =
      buildHostsBlock impl entries := by
  rw [managedBlock, splitFirst_begin hbefore]
  simp only
  rw [splitFirst_end h]
  simp [buildHostsBlock, rows]

theorem occurrences_begin_around (h : ∀ e ∈ entries, e.WellFormed) :
    occurrences BLOCK_BEGIN (before ++ buildHostsBlock impl entries ++ after) =
      occurrences BLOCK_BEGIN before + 1 + occurrences BLOCK_BEGIN after :=
  occurrences_around hash_not_mem_begin newline_not_mem_begin (by decide) h

theorem occurrences_end_around (h : ∀ e ∈ entries, e.WellFormed) :
    occurrences BLOCK_END (before ++ buildHostsBlock impl entries ++ after) =
      occurrences BLOCK_END before + 1 + occurrences BLOCK_END after :=
  occurrences_around hash_not_mem_end newline_not_mem_end (by decide) h

end Block

/-! ## Runs -/

structure MarkerFree (s : Str) : Prop where
  noBegin : occurrences BLOCK_BEGIN s = 0
  noEnd : occurrences BLOCK_END s = 0

theorem MarkerFree.endLine {s : Str} (h : MarkerFree s) : MarkerFree (endLine s) := by
  unfold InterDnsPure.endLine
  split
  · exact h
  · split
    · exact h
    · constructor
      · rw [begin_eq, occurrences_append newline_not_mem_begin, ← begin_eq, h.noBegin]
        rfl
      · rw [end_eq, occurrences_append newline_not_mem_end, ← end_eq, h.noEnd]
        rfl

theorem splitFirst_markerFree {s : Str} (h : MarkerFree s) : splitFirst BLOCK_BEGIN s = none := by
  apply splitFirst_eq_none_of_not_infix
  rw [begin_eq, ← occurrences_eq_zero_iff (List.cons_ne_nil _ _)]
  exact h.noBegin

/-- The operator's text has no marker, and the entries of the block are well formed. -/
def View.Clean (v : View) : Prop :=
  match v.last with
  | none => MarkerFree (v.before ++ v.after)
  | some entries =>
      MarkerFree v.before ∧ MarkerFree v.after ∧ ∀ e ∈ entries, e.WellFormed

section Runs

variable {impl : StdSort} {v : View}

theorem clean_rebuild {entries : List Entry} (h : v.Clean) (hwf : ∀ e ∈ entries, e.WellFormed) :
    (v.step (.rebuild entries)).Clean ∧
      step impl (v.text impl) (.rebuild entries) = (v.step (.rebuild entries)).text impl := by
  obtain ⟨before, last, after⟩ := v
  cases last with
  | none =>
      have hfree : MarkerFree (before ++ after) := h
      refine ⟨⟨hfree.endLine, ⟨rfl, rfl⟩, hwf⟩, ?_⟩
      simp [step, View.step, View.text, View.block, replaceHostsBlock, splitFirst_markerFree hfree]
  | some old =>
      obtain ⟨hbefore, hafter, hold⟩ := h
      exact ⟨⟨hbefore, hafter, hwf⟩, replaceHostsBlock_around hbefore.noBegin hold _⟩

theorem clean_edit {before after : Str} (h : v.Clean)
    (hadm : Admissible impl (v.text impl) (.edit before after)) :
    (v.step (.edit before after)).Clean ∧
      step impl (v.text impl) (.edit before after) =
        (v.step (.edit before after)).text impl := by
  obtain ⟨oldBefore, last, oldAfter⟩ := v
  have hbegin := hadm BLOCK_BEGIN (by simp)
  have hend := hadm BLOCK_END (by simp)
  cases last with
  | none =>
      have hfree : MarkerFree (oldBefore ++ oldAfter) := h
      have htext : View.text impl ⟨oldBefore, none, oldAfter⟩ = oldBefore ++ oldAfter := by
        simp [View.text, View.block]
      have hstep : step impl (oldBefore ++ oldAfter) (.edit before after) = before ++ after := by
        simp [step, managedBlock, splitFirst_markerFree hfree]
      rw [htext, hstep] at hbegin hend
      rw [hfree.noBegin] at hbegin
      rw [hfree.noEnd] at hend
      refine ⟨⟨Nat.le_zero.mp hbegin, Nat.le_zero.mp hend⟩, ?_⟩
      rw [htext, hstep]
      simp [View.step, View.text, View.block]
  | some entries =>
      obtain ⟨hbefore, hafter, hwf⟩ := h
      have htext : View.text impl ⟨oldBefore, some entries, oldAfter⟩ =
          oldBefore ++ buildHostsBlock impl entries ++ oldAfter := rfl
      have hstep : step impl (oldBefore ++ buildHostsBlock impl entries ++ oldAfter)
          (.edit before after) = before ++ buildHostsBlock impl entries ++ after := by
        rw [step, managedBlock_around hbefore.noBegin hwf]
      rw [htext, hstep, occurrences_begin_around hwf, occurrences_begin_around hwf,
        hbefore.noBegin, hafter.noBegin] at hbegin
      rw [htext, hstep, occurrences_end_around hwf, occurrences_end_around hwf,
        hbefore.noEnd, hafter.noEnd] at hend
      have hfront : MarkerFree before := ⟨by omega, by omega⟩
      have hback : MarkerFree after := ⟨by omega, by omega⟩
      refine ⟨⟨hfront, hback, hwf⟩, ?_⟩
      rw [htext, hstep]
      rfl

/-- An operator who writes no marker may edit. -/
theorem admissible_edit {before after : Str} (h : v.Clean) (hlast : v.last.isSome = true)
    (hbefore : MarkerFree before) (hafter : MarkerFree after) :
    Admissible impl (v.text impl) (.edit before after) := by
  obtain ⟨oldBefore, last, oldAfter⟩ := v
  cases last with
  | none => contradiction
  | some entries =>
      obtain ⟨hfront, -, hwf⟩ := h
      have htext : View.text impl ⟨oldBefore, some entries, oldAfter⟩ =
          oldBefore ++ buildHostsBlock impl entries ++ oldAfter := rfl
      intro marker hmarker
      rw [htext, step, managedBlock_around hfront.noBegin hwf]
      rcases List.mem_pair.mp hmarker with rfl | rfl
      · rw [occurrences_begin_around hwf, occurrences_begin_around hwf, hbefore.noBegin,
          hafter.noBegin]
        omega
      · rw [occurrences_end_around hwf, occurrences_end_around hwf, hbefore.noEnd, hafter.noEnd]
        omega

theorem clean_step {e : Event} (h : v.Clean) (hadm : Admissible impl (v.text impl) e) :
    (v.step e).Clean ∧ step impl (v.text impl) e = (v.step e).text impl := by
  cases e with
  | rebuild entries => exact clean_rebuild h hadm
  | edit before after => exact clean_edit h hadm

theorem run_eq_text {events : List Event} (h : v.Clean)
    (hmeet : StepsMeet (step impl) (Admissible impl) (v.text impl) events) :
    (events.foldl View.step v).Clean ∧
      run (step impl) (v.text impl) events = (events.foldl View.step v).text impl := by
  induction events generalizing v with
  | nil => exact ⟨h, rfl⟩
  | cons e rest ih =>
      obtain ⟨hadm, hrest⟩ := hmeet
      obtain ⟨hclean, htext⟩ := clean_step h hadm
      rw [htext] at hrest
      have hrun := ih hclean hrest
      rw [← htext] at hrun
      exact hrun

theorem rebuild_twice {entries : List Entry} (h : v.Clean)
    (hwf : ∀ e ∈ entries, e.WellFormed) :
    step impl (step impl (v.text impl) (.rebuild entries)) (.rebuild entries) =
      step impl (v.text impl) (.rebuild entries) := by
  obtain ⟨hclean, htext⟩ := @clean_rebuild impl v entries h hwf
  rw [htext, (clean_rebuild hclean hwf).2]
  cases hlast : v.last <;> simp [View.step, hlast]

/--
The hosts file after any run: the operator's text around the block of the last
entries, each marker once, and nothing to change for the same entries.
-/
theorem hosts_file_around_one_block {start : Str} {events : List Event}
    (hbegin : ¬BLOCK_BEGIN <:+: start) (hend : ¬BLOCK_END <:+: start)
    (hmeet : StepsMeet (step impl) (Admissible impl) start events) :
    let v := events.foldl View.step { before := start }
    let text := run (step impl) start events
    text = v.before ++ v.block impl ++ v.after ∧
      (v.last.isSome = true →
        occurrences BLOCK_BEGIN text = 1 ∧ occurrences BLOCK_END text = 1) ∧
      ∀ entries, (∀ e ∈ entries, e.WellFormed) →
        step impl (step impl text (.rebuild entries)) (.rebuild entries) =
          step impl text (.rebuild entries) := by
  intro v text
  have hstart : View.text impl { before := start } = start := by
    simp [View.text, View.block]
  have hfree : View.Clean { before := start } := by
    have hcount : MarkerFree start :=
      ⟨(occurrences_eq_zero_iff (by decide)).mpr hbegin,
        (occurrences_eq_zero_iff (by decide)).mpr hend⟩
    simpa [View.Clean] using hcount
  rw [← hstart] at hmeet
  obtain ⟨hclean, htext⟩ := run_eq_text hfree hmeet
  rw [hstart] at htext
  refine ⟨htext, ?_, ?_⟩
  · intro hsome
    obtain ⟨entries, hlast⟩ := Option.isSome_iff_exists.mp hsome
    have hview : text = v.before ++ buildHostsBlock impl entries ++ v.after := by
      have hblock : v.block impl = buildHostsBlock impl entries := by
        rw [View.block, hlast]
        rfl
      rw [← hblock]
      exact htext
    have hparts : MarkerFree v.before ∧ MarkerFree v.after ∧ ∀ e ∈ entries, e.WellFormed := by
      have hv : v.Clean := hclean
      rw [View.Clean, hlast] at hv
      exact hv
    obtain ⟨hbefore, hafter, hwf⟩ := hparts
    rw [hview, occurrences_begin_around hwf, occurrences_end_around hwf, hbefore.noBegin,
      hbefore.noEnd, hafter.noBegin, hafter.noEnd]
    exact ⟨rfl, rfl⟩
  · intro entries hwf
    have htwice := @rebuild_twice impl v entries hclean hwf
    rw [← htext] at htwice
    exact htwice

end Runs

def web : Entry := { name := "web", ip4 := "10.0.0.2" }

/-- The operator puts a comment in front of the block and a host behind it. -/
def exampleEvents : List Event := [.rebuild [web], .edit "# lab\n" "10.0.0.9 nas\n"]

theorem example_run_keeps_operator_text :
    run (step StdSort.insertionSort) "127.0.0.1 localhost" exampleEvents =
      "# lab\n" ++ buildHostsBlock StdSort.insertionSort [web] ++ "10.0.0.9 nas\n" := by
  have hwf : ∀ e ∈ [web], e.WellFormed := by
    intro e he
    rw [List.mem_singleton.mp he]
    exact ⟨rfl, by decide, by decide⟩
  have hstart : View.Clean { before := "127.0.0.1 localhost" } := by
    exact ⟨by decide, by decide⟩
  obtain ⟨hclean, htext⟩ := @clean_rebuild StdSort.insertionSort _ _ hstart hwf
  have hedit := @admissible_edit StdSort.insertionSort _ "# lab\n" "10.0.0.9 nas\n" hclean rfl
    ⟨by decide, by decide⟩ ⟨by decide, by decide⟩
  rw [← htext] at hedit
  exact (@hosts_file_around_one_block StdSort.insertionSort "127.0.0.1 localhost" exampleEvents
    (by decide) (by decide) ⟨hwf, hedit, trivial⟩).1

end Crate.InterDnsPure
