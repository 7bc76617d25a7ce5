import Crate.Foundation.Outcome
import Crate.Foundation.Run
import Crate.Registry.SpecRegistry

/-!
# The spec registry as a map

Writing to the spec registry: each call takes the lock, reads the whole file,
and replaces it.  What is written is read back, so the file stands for a finite
map from container names to entries through any run of calls.
-/

namespace Crate.SpecRegistryPure

open Crate.Foundation

def targetOf (e : Entry) : Str :=
  if e.warmBase ≠ [] then kWarmBaseTag ++ e.warmBase else e.cratePath

def formatLine (e : Entry) : Str := e.name ++ ' ' :: targetOf e

/-- The index of the first entry of a name; `none` stands for the -1 of the source. -/
def findIndex (entries : List Entry) (name : Str) : Option Nat :=
  entries.findIdx? (fun e => e.name = name)

/-! ## Lines -/

/-- What a check of an entry has established. -/
theorem validateEntry_eq_ok {e : Entry} :
    validateEntry e = .ok () ↔ validateName e.name = .ok () ∧
      ((e.warmBase ≠ [] ∧ e.cratePath = [] ∧
          ZfsDatasetPure.validateDatasetName e.warmBase = .ok () ∧ ' ' ∉ e.warmBase) ∨
        (e.warmBase = [] ∧ validatePath e.cratePath = .ok ())) := by
  unfold validateEntry
  rw [check_seq_eq_ok]
  by_cases hwarm : e.warmBase = []
  · simp [hwarm]
  · simp [hwarm]

theorem not_mem_of_validateName {n : Str} (h : validateName n = .ok ()) {c : Char}
    (hc : PrivOpsPure.isNameChar c = false) : c ∉ n := by
  intro hmem
  rw [(validateName_eq_ok.mp h).2.2.2.2 c hmem] at hc
  contradiction

theorem validatePath_eq_ok {p : Str} (h : validatePath p = .ok ()) :
    p.head? = some '/' ∧ ∀ c ∈ p, ¬c.toNat < 0x20 := by
  simp only [validatePath, check_seq_eq_ok, reject_eq_ok, not_not] at h
  refine ⟨h.2.2.1, fun c hc => ?_⟩
  have hchar := forM_eq_ok.mp h.2.2.2.2 c hc
  simp only [checkPathChar, check_seq_eq_ok, reject_eq_ok, not_or] at hchar
  exact hchar.1.1

theorem not_mem_of_validateDatasetName {ds : Str}
    (h : ZfsDatasetPure.validateDatasetName ds = .ok ()) {c : Char}
    (hc : ZfsDatasetPure.isDatasetChar c = false) : c ∉ ds := by
  simp only [ZfsDatasetPure.validateDatasetName, check_seq_eq_ok, reject_eq_ok, not_not,
    List.all_eq_true] at h
  intro hmem
  rw [h.2.2.2.2 c hmem] at hc
  contradiction

/-- A line break in an entry would have been refused. -/
theorem not_mem_formatLine {e : Entry} (h : validateEntry e = .ok ()) {c : Char}
    (hc : c = '\n' ∨ c = '\r') : c ∉ formatLine e := by
  obtain ⟨hname, htarget⟩ := validateEntry_eq_ok.mp h
  have hin : c ∉ e.name := by
    apply not_mem_of_validateName hname
    rcases hc with rfl | rfl <;> decide
  have hbehind : c ∉ targetOf e := by
    unfold targetOf
    rcases htarget with ⟨hwarm, -, hds, -⟩ | ⟨hwarm, hpath⟩
    · rw [if_pos hwarm, List.mem_append, not_or]
      constructor
      · rcases hc with rfl | rfl <;> decide
      · apply not_mem_of_validateDatasetName hds
        rcases hc with rfl | rfl <;> decide
    · rw [if_neg (not_not.mpr hwarm)]
      intro hmem
      apply (validatePath_eq_ok hpath).2 c hmem
      rcases hc with rfl | rfl <;> decide
  have hspace : c ≠ ' ' := by rcases hc with rfl | rfl <;> decide
  simp only [formatLine, List.mem_append, List.mem_cons, not_or]
  exact ⟨hin, hspace, hbehind⟩

/-- A target begins with the slash of a path or with the tag, so it is read as it was meant. -/
theorem entryOf_targetOf {e : Entry} (h : validateEntry e = .ok ()) :
    entryOf e.name (targetOf e) = e ∧ (targetOf e).head? ≠ some ' ' := by
  obtain ⟨-, htarget⟩ := validateEntry_eq_ok.mp h
  obtain ⟨name, cratePath, warmBase⟩ := e
  have hletter : kWarmBaseTag = 'w' :: kWarmBaseTag.tail := rfl
  dsimp only at htarget
  rcases htarget with ⟨hwarm, rfl, -, -⟩ | ⟨rfl, hpath⟩
  · have htag : kWarmBaseTag.isPrefixOf (kWarmBaseTag ++ warmBase) = true := by
      rw [List.isPrefixOf_iff_prefix]
      exact List.prefix_append _ _
    constructor
    · rw [targetOf, if_pos hwarm, entryOf, if_pos htag, List.drop_left]
    · rw [targetOf, if_pos hwarm, hletter]
      simp
  · cases cratePath with
    | nil => exact absurd (validatePath_eq_ok hpath).1 (by simp)
    | cons c rest =>
        obtain rfl : c = '/' := by simpa using (validatePath_eq_ok hpath).1
        have htag : kWarmBaseTag.isPrefixOf ('/' :: rest) = false := by
          rw [hletter]
          rfl
        constructor
        · rw [targetOf, if_neg (by simp), entryOf, htag, if_neg (by simp)]
        · rw [targetOf, if_neg (by simp)]
          simp

theorem parseLine_formatLine {e : Entry} (h : validateEntry e = .ok ()) :
    parseLine (formatLine e) = .ok e := by
  obtain ⟨hentry, hhead⟩ := entryOf_targetOf h
  have hname := (validateEntry_eq_ok.mp h).1
  have hspace : ' ' ∉ e.name := not_mem_of_validateName hname (by decide)
  have hidx : (formatLine e).idxOf? ' ' = some e.name.length := by
    rw [formatLine, List.idxOf?, List.findIdx?_append, List.findIdx?_eq_none_iff.mpr]
    · simp [List.findIdx?_cons]
    · intro c hc
      rw [beq_eq_false_iff_ne]
      rintro rfl
      exact hspace hc
  have htake : (formatLine e).take e.name.length = e.name := List.take_left
  have hdrop : (formatLine e).drop (e.name.length + 1) = targetOf e := by
    simp [formatLine]
  simp only [parseLine, hidx, htake, hdrop, hentry, h]
  rw [if_neg hhead]

example : parseLine (formatLine { name := "web", cratePath := "/warm-base=tank/a b " }) =
    .ok { name := "web", cratePath := "/warm-base=tank/a b " } := by decide

end Crate.SpecRegistryPure

namespace Crate.SpecRegistry

open Crate.Foundation
open Crate.SpecRegistryPure

/-! ## Writing -/

def kHeaderLines : List Str :=
  ["# crate spec registry \xe2\x80\x94 managed by `crate run -f` / `crate run --warm-base`",
    "# format: <jail-name> <abs-crate-path>  |  <jail-name> warm-base=<dataset>"]

/-- What `writeAllAtomic` puts in place of the file. -/
def writeAllAtomic (entries : List Entry) : Str :=
  (kHeaderLines ++ entries.map formatLine).flatMap (fun line => line ++ ['\n'])

/-- The text under the lock; a file that is missing is created. -/
def openLocked : File → Except Str Str
  | .missing => .ok []
  | .unreadable reason => raise "spec-registry" reason
  | .text buf => .ok buf

/-- An entry takes the place of the one of its name, or comes last. -/
def insertEntry (entries : List Entry) (candidate : Entry) : List Entry :=
  match findIndex entries candidate.name with
  | some idx => entries.set idx candidate
  | none => entries ++ [candidate]

/-- The outcome of a call and the file it leaves behind. -/
def upsertEntry (file : File) (candidate : Entry) : Except Str Unit × File :=
  match validateEntry candidate with
  | .error err => (raise "spec-registry" err, file)
  | .ok () =>
      match openLocked file with
      | .error err => (.error err, file)
      | .ok buf =>
          match parseAll buf with
          | .error err => (.error err, .text buf)
          | .ok entries =>
              if candidate ∈ entries.find? (fun e => e.name = candidate.name) then
                (.ok (), .text buf)
              else (.ok (), .text (writeAllAtomic (insertEntry entries candidate)))

def upsert (file : File) (name cratePath : Str) : Except Str Unit × File :=
  upsertEntry file { name := name, cratePath := cratePath }

def remove (file : File) (name : Str) : Except Str Unit × File :=
  match openLocked file with
  | .error err => (.error err, file)
  | .ok buf =>
      match parseAll buf with
      | .error err => (.error err, .text buf)
      | .ok entries =>
          if entries.any (fun e => e.name = name) then
            (.ok (), .text (writeAllAtomic (entries.filter (fun e => e.name ≠ name))))
          else (.ok (), .text buf)

def lookupEntry (file : File) (name : Str) : Except Str (Option Entry) :=
  (readAll file).map (fun entries => entries.find? (fun e => e.name = name))

/-! ## What is written is read back -/

theorem parseLines_formatLine {entries : List Entry} (h : ∀ e ∈ entries, validateEntry e = .ok ())
    (lineNo : Nat) : parseLines lineNo (entries.map formatLine ++ [[]]) = .ok entries := by
  induction entries generalizing lineNo with
  | nil => rfl
  | cons e rest ih =>
      obtain ⟨he, hrest⟩ := List.forall_mem_cons.mp h
      have hline : dropCarriageReturn (formatLine e) = formatLine e :=
        dropCarriageReturn_eq_self (not_mem_formatLine he (.inr rfl))
      have hname := validateName_eq_ok.mp (validateEntry_eq_ok.mp he).1
      have hkept : ((formatLine e).isEmpty || (formatLine e).head? = some '#') = false := by
        obtain ⟨c, tail, hcons⟩ := List.exists_cons_of_ne_nil hname.1
        have hc : c ≠ '#' := by
          rintro rfl
          have hhash := hname.2.2.2.2 '#' (by simp [hcons])
          revert hhash
          decide
        simp [formatLine, hcons, hc]
      rw [List.map_cons, List.cons_append, parseLines, hline, hkept, if_neg (by simp)]
      simp only [parseLine_formatLine he, ih hrest]
      rfl

theorem parseAll_writeAllAtomic {entries : List Entry}
    (h : ∀ e ∈ entries, validateEntry e = .ok ()) :
    parseAll (writeAllAtomic entries) = .ok entries := by
  have hheader : ∀ line ∈ kHeaderLines, '\n' ∉ line ∧
      (dropCarriageReturn line).head? = some '#' := by
    decide
  have hlines : ∀ line ∈ kHeaderLines ++ entries.map formatLine, '\n' ∉ line := by
    intro line hline
    rcases List.mem_append.mp hline with hhead | hentry
    · exact (hheader line hhead).1
    · obtain ⟨e, he, rfl⟩ := List.mem_map.mp hentry
      exact not_mem_formatLine (h e he) (.inl rfl)
  have hskip : ∀ (headers rest : List Str) (lineNo : Nat),
      (∀ line ∈ headers, (dropCarriageReturn line).head? = some '#') →
      parseLines lineNo (headers ++ rest) = parseLines (lineNo + headers.length) rest := by
    intro headers rest
    induction headers with
    | nil =>
        intro lineNo _
        rfl
    | cons line headers ih =>
        intro lineNo hall
        obtain ⟨hline, hothers⟩ := List.forall_mem_cons.mp hall
        rw [List.cons_append, parseLines, if_pos (by simp [hline]), ih _ hothers,
          List.length_cons]
        congr 1
        omega
  rw [parseAll, writeAllAtomic, splitOn_flatMap_snoc (fun line => line) _ hlines, List.map_id',
    List.append_assoc, hskip _ _ _ (fun line hline => (hheader line hline).2),
    parseLines_formatLine h]

/-! ## One call -/

/-- The entries that a file stands for: all of them valid, no name twice. -/
structure Stores (file : File) (entries : List Entry) : Prop where
  locked : ∃ buf, openLocked file = .ok buf ∧ parseAll buf = .ok entries
  valid : ∀ e ∈ entries, validateEntry e = .ok ()
  names : (entries.map (·.name)).Nodup

theorem Stores.readAll {file : File} {entries : List Entry} (h : Stores file entries) :
    readAll file = .ok entries := by
  obtain ⟨buf, hopen, hparse⟩ := h.locked
  cases file with
  | missing =>
      cases hopen
      exact hparse
  | unreadable reason => contradiction
  | text text =>
      cases hopen
      exact hparse

theorem stores_writeAllAtomic {entries : List Entry} (h : ∀ e ∈ entries, validateEntry e = .ok ())
    (hnames : (entries.map (·.name)).Nodup) : Stores (.text (writeAllAtomic entries)) entries :=
  ⟨⟨_, rfl, parseAll_writeAllAtomic h⟩, h, hnames⟩

theorem stores_missing : Stores .missing [] :=
  ⟨⟨[], rfl, rfl⟩, by simp, by simp⟩

/-- Replacing the first entry of a name splits the list there; a new entry comes behind all. -/
theorem insertEntry_cases (entries : List Entry) (candidate : Entry) :
    (∃ before old behind, entries = before ++ old :: behind ∧ old.name = candidate.name ∧
        insertEntry entries candidate = before ++ candidate :: behind) ∨
      ((∀ e ∈ entries, e.name ≠ candidate.name) ∧
        insertEntry entries candidate = entries ++ [candidate]) := by
  unfold insertEntry findIndex
  split
  · rename_i idx hidx
    obtain ⟨hlt, hname, -⟩ := List.findIdx?_eq_some_iff_getElem.mp hidx
    refine .inl ⟨entries.take idx, entries[idx], entries.drop (idx + 1), ?_,
      by simpa using hname, ?_⟩
    · rw [List.getElem_cons_drop, List.take_append_drop]
    · rw [List.set_eq_take_append_cons_drop, if_pos hlt]
  · rename_i hnone
    refine .inr ⟨fun e he => ?_, rfl⟩
    simpa using List.findIdx?_eq_none_iff.mp hnone e he

theorem find?_insertEntry {entries : List Entry} (hnames : (entries.map (·.name)).Nodup)
    (candidate : Entry) (n : Str) :
    (insertEntry entries candidate).find? (fun e => e.name = n) =
      if candidate.name = n then some candidate else entries.find? (fun e => e.name = n) := by
  rcases insertEntry_cases entries candidate with
    ⟨before, old, behind, rfl, hold, heq⟩ | ⟨hfresh, heq⟩
  · have hbefore : ∀ e ∈ before, e.name ≠ candidate.name := by
      intro e he hsame
      rw [List.map_append, List.map_cons, List.nodup_append] at hnames
      exact hnames.2.2 e.name (List.mem_map_of_mem he) old.name (by simp) (hsame.trans hold.symm)
    rw [heq]
    by_cases hn : candidate.name = n
    · subst hn
      rw [if_pos rfl, List.find?_append, List.find?_eq_none.mpr (by simpa using hbefore)]
      simp
    · rw [if_neg hn, List.find?_append, List.find?_append,
        List.find?_cons_of_neg (by simpa using hn), List.find?_cons_of_neg (by simpa [hold] using hn)]
  · rw [heq, List.find?_append]
    by_cases hn : candidate.name = n
    · subst hn
      rw [if_pos rfl, List.find?_eq_none.mpr (by simpa using hfresh)]
      simp
    · simp [hn]

theorem Stores.insertEntry {file : File} {entries : List Entry} (h : Stores file entries)
    {candidate : Entry} (hvalid : validateEntry candidate = .ok ()) :
    Stores (.text (writeAllAtomic (insertEntry entries candidate)))
      (insertEntry entries candidate) := by
  obtain ⟨-, hall, hnames⟩ := h
  rcases insertEntry_cases entries candidate with
    ⟨before, old, behind, rfl, hold, heq⟩ | ⟨hfresh, heq⟩
  · rw [heq]
    apply stores_writeAllAtomic
    · intro e he
      rcases List.mem_append.mp he with hbefore | hbehind
      · exact hall e (List.mem_append_left _ hbefore)
      · rcases List.mem_cons.mp hbehind with rfl | hbehind
        · exact hvalid
        · exact hall e (by simp [hbehind])
    · simpa [hold] using hnames
  · rw [heq]
    apply stores_writeAllAtomic
    · intro e he
      rcases List.mem_append.mp he with hold | hnew
      · exact hall e hold
      · rw [List.mem_singleton.mp hnew]
        exact hvalid
    · rw [List.map_append, List.nodup_append]
      refine ⟨hnames, by simp, ?_⟩
      rintro _ hmem _ hlast rfl
      obtain ⟨e, he, hname⟩ := List.mem_map.mp hmem
      exact hfresh e he (hname.trans (by simpa using hlast))

/-- The calls that change the registry, with an entry that passes its check. -/
inductive Op where
  | upsert (e : Entry) (valid : validateEntry e = .ok ())
  | remove (name : Str)

def Op.name : Op → Str
  | .upsert e _ => e.name
  | .remove name => name

/-- The entry that a call leaves under its name. -/
def Op.entry? : Op → Option Entry
  | .upsert e _ => some e
  | .remove _ => none

def call (file : File) : Op → Except Str Unit × File
  | .upsert e _ => upsertEntry file e
  | .remove name => remove file name

/-- The entries of a file after a call are a map with one name changed. -/
theorem Stores.call {file : File} {entries : List Entry} (h : Stores file entries) (op : Op) :
    (call file op).1 = .ok () ∧ ∃ entries', Stores (call file op).2 entries' ∧
      ∀ n, entries'.find? (fun e => e.name = n) =
        if op.name = n then op.entry? else entries.find? (fun e => e.name = n) := by
  obtain ⟨buf, hopen, hparse⟩ := h.locked
  have hsame : Stores (.text buf) entries := ⟨⟨buf, rfl, hparse⟩, h.valid, h.names⟩
  cases op with
  | upsert candidate hvalid =>
      simp only [SpecRegistry.call, upsertEntry, hvalid, hopen, hparse]
      split
      · rename_i hheld
        refine ⟨rfl, entries, hsame, fun n => ?_⟩
        by_cases hn : candidate.name = n
        · subst hn
          simpa [Op.name, Op.entry?] using hheld
        · simp [Op.name, hn]
      · exact ⟨rfl, _, h.insertEntry hvalid, find?_insertEntry h.names candidate⟩
  | remove name =>
      simp only [SpecRegistry.call, remove, hopen, hparse]
      split
      · refine ⟨rfl, entries.filter (fun e => e.name ≠ name), ?_, fun n => ?_⟩
        · exact stores_writeAllAtomic (fun e he => h.valid e (List.mem_filter.mp he).1)
            (List.Nodup.sublist (List.filter_sublist.map _) h.names)
        · by_cases hn : name = n
          · subst hn
            rw [Op.name, if_pos rfl]
            simp [Op.entry?]
          · rw [Op.name, if_neg hn, List.find?_filter]
            congr 1
            funext e
            by_cases he : e.name = n
            · simp [he, Ne.symm hn]
            · simp [he]
      · rename_i hnone
        refine ⟨rfl, entries, hsame, fun n => ?_⟩
        by_cases hn : name = n
        · subst hn
          rw [Op.name, if_pos rfl]
          simpa [Op.entry?] using hnone
        · simp [Op.name, hn]

/-! ## Whole runs -/

def step (file : File) (op : Op) : File := (call file op).2

/-- What the last call about a name has left there. -/
def lastEntry (ops : List Op) (n : Str) : Option Entry :=
  (ops.reverse.find? (fun op => op.name = n)).bind Op.entry?

theorem lastEntry_append (ops : List Op) (op : Op) (n : Str) :
    lastEntry (ops ++ [op]) n = if op.name = n then op.entry? else lastEntry ops n := by
  rw [lastEntry, List.reverse_append]
  by_cases hn : op.name = n
  · simp [hn]
  · simp [hn, lastEntry]

theorem stores_run (ops : List Op) :
    ∃ entries, Stores (run step .missing ops) entries ∧
      ∀ n, entries.find? (fun e => e.name = n) = lastEntry ops n := by
  -- from the last call backwards, since that is the one a lookup sees
  induction ops using List.reverseRecOn with
  | nil => exact ⟨[], stores_missing, fun n => rfl⟩
  | append_singleton ops op ih =>
      obtain ⟨entries, hstores, hfind⟩ := ih
      obtain ⟨-, entries', hstores', hfind'⟩ := hstores.call op
      have hrun : run step .missing (ops ++ [op]) = (call (run step .missing ops) op).2 := by
        rw [run, List.foldl_append]
        rfl
      refine ⟨entries', hrun ▸ hstores', fun n => ?_⟩
      rw [hfind', hfind, lastEntry_append]

theorem Stores.lookupEntry {file : File} {entries : List Entry} (h : Stores file entries)
    (n : Str) : lookupEntry file n = .ok (entries.find? (fun e => e.name = n)) := by
  rw [SpecRegistry.lookupEntry, h.readAll]
  rfl

/--
After any calls on a file that did not exist: the file is read without an
error, no name stands in it twice, a lookup gives what the last call about this
name has left, and the next call succeeds and changes no other name.
-/
theorem registry_is_map (ops : List Op) :
    ∃ entries, readAll (run step .missing ops) = .ok entries ∧
      (entries.map (·.name)).Nodup ∧
      (∀ n, lookupEntry (run step .missing ops) n = .ok (lastEntry ops n)) ∧
      ∀ op, (call (run step .missing ops) op).1 = .ok () ∧
        ∀ n, op.name ≠ n → lookupEntry (step (run step .missing ops) op) n =
          lookupEntry (run step .missing ops) n := by
  obtain ⟨entries, hstores, hfind⟩ := stores_run ops
  refine ⟨entries, hstores.readAll, hstores.names, fun n => ?_, fun op => ?_⟩
  · rw [hstores.lookupEntry, hfind]
  · obtain ⟨hok, entries', hstores', hfind'⟩ := hstores.call op
    refine ⟨hok, fun n hn => ?_⟩
    rw [step, hstores'.lookupEntry, hfind', if_neg hn, hstores.lookupEntry]

end Crate.SpecRegistry
