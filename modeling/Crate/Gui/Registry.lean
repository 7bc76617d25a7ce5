import Crate.Daemon.Artifacts
import Crate.Foundation.LowestFree
import Crate.Foundation.TextTable

/-!
# The registry of GUI sessions

`lib/gui_registry.cpp`: one line of `/var/run/crate/ctx-gui-registry` for each X
server, by the pid of its `crate` process.  A registry object holds the lock on
the file and fills itself from it when one of some methods is called; lines of
processes that are gone are dropped on the way.
-/

namespace Crate.Ctx.GuiRegistry

open Crate.Foundation

/-! ## The file -/

/-- `stream >> pid_t`; `none` is a failed stream. -/
def extractPid (s : Str) : Option (Int × Str) :=
  match JailQuery.extractInt s with
  | (pid, some rest) => some (pid, rest)
  | (_, none) => none

/-- A line of the file, with the key it is stored under. -/
def parseLine (line : Str) : Option (Int × GuiEntry) := do
  let (ownerPid, s) ← extractPid line
  let (displayNum, s) ← extractUnsigned s
  let (xServerPid, s) ← extractPid s
  let (vncPort, s) ← extractUnsigned s
  let (wsPort, s) ← extractUnsigned s
  let (mode, s) ← extractWord s
  let (jailName, _) ← extractWord s
  return (ownerPid, { ownerPid := ownerPid
                      displayNum := displayNum
                      xServerPid := xServerPid
                      vncPort := vncPort.toNat
                      wsPort := wsPort.toNat
                      mode := mode
                      jailName := jailName })

def formatLine (kv : Int × GuiEntry) : Str :=
  let e := kv.2
  integerText e.ownerPid ++ ' ' :: (decimal e.displayNum.toNat ++ ' ' :: (integerText e.xServerPid ++
    ' ' :: (decimal e.vncPort ++ ' ' :: (decimal e.wsPort ++ ' ' :: (e.mode ++ ' ' :: e.jailName)))))

def readIntoMemory (reg : GuiRegistry) (file : Str) : GuiRegistry :=
  { reg with
    entries := (readFileLines file).foldl (insertLine parseLine) reg.entries
    inMemory := true }

def writeToFile (reg : GuiRegistry) : Str := writeTable formatLine reg.entries

/-- The file that is left behind. -/
def unlock (reg : GuiRegistry) (file : Str) : Str :=
  if reg.changed then writeToFile reg else file

/-! ## The methods -/

/-- `if (!inMemory) readIntoMemory()`. -/
def load (reg : GuiRegistry) (file : Str) : GuiRegistry :=
  if reg.inMemory then reg else readIntoMemory reg file

/-- Entries whose owner is not a process any more are dropped. -/
def garbageCollect (reg : GuiRegistry) (alive : Int → Bool) : GuiRegistry :=
  let kept := reg.entries.filter (fun pid _ => alive pid)
  { reg with
    entries := kept
    changed := reg.changed || kept.entries.length < reg.entries.entries.length }

def firstDisplay : Nat := 10

/-- The number only; nothing is entered for the owner. -/
def allocateDisplay (reg : GuiRegistry) (file : Str) (alive : Int → Bool) : UInt32 × GuiRegistry :=
  let reg := garbageCollect (load reg file) alive
  let usedDisplays := reg.entries.entries.map (fun kv => kv.2.displayNum.toNat)
  (UInt32.ofNat (lowestFree usedDisplays firstDisplay), reg)

def registerEntry (reg : GuiRegistry) (file : Str) (alive : Int → Bool) (entry : GuiEntry) :
    GuiRegistry :=
  let reg := garbageCollect (load reg file) alive
  { reg with entries := reg.entries.insert entry.ownerPid entry, changed := true }

def unregisterEntry (reg : GuiRegistry) (file : Str) (ownerPid : Int) : GuiRegistry :=
  let reg := load reg file
  { reg with entries := reg.entries.erase ownerPid, changed := true }

def getEntries (reg : GuiRegistry) (file : Str) (alive : Int → Bool) :
    List GuiEntry × GuiRegistry :=
  let reg := garbageCollect (load reg file) alive
  (reg.entries.entries.map Prod.snd, reg)

/-! ## What is written is read back -/

/-- An entry as `setupVncAndRegister` makes it: the words of its line have no white space. -/
structure Writable (kv : Int × GuiEntry) : Prop where
  key : kv.2.ownerPid = kv.1
  pid_pos : 0 < kv.1
  pid_max : kv.1 ≤ JailQuery.intMax
  xServerPid_nonneg : 0 ≤ kv.2.xServerPid
  xServerPid_max : kv.2.xServerPid ≤ JailQuery.intMax
  vncPort : kv.2.vncPort < 2 ^ 32
  wsPort : kv.2.wsPort < 2 ^ 32
  mode : isWord kv.2.mode = true
  jailName : isWord kv.2.jailName = true
  zero : '\x00' ∉ kv.2.mode ∧ '\x00' ∉ kv.2.jailName

theorem extractPid_blank (s : Str) : extractPid (' ' :: s) = extractPid s := by
  have hblank : isSpace ' ' = true := by decide
  simp only [extractPid, JailQuery.extractInt, List.dropWhile_cons, hblank, if_true]

theorem extractPid_integerText {n : Int} (hpos : 0 ≤ n) (hmax : n ≤ JailQuery.intMax) (s : Str) :
    extractPid (integerText n ++ ' ' :: s) = some (n, ' ' :: s) := by
  obtain ⟨m, rfl⟩ := Int.eq_ofNat_of_zero_le hpos
  have hstop : ∀ c ∈ (' ' :: s).head?, isDecimalDigit c = false := by
    intro c hc
    obtain rfl : ' ' = c := by simpa using hc
    decide
  rw [extractPid, integerText_natCast, JailQuery.extractInt_decimal (by omega) hstop]

theorem extractUnsigned_port {n : Nat} (hn : n < 2 ^ 32) (s : Str) :
    extractUnsigned (decimal n ++ ' ' :: s) = some (UInt32.ofNat n, ' ' :: s) := by
  have hstop : ∀ c ∈ (' ' :: s).head?, isDecimalDigit c = false := by
    intro c hc
    obtain rfl : ' ' = c := by simpa using hc
    decide
  have hread := extractUnsigned_decimal (UInt32.ofNat n) hstop
  rwa [UInt32.toNat_ofNat_of_lt' hn] at hread

theorem parseLine_formatLine {kv : Int × GuiEntry} (h : Writable kv) :
    parseLine (formatLine kv) = some kv := by
  obtain ⟨pid, ownerPid, displayNum, xServerPid, vncPort, wsPort, mode, jailName⟩ := kv
  obtain ⟨hkey, hpos, hmax, hxpos, hxmax, hvnc, hws, hmode, hjail, -⟩ := h
  dsimp only at hkey hpos hmax hxpos hxmax hvnc hws hmode hjail
  subst hkey
  have hword : extractWord (mode ++ ' ' :: jailName) = some (mode, ' ' :: jailName) := by
    refine extractWord_append hmode (fun c hc => ?_)
    obtain rfl : ' ' = c := by simpa using hc
    decide
  have hlast : extractWord (jailName ++ []) = some (jailName, []) :=
    extractWord_append hjail (by simp)
  rw [List.append_nil] at hlast
  have hdisplay := extractUnsigned_port (n := displayNum.toNat) displayNum.toNat_lt
  simp only [parseLine, formatLine, extractPid_integerText (le_of_lt hpos) hmax,
    extractPid_integerText hxpos hxmax, extractUnsigned_blank, extractPid_blank, hdisplay,
    extractUnsigned_port hvnc, extractUnsigned_port hws, extractWord_blank, hword, hlast,
    Option.bind_eq_bind, Option.bind_some, UInt32.ofNat_toNat, UInt32.toNat_ofNat_of_lt' hvnc,
    UInt32.toNat_ofNat_of_lt' hws]
  rfl

theorem not_mem_formatLine {kv : Int × GuiEntry} {c : Char} (hdigit : isDecimalDigit c = false)
    (hminus : c ≠ '-') (hblank : c ≠ ' ') (hmode : c ∉ kv.2.mode) (hjail : c ∉ kv.2.jailName) :
    c ∉ formatLine kv := by
  have hnumber := not_mem_integerText hdigit hminus
  have hdecimal := not_mem_decimal hdigit
  simp only [formatLine, List.mem_append, List.mem_cons, not_or]
  exact ⟨hnumber _, hblank, hdecimal _, hblank, hnumber _, hblank, hdecimal _, hblank, hdecimal _,
    hblank, hmode, hblank, hjail⟩

theorem Writable.readsBack {kv : Int × GuiEntry} (h : Writable kv) :
    ReadsBack parseLine formatLine kv := by
  have hword : ∀ {s : Str}, isWord s = true → '\n' ∉ s := by
    intro s hs hmem
    simp only [isWord, Bool.and_eq_true, List.all_eq_true] at hs
    have hspace := hs.2 '\n' hmem
    revert hspace
    decide
  exact ⟨parseLine_formatLine h,
    not_mem_formatLine (by decide) (by decide) (by decide) (hword h.mode) (hword h.jailName),
    not_mem_formatLine (by decide) (by decide) (by decide) h.zero.1 h.zero.2⟩

/-- The entries a file stands for. -/
def stored (file : Str) : OrdMap Int GuiEntry := readTable parseLine file

theorem load_lock (file : Str) :
    load lock file = { entries := stored file, inMemory := true, changed := false } := rfl

theorem stored_writeToFile {reg : GuiRegistry} (h : ∀ kv ∈ reg.entries.entries, Writable kv) :
    stored (writeToFile reg) = reg.entries :=
  readTable_writeTable (fun kv hkv => (h kv hkv).readsBack) rfl

/-- The entries that survive a look at the registry: those of processes that live. -/
def live (file : Str) (alive : Int → Bool) : OrdMap Int GuiEntry :=
  (stored file).filter (fun pid _ => alive pid)

theorem find?_live {file : Str} {alive : Int → Bool} {pid : Int} {e : GuiEntry} :
    (live file alive).find? pid = some e ↔ (stored file).find? pid = some e ∧ alive pid = true :=
  OrdMap.mem_filter

/-- A registry that only dropped entries is written when it dropped some. -/
theorem stored_unlock_garbageCollect {file : Str} {alive : Int → Bool}
    (h : ∀ kv ∈ (stored file).entries, Writable kv) :
    stored (unlock (garbageCollect (load lock file) alive) file) = live file alive := by
  unfold unlock
  split
  · rw [stored_writeToFile]
    · rfl
    · intro kv hkv
      exact h kv (List.mem_filter.mp hkv).1
  · rename_i hsame
    rw [garbageCollect, load_lock] at hsame
    dsimp only at hsame
    rw [Bool.false_or, decide_eq_true_eq, not_lt] at hsame
    exact (OrdMap.filter_eq_self hsame).symm

end Crate.Ctx.GuiRegistry
