import Crate.Gui.Registry

/-!
# The firewall slots of a root `crate`

`Ctx::FwSlots` of `lib/ctx.cpp`: one line of `ctx-fw-slots` for each run, its pid
and its slot.  A run takes the lowest slot that no live process has in the file
and gives it back at its end.
-/

namespace Crate.Ctx

open Crate.Foundation

structure FwSlots where
  slots : OrdMap Int UInt32 := .empty
  inMemory : Bool := false
  changed : Bool := false
  deriving DecidableEq

namespace FwSlots

def lock : FwSlots := {}

/-- `is >> pid >> slot`. -/
def parseLine (line : Str) : Option (Int × UInt32) := do
  let (pid, s) ← GuiRegistry.extractPid line
  let (slot, _) ← extractUnsigned s
  return (pid, slot)

def formatLine (kv : Int × UInt32) : Str := integerText kv.1 ++ ' ' :: decimal kv.2.toNat

def readIntoMemory (ctx : FwSlots) (file : Str) : FwSlots :=
  { ctx with
    slots := (readFileLines file).foldl (insertLine parseLine) ctx.slots
    inMemory := true }

def writeToFile (ctx : FwSlots) : Str := writeTable formatLine ctx.slots

/-- The file that is left behind. -/
def unlock (ctx : FwSlots) (file : Str) : Str :=
  if ctx.changed then writeToFile ctx else file

/-- `if (!inMemory) readIntoMemory()`. -/
def load (ctx : FwSlots) (file : Str) : FwSlots :=
  if ctx.inMemory then ctx else readIntoMemory ctx file

/-- Entries of processes that do not exist are dropped. -/
def garbageCollect (ctx : FwSlots) (alive : Int → Bool) : FwSlots :=
  { ctx with slots := ctx.slots.filter (fun pid _ => alive pid) }

/-- The lowest unused slot number, from zero on. -/
def allocate (ctx : FwSlots) (file : Str) (alive : Int → Bool) (pid : Int) : UInt32 × FwSlots :=
  let ctx := garbageCollect (load ctx file) alive
  let usedSlots := ctx.slots.entries.map (fun kv => kv.2.toNat)
  let slot := UInt32.ofNat (lowestFree usedSlots 0)
  (slot, { ctx with slots := ctx.slots.insert pid slot, changed := true })

def release (ctx : FwSlots) (file : Str) (pid : Int) : FwSlots :=
  let ctx := load ctx file
  { ctx with slots := ctx.slots.erase pid, changed := true }

/-! ## What is written is read back -/

/-- FreeBSD's `PID_MAX`. -/
def pidMax : Int := 99999

def IsPid (pid : Int) : Prop := 0 < pid ∧ pid ≤ pidMax

theorem parseLine_formatLine {kv : Int × UInt32} (h : IsPid kv.1) :
    parseLine (formatLine kv) = some kv := by
  obtain ⟨pid, slot⟩ := kv
  obtain ⟨hpos, hmax⟩ := h
  simp only [pidMax] at hpos hmax
  have hint : pid ≤ JailQuery.intMax := by
    simp only [JailQuery.intMax]
    omega
  have hslot : extractUnsigned (decimal slot.toNat ++ []) = some (slot, []) :=
    extractUnsigned_decimal slot (by simp)
  rw [List.append_nil] at hslot
  simp only [parseLine, formatLine, GuiRegistry.extractPid_integerText (le_of_lt hpos) hint,
    extractUnsigned_blank, hslot, Option.bind_eq_bind, Option.bind_some]
  rfl

theorem not_mem_formatLine {kv : Int × UInt32} {c : Char} (hdigit : isDecimalDigit c = false)
    (hminus : c ≠ '-') (hblank : c ≠ ' ') : c ∉ formatLine kv := by
  simp only [formatLine, List.mem_append, List.mem_cons, not_or]
  exact ⟨not_mem_integerText hdigit hminus _, hblank, not_mem_decimal hdigit _⟩

theorem readsBack {kv : Int × UInt32} (h : IsPid kv.1) : ReadsBack parseLine formatLine kv where
  parse := parseLine_formatLine h
  newline := not_mem_formatLine (by decide) (by decide) (by decide)
  zero := not_mem_formatLine (by decide) (by decide) (by decide)

/-- The slots a file stands for. -/
def stored (file : Str) : OrdMap Int UInt32 := readTable parseLine file

theorem stored_writeToFile {ctx : FwSlots} (h : ∀ kv ∈ ctx.slots.entries, IsPid kv.1) :
    stored (writeToFile ctx) = ctx.slots :=
  readTable_writeTable (fun kv hkv => readsBack (h kv hkv)) rfl

/-- The slots of the processes that live. -/
def live (file : Str) (alive : Int → Bool) : OrdMap Int UInt32 :=
  (stored file).filter (fun pid _ => alive pid)

theorem find?_live {file : Str} {alive : Int → Bool} {pid : Int} {slot : UInt32} :
    (live file alive).find? pid = some slot ↔
      (stored file).find? pid = some slot ∧ alive pid = true :=
  OrdMap.mem_filter

theorem isPid_of_mem_live {file : Str} {alive : Int → Bool}
    (h : ∀ kv ∈ (stored file).entries, IsPid kv.1) : ∀ kv ∈ (live file alive).entries, IsPid kv.1 :=
  fun kv hkv => h kv (List.mem_filter.mp hkv).1

/-- The slot `allocate` hands out. -/
def nextSlot (file : Str) (alive : Int → Bool) : UInt32 :=
  UInt32.ofNat (lowestFree ((live file alive).entries.map (fun kv => kv.2.toNat)) 0)

theorem stored_allocate {file : Str} {alive : Int → Bool} {pid : Int} (hpid : IsPid pid)
    (h : ∀ kv ∈ (stored file).entries, IsPid kv.1) :
    stored (unlock (allocate lock file alive pid).2 file) =
      (live file alive).insert pid (nextSlot file alive) := by
  refine stored_writeToFile (fun kv hkv => ?_)
  rcases OrdMap.mem_insertEntry hkv with rfl | hkv
  · exact hpid
  · exact isPid_of_mem_live h kv hkv

theorem stored_release {file : Str} (h : ∀ kv ∈ (stored file).entries, IsPid kv.1) (pid : Int) :
    stored (unlock (release lock file pid) file) = (stored file).erase pid :=
  stored_writeToFile (fun kv hkv => h kv (List.mem_filter.mp hkv).1)

/-- Some live process has the slot in the file. -/
def InFile (file : Str) (alive : Int → Bool) (n : Nat) : Prop :=
  ∃ pid slot, (live file alive).find? pid = some slot ∧ slot.toNat = n

/-- The slot is the lowest that the file does not have; there are fewer slots than pids. -/
theorem nextSlot_lowest {file : Str} (alive : Int → Bool)
    (h : ∀ kv ∈ (stored file).entries, IsPid kv.1) :
    IsLowestFree (InFile file alive) 0 (nextSlot file alive).toNat ∧
      (nextSlot file alive).toNat ≤ 99999 := by
  let usedSlots := (live file alive).entries.map (fun kv => kv.2.toNat)
  obtain ⟨hlowest, hle⟩ := lowestFree_spec usedSlots 0
  have hlength : (live file alive).entries.length ≤ 99999 := by
    apply OrdMap.length_le_of_keys
    intro kv hkv
    obtain ⟨hpos, hmax⟩ := isPid_of_mem_live h kv hkv
    simp only [pidMax] at hmax
    exact ⟨hpos, by omega⟩
  have hsmall : lowestFree usedSlots 0 ≤ 99999 := by
    simp only [usedSlots, List.length_map] at hle ⊢
    omega
  have hvalue : (nextSlot file alive).toNat = lowestFree usedSlots 0 :=
    UInt32.toNat_ofNat_of_lt' (lt_of_le_of_lt hsmall (by decide))
  rw [hvalue]
  refine ⟨hlowest.congr (fun n => ?_), hsmall⟩
  rw [List.mem_map]
  constructor
  · rintro ⟨⟨pid, slot⟩, hmem, hn⟩
    exact ⟨pid, slot, OrdMap.find?_eq_some_iff.mpr hmem, hn⟩
  · rintro ⟨pid, slot, hfind, hn⟩
    exact ⟨(pid, slot), OrdMap.find?_eq_some_iff.mp hfind, hn⟩

end FwSlots

end Crate.Ctx
