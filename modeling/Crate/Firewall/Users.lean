import Crate.Firewall.Slots

/-!
# The users of the shared NAT rule

`Ctx::FwUsers` of `lib/ctx.cpp`: the pids of the runs with outbound access, one in
a line of `ctx-fw-users`.  A pid is appended to the file without a look at it;
before one is taken out, those of processes that are gone are dropped.
-/

namespace Crate.Ctx

open Crate.Foundation

/-- `std::set<int>` is a map without values. -/
structure FwUsers where
  pids : OrdMap Int Unit := .empty
  inMemory : Bool := false
  changed : Bool := false
  deriving DecidableEq

namespace FwUsers

def lock : FwUsers := {}

/-- `pids.insert(std::stoul(line))`: the number becomes an `int`; a bad line is skipped. -/
def parseLine (line : Str) : Option (Int × Unit) :=
  (stoul line).map (fun n => (n.toUInt32.toInt32.toInt, ()))

def formatLine (kv : Int × Unit) : Str := integerText kv.1

def readIntoMemory (ctx : FwUsers) (file : Str) : FwUsers :=
  { ctx with
    pids := (readFileLines file).foldl (insertLine parseLine) ctx.pids
    inMemory := true }

def writeToFile (ctx : FwUsers) : Str := writeTable formatLine ctx.pids

/-- The file that is left behind. -/
def unlock (ctx : FwUsers) (file : Str) : Str :=
  if ctx.changed then writeToFile ctx else file

def isEmpty (ctx : FwUsers) (file : Str) : Bool :=
  if ctx.inMemory then ctx.pids.entries.isEmpty else file.isEmpty

/-- The object and the file after it. -/
def add (ctx : FwUsers) (file : Str) (pid : Int) : FwUsers × Str :=
  if ctx.inMemory then ({ ctx with pids := ctx.pids.insert pid (), changed := true }, file)
  else (ctx, file ++ (integerText pid ++ ['\n']))

/-- `if (!inMemory) readIntoMemory()`. -/
def load (ctx : FwUsers) (file : Str) : FwUsers :=
  if ctx.inMemory then ctx else readIntoMemory ctx file

def garbageCollect (ctx : FwUsers) (file : Str) (alive : Int → Bool) : FwUsers :=
  let ctx := load ctx file
  let kept := ctx.pids.filter (fun pid _ => alive pid)
  { ctx with
    pids := kept
    changed := ctx.changed || kept.entries.length < ctx.pids.entries.length }

def del (ctx : FwUsers) (file : Str) (alive : Int → Bool) (pid : Int) : FwUsers :=
  let ctx := garbageCollect ctx file alive
  { ctx with pids := ctx.pids.erase pid, changed := true }

/-! ## Who is in the file -/

/-- The users a file stands for. -/
def stored (file : Str) : OrdMap Int Unit := readTable parseLine file

def Listed (file : Str) (pid : Int) : Prop := (stored file).find? pid = some ()

theorem find?_del {file : Str} {alive : Int → Bool} {pid q : Int} :
    (del lock file alive pid).pids.find? q = some () ↔
      q ≠ pid ∧ alive q = true ∧ Listed file q := by
  have hlive : ((stored file).filter (fun p _ => alive p)).find? q = some () ↔
      Listed file q ∧ alive q = true := OrdMap.mem_filter
  have hdel : (del lock file alive pid).pids =
      ((stored file).filter (fun p _ => alive p)).erase pid := rfl
  rw [hdel, OrdMap.find?_erase]
  split
  · rename_i heq
    simp [heq]
  · rename_i hne
    rw [hlive]
    simp [hne, and_comm]

/-- After `del` nobody is left exactly when no other process that lives is in the file. -/
theorem isEmpty_del_iff {file : Str} {alive : Int → Bool} {pid : Int} :
    isEmpty (del lock file alive pid) file = true ↔
      ¬∃ q, q ≠ pid ∧ alive q = true ∧ Listed file q := by
  have hmemory : isEmpty (del lock file alive pid) file =
      (del lock file alive pid).pids.entries.isEmpty := rfl
  rw [hmemory, List.isEmpty_iff, List.eq_nil_iff_forall_not_mem]
  constructor
  · rintro hnone ⟨q, hq⟩
    exact hnone (q, ()) (OrdMap.find?_eq_some_iff.mp (find?_del.mpr hq))
  · rintro hnone ⟨q, u⟩ hmem
    exact hnone ⟨q, find?_del.mp (OrdMap.find?_eq_some_iff.mpr hmem)⟩

/-! ## What is written is read back -/

/-- A file that holds some pids, each in a line of its own. -/
def HasLines (file : Str) (pids : List Int) : Prop :=
  file = pids.flatMap (fun pid => integerText pid ++ ['\n']) ∧ ∀ pid ∈ pids, FwSlots.IsPid pid

theorem readsBack {pid : Int} (h : FwSlots.IsPid pid) :
    ReadsBack parseLine formatLine (pid, ()) where
  parse := by
    obtain ⟨hpos, hmax⟩ := h
    obtain ⟨n, rfl⟩ := Int.eq_ofNat_of_zero_le (le_of_lt hpos)
    simp only [FwSlots.pidMax] at hmax
    have hsmall : n < 2 ^ 64 := by omega
    rw [parseLine, formatLine, integerText_natCast, stoul_digits (allDigits_decimal n),
      decimalValue_decimal, if_neg (by omega), Option.map_some]
    have hword : (UInt64.ofNat n).toUInt32.toInt32 = Int32.ofNat n := by
      rw [UInt64.toUInt32_ofNat']
      rfl
    rw [hword, Int32.toInt_ofNat_of_lt (by omega)]
  newline := not_mem_integerText (by decide) (by decide) _
  zero := not_mem_integerText (by decide) (by decide) _

theorem find?_foldl_insert_unit {pids : List Int} {m : OrdMap Int Unit} {q : Int} :
    ((pids.map (fun pid => (pid, ()))).foldl (fun acc kv => acc.insert kv.1 kv.2) m).find? q =
        some () ↔ q ∈ pids ∨ m.find? q = some () := by
  induction pids generalizing m with
  | nil => simp
  | cons pid rest ih =>
      rw [List.map_cons, List.foldl_cons, ih, OrdMap.find?_insert, List.mem_cons]
      by_cases hq : pid = q
      · simp [hq]
      · simp [hq, Ne.symm hq]

theorem HasLines.listed_iff {file : Str} {pids : List Int} (h : HasLines file pids) {q : Int} :
    Listed file q ↔ q ∈ pids := by
  obtain ⟨rfl, hpids⟩ := h
  have hlines : pids.flatMap (fun pid => integerText pid ++ ['\n']) =
      (pids.map (fun pid => (pid, ()))).flatMap (fun kv => formatLine kv ++ ['\n']) := by
    rw [List.flatMap_map]
    rfl
  have hread : ∀ kv ∈ pids.map (fun pid => (pid, ())), ReadsBack parseLine formatLine kv := by
    intro kv hkv
    obtain ⟨pid, hpid, rfl⟩ := List.mem_map.mp hkv
    exact readsBack (hpids pid hpid)
  rw [Listed, stored, hlines, readTable_flatMap hread rfl, find?_foldl_insert_unit]
  simp

theorem HasLines.add {file : Str} {pids : List Int} (h : HasLines file pids) {pid : Int}
    (hpid : FwSlots.IsPid pid) : HasLines (add lock file pid).2 (pids ++ [pid]) := by
  obtain ⟨rfl, hpids⟩ := h
  refine ⟨by rw [List.flatMap_append, List.flatMap_singleton]; rfl, fun q hq => ?_⟩
  rcases List.mem_append.mp hq with hq | hq
  · exact hpids q hq
  · rw [List.mem_singleton.mp hq]
    exact hpid

theorem HasLines.del {file : Str} {pids : List Int} (h : HasLines file pids)
    (alive : Int → Bool) (pid : Int) :
    ∃ pids', HasLines (unlock (del lock file alive pid) file) pids' ∧
      ∀ q, q ∈ pids' ↔ q ≠ pid ∧ alive q = true ∧ q ∈ pids := by
  have hmem : ∀ q, q ∈ (FwUsers.del lock file alive pid).pids.entries.map Prod.fst ↔
      q ≠ pid ∧ alive q = true ∧ q ∈ pids := by
    intro q
    rw [← h.listed_iff, ← find?_del, OrdMap.find?_eq_some_iff, List.mem_map]
    constructor
    · rintro ⟨⟨p, u⟩, hp, rfl⟩
      exact hp
    · exact fun hq => ⟨(q, ()), hq, rfl⟩
  refine ⟨(FwUsers.del lock file alive pid).pids.entries.map Prod.fst, ⟨?_, fun q hq => ?_⟩, hmem⟩
  · rw [List.flatMap_map]
    rfl
  · exact h.2 q ((hmem q).mp hq).2.2

end FwUsers

end Crate.Ctx
