import Crate.Foundation.OrdMap
import Crate.Foundation.PathTree
import Crate.PrivOps.Authz

/-!
# The jid owner registry

`JidOwnerRegistryPure` (the map, its text form and its searches) and the
daemon's `JidOwnerRegistry` around it.  The registry holds the entries and the
file they were last written to; the liveness probe reads the kernel, so it is
an argument of the methods that consult it, and `none` when it is not
installed.  A jid is an `unsigned` in the source and a natural number here.
-/

namespace Crate.JidOwnerRegistryPure

open Crate.Foundation

structure Entry where
  uid : UInt32 := 0
  name : Str := []
  path : Str := []
  deriving DecidableEq, Repr

abbrev EntryMap := OrdMap Nat Entry

abbrev LiveProbe := Nat → Entry → Bool

/-! ## Text form -/

def parseDecimalLoop : Str → UInt64 → Option UInt64
  | [], v => some v
  | c :: rest, v =>
      if c < '0' || c > '9' then none
      else
        let nv := v * 10 + UInt64.ofNat (c.toNat - '0'.toNat)
        if nv < v then none else parseDecimalLoop rest nv

def parseDecimal (s : Str) : Option UInt64 :=
  if s.isEmpty then none else parseDecimalLoop s 0

/-- The nonempty column before the first tab, and what follows the tab. -/
def splitColumn (s : Str) : Option (Str × Str) :=
  if '\t' ∉ s then none
  else if s.takeWhile (· ≠ '\t') = [] then none
  else some (s.takeWhile (· ≠ '\t'), (s.dropWhile (· ≠ '\t')).tail)

def splitTabs4 (line : Str) : Option (Str × Str × Str × Str) := do
  let (col0, rest) ← splitColumn line
  let (col1, rest) ← splitColumn rest
  let (col2, col3) ← splitColumn rest
  if col3 = [] ∨ '\t' ∈ col3 then none else some (col0, col1, col2, col3)

def entryLine (jid : Nat) (e : Entry) : Str :=
  decimal jid ++ '\t' :: (decimal e.uid.toNat ++ '\t' :: (e.name ++ '\t' :: e.path))

def serialize (entries : EntryMap) : Str :=
  entries.entries.flatMap (fun kv => entryLine kv.1 kv.2 ++ ['\n'])

def parseEntry (lineNo : Nat) (line : Str) : Except Str (Nat × Entry) :=
  match splitTabs4 line with
  | none =>
      .error ("line " ++ decimal lineNo ++ ": expected exactly 4 tab-separated columns")
  | some (col0, col1, col2, col3) =>
      match parseDecimal col0 with
      | none => .error ("line " ++ decimal lineNo ++ ": jid must be 1..65535")
      | some jidNum =>
          if jidNum = 0 ∨ jidNum > 0xFFFF then
            .error ("line " ++ decimal lineNo ++ ": jid must be 1..65535")
          else
            match parseDecimal col1 with
            | none => .error ("line " ++ decimal lineNo ++ ": uid out of range")
            | some uidNum =>
                if uidNum > 0xFFFFFFFF then
                  .error ("line " ++ decimal lineNo ++ ": uid out of range")
                else
                  .ok (jidNum.toNat, { uid := uidNum.toUInt32, name := col2, path := col3 })

def parseLines : Nat → List Str → EntryMap → Except Str EntryMap
  | _, [], out => .ok out
  | lineNo, line :: rest, out =>
      if line = [] ∨ line.head? = some '#' then parseLines (lineNo + 1) rest out
      else
        match parseEntry lineNo line with
        | .error err => .error err
        | .ok (jid, e) =>
            if (out.find? jid).isSome then
              .error ("line " ++ decimal lineNo ++ ": duplicate jid " ++ decimal jid)
            else parseLines (lineNo + 1) rest (out.insert jid e)

def parse (text : Str) : Except Str EntryMap := parseLines 1 (text.splitOn '\n') .empty

/-! ## Searches -/

/-- The first entry, in jid order, with the given name. -/
def lookupByName (entries : EntryMap) (name : Str) : Option (Nat × Entry) :=
  entries.entries.find? (fun kv => kv.2.name = name)

def covers (p query : Str) : Bool :=
  !p.isEmpty &&
    (query = p ||
      (query.length > p.length && query.take p.length = p && query[p.length]? = some '/'))

def findOwnerLoop (query : Str) :
    List (Nat × Entry) → Option (Nat × Entry) → Option (Nat × Entry)
  | [], best => best
  | kv :: rest, best =>
      if !covers kv.2.path query then findOwnerLoop query rest best
      else
        match best with
        | none => findOwnerLoop query rest (some kv)
        | some b =>
            if kv.2.path.length > b.2.path.length then findOwnerLoop query rest (some kv)
            else findOwnerLoop query rest (some b)

def findOwnerByPath (entries : EntryMap) (query : Str) : Option (Nat × Entry) :=
  findOwnerLoop query entries.entries none

def reconcile (entries : EntryMap) (isLive : Option LiveProbe) : Nat × EntryMap :=
  match isLive with
  | none => (0, entries)
  | some isLive =>
      let kept := entries.filter isLive
      (entries.entries.length - kept.entries.length, kept)

end Crate.JidOwnerRegistryPure

namespace Crate

open Crate.Foundation
open Crate.JidOwnerRegistryPure (Entry EntryMap LiveProbe)
open Crate.PrivOpsAuthzPure (Owner OwnerLookup)

structure JidOwnerRegistry where
  entries : EntryMap := .empty
  file : Option Str := none

namespace JidOwnerRegistry

/-- The constructor: a missing file is an empty registry, a malformed one throws. -/
def load (file : Option Str) : Except Str JidOwnerRegistry :=
  match file with
  | none => .ok {}
  | some text => (JidOwnerRegistryPure.parse text).map (fun entries => ⟨entries, some text⟩)

def persist (entries : EntryMap) : JidOwnerRegistry :=
  ⟨entries, some (JidOwnerRegistryPure.serialize entries)⟩

def recordCreate (r : JidOwnerRegistry) (jid : Nat) (uid : UInt32) (name path : Str) :
    JidOwnerRegistry :=
  persist (r.entries.insert jid { uid := uid, name := name, path := path })

def forgetByJid (r : JidOwnerRegistry) (jid : Nat) : Bool × JidOwnerRegistry :=
  match r.entries.find? jid with
  | none => (false, r)
  | some _ => (true, persist (r.entries.erase jid))

def forgetByName (r : JidOwnerRegistry) (name : Str) : Bool × JidOwnerRegistry :=
  match JidOwnerRegistryPure.lookupByName r.entries name with
  | none => (false, r)
  | some (jid, _) => (true, persist (r.entries.erase jid))

def reconcile (r : JidOwnerRegistry) (probe : Option LiveProbe) : Nat × JidOwnerRegistry :=
  match JidOwnerRegistryPure.reconcile r.entries probe with
  | (0, _) => (0, r)
  | (dropped, kept) => (dropped, persist kept)

def stale (probe : Option LiveProbe) (jid : Nat) (e : Entry) : Bool :=
  match probe with
  | none => false
  | some probe => !probe jid e

/-- A hit is answered, or evicted when the probe rejects it. -/
def answer (r : JidOwnerRegistry) (probe : Option LiveProbe) (jid : Nat) (e : Entry) :
    Owner × JidOwnerRegistry :=
  if stale probe jid e then ({}, persist (r.entries.erase jid))
  else ({ known := true, uid := e.uid }, r)

def lookupByJid (r : JidOwnerRegistry) (probe : Option LiveProbe) (jid : Nat) :
    Owner × JidOwnerRegistry :=
  match r.entries.find? jid with
  | none => ({}, r)
  | some e => r.answer probe jid e

def lookupByName (r : JidOwnerRegistry) (probe : Option LiveProbe) (name : Str) :
    Owner × JidOwnerRegistry :=
  match JidOwnerRegistryPure.lookupByName r.entries name with
  | none => ({}, r)
  | some (jid, e) => r.answer probe jid e

def lookupByPath (r : JidOwnerRegistry) (path : Str) : Owner :=
  match JidOwnerRegistryPure.findOwnerByPath r.entries path with
  | none => {}
  | some (_, e) => { known := true, uid := e.uid }

/-- The answers the gate gets; the evictions a lookup makes are in `lookupByJid`. -/
def makeLookup (r : JidOwnerRegistry) (probe : Option LiveProbe) : OwnerLookup :=
  { byJid := some (fun jid => (r.lookupByJid probe jid.toNat).1)
    byName := some (fun name => (r.lookupByName probe name).1)
    byPath := some r.lookupByPath }

/-! ## What a method does to the entries -/

variable {r : JidOwnerRegistry} {probe : Option LiveProbe} {jid : Nat} {e : Entry}

@[simp] theorem recordCreate_entries (uid : UInt32) (name path : Str) :
    (r.recordCreate jid uid name path).entries =
      r.entries.insert jid { uid := uid, name := name, path := path } := rfl

def Shrinks (r r' : JidOwnerRegistry) : Prop :=
  ∀ jid e, r'.entries.find? jid = some e → r.entries.find? jid = some e

theorem Shrinks.refl : Shrinks r r := fun _ _ h => h

theorem shrinks_persist_erase : Shrinks r (persist (r.entries.erase jid)) := by
  intro j e h
  rw [persist, OrdMap.find?_erase] at h
  split at h
  · contradiction
  · exact h

theorem forgetByJid_shrinks : Shrinks r (r.forgetByJid jid).2 := by
  unfold forgetByJid
  split
  · exact .refl
  · exact shrinks_persist_erase

theorem forgetByName_shrinks (name : Str) : Shrinks r (r.forgetByName name).2 := by
  unfold forgetByName
  split
  · exact .refl
  · exact shrinks_persist_erase

theorem answer_shrinks : Shrinks r (r.answer probe jid e).2 := by
  unfold answer
  split
  · exact shrinks_persist_erase
  · exact .refl

theorem lookupByJid_shrinks : Shrinks r (r.lookupByJid probe jid).2 := by
  unfold lookupByJid
  split
  · exact .refl
  · exact answer_shrinks

theorem lookupByName_shrinks (name : Str) : Shrinks r (r.lookupByName probe name).2 := by
  unfold lookupByName
  split
  · exact .refl
  · exact answer_shrinks

theorem reconcile_entries (probe : LiveProbe) :
    (r.reconcile (some probe)).2.entries = r.entries.filter probe := by
  unfold reconcile
  split
  · rename_i hnone
    simp only [JidOwnerRegistryPure.reconcile, Prod.mk.injEq] at hnone
    have hall : r.entries.filter probe = r.entries := OrdMap.filter_eq_self (by omega)
    exact hall.symm
  · rename_i hsome
    simp only [JidOwnerRegistryPure.reconcile, Prod.mk.injEq] at hsome
    exact hsome.2.symm

theorem reconcile_shrinks : Shrinks r (r.reconcile probe).2 := by
  cases probe with
  | none => exact .refl
  | some probe =>
      intro j e h
      rw [reconcile_entries, OrdMap.mem_filter] at h
      exact h.1

end JidOwnerRegistry

end Crate
