import Crate.Foundation.OrdMap
import Crate.Foundation.Text

/-!
# Firewall leases

The data model of `lib/fw_lease_pure.cpp`: one lease for each jid, with an ipfw
rule slot and a reference to each forwarding sysctl, and the values the sysctls
had before the daemon switched them on.  A jid is an `unsigned` in the source
and a natural number here.
-/

namespace Crate.FwLeasePure

open Crate.Foundation

structure Entry where
  slot : Int := -1
  fwd4 : Bool := false
  fwd6 : Bool := false
  deriving DecidableEq, Repr

structure State where
  leases : OrdMap Nat Entry := .empty
  orig4 : Int := -1
  orig6 : Int := -1
  deriving DecidableEq

structure Counts where
  fwd4 : Nat := 0
  fwd6 : Nat := 0
  deriving DecidableEq, Repr

structure Transition where
  first4 : Bool := false
  last4 : Bool := false
  first6 : Bool := false
  last6 : Bool := false
  deriving DecidableEq, Repr

def kMaxSlots : Nat := 1500

def counts (s : State) : Counts :=
  { fwd4 := s.leases.entries.countP (fun kv => kv.2.fwd4)
    fwd6 := s.leases.entries.countP (fun kv => kv.2.fwd6) }

def usedSlots (s : State) : List Int :=
  (s.leases.entries.map (fun kv => kv.2.slot)).filter (fun slot => 0 ≤ slot)

/-- The first index of the loop that is not in `used`, or -1. -/
def lowestFreeSlot (s : State) (maxSlots : Nat := kMaxSlots) : Int :=
  match (List.range maxSlots).find? (fun i : Nat => !(usedSlots s).contains (i : Int)) with
  | some i => (i : Int)
  | none => -1

def diff (before after : Counts) : Transition :=
  { first4 := before.fwd4 = 0 && 0 < after.fwd4
    last4 := 0 < before.fwd4 && after.fwd4 = 0
    first6 := before.fwd6 = 0 && 0 < after.fwd6
    last6 := 0 < before.fwd6 && after.fwd6 = 0 }

def leaseOf (s : State) (jid : Nat) : Entry := (s.leases.find? jid).getD {}

/-- `s.leases[jid] = e`, with the references that were asked for. -/
def grant (s : State) (jid : Nat) (want4 want6 : Bool) (e : Entry) : Entry × Transition × State :=
  let e := { e with fwd4 := e.fwd4 || want4, fwd6 := e.fwd6 || want6 }
  let s' := { s with leases := s.leases.insert jid e }
  (e, diff (counts s) (counts s'), s')

def acquire (s : State) (jid : Nat) (wantSlot want4 want6 : Bool) :
    Except Str (Entry × Transition) × State :=
  let e := leaseOf s jid
  if wantSlot && e.slot < 0 then
    let slot := lowestFreeSlot s
    if slot < 0 then
      (.error ("no free firewall slot (" ++ decimal kMaxSlots ++ " in use)"), s)
    else
      let (out, t, s') := grant s jid want4 want6 { e with slot := slot }
      (.ok (out, t), s')
  else
    let (out, t, s') := grant s jid want4 want6 e
    (.ok (out, t), s')

def release (s : State) (jid : Nat) : Bool × Transition × State :=
  match s.leases.find? jid with
  | none => (false, diff (counts s) (counts s), s)
  | some _ =>
      let s' := { s with leases := s.leases.erase jid }
      (true, diff (counts s) (counts s'), s')

def reconcile (s : State) (isLive : Nat → Bool) : Nat × Transition × State :=
  let s' := { s with leases := s.leases.filter (fun jid _ => isLive jid) }
  (s.leases.entries.length - s'.leases.entries.length, diff (counts s) (counts s'), s')

/-! ## Slots -/

def Holds (s : State) (slot : Int) : Prop :=
  ∃ jid e, s.leases.find? jid = some e ∧ e.slot = slot

theorem mem_usedSlots_iff {s : State} {slot : Int} :
    slot ∈ usedSlots s ↔ 0 ≤ slot ∧ Holds s slot := by
  simp only [usedSlots, List.mem_filter, List.mem_map, decide_eq_true_eq, Holds,
    OrdMap.find?_eq_some_iff]
  constructor
  · rintro ⟨⟨kv, hkv, rfl⟩, hslot⟩
    exact ⟨hslot, kv.1, kv.2, hkv, rfl⟩
  · rintro ⟨hslot, jid, e, he, rfl⟩
    exact ⟨⟨(jid, e), he, rfl⟩, hslot⟩

theorem contains_usedSlots_iff {s : State} {i : Nat} :
    (usedSlots s).contains (i : Int) = true ↔ Holds s i := by
  rw [List.contains_iff_mem, mem_usedSlots_iff]
  exact and_iff_right (Int.natCast_nonneg i)

def AllHeld (s : State) (maxSlots : Nat := kMaxSlots) : Prop :=
  ∀ i : Nat, i < maxSlots → Holds s i

structure SmallestFree (s : State) (slot : Int) (maxSlots : Nat := kMaxSlots) : Prop where
  nonneg : 0 ≤ slot
  bound : slot < maxSlots
  free : ¬Holds s slot
  below : ∀ i : Int, 0 ≤ i → i < slot → Holds s i

theorem lowestFreeSlot_neg_iff {s : State} {maxSlots : Nat} :
    lowestFreeSlot s maxSlots < 0 ↔ AllHeld s maxSlots := by
  unfold lowestFreeSlot AllHeld
  split
  · rename_i i hfind
    obtain ⟨hfree, hmem, -⟩ := List.find?_range_eq_some.mp hfind
    constructor
    · intro hneg
      omega
    · intro hall
      have hheld := hall i (List.mem_range.mp hmem)
      rw [← contains_usedSlots_iff] at hheld
      simp only [hheld] at hfree
      contradiction
  · rename_i hfind
    have hnone := List.find?_range_eq_none.mp hfind
    constructor
    · intro _ i hi
      have hused := hnone i hi
      rw [Bool.not_not] at hused
      exact contains_usedSlots_iff.mp hused
    · intro _
      decide

theorem lowestFreeSlot_smallest {s : State} {maxSlots : Nat}
    (h : 0 ≤ lowestFreeSlot s maxSlots) :
    SmallestFree s (lowestFreeSlot s maxSlots) maxSlots := by
  unfold lowestFreeSlot at h ⊢
  split at h
  · rename_i i hfind
    obtain ⟨hfree, hmem, hbelow⟩ := List.find?_range_eq_some.mp hfind
    refine ⟨by omega, by have := List.mem_range.mp hmem; omega, ?_, ?_⟩
    · intro hheld
      rw [contains_usedSlots_iff.mpr hheld] at hfree
      contradiction
    · intro j hj hlt
      obtain ⟨k, rfl⟩ := Int.eq_ofNat_of_zero_le hj
      have hused := hbelow k (by omega)
      rw [Bool.not_not] at hused
      exact contains_usedSlots_iff.mp hused
  · contradiction

/-! ## What one call can do -/

/-- The lease an `acquire` stores: a slot, and the references held or asked for. -/
def granted (s : State) (jid : Nat) (want4 want6 : Bool) (slot : Int) : Entry :=
  { slot := slot
    fwd4 := (leaseOf s jid).fwd4 || want4
    fwd6 := (leaseOf s jid).fwd6 || want6 }

/-- The slot of a granted lease: the one the jid has, or the smallest free one. -/
def SlotGranted (s : State) (jid : Nat) (wantSlot : Bool) (slot : Int) : Prop :=
  (slot = (leaseOf s jid).slot ∧ (wantSlot = true → 0 ≤ slot)) ∨
    (wantSlot = true ∧ (leaseOf s jid).slot < 0 ∧ SmallestFree s slot)

theorem acquire_cases (s : State) (jid : Nat) (wantSlot want4 want6 : Bool) :
    (wantSlot = true ∧ (leaseOf s jid).slot < 0 ∧ AllHeld s ∧
      acquire s jid wantSlot want4 want6 =
        (.error ("no free firewall slot (" ++ decimal kMaxSlots ++ " in use)"), s)) ∨
    ∃ slot, SlotGranted s jid wantSlot slot ∧
      ∀ s', s' = { s with leases := s.leases.insert jid (granted s jid want4 want6 slot) } →
        acquire s jid wantSlot want4 want6 =
          (.ok (granted s jid want4 want6 slot, diff (counts s) (counts s')), s') := by
  by_cases hwant : wantSlot = true ∧ (leaseOf s jid).slot < 0
  · obtain ⟨rfl, hslot⟩ := hwant
    by_cases hlow : lowestFreeSlot s < 0
    · refine .inl ⟨rfl, hslot, lowestFreeSlot_neg_iff.mp hlow, ?_⟩
      simp [acquire, hslot, hlow]
    · refine .inr ⟨lowestFreeSlot s,
        .inr ⟨rfl, hslot, lowestFreeSlot_smallest (by omega)⟩, ?_⟩
      rintro s' rfl
      simp [acquire, hslot, hlow, grant, granted]
  · have hskip : (wantSlot && decide ((leaseOf s jid).slot < 0)) = false := by
      rw [Bool.eq_false_iff]
      simpa using hwant
    refine .inr ⟨(leaseOf s jid).slot, .inl ⟨rfl, ?_⟩, ?_⟩
    · intro htrue
      have := not_and.mp hwant htrue
      omega
    · rintro s' rfl
      simp [acquire, hskip, grant, granted]

def Shrinks (s s' : State) : Prop :=
  s'.orig4 = s.orig4 ∧ s'.orig6 = s.orig6 ∧
    ∀ jid e, s'.leases.find? jid = some e → s.leases.find? jid = some e

theorem release_shrinks (s : State) (jid : Nat) : Shrinks s (release s jid).2.2 := by
  unfold release
  split
  · exact ⟨rfl, rfl, fun _ _ h => h⟩
  · refine ⟨rfl, rfl, ?_⟩
    intro other e h
    rw [OrdMap.find?_erase] at h
    split at h
    · contradiction
    · exact h

theorem reconcile_shrinks (s : State) (isLive : Nat → Bool) :
    Shrinks s (reconcile s isLive).2.2 :=
  ⟨rfl, rfl, fun _ _ h => (OrdMap.mem_filter.mp h).1⟩

end Crate.FwLeasePure
