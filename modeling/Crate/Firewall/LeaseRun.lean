import Crate.Foundation.Run
import Crate.Firewall.LeaseText

/-!
# Runs of lease updates

Every sequence of `acquire`, `release` and `reconcile` keeps the leases well
formed.  The jid of an `acquire` comes from a request the validator accepted;
`release` and `reconcile` need no such guard, since they only drop leases.
-/

namespace Crate.FwLeasePure

open Crate.Foundation

/-- A jid in the range the request validator accepts. -/
structure LeaseJid where
  val : Nat
  pos : 1 ≤ val
  max : val ≤ 65535

inductive Action where
  | acquire (jid : LeaseJid) (wantSlot want4 want6 : Bool)
  | release (jid : Nat)
  | reconcile (isLive : Nat → Bool)

def step (s : State) : Action → State
  | .acquire jid wantSlot want4 want6 => (acquire s jid.val wantSlot want4 want6).2
  | .release jid => (release s jid).2.2
  | .reconcile isLive => (reconcile s isLive).2.2

/-! ## One step -/

theorem leaseOf_eq {s : State} {jid : Nat} {e : Entry} (h : s.leases.find? jid = some e) :
    leaseOf s jid = e := by
  rw [leaseOf, h]
  rfl

theorem leaseOf_slotInRange {s : State} (h : InRange s) (jid : Nat) :
    SlotInRange (leaseOf s jid).slot := by
  cases hfind : s.leases.find? jid with
  | none =>
      rw [leaseOf, hfind]
      exact .inl rfl
  | some e =>
      rw [leaseOf_eq hfind]
      exact h.slots jid e hfind

theorem SlotGranted.inRange {s : State} (h : InRange s) {jid : Nat} {wantSlot : Bool} {slot : Int}
    (hslot : SlotGranted s jid wantSlot slot) : SlotInRange slot := by
  rcases hslot with ⟨rfl, -⟩ | ⟨-, -, hfree⟩
  · exact leaseOf_slotInRange h jid
  · exact .inr ⟨hfree.nonneg, hfree.bound⟩

theorem SlotGranted.not_elsewhere {s : State} (h : DistinctSlots s) {jid other : Nat}
    {wantSlot : Bool} {slot : Int} {e : Entry} (hslot : SlotGranted s jid wantSlot slot)
    (hpos : 0 ≤ slot) (hother : s.leases.find? other = some e) (heq : e.slot = slot) :
    other = jid := by
  rcases hslot with ⟨hkept, -⟩ | ⟨-, -, hfree⟩
  · cases hfind : s.leases.find? jid with
    | none =>
        rw [leaseOf, hfind] at hkept
        simp only [Option.getD_none] at hkept
        omega
    | some mine =>
        rw [leaseOf_eq hfind] at hkept
        exact h other jid e mine hother hfind (by omega) (by omega)
  · exact absurd ⟨other, e, hother, heq⟩ hfree.free

theorem DistinctSlots.insert {s : State} (h : DistinctSlots s) {jid : Nat} {e : Entry}
    (hfresh : ∀ other x, 0 ≤ e.slot → s.leases.find? other = some x → x.slot = e.slot →
      other = jid) :
    DistinctSlots { s with leases := s.leases.insert jid e } := by
  intro j₁ j₂ e₁ e₂ h₁ h₂ hpos heq
  rw [OrdMap.find?_insert] at h₁ h₂
  split at h₁ <;> split at h₂
  · omega
  · cases h₁
    have := hfresh j₂ e₂ hpos h₂ heq.symm
    omega
  · cases h₂
    have := hfresh j₁ e₁ (by omega) h₁ heq
    omega
  · exact h j₁ j₂ e₁ e₂ h₁ h₂ hpos heq

theorem WellFormed.acquire {s : State} (h : WellFormed s) (jid : LeaseJid)
    (wantSlot want4 want6 : Bool) :
    WellFormed (acquire s jid.val wantSlot want4 want6).2 := by
  rcases acquire_cases s jid.val wantSlot want4 want6 with ⟨-, -, -, heq⟩ | ⟨slot, hslot, heq⟩
  · rw [heq]
    exact h
  · rw [heq _ rfl]
    exact ⟨h.toInRange.insert ⟨jid.pos, jid.max⟩ (hslot.inRange h.toInRange),
      h.distinct.insert (fun _ _ hpos hfind hsame =>
        hslot.not_elsewhere h.distinct hpos hfind hsame)⟩

theorem WellFormed.of_shrinks {s s' : State} (h : WellFormed s) (hshrink : Shrinks s s') :
    WellFormed s' := by
  obtain ⟨h4, h6, hsub⟩ := hshrink
  exact
    { jids := fun jid e hfind => h.jids jid e (hsub jid e hfind)
      slots := fun jid e hfind => h.slots jid e (hsub jid e hfind)
      orig4 := h4 ▸ h.orig4
      orig6 := h6 ▸ h.orig6
      distinct := fun j₁ j₂ e₁ e₂ h₁ h₂ =>
        h.distinct j₁ j₂ e₁ e₂ (hsub j₁ e₁ h₁) (hsub j₂ e₂ h₂) }

theorem WellFormed.step {s : State} (h : WellFormed s) (a : Action) : WellFormed (step s a) := by
  cases a with
  | acquire jid wantSlot want4 want6 => exact h.acquire jid wantSlot want4 want6
  | release jid => exact h.of_shrinks (release_shrinks s jid)
  | reconcile isLive => exact h.of_shrinks (reconcile_shrinks s isLive)

theorem wellFormed_empty : WellFormed {} :=
  { jids := by simp
    slots := by simp
    orig4 := by decide
    orig6 := by decide
    distinct := by simp [DistinctSlots] }

/-! ## What an `acquire` promises in a state -/

structure AcquireContract (s : State) : Prop where
  /-- A lease keeps its slot, whoever acquires; only a lease without one can gain one. -/
  keeps : ∀ jid wantSlot want4 want6 other e, s.leases.find? other = some e →
    (other = jid → wantSlot = true → 0 ≤ e.slot) →
    ∃ e', (acquire s jid wantSlot want4 want6).2.leases.find? other = some e' ∧ e'.slot = e.slot
  /-- A slot the jid did not have before is the smallest free one. -/
  smallest : ∀ jid wantSlot want4 want6 out t s',
    acquire s jid wantSlot want4 want6 = (.ok (out, t), s') →
    s'.leases.find? jid = some out ∧
      (out.slot ≠ (leaseOf s jid).slot → SmallestFree s out.slot)
  fails_iff : ∀ jid wantSlot want4 want6,
    (∃ err, (acquire s jid wantSlot want4 want6).1 = .error err) ↔
      wantSlot = true ∧ (leaseOf s jid).slot < 0 ∧ AllHeld s
  failure_keeps : ∀ jid wantSlot want4 want6 err,
    (acquire s jid wantSlot want4 want6).1 = .error err →
    (acquire s jid wantSlot want4 want6).2 = s

theorem acquire_keeps (s : State) (jid : Nat) (wantSlot want4 want6 : Bool) {other : Nat}
    {e : Entry} (hfind : s.leases.find? other = some e)
    (hhas : other = jid → wantSlot = true → 0 ≤ e.slot) :
    ∃ e', (acquire s jid wantSlot want4 want6).2.leases.find? other = some e' ∧
      e'.slot = e.slot := by
  rcases acquire_cases s jid wantSlot want4 want6 with ⟨-, -, -, heq⟩ | ⟨slot, hslot, heq⟩
  · rw [heq]
    exact ⟨e, hfind, rfl⟩
  · rw [heq _ rfl]
    by_cases hsame : jid = other
    · subst hsame
      refine ⟨_, OrdMap.find?_insert_self _ _ _, ?_⟩
      rcases hslot with ⟨hkept, -⟩ | ⟨hwant, hnone, -⟩
      · rw [leaseOf_eq hfind] at hkept
        exact hkept
      · rw [leaseOf_eq hfind] at hnone
        have := hhas rfl hwant
        omega
    · exact ⟨e, (OrdMap.find?_insert_ne hsame _ _).trans hfind, rfl⟩

theorem acquire_smallest {s s' : State} {jid : Nat} {wantSlot want4 want6 : Bool} {out : Entry}
    {t : Transition} (h : acquire s jid wantSlot want4 want6 = (.ok (out, t), s')) :
    s'.leases.find? jid = some out ∧
      (out.slot ≠ (leaseOf s jid).slot → SmallestFree s out.slot) := by
  rcases acquire_cases s jid wantSlot want4 want6 with ⟨-, -, -, heq⟩ | ⟨slot, hslot, heq⟩
  · rw [heq] at h
    cases h
  · rw [heq _ rfl] at h
    cases h
    refine ⟨OrdMap.find?_insert_self _ _ _, ?_⟩
    intro hnew
    rcases hslot with ⟨hkept, -⟩ | ⟨-, -, hfree⟩
    · exact absurd hkept hnew
    · exact hfree

theorem acquire_fails_iff (s : State) (jid : Nat) (wantSlot want4 want6 : Bool) :
    (∃ err, (acquire s jid wantSlot want4 want6).1 = .error err) ↔
      wantSlot = true ∧ (leaseOf s jid).slot < 0 ∧ AllHeld s := by
  rcases acquire_cases s jid wantSlot want4 want6 with ⟨hwant, hnone, hall, heq⟩ | ⟨slot, hslot, heq⟩
  · rw [heq]
    exact ⟨fun _ => ⟨hwant, hnone, hall⟩, fun _ => ⟨_, rfl⟩⟩
  · rw [heq _ rfl]
    constructor
    · rintro ⟨err, herr⟩
      contradiction
    · rintro ⟨hwant, hnone, hall⟩
      rcases hslot with ⟨hkept, hhas⟩ | ⟨-, -, hfree⟩
      · have := hhas hwant
        omega
      · obtain ⟨i, hi⟩ := Int.eq_ofNat_of_zero_le hfree.nonneg
        have hbound := hfree.bound
        exact absurd (hi ▸ hall i (by omega)) hfree.free

theorem acquireContract (s : State) : AcquireContract s where
  keeps jid wantSlot want4 want6 _ _ hfind hhas :=
    acquire_keeps s jid wantSlot want4 want6 hfind hhas
  smallest _ _ _ _ _ _ _ h := acquire_smallest h
  fails_iff := acquire_fails_iff s
  failure_keeps jid wantSlot want4 want6 err herr := by
    rcases acquire_cases s jid wantSlot want4 want6 with ⟨-, -, -, heq⟩ | ⟨slot, -, heq⟩
    · rw [heq]
    · rw [heq _ rfl] at herr
      contradiction

/-! ## Whole runs -/

theorem wellFormed_run {start : State} (hstart : start = {} ∨ ∃ text, parse text = .ok start)
    (actions : List Action) : WellFormed (run step start actions) := by
  have h : WellFormed start := by
    rcases hstart with rfl | ⟨text, htext⟩
    · exact wellFormed_empty
    · exact parse_wellFormed htext
  have hstep : ∀ s a, WellFormed s → WellFormed (step s a) := fun _ a hs => hs.step a
  exact run_induct hstep h actions

/--
The leases after any run: no slot is held twice, every slot is in range, an
`acquire` keeps its contract, and the file is read back as the same state.
-/
theorem lease_run_keeps_contract {start : State}
    (hstart : start = {} ∨ ∃ text, parse text = .ok start) (actions : List Action) :
    DistinctSlots (run step start actions) ∧
      (∀ jid e, (run step start actions).leases.find? jid = some e → SlotInRange e.slot) ∧
      AcquireContract (run step start actions) ∧
      parse (serialize (run step start actions)) = .ok (run step start actions) := by
  have h := wellFormed_run hstart actions
  exact ⟨h.distinct, h.slots, acquireContract _, parse_serialize h⟩

set_option maxRecDepth 4000 in
theorem lease_run_keeps_contract_reloaded :
    let start : State := { leases := .ofList [(7, { slot := 0, fwd4 := true })], orig4 := 0 }
    let actions : List Action := [.acquire ⟨9, by decide, by decide⟩ true true false, .release 7]
    parse "orig4\t0\torig6\t-1\n7\t0\t1\t0\n" = .ok start ∧
      (run step start actions).leases = .ofList [(9, { slot := 1, fwd4 := true })] ∧
      parse (serialize (run step start actions)) = .ok (run step start actions) := by
  have hparse : parse "orig4\t0\torig6\t-1\n7\t0\t1\t0\n" =
      .ok { leases := .ofList [(7, { slot := 0, fwd4 := true })], orig4 := 0 } := by
    decide
  exact ⟨hparse, by decide, (lease_run_keeps_contract (.inr ⟨_, hparse⟩) _).2.2.2⟩

end Crate.FwLeasePure
