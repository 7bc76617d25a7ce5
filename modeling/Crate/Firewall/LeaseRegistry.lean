import Crate.Foundation.Switch
import Crate.Firewall.LeaseRun

/-!
# The lease registry and the forwarding sysctls

`FwLeaseRegistry` keeps the leases in memory and in a file and switches the two
forwarding sysctls.  The world below is the registry with the file and the
sysctls; every sysctl and file operation succeeds.  Each address family is a
reference-counted switch, and neither family sees the other.
-/

namespace Crate

open Crate.Foundation
open Crate.FwLeasePure (State Entry Transition LeaseJid counts diff serialize parse WellFormed)

structure FwLeaseRegistry where
  path : Str := "/var/db/crate/fw_leases.tsv"
  state : State := {}
  /-- The content of `path`; `none` when there is no such file. -/
  file : Option Str := none

namespace FwLeaseRegistry

structure Sysctl where
  forwarding4 : Int
  forwarding6 : Int
  deriving DecidableEq

structure Result where
  slot : Int := -1
  fwd4Users : Nat := 0
  fwd6Users : Nat := 0
  released : Bool := false
  deriving DecidableEq, Repr

structure World where
  registry : FwLeaseRegistry := {}
  sysctl : Sysctl

def load (path : Str) : Option Str → Except Str FwLeaseRegistry
  | none => .ok { path := path }
  | some text =>
      match parse text with
      | .error err => .error ("fw_lease_registry: " ++ path ++ ": " ++ err)
      | .ok state => .ok { path := path, state := state, file := some text }

/-- One family of `applyTransitionLocked_`: the remembered value and the sysctl after it. -/
def flip (first last : Bool) (orig cur : Int) : Int × Int :=
  if first then
    if cur = 0 then (0, 1) else (-1, cur)
  else if last then (-1, if orig = 0 then 0 else cur)
  else (orig, cur)

def applyTransition (t : Transition) (s : State) (k : Sysctl) : State × Sysctl :=
  let (orig4, forwarding4) := flip t.first4 t.last4 s.orig4 k.forwarding4
  let (orig6, forwarding6) := flip t.first6 t.last6 s.orig6 k.forwarding6
  ({ s with orig4 := orig4, orig6 := orig6 },
    { forwarding4 := forwarding4, forwarding6 := forwarding6 })

def persist (r : FwLeaseRegistry) (s : State) : FwLeaseRegistry :=
  { r with state := s, file := some (serialize s) }

/-- `applyTransitionLocked_(t); persistLocked_();` with the leases as they stand after the update. -/
def commit (w : World) (t : Transition) (s : State) : World :=
  let (s', k) := applyTransition t s w.sysctl
  { registry := persist w.registry s', sysctl := k }

def acquire (w : World) (jid : Nat) (wantSlot want4 want6 : Bool) : Except Str Result × World :=
  match FwLeasePure.acquire w.registry.state jid wantSlot want4 want6 with
  | (.error err, s) => (.error err, { w with registry := { w.registry with state := s } })
  | (.ok (e, t), s) =>
      let w' := commit w t s
      let c := counts w'.registry.state
      (.ok { slot := e.slot, fwd4Users := c.fwd4, fwd6Users := c.fwd6, released := false }, w')

def release (w : World) (jid : Nat) : Result × World :=
  let (found, t, s) := FwLeasePure.release w.registry.state jid
  let w' := if found then commit w t s else { w with registry := { w.registry with state := s } }
  let c := counts w'.registry.state
  ({ fwd4Users := c.fwd4, fwd6Users := c.fwd6, released := found }, w')

def reconcile (w : World) (probe : Option (Nat → Bool)) : Nat × World :=
  match probe with
  | none => (0, w)
  | some isLive =>
      let (dropped, t, s) := FwLeasePure.reconcile w.registry.state isLive
      (dropped,
        if dropped ≠ 0 then commit w t s else { w with registry := { w.registry with state := s } })

inductive Action where
  | acquire (jid : LeaseJid) (wantSlot want4 want6 : Bool)
  | release (jid : Nat)
  | reconcile (probe : Option (Nat → Bool))
  | restart

/-- A constructor that throws leaves the file and the sysctls as they are. -/
def step (w : World) : Action → World
  | .acquire jid wantSlot want4 want6 => (acquire w jid.val wantSlot want4 want6).2
  | .release jid => (release w jid).2
  | .reconcile probe => (reconcile w probe).2
  | .restart =>
      match load w.registry.path w.registry.file with
      | .ok r => { w with registry := r }
      | .error _ => w

def start (k : Sysctl) : World := { sysctl := k }

/-! ## One description of every step -/

def leasesAfter (s : State) : Action → State
  | .acquire jid wantSlot want4 want6 => (FwLeasePure.acquire s jid.val wantSlot want4 want6).2
  | .release jid => (FwLeasePure.release s jid).2.2
  | .reconcile none => s
  | .reconcile (some isLive) => (FwLeasePure.reconcile s isLive).2.2
  | .restart => s

/-- The state and the sysctls after the action: the leases change, then the sysctls follow. -/
def settle (s : State) (k : Sysctl) (a : Action) : State × Sysctl :=
  applyTransition (diff (counts s) (counts (leasesAfter s a))) (leasesAfter s a) k

/-- The file holds the state; before the first write there is none. -/
def Synced (r : FwLeaseRegistry) : Prop :=
  r.file = some (serialize r.state) ∨ (r.file = none ∧ r.state = {})

structure Kept (w : World) : Prop where
  wellFormed : WellFormed w.registry.state
  synced : Synced w.registry

@[simp] theorem flip_none (orig cur : Int) : flip false false orig cur = (orig, cur) := rfl

@[simp] theorem diff_self (c : FwLeasePure.Counts) : diff c c = {} := by
  have hfirst : ∀ n : Nat, (decide (n = 0) && decide (0 < n)) = false := by
    intro n
    cases n <;> rfl
  simp only [diff, hfirst, Bool.and_comm]

@[simp] theorem applyTransition_none (s : State) (k : Sysctl) :
    applyTransition {} s k = (s, k) := rfl

theorem settle_of_leasesAfter_eq {s : State} {k : Sysctl} {a : Action} (h : leasesAfter s a = s) :
    settle s k a = (s, k) := by
  rw [settle, h, diff_self, applyTransition_none]

theorem flip_range {first last : Bool} {orig cur : Int} (h : -1 ≤ orig ∧ orig ≤ 1) :
    -1 ≤ (flip first last orig cur).1 ∧ (flip first last orig cur).1 ≤ 1 := by
  unfold flip
  split_ifs
  all_goals first
    | exact h
    | exact ⟨by norm_num, by norm_num⟩

theorem WellFormed.applyTransition {s : State} (h : WellFormed s) (t : Transition) (k : Sysctl) :
    WellFormed (applyTransition t s k).1 :=
  { jids := h.jids
    slots := h.slots
    orig4 := flip_range h.orig4
    orig6 := flip_range h.orig6
    distinct := h.distinct }

theorem WellFormed.leasesAfter {s : State} (h : WellFormed s) (a : Action) :
    WellFormed (leasesAfter s a) := by
  cases a with
  | acquire jid wantSlot want4 want6 => exact h.acquire jid wantSlot want4 want6
  | release jid => exact h.of_shrinks (FwLeasePure.release_shrinks s jid)
  | reconcile probe =>
      cases probe with
      | none => exact h
      | some isLive => exact h.of_shrinks (FwLeasePure.reconcile_shrinks s isLive)
  | restart => exact h

theorem commit_eq (w : World) (s : State) (t : Transition) :
    (commit w t s).registry.state = (applyTransition t s w.sysctl).1 ∧
      (commit w t s).sysctl = (applyTransition t s w.sysctl).2 ∧
      Synced (commit w t s).registry :=
  ⟨rfl, rfl, .inl rfl⟩

theorem load_eq {r : FwLeaseRegistry} (hwf : WellFormed r.state) (hsync : Synced r) :
    load r.path r.file = .ok r := by
  obtain ⟨path, state, file⟩ := r
  rcases hsync with hfile | ⟨hfile, hstate⟩
  · dsimp only at hfile hwf ⊢
    rw [hfile, load, FwLeasePure.parse_serialize hwf]
  · dsimp only at hfile hstate ⊢
    rw [hfile, hstate, load]

structure StepSpec (w w' : World) (a : Action) : Prop where
  state : w'.registry.state = (settle w.registry.state w.sysctl a).1
  sysctl : w'.sysctl = (settle w.registry.state w.sysctl a).2
  synced : Synced w'.registry

theorem StepSpec.of_commit {w : World} {a : Action} {t : Transition}
    (h : t = diff (counts w.registry.state) (counts (leasesAfter w.registry.state a))) :
    StepSpec w (commit w t (leasesAfter w.registry.state a)) a := by
  subst h
  obtain ⟨hstate, hsysctl, hsync⟩ := commit_eq w (leasesAfter w.registry.state a)
    (diff (counts w.registry.state) (counts (leasesAfter w.registry.state a)))
  exact ⟨hstate, hsysctl, hsync⟩

theorem StepSpec.of_same {w : World} {a : Action} (hsync : Synced w.registry)
    (h : leasesAfter w.registry.state a = w.registry.state) : StepSpec w w a := by
  have hsettle := settle_of_leasesAfter_eq (k := w.sysctl) h
  exact ⟨by rw [hsettle], by rw [hsettle], hsync⟩

theorem step_spec {w : World} (h : Kept w) (a : Action) : StepSpec w (step w a) a := by
  cases a with
  | acquire jid wantSlot want4 want6 =>
      rcases FwLeasePure.acquire_cases w.registry.state jid.val wantSlot want4 want6 with
        ⟨-, -, -, heq⟩ | ⟨slot, -, heq⟩
      · have hsame : step w (.acquire jid wantSlot want4 want6) = w := by
          simp only [step, acquire, heq]
        rw [hsame]
        exact .of_same h.synced (by simp only [leasesAfter, heq])
      · have hafter : leasesAfter w.registry.state (.acquire jid wantSlot want4 want6) = _ :=
          congrArg Prod.snd (heq _ rfl)
        have hcommit := heq _ hafter
        simp only [step, acquire, hcommit]
        exact .of_commit rfl
  | release jid =>
      cases hfind : w.registry.state.leases.find? jid with
      | none =>
          have hsame : step w (.release jid) = w := by
            simp [step, release, FwLeasePure.release, hfind]
          rw [hsame]
          exact .of_same h.synced (by simp [leasesAfter, FwLeasePure.release, hfind])
      | some e =>
          have hcommit : step w (.release jid) =
              commit w (diff (counts w.registry.state)
                (counts (leasesAfter w.registry.state (.release jid))))
                (leasesAfter w.registry.state (.release jid)) := by
            simp [step, release, leasesAfter, FwLeasePure.release, hfind]
          rw [hcommit]
          exact .of_commit rfl
  | reconcile probe =>
      cases probe with
      | none => exact .of_same h.synced rfl
      | some isLive =>
          by_cases hdropped : (FwLeasePure.reconcile w.registry.state isLive).1 = 0
          · have hkeep : (FwLeasePure.reconcile w.registry.state isLive).2.2 = w.registry.state := by
              have hlen : w.registry.state.leases.entries.length ≤
                  (w.registry.state.leases.filter (fun jid _ => isLive jid)).entries.length :=
                Nat.sub_eq_zero_iff_le.mp hdropped
              simp only [FwLeasePure.reconcile, OrdMap.filter_eq_self hlen]
            have hsame : step w (.reconcile (some isLive)) = w := by
              simp only [step, reconcile, hdropped, ne_eq, not_true, if_false, hkeep]
            rw [hsame]
            exact .of_same h.synced hkeep
          · have hcommit : step w (.reconcile (some isLive)) =
                commit w (diff (counts w.registry.state)
                  (counts (leasesAfter w.registry.state (.reconcile (some isLive)))))
                  (leasesAfter w.registry.state (.reconcile (some isLive))) := by
              simp only [step, reconcile, ne_eq, hdropped, not_false_eq_true, if_true]
              rfl
            rw [hcommit]
            exact .of_commit rfl
  | restart =>
      have hsame : step w .restart = w := by
        simp only [step, load_eq h.wellFormed h.synced]
      rw [hsame]
      exact .of_same h.synced rfl

theorem Kept.step {w : World} (h : Kept w) (a : Action) : Kept (step w a) := by
  have hspec := step_spec h a
  refine ⟨?_, hspec.synced⟩
  rw [hspec.state]
  exact WellFormed.applyTransition (WellFormed.leasesAfter h.wellFormed a) _ _

@[simp] theorem start_state (k : Sysctl) : (start k).registry.state = {} := rfl

@[simp] theorem start_sysctl (k : Sysctl) : (start k).sysctl = k := rfl

theorem kept_start (k : Sysctl) : Kept (start k) :=
  ⟨FwLeasePure.wellFormed_empty, .inr ⟨rfl, rfl⟩⟩

theorem kept_run (k : Sysctl) (actions : List Action) : Kept (run step (start k) actions) :=
  run_induct (fun w a (h : Kept w) => h.step a) (kept_start k) actions

end FwLeaseRegistry

end Crate
