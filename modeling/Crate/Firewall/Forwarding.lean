import Crate.Firewall.LeaseRegistry

/-!
# The forwarding sysctls over whole runs

Seen from one address family the registry is a reference-counted switch: the
sysctl is turned on, where it was off, for the first lease that refers to it
and restored when the last one goes, across restarts.  The other family plays no part: a run
and the run without the other family's requests look the same.
-/

namespace Crate.FwLeaseRegistry

open Crate.Foundation
open Crate.FwLeasePure (State Entry Transition counts diff)

inductive Family where
  | v4
  | v6
  deriving DecidableEq, Repr

/-- The lease holds a reference to the family's sysctl. -/
def refers (e : Entry) : Family → Bool
  | .v4 => e.fwd4
  | .v6 => e.fwd6

def users (s : State) : Family → Nat
  | .v4 => (counts s).fwd4
  | .v6 => (counts s).fwd6

def orig (s : State) : Family → Int
  | .v4 => s.orig4
  | .v6 => s.orig6

def Sysctl.value (k : Sysctl) : Family → Int
  | .v4 => k.forwarding4
  | .v6 => k.forwarding6

/-- Some lease holds a reference to the family's sysctl. -/
def Referenced (s : State) (f : Family) : Prop :=
  ∃ jid e, s.leases.find? jid = some e ∧ refers e f = true

theorem users_eq_countP (s : State) (f : Family) :
    users s f = s.leases.entries.countP (fun kv => refers kv.2 f) := by
  cases f <;> rfl

theorem users_pos_iff {s : State} {f : Family} : 0 < users s f ↔ Referenced s f := by
  rw [users_eq_countP, List.countP_pos_iff]
  simp only [Referenced, OrdMap.find?_eq_some_iff, Prod.exists]

/-! ## The family's switch -/

def view (f : Family) (s : State) (k : Sysctl) : Switch Int :=
  { users := users s f
    value := k.value f
    flipped := orig s f = 0 }

theorem flip_eq_update (before after : Nat) (orig cur : Int) :
    (⟨after,
        (flip (before = 0 && 0 < after) (0 < before && after = 0) orig cur).2,
        decide ((flip (before = 0 && 0 < after) (0 < before && after = 0) orig cur).1 = 0)⟩ :
      Switch Int) =
      Switch.update 0 1 ⟨before, cur, decide (orig = 0)⟩ after := by
  by_cases hfirst : before = 0 ∧ 0 < after
  · by_cases hcur : cur = 0
    · simp [flip, Switch.update, hfirst, hcur]
    · simp [flip, Switch.update, hfirst, hcur]
  · by_cases hlast : 0 < before ∧ after = 0
    · have hne : before ≠ 0 := by omega
      simp [flip, Switch.update, hlast, hne]
    · have hbool : (decide (before = 0) && decide (0 < after)) = false := by
        simpa using hfirst
      have hbool' : (decide (0 < before) && decide (after = 0)) = false := by
        simpa using hlast
      rw [hbool, hbool', flip_none, Switch.update, if_neg hfirst, if_neg hlast]

theorem leasesAfter_orig (s : State) (a : Action) (f : Family) :
    orig (leasesAfter s a) f = orig s f := by
  have hsame : (leasesAfter s a).orig4 = s.orig4 ∧ (leasesAfter s a).orig6 = s.orig6 := by
    cases a with
    | acquire jid wantSlot want4 want6 =>
        rcases FwLeasePure.acquire_cases s jid.val wantSlot want4 want6 with
          ⟨-, -, -, heq⟩ | ⟨slot, -, heq⟩
        · simp only [leasesAfter, heq, and_self]
        · simp only [leasesAfter, heq _ rfl, and_self]
    | release jid =>
        obtain ⟨h4, h6, -⟩ := FwLeasePure.release_shrinks s jid
        exact ⟨h4, h6⟩
    | reconcile probe => cases probe <;> exact ⟨rfl, rfl⟩
    | restart => exact ⟨rfl, rfl⟩
  cases f
  · exact hsame.1
  · exact hsame.2

/-- A step updates each family's switch with the new number of users, and nothing else. -/
theorem view_settle (f : Family) (s : State) (k : Sysctl) (a : Action) :
    view f (settle s k a).1 (settle s k a).2 =
      (view f s k).update 0 1 (users (leasesAfter s a) f) := by
  calc view f (settle s k a).1 (settle s k a).2
      = Switch.update 0 1 ⟨users s f, k.value f, decide (orig (leasesAfter s a) f = 0)⟩
          (users (leasesAfter s a) f) := by
        rw [← flip_eq_update]
        cases f <;> rfl
    _ = (view f s k).update 0 1 (users (leasesAfter s a) f) := by
        rw [leasesAfter_orig]
        rfl

theorem view_step {w : World} (h : Kept w) (f : Family) (a : Action) :
    view f (step w a).registry.state (step w a).sysctl =
      (view f w.registry.state w.sysctl).update 0 1 (users (leasesAfter w.registry.state a) f) := by
  have hspec := step_spec h a
  rw [hspec.state, hspec.sysctl, view_settle]

theorem tracks_run (k : Sysctl) (actions : List Action) (f : Family) :
    Switch.Tracks 0 1 (k.value f)
      (view f (run step (start k) actions).registry.state (run step (start k) actions).sysctl) := by
  have hstep : ∀ w a,
      (Kept w ∧ Switch.Tracks 0 1 (k.value f) (view f w.registry.state w.sysctl)) →
      Kept (step w a) ∧
        Switch.Tracks 0 1 (k.value f) (view f (step w a).registry.state (step w a).sysctl) := by
    rintro w a ⟨hkept, htracks⟩
    rw [view_step hkept]
    exact ⟨hkept.step a, htracks.update _⟩
  have hblank : users {} f = 0 := by cases f <;> rfl
  have hstart : Switch.Tracks 0 1 (k.value f) (view f (start k).registry.state (start k).sysctl) :=
    ⟨fun _ => rfl, fun hbusy => absurd hblank (Nat.ne_of_gt hbusy)⟩
  exact (run_induct hstep ⟨kept_start k, hstart⟩ actions).2

/-! ## The other family forgotten -/

def onlyEntry (f : Family) (e : Entry) : Entry :=
  match f with
  | .v4 => { e with fwd6 := false }
  | .v6 => { e with fwd4 := false }

/-- The leases without the references to the other family; the remembered values are left out. -/
def onlyState (f : Family) (s : State) : State :=
  { leases := s.leases.mapValues (onlyEntry f) }

def Action.only (f : Family) : Action → Action
  | .acquire jid wantSlot want4 want6 =>
      match f with
      | .v4 => .acquire jid wantSlot want4 false
      | .v6 => .acquire jid wantSlot false want6
  | a => a

@[simp] theorem onlyEntry_slot (f : Family) (e : Entry) : (onlyEntry f e).slot = e.slot := by
  cases f <;> rfl

@[simp] theorem users_onlyState (f : Family) (s : State) : users (onlyState f s) f = users s f := by
  rw [users_eq_countP, users_eq_countP, onlyState, OrdMap.mapValues, List.countP_map]
  cases f <;> rfl

theorem leaseOf_onlyState (f : Family) (s : State) (jid : Nat) :
    FwLeasePure.leaseOf (onlyState f s) jid = onlyEntry f (FwLeasePure.leaseOf s jid) := by
  rw [FwLeasePure.leaseOf, FwLeasePure.leaseOf, onlyState, OrdMap.find?_mapValues]
  cases s.leases.find? jid
  · cases f <;> rfl
  · rfl

theorem lowestFreeSlot_onlyState (f : Family) (s : State) (maxSlots : Nat) :
    FwLeasePure.lowestFreeSlot (onlyState f s) maxSlots = FwLeasePure.lowestFreeSlot s maxSlots := by
  have hused : FwLeasePure.usedSlots (onlyState f s) = FwLeasePure.usedSlots s := by
    simp only [FwLeasePure.usedSlots, onlyState, OrdMap.mapValues, List.map_map,
      Function.comp_def, onlyEntry_slot]
  rw [FwLeasePure.lowestFreeSlot, hused, FwLeasePure.lowestFreeSlot]

theorem onlyState_insert (f : Family) (s : State) (jid : Nat) (e : Entry) :
    onlyState f { s with leases := s.leases.insert jid e } =
      { onlyState f s with leases := (onlyState f s).leases.insert jid (onlyEntry f e) } := by
  simp only [onlyState, OrdMap.mapValues_insert]

theorem acquire_onlyState (f : Family) (s : State) (jid : Nat) (wantSlot want4 want6 : Bool) :
    onlyState f (FwLeasePure.acquire s jid wantSlot want4 want6).2 =
      (FwLeasePure.acquire (onlyState f s) jid wantSlot (want4 && f = .v4) (want6 && f = .v6)).2 := by
  unfold FwLeasePure.acquire
  dsimp only
  rw [leaseOf_onlyState, onlyEntry_slot, lowestFreeSlot_onlyState]
  split_ifs
  · rfl
  · simp only [FwLeasePure.grant, onlyState_insert]
    cases f <;> simp [onlyEntry]
  · simp only [FwLeasePure.grant, onlyState_insert]
    cases f <;> simp [onlyEntry]

theorem leasesAfter_onlyState (f : Family) (s : State) (a : Action) :
    onlyState f (leasesAfter s a) = leasesAfter (onlyState f s) (a.only f) := by
  cases a with
  | acquire jid wantSlot want4 want6 =>
      rw [leasesAfter, acquire_onlyState]
      cases f <;> simp [Action.only, leasesAfter]
  | release jid =>
      have hfind : (onlyState f s).leases.find? jid =
          (s.leases.find? jid).map (onlyEntry f) := by
        rw [onlyState, OrdMap.find?_mapValues]
      simp only [leasesAfter, Action.only, FwLeasePure.release, hfind]
      cases s.leases.find? jid
      · rfl
      · simp only [onlyState, OrdMap.mapValues_erase, Option.map_some]
  | reconcile probe =>
      cases probe with
      | none => rfl
      | some isLive =>
          simp only [leasesAfter, Action.only, FwLeasePure.reconcile, onlyState,
            OrdMap.mapValues_filter_key]
  | restart => rfl

structure LooksSame (f : Family) (w w' : World) : Prop where
  left : Kept w
  right : Kept w'
  leases : onlyState f w.registry.state = onlyState f w'.registry.state
  view : view f w.registry.state w.sysctl = view f w'.registry.state w'.sysctl

theorem LooksSame.step {f : Family} {w w' : World} (h : LooksSame f w w') {a a' : Action}
    (ha : a.only f = a'.only f) : LooksSame f (step w a) (step w' a') := by
  have hafter : onlyState f (leasesAfter w.registry.state a) =
      onlyState f (leasesAfter w'.registry.state a') := by
    rw [leasesAfter_onlyState, leasesAfter_onlyState, h.leases, ha]
  -- the sysctls follow the leases without touching them
  have hkept : ∀ {v : World} {b : Action}, Kept v →
      onlyState f (FwLeaseRegistry.step v b).registry.state =
        onlyState f (leasesAfter v.registry.state b) := by
    intro v b hv
    rw [(step_spec hv b).state]
    rfl
  refine ⟨h.left.step a, h.right.step a', ?_, ?_⟩
  · rw [hkept h.left, hkept h.right, hafter]
  · rw [view_step h.left, view_step h.right, h.view, ← users_onlyState, hafter, users_onlyState]

theorem LooksSame.run {f : Family} {w w' : World} (h : LooksSame f w w')
    {actions actions' : List Action}
    (hsame : actions.map (Action.only f) = actions'.map (Action.only f)) :
    LooksSame f (Foundation.run FwLeaseRegistry.step w actions)
      (Foundation.run FwLeaseRegistry.step w' actions') := by
  induction actions generalizing w w' actions' with
  | nil =>
      obtain rfl : actions' = [] := by simpa using hsame.symm
      exact h
  | cons a rest ih =>
      cases actions' with
      | nil => simp at hsame
      | cons a' rest' =>
          simp only [List.map_cons, List.cons.injEq] at hsame
          exact ih (h.step hsame.1) hsame.2

theorem looksSame_start {f : Family} {k k' : Sysctl} (h : k.value f = k'.value f) :
    LooksSame f (start k) (start k') := by
  refine ⟨kept_start k, kept_start k', ?_, ?_⟩
  · rw [start_state, start_state]
  · rw [start_state, start_state, start_sysctl, start_sysctl, FwLeaseRegistry.view,
      FwLeaseRegistry.view, h]

/-! ## The host's values come back -/

/-- A sysctl reads 1 while a lease refers to it, and its first value while none does. -/
def ReadsOneInUse (k : Sysctl) (w : World) (f : Family) : Prop :=
  (Referenced w.registry.state f → w.sysctl.value f = 1) ∧
    (¬Referenced w.registry.state f → w.sysctl.value f = k.value f)

/--
For any values the host starts with and any run: while a lease refers to a
sysctl it reads 1 if it was 0 at the start and else keeps its value, while none
does it has its first value, a restart rebuilds the registry, and no request
for the other family and no value of its sysctl makes a difference.
-/
theorem forwarding_restored (k : Sysctl) (actions : List Action) (f : Family) :
    let w := run step (start k) actions
    (Referenced w.registry.state f →
        w.sysctl.value f = if k.value f = 0 then 1 else k.value f) ∧
      (¬Referenced w.registry.state f → w.sysctl.value f = k.value f) ∧
      load w.registry.path w.registry.file = .ok w.registry ∧
      ∀ k' actions', k.value f = k'.value f →
        actions.map (Action.only f) = actions'.map (Action.only f) →
        view f (run step (start k') actions').registry.state (run step (start k') actions').sysctl =
          view f w.registry.state w.sysctl := by
  intro w
  have htracks := tracks_run k actions f
  have hkept := kept_run k actions
  refine ⟨?_, ?_, load_eq hkept.wellFormed hkept.synced, ?_⟩
  · intro href
    exact (htracks.busy (users_pos_iff.mpr href)).1
  · intro hnone
    exact htracks.idle (Nat.eq_zero_of_not_pos (fun hpos => hnone (users_pos_iff.mp hpos)))
  · intro k' actions' hvalue hsame
    exact ((looksSame_start hvalue).run hsame).view.symm

theorem forwarding_two_stays :
    ¬ ∀ (k : Sysctl) (actions : List Action) (f : Family),
      ReadsOneInUse k (run step (start k) actions) f := by
  intro h
  have hone := (h ⟨2, 0⟩ [.acquire ⟨1, by decide, by decide⟩ false true false] .v4).1
    ⟨1, { fwd4 := true }, by decide, by decide⟩
  exact absurd hone (by decide)

end Crate.FwLeaseRegistry
