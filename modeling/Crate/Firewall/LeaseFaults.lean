import Crate.Firewall.LeaseRegistry
import Crate.PrivOps.ValidateReq
import Crate.PrivOps.WireParse

/-!
# Lease calls that fail

`acquire` and `release` change the leases in memory, flip the sysctls and only
then write the file.  Nothing is put back when the write fails, so a failed call
leaves memory, sysctls and file as they were only where it had nothing to
change.  The file itself is replaced by a rename and is never half written.
-/

namespace Crate.FwLeaseRegistry

open Crate.Foundation
open Crate.PrivOpsPure (AcquireFwLeaseReq ReleaseFwLeaseReq)
open Crate.PrivOpsWirePure (DispatchResult formatHandlerError)
open Crate.FwLeasePure (State Entry Transition LeaseJid counts diff serialize parse WellFormed)

/-! ## Calls in a world where operations fail -/

/-- What an injected sysctl accessor does when it is called. -/
inductive Access where
  | works
  | throws
  | missing
  deriving DecidableEq, Repr

structure SysctlIo where
  get : Access := .works
  set : Access := .works
  deriving DecidableEq, Repr

inductive DiskFault where
  | open
  | write
  | rename
  deriving DecidableEq, Repr

/-- Where `persistLocked_` stops; none of these has touched `path_`. -/
def DiskFault.what (path : Str) : DiskFault → Str
  | .open => "fw_lease_registry: cannot write " ++ path ++ ".tmp"
  | .write => "fw_lease_registry: short write to " ++ path ++ ".tmp"
  | .rename =>
      "fw_lease_registry: rename " ++ path ++ ".tmp" ++ " -> " ++ path ++ " failed"

structure Faults where
  io4 : SysctlIo := {}
  io6 : SysctlIo := {}
  disk : Option DiskFault := none
  deriving DecidableEq, Repr

/-- `flip` with accessors that may be missing or throw; an exception leaves `orig` as it is. -/
def flipWith (io : SysctlIo) (first last : Bool) (orig cur : Int) : Int × Int :=
  if first then
    match io.get, io.set with
    | .throws, _ => (orig, cur)
    | .missing, _ => (-1, cur)
    | .works, .works => if cur = 0 then (0, 1) else (-1, cur)
    | .works, .throws => if cur = 0 then (orig, cur) else (-1, cur)
    | .works, .missing => (-1, cur)
  else if last then
    match io.set with
    | .works => (-1, if orig = 0 then 0 else cur)
    | .throws => if orig = 0 then (orig, cur) else (-1, cur)
    | .missing => (-1, cur)
  else (orig, cur)

def applyTransitionWith (faults : Faults) (t : Transition) (s : State) (k : Sysctl) :
    State × Sysctl :=
  let (orig4, forwarding4) := flipWith faults.io4 t.first4 t.last4 s.orig4 k.forwarding4
  let (orig6, forwarding6) := flipWith faults.io6 t.first6 t.last6 s.orig6 k.forwarding6
  ({ s with orig4 := orig4, orig6 := orig6 },
    { forwarding4 := forwarding4, forwarding6 := forwarding6 })

/-- `applyTransitionLocked_(t); persistLocked_();` and the exception that leaves the second. -/
def commitWith (faults : Faults) (w : World) (t : Transition) (s : State) : Option Str × World :=
  let (s', k) := applyTransitionWith faults t s w.sysctl
  match faults.disk with
  | none => (none, { registry := persist w.registry s', sysctl := k })
  | some fault =>
      (some (fault.what w.registry.path),
        { registry := { w.registry with state := s' }, sysctl := k })

/-- How a call of the registry ends. -/
inductive CallEnd where
  | returned (r : Result)
  | refused (err : Str)
  | threw (what : Str)
  deriving DecidableEq, Repr

def acquireWith (faults : Faults) (w : World) (jid : Nat) (wantSlot want4 want6 : Bool) :
    CallEnd × World :=
  match FwLeasePure.acquire w.registry.state jid wantSlot want4 want6 with
  | (.error err, s) => (.refused err, { w with registry := { w.registry with state := s } })
  | (.ok (e, t), s) =>
      match commitWith faults w t s with
      | (some what, w') => (.threw what, w')
      | (none, w') =>
          let c := counts w'.registry.state
          (.returned { slot := e.slot, fwd4Users := c.fwd4, fwd6Users := c.fwd6 }, w')

def releaseWith (faults : Faults) (w : World) (jid : Nat) : CallEnd × World :=
  let (found, t, s) := FwLeasePure.release w.registry.state jid
  let (what, w') :=
    if found then commitWith faults w t s
    else (none, { w with registry := { w.registry with state := s } })
  match what with
  | some what => (.threw what, w')
  | none =>
      let c := counts w'.registry.state
      (.returned { fwd4Users := c.fwd4, fwd6Users := c.fwd6, released := found }, w')

/-- Where nothing fails, a commit is the one of the registry. -/
theorem commitWith_nominal (w : World) (t : Transition) (s : State) :
    commitWith {} w t s = (none, commit w t s) := by
  have hflip : ∀ first last orig cur,
      flipWith {} first last orig cur = flip first last orig cur := by
    intro first last orig cur
    cases first <;> rfl
  simp only [commitWith, applyTransitionWith, hflip, commit, applyTransition]

theorem acquireWith_nominal (w : World) (jid : Nat) (wantSlot want4 want6 : Bool) :
    (acquireWith {} w jid wantSlot want4 want6).2 = (acquire w jid wantSlot want4 want6).2 := by
  simp only [acquireWith, acquire, commitWith_nominal]
  cases FwLeasePure.acquire w.registry.state jid wantSlot want4 want6 with
  | mk answer s => cases answer <;> rfl

theorem releaseWith_nominal (w : World) (jid : Nat) :
    releaseWith {} w jid = (.returned (release w jid).1, (release w jid).2) := by
  simp only [releaseWith, release, commitWith_nominal]
  cases hfind : w.registry.state.leases.find? jid <;> simp [FwLeasePure.release, hfind]

/-! ## The handlers -/

structure Daemon where
  registryInstalled : Bool := true
  /-- `getJailByJid` finds a jail that is not dying. -/
  running : Nat → Bool

def formatAcquireFwLeaseSuccess (jid : Nat) (r : Result) : Str :=
  "\x7b\"jid\":" ++ decimal jid ++ ",\"slot\":" ++ integerText r.slot ++
    (",\"fwd4_users\":" ++ decimal r.fwd4Users) ++ (",\"fwd6_users\":" ++ decimal r.fwd6Users) ++
    "\x7d"

def formatReleaseFwLeaseSuccess (jid : Nat) (r : Result) : Str :=
  "\x7b\"jid\":" ++ decimal jid ++ ",\"released\":" ++ (if r.released then "true" else "false") ++
    (",\"fwd4_users\":" ++ decimal r.fwd4Users) ++ (",\"fwd6_users\":" ++ decimal r.fwd6Users) ++
    "\x7d"

def noRegistry : DispatchResult :=
  ⟨503, formatHandlerError "no_fw_lease_registry" "crated has no firewall-lease registry"⟩

def handleAcquireFwLease (daemon : Daemon) (faults : Faults) (w : World) (r : AcquireFwLeaseReq) :
    DispatchResult × World :=
  if !daemon.registryInstalled then (noRegistry, w)
  else if !daemon.running r.jid.toNat then
    (⟨404, formatHandlerError "jail_not_found"
      ("jid " ++ decimal r.jid.toNat ++ " is not a running jail")⟩, w)
  else
    match acquireWith faults w r.jid.toNat r.slot r.fwd4 r.fwd6 with
    | (.refused err, w') => (⟨409, formatHandlerError "fw_lease_exhausted" err⟩, w')
    | (.threw what, w') => (⟨500, formatHandlerError "fw_lease_failed" what⟩, w')
    | (.returned res, w') => (⟨200, formatAcquireFwLeaseSuccess r.jid.toNat res⟩, w')

def handleReleaseFwLease (daemon : Daemon) (faults : Faults) (w : World) (r : ReleaseFwLeaseReq) :
    DispatchResult × World :=
  if !daemon.registryInstalled then (noRegistry, w)
  else
    match releaseWith faults w r.jid.toNat with
    -- `release` has no error text of its own: it returns or throws
    | (.refused what, w') => (⟨500, formatHandlerError "fw_lease_failed" what⟩, w')
    | (.threw what, w') => (⟨500, formatHandlerError "fw_lease_failed" what⟩, w')
    | (.returned res, w') => (⟨200, formatReleaseFwLeaseSuccess r.jid.toNat res⟩, w')

/-! ## What a failed call leaves behind -/

/-- Memory, sysctls and file are as they were. -/
structure Unchanged (w w' : World) : Prop where
  state : w'.registry.state = w.registry.state
  sysctl : w'.sysctl = w.sysctl
  file : w'.registry.file = w.registry.file

theorem Unchanged.refl (w : World) : Unchanged w w := ⟨rfl, rfl, rfl⟩

@[simp] theorem flipWith_none (io : SysctlIo) (orig cur : Int) :
    flipWith io false false orig cur = (orig, cur) := rfl

@[simp] theorem applyTransitionWith_none (faults : Faults) (s : State) (k : Sysctl) :
    applyTransitionWith faults {} s k = (s, k) := rfl

theorem applyTransitionWith_leases (faults : Faults) (t : Transition) (s : State) (k : Sysctl) :
    (applyTransitionWith faults t s k).1.leases = s.leases := rfl

/-- A write that fails leaves the file alone and the new leases in memory. -/
theorem commitWith_fails {faults : Faults} {fault : DiskFault} (h : faults.disk = some fault)
    (w : World) (t : Transition) (s : State) :
    commitWith faults w t s =
      (some (fault.what w.registry.path),
        { registry := { w.registry with state := (applyTransitionWith faults t s w.sysctl).1 },
          sysctl := (applyTransitionWith faults t s w.sysctl).2 }) := by
  unfold commitWith
  rw [h]

/-- A failed write is harmless exactly when there was nothing to write. -/
theorem commitWith_unchanged_iff {faults : Faults} {fault : DiskFault}
    (h : faults.disk = some fault) (w : World) {s : State}
    (horig : s.orig4 = w.registry.state.orig4 ∧ s.orig6 = w.registry.state.orig6) :
    Unchanged w (commitWith faults w (diff (counts w.registry.state) (counts s)) s).2 ↔
      s.leases = w.registry.state.leases := by
  rw [commitWith_fails h]
  constructor
  · intro hsame
    have hleases := congrArg State.leases hsame.state
    rwa [applyTransitionWith_leases] at hleases
  · intro hleases
    have hs : s = w.registry.state := by
      cases s
      simp_all
    rw [hs, diff_self, applyTransitionWith_none]
    exact ⟨rfl, rfl, rfl⟩

/-! ## When a call has something to change -/

def NoSlotLeft (s : State) (jid : Nat) (wantSlot : Bool) : Prop :=
  wantSlot = true ∧ (FwLeasePure.leaseOf s jid).slot < 0 ∧ FwLeasePure.AllHeld s

/-- The jid has a lease already with everything that is asked for. -/
def HoldsAll (s : State) (jid : Nat) (wantSlot want4 want6 : Bool) : Prop :=
  ∃ e, s.leases.find? jid = some e ∧ (wantSlot = true → 0 ≤ e.slot) ∧
    (want4 = true → e.fwd4 = true) ∧ (want6 = true → e.fwd6 = true)

theorem granted_eq_iff {s : State} {jid : Nat} {e : Entry} {wantSlot want4 want6 : Bool}
    {slot : Int} (hfind : s.leases.find? jid = some e)
    (hslot : FwLeasePure.SlotGranted s jid wantSlot slot) :
    FwLeasePure.granted s jid want4 want6 slot = e ↔
      (wantSlot = true → 0 ≤ e.slot) ∧ (want4 = true → e.fwd4 = true) ∧
        (want6 = true → e.fwd6 = true) := by
  have hlease := FwLeasePure.leaseOf_eq hfind
  have hsame : slot = e.slot ↔ (wantSlot = true → 0 ≤ e.slot) := by
    rcases hslot with ⟨hkept, hhas⟩ | ⟨hwant, hnone, hfree⟩
    · rw [hlease] at hkept
      subst hkept
      exact iff_of_true rfl hhas
    · rw [hlease] at hnone
      have hpos := hfree.nonneg
      constructor
      · intro heq
        omega
      · intro hhas
        have := hhas hwant
        omega
  have hor : ∀ a b : Bool, (a || b) = a ↔ (b = true → a = true) := by decide
  rw [← hsame, ← hor, ← hor]
  cases e
  simp only [FwLeasePure.granted, hlease, Entry.mk.injEq]

theorem leases_acquire_eq_iff (s : State) (jid : Nat) (wantSlot want4 want6 : Bool) :
    (FwLeasePure.acquire s jid wantSlot want4 want6).2.leases = s.leases ↔
      NoSlotLeft s jid wantSlot ∨ HoldsAll s jid wantSlot want4 want6 := by
  rcases FwLeasePure.acquire_cases s jid wantSlot want4 want6 with
    ⟨hwant, hnone, hall, heq⟩ | ⟨slot, hslot, heq⟩
  · rw [heq]
    exact iff_of_true rfl (.inl ⟨hwant, hnone, hall⟩)
  · have hno : ¬NoSlotLeft s jid wantSlot := by
      intro hno
      obtain ⟨err, herr⟩ := (FwLeasePure.acquire_fails_iff s jid wantSlot want4 want6).mpr hno
      rw [heq _ rfl] at herr
      contradiction
    rw [heq _ rfl, or_iff_right hno]
    dsimp only
    constructor
    · intro hsame
      have hfind : s.leases.find? jid = some _ :=
        (congrArg (fun m => m.find? jid) hsame).symm.trans (OrdMap.find?_insert_self _ _ _)
      exact ⟨_, hfind, (granted_eq_iff hfind hslot).mp rfl⟩
    · rintro ⟨e, hfind, hholds⟩
      rw [(granted_eq_iff hfind hslot).mpr hholds]
      exact OrdMap.insert_eq_self hfind

theorem origs_acquire (s : State) (jid : Nat) (wantSlot want4 want6 : Bool) :
    (FwLeasePure.acquire s jid wantSlot want4 want6).2.orig4 = s.orig4 ∧
      (FwLeasePure.acquire s jid wantSlot want4 want6).2.orig6 = s.orig6 := by
  rcases FwLeasePure.acquire_cases s jid wantSlot want4 want6 with ⟨-, -, -, heq⟩ | ⟨slot, -, heq⟩
  · rw [heq]
    exact ⟨rfl, rfl⟩
  · rw [heq _ rfl]
    exact ⟨rfl, rfl⟩

/-! ## What the client sees -/

inductive LeaseCall where
  | acquire (r : AcquireFwLeaseReq)
  | release (r : ReleaseFwLeaseReq)
  deriving DecidableEq, Repr

def handle (daemon : Daemon) (faults : Faults) (w : World) : LeaseCall → DispatchResult × World
  | .acquire r => handleAcquireFwLease daemon faults w r
  | .release r => handleReleaseFwLease daemon faults w r

/-- The leases the call commits when it gets that far. -/
def leasesOf (s : State) : LeaseCall → State
  | .acquire r => (FwLeasePure.acquire s r.jid.toNat r.slot r.fwd4 r.fwd6).2
  | .release r => (FwLeasePure.release s r.jid.toNat).2.2

/-- The call does not reach the registry, or the leases after it are those before it. -/
def NothingToWrite (daemon : Daemon) (s : State) : LeaseCall → Prop
  | .acquire r => daemon.registryInstalled = false ∨ daemon.running r.jid.toNat = false ∨
      NoSlotLeft s r.jid.toNat r.slot ∨ HoldsAll s r.jid.toNat r.slot r.fwd4 r.fwd6
  | .release r => daemon.registryInstalled = false ∨ s.leases.find? r.jid.toNat = none

/-- The leases are committed, and the client is told whether the file was written. -/
structure Commits (daemon : Daemon) (faults : Faults) (w : World) (call : LeaseCall) : Prop where
  origs : (leasesOf w.registry.state call).orig4 = w.registry.state.orig4 ∧
    (leasesOf w.registry.state call).orig6 = w.registry.state.orig6
  leases : (leasesOf w.registry.state call).leases = w.registry.state.leases ↔
    NothingToWrite daemon w.registry.state call
  world : (handle daemon faults w call).2 =
    (commitWith faults w (diff (counts w.registry.state)
      (counts (leasesOf w.registry.state call))) (leasesOf w.registry.state call)).2
  status : (handle daemon faults w call).1.status = 200 ↔ faults.disk = none

/-- A call stops before it changes anything, or commits its leases. -/
theorem handle_cases (daemon : Daemon) (faults : Faults) (w : World) (call : LeaseCall) :
    (NothingToWrite daemon w.registry.state call ∧ (handle daemon faults w call).2 = w) ∨
      Commits daemon faults w call := by
  cases hinstalled : daemon.registryInstalled with
  | false =>
      refine .inl ?_
      cases call with
      | acquire r => exact ⟨.inl hinstalled, by simp [handle, handleAcquireFwLease, hinstalled]⟩
      | release r => exact ⟨.inl hinstalled, by simp [handle, handleReleaseFwLease, hinstalled]⟩
  | true =>
      cases call with
      | acquire r =>
          cases hrunning : daemon.running r.jid.toNat with
          | false =>
              exact .inl ⟨.inr (.inl hrunning),
                by simp [handle, handleAcquireFwLease, hinstalled, hrunning]⟩
          | true =>
              have hleases :=
                leases_acquire_eq_iff w.registry.state r.jid.toNat r.slot r.fwd4 r.fwd6
              rcases FwLeasePure.acquire_cases w.registry.state r.jid.toNat r.slot r.fwd4 r.fwd6
                with ⟨hwant, hnone, hall, heq⟩ | ⟨slot, -, heq⟩
              · exact .inl ⟨.inr (.inr (.inl ⟨hwant, hnone, hall⟩)),
                  by simp [handle, handleAcquireFwLease, hinstalled, hrunning, acquireWith, heq]⟩
              · refine .inr ⟨origs_acquire _ _ _ _ _, ?_, ?_, ?_⟩
                · simp [NothingToWrite, hinstalled, hrunning, leasesOf, hleases]
                · cases hdisk : faults.disk <;>
                    simp [handle, handleAcquireFwLease, acquireWith, leasesOf, hinstalled, hrunning,
                      heq _ rfl, commitWith, hdisk]
                · cases hdisk : faults.disk <;>
                    simp [handle, handleAcquireFwLease, acquireWith, hinstalled, hrunning,
                      heq _ rfl, commitWith, hdisk]
      | release r =>
          cases hfind : w.registry.state.leases.find? r.jid.toNat with
          | none =>
              exact .inl ⟨.inr hfind, by simp [handle, handleReleaseFwLease, hinstalled,
                releaseWith, FwLeasePure.release, hfind]⟩
          | some e =>
              have hgone :
                  ¬w.registry.state.leases.erase r.jid.toNat = w.registry.state.leases := by
                intro hsame
                have hnone := OrdMap.find?_erase w.registry.state.leases r.jid.toNat r.jid.toNat
                rw [hsame, hfind, if_pos rfl] at hnone
                contradiction
              refine .inr ⟨?_, ?_, ?_, ?_⟩
              · simp [leasesOf, FwLeasePure.release, hfind]
              · simp [leasesOf, FwLeasePure.release, hfind, NothingToWrite, hinstalled, hgone]
              · cases hdisk : faults.disk <;>
                  simp [handle, handleReleaseFwLease, releaseWith, leasesOf, FwLeasePure.release,
                    hinstalled, hfind, commitWith, hdisk]
              · cases hdisk : faults.disk <;>
                  simp [handle, handleReleaseFwLease, releaseWith, FwLeasePure.release, hinstalled,
                    hfind, commitWith, hdisk]

/-- The call leaves the world alone if the client is told that it failed. -/
def FailsCleanly (daemon : Daemon) (faults : Faults) (w : World) (call : LeaseCall) : Prop :=
  (handle daemon faults w call).1.status ≠ 200 → Unchanged w (handle daemon faults w call).2

theorem failsCleanly_iff (daemon : Daemon) (faults : Faults) (w : World) (call : LeaseCall) :
    FailsCleanly daemon faults w call ↔
      faults.disk = none ∨ NothingToWrite daemon w.registry.state call := by
  rcases handle_cases daemon faults w call with ⟨hnothing, hworld⟩ | hcommits
  · refine iff_of_true (fun _ => ?_) (.inr hnothing)
    rw [hworld]
    exact .refl w
  · cases hdisk : faults.disk with
    | none =>
        exact iff_of_true (fun hfailed => absurd (hcommits.status.mpr hdisk) hfailed) (.inl rfl)
    | some fault =>
        have hfailed : (handle daemon faults w call).1.status ≠ 200 := by
          rw [Ne, hcommits.status, hdisk]
          exact Option.some_ne_none fault
        rw [or_iff_right (Option.some_ne_none fault), ← hcommits.leases,
          ← commitWith_unchanged_iff hdisk w hcommits.origs, ← hcommits.world]
        exact ⟨fun h => h hfailed, fun h _ => h⟩

/-! ## Memory and file -/

def Validated : LeaseCall → Prop
  | .acquire r => PrivOpsPure.validateAcquireFwLease r = .ok ()
  | .release r => PrivOpsPure.validateReleaseFwLease r = .ok ()

theorem flipWith_range {io : SysctlIo} {first last : Bool} {orig cur : Int}
    (h : -1 ≤ orig ∧ orig ≤ 1) :
    -1 ≤ (flipWith io first last orig cur).1 ∧ (flipWith io first last orig cur).1 ≤ 1 := by
  unfold flipWith
  split_ifs
  all_goals
    try split
    all_goals first
      | exact h
      | exact ⟨by norm_num, by norm_num⟩

theorem WellFormed.applyTransitionWith {s : State} (h : WellFormed s) (faults : Faults)
    (t : Transition) (k : Sysctl) : WellFormed (applyTransitionWith faults t s k).1 :=
  { jids := h.jids
    slots := h.slots
    orig4 := flipWith_range h.orig4
    orig6 := flipWith_range h.orig6
    distinct := h.distinct }

theorem WellFormed.leasesOf {s : State} (h : WellFormed s) {call : LeaseCall}
    (hvalid : Validated call) : WellFormed (leasesOf s call) := by
  cases call with
  | acquire r =>
      simp only [Validated, PrivOpsPure.validateAcquireFwLease, PrivOpsPure.checkUnsignedJid,
        check_seq_eq_ok, reject_eq_ok, not_or, gt_iff_lt] at hvalid
      obtain ⟨⟨hpos, hmax⟩, -⟩ := hvalid
      rw [← UInt32.toNat_inj] at hpos
      rw [UInt32.lt_iff_toNat_lt] at hmax
      simp only [UInt32.reduceToNat] at hpos hmax
      exact h.acquire ⟨r.jid.toNat, by omega, by omega⟩ r.slot r.fwd4 r.fwd6
  | release r => exact h.of_shrinks (FwLeasePure.release_shrinks s r.jid.toNat)

/-- Memory that has moved on from its file no longer agrees with it. -/
theorem not_synced_of_changed {r r' : FwLeaseRegistry} (hwf : WellFormed r.state)
    (hwf' : WellFormed r'.state) (hsync : Synced r) (hfile : r'.file = r.file)
    (hne : r'.state ≠ r.state) : ¬Synced r' := by
  rintro (hwritten | ⟨hmissing, hempty⟩)
  · rcases hsync with hold | ⟨hold, -⟩
    · rw [hfile, hold] at hwritten
      have htext := FwLeasePure.parse_serialize hwf
      rw [Option.some.inj hwritten, FwLeasePure.parse_serialize hwf'] at htext
      exact hne (Except.ok.inj htext)
    · rw [hfile, hold] at hwritten
      contradiction
  · rcases hsync with hold | ⟨-, hold⟩
    · rw [hfile, hold] at hmissing
      contradiction
    · exact hne (hempty.trans hold.symm)

theorem synced_handle_iff {daemon : Daemon} {faults : Faults} {w : World} {call : LeaseCall}
    (hvalid : Validated call) (hwf : WellFormed w.registry.state) (hsync : Synced w.registry) :
    Synced (handle daemon faults w call).2.registry ↔
      faults.disk = none ∨ NothingToWrite daemon w.registry.state call := by
  rcases handle_cases daemon faults w call with ⟨hnothing, hworld⟩ | hcommits
  · rw [hworld]
    exact iff_of_true hsync (.inr hnothing)
  · rw [hcommits.world]
    cases hdisk : faults.disk with
    | none =>
        refine iff_of_true (.inl ?_) (.inl rfl)
        simp only [commitWith, hdisk, persist]
    | some fault =>
        rw [or_iff_right (Option.some_ne_none fault)]
        constructor
        · intro hafter
          by_contra hwrites
          rw [commitWith_fails hdisk] at hafter
          have hwf' := WellFormed.applyTransitionWith (WellFormed.leasesOf hwf hvalid) faults
            (diff (counts w.registry.state) (counts (leasesOf w.registry.state call))) w.sysctl
          refine absurd hafter (not_synced_of_changed hwf ?_ hsync ?_ ?_)
          · exact hwf'
          · rfl
          · intro hsame
            have hleases := congrArg State.leases hsame
            exact hwrites (hcommits.leases.mp hleases)
        · intro hnothing
          have hsame := (commitWith_unchanged_iff hdisk w hcommits.origs).mpr
            (hcommits.leases.mpr hnothing)
          rcases hsync with hold | ⟨hold, hempty⟩
          · exact .inl (by rw [hsame.file, hsame.state, hold])
          · exact .inr ⟨hsame.file.trans hold, hsame.state.trans hempty⟩

/--
A failed call changes nothing, and memory and file go on agreeing, exactly when
the file could be written or there was nothing to write.
-/
theorem failed_lease_call_changes_nothing_iff (daemon : Daemon) (faults : Faults) (w : World)
    (call : LeaseCall) :
    (FailsCleanly daemon faults w call ↔
      faults.disk = none ∨ NothingToWrite daemon w.registry.state call) ∧
      (Validated call → WellFormed w.registry.state → Synced w.registry →
        (Synced (handle daemon faults w call).2.registry ↔
          faults.disk = none ∨ NothingToWrite daemon w.registry.state call)) :=
  ⟨failsCleanly_iff daemon faults w call, synced_handle_iff⟩

/-- The first lease that asks for IPv4 forwarding, on a disk where the rename fails. -/
theorem failed_rename_keeps_lease :
    ¬∀ daemon faults w call, FailsCleanly daemon faults w call := by
  intro hall
  have hclean := hall { running := fun _ => true } { disk := some .rename } (start ⟨0, 0⟩)
    (.acquire { jid := 5, fwd4 := true })
  have hsysctl := (hclean (by decide)).sysctl
  exact absurd hsysctl (by decide)

end Crate.FwLeaseRegistry
