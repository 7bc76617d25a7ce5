import Crate.Foundation.Run
import Crate.PrivOps.Dispatch

/-!
# Claims on private devfs rulesets

`apply_devfs_rules` deletes a ruleset and refills it for the devfs of one jail.
The daemon remembers for each ruleset the last caller and mount path it let
through.  The gate looks the owner up, the claim is recorded in a second
critical section, and only then is the request parsed, validated and run; the
three steps of several requests, and devfs mounts that come and go, interleave
in any order.
-/

namespace Crate.Crated

open Crate.Foundation
open Crate.PrivOpsPure
open Crate.PrivOpsNvPure
open Crate.PrivOpsAuthzPure

structure DevfsRulesetClaim where
  uid : UInt32
  mountPath : Str
  deriving DecidableEq, Repr

/-- The claims, the paths a devfs is mounted on, and the rulesets that hold rules. -/
structure DevfsState where
  claims : UInt32 → Option DevfsRulesetClaim := fun _ => none
  mounts : List Str := []
  filled : List UInt32 := []

namespace DevfsState

def devfsMountLive (s : DevfsState) (path : Str) : Bool := s.mounts.contains path

def devfsRulesetEmpty (s : DevfsState) (ruleset : UInt32) : Bool := !s.filled.contains ruleset

/-- The owner, and the state without a claim whose devfs is gone. -/
def devfsRulesetOwner (s : DevfsState) (ruleset : UInt32) : Owner × DevfsState :=
  match s.claims ruleset with
  | some c =>
      if s.devfsMountLive c.mountPath then ({ known := true, uid := c.uid }, s)
      else ({}, { s with claims := Function.update s.claims ruleset none })
  | none =>
      if s.devfsRulesetEmpty ruleset then ({}, s) else ({ known := true, uid := 0 }, s)

def claimDevfsRuleset (s : DevfsState) (ruleset uid : UInt32) (mountPath : Str)
    (force : Bool := false) : Bool × DevfsState :=
  let refused :=
    match s.claims ruleset with
    | some c => !force && c.uid != uid && s.devfsMountLive c.mountPath
    | none => false
  if refused then (false, s)
  else
    let claim : DevfsRulesetClaim := { uid := uid, mountPath := mountPath }
    (true, { s with claims := Function.update s.claims ruleset (some claim) })

/-- The probe is reached when the caller owns the path and the ruleset is a private one. -/
def gate (cfg : PerUserEnvPure.Config) (lookup : OwnerLookup) (s : DevfsState) (uid : UInt32)
    (m : FieldMap) : Decision × DevfsState :=
  let req := gateRequest .applyDevfsRules m
  let env := (PerUserEnvPure.composeForUid cfg uid).env
  let lookup := { lookup with byDevfsRuleset := some (fun r => (s.devfsRulesetOwner r).1) }
  let probed := checkOwnedPath req.path env lookup = .allow && isPrivateDevfsRuleset req.devfsRuleset
  (authorize .applyDevfsRules req env lookup,
    if probed then (s.devfsRulesetOwner req.devfsRuleset).2 else s)

/-- The handler runs when the request parses and validates; it leaves the ruleset filled. -/
def fill (s : DevfsState) (m : FieldMap) : DevfsState :=
  match parseAndValidate false .applyDevfsRules m with
  | .handle (.applyDevfsRules r) => { s with filled := r.ruleset :: s.filled }
  | _ => s

end DevfsState

/-! ## Requests in flight -/

inductive DevfsPhase where
  | gated (uid : UInt32) (m : FieldMap)
  | allowed (uid : UInt32) (m : FieldMap)
  deriving DecidableEq

/-- A caller was let through for a path on which a devfs has been mounted ever since. -/
structure Grant where
  uid : UInt32
  ruleset : UInt32
  mountPath : Str
  deriving DecidableEq, Repr

/-- The daemon and the requests by their number; `inUse` is a ghost. -/
structure DevfsWorld where
  state : DevfsState := {}
  requests : Nat → Option DevfsPhase := fun _ => none
  inUse : List Grant := []

inductive DevfsAction where
  | gate (id : Nat) (uid : UInt32) (m : FieldMap) (lookup : OwnerLookup)
  | claim (id : Nat)
  | fill (id : Nat)
  | root (m : FieldMap)
  | mount (path : Str)
  | unmount (path : Str)
  | refill (ruleset : UInt32) (rules : Bool)

namespace DevfsWorld

variable (cfg : PerUserEnvPure.Config)

def rulesetOf (m : FieldMap) : UInt32 := gateRuleset .applyDevfsRules m

def mountOf (m : FieldMap) : Str := field m "mount_path"

/-- The claim of a caller, and the grant it makes when its path is a live mount. -/
def record (w : DevfsWorld) (uid : UInt32) (m : FieldMap) (s : DevfsState) : DevfsWorld :=
  { w with
    state := s
    inUse := if s.devfsMountLive (mountOf m) then
        { uid := uid, ruleset := rulesetOf m, mountPath := mountOf m } :: w.inUse
      else w.inUse }

@[simp] theorem record_state (w : DevfsWorld) (uid : UInt32) (m : FieldMap) (s : DevfsState) :
    (w.record uid m s).state = s := rfl

def setRequest (w : DevfsWorld) (id : Nat) (phase : Option DevfsPhase) : DevfsWorld :=
  { w with requests := Function.update w.requests id phase }

def claimStep (w : DevfsWorld) (id : Nat) (uid : UInt32) (m : FieldMap) : DevfsWorld :=
  match w.state.claimDevfsRuleset (rulesetOf m) uid (mountOf m) with
  | (true, s) => setRequest (w.record uid m s) id (some (.allowed uid m))
  | (false, s) => setRequest { w with state := s } id none

/-- Root is not judged; `refill` stands for rules changed outside the daemon. -/
def step (w : DevfsWorld) : DevfsAction → DevfsWorld
  | .gate id uid m lookup =>
      if uid > 0 && (w.requests id).isNone then
        match DevfsState.gate cfg lookup w.state uid m with
        | (.allow, s) => setRequest { w with state := s } id (some (.gated uid m))
        | (_, s) => { w with state := s }
      else w
  | .claim id =>
      match w.requests id with
      | some (.gated uid m) => claimStep w id uid m
      | _ => w
  | .fill id =>
      match w.requests id with
      | some (.allowed _ m) => setRequest { w with state := w.state.fill m } id none
      | _ => w
  | .root m =>
      let s := (w.state.claimDevfsRuleset (rulesetOf m) 0 (mountOf m) true).2
      { w.record 0 m s with state := s.fill m }
  | .mount path => { w with state := { w.state with mounts := path :: w.state.mounts } }
  | .unmount path =>
      { w with
        state := { w.state with mounts := w.state.mounts.filter (· ≠ path) }
        inUse := w.inUse.filter (fun g => g.mountPath ≠ path) }
  | .refill ruleset rules =>
      let others := w.state.filled.filter (· ≠ ruleset)
      { w with state := { w.state with filled := if rules then ruleset :: others else others } }

/-- No request of another per-user caller for a ruleset in use is let through. -/
def OthersRefused (w : DevfsWorld) : Prop :=
  ∀ g ∈ w.inUse, ∀ id uid m, w.requests id = some (.gated uid m) → uid ≠ g.uid →
    rulesetOf m = g.ruleset →
    ¬∃ u m', (step cfg w (.claim id)).requests id = some (.allowed u m')

/-- A ruleset is not claimed for another path while the devfs it was granted for is mounted. -/
def KeepsMount (w : DevfsWorld) : DevfsAction → Prop
  | .claim id => ∀ uid m, w.requests id = some (.gated uid m) → ∀ g ∈ w.inUse,
      g.ruleset = rulesetOf m → g.uid = uid → g.mountPath = mountOf m
  | .root m => ∀ g ∈ w.inUse, g.ruleset = rulesetOf m → g.mountPath = mountOf m
  | _ => True

/-- A request whose gate and claim are not interrupted is judged as the dispatcher judges it. -/
theorem gateDecision_allow_iff (lookup : OwnerLookup) (s : DevfsState) (uid : UInt32)
    (m : FieldMap) :
    gateDecision
        { cfg := cfg
          lookup := { lookup with byDevfsRuleset := some (fun r => (s.devfsRulesetOwner r).1) }
          claimDevfsRuleset := fun r u p =>
            ((DevfsState.gate cfg lookup s uid m).2.claimDevfsRuleset r u p).1 }
        uid .applyDevfsRules m = .allow ↔
      (DevfsState.gate cfg lookup s uid m).1 = .allow ∧
        ((DevfsState.gate cfg lookup s uid m).2.claimDevfsRuleset (rulesetOf m) uid
          (mountOf m)).1 = true := by
  have hdec : authorize .applyDevfsRules (gateRequest .applyDevfsRules m)
      (PerUserEnvPure.composeForUid cfg uid).env
      { lookup with byDevfsRuleset := some (fun r => (s.devfsRulesetOwner r).1) } =
        (DevfsState.gate cfg lookup s uid m).1 := rfl
  simp only [gateDecision, hdec]
  split
  · rename_i hlost
    simp only [Bool.not_eq_eq_eq_not, Bool.not_true] at hlost
    constructor
    · intro hallow
      contradiction
    · rintro ⟨-, hclaim⟩
      exact absurd hclaim (by rw [rulesetOf, mountOf, hlost.2.2]; decide)
  · rename_i hkept
    constructor
    · intro hallow
      refine ⟨hallow, ?_⟩
      by_contra hclaim
      rw [Bool.not_eq_true] at hclaim
      exact hkept ⟨hallow, trivial, congrArg (!·) hclaim⟩
    · exact And.left

/-! ## The invariant -/

/-- A ruleset in use is claimed for the mount it was granted for, by the same caller or by root. -/
structure ClaimHolds (w : DevfsWorld) : Prop where
  claimed : ∀ g ∈ w.inUse, ∃ c, w.state.claims g.ruleset = some c ∧ c.mountPath = g.mountPath ∧
    (c.uid = g.uid ∨ c.uid = 0)
  live : ∀ g ∈ w.inUse, w.state.devfsMountLive g.mountPath = true
  perUser : ∀ id uid m, w.requests id = some (.gated uid m) → uid ≠ 0

theorem claimHolds_start : ClaimHolds {} :=
  ⟨by simp, by simp, by simp⟩

theorem ClaimHolds.refused {w : DevfsWorld} (h : ClaimHolds w) {g : Grant} (hg : g ∈ w.inUse)
    {uid : UInt32} (hpos : uid ≠ 0) (hne : uid ≠ g.uid) (path : Str) :
    w.state.claimDevfsRuleset g.ruleset uid path = (false, w.state) := by
  obtain ⟨c, hclaim, hpath, huid⟩ := h.claimed g hg
  have hlive := h.live g hg
  have hother : (c.uid != uid) = true := by
    rw [bne_iff_ne]
    rcases huid with heq | heq
    · rw [heq]
      exact Ne.symm hne
    · rw [heq]
      exact Ne.symm hpos
  simp only [DevfsState.claimDevfsRuleset, hclaim, hpath, hlive, hother, Bool.not_false,
    Bool.and_self, if_true]

theorem ClaimHolds.othersRefused {w : DevfsWorld} (h : ClaimHolds w) : OthersRefused cfg w := by
  rintro g hg id uid m hreq hne hruleset ⟨u, m', hallowed⟩
  have hrefused := h.refused hg (h.perUser id uid m hreq) hne (mountOf m)
  simp only [step, hreq, claimStep, hruleset, hrefused, setRequest, Function.update_self] at hallowed
  contradiction

/-! ## One step -/

structure Keeps (w w' : DevfsWorld) : Prop where
  inUse : w'.inUse = w.inUse
  claims : ∀ g ∈ w.inUse, w'.state.claims g.ruleset = w.state.claims g.ruleset
  mounts : ∀ g ∈ w.inUse, w'.state.devfsMountLive g.mountPath = w.state.devfsMountLive g.mountPath
  perUser : ∀ id uid m, w'.requests id = some (.gated uid m) → uid ≠ 0

theorem ClaimHolds.of_keeps {w w' : DevfsWorld} (h : ClaimHolds w) (hk : Keeps w w') :
    ClaimHolds w' := by
  refine ⟨fun g hg => ?_, fun g hg => ?_, hk.perUser⟩
  · rw [hk.inUse] at hg
    rw [hk.claims g hg]
    exact h.claimed g hg
  · rw [hk.inUse] at hg
    rw [hk.mounts g hg]
    exact h.live g hg

theorem perUser_setRequest {w : DevfsWorld} {id : Nat} {phase : Option DevfsPhase}
    (h : ∀ id uid m, w.requests id = some (.gated uid m) → uid ≠ 0)
    (hphase : ∀ uid m, phase = some (.gated uid m) → uid ≠ 0) :
    ∀ j uid m, (setRequest w id phase).requests j = some (.gated uid m) → uid ≠ 0 := by
  intro j uid m hj
  by_cases heq : j = id
  · subst heq
    simp only [setRequest, Function.update_self] at hj
    exact hphase uid m hj
  · simp only [setRequest, Function.update_of_ne heq] at hj
    exact h j uid m hj

theorem claims_devfsRulesetOwner {w : DevfsWorld} (h : ClaimHolds w) {g : Grant} (hg : g ∈ w.inUse)
    (ruleset : UInt32) :
    (w.state.devfsRulesetOwner ruleset).2.claims g.ruleset = w.state.claims g.ruleset := by
  unfold DevfsState.devfsRulesetOwner
  split
  · rename_i c hclaim
    split
    · rfl
    · rename_i hgone
      have hne : g.ruleset ≠ ruleset := by
        rintro rfl
        obtain ⟨c', hclaim', hpath, -⟩ := h.claimed g hg
        rw [hclaim] at hclaim'
        cases hclaim'
        rw [hpath, h.live g hg] at hgone
        contradiction
      exact Function.update_of_ne hne _ _
  · split <;> rfl

theorem mounts_devfsRulesetOwner (s : DevfsState) (ruleset : UInt32) :
    (s.devfsRulesetOwner ruleset).2.mounts = s.mounts := by
  unfold DevfsState.devfsRulesetOwner
  split
  · split <;> rfl
  · split <;> rfl

theorem gate_state (lookup : OwnerLookup) (s : DevfsState) (uid : UInt32) (m : FieldMap) :
    (DevfsState.gate cfg lookup s uid m).2 = s ∨
      (DevfsState.gate cfg lookup s uid m).2 = (s.devfsRulesetOwner (rulesetOf m)).2 := by
  simp only [DevfsState.gate]
  split
  · exact .inr (by rw [gateRequest_devfsRuleset]; rfl)
  · exact .inl rfl

theorem ClaimHolds.gate {w : DevfsWorld} (h : ClaimHolds w) (id : Nat) (uid : UInt32) (m : FieldMap)
    (lookup : OwnerLookup) : ClaimHolds (step cfg w (.gate id uid m lookup)) := by
  have hclaims : ∀ g ∈ w.inUse,
      (DevfsState.gate cfg lookup w.state uid m).2.claims g.ruleset = w.state.claims g.ruleset := by
    intro g hg
    rcases gate_state cfg lookup w.state uid m with heq | heq
    · rw [heq]
    · rw [heq]
      exact claims_devfsRulesetOwner h hg _
  have hmounts : (DevfsState.gate cfg lookup w.state uid m).2.mounts = w.state.mounts := by
    rcases gate_state cfg lookup w.state uid m with heq | heq
    · rw [heq]
    · rw [heq]
      exact mounts_devfsRulesetOwner _ _
  have hlive : ∀ g ∈ w.inUse,
      (DevfsState.gate cfg lookup w.state uid m).2.devfsMountLive g.mountPath =
        w.state.devfsMountLive g.mountPath := by
    intro g _
    rw [DevfsState.devfsMountLive, hmounts, DevfsState.devfsMountLive]
  simp only [step]
  split
  · rename_i hjudged
    have hpos : uid ≠ 0 := by
      rintro rfl
      simp at hjudged
    split
    · rename_i s heq
      rw [heq] at hclaims hlive
      refine h.of_keeps ⟨rfl, hclaims, hlive, perUser_setRequest h.perUser ?_⟩
      intro uid' m' hphase
      cases hphase
      exact hpos
    · rename_i s _ heq
      rw [heq] at hclaims hlive
      exact h.of_keeps ⟨rfl, hclaims, hlive, h.perUser⟩
  · exact h

def withClaim (s : DevfsState) (uid : UInt32) (m : FieldMap) : DevfsState :=
  let claim : DevfsRulesetClaim := { uid := uid, mountPath := mountOf m }
  { s with claims := Function.update s.claims (rulesetOf m) (some claim) }

theorem claimDevfsRuleset_cases (s : DevfsState) (uid : UInt32) (m : FieldMap) (force : Bool) :
    s.claimDevfsRuleset (rulesetOf m) uid (mountOf m) force = (true, withClaim s uid m) ∨
      (force = false ∧ s.claimDevfsRuleset (rulesetOf m) uid (mountOf m) force = (false, s)) := by
  cases force with
  | true =>
      left
      cases hclaim : s.claims (rulesetOf m) <;>
        simp [DevfsState.claimDevfsRuleset, hclaim, withClaim]
  | false =>
      simp only [DevfsState.claimDevfsRuleset, withClaim, true_and]
      generalize (match s.claims (rulesetOf m) with
        | some c => !false && c.uid != uid && s.devfsMountLive c.mountPath
        | none => false) = refused
      cases refused
      · exact .inl rfl
      · exact .inr rfl

/-- A claim for the mount that is in use, by the same caller or by root, keeps the invariant. -/
theorem ClaimHolds.record {w : DevfsWorld} (h : ClaimHolds w) {uid : UInt32} {m : FieldMap}
    (hsame : ∀ g ∈ w.inUse, g.ruleset = rulesetOf m →
      g.mountPath = mountOf m ∧ (uid = g.uid ∨ uid = 0)) :
    ClaimHolds (w.record uid m (withClaim w.state uid m)) := by
  have hold : ∀ g ∈ w.inUse, ∃ c, (withClaim w.state uid m).claims g.ruleset = some c ∧
      c.mountPath = g.mountPath ∧ (c.uid = g.uid ∨ c.uid = 0) := by
    intro g hg
    by_cases hr : g.ruleset = rulesetOf m
    · obtain ⟨hpath, huid⟩ := hsame g hg hr
      refine ⟨⟨uid, mountOf m⟩, ?_, hpath.symm, huid⟩
      simp [withClaim, hr]
    · simp only [withClaim, Function.update_of_ne hr]
      exact h.claimed g hg
  have hnew : ∃ c, (withClaim w.state uid m).claims (rulesetOf m) = some c ∧
      c.mountPath = mountOf m ∧ (c.uid = uid ∨ c.uid = 0) :=
    ⟨⟨uid, mountOf m⟩, by simp [withClaim], rfl, .inl rfl⟩
  by_cases hlive : (withClaim w.state uid m).devfsMountLive (mountOf m) = true
  · simp only [DevfsWorld.record, hlive, if_true]
    refine ⟨fun g hg => ?_, fun g hg => ?_, h.perUser⟩
    · rcases List.mem_cons.mp hg with rfl | hg
      · exact hnew
      · exact hold g hg
    · rcases List.mem_cons.mp hg with rfl | hg
      · exact hlive
      · exact h.live g hg
  · simp only [DevfsWorld.record, hlive, Bool.false_eq_true, if_false]
    exact ⟨hold, h.live, h.perUser⟩

theorem ClaimHolds.claimStep {w : DevfsWorld} (h : ClaimHolds w) {id : Nat} {uid : UInt32}
    {m : FieldMap} (hreq : w.requests id = some (.gated uid m))
    (hcond : KeepsMount w (.claim id)) : ClaimHolds (claimStep w id uid m) := by
  have hnone : ∀ uid' m', (none : Option DevfsPhase) = some (.gated uid' m') → uid' ≠ 0 := by
    simp
  have hallowed : ∀ uid' m', some (DevfsPhase.allowed uid m) = some (.gated uid' m') → uid' ≠ 0 := by
    simp
  rcases claimDevfsRuleset_cases w.state uid m false with hclaim | ⟨-, hclaim⟩
  · have hsame : ∀ g ∈ w.inUse, g.ruleset = rulesetOf m →
        g.mountPath = mountOf m ∧ (uid = g.uid ∨ uid = 0) := by
      intro g hg hr
      by_cases huid : g.uid = uid
      · exact ⟨hcond uid m hreq g hg hr huid, .inl huid.symm⟩
      · -- somebody else's ruleset: the claim would have been refused
        have hrefused := h.refused hg (h.perUser id uid m hreq) (Ne.symm huid) (mountOf m)
        rw [hr, hclaim] at hrefused
        cases hrefused
    simp only [DevfsWorld.claimStep, hclaim]
    have hrecord := h.record hsame
    exact ⟨hrecord.claimed, hrecord.live, perUser_setRequest hrecord.perUser hallowed⟩
  · simp only [DevfsWorld.claimStep, hclaim]
    exact ⟨h.claimed, h.live, perUser_setRequest h.perUser hnone⟩

@[simp] theorem claims_fill (s : DevfsState) (m : FieldMap) : (s.fill m).claims = s.claims := by
  unfold DevfsState.fill
  split <;> rfl

@[simp] theorem mounts_fill (s : DevfsState) (m : FieldMap) : (s.fill m).mounts = s.mounts := by
  unfold DevfsState.fill
  split <;> rfl

theorem ClaimHolds.step {w : DevfsWorld} (h : ClaimHolds w) {a : DevfsAction}
    (hcond : KeepsMount w a) : ClaimHolds (step cfg w a) := by
  cases a with
  | gate id uid m lookup => exact h.gate cfg id uid m lookup
  | claim id =>
      simp only [DevfsWorld.step]
      split
      · rename_i uid m hreq
        exact h.claimStep hreq hcond
      · exact h
  | fill id =>
      simp only [DevfsWorld.step]
      split
      · rename_i uid m hreq
        refine h.of_keeps ⟨rfl, ?_, ?_, perUser_setRequest h.perUser (by simp)⟩
        · intro g _
          simp [setRequest]
        · intro g _
          simp [setRequest, DevfsState.devfsMountLive]
      · exact h
  | root m =>
      have hclaim : w.state.claimDevfsRuleset (rulesetOf m) 0 (mountOf m) true =
          (true, withClaim w.state 0 m) := by
        rcases claimDevfsRuleset_cases w.state 0 m true with hclaim | ⟨hforce, -⟩
        · exact hclaim
        · contradiction
      have hrecord : ClaimHolds (w.record 0 m (withClaim w.state 0 m)) :=
        h.record (fun g hg hr => ⟨hcond g hg hr, .inr rfl⟩)
      simp only [DevfsWorld.step, hclaim]
      exact ⟨fun g hg => by simpa using hrecord.claimed g hg,
        fun g hg => by simpa [DevfsState.devfsMountLive] using hrecord.live g hg, hrecord.perUser⟩
  | mount path =>
      refine ⟨h.claimed, fun g hg => ?_, h.perUser⟩
      have hlive := h.live g hg
      simp only [DevfsState.devfsMountLive, List.contains_iff_mem] at hlive
      simp [DevfsWorld.step, DevfsState.devfsMountLive, hlive]
  | unmount path =>
      refine ⟨fun g hg => ?_, fun g hg => ?_, h.perUser⟩
      · exact h.claimed g (List.mem_filter.mp hg).1
      · obtain ⟨hin, hne⟩ := List.mem_filter.mp hg
        have hlive := h.live g hin
        simp only [DevfsState.devfsMountLive, List.contains_iff_mem] at hlive
        simp only [decide_eq_true_eq] at hne
        simp [DevfsWorld.step, DevfsState.devfsMountLive, hlive, hne]
  | refill ruleset rules => exact ⟨h.claimed, h.live, h.perUser⟩

/-! ## Whole runs -/

/--
In every run in which no ruleset is claimed for another path while the devfs it
was granted for is mounted, nobody else is let through for a ruleset in use, in
every state of the run.
-/
theorem ruleset_in_use_refused_to_others {actions : List DevfsAction}
    (hmeet : StepsMeet (step cfg) KeepsMount {} actions) :
    ∀ before, before <+: actions → OthersRefused cfg (run (step cfg) {} before) := by
  intro before hbefore
  have hstep : ∀ w a, ClaimHolds w → KeepsMount w a → ClaimHolds (step cfg w a) :=
    fun _ _ h hcond => h.step cfg hcond
  exact (forall_prefix_good hstep claimHolds_start hmeet hbefore).othersRefused cfg

/-! ## The condition is exact -/

/--
Where the owner's claim for another path goes through, its devfs only has to go
for the ruleset to be free for everybody, while the first mount is in use.
-/
theorem claim_for_other_path_frees_ruleset {w : DevfsWorld} {id : Nat} {uid : UInt32} {m : FieldMap}
    (hreq : w.requests id = some (.gated uid m)) {g : Grant} (hg : g ∈ w.inUse)
    (hruleset : g.ruleset = rulesetOf m) (hpath : g.mountPath ≠ mountOf m)
    (hgranted : (w.state.claimDevfsRuleset (rulesetOf m) uid (mountOf m)).1 = true) :
    ∃ w', w' = run (step cfg) w [.claim id, .unmount (mountOf m)] ∧ g ∈ w'.inUse ∧
      ∀ other path, (w'.state.claimDevfsRuleset g.ruleset other path).1 = true := by
  have hclaim : w.state.claimDevfsRuleset (rulesetOf m) uid (mountOf m) =
      (true, withClaim w.state uid m) := by
    rcases claimDevfsRuleset_cases w.state uid m false with hclaim | ⟨-, hclaim⟩
    · exact hclaim
    · rw [hclaim] at hgranted
      contradiction
  have hstep : step cfg w (.claim id) =
      setRequest (w.record uid m (withClaim w.state uid m)) id (some (.allowed uid m)) := by
    simp only [step, hreq, claimStep, hclaim]
  have hrun : run (step cfg) w [.claim id, .unmount (mountOf m)] =
      step cfg (setRequest (w.record uid m (withClaim w.state uid m)) id (some (.allowed uid m)))
        (.unmount (mountOf m)) := by
    rw [← hstep]
    rfl
  refine ⟨_, hrun.symm, ?_, ?_⟩
  · have hkept : g ∈ (w.record uid m (withClaim w.state uid m)).inUse := by
      unfold record
      split
      · exact List.mem_cons_of_mem _ hg
      · exact hg
    exact List.mem_filter.mpr ⟨hkept, by simpa using hpath⟩
  · intro other path
    simp only [step, setRequest, record_state, DevfsState.claimDevfsRuleset, withClaim, hruleset,
      Function.update_self]
    simp [DevfsState.devfsMountLive]

/-! ## Two runs -/

def devfsRequest (mountPath : Str) : FieldMap :=
  .ofList [(("mount_path" : Str), mountPath), (("ruleset" : Str), ("20000" : Str)),
    (("argc" : Str), ("1" : Str)), (("rule0" : Str), ("path zero unhide" : Str))]

def jailsConfig : PerUserEnvPure.Config := { pathMasterPrefix := "/jails" }

/-- Both callers pass the gate for a free ruleset; the first to claim it gets it. -/
theorem ruleset_in_use_refused_after_race :
    let actions : List DevfsAction :=
      [.mount "/jails/1001/a/dev", .gate 0 1001 (devfsRequest "/jails/1001/a/dev") nullLookup,
        .gate 1 1002 (devfsRequest "/jails/1002/c/dev") nullLookup, .claim 0]
    (run (step jailsConfig) {} actions).requests 1 =
        some (.gated 1002 (devfsRequest "/jails/1002/c/dev")) ∧
      OthersRefused jailsConfig (run (step jailsConfig) {} actions) := by
  intro actions
  have hgate : (run (step jailsConfig) {} actions).requests 1 =
      some (.gated 1002 (devfsRequest "/jails/1002/c/dev")) := by
    decide
  have hnone : (run (step jailsConfig) {} (actions.take 3)).inUse = [] := by
    decide
  have hmeet : StepsMeet (step jailsConfig) KeepsMount {} actions := by
    refine ⟨trivial, trivial, trivial, ?_, trivial⟩
    intro uid m _ g hg
    change g ∈ (run (step jailsConfig) {} (actions.take 3)).inUse at hg
    rw [hnone] at hg
    contradiction
  exact ⟨hgate, ruleset_in_use_refused_to_others jailsConfig hmeet actions List.prefix_rfl⟩

theorem step_gate {lookup : OwnerLookup} {w : DevfsWorld} {id : Nat} {uid : UInt32} {m : FieldMap}
    (huid : uid > 0) (hfree : w.requests id = none)
    (hallow : (DevfsState.gate cfg lookup w.state uid m).1 = .allow) :
    step cfg w (.gate id uid m lookup) =
      setRequest { w with state := (DevfsState.gate cfg lookup w.state uid m).2 } id
        (some (.gated uid m)) := by
  generalize hgate : DevfsState.gate cfg lookup w.state uid m = judged at hallow ⊢
  obtain ⟨d, s⟩ := judged
  obtain rfl : d = .allow := hallow
  simp [step, huid, hfree, hgate]

theorem gate_fst_eq (lookup : OwnerLookup) (s : DevfsState) (uid : UInt32) (m : FieldMap) :
    (DevfsState.gate cfg lookup s uid m).1 =
      authorize .applyDevfsRules (gateRequest .applyDevfsRules m)
        (PerUserEnvPure.composeForUid cfg uid).env
        { lookup with byDevfsRuleset := some fun _ => (s.devfsRulesetOwner (rulesetOf m)).1 } :=
  rfl

section Claimed

variable {cfg} {lookup : OwnerLookup} {w : DevfsWorld} {id : Nat} {uid : UInt32} {m : FieldMap}
variable {c : DevfsRulesetClaim}

/-- The owner of a ruleset in use is let through, and the probe changes nothing. -/
theorem step_gate_of_live (hc : w.state.claims (rulesetOf m) = some c)
    (hlive : w.state.devfsMountLive c.mountPath = true) (huid : uid > 0)
    (hfree : w.requests id = none)
    (hallow : authorize .applyDevfsRules (gateRequest .applyDevfsRules m)
      (PerUserEnvPure.composeForUid cfg uid).env
      { lookup with byDevfsRuleset := some fun _ => { known := true, uid := c.uid } } = .allow) :
    step cfg w (.gate id uid m lookup) = setRequest w id (some (.gated uid m)) := by
  have howner : w.state.devfsRulesetOwner (rulesetOf m) =
      ({ known := true, uid := c.uid }, w.state) := by
    simp [DevfsState.devfsRulesetOwner, hc, hlive]
  have hsame : (DevfsState.gate cfg lookup w.state uid m).2 = w.state := by
    rcases gate_state cfg lookup w.state uid m with hsame | hsame
    · exact hsame
    · rw [hsame, howner]
  rw [step_gate cfg huid hfree (by rw [gate_fst_eq, howner]; exact hallow), hsame]

/-- Where the devfs of a claim is gone, the gate lets any caller through, and so does its claim. -/
theorem taken_of_lost_mount (hc : w.state.claims (rulesetOf m) = some c)
    (hlost : w.state.devfsMountLive c.mountPath = false) (huid : uid > 0)
    (hfree : w.requests id = none)
    (hallow : authorize .applyDevfsRules (gateRequest .applyDevfsRules m)
      (PerUserEnvPure.composeForUid cfg uid).env
      { lookup with byDevfsRuleset := some fun _ => {} } = .allow) :
    (step cfg w (.gate id uid m lookup)).inUse = w.inUse ∧
      (step cfg w (.gate id uid m lookup)).requests id = some (.gated uid m) ∧
      (step cfg (step cfg w (.gate id uid m lookup)) (.claim id)).requests id =
        some (.allowed uid m) := by
  have howner : w.state.devfsRulesetOwner (rulesetOf m) =
      ({}, { w.state with claims := Function.update w.state.claims (rulesetOf m) none }) := by
    simp [DevfsState.devfsRulesetOwner, hc, hlost]
  have hgranted : ((DevfsState.gate cfg lookup w.state uid m).2.claimDevfsRuleset
      (rulesetOf m) uid (mountOf m)).1 = true := by
    rcases gate_state cfg lookup w.state uid m with hsame | hsame
    · rw [hsame]
      simp [DevfsState.claimDevfsRuleset, hc, hlost]
    · rw [hsame, howner]
      simp [DevfsState.claimDevfsRuleset]
  rw [step_gate cfg huid hfree (by rw [gate_fst_eq, howner]; exact hallow)]
  refine ⟨rfl, by simp [setRequest], ?_⟩
  rcases claimDevfsRuleset_cases (DevfsState.gate cfg lookup w.state uid m).2 uid m false with
    hclaim | ⟨-, hclaim⟩
  · simp [step, setRequest, claimStep, hclaim]
  · rw [hclaim] at hgranted
    contradiction

/--
The owner of a ruleset in use asks for it again with a path without a devfs, and
the next caller takes it over.
-/
theorem handed_over {first second third : FieldMap} {other : UInt32} {g : Grant}
    (hg : g ∈ w.inUse) (hguid : g.uid ≠ other) (hgruleset : rulesetOf third = g.ruleset)
    (hsecond : rulesetOf second = rulesetOf third)
    (hfirst : w.requests 0 = some (.allowed uid first))
    (hfree : w.requests 1 = none) (hfree' : w.requests 2 = none)
    (hc : w.state.claims (rulesetOf third) = some c) (hcuid : c.uid = uid)
    (hlive : w.state.devfsMountLive c.mountPath = true)
    (hlost : w.state.devfsMountLive (mountOf second) = false) (huid : uid > 0) (hother : other > 0)
    (hallow : authorize .applyDevfsRules (gateRequest .applyDevfsRules second)
      (PerUserEnvPure.composeForUid cfg uid).env
      { lookup with byDevfsRuleset := some fun _ => { known := true, uid := uid } } = .allow)
    (hallow' : authorize .applyDevfsRules (gateRequest .applyDevfsRules third)
      (PerUserEnvPure.composeForUid cfg other).env
      { lookup with byDevfsRuleset := some fun _ => {} } = .allow) :
    ¬OthersRefused cfg (run (step cfg) w
      [.fill 0, .gate 1 uid second lookup, .claim 1, .gate 2 other third lookup]) := by
  subst hcuid
  let filled := setRequest { w with state := w.state.fill first } 0 none
  have hfill : step cfg w (.fill 0) = filled := by simp only [step, hfirst, filled]
  have hclaims : filled.state.claims (rulesetOf second) = some c :=
    (congrFun (claims_fill w.state first) _).trans (hsecond ▸ hc)
  have hmounts : ∀ path, filled.state.devfsMountLive path = w.state.devfsMountLive path :=
    fun path => congrArg (fun l => l.contains path) (mounts_fill w.state first)
  -- the owner passes the gate for the second path
  have hasked : step cfg filled (.gate 1 c.uid second lookup) =
      setRequest filled 1 (some (.gated c.uid second)) :=
    step_gate_of_live hclaims ((hmounts _).trans hlive) huid
      (by simpa [filled, setRequest] using hfree) hallow
  -- and its claim replaces the first one
  let claimed := setRequest
    ((setRequest filled 1 (some (.gated c.uid second))).record c.uid second
      (withClaim filled.state c.uid second)) 1 (some (.allowed c.uid second))
  have hclaimed : step cfg (setRequest filled 1 (some (.gated c.uid second))) (.claim 1) =
      claimed := by
    have hgranted : (filled.state.claimDevfsRuleset (rulesetOf second) c.uid
        (mountOf second)).1 = true := by simp [DevfsState.claimDevfsRuleset, hclaims]
    rcases claimDevfsRuleset_cases filled.state c.uid second false with hclaim | ⟨-, hclaim⟩
    · have hstate : (setRequest filled 1 (some (.gated c.uid second))).state = filled.state := rfl
      have hreq : (setRequest filled 1 (some (.gated c.uid second))).requests 1 =
          some (.gated c.uid second) := by simp [setRequest]
      simp only [step, hreq, claimStep, hstate, hclaim, claimed]
    · rw [hclaim] at hgranted
      contradiction
  have hkept : g ∈ claimed.inUse := by
    change g ∈ (record _ _ _ _).inUse
    unfold record
    split
    · exact List.mem_cons_of_mem _ hg
    · exact hg
  have hstale : claimed.state.claims (rulesetOf third) =
      some { uid := c.uid, mountPath := mountOf second } := by
    rw [← hsecond]
    exact Function.update_self ..
  have hunasked : claimed.requests 2 = none := by
    simpa [claimed, filled, setRequest, record] using hfree'
  obtain ⟨hsame, hgated, htaken⟩ := taken_of_lost_mount hstale ((hmounts _).trans hlost) hother
    hunasked hallow'
  have hrun : run (step cfg) w
      [.fill 0, .gate 1 c.uid second lookup, .claim 1, .gate 2 other third lookup] =
        step cfg claimed (.gate 2 other third lookup) := by
    rw [← hclaimed, ← hasked, ← hfill]
    rfl
  rw [hrun]
  intro hrefused
  exact hrefused g (hsame ▸ hkept) 2 other third hgated hguid.symm hgruleset ⟨_, _, htaken⟩

end Claimed

/-- The owner has claimed the ruleset. -/
def claimedFirst : List DevfsAction :=
  [.mount "/jails/1001/a/dev", .gate 0 1001 (devfsRequest "/jails/1001/a/dev") nullLookup,
    .claim 0]

set_option maxRecDepth 4000 in
theorem claimedFirst_spec :
    (run (step jailsConfig) {} claimedFirst).inUse = [⟨1001, 20000, "/jails/1001/a/dev"⟩] ∧
      (run (step jailsConfig) {} claimedFirst).requests 0 =
        some (.allowed 1001 (devfsRequest "/jails/1001/a/dev")) ∧
      (run (step jailsConfig) {} claimedFirst).requests 1 = none ∧
      (run (step jailsConfig) {} claimedFirst).requests 2 = none ∧
      (run (step jailsConfig) {} claimedFirst).state.claims 20000 =
        some ⟨1001, "/jails/1001/a/dev"⟩ ∧
      (run (step jailsConfig) {} claimedFirst).state.mounts = ["/jails/1001/a/dev"] := by
  refine ⟨?_, ?_, ?_, ?_, ?_, ?_⟩
  · decide
  · decide
  · decide
  · decide
  · decide
  · decide

/-- The owner asks for the same ruleset and a path without a devfs, and the claim on it is lost. -/
theorem ruleset_in_use_handed_over :
    ¬ ∀ (cfg : PerUserEnvPure.Config) (actions : List DevfsAction),
      OthersRefused cfg (run (step cfg) {} actions) := by
  intro h
  let asked : List DevfsAction :=
    [.fill 0, .gate 1 1001 (devfsRequest "/jails/1001/b/dev") nullLookup, .claim 1,
      .gate 2 1002 (devfsRequest "/jails/1002/c/dev") nullLookup]
  have hrefused := h jailsConfig (claimedFirst ++ asked)
  rw [run, List.foldl_append] at hrefused
  obtain ⟨hinUse, hfirst, hfree, hfree', hclaim, hmounts⟩ := claimedFirst_spec
  have hruleset : rulesetOf (devfsRequest "/jails/1002/c/dev") = 20000 := by decide
  refine handed_over (hinUse ▸ List.mem_cons_self) (by decide) (by decide) (by decide) hfirst hfree
    hfree' (by rw [hruleset]; exact hclaim) rfl ?_ ?_ (by decide) (by decide) (by decide)
    (by decide) hrefused
  · rw [DevfsState.devfsMountLive, hmounts]
    decide
  · rw [DevfsState.devfsMountLive, hmounts]
    decide

end DevfsWorld

end Crate.Crated
