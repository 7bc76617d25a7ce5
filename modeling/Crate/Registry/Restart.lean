import Crate.Foundation.Run
import Crate.Registry.TextForm

/-!
# The registry across a restart

The daemon's own bookkeeping as a machine: an accepted `create_jail` is
recorded under the jid the kernel assigned, `destroy_jail` forgets an entry,
and a reconciliation drops the entries a probe rejects.  A registry survives a
restart when the constructor reads the file back as the same registry.
-/

namespace Crate.JidOwnerRegistry

open Crate.Foundation
open Crate.PrivOpsPure
open Crate.JidOwnerRegistryPure (Entry EntryMap LiveProbe Plain Fits parse serialize)

/-- A request the validator accepted, with the jid the kernel gave its jail. -/
structure AcceptedCreate where
  jid : Nat
  uid : UInt32
  req : CreateJailReq
  jid_pos : 1 ≤ jid
  jid_max : jid ≤ 999999
  accepted : validateCreateJail req = .ok ()

inductive Update where
  | create (c : AcceptedCreate)
  | destroy (preDestroyJid : Nat) (name : Str)
  | reconcile (probe : Option LiveProbe)

/-- The `destroy_jail` arm of `maybeUpdateJidOwnerRegistry`. -/
def forgetDestroyed (r : JidOwnerRegistry) (preDestroyJid : Nat) (name : Str) :
    JidOwnerRegistry :=
  if preDestroyJid = 0 then (r.forgetByName name).2
  else
    match r.forgetByJid preDestroyJid with
    | (true, r') => r'
    | (false, r') => (r'.forgetByName name).2

def update (r : JidOwnerRegistry) : Update → JidOwnerRegistry
  | .create c => r.recordCreate c.jid c.uid c.req.name c.req.path
  | .destroy preDestroyJid name => r.forgetDestroyed preDestroyJid name
  | .reconcile probe => (r.reconcile probe).2

/-- The file is read back as the same entries, and the constructor rebuilds the registry. -/
def SurvivesRestart (r : JidOwnerRegistry) : Prop :=
  parse (serialize r.entries) = .ok r.entries ∧ load r.file = .ok r

/-! ## Invariants of the bookkeeping -/

/-- The file holds the entries; before the first write there are none. -/
def Synced (r : JidOwnerRegistry) : Prop :=
  r.file = some (serialize r.entries) ∨ r = {}

def Recorded (r : JidOwnerRegistry) : Prop :=
  ∀ kv ∈ r.entries.entries, Plain kv.2 ∧ 1 ≤ kv.1 ∧ kv.1 < 2 ^ 64

def AllFit (r : JidOwnerRegistry) : Prop := ∀ kv ∈ r.entries.entries, Fits kv.1 kv.2

theorem synced_persist (entries : EntryMap) : Synced (persist entries) := .inl rfl

theorem Synced.survives_iff {r : JidOwnerRegistry} (h : Synced r) :
    SurvivesRestart r ↔ parse (serialize r.entries) = .ok r.entries := by
  rcases h with hfile | rfl
  · constructor
    · exact And.left
    · intro hparse
      refine ⟨hparse, ?_⟩
      have hload : load r.file = (parse (serialize r.entries)).map
          (fun entries => ⟨entries, some (serialize r.entries)⟩) := by
        rw [hfile]
        rfl
      rw [hload, hparse, ← hfile]
      rfl
  · exact ⟨And.left, fun hparse => ⟨hparse, rfl⟩⟩

structure Bookkept (r : JidOwnerRegistry) : Prop where
  synced : Synced r
  recorded : Recorded r

theorem Bookkept.survives_iff {r : JidOwnerRegistry} (h : Bookkept r) :
    SurvivesRestart r ↔ AllFit r := by
  rw [h.synced.survives_iff]
  exact JidOwnerRegistryPure.parse_serialize_iff h.recorded

theorem Shrinks.subset {r r' : JidOwnerRegistry} (h : Shrinks r r') {kv : Nat × Entry}
    (hkv : kv ∈ r'.entries.entries) : kv ∈ r.entries.entries :=
  OrdMap.find?_eq_some_iff.mp (h _ _ (OrdMap.find?_eq_some_iff.mpr hkv))

theorem Shrinks.trans {r₁ r₂ r₃ : JidOwnerRegistry} (h₁ : Shrinks r₁ r₂) (h₂ : Shrinks r₂ r₃) :
    Shrinks r₁ r₃ := fun jid e h => h₁ jid e (h₂ jid e h)

theorem Synced.forgetByJid {r : JidOwnerRegistry} (h : Synced r) (jid : Nat) :
    Synced (r.forgetByJid jid).2 := by
  unfold JidOwnerRegistry.forgetByJid
  split
  · exact h
  · exact synced_persist _

theorem Synced.forgetByName {r : JidOwnerRegistry} (h : Synced r) (name : Str) :
    Synced (r.forgetByName name).2 := by
  unfold JidOwnerRegistry.forgetByName
  split
  · exact h
  · exact synced_persist _

theorem Synced.reconcile {r : JidOwnerRegistry} (h : Synced r) (probe : Option LiveProbe) :
    Synced (r.reconcile probe).2 := by
  unfold JidOwnerRegistry.reconcile
  split
  · exact h
  · exact synced_persist _

theorem forgetDestroyed_shrinks {r : JidOwnerRegistry} (preDestroyJid : Nat) (name : Str) :
    Shrinks r (r.forgetDestroyed preDestroyJid name) := by
  unfold forgetDestroyed
  have hjid : Shrinks r (r.forgetByJid preDestroyJid).2 := forgetByJid_shrinks
  split
  · exact forgetByName_shrinks name
  · split
    · rename_i hforget
      rw [hforget] at hjid
      exact hjid
    · rename_i hforget
      rw [hforget] at hjid
      exact hjid.trans (forgetByName_shrinks name)

theorem Synced.forgetDestroyed {r : JidOwnerRegistry} (h : Synced r) (preDestroyJid : Nat)
    (name : Str) : Synced (r.forgetDestroyed preDestroyJid name) := by
  unfold JidOwnerRegistry.forgetDestroyed
  have hjid := h.forgetByJid preDestroyJid
  split
  · exact h.forgetByName name
  · split
    · rename_i hforget
      rw [hforget] at hjid
      exact hjid
    · rename_i hforget
      rw [hforget] at hjid
      exact hjid.forgetByName name

theorem Bookkept.of_shrinks {r r' : JidOwnerRegistry} (h : Bookkept r) (hsync : Synced r')
    (hshrink : Shrinks r r') : Bookkept r' :=
  ⟨hsync, fun kv hkv => h.recorded kv (hshrink.subset hkv)⟩

theorem AllFit.of_shrinks {r r' : JidOwnerRegistry} (h : AllFit r) (hshrink : Shrinks r r') :
    AllFit r' := fun kv hkv => h kv (hshrink.subset hkv)

/-! ## One update -/

theorem AcceptedCreate.plain (c : AcceptedCreate) :
    Plain { uid := c.uid, name := c.req.name, path := c.req.path } := by
  have haccepted := c.accepted
  simp only [validateCreateJail, check_seq_eq_ok] at haccepted
  obtain ⟨hname, hpath, -⟩ := haccepted
  obtain ⟨hname_ne, -, -, hchars⟩ := validateJailName_eq_ok.mp hname
  obtain ⟨hpath_ne, -, -, -, hmeta⟩ := validateAbsolutePath_eq_ok.mp hpath
  constructor
  · exact hname_ne
  · exact fun hmem => absurd (hchars _ hmem) (by decide)
  · exact fun hmem => absurd (hchars _ hmem) (by decide)
  · exact hpath_ne
  · exact fun hmem => absurd (hmeta _ hmem) (by decide)

theorem mem_entries_create {r : JidOwnerRegistry} {c : AcceptedCreate} {kv : Nat × Entry}
    (h : kv ∈ (r.update (.create c)).entries.entries) :
    kv = (c.jid, { uid := c.uid, name := c.req.name, path := c.req.path }) ∨
      kv ∈ r.entries.entries :=
  OrdMap.mem_insertEntry h

theorem Bookkept.update {r : JidOwnerRegistry} (h : Bookkept r) (u : Update) :
    Bookkept (r.update u) := by
  cases u with
  | create c =>
      refine ⟨synced_persist _, fun kv hkv => ?_⟩
      rcases mem_entries_create hkv with rfl | hold
      · have := c.jid_max
        exact ⟨c.plain, c.jid_pos, by omega⟩
      · exact h.recorded kv hold
  | destroy preDestroyJid name =>
      exact h.of_shrinks (h.synced.forgetDestroyed preDestroyJid name)
        (forgetDestroyed_shrinks preDestroyJid name)
  | reconcile probe => exact h.of_shrinks (h.synced.reconcile probe) reconcile_shrinks

def UpdateFits : Update → Prop
  | .create c => c.jid ≤ 65535 ∧ '\t' ∉ c.req.path
  | _ => True

theorem allFit_update_iff {r : JidOwnerRegistry} (h : AllFit r) (u : Update) :
    AllFit (r.update u) ↔ UpdateFits u := by
  cases u with
  | create c =>
      constructor
      · intro hall
        exact hall (c.jid, _) (OrdMap.find?_eq_some_iff.mp (OrdMap.find?_insert_self _ _ _))
      · intro hfits kv hkv
        rcases mem_entries_create hkv with rfl | hold
        · exact hfits
        · exact h kv hold
  | destroy preDestroyJid name =>
      exact iff_of_true (h.of_shrinks (forgetDestroyed_shrinks preDestroyJid name)) trivial
  | reconcile probe => exact iff_of_true (h.of_shrinks reconcile_shrinks) trivial

/-! ## Whole runs -/

theorem bookkept_run (updates : List Update) : Bookkept (run update {} updates) := by
  have hinit : Bookkept {} := ⟨.inr rfl, fun kv hkv => by simp [OrdMap.empty] at hkv⟩
  exact run_induct (fun _ u h => h.update u) hinit updates

/--
Starting without a file, the registry survives a restart in every state of a
run exactly when every recorded jid fits in sixteen bits and no recorded path
holds a tab.
-/
theorem survivesRestart_run_iff (updates : List Update) :
    (∀ before, before <+: updates → SurvivesRestart (run update {} before)) ↔
      ∀ c, Update.create c ∈ updates → c.jid ≤ 65535 ∧ '\t' ∉ c.req.path := by
  have hsurvive : ∀ before, SurvivesRestart (run update {} before) ↔
      AllFit (run update {} before) := fun before => (bookkept_run before).survives_iff
  have hinit : AllFit {} := by
    intro kv hkv
    simp [OrdMap.empty] at hkv
  have hruns := forall_prefix_good_iff (fun r u h => allFit_update_iff (r := r) h u) hinit updates
  simp only [hsurvive]
  rw [hruns, stepsMeet_const_iff]
  constructor
  · intro hall c hc
    exact hall _ hc
  · intro hall u hu
    cases u with
    | create c => exact hall c hu
    | destroy preDestroyJid name => trivial
    | reconcile probe => trivial

def tabCreate : AcceptedCreate where
  jid := 5
  uid := 1000
  req := { name := "web", path := "/jails/1000/a\tb" }
  jid_pos := by decide
  jid_max := by decide
  accepted := by decide

def largeJidCreate : AcceptedCreate where
  jid := 70000
  uid := 1000
  req := { name := "web", path := "/jails/1000/web" }
  jid_pos := by decide
  jid_max := by decide
  accepted := by decide

theorem written_file_rejected :
    load (run update {} [.create tabCreate]).file =
        .error "line 1: expected exactly 4 tab-separated columns" ∧
      load (run update {} [.create largeJidCreate]).file =
        .error "line 1: jid must be 1..65535" ∧
      ¬SurvivesRestart (run update {} [.create tabCreate]) ∧
      ¬SurvivesRestart (run update {} [.create largeJidCreate]) := by
  have htab : load (run update {} [.create tabCreate]).file =
      .error "line 1: expected exactly 4 tab-separated columns" := by rfl
  have hjid : load (run update {} [.create largeJidCreate]).file =
      .error "line 1: jid must be 1..65535" := by rfl
  refine ⟨htab, hjid, fun hsurvives => ?_, fun hsurvives => ?_⟩
  · exact absurd (htab.symm.trans hsurvives.2) (by simp)
  · exact absurd (hjid.symm.trans hsurvives.2) (by simp)

end Crate.JidOwnerRegistry
