import Crate.Backup.PruneChains
import Crate.Foundation.NewestBuckets

/-!
# What a policy retains

Which streams `decidePrune` keeps depends only on which streams there are: not on
the order in which the directory lists them, and not on the streams it has
already put on the other lists.
-/

namespace Crate.BackupPrunePure

open Crate.Foundation

variable {env : Platform} {policy : RetentionPolicy} {deleteOrphans : Bool}
  {files files' : List StreamFile} {f g : StreamFile}

/-- The order of the walk over the incrementals. -/
def OlderThan (g f : StreamFile) : Prop :=
  g.unixEpoch < f.unixEpoch ∨ g.unixEpoch = f.unixEpoch ∧ g.filename < f.filename

theorem streamKey_lt_iff {a b : Indexed} : streamKey a < streamKey b ↔ OlderThan a.1 b.1 :=
  Prod.Lex.toLex_lt_toLex

/-- A picked full stream, or an incremental on a base that is retained and comes first. -/
inductive Retained (env : Platform) (files : List StreamFile) (policy : RetentionPolicy) :
    StreamFile → Prop
  | full {f : StreamFile} (type : BucketType) :
      IsPick (datedFullsOf files f.jailName) (type.bucket env) (type.count policy) f →
      Retained env files policy f
  | incremental {f g : StreamFile} : f ∈ files → f.unixEpoch ≠ 0 → f.incFromSuffix ≠ [] →
      g.jailName = f.jailName → g.suffix = f.incFromSuffix →
      (g.incFromSuffix = [] ∨ OlderThan g f) → Retained env files policy g →
      Retained env files policy f

theorem mem_datedFullsOf_iff {jail : Str} :
    f ∈ datedFullsOf files jail ↔
      f ∈ files ∧ f.jailName = jail ∧ f.unixEpoch ≠ 0 ∧ f.incFromSuffix = [] := by
  simp [datedFullsOf]

theorem Retained.mem (h : Retained env files policy f) : f ∈ files := by
  cases h with
  | full type hpick => exact (mem_datedFullsOf_iff.mp hpick.mem).1
  | incremental hf => exact hf

theorem Retained.dated (h : Retained env files policy f) : f.unixEpoch ≠ 0 := by
  cases h with
  | full type hpick => exact (mem_datedFullsOf_iff.mp hpick.mem).2.2.1
  | incremental _ hdated => exact hdated

/-! ## The code keeps what is retained -/

/-- File names differ, and in one jail the timestamps do. -/
structure Apart (files : List StreamFile) : Prop where
  names : (files.map (·.filename)).Nodup
  epochs : ∀ f ∈ files, ∀ g ∈ files, f.jailName = g.jailName → f.unixEpoch ≠ 0 →
    f.unixEpoch = g.unixEpoch → f = g

theorem names_ofJail (hnames : (files.map (·.filename)).Nodup) (jail : Str) :
    ((ofJail files jail).map (·.filename)).Nodup :=
  hnames.sublist (List.filter_sublist.map _)

theorem mem_ofJail_iff {jail : Str} : f ∈ ofJail files jail ↔ f ∈ files ∧ f.jailName = jail := by
  simp [ofJail]

theorem retained_of_mem_keptFullSuffixes (hnames : (files.map (·.filename)).Nodup)
    {jail suffix : Str} (h : suffix ∈ keptFullSuffixes env (ofJail files jail) policy) :
    ∃ g, Retained env files policy g ∧ g.jailName = jail ∧ g.suffix = suffix ∧
      g.incFromSuffix = [] := by
  obtain ⟨g, hg, hfull, rfl⟩ := mem_keptFullSuffixes_iff.mp h
  obtain ⟨hgfiles, rfl⟩ := mem_ofJail_iff.mp (OneJail.mem_of_kept hg)
  have hkept : g.1.filename ∈ (decidePrune env files policy false).keep :=
    (mem_names_iff_fated hnames hgfiles .keep).mpr ⟨g.2, hg⟩
  obtain ⟨type, hpick⟩ := isPick_of_kept hnames hgfiles hfull hkept
  exact ⟨g.1, .full type hpick, rfl, rfl, hfull⟩

/-- The walk over the incrementals, from its start up to any point. -/
theorem retained_of_mem_basedOn (hnames : (files.map (·.filename)).Nodup) {jail : Str}
    {walked rest : List Indexed}
    (hl : sortedIncrementals env (ofJail files jail) = walked ++ rest) :
    ∀ f ∈ basedOn walked (keptFullSuffixes env (ofJail files jail) policy),
      Retained env files policy f.1 := by
  induction walked using List.reverseRecOn generalizing rest with
  | nil => simp [basedOn]
  | append_singleton walked a ih =>
      rw [List.append_assoc, List.singleton_append] at hl
      have hbefore := ih hl
      intro f hf
      rw [basedOn_append, List.mem_append] at hf
      rcases hf with hf | hf
      · exact hbefore f hf
      · simp only [basedOn] at hf
        split at hf
        · rename_i hbase
          obtain rfl := List.mem_singleton.mp hf
          obtain ⟨hfile, hdated, hinc⟩ := mem_sortedIncrementals_iff.mp
            (show f ∈ sortedIncrementals env (ofJail files jail) by simp [hl])
          obtain ⟨hfiles, hjail⟩ := mem_ofJail_iff.mp (List.mem_of_getElem? hfile)
          rcases Finset.mem_union.mp hbase with hseed | hon
          · obtain ⟨g, hg, hgjail, hsuffix, hfull⟩ :=
              retained_of_mem_keptFullSuffixes hnames hseed
            exact .incremental hfiles hdated hinc (hgjail.trans hjail.symm) hsuffix
              (.inl hfull) hg
          · simp only [List.mem_toFinset, List.mem_map] at hon
            obtain ⟨g, hg, hsuffix⟩ := hon
            have hin := mem_of_mem_basedOn hg
            have hgfile := (mem_sortedIncrementals_iff.mp
              (show g ∈ sortedIncrementals env (ofJail files jail) by simp [hl, hin])).1
            have hgjail := (mem_ofJail_iff.mp (List.mem_of_getElem? hgfile)).2
            have hlt := key_lt_of_before (names_ofJail hnames jail) hl hin
            exact .incremental hfiles hdated hinc (hgjail.trans hjail.symm) hsuffix
              (.inr (streamKey_lt_iff.mp hlt)) (hbefore g hg)
        · simp at hf

theorem retained_of_kept (hnames : (files.map (·.filename)).Nodup) (hf : f ∈ files)
    (hkept : f.filename ∈ (decidePrune env files policy deleteOrphans).keep) :
    Retained env files policy f := by
  by_cases hinc : f.incFromSuffix = []
  · obtain ⟨type, hpick⟩ := isPick_of_kept hnames hf hinc hkept
    exact .full type hpick
  · obtain ⟨i, hi⟩ := (mem_names_iff_fated hnames hf .keep).mp hkept
    have hbased : (f, i) ∈ basedOn (sortedIncrementals env (ofJail files f.jailName))
        (keptFullSuffixes env (ofJail files f.jailName) policy) :=
      (inc_mem_keptStreams_iff hinc).mp hi
    exact retained_of_mem_basedOn hnames (List.append_nil _).symm (f, i) hbased

theorem kept_of_retained (h : Apart files) (hretained : Retained env files policy f) :
    f.filename ∈ (decidePrune env files policy deleteOrphans).keep := by
  induction hretained with
  | @full f type hpick =>
      obtain ⟨g, ⟨hg, hepoch, hkept⟩, -⟩ := picks_kept h.names hpick
      obtain ⟨hgfiles, hgjail, hgdated, -⟩ := mem_datedFullsOf_iff.mp hg
      have hf := (mem_datedFullsOf_iff.mp hpick.mem).1
      obtain rfl := h.epochs g hgfiles f hf hgjail hgdated hepoch
      exact hkept
  | @incremental f g hf hdated hinc hjail hsuffix horder hg ih =>
      obtain ⟨j, hj⟩ := (mem_names_iff_fated h.names hg.mem .keep).mp ih
      rw [hjail] at hj
      obtain ⟨i, hi⟩ := List.mem_iff_getElem?.mp (mem_ofJail_iff.mpr ⟨hf, rfl⟩)
      have hwalk : (f, i) ∈ sortedIncrementals env (ofJail files f.jailName) :=
        mem_sortedIncrementals_iff.mpr ⟨hi, hdated, hinc⟩
      refine (mem_names_iff_fated h.names hf .keep).mpr ⟨i, ?_⟩
      exact kept_of_base hwalk hj hsuffix (horder.imp_right streamKey_lt_iff.mpr)

/-! ## The other two lists -/

/-- What is removed when it is not retained. -/
def Removable (deleteOrphans : Bool) (f : StreamFile) : Prop :=
  f.unixEpoch ≠ 0 ∧ (f.incFromSuffix = [] ∨ deleteOrphans = true)

theorem removable_of_removed (hnames : (files.map (·.filename)).Nodup) (hf : f ∈ files)
    (h : f.filename ∈ (decidePrune env files policy deleteOrphans).remove) :
    Removable deleteOrphans f := by
  obtain ⟨i, hi⟩ := (mem_names_iff_fated hnames hf .remove).mp h
  rcases List.mem_append.mp hi with hfull | hinc
  · obtain ⟨-, hdated, hempty⟩ := mem_sortedFulls_iff.mp (List.mem_of_mem_filter hfull)
    exact ⟨hdated, .inl hempty⟩
  · split at hinc
    · rename_i hdelete
      exact ⟨(mem_sortedIncrementals_iff.mp (mem_of_mem_unbased hinc)).2.1, .inr hdelete⟩
    · simp at hinc

theorem not_removable_of_orphaned (hnames : (files.map (·.filename)).Nodup) (hf : f ∈ files)
    (h : f.filename ∈ (decidePrune env files policy deleteOrphans).orphans) :
    ¬Removable deleteOrphans f := by
  rintro ⟨hdated, hremovable⟩
  obtain ⟨i, hi⟩ := (mem_names_iff_fated hnames hf .orphan).mp h
  rcases List.mem_append.mp hi with hinc | hundated
  · split at hinc
    · simp at hinc
    · rename_i hdelete
      have hinc := (mem_sortedIncrementals_iff.mp (mem_of_mem_unbased hinc)).2.2
      exact hremovable.elim hinc hdelete
  · exact hdated (by simpa [undated] using (List.mem_filter.mp hundated).2)

/-- The list a stream is put on, said without the walks. -/
def Assigned (env : Platform) (files : List StreamFile) (policy : RetentionPolicy)
    (deleteOrphans : Bool) (f : StreamFile) : Fate → Prop
  | .keep => Retained env files policy f
  | .remove => ¬Retained env files policy f ∧ Removable deleteOrphans f
  | .orphan => ¬Retained env files policy f ∧ ¬Removable deleteOrphans f

theorem exists_mem_names_iff (env : Platform) (policy : RetentionPolicy) (deleteOrphans : Bool)
    (hnames : (files.map (·.filename)).Nodup) {name : Str} :
    (∃ fate, name ∈ (decidePrune env files policy deleteOrphans).names fate) ↔
      ∃ f ∈ files, f.filename = name := by
  have hperm : ((decidePrune env files policy deleteOrphans).keep ++
      (decidePrune env files policy deleteOrphans).remove ++
      (decidePrune env files policy deleteOrphans).orphans).Perm _ :=
    decidePrune_perm hnames.of_map
  rw [← List.mem_map, ← hperm.mem_iff, List.mem_append, List.mem_append]
  constructor
  · rintro ⟨fate, h⟩
    cases fate with
    | keep => exact .inl (.inl h)
    | remove => exact .inl (.inr h)
    | orphan => exact .inr h
  · rintro ((h | h) | h)
    · exact ⟨.keep, h⟩
    · exact ⟨.remove, h⟩
    · exact ⟨.orphan, h⟩

theorem mem_names_iff_assigned (h : Apart files) (hf : f ∈ files) (fate : Fate) :
    f.filename ∈ (decidePrune env files policy deleteOrphans).names fate ↔
      Assigned env files policy deleteOrphans f fate := by
  have hkeep : f.filename ∈ (decidePrune env files policy deleteOrphans).keep ↔
      Retained env files policy f :=
    ⟨retained_of_kept h.names hf, kept_of_retained h⟩
  have hnodup := nodup_decidePrune env policy deleteOrphans h.names
  obtain ⟨hleft, -, horphans⟩ := List.nodup_append.mp hnodup
  have hremoves := (List.nodup_append.mp hleft).2.2
  obtain ⟨found, hfound⟩ :=
    (exists_mem_names_iff env policy deleteOrphans h.names).mpr ⟨f, hf, rfl⟩
  cases fate with
  | keep => exact hkeep
  | remove =>
      rw [Assigned, ← hkeep]
      constructor
      · intro hremove
        exact ⟨fun hkept => hremoves _ hkept _ hremove rfl,
          removable_of_removed h.names hf hremove⟩
      · rintro ⟨hout, hremovable⟩
        cases found with
        | keep => exact absurd hfound hout
        | remove => exact hfound
        | orphan => exact absurd hremovable (not_removable_of_orphaned h.names hf hfound)
  | orphan =>
      rw [Assigned, ← hkeep]
      constructor
      · intro horphan
        exact ⟨fun hkept => horphans _ (List.mem_append_left _ hkept) _ horphan rfl,
          not_removable_of_orphaned h.names hf horphan⟩
      · rintro ⟨hout, hstays⟩
        cases found with
        | keep => exact absurd hfound hout
        | remove => exact absurd (removable_of_removed h.names hf hfound) hstays
        | orphan => exact hfound

/-! ## The order of the files -/

theorem IsPick.of_mem_iff {jail : Str} {bucketFn : Int → Int} {n : Nat}
    (hmem : ∀ f, f ∈ files ↔ f ∈ files') (h : IsPick (datedFullsOf files jail) bucketFn n f) :
    IsPick (datedFullsOf files' jail) bucketFn n f := by
  refine h.congr fun g => ?_
  rw [mem_datedFullsOf_iff, mem_datedFullsOf_iff, hmem]

theorem Retained.of_mem_iff (hmem : ∀ f, f ∈ files ↔ f ∈ files')
    (h : Retained env files policy f) : Retained env files' policy f := by
  induction h with
  | full type hpick => exact .full type (hpick.of_mem_iff hmem)
  | incremental hf hdated hinc hjail hsuffix horder _ ih =>
      exact .incremental ((hmem _).mp hf) hdated hinc hjail hsuffix horder ih

theorem retained_congr (hmem : ∀ f, f ∈ files ↔ f ∈ files') :
    Retained env files policy f ↔ Retained env files' policy f :=
  ⟨Retained.of_mem_iff hmem, Retained.of_mem_iff fun g => (hmem g).symm⟩

theorem Apart.of_perm (h : Apart files) (hperm : files.Perm files') : Apart files' := by
  refine ⟨(hperm.map _).nodup_iff.mp h.names, ?_⟩
  intro f hf g hg
  exact h.epochs f (hperm.mem_iff.mpr hf) g (hperm.mem_iff.mpr hg)

theorem Assigned.congr {fate : Fate}
    (hretained : Retained env files policy f ↔ Retained env files' policy f) :
    Assigned env files policy deleteOrphans f fate ↔
      Assigned env files' policy deleteOrphans f fate := by
  cases fate <;> simp [Assigned, hretained]

theorem nodup_names (env : Platform) (policy : RetentionPolicy) (deleteOrphans : Bool)
    (hnames : (files.map (·.filename)).Nodup) (fate : Fate) :
    ((decidePrune env files policy deleteOrphans).names fate).Nodup := by
  obtain ⟨hleft, horphans, -⟩ :=
    List.nodup_append.mp (nodup_decidePrune env policy deleteOrphans hnames)
  obtain ⟨hkeep, hremove, -⟩ := List.nodup_append.mp hleft
  cases fate with
  | keep => exact hkeep
  | remove => exact hremove
  | orphan => exact horphans

theorem mem_names_iff_exists (h : Apart files) {name : Str} {fate : Fate} :
    name ∈ (decidePrune env files policy deleteOrphans).names fate ↔
      ∃ f ∈ files, f.filename = name ∧ Assigned env files policy deleteOrphans f fate := by
  constructor
  · intro hname
    obtain ⟨f, hf, rfl⟩ :=
      (exists_mem_names_iff env policy deleteOrphans h.names).mp ⟨fate, hname⟩
    exact ⟨f, hf, rfl, (mem_names_iff_assigned h hf fate).mp hname⟩
  · rintro ⟨f, hf, rfl, hfate⟩
    exact (mem_names_iff_assigned h hf fate).mpr hfate

/-- A list of names is known by its members. -/
theorem names_eq_of_mem_iff {policy' : RetentionPolicy} {deleteOrphans' : Bool}
    (h : Apart files) (h' : Apart files') {fate : Fate}
    (hmem : ∀ name, name ∈ (decidePrune env files policy deleteOrphans).names fate ↔
      name ∈ (decidePrune env files' policy' deleteOrphans').names fate) :
    (decidePrune env files policy deleteOrphans).names fate =
      (decidePrune env files' policy' deleteOrphans').names fate := by
  have hperm := (List.perm_ext_iff_of_nodup (nodup_names env policy deleteOrphans h.names fate)
    (nodup_names env policy' deleteOrphans' h'.names fate)).mpr hmem
  have hweak : StrictWeak (fun a b : Str => decide (a < b)) :=
    .of_key_iff id fun _ _ => decide_eq_true_iff
  have hlists := ((names_decidePrune_perm fate).symm.trans hperm).trans
    (names_decidePrune_perm fate)
  have hsort := env.stdSort.sort_eq_of_perm env.stdSort hweak hlists fun a _ b _ hab hba =>
    le_antisymm (not_lt.mp (of_decide_eq_false hba)) (not_lt.mp (of_decide_eq_false hab))
  cases fate <;>
    simpa [decidePrune, PruneDecision.names, sortNames, List.flatMap_map] using hsort

theorem PruneDecision.ext_names {d d' : PruneDecision} (h : ∀ fate, d.names fate = d'.names fate) :
    d = d' := by
  have hkeep : d.keep = d'.keep := h .keep
  have hremove : d.remove = d'.remove := h .remove
  have horphans : d.orphans = d'.orphans := h .orphan
  cases d
  cases d'
  simp_all

theorem decidePrune_eq_of_perm (h : Apart files) (hperm : files.Perm files') :
    decidePrune env files policy deleteOrphans = decidePrune env files' policy deleteOrphans := by
  have hmem : ∀ f, f ∈ files ↔ f ∈ files' := fun f => hperm.mem_iff
  refine PruneDecision.ext_names fun fate => names_eq_of_mem_iff h (h.of_perm hperm) fun name => ?_
  rw [mem_names_iff_exists h, mem_names_iff_exists (h.of_perm hperm)]
  simp only [hmem, Assigned.congr (retained_congr hmem)]

/-! ## A second run -/

theorem isPick_iff_taken {fulls : List StreamFile} {bucketFn : Int → Int} {n : Nat} :
    IsPick fulls bucketFn n f ↔
      Taken (·.unixEpoch) (fun g => bucketFn g.unixEpoch) n fulls.toFinset f := by
  have hbuckets : ((fulls.filter (fun g => f.unixEpoch < g.unixEpoch)).map
      (fun g => bucketFn g.unixEpoch)).toFinset =
      bucketsAfter (·.unixEpoch) (fun g => bucketFn g.unixEpoch) fulls.toFinset f.unixEpoch := by
    ext key
    simp [bucketsAfter]
  constructor
  · rintro ⟨hmem, hnewest, hrecent⟩
    exact ⟨List.mem_toFinset.mpr hmem, fun g hg => hnewest g (List.mem_toFinset.mp hg),
      hbuckets ▸ hrecent⟩
  · rintro ⟨hmem, hnewest, hrecent⟩
    exact ⟨List.mem_toFinset.mp hmem, fun g hg => hnewest g (List.mem_toFinset.mpr hg),
      hbuckets ▸ hrecent⟩

/-- Some of the files are gone, but none that is retained. -/
structure Survive (env : Platform) (policy : RetentionPolicy) (files survivors : List StreamFile) :
    Prop where
  subset : ∀ f ∈ survivors, f ∈ files
  retained : ∀ f, Retained env files policy f → f ∈ survivors

variable {survivors : List StreamFile}

theorem Survive.isPick_iff (h : Survive env policy files survivors) {jail : Str}
    {type : BucketType} :
    IsPick (datedFullsOf survivors jail) (type.bucket env) (type.count policy) f ↔
      IsPick (datedFullsOf files jail) (type.bucket env) (type.count policy) f := by
  rw [isPick_iff_taken, isPick_iff_taken]
  refine taken_iff ?_ ?_
  · intro g hg
    rw [List.mem_toFinset, mem_datedFullsOf_iff] at hg ⊢
    exact ⟨h.subset g hg.1, hg.2⟩
  · intro g hg
    have hpick := isPick_iff_taken.mpr hg
    obtain ⟨-, rfl, hdated, hfull⟩ := mem_datedFullsOf_iff.mp hpick.mem
    rw [List.mem_toFinset, mem_datedFullsOf_iff]
    exact ⟨h.retained g (.full type hpick), rfl, hdated, hfull⟩

theorem Survive.retained_iff (h : Survive env policy files survivors) :
    Retained env survivors policy f ↔ Retained env files policy f := by
  constructor
  · intro hretained
    induction hretained with
    | full type hpick => exact .full type (h.isPick_iff.mp hpick)
    | incremental hf hdated hinc hjail hsuffix horder _ ih =>
        exact .incremental (h.subset _ hf) hdated hinc hjail hsuffix horder ih
  · intro hretained
    induction hretained with
    | full type hpick => exact .full type (h.isPick_iff.mpr hpick)
    | incremental hf hdated hinc hjail hsuffix horder hg ih =>
        have hin := h.retained _ (.incremental hf hdated hinc hjail hsuffix horder hg)
        exact .incremental hin hdated hinc hjail hsuffix horder ih

/-- The files that are still there when those on the remove list are gone. -/
def survivorsOf (files : List StreamFile) (d : PruneDecision) : List StreamFile :=
  files.filter (fun f => f.filename ∈ d.keep ∨ f.filename ∈ d.orphans)

theorem mem_survivorsOf_iff (h : Apart files) :
    f ∈ survivorsOf files (decidePrune env files policy deleteOrphans) ↔
      f ∈ files ∧ (Retained env files policy f ∨ ¬Removable deleteOrphans f) := by
  simp only [survivorsOf, List.mem_filter, decide_eq_true_eq]
  refine and_congr_right fun hf => ?_
  have hkeep : f.filename ∈ (decidePrune env files policy deleteOrphans).keep ↔
      Retained env files policy f := mem_names_iff_assigned h hf .keep
  have horphan : f.filename ∈ (decidePrune env files policy deleteOrphans).orphans ↔
      ¬Retained env files policy f ∧ ¬Removable deleteOrphans f :=
    mem_names_iff_assigned h hf .orphan
  rw [hkeep, horphan]
  tauto

theorem Apart.survivorsOf (h : Apart files) (d : PruneDecision) : Apart (survivorsOf files d) := by
  refine ⟨h.names.sublist (List.filter_sublist.map _), ?_⟩
  intro f hf g hg
  exact h.epochs f (List.mem_of_mem_filter hf) g (List.mem_of_mem_filter hg)

theorem survive_survivorsOf (h : Apart files) : Survive env policy files
    (survivorsOf files (decidePrune env files policy deleteOrphans)) where
  subset _ hf := ((mem_survivorsOf_iff h).mp hf).1
  retained _ hretained := (mem_survivorsOf_iff h).mpr ⟨hretained.mem, .inl hretained⟩

theorem mem_names_again_iff (h : Apart files) {name : Str} {fate : Fate} :
    name ∈ (decidePrune env (survivorsOf files (decidePrune env files policy deleteOrphans))
        policy deleteOrphans).names fate ↔
      fate ≠ .remove ∧ name ∈ (decidePrune env files policy deleteOrphans).names fate := by
  rw [mem_names_iff_exists (h.survivorsOf _), mem_names_iff_exists h]
  simp only [mem_survivorsOf_iff h, Assigned.congr (survive_survivorsOf h).retained_iff]
  constructor
  · rintro ⟨f, ⟨hf, hstays⟩, rfl, hfate⟩
    refine ⟨?_, f, hf, rfl, hfate⟩
    rintro rfl
    exact hstays.elim hfate.1 (absurd hfate.2)
  · rintro ⟨hne, f, hf, rfl, hfate⟩
    refine ⟨f, ⟨hf, ?_⟩, rfl, hfate⟩
    cases fate with
    | keep => exact .inl hfate
    | remove => contradiction
    | orphan => exact .inr hfate.2

theorem names_again (h : Apart files) {fate : Fate} (hne : fate ≠ .remove) :
    (decidePrune env (survivorsOf files (decidePrune env files policy deleteOrphans))
        policy deleteOrphans).names fate =
      (decidePrune env files policy deleteOrphans).names fate :=
  names_eq_of_mem_iff (h.survivorsOf _) h fun _ =>
    (mem_names_again_iff h).trans (and_iff_right hne)

/-- On what is left, a second run removes nothing and decides everything else as before. -/
theorem decidePrune_again (h : Apart files) :
    decidePrune env (survivorsOf files (decidePrune env files policy deleteOrphans)) policy
        deleteOrphans =
      { decidePrune env files policy deleteOrphans with remove := [] } := by
  refine PruneDecision.ext_names fun fate => ?_
  cases fate with
  | keep => exact names_again h (by simp)
  | remove =>
      refine List.eq_nil_iff_forall_not_mem.mpr fun name hname => ?_
      exact ((mem_names_again_iff h).mp hname).1 rfl
  | orphan => exact names_again h (by simp)

end Crate.BackupPrunePure
