import Crate.Backup.Prune
import Crate.Foundation.Dependency

/-!
# Chains of incremental streams

An incremental stream can only be restored on top of its base, which may be an
incremental itself.  `decidePrune` decides the incrementals of a jail in one
pass from the oldest to the newest, so a stream is found to have a kept base
only when the base came earlier in this order.  A base that was stamped later
than the stream built on it, after the clock was set back, comes too late.
-/

namespace Crate.BackupPrunePure

open Crate.Foundation

variable {env : Platform} {policy : RetentionPolicy} {deleteOrphans : Bool}
  {files : List StreamFile} {l : List Indexed} {keptSuffixes : Finset Str}

/-! ## The pass -/

theorem basedOn_append (l l' : List Indexed) (keptSuffixes : Finset Str) :
    basedOn (l ++ l') keptSuffixes = basedOn l keptSuffixes ++
      basedOn l' (keptSuffixes ∪ ((basedOn l keptSuffixes).map (·.1.suffix)).toFinset) := by
  induction l generalizing keptSuffixes with
  | nil => simp [basedOn]
  | cons f rest ih =>
      simp only [List.cons_append, basedOn]
      split
      · simp [ih, Finset.insert_union, Finset.union_insert]
      · exact ih keptSuffixes

/-- What holds of the streams on a seed, and of the streams on such streams, holds of all. -/
theorem basedOn_induction {C : Indexed → Prop}
    (hseed : ∀ f ∈ basedOn l keptSuffixes, f.1.incFromSuffix ∈ keptSuffixes → C f)
    (hstep : ∀ f ∈ basedOn l keptSuffixes, ∀ g ∈ basedOn l keptSuffixes, C g →
      g.1.suffix = f.1.incFromSuffix → C f) :
    ∀ f ∈ basedOn l keptSuffixes, C f := by
  induction l generalizing keptSuffixes with
  | nil => simp [basedOn]
  | cons a rest ih =>
      simp only [basedOn] at hseed hstep ⊢
      split at hseed
      · rename_i hbase
        simp only [hbase, if_true] at hstep ⊢
        have ha : C a := hseed a (by simp) hbase
        intro f hf
        rcases List.mem_cons.mp hf with rfl | hf
        · exact ha
        · refine ih ?_ ?_ f hf
          · intro g hg hin
            have hg' := List.mem_cons_of_mem a hg
            rcases Finset.mem_insert.mp hin with hon | hin
            · exact hstep g hg' a (by simp) ha hon.symm
            · exact hseed g hg' hin
          · intro g hg g' hg'
            exact hstep g (List.mem_cons_of_mem a hg) g' (List.mem_cons_of_mem a hg')
      · rename_i hbase
        simp only [hbase, if_false] at hstep ⊢
        exact ih hseed hstep

/-- A stream of the pass is based on a seed or on a stream that came before it. -/
theorem exists_split_of_mem_basedOn {f : Indexed} (h : f ∈ basedOn l keptSuffixes) :
    ∃ before behind, l = before ++ f :: behind ∧
      (f.1.incFromSuffix ∈ keptSuffixes ∨
        ∃ g ∈ basedOn before keptSuffixes, g.1.suffix = f.1.incFromSuffix) := by
  induction l using List.reverseRecOn with
  | nil => simp [basedOn] at h
  | append_singleton rest a ih =>
      rw [basedOn_append, List.mem_append] at h
      rcases h with h | h
      · obtain ⟨before, behind, rfl, hbase⟩ := ih h
        exact ⟨before, behind ++ [a], by simp, hbase⟩
      · simp only [basedOn] at h
        split at h
        · rename_i hbase
          obtain rfl := List.mem_singleton.mp h
          refine ⟨rest, [], rfl, ?_⟩
          simpa using hbase
        · simp at h

theorem mem_basedOn_of_split {before behind : List Indexed} {f : Indexed}
    (h : f.1.incFromSuffix ∈ keptSuffixes ∨
      ∃ g ∈ basedOn before keptSuffixes, g.1.suffix = f.1.incFromSuffix) :
    f ∈ basedOn (before ++ f :: behind) keptSuffixes := by
  have hbase : f.1.incFromSuffix ∈
      keptSuffixes ∪ ((basedOn before keptSuffixes).map (·.1.suffix)).toFinset := by
    simpa using h
  rw [basedOn_append, List.mem_append]
  right
  simp [basedOn, hbase]

/-! ## The order of the pass -/

theorem sortedIncrementals_sorted (env : Platform) (files : List StreamFile) :
    (sortedIncrementals env files).Pairwise (fun a b => streamKey a ≤ streamKey b) := by
  refine (env.stdSort.sorted strictWeak_olderFirst (datedIncrementals files)).imp fun h => ?_
  simpa [olderFirst_eq] using h

theorem nodup_sortedIncrementals (env : Platform) (files : List StreamFile) :
    (sortedIncrementals env files).Nodup := by
  refine sortedIncrementals_perm.nodup_iff.mpr ?_
  have hzip : files.zipIdx.Nodup := by
    refine List.Nodup.of_map Prod.snd ?_
    rw [List.zipIdx_map_snd]
    exact List.nodup_range'
  exact (hzip.filter _).filter _

theorem key_lt_of_before (hnames : (files.map (·.filename)).Nodup) {before behind : List Indexed}
    {f g : Indexed} (hl : sortedIncrementals env files = before ++ f :: behind)
    (hg : g ∈ before) : streamKey g < streamKey f := by
  have hsorted := sortedIncrementals_sorted env files
  have hnodup := nodup_sortedIncrementals env files
  have hfin : f ∈ sortedIncrementals env files := by simp [hl]
  have hgin : g ∈ sortedIncrementals env files := by simp [hl, hg]
  rw [hl] at hsorted hnodup
  have hle := (List.pairwise_append.mp hsorted).2.2 g hg f (by simp)
  have hne := (List.nodup_append.mp hnodup).2.2 g hg f (by simp)
  refine lt_of_le_of_ne hle fun hkey => hne ?_
  -- one file name stands at one place
  have hname : g.1.filename = f.1.filename := congrArg (fun k => (ofLex k).2) hkey
  have hindex : g.2 = f.2 := by
    have hf := (mem_sortedIncrementals_iff.mp hfin).1
    have hg := (mem_sortedIncrementals_iff.mp hgin).1
    have hlt : g.2 < (files.map (·.filename)).length := by
      simpa using (List.getElem?_eq_some_iff.mp hg).1
    refine (List.getElem?_inj hlt hnames).mp ?_
    simp [hf, hg, hname]
  have hfile := (mem_sortedIncrementals_iff.mp hfin).1
  rw [← hindex, (mem_sortedIncrementals_iff.mp hgin).1] at hfile
  exact Prod.ext (Option.some.inj hfile) hindex

/-! ## Bases -/

/-- The full streams that the buckets pick. -/
def Picked (env : Platform) (files : List StreamFile) (policy : RetentionPolicy)
    (f : StreamFile) : Prop :=
  ∃ (i : Nat) (type : BucketType), (f, i) ∈ sortedFulls env files ∧
    i ∈ bucketKeep (sortedFulls env files) (type.count policy) (type.bucket env)

theorem mem_keptFullSuffixes_iff {suffix : Str} :
    suffix ∈ keptFullSuffixes env files policy ↔
      ∃ g ∈ keptStreams env files policy, g.1.incFromSuffix = [] ∧ g.1.suffix = suffix := by
  simp only [keptFullSuffixes, List.mem_toFinset, List.mem_map, List.mem_filter, decide_eq_true_eq]
  constructor
  · rintro ⟨g, ⟨hg, hkept⟩, rfl⟩
    have hfile := List.mem_zipIdx_iff_getElem?.mp hg
    obtain ⟨type, hkept'⟩ := mem_keptFulls_iff.mp hkept
    obtain ⟨before, g', behind, hl, hindex, -⟩ := mem_bucketKeep_iff.mp hkept'
    have hg' : g' ∈ sortedFulls env files := by simp [hl]
    have hfile' := (mem_sortedFulls_iff.mp hg').1
    rw [hindex, hfile] at hfile'
    obtain rfl : g = g' := Prod.ext (Option.some.inj hfile') hindex.symm
    have hfull := (mem_sortedFulls_iff.mp hg').2.2
    exact ⟨g, (full_mem_keptStreams_iff_mem_keptIndices hfull).mpr ⟨hg', hkept⟩, hfull, rfl⟩
  · rintro ⟨g, hg, hfull, rfl⟩
    obtain ⟨hsorted, hkept⟩ := (full_mem_keptStreams_iff_mem_keptIndices hfull).mp hg
    exact ⟨g, ⟨List.mem_zipIdx_iff_getElem?.mpr (mem_sortedFulls_iff.mp hsorted).1, hkept⟩, rfl⟩

theorem inc_mem_keptStreams_iff {f : Indexed} (hinc : f.1.incFromSuffix ≠ []) :
    f ∈ keptStreams env files policy ↔
      f ∈ basedOn (sortedIncrementals env files) (keptFullSuffixes env files policy) := by
  have hnotFull : f ∉ sortedFulls env files := fun hin => hinc (mem_sortedFulls_iff.mp hin).2.2
  simp [keptStreams, hnotFull]

theorem exists_base_of_kept (hnames : (files.map (·.filename)).Nodup) {f : Indexed}
    (hinc : f.1.incFromSuffix ≠ []) (h : f ∈ keptStreams env files policy) :
    ∃ g ∈ keptStreams env files policy, g.1.suffix = f.1.incFromSuffix ∧
      (g.1.incFromSuffix = [] ∨ streamKey g < streamKey f) := by
  obtain ⟨before, behind, hl, hbase⟩ :=
    exists_split_of_mem_basedOn ((inc_mem_keptStreams_iff hinc).mp h)
  rcases hbase with hseed | ⟨g, hg, hsuffix⟩
  · obtain ⟨g, hg, hfull, hsuffix⟩ := mem_keptFullSuffixes_iff.mp hseed
    exact ⟨g, hg, hsuffix, .inl hfull⟩
  · have hbefore := mem_of_mem_basedOn hg
    have hginc := (mem_sortedIncrementals_iff.mp
      (show g ∈ sortedIncrementals env files by simp [hl, hbefore])).2.2
    refine ⟨g, (inc_mem_keptStreams_iff hginc).mpr ?_, hsuffix,
      .inr (key_lt_of_before hnames hl hbefore)⟩
    rw [hl, basedOn_append]
    exact List.mem_append_left _ hg

theorem kept_of_base {f g : Indexed} (hf : f ∈ sortedIncrementals env files)
    (hg : g ∈ keptStreams env files policy) (hsuffix : g.1.suffix = f.1.incFromSuffix)
    (horder : g.1.incFromSuffix = [] ∨ streamKey g < streamKey f) :
    f ∈ keptStreams env files policy := by
  refine (inc_mem_keptStreams_iff (mem_sortedIncrementals_iff.mp hf).2.2).mpr ?_
  obtain ⟨before, behind, hl⟩ := List.append_of_mem hf
  rw [hl]
  refine mem_basedOn_of_split ?_
  by_cases hfull : g.1.incFromSuffix = []
  · left
    exact mem_keptFullSuffixes_iff.mpr ⟨g, hg, hfull, hsuffix⟩
  · right
    have hlt := horder.resolve_left hfull
    have hgbased := (inc_mem_keptStreams_iff hfull).mp hg
    rw [hl, basedOn_append, List.mem_append] at hgbased
    refine ⟨g, hgbased.resolve_right fun hlate => ?_, hsuffix⟩
    have hsorted := sortedIncrementals_sorted env files
    rw [hl] at hsorted
    have htail := (List.pairwise_append.mp hsorted).2.1
    rcases List.mem_cons.mp (mem_of_mem_basedOn hlate) with rfl | hbehind
    · exact lt_irrefl _ hlt
    · exact absurd hlt (not_lt.mpr (List.rel_of_pairwise_cons htail hbehind))

/-! ## The streams of one jail -/

/-- From the stream through kept bases down to a kept full stream. -/
inductive KeptChain (files : List StreamFile) (d : PruneDecision) : StreamFile → Prop
  | full {f : StreamFile} : f ∈ files → f.incFromSuffix = [] → f.filename ∈ d.keep →
      KeptChain files d f
  | step {f g : StreamFile} : f ∈ files → f.incFromSuffix ≠ [] → f.filename ∈ d.keep →
      g.suffix = f.incFromSuffix → KeptChain files d g → KeptChain files d f

structure KeepsChains (env : Platform) (files : List StreamFile) (policy : RetentionPolicy) :
    Prop where
  kept_iff : ∀ deleteOrphans, ∀ f ∈ files, f.incFromSuffix ≠ [] →
    (f.filename ∈ (decidePrune env files policy deleteOrphans).keep ↔
      ∃ g ∈ files, g.filename ∈ (decidePrune env files policy deleteOrphans).keep ∧
        g.suffix = f.incFromSuffix)
  chain : ∀ deleteOrphans, ∀ f ∈ files,
    f.filename ∈ (decidePrune env files policy deleteOrphans).keep →
      KeptChain files (decidePrune env files policy deleteOrphans) f
  not_removed : ∀ f ∈ files, f.incFromSuffix ≠ [] → ∀ g,
    KeptChain files (decidePrune env files policy true) g → g.suffix = f.incFromSuffix →
      f.filename ∉ (decidePrune env files policy true).remove

/-- The chain of bases ends in a full stream that the buckets pick. -/
inductive Rooted (env : Platform) (files : List StreamFile) (policy : RetentionPolicy) :
    StreamFile → Prop
  | full {f : StreamFile} : Picked env files policy f → Rooted env files policy f
  | step {f g : StreamFile} : f ∈ files → f.incFromSuffix ≠ [] → g.suffix = f.incFromSuffix →
      Rooted env files policy g → Rooted env files policy f

/-- A stream comes after its base, by timestamp and then by file name. -/
def BasesFirst (env : Platform) (files : List StreamFile) (policy : RetentionPolicy) : Prop :=
  ∀ f ∈ files, ∀ g ∈ files, f.incFromSuffix ≠ [] → g.incFromSuffix ≠ [] →
    g.suffix = f.incFromSuffix → Rooted env files policy g →
      g.unixEpoch < f.unixEpoch ∨ g.unixEpoch = f.unixEpoch ∧ g.filename < f.filename

/-- One jail's streams as they are listed from a directory. -/
structure OneJail (files : List StreamFile) : Prop where
  names : (files.map (·.filename)).Nodup
  suffixes : (files.map (·.suffix)).Nodup
  jail : ∀ f ∈ files, ∀ g ∈ files, f.jailName = g.jailName
  dated : ∀ f ∈ files, f.unixEpoch ≠ 0

namespace OneJail

variable {f g : StreamFile}

theorem ofJail_eq (h : OneJail files) (hf : f ∈ files) : ofJail files f.jailName = files := by
  refine List.filter_eq_self.mpr fun g hg => ?_
  simpa using h.jail g hg f hf

theorem mem_names_iff (h : OneJail files) (hf : f ∈ files) (fate : Fate) :
    f.filename ∈ (decidePrune env files policy deleteOrphans).names fate ↔
      ∃ i, (f, i) ∈ fated env files policy deleteOrphans fate := by
  rw [mem_names_iff_fated h.names hf, h.ofJail_eq hf]

theorem mem_keep_iff (h : OneJail files) (hf : f ∈ files) :
    f.filename ∈ (decidePrune env files policy deleteOrphans).keep ↔
      ∃ i, (f, i) ∈ keptStreams env files policy :=
  h.mem_names_iff hf .keep

theorem mem_of_kept {f : Indexed} (h : f ∈ keptStreams env files policy) : f.1 ∈ files := by
  have hfated : f ∈ fated env files policy false .keep := h
  exact mem_of_mem_fated hfated

theorem mem_sortedIncrementals (env : Platform) (h : OneJail files) (hf : f ∈ files)
    (hinc : f.incFromSuffix ≠ []) : ∃ i, (f, i) ∈ sortedIncrementals env files := by
  obtain ⟨i, hi⟩ := List.mem_iff_getElem?.mp hf
  exact ⟨i, mem_sortedIncrementals_iff.mpr ⟨hi, h.dated f hf, hinc⟩⟩

theorem exists_kept_base (h : OneJail files) (hf : f ∈ files) (hinc : f.incFromSuffix ≠ [])
    (hkept : f.filename ∈ (decidePrune env files policy deleteOrphans).keep) :
    ∃ g ∈ files, g.filename ∈ (decidePrune env files policy deleteOrphans).keep ∧
      g.suffix = f.incFromSuffix := by
  obtain ⟨i, hi⟩ := (h.mem_keep_iff hf).mp hkept
  obtain ⟨g, hg, hsuffix, -⟩ := exists_base_of_kept h.names hinc hi
  exact ⟨g.1, mem_of_kept hg, (h.mem_keep_iff (mem_of_kept hg)).mpr ⟨g.2, hg⟩, hsuffix⟩

/-- Kept streams hang on kept full streams. -/
theorem kept_induction (h : OneJail files) {C : StreamFile → Prop}
    (hfull : ∀ f ∈ files, f.incFromSuffix = [] →
      f.filename ∈ (decidePrune env files policy deleteOrphans).keep → C f)
    (hstep : ∀ f ∈ files, f.incFromSuffix ≠ [] →
      f.filename ∈ (decidePrune env files policy deleteOrphans).keep →
        ∀ g, C g → g.suffix = f.incFromSuffix → C f)
    (hf : f ∈ files) (hkept : f.filename ∈ (decidePrune env files policy deleteOrphans).keep) :
    C f := by
  by_cases hinc : f.incFromSuffix = []
  · exact hfull f hf hinc hkept
  · obtain ⟨i, hi⟩ := (h.mem_keep_iff hf).mp hkept
    have hall : ∀ a ∈ basedOn (sortedIncrementals env files) (keptFullSuffixes env files policy),
        ∀ g, C g → g.suffix = a.1.incFromSuffix → C a.1 := by
      intro a ha g hg hsuffix
      have hainc := (mem_sortedIncrementals_iff.mp (mem_of_mem_basedOn ha)).2.2
      have hakept := (inc_mem_keptStreams_iff hainc).mpr ha
      exact hstep a.1 (mem_of_kept hakept) hainc
        ((h.mem_keep_iff (mem_of_kept hakept)).mpr ⟨a.2, hakept⟩) g hg hsuffix
    refine basedOn_induction (C := fun a => C a.1) ?_ ?_ _ ((inc_mem_keptStreams_iff hinc).mp hi)
    · intro a ha hseed
      obtain ⟨g, hg, hgfull, hsuffix⟩ := mem_keptFullSuffixes_iff.mp hseed
      exact hall a ha g.1 (hfull g.1 (mem_of_kept hg) hgfull
        ((h.mem_keep_iff (mem_of_kept hg)).mpr ⟨g.2, hg⟩)) hsuffix
    · intro a ha g _ hg hsuffix
      exact hall a ha g.1 hg hsuffix

theorem keptChain_of_kept (h : OneJail files) (hf : f ∈ files)
    (hkept : f.filename ∈ (decidePrune env files policy deleteOrphans).keep) :
    KeptChain files (decidePrune env files policy deleteOrphans) f := by
  refine h.kept_induction ?_ ?_ hf hkept
  · intro f hf hfull hkept
    exact .full hf hfull hkept
  · intro f hf hinc hkept g hg hsuffix
    exact .step hf hinc hkept hsuffix hg

theorem full_kept_iff_picked (h : OneJail files) (hf : f ∈ files) (hfull : f.incFromSuffix = []) :
    f.filename ∈ (decidePrune env files policy deleteOrphans).keep ↔ Picked env files policy f := by
  rw [h.mem_keep_iff hf]
  constructor
  · rintro ⟨i, hi⟩
    obtain ⟨hsorted, hindex⟩ := (full_mem_keptStreams_iff_mem_keptIndices hfull).mp hi
    obtain ⟨type, htype⟩ := mem_keptFulls_iff.mp hindex
    exact ⟨i, type, hsorted, htype⟩
  · rintro ⟨i, type, hsorted, htype⟩
    exact ⟨i, (full_mem_keptStreams_iff_mem_keptIndices hfull).mpr
      ⟨hsorted, mem_keptFulls_iff.mpr ⟨type, htype⟩⟩⟩

theorem rooted_of_kept (h : OneJail files) (hf : f ∈ files)
    (hkept : f.filename ∈ (decidePrune env files policy deleteOrphans).keep) :
    Rooted env files policy f := by
  refine h.kept_induction ?_ ?_ hf hkept
  · intro f hf hfull hkept
    exact .full ((h.full_kept_iff_picked hf hfull).mp hkept)
  · intro f hf hinc _ g hg hsuffix
    exact .step hf hinc hsuffix hg

theorem kept_of_rooted (h : OneJail files) (hchains : KeepsChains env files policy)
    (hrooted : Rooted env files policy f) :
    f ∈ files ∧ f.filename ∈ (decidePrune env files policy deleteOrphans).keep := by
  induction hrooted with
  | full hpicked =>
      obtain ⟨i, type, hsorted, -⟩ := id hpicked
      obtain ⟨hfile, -, hfull⟩ := mem_sortedFulls_iff.mp hsorted
      have hf := List.mem_of_getElem? hfile
      exact ⟨hf, (h.full_kept_iff_picked hf hfull).mpr hpicked⟩
  | step hf hinc hsuffix _ ih =>
      exact ⟨hf, (hchains.kept_iff deleteOrphans _ hf hinc).mpr ⟨_, ih.1, ih.2, hsuffix⟩⟩

theorem eq_of_suffix_eq (h : OneJail files) (hf : f ∈ files) (hg : g ∈ files)
    (hsuffix : f.suffix = g.suffix) : f = g :=
  List.inj_on_of_nodup_map h.suffixes hf hg hsuffix

theorem basesFirst_of_keepsChains (h : OneJail files) (hchains : KeepsChains env files policy) :
    BasesFirst env files policy := by
  intro f hf g hg hinc hginc hsuffix hrooted
  have hgkept : g.filename ∈ (decidePrune env files policy false).keep :=
    (h.kept_of_rooted hchains hrooted).2
  have hkept := (hchains.kept_iff false f hf hinc).mpr ⟨g, hg, hgkept, hsuffix⟩
  obtain ⟨i, hi⟩ := (h.mem_keep_iff hf).mp hkept
  obtain ⟨base, hbase, hbaseSuffix, horder⟩ := exists_base_of_kept h.names hinc hi
  obtain rfl := h.eq_of_suffix_eq (mem_of_kept hbase) hg (hbaseSuffix.trans hsuffix.symm)
  exact Prod.Lex.toLex_lt_toLex.mp (horder.resolve_left hginc)

theorem kept_of_kept_base (h : OneJail files) (hfirst : BasesFirst env files policy)
    (hf : f ∈ files) (hinc : f.incFromSuffix ≠ []) (hg : g ∈ files)
    (hgkept : g.filename ∈ (decidePrune env files policy deleteOrphans).keep)
    (hsuffix : g.suffix = f.incFromSuffix) :
    f.filename ∈ (decidePrune env files policy deleteOrphans).keep := by
  obtain ⟨i, hi⟩ := h.mem_sortedIncrementals env hf hinc
  obtain ⟨j, hj⟩ := (h.mem_keep_iff hg).mp hgkept
  refine (h.mem_keep_iff hf).mpr ⟨i, kept_of_base hi hj hsuffix ?_⟩
  by_cases hginc : g.incFromSuffix = []
  · exact .inl hginc
  · right
    exact Prod.Lex.toLex_lt_toLex.mpr
      (hfirst f hf g hg hinc hginc hsuffix (h.rooted_of_kept hg hgkept))

theorem not_removed_of_kept (h : OneJail files)
    (hkept : f.filename ∈ (decidePrune env files policy deleteOrphans).keep) :
    f.filename ∉ (decidePrune env files policy deleteOrphans).remove := by
  have hnodup := nodup_decidePrune env policy deleteOrphans h.names
  intro hremoved
  exact (List.nodup_append.mp (List.nodup_append.mp hnodup).1).2.2 _ hkept _ hremoved rfl

end OneJail

theorem keepsChains_iff (env : Platform) (policy : RetentionPolicy) (h : OneJail files) :
    KeepsChains env files policy ↔ BasesFirst env files policy := by
  constructor
  · exact h.basesFirst_of_keepsChains
  · intro hfirst
    refine ⟨?_, ?_, ?_⟩
    · intro deleteOrphans f hf hinc
      constructor
      · exact h.exists_kept_base hf hinc
      · rintro ⟨g, hg, hgkept, hsuffix⟩
        exact h.kept_of_kept_base hfirst hf hinc hg hgkept hsuffix
    · intro deleteOrphans f hf hkept
      exact h.keptChain_of_kept hf hkept
    · intro f hf hinc g hchain hsuffix
      refine h.not_removed_of_kept ?_
      cases hchain with
      | full hg _ hgkept => exact h.kept_of_kept_base hfirst hf hinc hg hgkept hsuffix
      | step hg _ hgkept _ _ => exact h.kept_of_kept_base hfirst hf hinc hg hgkept hsuffix

/-- A stream of the jail `web`; a full one when `base` is empty. -/
def webStream (filename day base : String) (epoch : Int) : StreamFile :=
  { filename := filename, jailName := "web", suffix := day, incFromSuffix := base,
    unixEpoch := epoch }

/-- The third stream was taken after the clock had been set back by two days. -/
def clockSetBack : List StreamFile :=
  [webStream "web-backup-2026-01-01T00:00:00Z.zstream" "backup-2026-01-01T00:00:00Z" ""
      1767225600,
    webStream "web-backup-2026-01-03T00:00:00Z.inc-from-backup-2026-01-01T00:00:00Z.zstream"
      "backup-2026-01-03T00:00:00Z" "backup-2026-01-01T00:00:00Z" 1767398400,
    webStream "web-backup-2026-01-02T00:00:00Z.inc-from-backup-2026-01-03T00:00:00Z.zstream"
      "backup-2026-01-02T00:00:00Z" "backup-2026-01-03T00:00:00Z" 1767312000]

def BasedOn (files : List StreamFile) (f g : StreamFile) : Prop :=
  f ∈ files ∧ g ∈ files ∧ g.suffix = f.incFromSuffix

theorem acyclic_clockSetBack : Acyclic (BasedOn clockSetBack) := by
  -- the streams are listed base first
  have hlisted : InOrder (BasedOn clockSetBack) clockSetBack := by
    refine ((inOrder_nil.concat ?_).concat ?_).concat ?_
    all_goals
      rintro g ⟨-, hg, hsuffix⟩
      revert g
      decide
  exact hlisted.acyclic (by decide) fun f g h => h.1

theorem kept_base_of_orphan :
    OneJail clockSetBack ∧ Acyclic (BasedOn clockSetBack) ∧
      ¬KeepsChains listOrder clockSetBack { daily := 7 } := by
  refine ⟨⟨by decide, by decide, by decide, by decide⟩, acyclic_clockSetBack, fun h => ?_⟩
  have hiff := h.kept_iff false
  revert hiff
  decide

/-- The same chain with the clock running forwards. -/
def clockForwards : List StreamFile :=
  [webStream "web-backup-2026-01-01T00:00:00Z.zstream" "backup-2026-01-01T00:00:00Z" ""
      1767225600,
    webStream "web-backup-2026-01-02T00:00:00Z.inc-from-backup-2026-01-01T00:00:00Z.zstream"
      "backup-2026-01-02T00:00:00Z" "backup-2026-01-01T00:00:00Z" 1767312000,
    webStream "web-backup-2026-01-03T00:00:00Z.inc-from-backup-2026-01-02T00:00:00Z.zstream"
      "backup-2026-01-03T00:00:00Z" "backup-2026-01-02T00:00:00Z" 1767398400]

theorem clockForwards_keepsChains : KeepsChains listOrder clockForwards { daily := 7 } := by
  have hjail : OneJail clockForwards := ⟨by decide, by decide, by decide, by decide⟩
  refine (keepsChains_iff listOrder { daily := 7 } hjail).mpr ?_
  have horder : ∀ f ∈ clockForwards, ∀ g ∈ clockForwards, f.incFromSuffix ≠ [] →
      g.suffix = f.incFromSuffix → g.unixEpoch < f.unixEpoch := by
    decide
  intro f hf g hg hinc _ hsuffix _
  exact .inl (horder f hf g hg hinc hsuffix)

end Crate.BackupPrunePure
