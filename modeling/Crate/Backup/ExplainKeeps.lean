import Crate.Backup.Retained

/-!
# Why a stream is kept

`BackupPrunePure::explainKeeps` is a second walk over the full streams: those of all
jails at once, with the buckets seen so far kept for each jail.  It names the full
streams that `decidePrune` keeps.
-/

namespace Crate.BackupPrunePure

open Crate.Foundation

/-! ## The code -/

structure KeepReason where
  fileIndex : Nat
  reason : Str
  deriving DecidableEq, Repr

/-- The streams that open a bucket of their jail, each with the number of buckets then seen. -/
def explainWalk (n : Nat) (bucketFn : Int → Int) :
    List Indexed → OrdMap Str (Finset Int) → List (Indexed × Nat)
  | [], _ => []
  | f :: rest, seen =>
      let js := (seen.find? f.1.jailName).getD ∅
      -- the look-up enters the jail
      let seen := seen.insert f.1.jailName js
      if n ≤ js.card then explainWalk n bucketFn rest seen
      else
        let key := bucketFn f.1.unixEpoch
        if key ∈ js then explainWalk n bucketFn rest seen
        else
          let js := insert key js
          (f, js.card) :: explainWalk n bucketFn rest (seen.insert f.1.jailName js)

def explainBucket (fullsByEpochDesc : List Indexed) (name : Str) (n : Nat)
    (bucketFn : Int → Int) : List KeepReason :=
  if n = 0 then []
  else (explainWalk n bucketFn fullsByEpochDesc .empty).map
    (fun e => ⟨e.1.2, name ++ ":" ++ decimal e.2⟩)

def explainKeeps (env : Platform) (files : List StreamFile) (policy : RetentionPolicy) :
    List KeepReason :=
  let fullsByEpochDesc := env.stdSort.sort newerFirst
    (files.zipIdx.filter (fun f => f.1.unixEpoch ≠ 0 ∧ f.1.incFromSuffix = []))
  explainBucket fullsByEpochDesc "hourly" policy.hourly hourBucket ++
    explainBucket fullsByEpochDesc "daily" policy.daily dayBucket ++
    explainBucket fullsByEpochDesc "weekly" policy.weekly weekBucket ++
    explainBucket fullsByEpochDesc "monthly" policy.monthly (monthBucket env.gmtime)

/-! ## One walk for all jails -/

variable {env : Platform} {policy : RetentionPolicy} {deleteOrphans : Bool}
  {files : List StreamFile} {f : StreamFile} {n i : Nat} {bucketFn : Int → Int}
  {l : List Indexed} {seen : OrdMap Str (Finset Int)} {jail : Str}

/-- What `bucketKeep` still keeps when the buckets `seen` have been seen. -/
def keptFrom (n : Nat) (bucketFn : Int → Int) (l : List Indexed) (seen : Finset Int) :
    Finset Nat :=
  if n ≤ seen.card then ∅ else bucketWalk n bucketFn l seen

theorem bucketKeep_eq_keptFrom : bucketKeep l n bucketFn = keptFrom n bucketFn l ∅ := by
  simp [bucketKeep, keptFrom]

theorem keptFrom_cons (a : Indexed) (seen : Finset Int) :
    keptFrom n bucketFn (a :: l) seen =
      if seen.card < n ∧ bucketFn a.1.unixEpoch ∉ seen then
        insert a.2 (keptFrom n bucketFn l (insert (bucketFn a.1.unixEpoch) seen))
      else keptFrom n bucketFn l seen := by
  unfold keptFrom
  by_cases hroom : n ≤ seen.card
  · simp [hroom]
  · by_cases hold : bucketFn a.1.unixEpoch ∈ seen
    · simp [hroom, hold, bucketWalk]
    · simp [hroom, hold, bucketWalk, not_le.mp hroom]

def seenOf (seen : OrdMap Str (Finset Int)) (jail : Str) : Finset Int :=
  (seen.find? jail).getD ∅

theorem seenOf_insert (seen : OrdMap Str (Finset Int)) (jail : Str) (js : Finset Int) :
    seenOf (seen.insert jail js) = Function.update (seenOf seen) jail js := by
  funext jail'
  rw [seenOf, OrdMap.find?_insert, Function.update_apply]
  split
  · rename_i hsame
    rw [if_pos hsame.symm]
    rfl
  · rename_i hother
    rw [if_neg (Ne.symm hother)]
    rfl

/-- The stream opens a bucket, for which there is room. -/
def Opens (n : Nat) (bucketFn : Int → Int) (seen : OrdMap Str (Finset Int)) (a : Indexed) : Prop :=
  (seenOf seen a.1.jailName).card < n ∧ bucketFn a.1.unixEpoch ∉ seenOf seen a.1.jailName

theorem seenOf_look_up (seen : OrdMap Str (Finset Int)) (jail : Str) :
    seenOf (seen.insert jail (seenOf seen jail)) = seenOf seen := by
  rw [seenOf_insert]
  exact Function.update_eq_self _ _

theorem explainWalk_of_opens {a : Indexed} (h : Opens n bucketFn seen a) (l : List Indexed) :
    ∃ seen' number, explainWalk n bucketFn (a :: l) seen =
        (a, number) :: explainWalk n bucketFn l seen' ∧
      seenOf seen' = Function.update (seenOf seen) a.1.jailName
        (insert (bucketFn a.1.unixEpoch) (seenOf seen a.1.jailName)) := by
  have hjs : (seen.find? a.1.jailName).getD ∅ = seenOf seen a.1.jailName := rfl
  rw [explainWalk]
  dsimp only
  rw [hjs, if_neg (not_le.mpr h.1), if_neg h.2]
  refine ⟨_, _, rfl, ?_⟩
  rw [seenOf_insert, seenOf_look_up]

theorem explainWalk_of_not_opens {a : Indexed} (h : ¬Opens n bucketFn seen a)
    (l : List Indexed) :
    ∃ seen', explainWalk n bucketFn (a :: l) seen = explainWalk n bucketFn l seen' ∧
      seenOf seen' = seenOf seen := by
  have hjs : (seen.find? a.1.jailName).getD ∅ = seenOf seen a.1.jailName := rfl
  refine ⟨seen.insert a.1.jailName (seenOf seen a.1.jailName), ?_, seenOf_look_up seen _⟩
  rw [explainWalk]
  dsimp only
  rw [hjs]
  split
  · rfl
  · rename_i hroom
    rw [if_pos]
    by_contra hnew
    exact h ⟨not_le.mp hroom, hnew⟩

/-- The streams of one jail among those of all jails. -/
def indexedOfJail (l : List Indexed) (jail : Str) : List Indexed :=
  l.filter (fun f => f.1.jailName = jail)

/-- For every jail the walk finds what `bucketKeep` keeps of that jail. -/
theorem mem_explainWalk_iff :
    (∃ e ∈ explainWalk n bucketFn l seen, e.1.1.jailName = jail ∧ e.1.2 = i) ↔
      i ∈ keptFrom n bucketFn (indexedOfJail l jail) (seenOf seen jail) := by
  induction l generalizing seen with
  | nil => simp [explainWalk, indexedOfJail, keptFrom, bucketWalk]
  | cons a rest ih =>
      by_cases hopens : Opens n bucketFn seen a
      · obtain ⟨seen', number, hwalk, hseen⟩ := explainWalk_of_opens hopens rest
        rw [hwalk, List.exists_mem_cons_iff, ih, hseen]
        by_cases hjail : a.1.jailName = jail
        · subst hjail
          simp only [indexedOfJail, List.filter_cons, decide_true, if_true, true_and,
            Function.update_self]
          rw [keptFrom_cons, if_pos (show _ ∧ _ from hopens), Finset.mem_insert, eq_comm]
        · simp [indexedOfJail, hjail, Function.update_of_ne (Ne.symm hjail)]
      · obtain ⟨seen', hwalk, hseen⟩ := explainWalk_of_not_opens hopens rest
        rw [hwalk, ih, hseen]
        by_cases hjail : a.1.jailName = jail
        · subst hjail
          simp only [indexedOfJail, List.filter_cons, decide_true, if_true]
          rw [keptFrom_cons, if_neg (show ¬(_ ∧ _) from hopens)]
        · simp [indexedOfJail, hjail]

theorem mem_of_mem_explainWalk {e : Indexed × Nat} (h : e ∈ explainWalk n bucketFn l seen) :
    e.1 ∈ l := by
  induction l generalizing seen with
  | nil => simp [explainWalk] at h
  | cons a rest ih =>
      by_cases hopens : Opens n bucketFn seen a
      · obtain ⟨seen', number, hwalk, -⟩ := explainWalk_of_opens hopens rest
        rw [hwalk] at h
        rcases List.mem_cons.mp h with rfl | h
        · exact List.mem_cons_self
        · exact List.mem_cons_of_mem a (ih h)
      · obtain ⟨seen', hwalk, -⟩ := explainWalk_of_not_opens hopens rest
        rw [hwalk] at h
        exact List.mem_cons_of_mem a (ih h)

/-! ## The same streams as those that are kept -/

/-- The file that a reason is about. -/
def Names (files : List StreamFile) (reasons : List KeepReason) (f : StreamFile) : Prop :=
  ∃ kr ∈ reasons, files[kr.fileIndex]? = some f

theorem names_append {reasons reasons' : List KeepReason} :
    Names files (reasons ++ reasons') f ↔ Names files reasons f ∨ Names files reasons' f := by
  simp only [Names, List.mem_append, or_and_right, exists_or]

theorem sort_fulls_eq : env.stdSort.sort newerFirst
      (files.zipIdx.filter (fun f => f.1.unixEpoch ≠ 0 ∧ f.1.incFromSuffix = [])) =
    sortedFulls env files := by
  rw [sortedFulls, datedFulls, List.filter_filter]
  congr 2
  funext f
  rw [Bool.decide_and, Bool.and_comm]

theorem names_explainBucket_iff {name : Str} :
    Names files (explainBucket (sortedFulls env files) name n bucketFn) f ↔
      ∃ i, files[i]? = some f ∧
        i ∈ bucketKeep (indexedOfJail (sortedFulls env files) f.jailName) n bucketFn := by
  by_cases hzero : n = 0
  · simp [Names, explainBucket, bucketKeep, hzero]
  · have hempty : seenOf .empty f.jailName = ∅ := rfl
    simp only [Names, explainBucket, if_neg hzero, List.mem_map, bucketKeep_eq_keptFrom,
      ← hempty, ← mem_explainWalk_iff]
    constructor
    · rintro ⟨-, ⟨e, he, rfl⟩, hfile⟩
      have hsame := (mem_sortedFulls_iff.mp (mem_of_mem_explainWalk he)).1
      rw [hfile] at hsame
      exact ⟨e.1.2, hfile, e, he, congrArg StreamFile.jailName (Option.some.inj hsame).symm, rfl⟩
    · rintro ⟨i, hfile, e, he, -, rfl⟩
      exact ⟨_, ⟨e, he, rfl⟩, hfile⟩

theorem mem_indexedOfJail_iff :
    f ∈ (indexedOfJail (sortedFulls env files) jail).map Prod.fst ↔
      f ∈ datedFullsOf files jail := by
  simp only [indexedOfJail, List.mem_map, List.mem_filter, mem_sortedFulls_iff, decide_eq_true_eq,
    mem_datedFullsOf_iff]
  constructor
  · rintro ⟨g, ⟨⟨hfile, hdated, hfull⟩, hjail⟩, rfl⟩
    exact ⟨List.mem_of_getElem? hfile, hjail, hdated, hfull⟩
  · rintro ⟨hf, hjail, hdated, hfull⟩
    obtain ⟨i, hi⟩ := List.mem_iff_getElem?.mp hf
    exact ⟨(f, i), ⟨⟨hi, hdated, hfull⟩, hjail⟩, rfl⟩

theorem newestFirst_indexedOfJail (env : Platform) (files : List StreamFile) (jail : Str) :
    NewestFirst (indexedOfJail (sortedFulls env files) jail) :=
  newestFirst_sortedFulls.filter _

theorem mem_bucketKeep_iff_isPick (h : Apart files) :
    (∃ i, files[i]? = some f ∧
        i ∈ bucketKeep (indexedOfJail (sortedFulls env files) f.jailName) n bucketFn) ↔
      IsPick (datedFullsOf files f.jailName) bucketFn n f := by
  simp only [mem_bucketKeep_iff]
  constructor
  · rintro ⟨i, hfile, before, g, behind, hl, rfl, hlead⟩
    have hsorted := newestFirst_indexedOfJail env files f.jailName
    have hg : g ∈ indexedOfJail (sortedFulls env files) f.jailName := by simp [hl]
    have hsame := (mem_sortedFulls_iff.mp (List.mem_of_mem_filter hg)).1
    rw [hfile] at hsame
    obtain rfl := Option.some.inj hsame
    rw [hl] at hsorted
    have hpick := hlead.isPick hsorted
    rw [← hl] at hpick
    exact hpick.congr fun g => mem_indexedOfJail_iff
  · intro hpick
    obtain ⟨before, g, behind, hl, hlead, hepoch⟩ :=
      (hpick.congr fun g => mem_indexedOfJail_iff.symm).exists_leads
        (newestFirst_indexedOfJail env files f.jailName)
    have hg : g ∈ indexedOfJail (sortedFulls env files) f.jailName := by simp [hl]
    obtain ⟨hgfiles, hgjail, hgdated, -⟩ :=
      mem_datedFullsOf_iff.mp (mem_indexedOfJail_iff.mp (List.mem_map_of_mem hg))
    have hf := (mem_datedFullsOf_iff.mp hpick.mem).1
    obtain rfl := h.epochs g.1 hgfiles f hf hgjail hgdated hepoch
    exact ⟨g.2, (mem_sortedFulls_iff.mp (List.mem_of_mem_filter hg)).1, before, g, behind, hl, rfl,
      hlead⟩

theorem names_explainKeeps_iff (h : Apart files) :
    Names files (explainKeeps env files policy) f ↔
      ∃ type : BucketType,
        IsPick (datedFullsOf files f.jailName) (type.bucket env) (type.count policy) f := by
  simp only [explainKeeps, sort_fulls_eq, names_append, names_explainBucket_iff,
    mem_bucketKeep_iff_isPick h]
  constructor
  · rintro (((hpick | hpick) | hpick) | hpick)
    · exact ⟨.hourly, hpick⟩
    · exact ⟨.daily, hpick⟩
    · exact ⟨.weekly, hpick⟩
    · exact ⟨.monthly, hpick⟩
  · rintro ⟨type, hpick⟩
    cases type with
    | hourly => exact .inl (.inl (.inl hpick))
    | daily => exact .inl (.inl (.inr hpick))
    | weekly => exact .inl (.inr hpick)
    | monthly => exact .inr hpick

theorem names_explainKeeps_iff_kept (h : Apart files) :
    Names files (explainKeeps env files policy) f ↔
      f ∈ files ∧ f.incFromSuffix = [] ∧
        f.filename ∈ (decidePrune env files policy deleteOrphans).keep := by
  rw [names_explainKeeps_iff h]
  constructor
  · rintro ⟨type, hpick⟩
    obtain ⟨hf, -, -, hfull⟩ := mem_datedFullsOf_iff.mp hpick.mem
    exact ⟨hf, hfull, kept_of_retained h (.full type hpick)⟩
  · rintro ⟨hf, hfull, hkept⟩
    exact isPick_of_kept h.names hf hfull hkept

/-- A run leaves nothing to do, sees no order, and is explained by the second walk. -/
theorem prune_settles (env : Platform) (policy : RetentionPolicy) (deleteOrphans : Bool)
    (h : Apart files) :
    decidePrune env (survivorsOf files (decidePrune env files policy deleteOrphans)) policy
        deleteOrphans = { decidePrune env files policy deleteOrphans with remove := [] } ∧
      (∀ files', files.Perm files' →
        decidePrune env files policy deleteOrphans =
          decidePrune env files' policy deleteOrphans) ∧
      ∀ f, Names files (explainKeeps env files policy) f ↔
        f ∈ files ∧ f.incFromSuffix = [] ∧
          f.filename ∈ (decidePrune env files policy deleteOrphans).keep := by
  refine ⟨decidePrune_again h, ?_, ?_⟩
  · intro files' hperm
    exact decidePrune_eq_of_perm h hperm
  · intro f
    exact names_explainKeeps_iff_kept h

theorem twoJails_settle :
    Apart twoJails ∧
      decidePrune listOrder (survivorsOf twoJails
          (decidePrune listOrder twoJails { daily := 1 } true)) { daily := 1 } true =
        { decidePrune listOrder twoJails { daily := 1 } true with remove := [] } :=
  have h : Apart twoJails := ⟨by decide, by decide⟩
  ⟨h, (prune_settles listOrder { daily := 1 } true h).1⟩

end Crate.BackupPrunePure
