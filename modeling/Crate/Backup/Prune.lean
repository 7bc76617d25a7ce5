import Crate.Backup.StreamName
import Crate.Foundation.OrdMap
import Crate.Foundation.Sort

/-!
# Which backup streams are kept

`BackupPrunePure::decidePrune`.  The streams are split by jail.  In each jail
the full streams are walked from the newest to the oldest, once for each kind
of bucket, and the first stream of a fresh bucket is kept until the policy's
number of buckets is reached; then the incrementals are walked from the oldest
to the newest and kept when their base is.  Each kind of bucket keeps the newest
full stream of its newest buckets, and the jails do not disturb each other.
-/

namespace Crate.BackupPrunePure

open Crate.Foundation

structure RetentionPolicy where
  hourly : Nat := 0
  daily : Nat := 0
  weekly : Nat := 0
  monthly : Nat := 0

structure PruneDecision where
  keep : List Str := []
  remove : List Str := []
  orphans : List Str := []
  deriving DecidableEq, Repr

/-! ## The code -/

def hourBucket (epoch : Int) : Int := epoch.tdiv 3600

def dayBucket (epoch : Int) : Int := epoch.tdiv 86400

def weekBucket (epoch : Int) : Int := epoch.tdiv (86400 * 7)

def monthBucket (gmtime : Int → Tm) (epoch : Int) : Int :=
  ((gmtime epoch).tm_year + 1900) * 12 + (gmtime epoch).tm_mon

/-- A stream and its index in `files`. -/
abbrev Indexed := StreamFile × Nat

/-- The loop of `bucketKeep`; it is left when `n` buckets have been seen. -/
def bucketWalk (n : Nat) (bucketFn : Int → Int) : List Indexed → Finset Int → Finset Nat
  | [], _ => ∅
  | f :: rest, seen =>
      let key := bucketFn f.1.unixEpoch
      if key ∈ seen then bucketWalk n bucketFn rest seen
      else
        let seen := insert key seen
        insert f.2 (if n ≤ seen.card then ∅ else bucketWalk n bucketFn rest seen)

def bucketKeep (fullsByEpochDesc : List Indexed) (n : Nat) (bucketFn : Int → Int) : Finset Nat :=
  if n = 0 then ∅ else bucketWalk n bucketFn fullsByEpochDesc ∅

def newerFirst (a b : Indexed) : Bool := decide (b.1.unixEpoch < a.1.unixEpoch)

def olderFirst (a b : Indexed) : Bool :=
  if a.1.unixEpoch ≠ b.1.unixEpoch then decide (a.1.unixEpoch < b.1.unixEpoch)
  else decide (a.1.filename < b.1.filename)

/-- `gmtime` and the order `std::sort` gives to equivalent elements are left open. -/
structure Platform where
  gmtime : Int → Tm
  stdSort : StdSort

variable (env : Platform)

def keptFulls (fullsByEpochDesc : List Indexed) (policy : RetentionPolicy) : Finset Nat :=
  bucketKeep fullsByEpochDesc policy.hourly hourBucket ∪
    bucketKeep fullsByEpochDesc policy.daily dayBucket ∪
    bucketKeep fullsByEpochDesc policy.weekly weekBucket ∪
    bucketKeep fullsByEpochDesc policy.monthly (monthBucket env.gmtime)

def walkFulls (kept : Finset Nat) : List Indexed → PruneDecision → PruneDecision
  | [], d => d
  | f :: rest, d =>
      if f.2 ∈ kept then walkFulls kept rest { d with keep := d.keep ++ [f.1.filename] }
      else walkFulls kept rest { d with remove := d.remove ++ [f.1.filename] }

def walkIncrementals (deleteOrphans : Bool) :
    List Indexed → Finset Str → PruneDecision → PruneDecision
  | [], _, d => d
  | f :: rest, keptSuffixes, d =>
      if f.1.incFromSuffix ∈ keptSuffixes then
        walkIncrementals deleteOrphans rest (insert f.1.suffix keptSuffixes)
          { d with keep := d.keep ++ [f.1.filename] }
      else if deleteOrphans then
        walkIncrementals deleteOrphans rest keptSuffixes
          { d with remove := d.remove ++ [f.1.filename] }
      else
        walkIncrementals deleteOrphans rest keptSuffixes
          { d with orphans := d.orphans ++ [f.1.filename] }

def decidePruneOneJail (files : List StreamFile) (policy : RetentionPolicy)
    (deleteOrphans : Bool) : PruneDecision :=
  let dated := files.zipIdx.filter (fun f => f.1.unixEpoch ≠ 0)
  let badEpoch := files.zipIdx.filter (fun f => f.1.unixEpoch = 0)
  let fullsByEpochDesc :=
    env.stdSort.sort newerFirst (dated.filter (fun f => f.1.incFromSuffix = []))
  let incrementals :=
    env.stdSort.sort olderFirst (dated.filter (fun f => f.1.incFromSuffix ≠ []))
  let kept := keptFulls env fullsByEpochDesc policy
  let keptSuffixes := ((files.zipIdx.filter (·.2 ∈ kept)).map (·.1.suffix)).toFinset
  let d := walkFulls kept fullsByEpochDesc {}
  let d := walkIncrementals deleteOrphans incrementals keptSuffixes d
  { d with orphans := d.orphans ++ badEpoch.map (·.1.filename) }

def groupByJail (files : List StreamFile) : OrdMap Str (List StreamFile) :=
  files.foldl (fun byJail f =>
    byJail.insert f.jailName ((byJail.find? f.jailName).getD [] ++ [f])) .empty

/-- `std::sort` of strings, which are equal when neither is less. -/
def sortNames (names : List Str) : List Str :=
  env.stdSort.sort (fun a b => decide (a < b)) names

def decidePrune (files : List StreamFile) (policy : RetentionPolicy) (deleteOrphans : Bool) :
    PruneDecision :=
  let all := (groupByJail files).entries.map
    (fun kv => decidePruneOneJail env kv.2 policy deleteOrphans)
  { keep := sortNames env (all.flatMap (·.keep))
    remove := sortNames env (all.flatMap (·.remove))
    orphans := sortNames env (all.flatMap (·.orphans)) }

variable {env} {policy : RetentionPolicy} {deleteOrphans : Bool} {files : List StreamFile}

/-! ## One kind of bucket -/

section Bucket

variable {bucketFn : Int → Int} {l : List Indexed} {n i : Nat}

/-- `f` is the newest of its bucket, and fewer than `n` buckets hold a newer stream. -/
structure IsPick (fulls : List StreamFile) (bucketFn : Int → Int) (n : Nat) (f : StreamFile) :
    Prop where
  mem : f ∈ fulls
  newest : ∀ g ∈ fulls, bucketFn g.unixEpoch = bucketFn f.unixEpoch → g.unixEpoch ≤ f.unixEpoch
  recent : (((fulls.filter (fun g => f.unixEpoch < g.unixEpoch)).map
    (fun g => bucketFn g.unixEpoch)).toFinset).card < n

/-- The first stream of its bucket, behind streams of fewer than `n` buckets. -/
structure Leads (bucketFn : Int → Int) (n : Nat) (seen : Finset Int) (before : List Indexed)
    (f : Indexed) : Prop where
  fresh : bucketFn f.1.unixEpoch ∉ seen
  first : ∀ g ∈ before, bucketFn g.1.unixEpoch ≠ bucketFn f.1.unixEpoch
  room : (seen ∪ (before.map (fun g => bucketFn g.1.unixEpoch)).toFinset).card < n

theorem mem_bucketWalk_iff {seen : Finset Int} (hseen : seen.card < n) :
    i ∈ bucketWalk n bucketFn l seen ↔
      ∃ before f behind, l = before ++ f :: behind ∧ f.2 = i ∧ Leads bucketFn n seen before f := by
  induction l generalizing seen with
  | nil => simp [bucketWalk]
  | cons a rest ih =>
      -- a stream behind `a` leads with `a` in front of it or with its bucket seen
      have hbehind : ∀ before f, Leads bucketFn n seen (a :: before) f ↔
          Leads bucketFn n (insert (bucketFn a.1.unixEpoch) seen) before f := by
        intro before f
        constructor
        · rintro ⟨hfresh, hfirst, hroom⟩
          refine ⟨?_, fun g hg => hfirst g (List.mem_cons_of_mem a hg), ?_⟩
          · simpa [hfresh] using (hfirst a (by simp)).symm
          · simpa [Finset.insert_union, Finset.union_insert] using hroom
        · rintro ⟨hfresh, hfirst, hroom⟩
          simp only [Finset.mem_insert, not_or] at hfresh
          refine ⟨hfresh.2, ?_, ?_⟩
          · intro g hg
            rcases List.mem_cons.mp hg with rfl | hg
            · exact Ne.symm hfresh.1
            · exact hfirst g hg
          · simpa [Finset.insert_union, Finset.union_insert] using hroom
      have hsplit : (∃ before f behind, a :: rest = before ++ f :: behind ∧ f.2 = i ∧
            Leads bucketFn n seen before f) ↔
          (a.2 = i ∧ Leads bucketFn n seen [] a) ∨
            ∃ before f behind, rest = before ++ f :: behind ∧ f.2 = i ∧
              Leads bucketFn n (insert (bucketFn a.1.unixEpoch) seen) before f := by
        constructor
        · rintro ⟨before, f, behind, hl, hi, hlead⟩
          cases before with
          | nil =>
              obtain ⟨rfl, -⟩ := List.cons.inj hl
              exact .inl ⟨hi, hlead⟩
          | cons b before =>
              obtain ⟨rfl, hrest⟩ := List.cons.inj hl
              exact .inr ⟨before, f, behind, hrest, hi, (hbehind before f).mp hlead⟩
        · rintro (⟨hi, hlead⟩ | ⟨before, f, behind, rfl, hi, hlead⟩)
          · exact ⟨[], a, rest, rfl, hi, hlead⟩
          · exact ⟨a :: before, f, behind, rfl, hi, (hbehind before f).mpr hlead⟩
      rw [hsplit, bucketWalk]
      split
      · rename_i hold
        rw [ih hseen, Finset.insert_eq_of_mem hold]
        refine ⟨.inr, fun h => h.resolve_left fun hhead => hhead.2.fresh hold⟩
      · rename_i hfresh
        have hhead : Leads bucketFn n seen [] a := ⟨hfresh, by simp, by simpa using hseen⟩
        rw [Finset.mem_insert]
        refine or_congr ⟨fun h => ⟨h.symm, hhead⟩, fun h => h.1.symm⟩ ?_
        split
        · rename_i hfull
          simp only [Finset.notMem_empty, false_iff, not_exists, not_and]
          rintro before f behind - - ⟨-, -, hroom⟩
          have hsub : insert (bucketFn a.1.unixEpoch) seen ⊆
              insert (bucketFn a.1.unixEpoch) seen ∪
                (before.map (fun g => bucketFn g.1.unixEpoch)).toFinset :=
            Finset.subset_union_left
          have hle := Finset.card_le_card hsub
          omega
        · rename_i hroom
          exact ih (by omega)

theorem mem_bucketKeep_iff :
    i ∈ bucketKeep l n bucketFn ↔
      ∃ before f behind, l = before ++ f :: behind ∧ f.2 = i ∧ Leads bucketFn n ∅ before f := by
  unfold bucketKeep
  split
  · rename_i hzero
    subst hzero
    simp only [Finset.notMem_empty, false_iff, not_exists, not_and]
    rintro before f behind - - ⟨-, -, hroom⟩
    omega
  · rename_i hpos
    exact mem_bucketWalk_iff (by rw [Finset.card_empty]; omega)

/-- The newest first. -/
def NewestFirst (l : List Indexed) : Prop := l.Pairwise (fun a b => b.1.unixEpoch ≤ a.1.unixEpoch)

theorem NewestFirst.split {before behind : List Indexed} {f : Indexed}
    (h : NewestFirst (before ++ f :: behind)) :
    (∀ g ∈ before, f.1.unixEpoch ≤ g.1.unixEpoch) ∧
      ∀ g ∈ behind, g.1.unixEpoch ≤ f.1.unixEpoch := by
  obtain ⟨-, hright, hcross⟩ := List.pairwise_append.mp h
  exact ⟨fun g hg => hcross g hg f (by simp), fun g hg => List.rel_of_pairwise_cons hright hg⟩

theorem Leads.isPick {before behind : List Indexed} {f : Indexed}
    (hsorted : NewestFirst (before ++ f :: behind)) (h : Leads bucketFn n ∅ before f) :
    IsPick ((before ++ f :: behind).map Prod.fst) bucketFn n f.1 := by
  obtain ⟨-, hbehind⟩ := hsorted.split
  refine ⟨by simp, fun g hg hkey => ?_, ?_⟩
  · obtain ⟨a, ha, rfl⟩ := List.mem_map.mp hg
    rcases List.mem_append.mp ha with hbefore | hrest
    · exact absurd hkey (h.first a hbefore)
    · rcases List.mem_cons.mp hrest with rfl | hin
      · exact le_refl _
      · exact hbehind a hin
  · refine lt_of_le_of_lt (Finset.card_le_card fun key hkey => ?_) h.room
    simp only [List.mem_toFinset, List.mem_map, List.mem_filter, decide_eq_true_eq] at hkey
    obtain ⟨-, ⟨⟨a, ha, rfl⟩, hnewer⟩, rfl⟩ := hkey
    simp only [Finset.empty_union, List.mem_toFinset, List.mem_map]
    rcases List.mem_append.mp ha with hbefore | hrest
    · exact ⟨a, hbefore, rfl⟩
    · rcases List.mem_cons.mp hrest with rfl | hin
      · omega
      · have := hbehind a hin
        omega

theorem IsPick.exists_leads {f : StreamFile} (hsorted : NewestFirst l)
    (h : IsPick (l.map Prod.fst) bucketFn n f) :
    ∃ before g behind, l = before ++ g :: behind ∧ Leads bucketFn n ∅ before g ∧
      g.1.unixEpoch = f.unixEpoch := by
  obtain ⟨a, ha, rfl⟩ := List.mem_map.mp h.mem
  -- the first stream of the bucket is as new as `f`
  obtain ⟨before, hbefore, g, behind, rfl, hg⟩ :
      ∃ before, (∀ b ∈ before, bucketFn b.1.unixEpoch ≠ bucketFn a.1.unixEpoch) ∧
        ∃ g behind, l = before ++ g :: behind ∧
          bucketFn g.1.unixEpoch = bucketFn a.1.unixEpoch := by
    have hfind : (l.find? (fun b => bucketFn b.1.unixEpoch = bucketFn a.1.unixEpoch)).isSome := by
      rw [List.find?_isSome]
      exact ⟨a, ha, by simp⟩
    obtain ⟨g, hg⟩ := Option.isSome_iff_exists.mp hfind
    obtain ⟨hkey, before, behind, hl, hnone⟩ := List.find?_eq_some_iff_append.mp hg
    exact ⟨before, fun b hb => by simpa using hnone b hb, g, behind, hl, by simpa using hkey⟩
  obtain ⟨hahead, hbehind⟩ := hsorted.split
  have hle : a.1.unixEpoch ≤ g.1.unixEpoch := by
    rcases List.mem_append.mp ha with hin | hrest
    · exact absurd rfl (hbefore a hin)
    · rcases List.mem_cons.mp hrest with rfl | hin
      · exact le_refl _
      · exact hbehind a hin
  have hepoch : g.1.unixEpoch = a.1.unixEpoch :=
    le_antisymm (h.newest g.1 (List.mem_map_of_mem (by simp)) hg) hle
  refine ⟨before, g, behind, rfl, ⟨by simp, fun b hb => ?_, ?_⟩, hepoch⟩
  · rw [hg]
    exact hbefore b hb
  · refine lt_of_le_of_lt (Finset.card_le_card fun key hkey => ?_) h.recent
    simp only [Finset.empty_union, List.mem_toFinset, List.mem_map] at hkey
    obtain ⟨b, hb, rfl⟩ := hkey
    have hne : b.1.unixEpoch ≠ a.1.unixEpoch := fun heq => hbefore b hb (by rw [heq])
    have := hahead b hb
    simp only [List.mem_toFinset, List.mem_map, List.mem_filter, decide_eq_true_eq]
    exact ⟨b.1, ⟨⟨b, by simp [hb], rfl⟩, by omega⟩, rfl⟩

theorem eq_of_leads {bucketFn' : Int → Int} {m : Nat} {before behind before' behind' : List Indexed}
    {f g : Indexed} (hl : before ++ f :: behind = before' ++ g :: behind')
    (hf : Leads bucketFn n ∅ before f) (hg : Leads bucketFn' m ∅ before' g)
    (hepoch : f.1.unixEpoch = g.1.unixEpoch) : f = g := by
  rcases List.append_eq_append_iff.mp hl with ⟨between, rfl, hrest⟩ | ⟨between, rfl, hrest⟩
  · cases between with
    | nil => exact (List.cons.inj hrest).1
    | cons a between =>
        obtain ⟨rfl, -⟩ := List.cons.inj hrest
        exact absurd (by rw [hepoch]) (hg.first f (by simp))
  · cases between with
    | nil => exact (List.cons.inj hrest).1.symm
    | cons a between =>
        obtain ⟨rfl, -⟩ := List.cons.inj hrest
        exact absurd (by rw [hepoch]) (hf.first g (by simp))

end Bucket

/-! ## One jail -/

inductive BucketType
  | hourly | daily | weekly | monthly
  deriving DecidableEq, Repr

def BucketType.count (policy : RetentionPolicy) : BucketType → Nat
  | hourly => policy.hourly
  | daily => policy.daily
  | weekly => policy.weekly
  | monthly => policy.monthly

def BucketType.bucket (env : Platform) : BucketType → Int → Int
  | hourly => hourBucket
  | daily => dayBucket
  | weekly => weekBucket
  | monthly => monthBucket env.gmtime

theorem mem_keptFulls_iff {l : List Indexed} {i : Nat} :
    i ∈ keptFulls env l policy ↔
      ∃ type : BucketType, i ∈ bucketKeep l (type.count policy) (type.bucket env) := by
  simp only [keptFulls, Finset.mem_union]
  constructor
  · rintro (((h | h) | h) | h)
    · exact ⟨.hourly, h⟩
    · exact ⟨.daily, h⟩
    · exact ⟨.weekly, h⟩
    · exact ⟨.monthly, h⟩
  · rintro ⟨type, h⟩
    cases type with
    | hourly => exact .inl (.inl (.inl h))
    | daily => exact .inl (.inl (.inr h))
    | weekly => exact .inl (.inr h)
    | monthly => exact .inr h

/-- The incrementals whose base is kept when they are reached, and the others. -/
def basedOn : List Indexed → Finset Str → List Indexed
  | [], _ => []
  | f :: rest, keptSuffixes =>
      if f.1.incFromSuffix ∈ keptSuffixes then
        f :: basedOn rest (insert f.1.suffix keptSuffixes)
      else basedOn rest keptSuffixes

def unbased : List Indexed → Finset Str → List Indexed
  | [], _ => []
  | f :: rest, keptSuffixes =>
      if f.1.incFromSuffix ∈ keptSuffixes then
        unbased rest (insert f.1.suffix keptSuffixes)
      else f :: unbased rest keptSuffixes

theorem basedOn_append_unbased_perm (l : List Indexed) (keptSuffixes : Finset Str) :
    (basedOn l keptSuffixes ++ unbased l keptSuffixes).Perm l := by
  induction l generalizing keptSuffixes with
  | nil => exact .nil
  | cons f rest ih =>
      simp only [basedOn, unbased]
      split
      · exact (ih _).cons f
      · exact List.perm_middle.trans ((ih _).cons f)

def filenames (l : List Indexed) : List Str := l.map (·.1.filename)

theorem walkFulls_eq (kept : Finset Nat) (l : List Indexed) (d : PruneDecision) :
    walkFulls kept l d =
      { d with
        keep := d.keep ++ filenames (l.filter (·.2 ∈ kept))
        remove := d.remove ++ filenames (l.filter (·.2 ∉ kept)) } := by
  induction l generalizing d with
  | nil => simp [walkFulls, filenames]
  | cons f rest ih =>
      simp only [walkFulls]
      split
      · rename_i hkept
        simp [ih, filenames, hkept]
      · rename_i hkept
        simp [ih, filenames, hkept]

theorem walkIncrementals_eq (l : List Indexed) (keptSuffixes : Finset Str) (d : PruneDecision) :
    walkIncrementals deleteOrphans l keptSuffixes d =
      { keep := d.keep ++ filenames (basedOn l keptSuffixes)
        remove := d.remove ++ if deleteOrphans then filenames (unbased l keptSuffixes) else []
        orphans := d.orphans ++
          if deleteOrphans then [] else filenames (unbased l keptSuffixes) } := by
  induction l generalizing keptSuffixes d with
  | nil => simp [walkIncrementals, basedOn, unbased, filenames]
  | cons f rest ih =>
      simp only [walkIncrementals, basedOn, unbased]
      split
      · simp [ih, filenames]
      · cases deleteOrphans <;> simp [ih, filenames]

section OneJail

variable (env) (files)

def datedFulls : List Indexed :=
  (files.zipIdx.filter (fun f => f.1.unixEpoch ≠ 0)).filter (fun f => f.1.incFromSuffix = [])

def datedIncrementals : List Indexed :=
  (files.zipIdx.filter (fun f => f.1.unixEpoch ≠ 0)).filter (fun f => f.1.incFromSuffix ≠ [])

def undated : List Indexed := files.zipIdx.filter (fun f => f.1.unixEpoch = 0)

def sortedFulls : List Indexed := env.stdSort.sort newerFirst (datedFulls files)

def sortedIncrementals : List Indexed := env.stdSort.sort olderFirst (datedIncrementals files)

def keptIndices (policy : RetentionPolicy) : Finset Nat :=
  keptFulls env (sortedFulls env files) policy

def keptFullSuffixes (policy : RetentionPolicy) : Finset Str :=
  ((files.zipIdx.filter (·.2 ∈ keptIndices env files policy)).map (·.1.suffix)).toFinset

/-- The streams of one jail that are kept. -/
def keptStreams (policy : RetentionPolicy) : List Indexed :=
  (sortedFulls env files).filter (·.2 ∈ keptIndices env files policy) ++
    basedOn (sortedIncrementals env files) (keptFullSuffixes env files policy)

def removedStreams (policy : RetentionPolicy) (deleteOrphans : Bool) : List Indexed :=
  (sortedFulls env files).filter (·.2 ∉ keptIndices env files policy) ++
    if deleteOrphans then
      unbased (sortedIncrementals env files) (keptFullSuffixes env files policy)
    else []

def orphanedStreams (policy : RetentionPolicy) (deleteOrphans : Bool) : List Indexed :=
  (if deleteOrphans then []
    else unbased (sortedIncrementals env files) (keptFullSuffixes env files policy)) ++
    undated files

variable {env} {files}

theorem decidePruneOneJail_eq :
    decidePruneOneJail env files policy deleteOrphans =
      { keep := filenames (keptStreams env files policy)
        remove := filenames (removedStreams env files policy deleteOrphans)
        orphans := filenames (orphanedStreams env files policy deleteOrphans) } := by
  simp only [decidePruneOneJail, walkFulls_eq, walkIncrementals_eq, keptStreams, removedStreams,
    orphanedStreams, filenames, List.map_append, List.nil_append, PruneDecision.mk.injEq]
  refine ⟨rfl, ?_, ?_⟩
  · cases deleteOrphans <;> rfl
  · cases deleteOrphans <;> rfl

def streamKey (f : Indexed) : Int ×ₗ Str := toLex (f.1.unixEpoch, f.1.filename)

theorem olderFirst_eq : olderFirst = fun a b => decide (streamKey a < streamKey b) := by
  funext a b
  rw [olderFirst, Bool.eq_iff_iff, decide_eq_true_eq, streamKey, streamKey,
    Prod.Lex.toLex_lt_toLex]
  by_cases h : a.1.unixEpoch = b.1.unixEpoch
  · simp [h]
  · simp [h]

theorem strictWeak_olderFirst : StrictWeak olderFirst := by
  rw [olderFirst_eq]
  exact StrictWeak.of_key streamKey

theorem strictWeak_newerFirst : StrictWeak newerFirst :=
  StrictWeak.of_key (fun f : Indexed => OrderDual.toDual f.1.unixEpoch)

theorem sortedFulls_perm : (sortedFulls env files).Perm (datedFulls files) :=
  env.stdSort.perm strictWeak_newerFirst _

theorem sortedIncrementals_perm : (sortedIncrementals env files).Perm (datedIncrementals files) :=
  env.stdSort.perm strictWeak_olderFirst _

theorem newestFirst_sortedFulls : NewestFirst (sortedFulls env files) := by
  refine (env.stdSort.sorted strictWeak_newerFirst (datedFulls files)).imp fun h => ?_
  simpa [newerFirst] using h

theorem fates_perm (deleteOrphans : Bool) : (keptStreams env files policy ++
    removedStreams env files policy deleteOrphans ++
    orphanedStreams env files policy deleteOrphans).Perm files.zipIdx := by
  have hfulls : ((sortedFulls env files).filter (·.2 ∈ keptIndices env files policy) ++
      (sortedFulls env files).filter (·.2 ∉ keptIndices env files policy)).Perm
        (datedFulls files) := by
    have hperm : (sortedFulls env files).Perm (datedFulls files) := sortedFulls_perm
    refine List.Perm.trans ?_ hperm
    simpa using List.filter_append_perm (fun f : Indexed =>
      decide (f.2 ∈ keptIndices env files policy)) (sortedFulls env files)
  have hincs := (basedOn_append_unbased_perm (sortedIncrementals env files)
    (keptFullSuffixes env files policy)).trans sortedIncrementals_perm
  have hdated : (datedFulls files ++ datedIncrementals files).Perm
      (files.zipIdx.filter (fun f => f.1.unixEpoch ≠ 0)) := by
    simpa [datedFulls, datedIncrementals] using List.filter_append_perm
      (fun f : Indexed => decide (f.1.incFromSuffix = []))
      (files.zipIdx.filter (fun f => f.1.unixEpoch ≠ 0))
  have hall : (files.zipIdx.filter (fun f => f.1.unixEpoch ≠ 0) ++ undated files).Perm
      files.zipIdx := by
    simpa [undated] using List.filter_append_perm
      (fun f : Indexed => decide (f.1.unixEpoch ≠ 0)) files.zipIdx
  have hparts := ((hfulls.append hincs).trans hdated).append_right (undated files) |>.trans hall
  refine List.Perm.trans ?_ hparts
  rw [List.perm_iff_count]
  intro f
  cases deleteOrphans <;> simp [keptStreams, removedStreams, orphanedStreams, List.count_append] <;>
    omega

theorem mem_sortedFulls_iff {f : Indexed} :
    f ∈ sortedFulls env files ↔
      files[f.2]? = some f.1 ∧ f.1.unixEpoch ≠ 0 ∧ f.1.incFromSuffix = [] := by
  rw [sortedFulls_perm.mem_iff]
  simp [datedFulls, List.mem_zipIdx_iff_getElem?]
  tauto

theorem mem_sortedIncrementals_iff {f : Indexed} :
    f ∈ sortedIncrementals env files ↔
      files[f.2]? = some f.1 ∧ f.1.unixEpoch ≠ 0 ∧ f.1.incFromSuffix ≠ [] := by
  rw [sortedIncrementals_perm.mem_iff]
  simp [datedIncrementals, List.mem_zipIdx_iff_getElem?]
  tauto

theorem mem_of_mem_basedOn {l : List Indexed} {keptSuffixes : Finset Str} {f : Indexed}
    (h : f ∈ basedOn l keptSuffixes) : f ∈ l :=
  (basedOn_append_unbased_perm l keptSuffixes).mem_iff.mp (List.mem_append_left _ h)

theorem mem_of_mem_unbased {l : List Indexed} {keptSuffixes : Finset Str} {f : Indexed}
    (h : f ∈ unbased l keptSuffixes) : f ∈ l :=
  (basedOn_append_unbased_perm l keptSuffixes).mem_iff.mp (List.mem_append_right _ h)

theorem full_mem_keptStreams_iff_mem_keptIndices {f : Indexed} (hfull : f.1.incFromSuffix = []) :
    f ∈ keptStreams env files policy ↔
      f ∈ sortedFulls env files ∧ f.2 ∈ keptIndices env files policy := by
  have hnotInc : f ∉ basedOn (sortedIncrementals env files) (keptFullSuffixes env files policy) :=
    fun hin => (mem_sortedIncrementals_iff.mp (mem_of_mem_basedOn hin)).2.2 hfull
  simp [keptStreams, hnotInc]

/-- A full stream is kept when it leads a bucket of some kind. -/
theorem full_mem_keptStreams_iff {f : Indexed} (hfull : f.1.incFromSuffix = []) :
    f ∈ keptStreams env files policy ↔
      ∃ (type : BucketType) (before behind : List Indexed),
        sortedFulls env files = before ++ f :: behind ∧
          Leads (type.bucket env) (type.count policy) ∅ before f := by
  rw [full_mem_keptStreams_iff_mem_keptIndices hfull, keptIndices, mem_keptFulls_iff]
  simp only [mem_bucketKeep_iff]
  constructor
  · rintro ⟨hf, type, before, g, behind, hl, hindex, hlead⟩
    have hg : g ∈ sortedFulls env files := by simp [hl]
    have hsame : g = f := by
      have hfile := (mem_sortedFulls_iff.mp hg).1
      rw [hindex, (mem_sortedFulls_iff.mp hf).1] at hfile
      exact Prod.ext (Option.some.inj hfile).symm hindex
    subst hsame
    exact ⟨type, before, behind, hl, hlead⟩
  · rintro ⟨type, before, behind, hl, hlead⟩
    exact ⟨by simp [hl], type, before, f, behind, hl, rfl, hlead⟩

end OneJail

/-- The full streams of a jail that have a timestamp. -/
def datedFullsOf (files : List StreamFile) (jail : Str) : List StreamFile :=
  files.filter (fun f => f.jailName = jail ∧ f.unixEpoch ≠ 0 ∧ f.incFromSuffix = [])

theorem IsPick.congr {bucketFn : Int → Int} {n : Nat} {l l' : List StreamFile} {f : StreamFile}
    (hmem : ∀ g, g ∈ l ↔ g ∈ l') (h : IsPick l bucketFn n f) : IsPick l' bucketFn n f := by
  refine ⟨(hmem f).mp h.mem, fun g hg => h.newest g ((hmem g).mpr hg), ?_⟩
  have hsame : ((l'.filter (fun g => f.unixEpoch < g.unixEpoch)).map
      (fun g => bucketFn g.unixEpoch)).toFinset =
      ((l.filter (fun g => f.unixEpoch < g.unixEpoch)).map
        (fun g => bucketFn g.unixEpoch)).toFinset := by
    ext key
    simp [hmem]
  rw [hsame]
  exact h.recent

/-! ## The jails -/

def ofJail (files : List StreamFile) (jail : Str) : List StreamFile :=
  files.filter (fun f => f.jailName = jail)

theorem find?_groupByJail (files : List StreamFile) (jail : Str) :
    (groupByJail files).find? jail =
      if ofJail files jail = [] then none else some (ofJail files jail) := by
  induction files using List.reverseRecOn with
  | nil => rfl
  | append_singleton rest f ih =>
      have hstep : groupByJail (rest ++ [f]) = (groupByJail rest).insert f.jailName
          (((groupByJail rest).find? f.jailName).getD [] ++ [f]) := by
        simp [groupByJail]
      rw [hstep, OrdMap.find?_insert]
      by_cases hjail : f.jailName = jail
      · subst hjail
        have hold : ((groupByJail rest).find? f.jailName).getD [] = ofJail rest f.jailName := by
          rw [ih]
          split
          · rename_i hnil
            exact hnil.symm
          · rfl
        simp [hold, ofJail]
      · simp [hjail, ih, ofJail]

theorem mem_groupByJail_iff {jail : Str} {l : List StreamFile} :
    (jail, l) ∈ (groupByJail files).entries ↔ l = ofJail files jail ∧ l ≠ [] := by
  rw [← OrdMap.find?_eq_some_iff, find?_groupByJail]
  split
  · rename_i hnil
    simp only [reduceCtorEq, false_iff, not_and, not_not]
    rintro rfl
    exact hnil
  · rename_i hne
    simp only [Option.some.injEq]
    constructor
    · rintro rfl
      exact ⟨rfl, hne⟩
    · rintro ⟨rfl, -⟩
      rfl

theorem flatMap_groupByJail_perm (hnodup : files.Nodup) :
    ((groupByJail files).entries.flatMap (·.2)).Perm files := by
  refine (List.perm_ext_iff_of_nodup ?_ hnodup).mpr fun f => ?_
  · rw [List.nodup_flatMap]
    constructor
    · rintro ⟨jail, l⟩ hl
      obtain ⟨rfl, -⟩ := mem_groupByJail_iff.mp hl
      exact hnodup.filter _
    · refine (groupByJail files).sorted.imp_of_mem fun {a b} ha hb hlt f hfa hfb => ?_
      obtain ⟨ha, -⟩ := mem_groupByJail_iff.mp ha
      obtain ⟨hb, -⟩ := mem_groupByJail_iff.mp hb
      simp only [ha, hb, ofJail, List.mem_filter, decide_eq_true_eq] at hfa hfb
      rw [← hfa.2, ← hfb.2] at hlt
      exact lt_irrefl _ hlt
  · rw [List.mem_flatMap]
    constructor
    · rintro ⟨⟨jail, l⟩, hl, hf⟩
      obtain ⟨rfl, -⟩ := mem_groupByJail_iff.mp hl
      exact List.mem_of_mem_filter hf
    · intro hf
      have hin : f ∈ ofJail files f.jailName := List.mem_filter.mpr ⟨hf, by simp⟩
      exact ⟨(f.jailName, ofJail files f.jailName),
        mem_groupByJail_iff.mpr ⟨rfl, List.ne_nil_of_mem hin⟩, hin⟩

/-! ## The three lists -/

/-- What can happen to a stream. -/
inductive Fate
  | keep | remove | orphan
  deriving DecidableEq, Repr

def PruneDecision.names (d : PruneDecision) : Fate → List Str
  | .keep => d.keep
  | .remove => d.remove
  | .orphan => d.orphans

theorem sortNames_perm (names : List Str) : (sortNames env names).Perm names :=
  env.stdSort.perm (.of_key_iff id fun _ _ => decide_eq_true_iff) names

theorem names_decidePrune_perm (fate : Fate) :
    ((decidePrune env files policy deleteOrphans).names fate).Perm
      ((groupByJail files).entries.flatMap
        (fun kv => (decidePruneOneJail env kv.2 policy deleteOrphans).names fate)) := by
  cases fate <;>
    simpa [decidePrune, PruneDecision.names, List.flatMap_map] using sortNames_perm _

theorem names_oneJail_perm :
    ((decidePruneOneJail env files policy deleteOrphans).keep ++
        (decidePruneOneJail env files policy deleteOrphans).remove ++
        (decidePruneOneJail env files policy deleteOrphans).orphans).Perm
      (files.map (·.filename)) := by
  have hnames : files.zipIdx.map (·.1.filename) = files.map (·.filename) := by
    have := congrArg (List.map StreamFile.filename) (List.zipIdx_map_fst 0 files)
    rwa [List.map_map] at this
  rw [← hnames, decidePruneOneJail_eq]
  simp only [filenames, ← List.map_append]
  exact (fates_perm deleteOrphans).map _

theorem decidePrune_perm (hnodup : files.Nodup) :
    ((decidePrune env files policy deleteOrphans).keep ++
        (decidePrune env files policy deleteOrphans).remove ++
        (decidePrune env files policy deleteOrphans).orphans).Perm (files.map (·.filename)) := by
  change ((decidePrune env files policy deleteOrphans).names .keep ++
    (decidePrune env files policy deleteOrphans).names .remove ++
    (decidePrune env files policy deleteOrphans).names .orphan).Perm _
  refine (((names_decidePrune_perm .keep).append (names_decidePrune_perm .remove)).append
    (names_decidePrune_perm .orphan)).trans ?_
  refine ((List.flatMap_append_perm _ _ _).append_right _).trans ?_
  refine (List.flatMap_append_perm _ _ _).trans ?_
  refine List.Perm.trans ?_ ((flatMap_groupByJail_perm hnodup).map _)
  rw [List.map_flatMap]
  exact List.Perm.flatMap_left _ fun kv _ => names_oneJail_perm

theorem nodup_decidePrune (env : Platform) (policy : RetentionPolicy) (deleteOrphans : Bool)
    (hnames : (files.map (·.filename)).Nodup) :
    ((decidePrune env files policy deleteOrphans).keep ++
      (decidePrune env files policy deleteOrphans).remove ++
      (decidePrune env files policy deleteOrphans).orphans).Nodup :=
  (decidePrune_perm hnames.of_map).nodup_iff.mpr hnames

theorem eq_of_filename_eq (hnames : (files.map (·.filename)).Nodup) {f g : StreamFile}
    (hf : f ∈ files) (hg : g ∈ files) (h : f.filename = g.filename) : f = g :=
  List.inj_on_of_nodup_map hnames hf hg h

theorem mem_names_oneJail {fate : Fate} {name : Str}
    (h : name ∈ (decidePruneOneJail env files policy deleteOrphans).names fate) :
    ∃ f ∈ files, f.filename = name := by
  have hin : name ∈ (decidePruneOneJail env files policy deleteOrphans).keep ++
      (decidePruneOneJail env files policy deleteOrphans).remove ++
      (decidePruneOneJail env files policy deleteOrphans).orphans := by
    cases fate <;> simp_all [PruneDecision.names]
  exact List.mem_map.mp (names_oneJail_perm.mem_iff.mp hin)

/-- A stream's fate is decided among the streams of its jail. -/
theorem mem_names_iff (hnames : (files.map (·.filename)).Nodup) {f : StreamFile} (hf : f ∈ files)
    (fate : Fate) :
    f.filename ∈ (decidePrune env files policy deleteOrphans).names fate ↔
      f.filename ∈ (decidePruneOneJail env (ofJail files f.jailName) policy
        deleteOrphans).names fate := by
  rw [(names_decidePrune_perm fate).mem_iff, List.mem_flatMap]
  constructor
  · rintro ⟨⟨jail, l⟩, hl, hname⟩
    obtain ⟨rfl, -⟩ := mem_groupByJail_iff.mp hl
    obtain ⟨g, hg, hsame⟩ := mem_names_oneJail hname
    obtain ⟨hgfiles, hgjail⟩ := List.mem_filter.mp hg
    obtain rfl := eq_of_filename_eq hnames hgfiles hf hsame
    simp only [decide_eq_true_eq] at hgjail
    rwa [hgjail]
  · intro hname
    have hin : f ∈ ofJail files f.jailName := List.mem_filter.mpr ⟨hf, by simp⟩
    exact ⟨(f.jailName, _), mem_groupByJail_iff.mpr ⟨rfl, List.ne_nil_of_mem hin⟩, hname⟩

/-! ## The promise -/

theorem mem_sortedFulls_ofJail_iff {jail : Str} {f : StreamFile} :
    f ∈ (sortedFulls env (ofJail files jail)).map Prod.fst ↔ f ∈ datedFullsOf files jail := by
  have hin : (∃ i : Nat, (ofJail files jail)[i]? = some f) ↔ f ∈ ofJail files jail :=
    List.mem_iff_getElem?.symm
  simp only [List.mem_map, Prod.exists, exists_and_right, exists_eq_right, mem_sortedFulls_iff, hin]
  simp [ofJail, datedFullsOf, and_assoc]

def fated (env : Platform) (files : List StreamFile) (policy : RetentionPolicy)
    (deleteOrphans : Bool) : Fate → List Indexed
  | .keep => keptStreams env files policy
  | .remove => removedStreams env files policy deleteOrphans
  | .orphan => orphanedStreams env files policy deleteOrphans

theorem names_oneJail (fate : Fate) :
    (decidePruneOneJail env files policy deleteOrphans).names fate =
      filenames (fated env files policy deleteOrphans fate) := by
  rw [decidePruneOneJail_eq]
  cases fate <;> rfl

theorem mem_of_mem_fated {fate : Fate} {f : Indexed}
    (h : f ∈ fated env files policy deleteOrphans fate) : f.1 ∈ files := by
  have hin : f ∈ files.zipIdx := by
    have hany : f ∈ keptStreams env files policy ++
        removedStreams env files policy deleteOrphans ++
        orphanedStreams env files policy deleteOrphans := by
      cases fate <;> simp_all [fated]
    exact (fates_perm deleteOrphans).mem_iff.mp hany
  exact List.mem_of_getElem? (List.mem_zipIdx_iff_getElem?.mp hin)

theorem mem_names_iff_fated (hnames : (files.map (·.filename)).Nodup) {f : StreamFile}
    (hf : f ∈ files) (fate : Fate) :
    f.filename ∈ (decidePrune env files policy deleteOrphans).names fate ↔
      ∃ i, (f, i) ∈ fated env (ofJail files f.jailName) policy deleteOrphans fate := by
  rw [mem_names_iff hnames hf, names_oneJail]
  simp only [filenames, List.mem_map, Prod.exists]
  constructor
  · rintro ⟨g, i, hg, hname⟩
    have hgfiles : g ∈ files := List.mem_of_mem_filter (mem_of_mem_fated hg)
    obtain rfl := eq_of_filename_eq hnames hgfiles hf hname
    exact ⟨i, hg⟩
  · rintro ⟨i, hi⟩
    exact ⟨f, i, hi, rfl⟩

structure KeepsPromise (env : Platform) (files : List StreamFile) (policy : RetentionPolicy)
    (d : PruneDecision) : Prop where
  perm : (d.keep ++ d.remove ++ d.orphans).Perm (files.map (·.filename))
  disjoint : (d.keep ++ d.remove ++ d.orphans).Nodup
  picks : ∀ (jail : Str) (type : BucketType) (f : StreamFile),
    IsPick (datedFullsOf files jail) (type.bucket env) (type.count policy) f →
      ∃! g, g ∈ datedFullsOf files jail ∧ g.unixEpoch = f.unixEpoch ∧ g.filename ∈ d.keep
  onlyPicks : ∀ f ∈ files, f.incFromSuffix = [] → f.filename ∈ d.keep →
    ∃ type : BucketType,
      IsPick (datedFullsOf files f.jailName) (type.bucket env) (type.count policy) f
  undated : ∀ f ∈ files, f.unixEpoch = 0 → f.filename ∉ d.remove

theorem picks_kept (hnames : (files.map (·.filename)).Nodup) {jail : Str} {type : BucketType}
    {f : StreamFile}
    (h : IsPick (datedFullsOf files jail) (type.bucket env) (type.count policy) f) :
    ∃! g, g ∈ datedFullsOf files jail ∧ g.unixEpoch = f.unixEpoch ∧
      g.filename ∈ (decidePrune env files policy deleteOrphans).keep := by
  have hfulls : ∀ g, g ∈ datedFullsOf files jail ↔
      g ∈ files ∧ g.jailName = jail ∧ g.unixEpoch ≠ 0 ∧ g.incFromSuffix = [] := by
    simp [datedFullsOf]
  have hpick : IsPick ((sortedFulls env (ofJail files jail)).map Prod.fst) (type.bucket env)
      (type.count policy) f := h.congr fun g => mem_sortedFulls_ofJail_iff.symm
  obtain ⟨before, g, behind, hl, hlead, hepoch⟩ := hpick.exists_leads newestFirst_sortedFulls
  have hgsorted : g ∈ sortedFulls env (ofJail files jail) := by simp [hl]
  have hg : g.1 ∈ datedFullsOf files jail :=
    mem_sortedFulls_ofJail_iff.mp (List.mem_map_of_mem hgsorted)
  obtain ⟨hgfiles, rfl, hgdated, hgfull⟩ := (hfulls g.1).mp hg
  have hgkept : g ∈ keptStreams env (ofJail files g.1.jailName) policy :=
    (full_mem_keptStreams_iff hgfull).mpr ⟨type, before, behind, hl, hlead⟩
  refine ⟨g.1, ⟨hg, hepoch, (mem_names_iff_fated hnames hgfiles .keep).mpr ⟨g.2, hgkept⟩⟩, ?_⟩
  rintro g' ⟨hg', hepoch', hkept'⟩
  obtain ⟨hg'files, hjail', -, hfull'⟩ := (hfulls g').mp hg'
  obtain ⟨i, hi⟩ := (mem_names_iff_fated hnames hg'files .keep).mp hkept'
  rw [hjail'] at hi
  obtain ⟨type', before', behind', hl', hlead'⟩ := (full_mem_keptStreams_iff hfull').mp hi
  have hsame := eq_of_leads (hl.symm.trans hl') hlead hlead' (hepoch.trans hepoch'.symm)
  exact (congrArg Prod.fst hsame).symm

theorem isPick_of_kept (hnames : (files.map (·.filename)).Nodup) {f : StreamFile} (hf : f ∈ files)
    (hfull : f.incFromSuffix = [])
    (hkept : f.filename ∈ (decidePrune env files policy deleteOrphans).keep) :
    ∃ type : BucketType,
      IsPick (datedFullsOf files f.jailName) (type.bucket env) (type.count policy) f := by
  obtain ⟨i, hi⟩ := (mem_names_iff_fated hnames hf .keep).mp hkept
  obtain ⟨type, before, behind, hl, hlead⟩ := (full_mem_keptStreams_iff hfull).mp hi
  have hsorted : NewestFirst (before ++ (f, i) :: behind) := hl ▸ newestFirst_sortedFulls
  have hpick := hlead.isPick hsorted
  rw [← hl] at hpick
  exact ⟨type, hpick.congr fun g => mem_sortedFulls_ofJail_iff⟩

theorem undated_not_removed (hnames : (files.map (·.filename)).Nodup) {f : StreamFile}
    (hf : f ∈ files) (hundated : f.unixEpoch = 0) :
    f.filename ∉ (decidePrune env files policy deleteOrphans).remove := by
  intro hremove
  obtain ⟨i, hi⟩ := (mem_names_iff_fated hnames hf .remove).mp hremove
  rcases List.mem_append.mp hi with hfull | hinc
  · exact (mem_sortedFulls_iff.mp (List.mem_of_mem_filter hfull)).2.1 hundated
  · split at hinc
    · exact (mem_sortedIncrementals_iff.mp (mem_of_mem_unbased hinc)).2.1 hundated
    · simp at hinc

theorem prune_keeps_promise (env : Platform) (policy : RetentionPolicy) (deleteOrphans : Bool)
    (hnames : (files.map (·.filename)).Nodup) :
    KeepsPromise env files policy (decidePrune env files policy deleteOrphans) ∧
      ∀ files', (files'.map (·.filename)).Nodup → ∀ jail, ofJail files' jail = ofJail files jail →
        ∀ f ∈ files, f.jailName = jail → ∀ fate,
          (f.filename ∈ (decidePrune env files' policy deleteOrphans).names fate ↔
            f.filename ∈ (decidePrune env files policy deleteOrphans).names fate) := by
  refine ⟨⟨decidePrune_perm hnames.of_map, nodup_decidePrune env policy deleteOrphans hnames,
    ?_, ?_, ?_⟩, ?_⟩
  · intro jail type f h
    exact picks_kept hnames h
  · intro f hf hfull hkept
    exact isPick_of_kept hnames hf hfull hkept
  · intro f hf hundated
    exact undated_not_removed hnames hf hundated
  · rintro files' hnames' jail hsame f hf rfl fate
    have hin : f ∈ ofJail files' f.jailName := by
      rw [hsame]
      exact List.mem_filter.mpr ⟨hf, by simp⟩
    rw [mem_names_iff hnames' (List.mem_of_mem_filter hin), mem_names_iff hnames hf, hsame]

/-- Two jails with three fulls and an incremental. -/
def twoJails : List StreamFile :=
  [{ filename := "a1", jailName := "a", suffix := "s1", unixEpoch := 7200 },
    { filename := "a2", jailName := "a", suffix := "s2", unixEpoch := 100000 },
    { filename := "a3", jailName := "a", suffix := "s3", incFromSuffix := "s2",
      unixEpoch := 100500 },
    { filename := "b1", jailName := "b", suffix := "s4", unixEpoch := 3600 }]

def listOrder : Platform := ⟨fun _ => {}, .insertionSort⟩

theorem prune_keeps_promise_twoJails :
    (twoJails.map (·.filename)).Nodup ∧
      KeepsPromise listOrder twoJails { daily := 1 }
        (decidePrune listOrder twoJails { daily := 1 } false) :=
  ⟨by decide, (prune_keeps_promise listOrder { daily := 1 } false (by decide)).1⟩

/-- A full stream without a timestamp lies in the bucket of the hour 0 and is not kept. -/
def undatedOnly : List StreamFile := [{ filename := "a1", jailName := "a", suffix := "s1" }]

theorem undated_full_not_kept :
    (undatedOnly.map (·.filename)).Nodup ∧
      (∀ f ∈ undatedOnly,
        IsPick (undatedOnly.filter (fun g => g.incFromSuffix = [])) hourBucket 1 f ∧
          f.filename ∉ (decidePrune listOrder undatedOnly { hourly := 1 } false).keep) := by
  refine ⟨by decide, ?_⟩
  intro f hf
  obtain rfl := List.mem_singleton.mp hf
  exact ⟨⟨by decide, by decide, by decide⟩, by decide⟩

end Crate.BackupPrunePure
