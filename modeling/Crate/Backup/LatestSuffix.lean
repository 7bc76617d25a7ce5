import Crate.Backup.StreamName
import Crate.Foundation.CalendarOrder

/-!
# The base of an incremental stream

The base is picked from a listing of snapshots by comparing suffixes as texts.
The suffixes of one family are timestamps of a fixed width, so the greatest
suffix is the newest one; the names of other datasets and families, which may
stand in the listing too, do not count.
-/

namespace Crate.ZfsDatasetPure

open Crate.Foundation
open Crate.BackupPure (isoTime snapshotSuffixWithPrefix)

/-! ## The source -/

/-- `line.back() == '\r' || line.back() == ' ' || line.back() == '\t'`. -/
def isTrailing (c : Char) : Bool := c = '\r' || c = ' ' || c = '\t'

/-- `head`. -/
def lineHead (dataset family : Str) : Str := dataset ++ "@" ++ family

/-- The suffix of one line, if the line is counted. -/
def suffixOf (dataset family line : Str) : Option Str :=
  let head := lineHead dataset family
  let line := line.rdropWhile isTrailing
  if line.isEmpty || line.head? = some '#' then none
  else if line.take head.length ≠ head then none
  else
    let suffix := line.drop (dataset.length + 1)
    if suffix.length ≤ family.length then none
    else if suffix.contains '/' || suffix.contains '@' then none
    else some suffix

-- The line `std::getline` does not deliver behind the last line break is empty and skipped.
def snapshotSuffixes (zfsListOutput dataset family : Str) : List Str :=
  if dataset.isEmpty then []
  else (zfsListOutput.splitOn '\n').filterMap (suffixOf dataset family)

def pickLatestSuffix (zfsListOutput dataset family : Str) : Str :=
  (snapshotSuffixes zfsListOutput dataset family).foldl (fun out s => if out < s then s else out) []

structure Best where
  best : Str := []
  bestBody : Str := []

/-- The body of the inner loop of `pickLatestCommonSuffix`. -/
def takeCommon (family : Str) (remote : List Str) (acc : Best) (s : Str) : Best :=
  if !remote.contains s then acc
  else
    let body := s.drop family.length
    if acc.bestBody < body then { best := s, bestBody := body } else acc

def pickLatestCommonSuffix (localOut localDataset remoteOut remoteDataset : Str)
    (families : List Str) : Str :=
  (families.foldl (fun (acc : Best) (family : Str) =>
    if family.isEmpty then acc
    else (snapshotSuffixes localOut localDataset family).foldl
      (takeCommon family (snapshotSuffixes remoteOut remoteDataset family)) acc) {}).best

/-! ## The order of timestamps -/

def HasFourDigitYear (t : Int) : Prop :=
  1000 ≤ (utcTimeAt t).tm_year + 1900 ∧ (utcTimeAt t).tm_year + 1900 ≤ 9999

instance (t : Int) : Decidable (HasFourDigitYear t) := inferInstanceAs (Decidable (_ ∧ _))

/-- `gmtime_r` fills in the UTC calendar. -/
def IsGmtime (gmtime : Int → Tm) : Prop := ∀ t, HasFourDigitYear t → gmtime t = utcTimeAt t

theorem isoTime_utcTimeAt {t : Int} (hnonneg : 0 ≤ (dateAt (t / 86400)).year) :
    isoTime (utcTimeAt t) = padded 4 ((dateAt (t / 86400)).year.toNat : Nat) ++ '-' ::
      (padded 2 ((dateAt (t / 86400)).month : Nat) ++ '-' ::
        (padded 2 ((dateAt (t / 86400)).day : Nat) ++ 'T' ::
          (padded 2 ((t % 86400 / 3600).toNat : Nat) ++ ':' ::
            (padded 2 ((t % 3600 / 60).toNat : Nat) ++ ':' ::
              (padded 2 ((t % 60).toNat : Nat) ++ ['Z']))))) := by
  have hyear : (dateAt (t / 86400)).year - 1900 + 1900 =
      ((dateAt (t / 86400)).year.toNat : Int) := by
    omega
  have hmonth : ((dateAt (t / 86400)).month : Int) - 1 + 1 = (dateAt (t / 86400)).month := by omega
  have hhour : t % 86400 / 3600 = ((t % 86400 / 3600).toNat : Int) := by omega
  have hminute : t % 3600 / 60 = ((t % 3600 / 60).toNat : Int) := by omega
  have hsecond : t % 60 = ((t % 60).toNat : Int) := by omega
  simp only [isoTime, utcTimeAt, hyear, hmonth]
  rw [hhour, hminute, hsecond]
  simp

theorem isoTime_lt {t u : Int} (ht : HasFourDigitYear t) (hu : HasFourDigitYear u) (h : t < u) :
    isoTime (utcTimeAt t) < isoTime (utcTimeAt u) := by
  have hvalid := valid_dateAt (u / 86400)
  have hmonth := hvalid.month_le
  have hday := hvalid.day_le.trans (monthLength_le _ _)
  simp only [HasFourDigitYear, utcTimeAt] at ht hu
  rw [isoTime_utcTimeAt (by omega), isoTime_utcTimeAt (by omega)]
  apply padded_append_lt (by decide) (by omega)
  have hdayLe : t / 86400 ≤ u / 86400 := Int.ediv_le_ediv (by decide) h.le
  rcases lt_or_eq_of_le hdayLe with hdate | hdate
  · -- the dates differ
    rcases Date.key_lt_iff.mp (strictMono_key_dateAt hdate) with hyear | ⟨hyear, hrest⟩
    · exact .inl (by omega)
    · refine .inr ⟨by rw [hyear], ?_⟩
      apply padded_append_lt (by decide) (by omega)
      rcases hrest with hmonth | ⟨hmonth, hday⟩
      · exact .inl hmonth
      · refine .inr ⟨hmonth, ?_⟩
        apply padded_append_lt (by decide) (by omega)
        exact .inl hday
  · rw [hdate]
    refine .inr ⟨rfl, ?_⟩
    apply padded_append_lt (by decide) (by omega)
    refine .inr ⟨rfl, ?_⟩
    apply padded_append_lt (by decide) (by omega)
    refine .inr ⟨rfl, ?_⟩
    have htime : t % 86400 < u % 86400 := by omega
    apply padded_append_lt (by decide) (by omega)
    by_cases hhour : (t % 86400 / 3600).toNat = (u % 86400 / 3600).toNat
    · refine .inr ⟨hhour, ?_⟩
      apply padded_append_lt (by decide) (by omega)
      by_cases hminute : (t % 3600 / 60).toNat = (u % 3600 / 60).toNat
      · refine .inr ⟨hminute, ?_⟩
        apply append_lt_append
        · rw [length_padded (by decide) (by omega), length_padded (by decide) (by omega)]
        · exact padded_lt_padded (by decide) (by omega) (by omega)
      · exact .inl (by omega)
    · exact .inl (by omega)

theorem isoTime_lt_iff {t u : Int} (ht : HasFourDigitYear t) (hu : HasFourDigitYear u) :
    isoTime (utcTimeAt t) < isoTime (utcTimeAt u) ↔ t < u := by
  refine ⟨fun h => ?_, isoTime_lt ht hu⟩
  by_contra hnot
  rcases eq_or_lt_of_le (not_lt.mp hnot) with rfl | hlt
  · exact lt_irrefl _ h
  · exact lt_asymm h (isoTime_lt hu ht hlt)

/-! ## The names of a listing -/

/-- The name of a snapshot: the dataset, `@` and the suffix. -/
structure SnapshotName where
  dataset : Str
  suffix : Str
  dataset_ne : dataset ≠ []
  comment : dataset.head? ≠ some '#'
  dataset_at : '@' ∉ dataset
  dataset_line : '
' ∉ dataset
  suffix_at : '@' ∉ suffix
  suffix_slash : '/' ∉ suffix
  suffix_line : '
' ∉ suffix

namespace SnapshotName

def text (n : SnapshotName) : Str := n.dataset ++ '@' :: n.suffix

/-- The snapshot belongs to the dataset and to the family. -/
def Of (n : SnapshotName) (dataset family : Str) : Prop := n.dataset = dataset ∧ family <+: n.suffix

instance (n : SnapshotName) (dataset family : Str) : Decidable (n.Of dataset family) :=
  inferInstanceAs (Decidable (_ ∧ _))

end SnapshotName

/-- What `zfs list -H -t snapshot -o name` prints. -/
def listing (names : List SnapshotName) : Str := names.flatMap (fun n => n.text ++ ['
'])

/-- Every snapshot of the family was named after a time. -/
def Stamped (gmtime : Int → Tm) (names : List SnapshotName) (dataset family : Str) : Prop :=
  ∀ n ∈ names, n.Of dataset family →
    ∃ t, HasFourDigitYear t ∧ n.suffix = snapshotSuffixWithPrefix gmtime family t

def Holds (names : List SnapshotName) (dataset suffix : Str) : Prop :=
  ∃ n ∈ names, n.dataset = dataset ∧ n.suffix = suffix

theorem SnapshotName.of_of_prefix {n : SnapshotName} {dataset family : Str}
    (h : lineHead dataset family <+: n.text) : n.Of dataset family := by
  obtain ⟨rest, hrest⟩ := h
  have hsplit : n.dataset ++ '@' :: n.suffix = dataset ++ '@' :: (family ++ rest) := by
    rw [← text, ← hrest]
    simp [lineHead]
  obtain ⟨hdataset, -, hsuffix⟩ :=
    (List.append_cons_inj_of_notMem n.dataset_at n.suffix_at).mp hsplit
  exact ⟨hdataset, ⟨rest, hsuffix.symm⟩⟩

theorem suffixOf_of_not {n : SnapshotName} {dataset family : Str} (h : ¬n.Of dataset family) :
    suffixOf dataset family n.text = none := by
  have hhead : (n.text.rdropWhile isTrailing).take (lineHead dataset family).length ≠
      lineHead dataset family := by
    intro htake
    have hlead : lineHead dataset family <+: n.text.rdropWhile isTrailing :=
      List.prefix_iff_eq_take.mpr htake.symm
    exact h (SnapshotName.of_of_prefix (hlead.trans (List.rdropWhile_prefix _ _)))
  unfold suffixOf
  dsimp only
  rw [if_pos hhead, ite_self]

theorem suffixOf_of_stamped {n : SnapshotName} {family stamp : Str} (hstamp : stamp ≠ [])
    (hlast : ∀ hne : stamp ≠ [], isTrailing (stamp.getLast hne) = false)
    (hsuffix : n.suffix = family ++ stamp) :
    suffixOf n.dataset family n.text = some n.suffix := by
  have htext : n.text = lineHead n.dataset family ++ stamp := by
    rw [SnapshotName.text, hsuffix]
    simp [lineHead]
  have htrim : n.text.rdropWhile isTrailing = n.text := by
    rw [List.rdropWhile_eq_self_iff]
    intro hne
    simp only [htext, List.getLast_append_right hstamp, hlast hstamp]
    exact Bool.false_ne_true
  have hfirst : n.text.head? = n.dataset.head? := by
    rw [SnapshotName.text, List.head?_append_of_ne_nil _ n.dataset_ne]
  have hne : n.text.isEmpty = false := by
    rw [SnapshotName.text]
    simp
  have htake : n.text.take (lineHead n.dataset family).length = lineHead n.dataset family := by
    rw [htext, List.take_left]
  have hdrop : n.text.drop (n.dataset.length + 1) = n.suffix := by
    rw [SnapshotName.text]
    simp
  have hpos := List.length_pos_of_ne_nil hstamp
  unfold suffixOf
  dsimp only
  rw [htrim, hne, hfirst, htake, hdrop, if_neg (by simpa using n.comment), if_neg (by simp),
    if_neg (by rw [hsuffix, List.length_append]; omega),
    if_neg (by simpa using ⟨n.suffix_slash, n.suffix_at⟩)]

theorem splitOn_listing (names : List SnapshotName) :
    (listing names).splitOn '
' = names.map SnapshotName.text ++ [[]] := by
  apply splitOn_flatMap_snoc
  intro n _ hmem
  rcases List.mem_append.mp hmem with h | h
  · exact n.dataset_line h
  · rcases List.mem_cons.mp h with h | h
    · cases h
    · exact n.suffix_line h

theorem snapshotSuffixes_listing (names : List SnapshotName) (dataset family : Str) :
    snapshotSuffixes (listing names) dataset family =
      names.filterMap (fun n => suffixOf dataset family n.text) := by
  unfold snapshotSuffixes
  split
  · rename_i hempty
    rw [eq_comm, List.filterMap_eq_nil_iff]
    intro n _
    apply suffixOf_of_not
    rintro ⟨hdataset, -⟩
    exact n.dataset_ne (hdataset.trans (List.isEmpty_iff.mp hempty))
  · rw [splitOn_listing, List.filterMap_append, List.filterMap_map]
    simp [suffixOf, Function.comp_def]

/-- The names of other datasets and families do not count. -/
theorem snapshotSuffixes_filter {keep : SnapshotName → Bool} {dataset family : Str}
    (hkeep : ∀ n, n.Of dataset family → keep n = true) (names : List SnapshotName) :
    snapshotSuffixes (listing (names.filter keep)) dataset family =
      snapshotSuffixes (listing names) dataset family := by
  rw [snapshotSuffixes_listing, snapshotSuffixes_listing, List.filterMap_filter]
  apply List.filterMap_congr
  intro n _
  cases hk : keep n with
  | true => rfl
  | false =>
      have hnot : ¬n.Of dataset family := by
        intro hof
        rw [hkeep n hof] at hk
        cases hk
      rw [suffixOf_of_not hnot]
      rfl

theorem isoTime_ne_nil (tm : Tm) : isoTime tm ≠ [] := by
  simp [isoTime]

theorem getLast_isoTime (tm : Tm) (hne : isoTime tm ≠ []) : (isoTime tm).getLast hne = 'Z' := by
  simp [isoTime]

theorem mem_snapshotSuffixes {gmtime : Int → Tm} {names : List SnapshotName} {dataset family s : Str}
    (hstamped : Stamped gmtime names dataset family) :
    s ∈ snapshotSuffixes (listing names) dataset family ↔
      Holds names dataset s ∧ family <+: s := by
  rw [snapshotSuffixes_listing, List.mem_filterMap]
  constructor
  · rintro ⟨n, hn, hsome⟩
    by_cases hof : n.Of dataset family
    · obtain ⟨t, -, hsuffix⟩ := hstamped n hn hof
      obtain ⟨rfl, hfamily⟩ := hof
      rw [suffixOf_of_stamped (isoTime_ne_nil _)
        (fun hne => by rw [getLast_isoTime]; rfl) hsuffix] at hsome
      cases hsome
      exact ⟨⟨n, hn, rfl, rfl⟩, hfamily⟩
    · rw [suffixOf_of_not hof] at hsome
      cases hsome
  · rintro ⟨⟨n, hn, rfl, rfl⟩, hfamily⟩
    obtain ⟨t, -, hsuffix⟩ := hstamped n hn ⟨rfl, hfamily⟩
    exact ⟨n, hn, suffixOf_of_stamped (isoTime_ne_nil _)
      (fun hne => by rw [getLast_isoTime]; rfl) hsuffix⟩

/-! ## The newest suffix -/

theorem not_le_nil_of_ne {s : Str} (hne : s ≠ []) : ¬s ≤ [] := by
  obtain ⟨c, rest, rfl⟩ := List.exists_cons_of_ne_nil hne
  exact not_le.mpr (List.nil_lt_cons c rest)

theorem pickLatestSuffix_greatest (zfsListOutput dataset family : Str) :
    (pickLatestSuffix zfsListOutput dataset family = [] ∨
      pickLatestSuffix zfsListOutput dataset family ∈
        snapshotSuffixes zfsListOutput dataset family) ∧
      ∀ s ∈ snapshotSuffixes zfsListOutput dataset family,
        s ≤ pickLatestSuffix zfsListOutput dataset family := by
  obtain ⟨hmem, -, hle⟩ :=
    foldl_greatest (id : Str → Str) (snapshotSuffixes zfsListOutput dataset family) []
  exact ⟨hmem, hle⟩

section Newest

variable {gmtime : Int → Tm} (hgmtime : IsGmtime gmtime)
include hgmtime

theorem isoTime_le_iff {t u : Int} (ht : HasFourDigitYear t) (hu : HasFourDigitYear u) :
    isoTime (gmtime t) ≤ isoTime (gmtime u) ↔ t ≤ u := by
  rw [hgmtime t ht, hgmtime u hu, ← not_lt, isoTime_lt_iff hu ht, not_lt]

theorem le_of_suffix_le {family : Str} {t u : Int} (ht : HasFourDigitYear t)
    (hu : HasFourDigitYear u)
    (h : snapshotSuffixWithPrefix gmtime family t ≤ snapshotSuffixWithPrefix gmtime family u) :
    t ≤ u := by
  rw [← isoTime_le_iff hgmtime ht hu]
  by_contra hnot
  exact absurd (List.append_left_lt (not_le.mp hnot)) (not_lt.mpr h)

/-- The times of the snapshots of a family. -/
def stamps (gmtime : Int → Tm) (names : List SnapshotName) (dataset family : Str) : Set Int :=
  {t | HasFourDigitYear t ∧ Holds names dataset (snapshotSuffixWithPrefix gmtime family t)}

theorem pickLatestSuffix_newest {names : List SnapshotName} {dataset family : Str}
    (hstamped : Stamped gmtime names dataset family) :
    (pickLatestSuffix (listing names) dataset family = [] ↔ ∀ n ∈ names, ¬n.Of dataset family) ∧
      (pickLatestSuffix (listing names) dataset family ≠ [] →
        ∃ t, IsGreatest (stamps gmtime names dataset family) t ∧
          pickLatestSuffix (listing names) dataset family =
            snapshotSuffixWithPrefix gmtime family t) := by
  obtain ⟨hmem, hle⟩ := pickLatestSuffix_greatest (listing names) dataset family
  generalize pickLatestSuffix (listing names) dataset family = picked at hmem hle ⊢
  have hofs : ∀ n ∈ names, n.Of dataset family → n.suffix ≤ picked ∧ n.suffix ≠ [] := by
    intro n hn hof
    obtain ⟨t, -, hsuffix⟩ := hstamped n hn hof
    refine ⟨hle _ ((mem_snapshotSuffixes hstamped).mpr ⟨⟨n, hn, hof.1, rfl⟩, hof.2⟩), ?_⟩
    rw [hsuffix, snapshotSuffixWithPrefix]
    simp [isoTime_ne_nil]
  refine ⟨⟨?_, ?_⟩, ?_⟩
  · rintro rfl n hn hof
    obtain ⟨hlast, hne⟩ := hofs n hn hof
    exact not_le_nil_of_ne hne hlast
  · intro hnone
    rcases hmem with hnil | hmem
    · exact hnil
    · obtain ⟨⟨n, hn, hdataset, hsuffix⟩, hfamily⟩ := (mem_snapshotSuffixes hstamped).mp hmem
      exact absurd ⟨hdataset, hsuffix ▸ hfamily⟩ (hnone n hn)
  · intro hne
    obtain ⟨⟨n, hn, hdataset, hsuffix⟩, hfamily⟩ :=
      (mem_snapshotSuffixes hstamped).mp (hmem.resolve_left hne)
    obtain ⟨t, ht, hstamp⟩ := hstamped n hn ⟨hdataset, hsuffix ▸ hfamily⟩
    have hpicked : picked = snapshotSuffixWithPrefix gmtime family t := hsuffix.symm.trans hstamp
    refine ⟨t, ⟨⟨ht, n, hn, hdataset, hstamp⟩, ?_⟩, hpicked⟩
    rintro u ⟨hu, m, hm, hmdataset, hmsuffix⟩
    have hof : m.Of dataset family := ⟨hmdataset, hmsuffix ▸ List.prefix_append _ _⟩
    have hlast := (hofs m hm hof).1
    rw [hmsuffix, hpicked] at hlast
    exact le_of_suffix_le hgmtime hu ht hlast

end Newest

/-! ## The newest suffix of both sides -/

/-- What the loops of `pickLatestCommonSuffix` look at, in their order. -/
def candidates (localOut localDataset remoteOut remoteDataset : Str) (families : List Str) :
    List Best :=
  families.flatMap (fun (family : Str) =>
    if family.isEmpty then []
    else ((snapshotSuffixes localOut localDataset family).filter
      (snapshotSuffixes remoteOut remoteDataset family).contains).map
        (fun s => { best := s, bestBody := s.drop family.length }))

theorem foldl_takeCommon (family : Str) (remote suffixes : List Str) (acc : Best) :
    suffixes.foldl (takeCommon family remote) acc =
      ((suffixes.filter remote.contains).map
        (fun s => ({ best := s, bestBody := s.drop family.length } : Best))).foldl
          (fun out x => if out.bestBody < x.bestBody then x else out) acc := by
  induction suffixes generalizing acc with
  | nil => rfl
  | cons s suffixes ih =>
      rw [List.foldl_cons, ih, List.filter_cons]
      by_cases hs : s ∈ remote
      · simp [takeCommon, hs]
      · simp [takeCommon, hs]

theorem pickLatestCommonSuffix_eq (localOut localDataset remoteOut remoteDataset : Str)
    (families : List Str) :
    pickLatestCommonSuffix localOut localDataset remoteOut remoteDataset families =
      ((candidates localOut localDataset remoteOut remoteDataset families).foldl
        (fun out x => if out.bestBody < x.bestBody then x else out) {}).best := by
  rw [pickLatestCommonSuffix, candidates, List.foldl_flatMap]
  congr 2
  funext acc family
  split
  · rfl
  · rw [foldl_takeCommon]

section Common

variable {gmtime : Int → Tm} {localNames remoteNames : List SnapshotName}
variable {localDataset remoteDataset : Str} {families : List Str}

/-- The snapshot of a family and a time is on both sides. -/
structure IsCommon (gmtime : Int → Tm) (localNames : List SnapshotName) (localDataset : Str)
    (remoteNames : List SnapshotName) (remoteDataset : Str) (families : List Str) (family : Str)
    (t : Int) : Prop where
  family_mem : family ∈ families
  family_ne : family ≠ []
  year : HasFourDigitYear t
  onLocal : Holds localNames localDataset (snapshotSuffixWithPrefix gmtime family t)
  onRemote : Holds remoteNames remoteDataset (snapshotSuffixWithPrefix gmtime family t)

theorem mem_candidates
    (hlocal : ∀ family ∈ families, family ≠ [] → Stamped gmtime localNames localDataset family)
    (hremote : ∀ family ∈ families, family ≠ [] → Stamped gmtime remoteNames remoteDataset family)
    {c : Best} :
    c ∈ candidates (listing localNames) localDataset (listing remoteNames) remoteDataset families ↔
      ∃ family t,
        IsCommon gmtime localNames localDataset remoteNames remoteDataset families family t ∧
          c = { best := snapshotSuffixWithPrefix gmtime family t, bestBody := isoTime (gmtime t) } := by
  rw [candidates, List.mem_flatMap]
  constructor
  · rintro ⟨family, hfamily, hc⟩
    split at hc
    · cases hc
    · rename_i hempty
      have hne : family ≠ [] := fun h => hempty (List.isEmpty_iff.mpr h)
      obtain ⟨s, hs, rfl⟩ := List.mem_map.mp hc
      rw [List.mem_filter, List.contains_iff_mem, mem_snapshotSuffixes (hlocal family hfamily hne),
        mem_snapshotSuffixes (hremote family hfamily hne)] at hs
      obtain ⟨⟨⟨n, hn, hdataset, rfl⟩, hlead⟩, hother, -⟩ := hs
      obtain ⟨t, ht, hsuffix⟩ := hlocal family hfamily hne n hn ⟨hdataset, hlead⟩
      rw [hsuffix] at hother ⊢
      refine ⟨family, t, ⟨hfamily, hne, ht, ⟨n, hn, hdataset, hsuffix⟩, hother⟩, ?_⟩
      rw [snapshotSuffixWithPrefix, List.drop_left]
  · rintro ⟨family, t, ⟨hfamily, hne, -, honLocal, honRemote⟩, rfl⟩
    refine ⟨family, hfamily, ?_⟩
    rw [if_neg (by simpa using hne), List.mem_map]
    refine ⟨snapshotSuffixWithPrefix gmtime family t, ?_, ?_⟩
    · rw [List.mem_filter, List.contains_iff_mem, mem_snapshotSuffixes (hlocal family hfamily hne),
        mem_snapshotSuffixes (hremote family hfamily hne)]
      exact ⟨⟨honLocal, List.prefix_append _ _⟩, honRemote, List.prefix_append _ _⟩
    · rw [snapshotSuffixWithPrefix, List.drop_left]

theorem pickLatestCommonSuffix_newest (hgmtime : IsGmtime gmtime)
    (hlocal : ∀ family ∈ families, family ≠ [] → Stamped gmtime localNames localDataset family)
    (hremote : ∀ family ∈ families, family ≠ [] →
      Stamped gmtime remoteNames remoteDataset family) :
    let picked := pickLatestCommonSuffix (listing localNames) localDataset (listing remoteNames)
      remoteDataset families
    let common := IsCommon gmtime localNames localDataset remoteNames remoteDataset families
    (picked = [] ↔ ∀ family ∈ families, family ≠ [] → ∀ s, family <+: s →
      ¬(Holds localNames localDataset s ∧ Holds remoteNames remoteDataset s)) ∧
      (picked ≠ [] → ∃ family t, common family t ∧
        picked = snapshotSuffixWithPrefix gmtime family t ∧
          ∀ other u, common other u → u ≤ t) := by
  dsimp only
  rw [pickLatestCommonSuffix_eq]
  obtain ⟨hmem, -, hle⟩ := foldl_greatest Best.bestBody
    (candidates (listing localNames) localDataset (listing remoteNames) remoteDataset families) {}
  generalize List.foldl _ _ _ = last at hmem hle ⊢
  have hbody : ∀ {family t},
      IsCommon gmtime localNames localDataset remoteNames remoteDataset families family t →
        isoTime (gmtime t) ≤ last.bestBody :=
    fun h => hle _ ((mem_candidates hlocal hremote).mpr ⟨_, _, h, rfl⟩)
  rcases hmem with rfl | hmem
  · -- the loops have kept nothing
    have hnone : ∀ family t,
        ¬IsCommon gmtime localNames localDataset remoteNames remoteDataset families family t :=
      fun family t h => not_le_nil_of_ne (isoTime_ne_nil _) (hbody h)
    refine ⟨⟨fun _ => ?_, fun _ => rfl⟩, fun h => absurd rfl h⟩
    rintro family hfamily hne s hlead ⟨⟨n, hn, hdataset, rfl⟩, honRemote⟩
    obtain ⟨t, ht, hsuffix⟩ := hlocal family hfamily hne n hn ⟨hdataset, hlead⟩
    exact hnone family t
      ⟨hfamily, hne, ht, ⟨n, hn, hdataset, hsuffix⟩, hsuffix ▸ honRemote⟩
  · obtain ⟨family, t, hcommon, rfl⟩ := (mem_candidates hlocal hremote).mp hmem
    refine ⟨⟨fun hnil => ?_, fun hnone => ?_⟩, fun _ => ⟨family, t, hcommon, rfl, ?_⟩⟩
    · exact absurd (List.append_eq_nil_iff.mp hnil).2 (isoTime_ne_nil _)
    · exact absurd ⟨hcommon.onLocal, hcommon.onRemote⟩
        (hnone family hcommon.family_mem hcommon.family_ne _ (List.prefix_append _ _))
    · intro other u hother
      exact (isoTime_le_iff hgmtime hother.year hcommon.year).mp (hbody hother)

/-- Only the snapshots of the dataset and of its families count. -/
theorem pickLatestCommonSuffix_filter {keepLocal keepRemote : SnapshotName → Bool}
    (hlocal : ∀ family ∈ families, ∀ n, n.Of localDataset family → keepLocal n = true)
    (hremote : ∀ family ∈ families, ∀ n, n.Of remoteDataset family → keepRemote n = true) :
    pickLatestCommonSuffix (listing (localNames.filter keepLocal)) localDataset
        (listing (remoteNames.filter keepRemote)) remoteDataset families =
      pickLatestCommonSuffix (listing localNames) localDataset (listing remoteNames) remoteDataset
        families := by
  have hcandidates : candidates (listing (localNames.filter keepLocal)) localDataset
      (listing (remoteNames.filter keepRemote)) remoteDataset families =
        candidates (listing localNames) localDataset (listing remoteNames) remoteDataset
          families := by
    apply List.flatMap_congr
    intro family hfamily
    rw [snapshotSuffixes_filter (hlocal family hfamily),
      snapshotSuffixes_filter (hremote family hfamily)]
  rw [pickLatestCommonSuffix_eq, pickLatestCommonSuffix_eq, hcandidates]

end Common

/-! ## Both bases -/

/-- The two bases of a listing, whatever other snapshots it holds. -/
theorem incremental_base_newest {gmtime : Int → Tm} (hgmtime : IsGmtime gmtime) :
    (∀ names dataset family, Stamped gmtime names dataset family →
      (pickLatestSuffix (listing names) dataset family = [] ↔
        ∀ n ∈ names, ¬n.Of dataset family) ∧
      (pickLatestSuffix (listing names) dataset family ≠ [] →
        ∃ t, IsGreatest (stamps gmtime names dataset family) t ∧
          pickLatestSuffix (listing names) dataset family =
            snapshotSuffixWithPrefix gmtime family t)) ∧
    (∀ localNames localDataset remoteNames remoteDataset families,
      (∀ family ∈ families, family ≠ [] →
        Stamped gmtime localNames localDataset family ∧
          Stamped gmtime remoteNames remoteDataset family) →
      let picked := pickLatestCommonSuffix (listing localNames) localDataset
        (listing remoteNames) remoteDataset families
      let common := IsCommon gmtime localNames localDataset remoteNames remoteDataset families
      (picked = [] ↔ ∀ family ∈ families, family ≠ [] → ∀ s, family <+: s →
        ¬(Holds localNames localDataset s ∧ Holds remoteNames remoteDataset s)) ∧
        (picked ≠ [] → ∃ family t, common family t ∧
          picked = snapshotSuffixWithPrefix gmtime family t ∧
            ∀ other u, common other u → u ≤ t)) ∧
    (∀ names dataset family,
      pickLatestSuffix (listing (names.filter (fun n => decide (n.Of dataset family)))) dataset
          family =
        pickLatestSuffix (listing names) dataset family) ∧
    ∀ localNames localDataset remoteNames remoteDataset families,
      pickLatestCommonSuffix
          (listing (localNames.filter (fun n => families.any (fun f => n.Of localDataset f))))
          localDataset
          (listing (remoteNames.filter (fun n => families.any (fun f => n.Of remoteDataset f))))
          remoteDataset families =
        pickLatestCommonSuffix (listing localNames) localDataset (listing remoteNames)
          remoteDataset families := by
  refine ⟨?_, ?_, ?_, ?_⟩
  · intro names dataset family hstamped
    exact pickLatestSuffix_newest hgmtime hstamped
  · intro localNames localDataset remoteNames remoteDataset families hstamped
    exact pickLatestCommonSuffix_newest hgmtime (fun f hf hne => (hstamped f hf hne).1)
      (fun f hf hne => (hstamped f hf hne).2)
  · intro names dataset family
    rw [pickLatestSuffix, snapshotSuffixes_filter (fun n hof => decide_eq_true hof), pickLatestSuffix]
  · intro localNames localDataset remoteNames remoteDataset families
    apply pickLatestCommonSuffix_filter
    · intro family hfamily n hof
      exact List.any_eq_true.mpr ⟨family, hfamily, decide_eq_true hof⟩
    · intro family hfamily n hof
      exact List.any_eq_true.mpr ⟨family, hfamily, decide_eq_true hof⟩

/-- A snapshot of `tank/web` or of a dataset below it. -/
def webName (dataset suffix : Str)
    (h : dataset ≠ [] ∧ dataset.head? ≠ some '#' ∧ '@' ∉ dataset ∧ '\n' ∉ dataset)
    (h' : '@' ∉ suffix ∧ '/' ∉ suffix ∧ '\n' ∉ suffix) : SnapshotName :=
  ⟨dataset, suffix, h.1, h.2.1, h.2.2.1, h.2.2.2, h'.1, h'.2.1, h'.2.2⟩

def webNames : List SnapshotName :=
  [webName "tank/web" "backup-1970-01-02T00:00:00Z" (by decide) (by decide),
    webName "tank/web" "backup-1970-01-01T00:00:00Z" (by decide) (by decide),
    webName "tank/web" "weekly" (by decide) (by decide),
    webName "tank/web/data" "backup-1970-01-03T00:00:00Z" (by decide) (by decide)]

def copyNames : List SnapshotName :=
  [webName "copy/web" "backup-1970-01-04T00:00:00Z" (by decide) (by decide),
    webName "copy/web" "backup-1970-01-01T00:00:00Z" (by decide) (by decide)]

theorem stamped_webNames : Stamped utcTimeAt webNames "tank/web" "backup-" := by
  intro n hn hof
  simp only [webNames, List.mem_cons, List.not_mem_nil, or_false] at hn
  rcases hn with rfl | rfl | rfl | rfl
  · exact ⟨86400, by decide, by decide⟩
  · exact ⟨0, by decide, by decide⟩
  · exact absurd hof (by decide)
  · exact absurd hof (by decide)

theorem stamped_copyNames : Stamped utcTimeAt copyNames "copy/web" "backup-" := by
  intro n hn _
  rcases List.mem_pair.mp hn with rfl | rfl
  · exact ⟨259200, by decide, by decide⟩
  · exact ⟨0, by decide, by decide⟩

theorem incremental_base_newest_web :
    (∃ t, IsGreatest (stamps utcTimeAt webNames "tank/web" "backup-") t ∧
      snapshotSuffixWithPrefix utcTimeAt "backup-" t = "backup-1970-01-02T00:00:00Z") ∧
      ∃ family t,
        IsCommon utcTimeAt webNames "tank/web" copyNames "copy/web" ["backup-"] family t ∧
        snapshotSuffixWithPrefix utcTimeAt family t = "backup-1970-01-01T00:00:00Z" ∧
        ∀ other u, IsCommon utcTimeAt webNames "tank/web" copyNames "copy/web" ["backup-"] other u →
          u ≤ t := by
  have hnewest := @incremental_base_newest utcTimeAt (fun _ _ => rfl)
  constructor
  · have hpicked : pickLatestSuffix (listing webNames) "tank/web" "backup-" =
        "backup-1970-01-02T00:00:00Z" := by decide
    obtain ⟨t, ht, hsuffix⟩ := (hnewest.1 webNames _ _ stamped_webNames).2 (by decide)
    exact ⟨t, ht, hsuffix.symm.trans hpicked⟩
  · have hpicked : pickLatestCommonSuffix (listing webNames) "tank/web" (listing copyNames)
        "copy/web" ["backup-"] = "backup-1970-01-01T00:00:00Z" := by decide
    have hstamped : ∀ family ∈ (["backup-"] : List Str), family ≠ [] →
        Stamped utcTimeAt webNames "tank/web" family ∧
          Stamped utcTimeAt copyNames "copy/web" family := by
      intro family hfamily _
      rw [List.mem_singleton.mp hfamily]
      exact ⟨stamped_webNames, stamped_copyNames⟩
    obtain ⟨family, t, hcommon, hsuffix, hgreatest⟩ :=
      (hnewest.2.1 webNames _ copyNames _ ["backup-"] hstamped).2 (by
        rw [hpicked]
        decide)
    exact ⟨family, t, hcommon, hsuffix.symm.trans hpicked, hgreatest⟩

end Crate.ZfsDatasetPure
