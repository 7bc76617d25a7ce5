import Crate.Foundation.CNumber
import Crate.Foundation.Calendar
import Crate.Foundation.Substring
import Crate.Registry.SpecRegistry

/-!
# The names of backup streams

`crate backup` writes `<jail>-backup-<time>[.inc-from-<base>].zstream` and
`crate backup-prune` reads such names back.  The reader looks for the first
`.inc-from-` and takes only timestamps as bases, so a jail name that holds the
tag and a base that is no timestamp are not read back; every other name is.
-/

namespace Crate.BackupPure

open Crate.Foundation
open Crate.NameLimits (kJailName)
open Crate.PrivOpsPure (isAlnum isNameChar)

def kBackupPrefix : Str := "backup-"

/-- `strftime` with the format `%Y-%m-%dT%H:%M:%SZ`. -/
def isoTime (tm : Tm) : Str :=
  padded 4 (tm.tm_year + 1900) ++ "-" ++ padded 2 (tm.tm_mon + 1) ++ "-" ++ padded 2 tm.tm_mday ++
    "T" ++ padded 2 tm.tm_hour ++ ":" ++ padded 2 tm.tm_min ++ ":" ++ padded 2 tm.tm_sec ++ "Z"

def snapshotSuffixWithPrefix (gmtime : Int → Tm) (family : Str) (unixEpoch : Int) : Str :=
  family ++ isoTime (gmtime unixEpoch)

def snapshotSuffix (gmtime : Int → Tm) (unixEpoch : Int) : Str :=
  snapshotSuffixWithPrefix gmtime kBackupPrefix unixEpoch

def streamFilename (jailName suffix incFromSuffix : Str) : Str :=
  if incFromSuffix.isEmpty then jailName ++ "-" ++ suffix ++ ".zstream"
  else jailName ++ "-" ++ suffix ++ ".inc-from-" ++ incFromSuffix ++ ".zstream"

def validateJailName (name : Str) : Check := do
  reject (name = []) "jail name is empty"
  reject (name.length > kJailName) ("jail name longer than " ++ decimal kJailName ++ " chars")
  reject (name = "." ∨ name = "..") "jail name is reserved"
  checkChars isNameChar "jail name" name

def checkSinceChars : Str → Check
  | [] => .ok ()
  | c :: rest =>
      let ok := isNameChar c || c = ':' || c = 'T' || c = '+'
      if c = '@' then .error "--since must not contain '@'"
      else if c = '/' then .error "--since must not contain '/'"
      else if !ok then .error ("invalid character '" ++ [c] ++ "' in --since value")
      else checkSinceChars rest

def validateSinceName (name : Str) : Check := do
  reject (name = []) "--since value is empty"
  reject (name.length > 128) "--since value longer than 128 chars"
  checkSinceChars name

inductive PlanKind
  | full | incremental | error
  deriving DecidableEq, Repr

structure Plan where
  kind : PlanKind := .full
  reason : Str := []
  sinceSuffix : Str := []
  deriving DecidableEq, Repr

structure Inputs where
  sinceProvided : Bool := false
  sinceName : Str := []
  priorBackupExists : Bool := false
  priorSnapshotSuffix : Str := []

def choosePlan (inputs : Inputs) (autoIncremental : Bool) : Plan :=
  if inputs.sinceProvided then
    if inputs.sinceName.isEmpty then
      { kind := .error, reason := "--since given but value is empty" }
    else { kind := .incremental, sinceSuffix := inputs.sinceName }
  else if autoIncremental && inputs.priorBackupExists then
    { kind := .incremental, sinceSuffix := inputs.priorSnapshotSuffix }
  else {}

end Crate.BackupPure

namespace Crate.BackupPrunePure

open Crate.Foundation
open Crate.NameLimits (kJailName)
open Crate.PrivOpsPure (isNameChar)

structure StreamFile where
  filename : Str
  jailName : Str
  suffix : Str
  incFromSuffix : Str := []
  unixEpoch : Int := 0
  deriving DecidableEq, Repr

/-- The day count is exact for the years 0 to 9999; no intermediate value leaves its type. -/
def civilToEpoch (y m d hh mm ss : Int) : Int :=
  let y := if m ≤ 2 then y - 1 else y
  let era := (if 0 ≤ y then y else y - 399).tdiv 400
  let yoe := y - era * 400
  let doy := (153 * (m + if m > 2 then -3 else 9) + 2).tdiv 5 + d - 1
  let doe := yoe * 365 + yoe.tdiv 4 - yoe.tdiv 100 + doy
  let days := era * 146097 + doe - 719468
  days * 86400 + hh * 3600 + mm * 60 + ss

/-- `std::atoi`, which is `strtol` cut to an `int`. -/
def atoi (s : Str) : Int := (strtol s).toInt32.toInt

/-- `s.substr(at, count)`. -/
def substr (s : Str) (start count : Nat) : Str := (s.drop start).take count

def parseSuffixEpoch (suffix : Str) : Int :=
  if suffix.length ≠ 27 then 0
  else if suffix.take 7 ≠ ("backup-" : Str) then 0
  else
    let body := suffix.drop 7
    if body.length ≠ 20 then 0
    else if body[4]? ≠ some '-' ∨ body[7]? ≠ some '-' ∨ body[10]? ≠ some 'T' ∨
        body[13]? ≠ some ':' ∨ body[16]? ≠ some ':' ∨ body[19]? ≠ some 'Z' then 0
    else
      let y_s := substr body 0 4
      let m_s := substr body 5 2
      let d_s := substr body 8 2
      let hh_s := substr body 11 2
      let mm_s := substr body 14 2
      let ss_s := substr body 17 2
      if !allDigits y_s || !allDigits m_s || !allDigits d_s || !allDigits hh_s ||
          !allDigits mm_s || !allDigits ss_s then 0
      else
        let y := atoi y_s
        let m := atoi m_s
        let d := atoi d_s
        let hh := atoi hh_s
        let mm := atoi mm_s
        let ss := atoi ss_s
        if y < 1970 ∨ y > 9999 then 0
        else if m < 1 ∨ m > 12 then 0
        else if d < 1 ∨ d > 31 then 0
        else if hh > 23 ∨ mm > 59 ∨ ss > 60 then 0
        else
          let e := civilToEpoch y m d hh mm ss
          if e ≤ 0 then 0 else e

def kExt : Str := ".zstream"

def kIncTag : Str := ".inc-from-"

def kBackupTag : Str := "-backup-"

/-- The stem of a name cut at the first `.inc-from-`, with what stands behind it. -/
def splitIncFrom (stem : Str) : Str × Str :=
  match splitFirst kIncTag stem with
  | some (before, behind) => (before, behind)
  | none => (stem, [])

def parseStem (basename stem incFrom : Str) : Except Str StreamFile :=
  match splitLast kBackupTag stem with
  | none => .error "filename does not contain '-backup-' separator"
  | some (jail, behind) => do
      let suffix := "backup-" ++ behind
      reject (jail = []) "filename does not contain '-backup-' separator"
      reject (jail = [] ∨ jail.length > kJailName) "jail name out of length bounds"
      reject (¬jail.all isNameChar) "jail name contains invalid character"
      reject (parseSuffixEpoch suffix = 0) "snapshot suffix is not a valid 'backup-<utc-iso8601>'"
      reject (incFrom ≠ [] ∧ parseSuffixEpoch incFrom = 0)
        "inc-from-<suffix> is not a valid 'backup-<utc-iso8601>'"
      return {
        filename := basename, jailName := jail, suffix := suffix, incFromSuffix := incFrom,
        unixEpoch := parseSuffixEpoch suffix }

def parseStreamFilename (basename : Str) : Except Str StreamFile :=
  if basename.length ≤ kExt.length then .error "filename too short for .zstream suffix"
  else if basename.drop (basename.length - kExt.length) ≠ kExt then
    .error "filename does not end in .zstream"
  else
    let stem := basename.take (basename.length - kExt.length)
    let (stem, incFrom) := splitIncFrom stem
    parseStem basename stem incFrom

/-! ## The calendar -/

/-- Days since the first of January 1970, counted in years that begin in March. -/
def dayNumber (d : Date) : Int :=
  let y := if d.month ≤ 2 then d.year - 1 else d.year
  let m : Int := if d.month ≤ 2 then d.month + 9 else d.month - 3
  365 * y + y / 4 - y / 100 + y / 400 + (153 * m + 2) / 5 + d.day - 719469

theorem civilToEpoch_eq {d : Date} (h : d.Valid) (hyear : 1 ≤ d.year) (hh mm ss : Int) :
    civilToEpoch d.year d.month d.day hh mm ss =
      dayNumber d * 86400 + hh * 3600 + mm * 60 + ss := by
  have hmonth := h.month_pos
  unfold civilToEpoch dayNumber
  by_cases hearly : d.month ≤ 2
  · have hcast : (d.month : Int) ≤ 2 := by omega
    have hnot : ¬(d.month : Int) > 2 := by omega
    have hpos : 0 ≤ d.year - 1 := by omega
    simp only [hcast, hearly, hnot, hpos, if_true, if_false]
    rw [Int.tdiv_eq_ediv_of_nonneg hpos, Int.tdiv_eq_ediv_of_nonneg (by omega),
      Int.tdiv_eq_ediv_of_nonneg (by omega), Int.tdiv_eq_ediv_of_nonneg (by omega)]
    omega
  · have hcast : ¬(d.month : Int) ≤ 2 := by omega
    have hlate : (d.month : Int) > 2 := by omega
    have hpos : 0 ≤ d.year := by omega
    simp only [hcast, hearly, hlate, hpos, if_true, if_false]
    rw [Int.tdiv_eq_ediv_of_nonneg hpos, Int.tdiv_eq_ediv_of_nonneg (by omega),
      Int.tdiv_eq_ediv_of_nonneg (by omega), Int.tdiv_eq_ediv_of_nonneg (by omega)]
    omega

theorem dayNumber_next {d : Date} (h : d.Valid) : dayNumber d.next = dayNumber d + 1 := by
  obtain ⟨hpos, hle, hday, hlast⟩ := h
  unfold Date.next
  split
  · simp only [dayNumber]
    push_cast
    omega
  · rename_i hend
    have hlength : d.day = monthLength d.year d.month := by omega
    obtain ⟨year, month, day⟩ := d
    simp only at hpos hle hlength ⊢
    subst hlength
    -- the lengths of the months are the steps of `(153 * m + 2) / 5`
    interval_cases month
    case «2» =>
      simp only [monthLength, isLeapYear, dayNumber]
      norm_num
      split <;> simp_all <;> omega
    all_goals
      simp [monthLength, dayNumber]
      omega

theorem dayNumber_dateOfDay (n : Nat) : dayNumber (dateOfDay n) = n := by
  induction n with
  | zero => decide
  | succ n ih =>
      rw [dateOfDay, dayNumber_next (valid_dateOfDay n).1, ih]
      push_cast
      rfl

/-! ## Reading a timestamp back -/

section Timestamp

open Crate.BackupPure

/-- `gmtime` is the UTC calendar for the times that streams are stamped with. -/
def IsUtc (gmtime : Int → Tm) : Prop := ∀ t : Nat, gmtime t = utcTime t

theorem atoi_digits {s : Str} (hdigits : s.all isDecimalDigit = true)
    (hvalue : decimalValue s < 10000) : atoi s = decimalValue s := by
  have hlong : (strtol s).toInt = decimalValue s := by
    rw [strtol_digits hdigits, Nat.min_eq_left]
    unfold longMax
    omega
  rw [atoi, toInt_toInt32_of_nonneg hlong, Nat.mod_eq_of_lt (by omega), if_pos (by omega)]

theorem exists_two_digits {n : Nat} (h : n < 100) :
    ∃ a b, padded 2 n = [a, b] ∧ allDigits [a, b] = true ∧ atoi [a, b] = n := by
  obtain ⟨a, b, hab⟩ := List.length_eq_two.mp (length_padded (by omega) h)
  have hdigits := all_digits_padded 2 n
  have hvalue := decimalValue_padded 2 n
  rw [hab] at hdigits hvalue
  refine ⟨a, b, hab, ?_, ?_⟩
  · simpa [allDigits] using hdigits
  · rw [atoi_digits hdigits (by omega), hvalue]

theorem exists_four_digits {n : Nat} (h : n < 10000) :
    ∃ a b c d, padded 4 n = [a, b, c, d] ∧ allDigits [a, b, c, d] = true ∧
      atoi [a, b, c, d] = n := by
  obtain ⟨a, b, c, d, hpadded⟩ : ∃ a b c d, padded 4 n = [a, b, c, d] := by
    have hlength : (padded 4 n).length = 4 := length_padded (by omega) h
    match hl : padded 4 n, hlength with
    | [a, b, c, d], _ => exact ⟨a, b, c, d, rfl⟩
  have hdigits := all_digits_padded 4 n
  have hvalue := decimalValue_padded 4 n
  rw [hpadded] at hdigits hvalue
  refine ⟨a, b, c, d, hpadded, ?_, ?_⟩
  · simpa [allDigits] using hdigits
  · rw [atoi_digits hdigits (by omega), hvalue]

/-- The numbers of a timestamp, as the calendar and the clock bound them. -/
structure InRange (y m d hh mm ss : Nat) : Prop where
  year_ge : 1970 ≤ y
  year_le : y ≤ 9999
  month_pos : 1 ≤ m
  month_le : m ≤ 12
  day_pos : 1 ≤ d
  day_le : d ≤ 31
  hour_le : hh ≤ 23
  minute_le : mm ≤ 59
  second_le : ss ≤ 59

theorem parseSuffixEpoch_iso {y m d hh mm ss : Nat} (h : InRange y m d hh mm ss)
    (hpos : 0 < civilToEpoch y m d hh mm ss) :
    parseSuffixEpoch ("backup-" ++ (padded 4 y ++ "-" ++ padded 2 m ++ "-" ++ padded 2 d ++ "T" ++
      padded 2 hh ++ ":" ++ padded 2 mm ++ ":" ++ padded 2 ss ++ "Z")) =
      civilToEpoch y m d hh mm ss := by
  obtain ⟨hy, hy', hm, hm', hd, hd', hhh, hmm, hss⟩ := h
  obtain ⟨y₁, y₂, y₃, y₄, hypad, hydig, hyval⟩ := exists_four_digits (n := y) (by omega)
  obtain ⟨m₁, m₂, hmpad, hmdig, hmval⟩ := exists_two_digits (n := m) (by omega)
  obtain ⟨d₁, d₂, hdpad, hddig, hdval⟩ := exists_two_digits (n := d) (by omega)
  obtain ⟨h₁, h₂, hhpad, hhdig, hhval⟩ := exists_two_digits (n := hh) (by omega)
  obtain ⟨n₁, n₂, hnpad, hndig, hnval⟩ := exists_two_digits (n := mm) (by omega)
  obtain ⟨s₁, s₂, hspad, hsdig, hsval⟩ := exists_two_digits (n := ss) (by omega)
  rw [hypad, hmpad, hdpad, hhpad, hnpad, hspad]
  change parseSuffixEpoch ['b', 'a', 'c', 'k', 'u', 'p', '-', y₁, y₂, y₃, y₄, '-', m₁, m₂, '-',
    d₁, d₂, 'T', h₁, h₂, ':', n₁, n₂, ':', s₁, s₂, 'Z'] = _
  simp [parseSuffixEpoch, substr, hydig, hmdig, hddig, hhdig, hndig, hsdig, hyval, hmval, hdval,
    hhval, hnval, hsval]
  rw [if_neg (by omega), if_neg (by omega), if_neg (by omega), if_neg (by omega), if_neg (by omega)]

theorem isoTime_utcTime (t : Nat) :
    isoTime (utcTime t) = padded 4 ((dateOfDay (t / 86400)).year.toNat : Nat) ++ "-" ++
      padded 2 ((dateOfDay (t / 86400)).month : Nat) ++ "-" ++
      padded 2 ((dateOfDay (t / 86400)).day : Nat) ++ "T" ++ padded 2 (t % 86400 / 3600 : Nat) ++
      ":" ++ padded 2 (t % 3600 / 60 : Nat) ++ ":" ++ padded 2 (t % 60 : Nat) ++ "Z" := by
  have hyear := (valid_dateOfDay (t / 86400)).2
  have hyear' : (dateOfDay (t / 86400)).year - 1900 + 1900 =
      ((dateOfDay (t / 86400)).year.toNat : Int) := by omega
  have hmonth : ((dateOfDay (t / 86400)).month : Int) - 1 + 1 = (dateOfDay (t / 86400)).month := by
    omega
  simp only [isoTime, utcTime, hyear', hmonth]

theorem parseSuffixEpoch_snapshotSuffix {gmtime : Int → Tm} (hutc : IsUtc gmtime) {t : Nat}
    (hpos : 0 < t) (hyear : (gmtime t).tm_year + 1900 ≤ 9999) :
    parseSuffixEpoch (snapshotSuffix gmtime t) = t := by
  obtain ⟨hvalid, hge⟩ := valid_dateOfDay (t / 86400)
  have hday := monthLength_le (dateOfDay (t / 86400)).year (dateOfDay (t / 86400)).month
  have hdayLe := hvalid.day_le
  rw [hutc] at hyear
  simp only [utcTime] at hyear
  have hcast : ((dateOfDay (t / 86400)).year.toNat : Int) = (dateOfDay (t / 86400)).year := by omega
  have hepoch : civilToEpoch ((dateOfDay (t / 86400)).year.toNat : Nat)
      (dateOfDay (t / 86400)).month (dateOfDay (t / 86400)).day (t % 86400 / 3600 : Nat)
      (t % 3600 / 60 : Nat) (t % 60 : Nat) = t := by
    rw [hcast, civilToEpoch_eq hvalid (by omega), dayNumber_dateOfDay]
    omega
  rw [snapshotSuffix, snapshotSuffixWithPrefix, hutc, isoTime_utcTime]
  delta kBackupPrefix
  rw [parseSuffixEpoch_iso ?_ (by rw [hepoch]; omega), hepoch]
  exact ⟨by omega, by omega, hvalid.month_pos, hvalid.month_le, hvalid.day_pos, by omega, by omega,
    by omega, by omega⟩

theorem mem_isoTime {tm : Tm} {c : Char} (h : c ∈ isoTime tm) :
    isDecimalDigit c = true ∨ c ∈ ("-T:Z" : Str) := by
  have hdigits : ∀ (width : Nat) (n : Int), c ∈ padded width n → isDecimalDigit c = true :=
    fun width n hc => List.all_eq_true.mp (all_digits_padded width n) c hc
  simp only [isoTime, List.mem_append] at h
  grind

end Timestamp

/-! ## Reading a name back -/

section Name

open Crate.BackupPure

variable {basename stem incFrom jail base iso : Str}

/-- The name without its extension. -/
def stemOf (jail suffix base : Str) : Str :=
  if base.isEmpty then jail ++ "-" ++ suffix else jail ++ "-" ++ suffix ++ (kIncTag ++ base)

theorem streamFilename_eq (jail suffix base : Str) :
    streamFilename jail suffix base = stemOf jail suffix base ++ kExt := by
  unfold streamFilename stemOf kIncTag kExt
  cases hempty : base.isEmpty with
  | true => rw [if_pos rfl, if_pos rfl]
  | false =>
      rw [if_neg Bool.false_ne_true, if_neg Bool.false_ne_true]
      simp only [List.append_assoc]

theorem parseStreamFilename_append (hne : stem ≠ []) :
    parseStreamFilename (stem ++ kExt) =
      parseStem (stem ++ kExt) (splitIncFrom stem).1 (splitIncFrom stem).2 := by
  have hpos := List.length_pos_of_ne_nil hne
  have hlength : (stem ++ kExt).length - kExt.length = stem.length := by simp
  have hlong : ¬(stem ++ kExt).length ≤ kExt.length := by
    rw [List.length_append]
    omega
  simp only [parseStreamFilename, hlong, if_false, hlength, List.drop_left, ne_eq, not_true_eq_false,
    List.take_left]

theorem parseStem_eq_ok_iff {f : StreamFile} :
    parseStem basename stem incFrom = .ok f ↔
      ∃ jail behind, splitLast kBackupTag stem = some (jail, behind) ∧ jail ≠ [] ∧
        jail.length ≤ kJailName ∧ jail.all isNameChar = true ∧
        parseSuffixEpoch ("backup-" ++ behind) ≠ 0 ∧
        (incFrom = [] ∨ parseSuffixEpoch incFrom ≠ 0) ∧
        f = { filename := basename, jailName := jail, suffix := "backup-" ++ behind,
              incFromSuffix := incFrom, unixEpoch := parseSuffixEpoch ("backup-" ++ behind) } := by
  unfold parseStem
  cases hsplit : splitLast kBackupTag stem with
  | none => simp
  | some parts =>
      obtain ⟨jail, behind⟩ := parts
      simp only [reject_bind_eq_ok, pure_eq_ok, Except.ok.injEq, not_or, not_lt, gt_iff_lt,
        Option.some.injEq, Prod.mk.injEq]
      grind

theorem length_jailName_le {f : StreamFile} (h : parseStem basename stem incFrom = .ok f) :
    f.jailName.length ≤ stem.length := by
  obtain ⟨jail, behind, hsplit, -, -, -, -, -, rfl⟩ := parseStem_eq_ok_iff.mp h
  rw [eq_of_splitLast hsplit, List.length_append]
  dsimp only
  omega

/-- What stands behind the jail name holds neither a dot nor a second `-backup-`. -/
structure PlainTime (iso : Str) : Prop where
  dot : '.' ∉ iso
  k : 'k' ∉ iso

theorem plainTime_isoTime (tm : Tm) : PlainTime (isoTime tm) := by
  refine ⟨fun h => ?_, fun h => ?_⟩
  · rcases mem_isoTime h with h | h <;> revert h <;> decide
  · rcases mem_isoTime h with h | h <;> revert h <;> decide

theorem not_infix_stem (hiso : PlainTime iso) (hjail : ¬kIncTag <:+: jail ++ "-") :
    ¬kIncTag <:+: jail ++ "-" ++ ("backup-" ++ iso) ++ kIncTag.dropLast := by
  intro h
  have hseam : jail ++ ("-" : Str) ++ ("backup-" ++ iso) ++ kIncTag.dropLast =
      jail ++ '-' :: 'b' :: (("ackup-" : Str) ++ iso ++ kIncTag.dropLast) := by
    simp
  rw [hseam] at h
  rcases infix_seam (by decide) h with hleft | hright
  · exact hjail hleft
  · have hdot : '.' ∉ 'b' :: (("ackup-" : Str) ++ iso) := by
      simpa using hiso.dot
    have htag := infix_append_of_not_mem hdot (show kIncTag <:+: _ from hright)
    revert htag
    decide

theorem splitIncFrom_stemOf (hiso : PlainTime iso) (hjail : ¬kIncTag <:+: jail ++ "-") :
    splitIncFrom (stemOf jail ("backup-" ++ iso) base) =
      (jail ++ "-" ++ ("backup-" ++ iso), base) := by
  have hnot := not_infix_stem hiso hjail
  unfold splitIncFrom stemOf
  cases base with
  | nil =>
      have hnone := splitFirst_eq_none_of_not_infix
        (fun hin => hnot (hin.trans (List.prefix_append _ _).isInfix))
      simp only [List.isEmpty_nil, if_true, hnone]
  | cons c base =>
      have htag : kIncTag ≠ [] := by decide
      simp only [List.isEmpty_cons, Bool.false_eq_true, if_false, splitFirst_append htag hnot]

theorem splitLast_stem (hiso : PlainTime iso) :
    splitLast kBackupTag (jail ++ "-" ++ ("backup-" ++ iso)) = some (jail, iso) := by
  have hnot : ¬ '-' :: ("backup-" : Str) <:+: ("backup-" : Str) ++ iso := by
    intro h
    have hbehind : '-' :: ("backup-" : Str) <:+: '-' :: iso :=
      infix_append_of_not_mem (by decide : '-' ∉ ("backup" : Str)) h
    have hk : 'k' ∈ '-' :: iso := hbehind.subset (by decide)
    exact hiso.k (by simpa using hk)
  have hsplit := splitLast_append_of_not_infix jail hnot
  rwa [List.append_assoc]

theorem validateJailName_eq_ok_iff {name : Str} :
    validateJailName name = .ok () ↔ name ≠ [] ∧ name.length ≤ kJailName ∧
      (name ≠ "." ∧ name ≠ "..") ∧ ∀ c ∈ name, isNameChar c = true := by
  simp [validateJailName]

theorem stemOf_ne_nil (suffix : Str) : stemOf jail suffix base ≠ [] := by
  unfold stemOf
  split <;> simp

theorem length_splitIncFrom_lt (suffix base : Str) (htag : kIncTag <:+: jail ++ "-") :
    (splitIncFrom (stemOf jail suffix base)).1.length < jail.length := by
  obtain ⟨rest, hstem⟩ : ∃ rest, stemOf jail suffix base = jail ++ "-" ++ rest := by
    unfold stemOf
    split
    · exact ⟨suffix, rfl⟩
    · exact ⟨suffix ++ (kIncTag ++ base), by rw [List.append_assoc]⟩
  obtain ⟨before, behind, hsplit, hlength⟩ := exists_splitFirst_of_infix rest htag
  have htagLength : kIncTag.length = 10 := by decide
  rw [List.length_append, htagLength] at hlength
  simp only [splitIncFrom, hstem, hsplit]
  simp at hlength
  omega

/-- Exactly the streams whose jail name cannot be mistaken and whose base is a timestamp. -/
theorem parseStreamFilename_streamFilename {gmtime : Int → Tm} (hutc : IsUtc gmtime) {t : Nat}
    (hjail : validateJailName jail = .ok ()) (hpos : 0 < t)
    (hyear : (gmtime t).tm_year + 1900 ≤ 9999) :
    parseStreamFilename (streamFilename jail (snapshotSuffix gmtime t) base) =
        .ok { filename := streamFilename jail (snapshotSuffix gmtime t) base
              jailName := jail
              suffix := snapshotSuffix gmtime t
              incFromSuffix := base
              unixEpoch := t } ↔
      ¬kIncTag <:+: jail ++ "-" ∧ (base = [] ∨ parseSuffixEpoch base ≠ 0) := by
  obtain ⟨hne, hlength, -, hchars⟩ := validateJailName_eq_ok_iff.mp hjail
  have hepoch := parseSuffixEpoch_snapshotSuffix hutc hpos hyear
  have hiso := plainTime_isoTime (gmtime t)
  have hsuffix : snapshotSuffix gmtime t = "backup-" ++ isoTime (gmtime t) := rfl
  rw [streamFilename_eq, parseStreamFilename_append (stemOf_ne_nil _)]
  by_cases htag : kIncTag <:+: jail ++ "-"
  · simp only [htag, not_true_eq_false, false_and, iff_false]
    intro hparse
    -- the jail name is cut before its own tag
    have hlong := length_jailName_le hparse
    have hshort := length_splitIncFrom_lt (snapshotSuffix gmtime t) base htag
    dsimp only at hlong
    omega
  · rw [hsuffix, splitIncFrom_stemOf hiso htag, parseStem_eq_ok_iff, ← hsuffix]
    constructor
    · rintro ⟨-, -, -, -, -, -, -, hbase, -⟩
      exact ⟨htag, hbase⟩
    · rintro ⟨-, hbase⟩
      refine ⟨jail, isoTime (gmtime t), splitLast_stem hiso, hne, hlength,
        List.all_eq_true.mpr hchars, ?_, hbase, ?_⟩
      · rw [← hsuffix, hepoch]
        omega
      · rw [← hsuffix, hepoch]

end Name

section Recognised

open Crate.BackupPure

theorem streams_recognised_iff {gmtime : Int → Tm} (hutc : IsUtc gmtime) {jail : Str} (base : Str)
    {t : Nat} (hjail : validateJailName jail = .ok ()) (hpos : 0 < t)
    (hyear : (gmtime t).tm_year + 1900 ≤ 9999) :
    parseSuffixEpoch (snapshotSuffix gmtime t) = t ∧
      (parseStreamFilename (streamFilename jail (snapshotSuffix gmtime t) base) =
          .ok { filename := streamFilename jail (snapshotSuffix gmtime t) base
                jailName := jail
                suffix := snapshotSuffix gmtime t
                incFromSuffix := base
                unixEpoch := t } ↔
        ¬kIncTag <:+: jail ++ "-" ∧ (base = [] ∨ parseSuffixEpoch base ≠ 0)) :=
  ⟨parseSuffixEpoch_snapshotSuffix hutc hpos hyear,
    parseStreamFilename_streamFilename hutc hjail hpos hyear⟩

def utc (t : Int) : Tm := utcTime t.toNat

theorem isUtc_utc : IsUtc utc := fun _ => rfl

theorem web_stream_recognised :
    parseStreamFilename "web-backup-1970-01-02T03:46:40Z.zstream" =
        .ok { filename := "web-backup-1970-01-02T03:46:40Z.zstream"
              jailName := "web"
              suffix := "backup-1970-01-02T03:46:40Z"
              unixEpoch := 100000 } ∧
      parseStreamFilename (streamFilename "web" "backup-1970-01-02T03:46:40Z"
          "backup-1970-01-01T00:00:01Z") =
        .ok { filename := streamFilename "web" "backup-1970-01-02T03:46:40Z"
                "backup-1970-01-01T00:00:01Z"
              jailName := "web"
              suffix := "backup-1970-01-02T03:46:40Z"
              incFromSuffix := "backup-1970-01-01T00:00:01Z"
              unixEpoch := 100000 } := by
  have hjail : validateJailName "web" = .ok () := by decide
  have hyear : (utc (100000 : Nat)).tm_year + 1900 ≤ 9999 := by decide
  have hfull := (streams_recognised_iff isUtc_utc [] (t := 100000) hjail (by decide) hyear).2.mpr
    ⟨by decide, .inl rfl⟩
  have hincremental := (streams_recognised_iff isUtc_utc "backup-1970-01-01T00:00:01Z" (t := 100000)
    hjail (by decide) hyear).2.mpr ⟨by decide, .inr (by decide)⟩
  have hsuffix : snapshotSuffix utc (100000 : Nat) = "backup-1970-01-02T03:46:40Z" := by decide
  rw [hsuffix] at hfull hincremental
  exact ⟨hfull, hincremental⟩

/-- A base named with `--since`, and a jail whose name holds the tag of incrementals. -/
theorem streams_not_recognised :
    validateJailName "web" = .ok () ∧ validateSinceName "weekly1" = .ok () ∧
      choosePlan { sinceProvided := true, sinceName := "weekly1" } false =
        { kind := .incremental, sinceSuffix := "weekly1" } ∧
      parseStreamFilename (streamFilename "web" (snapshotSuffix utc 100000) "weekly1") =
        .error "inc-from-<suffix> is not a valid 'backup-<utc-iso8601>'" ∧
      validateJailName "web.inc-from-db" = .ok () ∧
      parseStreamFilename (streamFilename "web.inc-from-db" (snapshotSuffix utc 100000) []) =
        .error "filename does not contain '-backup-' separator" := by
  refine ⟨by decide, by decide, by decide, by decide, by decide, by decide⟩

end Recognised

end Crate.BackupPrunePure
