import Crate.Backup.LatestSuffix
import Crate.Daemon.Auth
import Crate.Foundation.CalendarOrder

/-!
# When a token expires

`AuthPure::parseIso8601Utc` reads the digits of a timestamp, checks the range of
each field on its own and leaves the rest to `timegm`, which carries a day
that the month does not have over into the next month.  A text that names a
day of the calendar is read as the instant it denotes.
-/

namespace Crate.AuthPure

open Crate.Foundation
open Crate.BackupPrunePure (atoi dayNumber substr)
open Crate.BackupPure (isoTime)

/-! ## The source -/

/-- `timegm`: fields outside their ranges are carried over. -/
def timegm (tm : Tm) : Int :=
  let firstOfMonth : Date := ⟨tm.tm_year + 1900 + tm.tm_mon / 12, (tm.tm_mon % 12).toNat + 1, 1⟩
  (dayNumber firstOfMonth + (tm.tm_mday - 1)) * 86400 + tm.tm_hour * 3600 + tm.tm_min * 60 +
    tm.tm_sec

def digitPlaces : List Nat := [0, 1, 2, 3, 5, 6, 8, 9, 11, 12, 14, 15, 17, 18]

/-- The range checks, the suffix and `timegm`. -/
def timeOf (tm : Tm) (tz : Str) : Int :=
  if tm.tm_mon < 0 ∨ tm.tm_mon > 11 then -1
  else if tm.tm_mday < 1 ∨ tm.tm_mday > 31 then -1
  else if tm.tm_hour < 0 ∨ tm.tm_hour > 23 then -1
  else if tm.tm_min < 0 ∨ tm.tm_min > 59 then -1
  else if tm.tm_sec < 0 ∨ tm.tm_sec > 60 then -1
  else if tz ≠ "Z" ∧ tz ≠ "+00:00" ∧ tz ≠ "-00:00" then -1
  else timegm tm

def parseIso8601Utc (s : Str) : Int :=
  if s.length < 20 then -1
  else if s[4]? ≠ some '-' ∨ s[7]? ≠ some '-' ∨ s[10]? ≠ some 'T' ∨ s[13]? ≠ some ':' ∨
      s[16]? ≠ some ':' then -1
  else if digitPlaces.any (fun i => !isDecimalDigit (s.getD i '\x00')) then -1
  else
    timeOf
      { tm_year := atoi (substr s 0 4) - 1900
        tm_mon := atoi (substr s 5 2) - 1
        tm_mday := atoi (substr s 8 2)
        tm_hour := atoi (substr s 11 2)
        tm_min := atoi (substr s 14 2)
        tm_sec := atoi (substr s 17 2) }
      (s.drop 19)

example : parseIso8601Utc "2026-02-30T00:00:00Z" = parseIso8601Utc "2026-03-02T00:00:00+00:00" := by
  decide

/-! ## The calendar by its day numbers -/

theorem dayNumber_dateAt (n : Int) : dayNumber (dateAt n) = n := by
  induction n using Int.induction_on with
  | zero => decide
  | succ n ih => rw [dateAt_succ, BackupPrunePure.dayNumber_next (valid_dateAt _), ih]
  | pred n ih =>
      have hnext := BackupPrunePure.dayNumber_next (valid_dateAt (-n - 1))
      rw [← dateAt_succ, Int.sub_add_cancel, ih] at hnext
      omega

/-- The year and the month of a date, counted from March. -/
def marchYear (d : Date) : Int := if d.month ≤ 2 then d.year - 1 else d.year

def marchMonth (d : Date) : Int := if d.month ≤ 2 then d.month + 9 else d.month - 3

/-- The days before a year that begins in March. -/
def daysBefore (y : Int) : Int := 365 * y + y / 4 - y / 100 + y / 400

theorem strictMono_daysBefore : StrictMono daysBefore := by
  apply strictMono_int_of_lt_succ
  intro y
  unfold daysBefore
  omega

theorem dayNumber_eq (d : Date) :
    dayNumber d = daysBefore (marchYear d) + (153 * marchMonth d + 2) / 5 + d.day - 719469 := rfl

theorem marchMonth_bounds {d : Date} (h : d.Valid) :
    (0 ≤ marchMonth d ∧ marchMonth d ≤ 11) ∧
      (marchMonth d ≤ 10 → (153 * marchMonth d + 2) / 5 + d.day ≤ (153 * (marchMonth d + 1) + 2) / 5) ∧
      daysBefore (marchYear d) + (153 * marchMonth d + 2) / 5 + d.day ≤ daysBefore (marchYear d + 1) := by
  obtain ⟨year, month, day⟩ := d
  obtain ⟨hpos, hle, hday, hlast⟩ := h
  simp only at hpos hle hday hlast
  interval_cases month
  case «2» =>
    simp only [monthLength, isLeapYear, marchMonth, marchYear, daysBefore] at hlast ⊢
    norm_num at hlast ⊢
    split at hlast <;> simp_all <;> omega
  all_goals
    simp [monthLength, marchMonth, marchYear, daysBefore] at hlast ⊢
    omega

theorem marchYear_le {d e : Date} (hd : d.Valid) (he : e.Valid) (h : dayNumber d = dayNumber e) :
    marchYear d ≤ marchYear e := by
  obtain ⟨-, -, hdyear⟩ := marchMonth_bounds hd
  obtain ⟨⟨he0, -⟩, -, heyear⟩ := marchMonth_bounds he
  obtain ⟨⟨hd0, -⟩, -, -⟩ := marchMonth_bounds hd
  have hday := hd.day_pos
  by_contra hnot
  have hmono := strictMono_daysBefore.monotone (Int.add_one_le_iff.mpr (not_le.mp hnot))
  rw [dayNumber_eq, dayNumber_eq] at h
  omega

theorem dayNumber_injective {d e : Date} (hd : d.Valid) (he : e.Valid)
    (h : dayNumber d = dayNumber e) : d = e := by
  obtain ⟨⟨hd0, hd11⟩, hdstep, hdyear⟩ := marchMonth_bounds hd
  obtain ⟨⟨he0, he11⟩, hestep, heyear⟩ := marchMonth_bounds he
  have hdday := hd.day_pos
  have heday := he.day_pos
  have hyear : marchYear d = marchYear e := le_antisymm (marchYear_le hd he h) (marchYear_le he hd h.symm)
  rw [dayNumber_eq, dayNumber_eq, hyear] at h
  have hmonth : marchMonth d = marchMonth e := by
    by_contra hne
    omega
  rw [hmonth] at h
  obtain ⟨year, month, day⟩ := d
  obtain ⟨year', month', day'⟩ := e
  have hm := hd.month_le
  have hm' := he.month_le
  have hp := hd.month_pos
  have hp' := he.month_pos
  simp only [marchYear, marchMonth] at *
  rw [Date.mk.injEq]
  split_ifs at * <;> omega

theorem dateAt_dayNumber {d : Date} (hd : d.Valid) : dateAt (dayNumber d) = d :=
  dayNumber_injective (valid_dateAt _) hd (dayNumber_dateAt _)

/-! ## The digits of a timestamp -/

/-- The numbers of a timestamp. -/
structure Stamp where
  year : Nat
  month : Nat
  day : Nat
  hour : Nat
  minute : Nat
  second : Nat
  deriving DecidableEq

namespace Stamp

/-- `YYYY-MM-DDThh:mm:ss`. -/
def text (n : Stamp) : Str :=
  padded 4 n.year ++ '-' :: (padded 2 n.month ++ '-' :: (padded 2 n.day ++ 'T' ::
    (padded 2 n.hour ++ ':' :: (padded 2 n.minute ++ ':' :: padded 2 n.second))))

/-- The numbers have no more digits than the text has places. -/
structure Fits (n : Stamp) : Prop where
  year : n.year < 10000
  month : n.month < 100
  day : n.day < 100
  hour : n.hour < 100
  minute : n.minute < 100
  second : n.second < 100

/-- What the reader checks of the numbers. -/
structure InRange (n : Stamp) : Prop where
  month_pos : 1 ≤ n.month
  month_le : n.month ≤ 12
  day_pos : 1 ≤ n.day
  day_le : n.day ≤ 31
  hour_le : n.hour ≤ 23
  minute_le : n.minute ≤ 59
  second_le : n.second ≤ 60

instance (n : Stamp) : Decidable n.InRange :=
  decidable_of_iff (1 ≤ n.month ∧ n.month ≤ 12 ∧ 1 ≤ n.day ∧ n.day ≤ 31 ∧ n.hour ≤ 23 ∧
    n.minute ≤ 59 ∧ n.second ≤ 60)
    ⟨fun ⟨h₁, h₂, h₃, h₄, h₅, h₆, h₇⟩ => ⟨h₁, h₂, h₃, h₄, h₅, h₆, h₇⟩,
      fun ⟨h₁, h₂, h₃, h₄, h₅, h₆, h₇⟩ => ⟨h₁, h₂, h₃, h₄, h₅, h₆, h₇⟩⟩

def date (n : Stamp) : Date := ⟨n.year, n.month, n.day⟩

/-- The seconds that the numbers add up to. -/
def seconds (n : Stamp) : Int :=
  dayNumber n.date * 86400 + n.hour * 3600 + n.minute * 60 + n.second

end Stamp

def zones : List Str := ["Z", "+00:00", "-00:00"]

/-- The broken-down time of the numbers. -/
def Stamp.tm (n : Stamp) : Tm :=
  { tm_year := (n.year : Int) - 1900
    tm_mon := (n.month : Int) - 1
    tm_mday := n.day
    tm_hour := n.hour
    tm_min := n.minute
    tm_sec := n.second }

theorem timegm_tm {n : Stamp} (h : n.InRange) : timegm n.tm = n.seconds := by
  obtain ⟨hmpos, hmle, -⟩ := h
  have hcarry : ((n.month : Int) - 1) / 12 = 0 := by omega
  have hmonth : (((n.month : Int) - 1) % 12).toNat + 1 = n.month := by omega
  have hday : dayNumber ⟨n.year, n.month, 1⟩ + ((n.day : Int) - 1) = dayNumber n.date := by
    simp only [dayNumber, Stamp.date]
    push_cast
    omega
  simp only [timegm, Stamp.tm, Stamp.seconds, hcarry, hmonth, Int.sub_add_cancel, Int.add_zero, hday]

theorem timeOf_tm (n : Stamp) (zone : Str) :
    timeOf n.tm zone = if n.InRange ∧ zone ∈ zones then n.seconds else -1 := by
  have hzones : zone ∈ zones ↔ ¬(zone ≠ "Z" ∧ zone ≠ "+00:00" ∧ zone ≠ "-00:00") := by
    simp only [zones, List.mem_cons, List.not_mem_nil, or_false]
    tauto
  have htm : n.tm.tm_mon = (n.month : Int) - 1 ∧ n.tm.tm_mday = n.day ∧ n.tm.tm_hour = n.hour ∧
      n.tm.tm_min = n.minute ∧ n.tm.tm_sec = n.second := ⟨rfl, rfl, rfl, rfl, rfl⟩
  obtain ⟨hmon, hmday, hhour, hmin, hsec⟩ := htm
  unfold timeOf
  by_cases hall : n.InRange ∧ zone ∈ zones
  · obtain ⟨hmpos, hmle, hdpos, hdle, hhle, hnle, hsle⟩ := hall.1
    rw [if_pos hall, if_neg (by omega), if_neg (by omega), if_neg (by omega), if_neg (by omega),
      if_neg (by omega), if_neg (hzones.mp hall.2), timegm_tm hall.1]
  · rw [if_neg hall]
    split_ifs with h₁ h₂ h₃ h₄ h₅ h₆
    case neg =>
      exact absurd ⟨⟨by omega, by omega, by omega, by omega, by omega, by omega, by omega⟩,
        hzones.mpr h₆⟩ hall
    all_goals rfl

theorem parseIso8601Utc_text {n : Stamp} (hfits : n.Fits) {zone : Str} (hne : zone ≠ []) :
    parseIso8601Utc (n.text ++ zone) = if n.InRange ∧ zone ∈ zones then n.seconds else -1 := by
  obtain ⟨y₁, y₂, y₃, y₄, hypad, hydig, hyval⟩ := BackupPrunePure.exists_four_digits hfits.year
  obtain ⟨m₁, m₂, hmpad, hmdig, hmval⟩ := BackupPrunePure.exists_two_digits hfits.month
  obtain ⟨d₁, d₂, hdpad, hddig, hdval⟩ := BackupPrunePure.exists_two_digits hfits.day
  obtain ⟨h₁, h₂, hhpad, hhdig, hhval⟩ := BackupPrunePure.exists_two_digits hfits.hour
  obtain ⟨n₁, n₂, hnpad, hndig, hnval⟩ := BackupPrunePure.exists_two_digits hfits.minute
  obtain ⟨s₁, s₂, hspad, hsdig, hsval⟩ := BackupPrunePure.exists_two_digits hfits.second
  simp only [allDigits, List.isEmpty_cons, Bool.not_false, Bool.true_and, List.all_cons, List.all_nil,
    Bool.and_true, Bool.and_eq_true] at hydig hmdig hddig hhdig hndig hsdig
  have hpos := List.length_pos_of_ne_nil hne
  rw [← timeOf_tm, Stamp.text, hypad, hmpad, hdpad, hhpad, hnpad, hspad]
  simp [parseIso8601Utc, digitPlaces, substr, hydig, hmdig, hddig, hhdig, hndig, hsdig, hyval, hmval,
    hdval, hhval, hnval, hsval, Stamp.tm]
  omega

theorem two_digits {a b : Char} (ha : isDecimalDigit a = true) (hb : isDecimalDigit b = true) :
    padded 2 (decimalValue [a, b]) = [a, b] ∧ decimalValue [a, b] < 100 := by
  have hall : [a, b].all isDecimalDigit = true := by simp [ha, hb]
  exact ⟨padded_decimalValue hall (by simp), ofDigitChars_lt_pow hall⟩

theorem four_digits {a b c d : Char} (ha : isDecimalDigit a = true) (hb : isDecimalDigit b = true)
    (hc : isDecimalDigit c = true) (hd : isDecimalDigit d = true) :
    padded 4 (decimalValue [a, b, c, d]) = [a, b, c, d] ∧ decimalValue [a, b, c, d] < 10000 := by
  have hall : [a, b, c, d].all isDecimalDigit = true := by simp [ha, hb, hc, hd]
  exact ⟨padded_decimalValue hall (by simp), (ofDigitChars_lt_pow hall).trans_eq (by simp)⟩

theorem exists_text {s : Str} (h : parseIso8601Utc s ≠ -1) :
    ∃ n : Stamp, n.Fits ∧ ∃ zone ≠ [], s = n.text ++ zone := by
  have hlength : 20 ≤ s.length := by
    by_contra hshort
    rw [parseIso8601Utc, if_pos (by omega)] at h
    exact h rfl
  rcases s with _ | ⟨y₁, _ | ⟨y₂, _ | ⟨y₃, _ | ⟨y₄, _ | ⟨a, _ | ⟨m₁, _ | ⟨m₂, _ | ⟨b, _ | ⟨d₁, _ |
    ⟨d₂, _ | ⟨c, _ | ⟨h₁, _ | ⟨h₂, _ | ⟨d, _ | ⟨n₁, _ | ⟨n₂, _ | ⟨e, _ | ⟨s₁, _ |
      ⟨s₂, zone⟩⟩⟩⟩⟩⟩⟩⟩⟩⟩⟩⟩⟩⟩⟩⟩⟩⟩⟩
  all_goals try (simp at hlength; done)
  have hsep : a = '-' ∧ b = '-' ∧ c = 'T' ∧ d = ':' ∧ e = ':' := by
    by_contra hnot
    rw [parseIso8601Utc, if_neg (by omega), if_pos] at h
    · exact h rfl
    · simp only [List.getElem?_cons_succ, List.getElem?_cons_zero, ne_eq, Option.some.injEq]
      tauto
  have hdigits : digitPlaces.any (fun i => !isDecimalDigit
      ((y₁ :: y₂ :: y₃ :: y₄ :: a :: m₁ :: m₂ :: b :: d₁ :: d₂ :: c :: h₁ :: h₂ :: d :: n₁ :: n₂ ::
        e :: s₁ :: s₂ :: zone).getD i '\x00')) = false := by
    by_contra hnot
    rw [parseIso8601Utc, if_neg (by omega)] at h
    split_ifs at h <;> simp_all
  obtain ⟨rfl, rfl, rfl, rfl, rfl⟩ := hsep
  simp only [digitPlaces, List.any_cons, List.any_nil, List.getD_cons_zero, List.getD_cons_succ,
    Bool.or_eq_false_iff, Bool.not_eq_false', and_true] at hdigits
  obtain ⟨hy₁, hy₂, hy₃, hy₄, hm₁, hm₂, hd₁, hd₂, hh₁, hh₂, hn₁, hn₂, hs₁, hs₂⟩ := hdigits
  obtain ⟨hypad, hy⟩ := four_digits hy₁ hy₂ hy₃ hy₄
  obtain ⟨hmpad, hm⟩ := two_digits hm₁ hm₂
  obtain ⟨hdpad, hd⟩ := two_digits hd₁ hd₂
  obtain ⟨hhpad, hh⟩ := two_digits hh₁ hh₂
  obtain ⟨hnpad, hn⟩ := two_digits hn₁ hn₂
  obtain ⟨hspad, hs⟩ := two_digits hs₁ hs₂
  refine ⟨⟨decimalValue [y₁, y₂, y₃, y₄], decimalValue [m₁, m₂], decimalValue [d₁, d₂],
    decimalValue [h₁, h₂], decimalValue [n₁, n₂], decimalValue [s₁, s₂]⟩, ⟨hy, hm, hd, hh, hn, hs⟩,
    zone, ?_, ?_⟩
  · rintro rfl
    simp at hlength
  · rw [Stamp.text, hypad, hmpad, hdpad, hhpad, hnpad, hspad]
    rfl

/-! ## Instants -/

/-- `YYYY-MM-DDThh:mm:ss` of an instant. -/
def clockText (t : Int) : Str := (isoTime (utcTimeAt t)).dropLast

/-- The instant lies in the years that have four digits at most. -/
def InEra (t : Int) : Prop := 0 ≤ (dateAt (t / 86400)).year ∧ (dateAt (t / 86400)).year ≤ 9999

/-- The instant a timestamp stands for.  The second 60 is a leap second: it stands behind the
last second of a month and is counted as the first one of the next. -/
inductive Denotes : Str → Int → Prop
  | clock {t : Int} {zone : Str} (hera : InEra t) (hzone : zone ∈ zones) :
      Denotes (clockText t ++ zone) t
  | leap {t : Int} {zone : Str} (hera : InEra (t - 1)) (hday : (dateAt (t / 86400)).day = 1)
      (hmidnight : t % 86400 = 0) (hzone : zone ∈ zones) :
      Denotes ((clockText (t - 1)).take 17 ++ "60" ++ zone) t

/-- The numbers that the clock shows at an instant. -/
def stampOf (t : Int) : Stamp :=
  let date := dateAt (t / 86400)
  ⟨date.year.toNat, date.month, date.day, (t % 86400 / 3600).toNat, (t % 3600 / 60).toNat,
    (t % 60).toNat⟩

theorem clockText_eq {t : Int} (h : InEra t) : clockText t = (stampOf t).text := by
  have hlast : ∀ a b c d e f : Str, (a ++ '-' :: (b ++ '-' :: (c ++ 'T' :: (d ++ ':' ::
      (e ++ ':' :: (f ++ ['Z'])))))).dropLast =
        a ++ '-' :: (b ++ '-' :: (c ++ 'T' :: (d ++ ':' :: (e ++ ':' :: f)))) := by
    intro a b c d e f
    have hsnoc : a ++ '-' :: (b ++ '-' :: (c ++ 'T' :: (d ++ ':' :: (e ++ ':' :: (f ++ ['Z']))))) =
        a ++ '-' :: (b ++ '-' :: (c ++ 'T' :: (d ++ ':' :: (e ++ ':' :: f)))) ++ ['Z'] := by
      simp
    rw [hsnoc, List.dropLast_concat]
  rw [clockText, ZfsDatasetPure.isoTime_utcTimeAt h.1, hlast]
  rfl

theorem fits_stampOf {t : Int} (h : InEra t) : (stampOf t).Fits := by
  have hvalid := valid_dateAt (t / 86400)
  have hmonth := hvalid.month_le
  have hday := hvalid.day_le.trans (monthLength_le _ _)
  obtain ⟨hlow, hhigh⟩ := h
  simp only [stampOf]
  exact ⟨by dsimp only; omega, by dsimp only; omega, by dsimp only; omega, by dsimp only; omega,
    by dsimp only; omega, by dsimp only; omega⟩

theorem length_text {n : Stamp} (h : n.Fits) : n.text.length = 19 := by
  simp only [Stamp.text, List.length_append, List.length_cons,
    length_padded (by decide : 0 < 4) h.year, length_padded (by decide : 0 < 2) h.month,
    length_padded (by decide : 0 < 2) h.day, length_padded (by decide : 0 < 2) h.hour,
    length_padded (by decide : 0 < 2) h.minute, length_padded (by decide : 0 < 2) h.second]

theorem text_injective {n m : Stamp} (hn : n.Fits) (hm : m.Fits) (h : n.text = m.text) : n = m := by
  have hcut : ∀ {w : Nat} {i j : Nat} {a b : Str} (c : Char), 0 < w → i < 10 ^ w → j < 10 ^ w →
      padded w i ++ c :: a = padded w j ++ c :: b → i = j ∧ a = b := by
    intro w i j a b c hw hi hj heq
    obtain ⟨hij, hrest⟩ := padded_append_inj hw hi hj heq
    exact ⟨hij, (List.cons.inj hrest).2⟩
  obtain ⟨hyear, h⟩ := hcut '-' (by decide) hn.year hm.year h
  obtain ⟨hmonth, h⟩ := hcut '-' (by decide) hn.month hm.month h
  obtain ⟨hday, h⟩ := hcut 'T' (by decide) hn.day hm.day h
  obtain ⟨hhour, h⟩ := hcut ':' (by decide) hn.hour hm.hour h
  obtain ⟨hminute, h⟩ := hcut ':' (by decide) hn.minute hm.minute h
  have hsecond : n.second = m.second := by
    have hvalue := congrArg decimalValue h
    rwa [decimalValue_padded, decimalValue_padded] at hvalue
  cases n
  cases m
  simp_all

/-- The numbers of a leap second. -/
theorem text_leap {n : Stamp} (hfits : n.Fits) :
    n.text.take 17 ++ "60" = { n with second := 60 }.text := by
  have hcut : ∀ second : Nat, { n with second := second }.text =
      (padded 4 n.year ++ '-' :: (padded 2 n.month ++ '-' :: (padded 2 n.day ++ 'T' ::
        (padded 2 n.hour ++ ':' :: (padded 2 n.minute ++ [':']))))) ++ padded 2 second := by
    intro second
    simp [Stamp.text]
  have hlength := length_text hfits
  have hself : n.text = { n with second := n.second }.text := rfl
  rw [hself, hcut, List.length_append, length_padded (by decide) hfits.second] at hlength
  rw [hself, hcut, hcut, List.take_left' (by omega)]
  congr 1

/-- The day exists in the month, and a leap second stands behind the last second of a month. -/
structure Stamp.Real (n : Stamp) : Prop where
  day_le : n.day ≤ monthLength n.year n.month
  leap : n.second = 60 → n.hour = 23 ∧ n.minute = 59 ∧ n.day = monthLength n.year n.month

/-- The clock shows numbers of the calendar, which add up to the instant. -/
theorem stampOf_seconds {t : Int} (h : InEra t) : (stampOf t).seconds = t := by
  have hdate : (stampOf t).date = dateAt (t / 86400) := by
    simp only [Stamp.date, stampOf, Int.toNat_of_nonneg h.1]
  rw [Stamp.seconds, hdate, dayNumber_dateAt]
  simp only [stampOf]
  omega

theorem stampOf_day_le {t : Int} (h : InEra t) :
    (stampOf t).day ≤ monthLength (stampOf t).year (stampOf t).month := by
  have hvalid := (valid_dateAt (t / 86400)).day_le
  simpa only [stampOf, Int.toNat_of_nonneg h.1] using hvalid

/-- Numbers of the calendar are shown by the clock at the instant they add up to. -/
theorem stampOf_eq {n : Stamp} (hfits : n.Fits) (hrange : n.InRange)
    (hday : n.day ≤ monthLength n.year n.month) (hsecond : n.second ≤ 59) :
    InEra n.seconds ∧ stampOf n.seconds = n := by
  have hvalid : n.date.Valid := ⟨hrange.month_pos, hrange.month_le, hrange.day_pos, hday⟩
  have hhour := hrange.hour_le
  have hminute := hrange.minute_le
  have hyear := hfits.year
  have hdays : n.seconds / 86400 = dayNumber n.date := by
    rw [Stamp.seconds]
    omega
  have hdate : dateAt (n.seconds / 86400) = n.date := by
    rw [hdays, dateAt_dayNumber hvalid]
  refine ⟨?_, ?_⟩
  · rw [InEra, hdate, Stamp.date]
    dsimp only
    omega
  · have hclock : (n.seconds % 86400 / 3600).toNat = n.hour ∧
        (n.seconds % 3600 / 60).toNat = n.minute ∧ (n.seconds % 60).toNat = n.second := by
      rw [Stamp.seconds]
      omega
    rw [stampOf, hdate, hclock.1, hclock.2.1, hclock.2.2]
    rfl

theorem not_day_lt_of_next {d : Date} (hvalid : d.Valid) (h : d.next.day = 1) :
    ¬d.day < monthLength d.year d.month := by
  intro hlt
  have hpos := hvalid.day_pos
  rw [Date.next, if_pos hlt] at h
  dsimp only at h
  omega

theorem next_day_of_last {d : Date} (h : d.day = monthLength d.year d.month) : d.next.day = 1 := by
  rw [Date.next, if_neg (by omega)]
  split <;> rfl

theorem denotes_text_iff {n : Stamp} (hfits : n.Fits) (hrange : n.InRange) {zone : Str}
    (hzone : zone ∈ zones) {t : Int} :
    Denotes (n.text ++ zone) t ↔ n.Real ∧ t = n.seconds := by
  constructor
  · intro h
    generalize htext : n.text ++ zone = s at h
    cases h with
    | @clock t zone' hera hzone' =>
        rw [clockText_eq hera] at htext
        have hcut := (List.append_inj htext
          (by rw [length_text hfits, length_text (fits_stampOf hera)])).1
        obtain rfl := text_injective hfits (fits_stampOf hera) hcut
        refine ⟨⟨stampOf_day_le hera, fun h60 => ?_⟩, (stampOf_seconds hera).symm⟩
        simp only [stampOf] at h60
        omega
    | @leap t zone' hera hday hmidnight hzone' =>
        have hfits' := fits_stampOf hera
        have hleap : Stamp.Fits { stampOf (t - 1) with second := 60 } :=
          ⟨hfits'.year, hfits'.month, hfits'.day, hfits'.hour, hfits'.minute, (by decide : 60 < 100)⟩
        rw [clockText_eq hera, text_leap hfits'] at htext
        have hcut := (List.append_inj htext (by rw [length_text hfits, length_text hleap])).1
        obtain rfl := text_injective hfits hleap hcut
        have hseconds := stampOf_seconds hera
        have hdays : t / 86400 = (t - 1) / 86400 + 1 := by omega
        rw [hdays, dateAt_succ] at hday
        refine ⟨⟨stampOf_day_le hera, fun _ => ⟨?_, ?_, ?_⟩⟩, ?_⟩
        · simp only [stampOf]
          omega
        · simp only [stampOf]
          omega
        · have hlast := not_day_lt_of_next (valid_dateAt ((t - 1) / 86400)) hday
          have hle := (valid_dateAt ((t - 1) / 86400)).day_le
          simp only [stampOf, Int.toNat_of_nonneg hera.1]
          omega
        · have hsecond : ((stampOf (t - 1)).second : Int) = 59 := by
            simp only [stampOf]
            omega
          simp only [Stamp.seconds, Stamp.date] at hseconds ⊢
          omega
  · rintro ⟨hreal, rfl⟩
    by_cases hsecond : n.second ≤ 59
    · obtain ⟨hera, hstamp⟩ := stampOf_eq hfits hrange hreal.day_le hsecond
      have hclock := Denotes.clock hera hzone
      rwa [clockText_eq hera, hstamp] at hclock
    · have h60 : n.second = 60 := le_antisymm hrange.second_le (by omega)
      obtain ⟨hhour, hminute, hlast⟩ := hreal.leap h60
      have hfits' : Stamp.Fits { n with second := 59 } :=
        ⟨hfits.year, hfits.month, hfits.day, hfits.hour, hfits.minute, (by decide : 59 < 100)⟩
      have hrange' : Stamp.InRange { n with second := 59 } :=
        ⟨hrange.month_pos, hrange.month_le, hrange.day_pos, hrange.day_le, hrange.hour_le,
          hrange.minute_le, (by decide : 59 ≤ 60)⟩
      obtain ⟨hera, hstamp⟩ := stampOf_eq hfits' hrange' hreal.day_le (le_refl 59)
      have hbefore : n.seconds - 1 = Stamp.seconds { n with second := 59 } := by
        simp only [Stamp.seconds, Stamp.date]
        omega
      rw [← hbefore] at hera hstamp
      have hdays : n.seconds / 86400 = dayNumber n.date + 1 := by
        rw [Stamp.seconds]
        omega
      have hvalid : n.date.Valid :=
        ⟨hrange.month_pos, hrange.month_le, hrange.day_pos, hreal.day_le⟩
      have hfirst : (dateAt (n.seconds / 86400)).day = 1 := by
        rw [hdays, dateAt_succ, dateAt_dayNumber hvalid]
        exact next_day_of_last hlast
      have hmidnight : n.seconds % 86400 = 0 := by
        rw [Stamp.seconds]
        omega
      have hclock := Denotes.leap hera hfirst hmidnight hzone
      rw [clockText_eq hera, hstamp, text_leap hfits'] at hclock
      rwa [show ({ n with second := 60 } : Stamp) = n by rw [← h60]] at hclock

end Crate.AuthPure
