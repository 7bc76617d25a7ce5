import Crate.Control.Addressing
import Crate.Foundation.KeyedSteps
import Crate.PrivOps.RctlValues

/-!
# What a patch does to the rules of a jail

A patch becomes up to four rules, added one by one.  Nothing takes the first
ones back when a later one is refused, and no value is looked at before it goes
into a rule.
-/

namespace Crate.ControlSocket

open Crate.Foundation
open Crate.ControlSocketPure
open Crate.JailQuery (Host findContainer)
open Crate.RetunePure (validateRctlValue)

/-! ## The values a validator lets through -/

section Values

variable {s : Str} {c : Char}

/-- The characters of numbers and sizes. -/
def isSizeChar (c : Char) : Bool :=
  isDecimalDigit c || c ∈ ['.', 'K', 'k', 'M', 'm', 'G', 'g', 'T', 't']

theorem isSizeChar_of_humanSizeLoop {sawDot sawDigit : Bool}
    (h : RetunePure.humanSizeLoop s sawDot sawDigit = true) (hc : c ∈ s) :
    isSizeChar c = true := by
  induction s generalizing sawDot sawDigit with
  | nil => simp at hc
  | cons d s ih =>
      rw [RetunePure.humanSizeLoop] at h
      split_ifs at h with hdigit hdot
      · cases hc with
        | head => simp [isSizeChar, hdigit]
        | tail _ hc => exact ih h hc
      · cases hc with
        | head =>
            rw [Bool.and_eq_true, decide_eq_true_eq] at hdot
            simp [isSizeChar, hdot.1]
        | tail _ hc => exact ih h hc

theorem isSizeChar_of_isHumanSize (h : RetunePure.isHumanSize s = true) (hc : c ∈ s) :
    isSizeChar c = true := by
  rw [RetunePure.isHumanSize] at h
  split at h
  · simp at h
  · rename_i suf hlast
    dsimp only at h
    split_ifs at h with hsuffix
    · rw [← List.dropLast_append_getLast? suf hlast, List.mem_append, List.mem_singleton] at hc
      cases hc with
      | inl hc => exact isSizeChar_of_humanSizeLoop h hc
      | inr hc => simp [isSizeChar, hc, hsuffix]
    · exact isSizeChar_of_humanSizeLoop h hc

theorem isSizeChar_of_allDigits (h : allDigits s = true) (hc : c ∈ s) : isSizeChar c = true := by
  rw [allDigits, Bool.and_eq_true, List.all_eq_true] at h
  simp [isSizeChar, h.2 c hc]

theorem isSizeChar_of_validateRctlValue {key : Str} (h : validateRctlValue key s = .ok ())
    (hc : c ∈ s) : isSizeChar c = true := by
  rw [validateRctlValue, reject_bind_eq_ok, reject_bind_eq_ok] at h
  obtain ⟨-, -, h⟩ := h
  split_ifs at h
  · rw [reject_eq_ok, Bool.not_eq_true', Bool.not_eq_false, RetunePure.isInt0to100,
      Bool.and_eq_true] at h
    exact isSizeChar_of_allDigits h.1 hc
  · rw [reject_eq_ok, Bool.not_eq_true', Bool.not_eq_false] at h
    exact isSizeChar_of_isHumanSize h hc
  · rw [reject_eq_ok, Bool.not_eq_true', Bool.not_eq_false] at h
    exact isSizeChar_of_allDigits h hc

/-- The value is one for its key, and has none of the separators of a rule. -/
structure ValidValue (member : Str × Str) : Prop where
  accepted : validateRctlValue member.1 member.2 = .ok ()
  separators : ∀ c ∈ [':', '=', ','], c ∉ member.2

theorem validValue_iff {member : Str × Str} :
    ValidValue member ↔ validateRctlValue member.1 member.2 = .ok () := by
  constructor
  · exact ValidValue.accepted
  · intro h
    refine ⟨h, ?_⟩
    intro c hc hmem
    have hsize := isSizeChar_of_validateRctlValue h hmem
    simp only [List.mem_cons, List.not_mem_nil, or_false] at hc
    rcases hc with rfl | rfl | rfl
    · exact absurd hsize (by decide)
    · exact absurd hsize (by decide)
    · exact absurd hsize (by decide)

end Values

/-! ## The rules of a jail -/

def ruleSubject (jailName : Str) : Str := "jail:" ++ jailName ++ ":"

def limitRule (jailName : Str) (member : Str × Str) : Str :=
  ruleSubject jailName ++ member.1 ++ ":deny=" ++ member.2

/-- The resource that a rule of a jail limits. -/
def resourceOf (jailName rule : Str) : Str :=
  (rule.drop (ruleSubject jailName).length).takeWhile (· ≠ ':')

theorem resourceOf_limitRule {member : Str × Str} (h : ':' ∉ member.1) (jailName : Str) :
    resourceOf jailName (limitRule jailName member) = member.1 := by
  have hdeny : (":deny=" : Str) = ':' :: "deny=" := rfl
  rw [resourceOf, limitRule, hdeny, List.append_assoc, List.append_assoc, List.drop_left,
    List.cons_append, takeWhile_append_cons h]

section Rules

/- `rctl(8)`: the rules a jail has for one resource, and what they become by a rule for it that is
taken.  Rules for other resources stay. -/
variable {ρ : Type*} (take : Str → ρ → ρ) (env : Env)

def addRule (rules : Str → ρ) : Effect → Str → ρ
  | .limits jailName rule =>
      if env.rctlAdd rule = none then
        Function.update rules (resourceOf jailName rule)
          (take rule (rules (resourceOf jailName rule)))
      else rules
  | _ => rules

def rulesAfter (rules : Str → ρ) (effects : List Effect) : Str → ρ :=
  effects.foldl (addRule take env) rules

def resourceKeys : List Str := ["pcpu", "memoryuse", "readbps", "writebps"]

/-- Only a request answered with 200 changes the rules, and then all its values are valid. -/
structure AllOrNothing (rules : Str → ρ) (outcome : Outcome) : Prop where
  unchanged : outcome.status ≠ 200 → rulesAfter take env rules outcome.effects = rules
  valid : outcome.status = 200 → ∀ jailName, ∀ member : Str × Str,
    member.1 ∈ resourceKeys → .limits jailName (limitRule jailName member) ∈ outcome.effects → ValidValue member

/-! ## The run over the values -/

def patchValues (patch : ResourcesPatch) : List (Str × Str) :=
  patch.members.filter (fun member => !member.2.isEmpty)

def taken (jailName : Str) (member : Str × Str) : Bool :=
  (env.rctlAdd (limitRule jailName member)).isNone

variable {env} {jailName : Str}

theorem applyLimits_eq (members : List (Str × Str)) :
    applyLimits env jailName members =
      ((attempted (taken env jailName) (members.filter (fun m => !m.2.isEmpty))).map
          (fun m => .limits jailName (limitRule jailName m)),
        ((members.filter (fun m => !m.2.isEmpty)).find? (fun m => !taken env jailName m)).bind
          (fun m => env.rctlAdd (limitRule jailName m))) := by
  induction members with
  | nil => rfl
  | cons member rest ih =>
      obtain ⟨key, value⟩ := member
      rw [applyLimits]
      by_cases hempty : value.isEmpty = true
      · rw [if_pos hempty, ih, List.filter_cons_of_neg (by simp [hempty])]
      · rw [if_neg hempty, List.filter_cons_of_pos (by simp [hempty])]
        have hrule : "jail:" ++ jailName ++ ":" ++ key ++ ":deny=" ++ value =
            limitRule jailName (key, value) := rfl
        dsimp only
        rw [hrule]
        cases hadd : env.rctlAdd (limitRule jailName (key, value)) with
        | some err => simp [attempted, taken, hadd]
        | none => simp [attempted, taken, hadd, ih]

theorem applyLimits_snd_eq_none_iff {members : List (Str × Str)} :
    (applyLimits env jailName members).2 = none ↔
      (members.filter (fun m => !m.2.isEmpty)).all (taken env jailName) = true := by
  rw [applyLimits_eq, List.all_eq_true]
  dsimp only
  cases hfind : (members.filter (fun m => !m.2.isEmpty)).find?
      (fun m => !taken env jailName m) with
  | none =>
      simp only [Option.bind_none, true_iff]
      simpa using hfind
  | some m =>
      have hrefused : taken env jailName m = false := by simpa using List.find?_some hfind
      have hsome : env.rctlAdd (limitRule jailName m) ≠ none := by
        rwa [← Option.isSome_iff_ne_none, ← Option.isNone_eq_false_iff]
      simp only [Option.bind_some, hsome, false_iff]
      intro hall
      rw [hall m (List.mem_of_find?_eq_some hfind)] at hrefused
      contradiction

theorem keys_sublist (patch : ResourcesPatch) :
    ((patchValues patch).map Prod.fst).Sublist resourceKeys :=
  List.filter_sublist.map Prod.fst

theorem keys_nodup (patch : ResourcesPatch) : ((patchValues patch).map Prod.fst).Nodup :=
  (keys_sublist patch).nodup (by decide)

theorem key_mem {patch : ResourcesPatch} {m : Str × Str} (h : m ∈ patchValues patch) :
    m.1 ∈ resourceKeys := (keys_sublist patch).subset (List.mem_map_of_mem h)

theorem colon_not_mem_key {key : Str} (h : key ∈ resourceKeys) : ':' ∉ key := by
  revert key
  decide

theorem mem_of_mem_attempted {steps : List (Str × Str)} {accepts : Str × Str → Bool}
    {m : Str × Str} (h : m ∈ attempted accepts steps) : m ∈ steps := by
  induction steps with
  | nil => exact h
  | cons s steps ih =>
      rw [attempted] at h
      split_ifs at h
      · cases h with
        | head => exact List.mem_cons_self
        | tail _ h => exact List.mem_cons_of_mem _ (ih h)
      · exact List.mem_cons.mpr (.inl (List.mem_singleton.mp h))

theorem rulesAfter_attempted {steps : List (Str × Str)} (hkeys : ∀ m ∈ steps, ':' ∉ m.1)
    (rules : Str → ρ) :
    rulesAfter take env rules
        ((attempted (taken env jailName) steps).map
          (fun m => .limits jailName (limitRule jailName m))) =
      writeEntries (fun m => take (limitRule jailName m))
        (steps.takeWhile (taken env jailName)) rules := by
  rw [← filter_attempted, rulesAfter, writeEntries, List.foldl_map, List.foldl_filter]
  apply List.foldl_ext
  intro rules m hm
  rw [addRule, resourceOf_limitRule (hkeys m (mem_of_mem_attempted hm))]
  simp only [taken, Option.isNone_iff_eq_none]

/-! ## All or nothing -/

/-- If `rctl` takes all the rules, the values are valid; if not, those before the refused one were
rules already. -/
def PatchSound (take : Str → ρ → ρ) (env : Env) (rules : Str → ρ) (jailName : Str)
    (patch : ResourcesPatch) : Prop :=
  if (patchValues patch).all (taken env jailName) then
    ∀ m ∈ patchValues patch, validateRctlValue m.1 m.2 = .ok ()
  else
    ∀ m ∈ (patchValues patch).takeWhile (taken env jailName),
      take (limitRule jailName m) (rules m.1) = rules m.1

variable {take} {rules : Str → ρ} {host : Host}

theorem allOrNothing_of_refused {outcome : Outcome} (hstatus : outcome.status ≠ 200)
    (heffects : outcome.effects = []) : AllOrNothing take env rules outcome := by
  constructor
  · intro _
    rw [heffects]
    rfl
  · intro h
    exact absurd h hstatus

theorem limitRule_injective {m m' : Str × Str} (hm : m.1 ∈ resourceKeys)
    (hm' : m'.1 ∈ resourceKeys) (h : limitRule jailName m = limitRule jailName m') :
    m = m' := by
  have hkey : m.1 = m'.1 := by
    rw [← resourceOf_limitRule (colon_not_mem_key hm) jailName, h,
      resourceOf_limitRule (colon_not_mem_key hm')]
  rw [limitRule, limitRule, hkey] at h
  exact Prod.ext hkey (List.append_cancel_left h)

theorem allOrNothing_applied_iff {patch : ResourcesPatch} :
    AllOrNothing take env rules
        (match applyLimits env jailName patch.members with
        | (effects, some err) => failure 500 ("rctl(8) failed: " ++ err) effects
        | (effects, none) =>
            { effects := effects, status := 200, body := renderPatchOkJson patch }) ↔
      PatchSound take env rules jailName patch := by
  have hnone : (applyLimits env jailName patch.members).2 = none ↔
      (patchValues patch).all (taken env jailName) = true := applyLimits_snd_eq_none_iff
  have heffects : (applyLimits env jailName patch.members).1 =
      (attempted (taken env jailName) (patchValues patch)).map
        (fun m => .limits jailName (limitRule jailName m)) :=
    congrArg Prod.fst (applyLimits_eq patch.members)
  rw [PatchSound]
  rcases happly : applyLimits env jailName patch.members with ⟨effects, _ | err⟩
  · rw [happly] at hnone heffects
    have hall := hnone.mp rfl
    dsimp only at heffects
    rw [attempted_of_all hall] at heffects
    subst heffects
    rw [if_pos hall]
    constructor
    · intro h m hm
      exact (h.valid rfl jailName m (key_mem hm) (List.mem_map_of_mem hm)).accepted
    · intro h
      refine ⟨fun hstatus => absurd rfl hstatus, ?_⟩
      intro _ name m hkey hm
      obtain ⟨m', hm', heq⟩ := List.mem_map.mp hm
      injection heq with hname hrule
      subst hname
      obtain rfl := limitRule_injective (key_mem hm') hkey hrule
      exact validValue_iff.mpr (h m' hm')
  · rw [happly] at hnone heffects
    have hrefused : ¬(patchValues patch).all (taken env jailName) = true :=
      fun hall => absurd (hnone.mpr hall) (by simp)
    dsimp only at heffects
    subst heffects
    rw [if_neg hrefused]
    have hnodup := (List.takeWhile_sublist (taken env jailName)).map Prod.fst |>.nodup
      (keys_nodup patch)
    rw [← writeEntries_eq_self_iff (fun m => take (limitRule jailName m)) hnodup,
      ← rulesAfter_attempted take fun m hm => colon_not_mem_key (key_mem hm)]
    constructor
    · intro h
      exact h.unchanged (by simp)
    · intro h
      exact ⟨fun _ => h, fun hstatus => absurd hstatus (by simp)⟩

theorem patch_all_or_nothing_iff {ρ : Type*} (take : Str → ρ → ρ) (rules : Str → ρ) (host : Host)
    (env : Env) (name body : Str) :
    AllOrNothing take env rules (handlePatch host env name body) ↔
      ∀ j ∈ (findContainer host name).1, ∀ patch, parseResourcesPatch body = .ok patch →
        PatchSound take env rules j.name patch := by
  rw [handlePatch, findNamed]
  rcases findContainer host name with ⟨_ | j, count⟩
  · simp only [Option.not_mem_none, false_imp_iff, implies_true, iff_true]
    split_ifs
    · exact allOrNothing_of_refused (by simp) rfl
    · exact allOrNothing_of_refused (by simp) rfl
  · simp only [Option.mem_def, Option.some.injEq, forall_eq']
    cases parseResourcesPatch body with
    | error err =>
        simp only [reduceCtorEq, false_imp_iff, implies_true, iff_true]
        exact allOrNothing_of_refused (by simp) rfl
    | ok patch =>
        simp only [Except.ok.injEq, forall_eq']
        exact allOrNothing_applied_iff

end Rules

/-- A host on which `rctl` does not take a value. -/
def refusing (value : Str) : Env where
  registry := .text []
  pathExists := fun _ => true
  rctlAdd := fun rule => if value.isSuffixOf rule then some "rctl -a: exit status 1" else none

def halfRefused : Str := "\x7b\"pcpu\":\"50\",\"writebps\":\"fast\"\x7d"

def overPercent : Str := "\x7b\"pcpu\":\"101\"\x7d"

def patchWeb (body : Str) : Outcome := handlePatch (hostWith "web") (refusing "fast") "web" body

/-- The rules by their text, of which there are none before. -/
def rulesOfWeb (body : Str) : Str → Option Str :=
  rulesAfter (fun rule _ => some rule) (refusing "fast") (fun _ => none) (patchWeb body).effects

theorem refused_patch_leaves_a_rule :
    (patchWeb halfRefused).status = 500 ∧
      rulesOfWeb halfRefused "pcpu" = some "jail:web_pid4242:pcpu:deny=50" ∧
      ¬AllOrNothing (fun rule (_ : Option Str) => some rule) (refusing "fast") (fun _ => none)
        (patchWeb halfRefused) ∧
      (patchWeb overPercent).status = 200 ∧
      ¬AllOrNothing (fun rule (_ : Option Str) => some rule) (refusing "fast") (fun _ => none)
        (patchWeb overPercent) := by
  have hrefused : (patchWeb halfRefused).status = 500 := by decide
  have hrule : rulesOfWeb halfRefused "pcpu" = some "jail:web_pid4242:pcpu:deny=50" := by decide
  have hdone : (patchWeb overPercent).status = 200 := by decide
  refine ⟨hrefused, hrule, ?_, hdone, ?_⟩
  · intro h
    have hkept := congrFun (h.unchanged (by rw [hrefused]; decide)) "pcpu"
    cases hrule.symm.trans hkept
  · intro h
    have hvalid := h.valid hdone "web_pid4242" ("pcpu", "101") (by decide) (by decide)
    exact absurd hvalid.accepted (by decide)

end Crate.ControlSocket
