import Crate.Foundation.OrdMap
import Crate.Foundation.Substitution

/-!
# Variables of a specification

`substituteVars` makes one pass over the text for every variable, in the order
of the names, so a pass sees the values that earlier passes have put in.  Every
token is replaced once, pass after pass, exactly where the variables before a
name never make a token of it.
-/

namespace Crate.SpecPure

open Crate.Foundation

/-! ## The source -/

/-- `"${" + name + "}"`. -/
def token (name : Str) : Str := '$' :: '\x7b' :: (name ++ ['\x7d'])

theorem token_ne_nil (name : Str) : token name ≠ [] := List.cons_ne_nil _ _

/-- The loop of one variable, over the text from `pos` on; what stands before is not read again. -/
def replaceFrom (name value rest : Str) : Str :=
  match h : splitFirst (token name) rest with
  | none => rest
  | some (before, behind) =>
      have : behind.length < rest.length := by
        have hlength := congrArg List.length (eq_of_splitFirst h)
        have hpos := List.length_pos_of_ne_nil (token_ne_nil name)
        rw [List.length_append, List.length_append] at hlength
        omega
      before ++ value ++ replaceFrom name value behind
termination_by rest.length

def substituteVars (input : Str) (vars : OrdMap Str Str) : Str :=
  if vars.entries.isEmpty then input
  else vars.entries.foldl (fun result kv => replaceFrom kv.1 kv.2 result) input

/-- The loop of `parseStackFile` over the text of the stack file. -/
def substituteGlobals (content : Str) (globalVars : OrdMap Str Str) : Str :=
  if !globalVars.entries.isEmpty then
    globalVars.entries.foldl (fun content kv => replaceFrom kv.1 kv.2 content) content
  else content

/-! ## The purpose -/

/-- A name that ends where its token ends. -/
def IsName (name : Str) : Prop := '$' ∉ name ∧ '\x7d' ∉ name

def rulesOf (vars : List (Str × Str)) : List (Replacement Char) :=
  vars.map (fun kv => (token kv.1, kv.2))

/-- Every token of the input that has a value is replaced, in one pass. -/
def simultaneous (vars : List (Str × Str)) (input : Str) : Str := substitute (rulesOf vars) input

/-- The first `n` variables, in the order of their names. -/
def firstVars (vars : OrdMap Str Str) (n : Nat) : OrdMap Str Str :=
  ⟨vars.entries.take n, vars.sorted.sublist (List.take_sublist n _)⟩

/-- Every token of the input is replaced once: the pass of a variable, over what the passes before it
have left, meets its tokens of the input and no others. -/
structure ReplacedOnce (vars : OrdMap Str Str) (input : Str) : Prop where
  result : substituteVars input vars = simultaneous vars.entries input
  met : ∀ n, ∀ kv ∈ vars.entries[n]?, kv.2 ≠ token kv.1 →
    occurrences (token kv.1) (substituteVars input (firstVars vars n)) =
      occurrences (token kv.1) input

/-- No variable gets a new token by the substitution of the variables before it. -/
def Undisturbed (vars : OrdMap Str Str) (input : Str) : Prop :=
  ∀ n, ∀ kv ∈ vars.entries[n]?, kv.2 ≠ token kv.1 →
    occurrences (token kv.1) (simultaneous (vars.entries.take n) input) =
      occurrences (token kv.1) input

/-! ## The passes -/

theorem bracketed_token {name : Str} (h : IsName name) : Bracketed '$' '\x7d' (token name) := by
  refine ⟨by decide, '\x7b' :: name, rfl, ?_, ?_⟩
  · exact List.not_mem_cons_of_ne_of_not_mem (by decide) h.1
  · exact List.not_mem_cons_of_ne_of_not_mem (by decide) h.2

theorem token_injective : Function.Injective token := by
  intro a b h
  simpa [token] using h

theorem replaceFrom_eq (name value rest : Str) :
    replaceFrom name value rest = substitute [(token name, value)] rest := by
  induction hlen : rest.length using Nat.strong_induction_on generalizing rest with
  | _ len ih =>
      rw [replaceFrom]
      split
      · rename_i hnone
        rw [substitute_of_splitFirst_none (token_ne_nil name) hnone]
      · rename_i before behind hsome
        have hlength := congrArg List.length (eq_of_splitFirst hsome)
        have hpos := List.length_pos_of_ne_nil (token_ne_nil name)
        rw [List.length_append, List.length_append] at hlength
        rw [substitute_of_splitFirst (token_ne_nil name) hsome, ih _ (by omega) behind rfl]

theorem substituteVars_eq (input : Str) (vars : OrdMap Str Str) :
    substituteVars input vars = (rulesOf vars.entries).foldl (fun s r => substitute [r] s) input := by
  have hloop : ∀ (l : List (Str × Str)) (s : Str),
      l.foldl (fun result kv => replaceFrom kv.1 kv.2 result) s =
        (rulesOf l).foldl (fun s r => substitute [r] s) s := by
    intro l s
    simp only [rulesOf, List.foldl_map, replaceFrom_eq]
  unfold substituteVars
  split
  · rename_i hempty
    rw [List.isEmpty_iff.mp hempty]
    rfl
  · exact hloop _ _

theorem substituteGlobals_eq (content : Str) (globalVars : OrdMap Str Str) :
    substituteGlobals content globalVars = substituteVars content globalVars := by
  unfold substituteGlobals substituteVars
  cases globalVars.entries.isEmpty <;> rfl

section Names

variable {vars : OrdMap Str Str} (hnames : ∀ kv ∈ vars.entries, IsName kv.1)
include hnames

theorem allBracketed_rulesOf : AllBracketed '$' '\x7d' (rulesOf vars.entries) := by
  intro r hr
  obtain ⟨kv, hkv, rfl⟩ := List.mem_map.mp hr
  exact bracketed_token (hnames kv hkv)

omit hnames in
theorem nodup_rulesOf (vars : OrdMap Str Str) : ((rulesOf vars.entries).map Prod.fst).Nodup := by
  have htokens : (rulesOf vars.entries).map Prod.fst = (vars.entries.map Prod.fst).map token := by
    simp [rulesOf]
  rw [htokens]
  exact vars.keys_nodup.map token_injective

omit hnames in
theorem substituteVars_firstVars (input : Str) (vars : OrdMap Str Str) (n : Nat) :
    substituteVars input (firstVars vars n) =
      ((rulesOf vars.entries).take n).foldl (fun s r => substitute [r] s) input := by
  rw [substituteVars_eq, firstVars, rulesOf, rulesOf, List.map_take]

omit hnames in
theorem simultaneous_take (vars : List (Str × Str)) (n : Nat) (input : Str) :
    simultaneous (vars.take n) input = substitute ((rulesOf vars).take n) input := by
  rw [simultaneous, rulesOf, rulesOf, List.map_take]

omit hnames in
theorem forall_rulesOf {vars : List (Str × Str)} {P : Nat → Replacement Char → Prop} :
    (∀ n, ∀ r ∈ (rulesOf vars)[n]?, P n r) ↔ ∀ n, ∀ kv ∈ vars[n]?, P n (token kv.1, kv.2) := by
  simp only [rulesOf, List.getElem?_map, Option.mem_def, Option.map_eq_some_iff]
  constructor
  · intro h n kv hkv
    exact h n _ ⟨kv, hkv, rfl⟩
  · rintro h n r ⟨kv, hkv, rfl⟩
    exact h n kv hkv

theorem replacedOnce_iff (input : Str) : ReplacedOnce vars input ↔ Undisturbed vars input := by
  have hrules := allBracketed_rulesOf hnames
  have hdistinct := nodup_rulesOf vars
  have hmet := foldl_meets_iff hrules hdistinct input
  rw [forall_rulesOf, forall_rulesOf] at hmet
  simp only [← substituteVars_firstVars, ← simultaneous_take] at hmet
  constructor
  · intro h
    exact hmet.mp h.met
  · intro h
    refine ⟨?_, hmet.mpr h⟩
    have hall := foldl_substitute_eq hrules hdistinct input (rulesOf vars.entries).length
    rw [List.take_length, ← substituteVars_eq] at hall
    apply hall
    intro n _ r hr hvalue _
    have hr' := (forall_rulesOf (P := fun n r => r.2 ≠ r.1 →
      occurrences r.1 (simultaneous (vars.entries.take n) input) = occurrences r.1 input)).mpr h
    rw [← simultaneous_take]
    exact hr' n r hr hvalue

/-! ## Other names -/

/-- `vars'` is `vars` under other names, which do not stand in the input yet. -/
structure Renamed (name : Str → Str) (vars vars' : OrdMap Str Str) (input : Str) : Prop where
  isName : ∀ kv ∈ vars'.entries, IsName kv.1
  entries : ∀ kv', kv' ∈ vars'.entries ↔ ∃ kv ∈ vars.entries, kv' = (name kv.1, kv.2)
  fresh : ∀ kv ∈ vars.entries, name kv.1 ∉ vars.entries.map Prod.fst →
    occurrences (token (name kv.1)) input = 0

/-- The input with the new names in its tokens. -/
def renamedInput (name : Str → Str) (vars : OrdMap Str Str) (input : Str) : Str :=
  simultaneous (vars.entries.map (fun kv => (kv.1, token (name kv.1)))) input

/-- The name in a token. -/
def nameOf (t : Str) : Str := (t.drop 2).dropLast

omit hnames in
theorem nameOf_token (name : Str) : nameOf (token name) = name := by
  simp [nameOf, token]

theorem simultaneous_renamed {name : Str → Str} {vars' : OrdMap Str Str} {input : Str}
    (h : Renamed name vars vars' input) :
    simultaneous vars'.entries (renamedInput name vars input) =
      simultaneous vars.entries input := by
  have hrules : rulesOf (vars.entries.map (fun kv => (kv.1, token (name kv.1)))) =
      renamed (fun t => token (name (nameOf t))) (rulesOf vars.entries) := by
    simp [rulesOf, renamed, nameOf_token]
  rw [renamedInput, simultaneous, simultaneous, simultaneous, hrules]
  apply substitute_renamed (allBracketed_rulesOf hnames) (nodup_rulesOf vars)
    (allBracketed_rulesOf h.isName) (nodup_rulesOf vars')
  · intro r'
    constructor
    · intro hr'
      obtain ⟨kv', hkv', rfl⟩ := List.mem_map.mp hr'
      obtain ⟨kv, hkv, rfl⟩ := (h.entries kv').mp hkv'
      exact ⟨(token kv.1, kv.2), List.mem_map_of_mem hkv, by rw [nameOf_token]⟩
    · rintro ⟨r, hr, rfl⟩
      obtain ⟨kv, hkv, rfl⟩ := List.mem_map.mp hr
      rw [nameOf_token]
      exact List.mem_map_of_mem ((h.entries _).mpr ⟨kv, hkv, rfl⟩)
  · intro r hr hnew
    obtain ⟨kv, hkv, rfl⟩ := List.mem_map.mp hr
    rw [nameOf_token] at hnew ⊢
    apply h.fresh kv hkv
    intro hold
    obtain ⟨other, hother, hname⟩ := List.mem_map.mp hold
    exact hnew (List.mem_map.mpr ⟨_, List.mem_map_of_mem hother, congrArg token hname⟩)

end Names

/-! ## The law -/

/-- The substitution is simultaneous, under these names and under the others. -/
structure SameUnderNames (name : Str → Str) (vars vars' : OrdMap Str Str) (input : Str) : Prop where
  once : ReplacedOnce vars input
  onceRenamed : ReplacedOnce vars' (renamedInput name vars input)
  same : substituteVars (renamedInput name vars input) vars' = substituteVars input vars

/-- Exactly the inputs in which no variable makes a token of a later one, under either names. -/
theorem substituteVars_simultaneous_iff (vars : OrdMap Str Str)
    (hnames : ∀ kv ∈ vars.entries, IsName kv.1) (input : Str) (name : Str → Str)
    (vars' : OrdMap Str Str) (hrenamed : Renamed name vars vars' input) :
    SameUnderNames name vars vars' input ↔
      Undisturbed vars input ∧ Undisturbed vars' (renamedInput name vars input) := by
  have hiff := replacedOnce_iff hnames input
  have hiff' := replacedOnce_iff hrenamed.isName (renamedInput name vars input)
  constructor
  · intro h
    exact ⟨hiff.mp h.once, hiff'.mp h.onceRenamed⟩
  · rintro ⟨h, h'⟩
    have honce := hiff.mpr h
    have honce' := hiff'.mpr h'
    refine ⟨honce, honce', ?_⟩
    rw [honce.result, honce'.result, simultaneous_renamed hnames hrenamed]

/-- The value of `C` is the token of `B`, whose pass comes first. -/
def nested : OrdMap Str Str := OrdMap.ofList [("B".toList, "x".toList), ("C".toList, token "B")]

/-- `nested` with the name `Z` for `B`, whose pass comes last. -/
def nestedZ : OrdMap Str Str := OrdMap.ofList [("C".toList, token "B"), ("Z".toList, "x".toList)]

def nameZ (name : Str) : Str := if name = "B" then "Z" else name

theorem substituteVars_nested :
    SameUnderNames nameZ nested nestedZ (token "C" ++ token "B") ∧
      substituteVars (token "C" ++ token "B") nested = token "B" ++ "x" := by
  have hnames : ∀ kv ∈ nested.entries, IsName kv.1 := by
    intro kv hkv
    rcases List.mem_pair.mp hkv with rfl | rfl
    · exact ⟨by decide, by decide⟩
    · exact ⟨by decide, by decide⟩
  have hrenamed : Renamed nameZ nested nestedZ (token "C" ++ token "B") := by
    refine ⟨?_, ?_, ?_⟩
    · intro kv hkv
      rcases List.mem_pair.mp hkv with rfl | rfl
      · exact ⟨by decide, by decide⟩
      · exact ⟨by decide, by decide⟩
    · intro kv'
      have hentries : nested.entries = [("B".toList, "x".toList), ("C".toList, token "B")] := by
        decide
      have hentries' : nestedZ.entries = [("C".toList, token "B"), ("Z".toList, "x".toList)] := by
        decide
      rw [hentries, hentries', List.mem_pair]
      constructor
      · rintro (rfl | rfl)
        · exact ⟨_, List.mem_cons_of_mem _ List.mem_cons_self, rfl⟩
        · exact ⟨_, List.mem_cons_self, rfl⟩
      · rintro ⟨kv, hkv, rfl⟩
        rcases List.mem_pair.mp hkv with rfl | rfl
        · exact .inr rfl
        · exact .inl rfl
    · decide
  have hundisturbed : Undisturbed nested (token "C" ++ token "B") := by
    rintro (_ | _ | n) kv hkv
    · cases hkv
      decide
    · cases hkv
      decide
    · cases hkv
  have hundisturbedZ : Undisturbed nestedZ (renamedInput nameZ nested (token "C" ++ token "B")) := by
    rintro (_ | _ | n) kv hkv
    · cases hkv
      decide
    · cases hkv
      decide
    · cases hkv
  have hsame := (substituteVars_simultaneous_iff nested hnames _ nameZ nestedZ hrenamed).mpr
    ⟨hundisturbed, hundisturbedZ⟩
  refine ⟨hsame, ?_⟩
  rw [hsame.once.result]
  decide

/-- The value of `A` is the token of `B`. -/
def chained : OrdMap Str Str := OrdMap.ofList [("A".toList, token "B"), ("B".toList, "x".toList)]

/-- `chained` with the name `C` for `A`. -/
def chainedC : OrdMap Str Str := OrdMap.ofList [("C".toList, token "B"), ("B".toList, "x".toList)]

/-- The value of `A` is read again, but not when `A` is called `C`. -/
theorem substituteVars_rescans :
    substituteVars (token "A") chained = "x" ∧
      simultaneous chained.entries (token "A") = token "B" ∧
      substituteVars (token "C") chainedC = token "B" := by
  refine ⟨?_, by decide, ?_⟩
  · rw [substituteVars_eq]
    decide
  · rw [substituteVars_eq]
    decide

end Crate.SpecPure
