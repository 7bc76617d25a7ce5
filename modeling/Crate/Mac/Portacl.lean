import Crate.Foundation.CNumber
import Crate.Foundation.Run

/-!
# The shared list of portacl rules

`security.mac.portacl.rules` is one list for the whole host.  A container merges
the rules for its ports into it when it starts and takes them out when it ends
(`lib/mac_pure.cpp`, `lib/mac_ops.cpp`).  Nothing records who has put a rule
there, so a rule is safe only while one party lists it.
-/

namespace Crate.MacPure

open Crate.Foundation

def formatPortaclRule (uid : Int) (proto : Str) (port : Int) : Str :=
  "uid:" ++ integerText uid ++ ":" ++ proto ++ ":" ++ integerText port

def isBlank (c : Char) : Bool := c = ' ' || c = '\t' || c = '\n'

def trim (s : Str) : Str := (s.dropWhile isBlank).rdropWhile isBlank

def splitPortaclRules (value : Str) : List Str :=
  ((value.splitOn ',').map trim).filter (fun r => !r.isEmpty)

def join (rules : List Str) : Str :=
  rules.foldl (fun out r => if out.isEmpty then out ++ r else out ++ ',' :: r) []

def appendOnce (rules : List Str) (r : Str) : List Str :=
  if r.isEmpty then rules
  else if rules.contains r then rules
  else rules ++ [r]

def mergePortaclRules (current : Str) (ours : List Str) : Str :=
  join (ours.foldl appendOnce (splitPortaclRules current))

def removePortaclRules (current : Str) (ours : List Str) : Str :=
  join ((splitPortaclRules current).filter (fun r => !ours.contains r))

/-! ## Lists of rules as texts -/

/-- A text that is one item of a list. -/
structure IsRule (r : Str) : Prop where
  nonempty : r ≠ []
  comma : ',' ∉ r
  trimmed : trim r = r

theorem isRule_of_mem_split {value r : Str} (h : r ∈ splitPortaclRules value) : IsRule r := by
  obtain ⟨hmem, hne⟩ := List.mem_filter.mp h
  obtain ⟨word, hword, rfl⟩ := List.mem_map.mp hmem
  have hsub : trim word ⊆ word := by
    intro c hc
    exact (List.dropWhile_suffix _).subset ((List.rdropWhile_prefix _ _).subset hc)
  refine ⟨by simpa using hne, fun hcomma => not_mem_of_mem_splitOn hword (hsub hcomma), ?_⟩
  unfold trim
  rw [dropWhile_rdropWhile_dropWhile, List.rdropWhile_idempotent]

theorem join_eq_intercalate {rules : List Str} (h : ∀ r ∈ rules, r ≠ []) :
    join rules = [','].intercalate rules := by
  have hrest : ∀ (rules : List Str) (out : Str), out ≠ [] →
      rules.foldl (fun out r => if out.isEmpty then out ++ r else out ++ ',' :: r) out =
        out ++ rules.flatMap (',' :: ·) := by
    intro rules
    induction rules with
    | nil =>
        intro out _
        simp
    | cons r rest ih =>
        intro out hout
        rw [List.foldl_cons, if_neg (by simpa using hout), ih _ (by simp)]
        simp
  have hinter : ∀ (first : Str) (rules : List Str),
      [','].intercalate (first :: rules) = first ++ rules.flatMap (',' :: ·) := by
    intro first rules
    induction rules generalizing first with
    | nil => simp
    | cons r rest ih =>
        rw [List.intercalate_cons_cons, ih]
        simp
  cases rules with
  | nil => rfl
  | cons first rest =>
      rw [join, List.foldl_cons, hinter]
      exact hrest rest first (h first (by simp))

theorem splitPortaclRules_join {rules : List Str} (h : ∀ r ∈ rules, IsRule r) :
    splitPortaclRules (join rules) = rules := by
  rw [join_eq_intercalate (fun r hr => (h r hr).nonempty), splitPortaclRules]
  cases rules with
  | nil => decide
  | cons first rest =>
      rw [List.splitOn_intercalate ',' (fun r hr => (h r hr).comma) (by simp)]
      have htrim : (first :: rest).map trim = first :: rest := by
        rw [List.map_congr_left (fun r hr => (h r hr).trimmed), List.map_id']
      rw [htrim, List.filter_eq_self]
      intro r hr
      simpa using (h r hr).nonempty

theorem mem_foldl_appendOnce {ours rules : List Str} (hours : ∀ r ∈ ours, r ≠ []) {r : Str} :
    r ∈ ours.foldl appendOnce rules ↔ r ∈ rules ∨ r ∈ ours := by
  induction ours generalizing rules with
  | nil => simp
  | cons first rest ih =>
      obtain ⟨hfirst, hrest⟩ := List.forall_mem_cons.mp hours
      have hone : r ∈ appendOnce rules first ↔ r ∈ rules ∨ r = first := by
        unfold appendOnce
        rw [if_neg (by simpa using hfirst)]
        split
        · rename_i hin
          constructor
          · exact .inl
          · rintro (hr | rfl)
            · exact hr
            · exact List.contains_iff_mem.mp hin
        · simp
      rw [List.foldl_cons, ih hrest, hone, List.mem_cons, or_assoc]

theorem mem_split_merge {current : Str} {ours : List Str} (hours : ∀ r ∈ ours, IsRule r) {r : Str} :
    r ∈ splitPortaclRules (mergePortaclRules current ours) ↔
      r ∈ splitPortaclRules current ∨ r ∈ ours := by
  have hmem : ∀ {x}, x ∈ ours.foldl appendOnce (splitPortaclRules current) ↔
      x ∈ splitPortaclRules current ∨ x ∈ ours :=
    mem_foldl_appendOnce (fun x hx => (hours x hx).nonempty)
  rw [mergePortaclRules, splitPortaclRules_join, hmem]
  intro x hx
  rcases hmem.mp hx with hold | hnew
  · exact isRule_of_mem_split hold
  · exact hours x hnew

/-- Neither a blank nor a separator. -/
def isPlain (c : Char) : Bool := !isBlank c && c ≠ ','

theorem isRule_of_all_isPlain {r : Str} (hne : r ≠ []) (h : r.all isPlain = true) : IsRule r := by
  have hchar : ∀ c ∈ r, isBlank c = false ∧ c ≠ ',' := by
    intro c hc
    simpa [isPlain] using List.all_eq_true.mp h c hc
  refine ⟨hne, fun hcomma => (hchar ',' hcomma).2 rfl, ?_⟩
  have hleft : r.dropWhile isBlank = r := by
    rw [List.dropWhile_eq_self_iff]
    intro hpos
    simpa using (hchar _ (List.getElem_mem hpos)).1
  rw [trim, hleft, List.rdropWhile_eq_self_iff]
  intro hlast
  simpa using (hchar _ (List.getLast_mem hlast)).1

theorem all_isPlain_integerText (n : Int) : (integerText n).all isPlain = true := by
  have hdigit : ∀ c, isDecimalDigit c = true → isPlain c = true := by
    intro c hc
    by_contra hplain
    simp only [isPlain, isBlank, Bool.and_eq_true, Bool.not_eq_true', Bool.or_eq_false_iff,
      decide_eq_false_iff_not, decide_eq_true_eq, not_and_or, not_not, ne_eq] at hplain
    rcases hplain with ((rfl | rfl) | rfl) | rfl <;> revert hc <;> decide
  have hdecimal : ∀ m : Nat, (decimal m).all isPlain = true := by
    intro m
    rw [List.all_eq_true]
    exact fun c hc => hdigit c (isDecimalDigit_of_mem_decimal hc)
  unfold integerText
  split
  · rw [List.all_cons, hdecimal]
    decide
  · exact hdecimal _

theorem isRule_formatPortaclRule {proto : Str} (h : proto.all isPlain = true) (uid port : Int) :
    IsRule (formatPortaclRule uid proto port) := by
  have hlabel : ("uid:" : Str).all isPlain = true := by decide
  have hcolon : (":" : Str).all isPlain = true := by decide
  apply isRule_of_all_isPlain
  · delta formatPortaclRule
    simp
  · delta formatPortaclRule
    simp only [List.all_append, hlabel, hcolon, h, all_isPlain_integerText, Bool.and_self]

end Crate.MacPure

namespace Crate.MacOps

open Crate.Foundation
open Crate.MacPure

structure PortaclRule where
  uid : Int
  proto : Str
  port : Int
  deriving DecidableEq, Repr

def portaclTokens (rules : List PortaclRule) : List Str :=
  rules.map (fun r => formatPortaclRule r.uid r.proto r.port)

/-- The value of the sysctl after a write that was made from its current value. -/
def addPortaclRules (current : Str) (rules : List PortaclRule) : Str :=
  mergePortaclRules current (portaclTokens rules)

def removePortaclRules (current : Str) (rules : List PortaclRule) : Str :=
  MacPure.removePortaclRules current (portaclTokens rules)

/-- The rules `runCrate` builds from `security_advanced/mac_portacl/allow_ports`. -/
def portaclRules (macAllowPorts : List Nat) : List PortaclRule :=
  macAllowPorts.flatMap (fun port => [⟨0, "tcp", port⟩, ⟨0, "udp", port⟩])

/-! ## Starts and exits -/

/-- The sysctl, and the ports of each container that has started and not exited. -/
structure World where
  rules : Str
  ports : Nat → Option (List Nat)

inductive Action where
  | enter (container : Nat) (macAllowPorts : List Nat)
  | exit (container : Nat)
  deriving DecidableEq, Repr

def step (w : World) : Action → World
  | .enter container ports =>
      match w.ports container with
      | some _ => w
      | none =>
          { rules := if ports.isEmpty then w.rules else addPortaclRules w.rules (portaclRules ports)
            ports := Function.update w.ports container (some ports) }
  | .exit container =>
      match w.ports container with
      | none => w
      | some ports =>
          { rules := if ports.isEmpty then w.rules
              else removePortaclRules w.rules (portaclRules ports)
            ports := Function.update w.ports container none }

def start (initial : Str) : World := { rules := initial, ports := fun _ => none }

/-- The rules of a container. -/
def own (ports : List Nat) : List Str := portaclTokens (portaclRules ports)

/-- The list holds the first rules and those of the containers that run, and nothing else. -/
def Accurate (initial : Str) (w : World) : Prop :=
  ∀ r, r ∈ splitPortaclRules w.rules ↔
    r ∈ splitPortaclRules initial ∨ ∃ container ports, w.ports container = some ports ∧ r ∈ own ports

theorem isRule_of_mem_own {ports : List Nat} {r : Str} (h : r ∈ own ports) : IsRule r := by
  obtain ⟨rule, hrule, rfl⟩ := List.mem_map.mp h
  obtain ⟨port, -, hpair⟩ := List.mem_flatMap.mp hrule
  simp only [List.mem_cons, List.not_mem_nil, or_false] at hpair
  have htcp : ("tcp" : Str).all isPlain = true := by decide
  have hudp : ("udp" : Str).all isPlain = true := by decide
  rcases hpair with rfl | rfl
  · exact isRule_formatPortaclRule htcp _ _
  · exact isRule_formatPortaclRule hudp _ _

/-- A container without ports leaves the list alone, which is what merging nothing would do. -/
theorem mem_rules_enter (rules : Str) (ports : List Nat) (r : Str) :
    r ∈ splitPortaclRules
        (if ports.isEmpty then rules else addPortaclRules rules (portaclRules ports)) ↔
      r ∈ splitPortaclRules rules ∨ r ∈ own ports := by
  cases ports with
  | nil => simp [own, portaclTokens, portaclRules]
  | cons port rest =>
      rw [if_neg (by simp)]
      exact mem_split_merge (fun x hx => isRule_of_mem_own hx)

theorem Accurate.enter {initial : Str} {w : World} (h : Accurate initial w) (container : Nat)
    (ports : List Nat) : Accurate initial (step w (.enter container ports)) := by
  unfold step
  dsimp only
  split
  · exact h
  · rename_i hidle
    intro r
    rw [mem_rules_enter, h r, or_assoc]
    refine or_congr_right ?_
    dsimp only
    constructor
    · rintro (⟨other, ports', hother, hr⟩ | hr)
      · refine ⟨other, ports', ?_, hr⟩
        rw [Function.update_of_ne, hother]
        rintro rfl
        rw [hidle] at hother
        contradiction
      · exact ⟨container, ports, Function.update_self _ _ _, hr⟩
    · rintro ⟨other, ports', hother, hr⟩
      by_cases hsame : other = container
      · subst hsame
        rw [Function.update_self] at hother
        cases hother
        exact .inr hr
      · rw [Function.update_of_ne hsame] at hother
        exact .inl ⟨other, ports', hother, hr⟩

end Crate.MacOps
