import Crate.Foundation.Run
import Crate.Stack.Policies

/-!
# Policies of several stacks

Each `stack up` takes a block of rule numbers for its bridge, adds its rules one
by one and deletes them by their numbers at its end; a `stack down` deletes the
rules that the listing shows on the bridge.  The list of rules is the only place
where one stack sees the blocks of the others.
-/

namespace Crate.Stack

open Crate.Foundation
open Crate.IpfwOps (Rule addRule deleteRule mem_addRule mem_deleteRule)
open Crate.StackPure

/-- `ipfw(8)`, as far as the code relies on it. -/
structure Ipfw where
  /-- Whether `ipfw add` takes a rule under a number. -/
  accepts : Nat → Str → Bool
  /-- The line of a rule in `ipfw list`. -/
  line : Nat → Str → Str
  accepts_number : ∀ {n text}, accepts n text = true → 0 < n ∧ n < 65535
  line_newline : ∀ n text, '\n' ∉ line n text
  line_number : ∀ n text, ∃ rest, line n text = padded 5 n ++ ' ' :: rest
  /-- A clause `via` that ends a rule ends its line, and is the only one in it. -/
  line_via : ∀ {n front ifname}, isWord ifname = true →
    accepts n (front ++ " via " ++ ifname) = true →
    ∃ shown, line n (front ++ " via " ++ ifname) = shown ++ " via " ++ ifname ∧
      ¬(" via " : Str) <:+: shown ++ " via"

/-- The bridge of each stack. -/
structure Bridges where
  ifname : Nat → Str
  word : ∀ s, isWord (ifname s) = true
  injective : Function.Injective ifname

theorem Bridges.ne_nil (bridges : Bridges) (s : Nat) : bridges.ifname s ≠ [] := by
  have hword := bridges.word s
  simp only [isWord, Bool.and_eq_true] at hword
  simpa using hword.1

/-- A rule of the host that belongs to no stack. -/
structure HostRule where
  number : Nat
  text : Str
  pos : 0 < number
  max : number ≤ 65535

/-- What the kernel has of a rule, and the stack that has added it. -/
structure Body where
  owner : Option Nat
  text : Str
  deriving DecidableEq, Repr

/-- What a `stack up` gives to `applyNetworkPolicies`. -/
structure Network where
  policy : NetworkPolicy
  nameToIp : OrdMap Str Str
  otherStackSubnets : List Str

/-- Where the `stack up` of a stack stands. -/
inductive Up where
  | idle
  | adding (slotBase : Nat) (addedRules : List Nat) (rest : List Str)
  | cleaning (slotBase : Nat) (rest : List Nat)
  | gone
  deriving DecidableEq, Repr

structure World where
  rules : List (Rule Body)
  up : Nat → Up
  /-- The numbers that a `stack down` of the stack has yet to delete. -/
  down : Nat → List Nat

inductive Action where
  | up (s : Nat) (net : Network)
  | add (s : Nat)
  /-- `stack up` ends, or a rule cannot be added: the cleanup begins. -/
  | cleanUp (s : Nat)
  | delete (s : Nat)
  /-- `stack up` ends without its cleanup. -/
  | kill (s : Nat)
  | down (s : Nat)
  | downDelete (s : Nat)
  | killDown (s : Nat)

section Machine

variable (ipfw : Ipfw) (bridges : Bridges)

def ipfwList (rules : List (Rule Body)) : Str :=
  rules.flatMap (fun r => ipfw.line r.number r.body.text ++ ['\n'])

def setUp (w : World) (s : Nat) (phase : Up) : World :=
  { w with up := Function.update w.up s phase }

/-- `addRule(ruleNum, ruleStr)`; the numbers follow each other from the base on. -/
def addNext (w : World) (s slotBase : Nat) (addedRules : List Nat) : List Str → World
  | [] => setUp w s (.adding slotBase addedRules [])
  | text :: rest =>
      let ruleNum := slotBase + addedRules.length
      if ipfw.accepts ruleNum text then
        setUp { w with rules := addRule w.rules ruleNum ⟨some s, text⟩ } s
          (.adding slotBase (addedRules ++ [ruleNum]) rest)
      else setUp w s (.cleaning slotBase addedRules)

/-- The choice of the block and the first rule. -/
def beginUp (w : World) (s : Nat) (net : Network) : World :=
  if net.policy.rules = [] ∧ net.policy.defaultAction = "allow" then setUp w s .gone
  else
    let slotBase := freePolicySlot (ipfwRuleNumbers (ipfwList ipfw w.rules))
    if slotBase = 0 then setUp w s .gone
    else
      addNext ipfw w s slotBase []
        (policyRules net.policy net.nameToIp (bridges.ifname s) net.otherStackSubnets)

def step (w : World) : Action → World
  | .up s net =>
      match w.up s with
      | .idle => beginUp ipfw bridges w s net
      | _ => w
  | .add s =>
      match w.up s with
      | .adding slotBase addedRules rest => addNext ipfw w s slotBase addedRules rest
      | _ => w
  | .cleanUp s =>
      match w.up s with
      | .adding slotBase addedRules _ => setUp w s (.cleaning slotBase addedRules)
      | _ => w
  | .delete s =>
      match w.up s with
      | .cleaning slotBase (n :: rest) =>
          setUp { w with rules := deleteRule w.rules n } s (.cleaning slotBase rest)
      | _ => w
  | .kill s => setUp w s .gone
  | .down s =>
      match w.down s with
      | [] =>
          let listed := policyRulesForBridge (ipfwList ipfw w.rules) (bridges.ifname s) 30000 39999
          { w with down := Function.update w.down s listed }
      | _ => w
  | .downDelete s =>
      match w.down s with
      | n :: rest =>
          { w with
            rules := deleteRule w.rules n
            down := Function.update w.down s rest }
      | [] => w
  | .killDown s => { w with down := Function.update w.down s [] }

def start (host : List HostRule) : World where
  rules := host.map (fun r => ⟨r.number, ⟨none, r.text⟩⟩)
  up := fun _ => .idle
  down := fun _ => []

/-! ## What a run should keep -/

def Holds (w : World) (s n : Nat) : Prop :=
  ∃ r ∈ w.rules, r.number = n ∧ r.body.owner = some s

structure Good (w : World) : Prop where
  /-- What a stack has added lies in the block it chose. -/
  adding : ∀ s slotBase addedRules rest, w.up s = .adding slotBase addedRules rest →
    ∀ n ∈ addedRules, slotBase ≤ n ∧ n < slotBase + 100
  cleaning : ∀ s slotBase rest, w.up s = .cleaning slotBase rest →
    ∀ n ∈ rest, slotBase ≤ n ∧ n < slotBase + 100
  separate : ∀ s t n, Holds w s n → Holds w t n → s = t
  /-- A cleanup that has come to its end leaves no rule of its stack. -/
  cleaned : ∀ s slotBase, w.up s = .cleaning slotBase [] → ∀ n, ¬Holds w s n

/-- A teardown removes the rules of its own stack, all of them and no others. -/
def TearsDownOwn (w : World) : Action → Prop
  | .delete s => ∀ t n, t ≠ s → Holds w t n → Holds (step ipfw bridges w (.delete s)) t n
  | .down s => w.down s = [] → ∀ n, Holds w s n → n ∈ (step ipfw bridges w (.down s)).down s
  | .downDelete s =>
      (∀ t n, t ≠ s → Holds w t n → Holds (step ipfw bridges w (.downDelete s)) t n) ∧
        ∀ n ∈ (w.down s).head?, ¬Holds (step ipfw bridges w (.downDelete s)) s n
  | _ => True

/-! ## What it takes -/

def blockOf (n : Nat) : Nat := n / 100 * 100

/-- A `stack up` that runs will add rules in the block, or delete numbers of it. -/
def Uses (w : World) (s block : Nat) : Prop :=
  (∃ addedRules rest, w.up s = .adding block addedRules rest ∧ (addedRules ≠ [] ∨ rest ≠ [])) ∨
    ∃ slotBase rest n, w.up s = .cleaning slotBase rest ∧ n ∈ rest ∧ blockOf n = block

/-- Some process of the stack, its `stack up` or a `stack down`, has not done with the block. -/
def Claims (w : World) (s block : Nat) : Prop :=
  Uses w s block ∨ ∃ n ∈ w.down s, blockOf n = block

def used (w : World) : List Nat := w.rules.map Rule.number

/--
No stack comes to its 101st rule, and whenever one chooses a block, a block that a
process of a stack has not done with has a rule in it or lies above a free one.
-/
def BlocksSuffice (w : World) : Action → Prop
  | .up s _ => w.up s = .idle → ∀ t block, Claims w t block → BlockFree (used w) block →
      ∃ lower, IsBlock lower ∧ lower < block ∧ BlockFree (used w) lower
  | .add s => ∀ slotBase addedRules rest, w.up s = .adding slotBase addedRules rest →
      rest ≠ [] → addedRules.length < 100
  | _ => True

end Machine

/-! ## The listing -/

section Listing

variable {ipfw : Ipfw}

theorem via_unique {shown name a b : Str} (hname : isWord name = true)
    (honce : ¬(" via " : Str) <:+: shown ++ " via")
    (h : a ++ ((" via " : Str) ++ b) = shown ++ ((" via " : Str) ++ name)) : b = name := by
  have hvia : (" via " : Str) = (" via" : Str) ++ [' '] := by decide
  have hblank : ' ' ∉ name := by
    intro hmem
    simp only [isWord, Bool.and_eq_true, List.all_eq_true] at hname
    have hspace := hname.2 ' ' hmem
    revert hspace
    decide
  rw [hvia] at honce h
  exact eq_of_last_marker hblank honce h

theorem hasVia_iff {shown name bridge : Str} (hname : isWord name = true)
    (honce : ¬(" via " : Str) <:+: shown ++ " via") :
    hasVia bridge (shown ++ " via " ++ name) = true ↔ bridge = name := by
  unfold hasVia
  constructor
  · intro h
    split at h
    · contradiction
    · rename_i before behind hsplit
      have heq := eq_of_splitFirst hsplit
      rw [List.append_assoc, List.append_assoc] at heq
      have hword := via_unique hname honce heq.symm
      cases behind with
      | nil => simpa using hword
      | cons c tail =>
          have hc : c ∈ name := by
            rw [← hword]
            simp
          simp only [isWord, Bool.and_eq_true, List.all_eq_true] at hname
          have hspace := hname.2 c hc
          rw [List.head?_cons] at h
          simp only [Bool.or_eq_true, decide_eq_true_eq] at h
          have hblank : isSpace c = true := by
            rcases h with (rfl | rfl) | rfl <;> decide
          rw [hblank] at hspace
          contradiction
  · rintro rfl
    have hinfix : (" via " : Str) ++ bridge <:+: shown ++ " via " ++ bridge := by
      rw [List.append_assoc]
      exact (List.suffix_append _ _).isInfix
    obtain ⟨before, behind, hsplit, -⟩ := exists_splitFirst_of_infix [] hinfix
    rw [List.append_nil] at hsplit
    have heq := eq_of_splitFirst hsplit
    rw [List.append_assoc, List.append_assoc] at heq
    have hword := via_unique hname honce heq.symm
    have hnil : behind = [] := by simpa using hword
    rw [hsplit, hnil]
    rfl

theorem splitOn_ipfwList (rules : List (Rule Body)) :
    (ipfwList ipfw rules).splitOn '\n' =
      rules.map (fun r => ipfw.line r.number r.body.text) ++ [[]] :=
  splitOn_flatMap_snoc (fun r : Rule Body => ipfw.line r.number r.body.text) rules
    (fun r _ => ipfw.line_newline r.number r.body.text)

theorem ruleNumberOf_line {n : Nat} (hpos : 0 < n) (hmax : n ≤ 65535) (text : Str) :
    ruleNumberOf (ipfw.line n text) = some n := by
  obtain ⟨rest, hline⟩ := ipfw.line_number n text
  rw [hline]
  exact ruleNumberOf_padded hpos hmax rest

theorem ipfwRuleNumbers_ipfwList {rules : List (Rule Body)}
    (h : ∀ r ∈ rules, 0 < r.number ∧ r.number ≤ 65535) :
    ipfwRuleNumbers (ipfwList ipfw rules) = rules.map Rule.number := by
  have hnil : ruleNumberOf [] = none := by decide
  rw [ipfwRuleNumbers, splitOn_ipfwList, List.filterMap_append, List.filterMap_map]
  have hmap : rules.filterMap (ruleNumberOf ∘ fun r => ipfw.line r.number r.body.text) =
      rules.filterMap (some ∘ Rule.number) := by
    apply List.filterMap_congr
    intro r hr
    exact ruleNumberOf_line (h r hr).1 (h r hr).2 _
  rw [hmap, List.filterMap_eq_map]
  simp [hnil]

/-- The rules that a `stack down` sees are those whose line has the clause. -/
theorem mem_listed {rules : List (Rule Body)}
    (h : ∀ r ∈ rules, 0 < r.number ∧ r.number ≤ 65535) {bridge : Str} (hbridge : bridge ≠ [])
    {n : Nat} : n ∈ policyRulesForBridge (ipfwList ipfw rules) bridge 30000 39999 ↔
      30000 ≤ n ∧ n ≤ 39999 ∧ ∃ r ∈ rules, r.number = n ∧
        hasVia bridge (ipfw.line r.number r.body.text) = true := by
  rw [mem_policyRulesForBridge hbridge, splitOn_ipfwList]
  refine and_congr_right (fun _ => and_congr_right (fun _ => ?_))
  constructor
  · rintro ⟨line, hline, hnumber, hvia⟩
    rcases List.mem_append.mp hline with hline | hline
    · obtain ⟨r, hr, rfl⟩ := List.mem_map.mp hline
      rw [ruleNumberOf_line (h r hr).1 (h r hr).2, Option.some.injEq] at hnumber
      exact ⟨r, hr, hnumber, hvia⟩
    · obtain rfl := List.mem_singleton.mp hline
      have hnil : ruleNumberOf [] = none := by decide
      rw [hnil] at hnumber
      contradiction
  · rintro ⟨r, hr, rfl, hvia⟩
    exact ⟨_, List.mem_append_left _ (List.mem_map_of_mem hr),
      ruleNumberOf_line (h r hr).1 (h r hr).2 _, hvia⟩

end Listing

/-! ## Blocks through a run -/

theorem blockOf_eq_iff {slot n : Nat} (h : IsBlock slot) :
    blockOf n = slot ↔ slot ≤ n ∧ n < slot + 100 := by
  have hmod := h.2.2
  unfold blockOf
  constructor
  · rintro rfl
    omega
  · rintro ⟨hlo, hhi⟩
    omega

/-- The block is that of a stack: its `stack up` is busy with it, or it has a rule there. -/
def Takes (w : World) (s block : Nat) : Prop :=
  Uses w s block ∨ ∃ n, Holds w s n ∧ blockOf n = block

/-- Blocks that are taken are apart from each other and from everything else. -/
structure Apart (w : World) : Prop where
  exclusive : ∀ s t block, Takes w s block → Takes w t block → s = t
  host : ∀ r ∈ w.rules, r.body.owner = none → ∀ t, ¬Takes w t (blockOf r.number)
  pending : ∀ s, ∀ n ∈ w.down s, ∀ t, Takes w t (blockOf n) → t = s

/-- Where no block is newly taken and nothing else is added, the blocks stay apart. -/
theorem Apart.mono {w w' : World} (h : Apart w)
    (htakes : ∀ t block, Takes w' t block → Takes w t block)
    (hhost : ∀ r ∈ w'.rules, r.body.owner = none → r ∈ w.rules)
    (hdown : ∀ s, ∀ n ∈ w'.down s, n ∈ w.down s) : Apart w' where
  exclusive s t block hs ht := h.exclusive s t block (htakes s block hs) (htakes t block ht)
  host r hr hnone t ht := h.host r (hhost r hr hnone) hnone t (htakes t _ ht)
  pending s n hn t ht := h.pending s n (hdown s n hn) t (htakes t _ ht)

section Invariant

variable (ipfw : Ipfw) (bridges : Bridges)

/-- What `stack up` knows of its own rules. -/
def Local (w : World) (s : Nat) : Prop :=
  match w.up s with
  | .idle => ∀ n, ¬Holds w s n
  | .adding slotBase addedRules rest =>
      IsBlock slotBase ∧ addedRules.length ≤ 100 ∧
        (∀ n ∈ addedRules, slotBase ≤ n ∧ n < slotBase + 100) ∧
        (∀ text ∈ rest, ∃ front, text = front ++ " via " ++ bridges.ifname s) ∧
        ∀ n, Holds w s n → n ∈ addedRules
  | .cleaning slotBase rest =>
      IsBlock slotBase ∧ (∀ n ∈ rest, slotBase ≤ n ∧ n < slotBase + 100) ∧
        ∀ n, Holds w s n → n ∈ rest
  | .gone => True

/-- A rule of a stack is in the range of the policies and ends with the bridge of its stack. -/
def RuleRight (r : Rule Body) : Prop :=
  (0 < r.number ∧ r.number ≤ 65535) ∧ ∀ s, r.body.owner = some s →
    (30000 ≤ r.number ∧ r.number ≤ 39999) ∧ ipfw.accepts r.number r.body.text = true ∧
      ∃ front, r.body.text = front ++ " via " ++ bridges.ifname s

structure Inv (w : World) : Prop where
  rules : ∀ r ∈ w.rules, RuleRight ipfw bridges r
  stack : ∀ s, Local bridges w s
  apart : Apart w

variable {ipfw bridges}

theorem local_frame {w w' : World} {t : Nat} (h : Local bridges w t) (hup : w'.up t = w.up t)
    (hholds : ∀ n, Holds w' t n → Holds w t n) : Local bridges w' t := by
  unfold Local at h ⊢
  rw [hup]
  cases hphase : w.up t with
  | idle =>
      rw [hphase] at h
      exact fun n hn => h n (hholds n hn)
  | adding slotBase addedRules rest =>
      rw [hphase] at h
      obtain ⟨hblock, hlength, hin, hrest, hall⟩ := h
      exact ⟨hblock, hlength, hin, hrest, fun n hn => hall n (hholds n hn)⟩
  | cleaning slotBase rest =>
      rw [hphase] at h
      obtain ⟨hblock, hin, hall⟩ := h
      exact ⟨hblock, hin, fun n hn => hall n (hholds n hn)⟩
  | gone => trivial

theorem holds_deleteRule {w : World} {n : Nat} {up : Nat → Up} {down : Nat → List Nat} {t m : Nat} :
    Holds { rules := deleteRule w.rules n, up := up, down := down } t m ↔ Holds w t m ∧ m ≠ n := by
  simp only [Holds, mem_deleteRule]
  constructor
  · rintro ⟨r, ⟨hr, hne⟩, rfl, howner⟩
    exact ⟨⟨r, hr, rfl, howner⟩, hne⟩
  · rintro ⟨⟨r, hr, rfl, howner⟩, hne⟩
    exact ⟨r, ⟨hr, hne⟩, rfl, howner⟩

theorem holds_addRule {w : World} {n : Nat} {body : Body} {up : Nat → Up} {down : Nat → List Nat}
    {t m : Nat} : Holds { rules := addRule w.rules n body, up := up, down := down } t m ↔
      (m = n ∧ body.owner = some t) ∨ Holds w t m := by
  simp only [Holds, mem_addRule]
  constructor
  · rintro ⟨r, rfl | hr, rfl, howner⟩
    · exact .inl ⟨rfl, howner⟩
    · exact .inr ⟨r, hr, rfl, howner⟩
  · rintro (⟨rfl, howner⟩ | ⟨r, hr, rfl, howner⟩)
    · exact ⟨_, .inl rfl, rfl, howner⟩
    · exact ⟨r, .inr hr, rfl, howner⟩

theorem uses_of_ne {w : World} {rules : List (Rule Body)} {down : Nat → List Nat} {s t block : Nat}
    {phase : Up} (hne : t ≠ s) :
    Uses { rules := rules, up := Function.update w.up s phase, down := down } t block ↔
      Uses w t block := by
  simp only [Uses, Function.update_of_ne hne]

/-- A step after which a stack has no more than before, in its rules and in what it will do. -/
theorem Inv.shrink {w : World} (h : Inv ipfw bridges w) {s : Nat} {phase : Up}
    {rules : List (Rule Body)} {down : Nat → List Nat} (hrules : ∀ r ∈ rules, r ∈ w.rules)
    (hdown : ∀ t, ∀ n ∈ down t, n ∈ w.down t)
    (huses : ∀ block, Uses { rules := rules, up := Function.update w.up s phase, down := down } s
      block → Takes w s block)
    (hlocal : Local bridges { rules := rules, up := Function.update w.up s phase, down := down } s) :
    Inv ipfw bridges { rules := rules, up := Function.update w.up s phase, down := down } where
  rules r hr := h.rules r (hrules r hr)
  stack t := by
    by_cases hts : t = s
    · subst hts
      exact hlocal
    · apply local_frame (h.stack t) (Function.update_of_ne hts _ _)
      rintro n ⟨r, hr, hnumber⟩
      exact ⟨r, hrules r hr, hnumber⟩
  apart := by
    refine h.apart.mono ?_ (fun r hr _ => hrules r hr) hdown
    rintro t block (huse | ⟨n, ⟨r, hr, hnumber⟩, hblock⟩)
    · by_cases hts : t = s
      · subst hts
        exact huses block huse
      · exact .inl ((uses_of_ne hts).mp huse)
    · exact .inr ⟨n, ⟨r, hrules r hr, hnumber⟩, hblock⟩

/-- The next rule of a stack that has not come to its hundredth. -/
theorem Inv.addNext {w : World} (h : Inv ipfw bridges w) {s slotBase : Nat} {addedRules : List Nat}
    {rest : List Str} (hup : w.up s = .adding slotBase addedRules rest)
    (hwithin : rest ≠ [] → addedRules.length < 100) :
    Inv ipfw bridges (addNext ipfw w s slotBase addedRules rest) := by
  have hlocal := h.stack s
  rw [Local, hup] at hlocal
  obtain ⟨hblock, hlength, hin, htexts, hall⟩ := hlocal
  cases rest with
  | nil =>
      refine h.shrink (fun _ hr => hr) (fun _ _ hn => hn) ?_ ?_
      · rintro block (⟨added, rest, hphase, hne⟩ | ⟨base, rest, n, hphase, -⟩)
        · dsimp only at hphase
          rw [Function.update_self] at hphase
          cases hphase
          exact .inl (.inl ⟨_, _, hup, hne⟩)
        · dsimp only at hphase
          rw [Function.update_self] at hphase
          cases hphase
      · simp only [Local, Function.update_self]
        exact ⟨hblock, hlength, hin, by simp, hall⟩
  | cons text rest =>
      have hlt := hwithin (by simp)
      unfold Stack.addNext
      dsimp only
      split
      · rename_i haccept
        have htakes : Takes w s slotBase := .inl (.inl ⟨_, _, hup, .inr (by simp)⟩)
        have hbounds : slotBase ≤ slotBase + addedRules.length ∧
            slotBase + addedRules.length < slotBase + 100 := by omega
        constructor
        · intro r hr
          rcases mem_addRule.mp hr with rfl | hr
          · refine ⟨?_, fun t howner => ?_⟩
            · have hnumber := ipfw.accepts_number haccept
              exact ⟨hnumber.1, hnumber.2.le⟩
            · cases howner
              obtain ⟨hlo, hhi, -⟩ := hblock
              have hrange : 30000 ≤ slotBase + addedRules.length ∧
                  slotBase + addedRules.length ≤ 39999 := by omega
              exact ⟨hrange, haccept, htexts text (by simp)⟩
          · exact h.rules r hr
        · intro t
          by_cases hts : t = s
          · subst hts
            simp only [Local, setUp, Function.update_self]
            refine ⟨hblock, ?_, ?_, fun x hx => htexts x (List.mem_cons_of_mem _ hx), ?_⟩
            · rw [List.length_append, List.length_singleton]
              omega
            · intro n hn
              rcases List.mem_append.mp hn with hn | hn
              · exact hin n hn
              · rw [List.mem_singleton.mp hn]
                exact hbounds
            · intro n hn
              rcases holds_addRule.mp hn with ⟨rfl, -⟩ | hn
              · simp
              · exact List.mem_append_left _ (hall n hn)
          · apply local_frame (h.stack t) (Function.update_of_ne hts _ _)
            intro n hn
            rcases holds_addRule.mp hn with ⟨-, howner⟩ | hn
            · exact absurd (Option.some.inj howner).symm hts
            · exact hn
        · refine h.apart.mono ?_ ?_ (fun _ _ hn => hn)
          · rintro t block (huse | ⟨n, hn, hn'⟩)
            · by_cases hts : t = s
              · subst hts
                rcases huse with ⟨added, others, hphase, -⟩ | ⟨base, others, n, hphase, -⟩
                · simp only [setUp, Function.update_self] at hphase
                  cases hphase
                  exact htakes
                · simp only [setUp, Function.update_self] at hphase
                  cases hphase
              · exact .inl ((uses_of_ne hts).mp huse)
            · rcases holds_addRule.mp hn with ⟨rfl, howner⟩ | hn
              · cases howner
                rw [(blockOf_eq_iff hblock).mpr hbounds] at hn'
                exact hn' ▸ htakes
              · exact .inr ⟨n, hn, hn'⟩
          · intro r hr hnone
            rcases mem_addRule.mp hr with rfl | hr
            · cases hnone
            · exact hr
      · refine h.shrink (fun _ hr => hr) (fun _ _ hn => hn) ?_ ?_
        · rintro block (⟨added, others, hphase, -⟩ | ⟨base, others, n, hphase, hn, hn'⟩)
          · dsimp only at hphase
            rw [Function.update_self] at hphase
            cases hphase
          · dsimp only at hphase
            rw [Function.update_self] at hphase
            cases hphase
            rw [(blockOf_eq_iff hblock).mpr (hin n hn)] at hn'
            exact hn' ▸ .inl (.inl ⟨_, _, hup, .inr (by simp)⟩)
        · simp only [Local, Function.update_self]
          exact ⟨hblock, hin, hall⟩

theorem addNext_setUp {w : World} {s slotBase : Nat} {addedRules : List Nat} {rest : List Str}
    {phase : Up} : Stack.addNext ipfw (setUp w s phase) s slotBase addedRules rest =
      Stack.addNext ipfw w s slotBase addedRules rest := by
  cases rest with
  | nil => simp only [Stack.addNext, setUp, Function.update_idem]
  | cons text rest => simp only [Stack.addNext, setUp, Function.update_idem]

theorem Inv.numbers {w : World} (h : Inv ipfw bridges w) :
    ipfwRuleNumbers (ipfwList ipfw w.rules) = used w :=
  ipfwRuleNumbers_ipfwList (fun r hr => (h.rules r hr).1)

/-- The block that is chosen is nobody's. -/
theorem fresh_of_clear {w : World}
    (hclear : ∀ t block, Claims w t block → BlockFree (used w) block →
      ∃ lower, IsBlock lower ∧ lower < block ∧ BlockFree (used w) lower)
    (hne : freePolicySlot (used w) ≠ 0) :
    (∀ t, ¬Takes w t (freePolicySlot (used w))) ∧
      (∀ r ∈ w.rules, blockOf r.number ≠ freePolicySlot (used w)) ∧
      ∀ t, ∀ n ∈ w.down t, blockOf n ≠ freePolicySlot (used w) := by
  obtain ⟨hblock, hfree, hleast⟩ := (freePolicySlot_spec (used w)).found hne
  have hclaims : ∀ t, ¬Claims w t (freePolicySlot (used w)) := by
    intro t ht
    obtain ⟨lower, hlower, hlt, hlowerFree⟩ := hclear t _ ht hfree
    exact hleast lower hlower hlt hlowerFree
  have hrules : ∀ r ∈ w.rules, blockOf r.number ≠ freePolicySlot (used w) := by
    intro r hr heq
    have hin := (blockOf_eq_iff hblock).mp heq
    have hout := hfree r.number (List.mem_map_of_mem hr)
    omega
  refine ⟨?_, hrules, fun t n hn heq => hclaims t (.inr ⟨n, hn, heq⟩)⟩
  rintro t (huse | ⟨n, ⟨r, hr, rfl, -⟩, heq⟩)
  · exact hclaims t (.inl huse)
  · exact hrules r hr heq

theorem Inv.beginUp {w : World} (h : Inv ipfw bridges w) {s : Nat} {net : Network}
    (hup : w.up s = .idle)
    (hclear : ∀ t block, Claims w t block → BlockFree (used w) block →
      ∃ lower, IsBlock lower ∧ lower < block ∧ BlockFree (used w) lower) :
    Inv ipfw bridges (beginUp ipfw bridges w s net) := by
  have hgone : Inv ipfw bridges (setUp w s .gone) := by
    refine h.shrink (fun _ hr => hr) (fun _ _ hn => hn) ?_ ?_
    · rintro block (⟨added, rest, hphase, -⟩ | ⟨base, rest, n, hphase, -⟩) <;>
        simp [Function.update_self] at hphase
    · simp only [Local, Function.update_self]
  unfold Stack.beginUp
  rw [h.numbers]
  dsimp only
  split
  · exact hgone
  · split
    · exact hgone
    · rename_i hne
      obtain ⟨hfresh, hrules, hpending⟩ := fresh_of_clear hclear hne
      obtain ⟨hblock, -⟩ := (freePolicySlot_spec (used w)).found hne
      have hidle := h.stack s
      rw [Local, hup] at hidle
      generalize freePolicySlot (used w) = slotBase at hfresh hrules hpending hblock ⊢
      have htexts : ∀ text ∈ policyRules net.policy net.nameToIp (bridges.ifname s)
          net.otherStackSubnets, ∃ front, text = front ++ " via " ++ bridges.ifname s :=
        fun text htext => exists_via_of_mem_policyRules htext
      generalize policyRules net.policy net.nameToIp (bridges.ifname s) net.otherStackSubnets = plan
        at htexts ⊢
      have htakes : ∀ t block, Takes (setUp w s (.adding slotBase [] plan)) t block →
          Takes w t block ∨ t = s ∧ block = slotBase := by
        rintro t block (huse | hholds)
        · by_cases hts : t = s
          · subst hts
            rcases huse with ⟨added, rest, hphase, -⟩ | ⟨base, rest, n, hphase, -⟩
            · simp only [setUp, Function.update_self] at hphase
              cases hphase
              exact .inr ⟨rfl, rfl⟩
            · simp only [setUp, Function.update_self] at hphase
              cases hphase
          · exact .inl (.inl ((uses_of_ne hts).mp huse))
        · exact .inl (.inr hholds)
      have hchosen : Inv ipfw bridges (setUp w s (.adding slotBase [] plan)) := by
        refine ⟨h.rules, fun t => ?_, ⟨fun t t' block ht ht' => ?_, fun r hr hnone t ht => ?_,
          fun t n hn t' ht' => ?_⟩⟩
        · by_cases hts : t = s
          · subst hts
            simp only [Local, setUp, Function.update_self]
            exact ⟨hblock, by simp, by simp, htexts, fun n hn => absurd hn (hidle n)⟩
          · exact local_frame (h.stack t) (Function.update_of_ne hts _ _) (fun _ hn => hn)
        · rcases htakes t block ht with hold | ⟨rfl, rfl⟩
          · rcases htakes t' block ht' with hold' | ⟨rfl, rfl⟩
            · exact h.apart.exclusive t t' block hold hold'
            · exact absurd hold (hfresh t)
          · rcases htakes t' _ ht' with hold' | ⟨rfl, -⟩
            · exact absurd hold' (hfresh t')
            · rfl
        · rcases htakes t _ ht with hold | ⟨-, heq⟩
          · exact h.apart.host r hr hnone t hold
          · exact hrules r hr heq
        · rcases htakes t' _ ht' with hold | ⟨-, heq⟩
          · exact h.apart.pending t n hn t' hold
          · exact absurd heq (hpending t n hn)
      have hadd : Inv ipfw bridges
          (Stack.addNext ipfw (setUp w s (.adding slotBase [] plan)) s slotBase [] plan) :=
        hchosen.addNext (by simp [setUp]) (fun _ => by simp)
      rwa [addNext_setUp] at hadd

theorem Inv.down {w : World} (h : Inv ipfw bridges w) (s : Nat) :
    Inv ipfw bridges { w with
      down := Function.update w.down s
        (policyRulesForBridge (ipfwList ipfw w.rules) (bridges.ifname s) 30000 39999) } where
  rules := h.rules
  stack := h.stack
  apart := by
    refine ⟨h.apart.exclusive, h.apart.host, fun t n hn t' ht' => ?_⟩
    dsimp only at hn
    by_cases hts : t = s
    · subst hts
      rw [Function.update_self, mem_listed (fun r hr => (h.rules r hr).1) (bridges.ne_nil t)] at hn
      obtain ⟨-, -, r, hr, rfl, hvia⟩ := hn
      cases howner : r.body.owner with
      | none => exact absurd ht' (h.apart.host r hr howner t')
      | some owner =>
          obtain ⟨-, haccept, front, htext⟩ := (h.rules r hr).2 owner howner
          rw [htext] at haccept hvia
          obtain ⟨shown, hline, honce⟩ := ipfw.line_via (bridges.word owner) haccept
          rw [hline, hasVia_iff (bridges.word owner) honce] at hvia
          have hsame := bridges.injective hvia
          subst hsame
          exact h.apart.exclusive t' t _ ht' (.inr ⟨r.number, ⟨r, hr, rfl, howner⟩, rfl⟩)
    · rw [Function.update_of_ne hts] at hn
      exact h.apart.pending t n hn t' ht'

theorem inv_start (host : List HostRule) : Inv ipfw bridges (start host) := by
  have hnone : ∀ r ∈ (start host).rules, r.body.owner = none ∧ 0 < r.number ∧ r.number ≤ 65535 := by
    intro r hr
    obtain ⟨rule, -, rfl⟩ := List.mem_map.mp hr
    exact ⟨rfl, rule.pos, rule.max⟩
  have hholds : ∀ s n, ¬Holds (start host) s n := by
    rintro s n ⟨r, hr, -, howner⟩
    rw [(hnone r hr).1] at howner
    contradiction
  have htakes : ∀ s block, ¬Takes (start host) s block := by
    rintro s block ((⟨_, _, hphase, -⟩ | ⟨_, _, _, hphase, -⟩) | ⟨n, hn, -⟩)
    · cases hphase
    · cases hphase
    · exact hholds s n hn
  refine ⟨fun r hr => ⟨(hnone r hr).2, fun s howner => ?_⟩, hholds, ?_⟩
  · rw [(hnone r hr).1] at howner
    contradiction
  · exact ⟨fun s t block hs => absurd hs (htakes s block), fun r _ _ t => htakes t _,
      fun s n hn => absurd hn List.not_mem_nil⟩

theorem inv_step (w : World) (a : Action) (h : Inv ipfw bridges w) (hmeet : BlocksSuffice w a) :
    Inv ipfw bridges (step ipfw bridges w a) := by
  cases a with
  | up s net =>
      unfold step
      dsimp only
      split
      · rename_i hup
        exact h.beginUp hup (hmeet hup)
      · exact h
  | add s =>
      unfold step
      dsimp only
      split
      · rename_i slotBase addedRules rest hup
        exact h.addNext hup (hmeet slotBase addedRules rest hup)
      · exact h
  | cleanUp s =>
      unfold step
      dsimp only
      split
      · rename_i slotBase addedRules rest hup
        have hlocal := h.stack s
        rw [Local, hup] at hlocal
        obtain ⟨hblock, -, hin, -, hall⟩ := hlocal
        refine h.shrink (fun _ hr => hr) (fun _ _ hn => hn) ?_ ?_
        · rintro block (⟨added, others, hphase, -⟩ | ⟨base, others, n, hphase, hn, hn'⟩)
          · simp [Function.update_self] at hphase
          · dsimp only at hphase
            rw [Function.update_self] at hphase
            cases hphase
            rw [(blockOf_eq_iff hblock).mpr (hin n hn)] at hn'
            exact hn' ▸ .inl (.inl ⟨_, _, hup, .inl (List.ne_nil_of_mem hn)⟩)
        · simp only [Local, Function.update_self]
          exact ⟨hblock, hin, hall⟩
      · exact h
  | delete s =>
      unfold step
      dsimp only
      split
      · rename_i slotBase n rest hup
        have hlocal := h.stack s
        rw [Local, hup] at hlocal
        obtain ⟨hblock, hin, hall⟩ := hlocal
        refine h.shrink (fun _ hr => (mem_deleteRule.mp hr).1) (fun _ _ hn => hn) ?_ ?_
        · rintro block (⟨added, others, hphase, -⟩ | ⟨base, others, m, hphase, hm, hm'⟩)
          · simp [Function.update_self] at hphase
          · dsimp only at hphase
            rw [Function.update_self] at hphase
            cases hphase
            exact .inl (.inr ⟨_, _, m, hup, List.mem_cons_of_mem _ hm, hm'⟩)
        · simp only [Local, Function.update_self]
          refine ⟨hblock, fun m hm => hin m (List.mem_cons_of_mem _ hm), fun m hm => ?_⟩
          obtain ⟨hold, hne⟩ := holds_deleteRule.mp hm
          exact (List.mem_cons.mp (hall m hold)).resolve_left hne
      · exact h
  | kill s =>
      refine h.shrink (fun _ hr => hr) (fun _ _ hn => hn) ?_ ?_
      · rintro block (⟨added, others, hphase, -⟩ | ⟨base, others, n, hphase, -⟩) <;>
          simp [Function.update_self] at hphase
      · simp only [Local, Function.update_self]
  | down s =>
      unfold step
      dsimp only
      split
      · exact h.down s
      · exact h
  | downDelete s =>
      unfold step
      dsimp only
      split
      · rename_i n rest hdown
        have hup : w.up = Function.update w.up s (w.up s) := (Function.update_eq_self s w.up).symm
        rw [hup]
        refine h.shrink (fun _ hr => (mem_deleteRule.mp hr).1) ?_ ?_ ?_
        · intro t m hm
          by_cases hts : t = s
          · subst hts
            rw [Function.update_self] at hm
            rw [hdown]
            exact List.mem_cons_of_mem _ hm
          · rwa [Function.update_of_ne hts] at hm
        · intro block huse
          rw [← hup] at huse
          exact .inl huse
        · rw [← hup]
          exact local_frame (h.stack s) rfl (fun m hm => (holds_deleteRule.mp hm).1)
      · exact h
  | killDown s =>
      unfold step
      dsimp only
      have hup : w.up = Function.update w.up s (w.up s) := (Function.update_eq_self s w.up).symm
      rw [hup]
      refine h.shrink (fun _ hr => hr) ?_ ?_ ?_
      · intro t m hm
        by_cases hts : t = s
        · subst hts
          rw [Function.update_self] at hm
          exact absurd hm List.not_mem_nil
        · rwa [Function.update_of_ne hts] at hm
      · intro block huse
        rw [← hup] at huse
        exact .inl huse
      · rw [← hup]
        exact local_frame (h.stack s) rfl (fun _ hm => hm)

theorem Inv.good {w : World} (h : Inv ipfw bridges w) : Good w where
  adding s slotBase addedRules rest hup := by
    have hlocal := h.stack s
    rw [Local, hup] at hlocal
    exact hlocal.2.2.1
  cleaning s slotBase rest hup := by
    have hlocal := h.stack s
    rw [Local, hup] at hlocal
    exact hlocal.2.1
  separate s t n hs ht :=
    h.apart.exclusive s t (blockOf n) (.inr ⟨n, hs, rfl⟩) (.inr ⟨n, ht, rfl⟩)
  cleaned s slotBase hup n hn := by
    have hlocal := h.stack s
    rw [Local, hup] at hlocal
    exact absurd (hlocal.2.2 n hn) List.not_mem_nil

theorem Inv.tearsDownOwn {w : World} (h : Inv ipfw bridges w) (a : Action) :
    TearsDownOwn ipfw bridges w a := by
  cases a with
  | up | add | cleanUp | kill | killDown => trivial
  | delete s =>
      intro t m hts hm
      unfold step
      dsimp only
      split
      · rename_i slotBase n rest hup
        refine holds_deleteRule.mpr ⟨hm, ?_⟩
        rintro rfl
        have huse : Uses w s (blockOf m) := .inr ⟨slotBase, m :: rest, m, hup, by simp, rfl⟩
        exact hts (h.apart.exclusive t s _ (.inr ⟨m, hm, rfl⟩) (.inl huse))
      · exact hm
  | down s =>
      intro hnone n hn
      obtain ⟨r, hr, rfl, howner⟩ := hn
      obtain ⟨hrange, haccept, front, htext⟩ := (h.rules r hr).2 s howner
      unfold step
      dsimp only
      rw [hnone]
      dsimp only
      rw [Function.update_self, mem_listed (fun r hr => (h.rules r hr).1) (bridges.ne_nil s)]
      refine ⟨hrange.1, hrange.2, r, hr, rfl, ?_⟩
      rw [htext] at haccept ⊢
      obtain ⟨shown, hline, honce⟩ := ipfw.line_via (bridges.word s) haccept
      rw [hline, hasVia_iff (bridges.word s) honce]
  | downDelete s =>
      unfold TearsDownOwn step
      dsimp only
      split
      · rename_i n rest hdown
        constructor
        · intro t m hts hm
          refine holds_deleteRule.mpr ⟨hm, ?_⟩
          rintro rfl
          exact hts (h.apart.pending s m (by rw [hdown]; simp) t (.inr ⟨m, hm, rfl⟩))
        · intro m hm hholds
          rw [hdown] at hm
          obtain rfl : n = m := by simpa using hm
          exact (holds_deleteRule.mp hholds).2 rfl
      · rename_i hdown
        rw [hdown]
        exact ⟨fun _ _ _ hm => hm, by simp⟩

end Invariant

/--
`freePolicySlot` finds the lowest free block.  In a run in which no stack comes to
its 101st rule and no block is chosen that is still in use without a rule, every
stack stays in its block, no number has two stacks, and a teardown removes what
is its own.
-/
theorem policies_apart (ipfw : Ipfw) (bridges : Bridges) (host : List HostRule)
    (actions : List Action)
    (hmeet : StepsMeet (step ipfw bridges) BlocksSuffice (start host) actions) :
    (∀ numbers, IsFreeSlot numbers (freePolicySlot numbers)) ∧
      (∀ before, before <+: actions → Good (run (step ipfw bridges) (start host) before)) ∧
        StepsMeet (step ipfw bridges) (TearsDownOwn ipfw bridges) (start host) actions := by
  refine ⟨freePolicySlot_spec, fun before hbefore => ?_, ?_⟩
  · exact (forall_prefix_good inv_step (inv_start host) hmeet hbefore).good
  · exact StepsMeet.imp_of_good inv_step (fun w a h _ => h.tearsDownOwn a) (inv_start host) hmeet

/-! ## A stack with too many rules -/

theorem not_via_infix {shown : Str} (h : 'v' ∉ shown) : ¬(" via " : Str) <:+: shown ++ " via" := by
  rintro ⟨a, b, heq⟩
  have hcount := congrArg (List.count 'v') heq
  have hone : (" via " : Str).count 'v' = 1 := by decide
  have hone' : (" via" : Str).count 'v' = 1 := by decide
  have hzero : shown.count 'v' = 0 := List.count_eq_zero.mpr h
  simp only [List.count_append, hone, hone', hzero] at hcount
  have ha : 'v' ∉ a := List.count_eq_zero.mp (by omega)
  have hsplit : ∀ c : Str, 'v' ∉ c → ∀ d : Str, (c ++ ' ' :: 'v' :: d).takeWhile (· ≠ 'v') =
      c ++ [' '] := by
    intro c hc d
    rw [List.takeWhile_append_of_pos]
    · rfl
    · intro x hx
      rw [decide_eq_true_eq]
      rintro rfl
      exact hc hx
  have htake := congrArg (List.takeWhile (· ≠ 'v')) heq
  rw [List.append_assoc] at htake
  have hsame := (hsplit a ha ('i' :: 'a' :: ' ' :: b)).symm.trans
    (htake.trans (hsplit shown h ['i', 'a']))
  rw [List.append_cancel_right_eq] at hsame
  rw [hsame, List.append_assoc, List.append_cancel_left_eq] at heq
  have hlength := congrArg List.length heq
  have hfive : (" via " : Str).length = 5 := by decide
  have hfour : (" via" : Str).length = 4 := by decide
  rw [List.length_append, hfive, hfour] at hlength
  omega

/-- A rule is printed as it was given. -/
def plainIpfw : Ipfw where
  accepts n text := 0 < n && n < 65535 && text.count 'v' ≤ 1
  line n text := padded 5 n ++ ' ' :: text.filter (· ≠ '\n')
  accepts_number h := by
    simp only [Bool.and_eq_true, decide_eq_true_eq] at h
    exact h.1
  line_newline n text h := by
    rcases List.mem_append.mp h with h | h
    · have hdigit := List.all_eq_true.mp (all_digits_padded 5 n) _ h
      revert hdigit
      decide
    · rcases List.mem_cons.mp h with h | h
      · revert h
        decide
      · simp at h
  line_number n text := ⟨_, rfl⟩
  line_via := by
    intro n front name hname h
    have hone : (" via " : Str).count 'v' = 1 := by decide
    simp only [Bool.and_eq_true, decide_eq_true_eq, List.count_append, hone] at h
    have hfront : 'v' ∉ front := List.count_eq_zero.mp (by omega)
    have hkeep : ∀ s : Str, '\n' ∉ s → s.filter (· ≠ '\n') = s := by
      intro s hs
      rw [List.filter_eq_self]
      intro c hc
      rw [decide_eq_true_eq]
      rintro rfl
      exact hs hc
    have hword : '\n' ∉ name := by
      intro hmem
      simp only [isWord, Bool.and_eq_true, List.all_eq_true] at hname
      have hspace := hname.2 '\n' hmem
      revert hspace
      decide
    refine ⟨padded 5 n ++ ' ' :: front.filter (· ≠ '\n'), ?_, not_via_infix ?_⟩
    · rw [List.filter_append, List.filter_append, hkeep (" via " : Str) (by decide),
        hkeep name hword]
      simp only [List.append_assoc, List.cons_append]
    · rw [List.mem_append, List.mem_cons, not_or, not_or]
      refine ⟨fun h => ?_, by decide, fun h => hfront (List.mem_filter.mp h).1⟩
      have hdigit := List.all_eq_true.mp (all_digits_padded 5 n) _ h
      revert hdigit
      decide

def numberedBridges : Bridges where
  ifname s := 'b' :: decimal s
  word s := by
    simp only [isWord, List.isEmpty_cons, List.all_cons, Bool.and_eq_true, Bool.not_false,
      List.all_eq_true, true_and]
    refine ⟨by decide, fun c hc => ?_⟩
    simpa using isSpace_of_isDecimalDigit (isDecimalDigit_of_mem_decimal hc)
  injective s t h := decimal_injective (List.cons.inj h).2

def defaultRule : HostRule := ⟨65535, "deny ip from any to any", by decide, by decide⟩

def oneMember (ports : List Nat) : Network where
  policy := { defaultAction := "allow"
              rules := [⟨"web", "web", ports, "tcp", "allow"⟩] }
  nameToIp := .ofList [("web", "10.0.0.2")]
  otherStackSubnets := []

/-- A second stack comes up between the rules of the first and is taken down after it. -/
def twoStacks : List Action :=
  [.up 0 (oneMember [80, 81]), .add 0, .up 1 (oneMember [80]), .cleanUp 0, .delete 0, .delete 0,
    .down 1, .downDelete 1]

theorem twoStacks_suffice :
    StepsMeet (step plainIpfw numberedBridges) BlocksSuffice (start [defaultRule]) twoStacks := by
  have hup : (run (step plainIpfw numberedBridges) (start [defaultRule]) (twoStacks.take 2)).up 0 =
      .adding 30000 [30000, 30001] [] := by
    decide
  have hidle : ∀ t, t ≠ 0 →
      (run (step plainIpfw numberedBridges) (start [defaultRule]) (twoStacks.take 2)).up t =
        .idle := by
    intro t ht
    exact (Function.update_of_ne ht _ _).trans (Function.update_of_ne ht _ _)
  have hused : 30000 ∈
      used (run (step plainIpfw numberedBridges) (start [defaultRule]) (twoStacks.take 2)) := by
    decide
  refine ⟨?_, ?_, ?_, trivial, trivial, trivial, trivial, trivial, trivial⟩
  · rintro - t block ((⟨_, _, hphase, -⟩ | ⟨_, _, _, hphase, -⟩) | ⟨n, hn, -⟩)
    · cases hphase
    · cases hphase
    · exact absurd hn List.not_mem_nil
  · intro slotBase addedRules rest hphase _
    cases hphase
    decide
  · rintro - t block hclaims hfree
    have hblock : block = 30000 := by
      by_cases ht : t = 0
      · subst ht
        rcases hclaims with (⟨_, _, hphase, -⟩ | ⟨_, _, _, hphase, -⟩) | ⟨n, hn, -⟩
        · exact (Up.adding.inj (hphase.symm.trans hup)).1
        · cases hphase.symm.trans hup
        · exact absurd hn List.not_mem_nil
      · rcases hclaims with (⟨_, _, hphase, -⟩ | ⟨_, _, _, hphase, -⟩) | ⟨n, hn, -⟩
        · cases hphase.symm.trans (hidle t ht)
        · cases hphase.symm.trans (hidle t ht)
        · exact absurd hn List.not_mem_nil
    have houtside := hfree 30000 hused
    omega

theorem twoStacks_apart :
    ((∀ numbers, IsFreeSlot numbers (freePolicySlot numbers)) ∧
      (∀ before, before <+: twoStacks →
        Good (run (step plainIpfw numberedBridges) (start [defaultRule]) before)) ∧
        StepsMeet (step plainIpfw numberedBridges) (TearsDownOwn plainIpfw numberedBridges)
          (start [defaultRule]) twoStacks) ∧
      (run (step plainIpfw numberedBridges) (start [defaultRule]) (twoStacks.take 3)).up 1 =
        .adding 30100 [30100] [] :=
  ⟨policies_apart plainIpfw numberedBridges [defaultRule] twoStacks twoStacks_suffice, by decide⟩

set_option maxRecDepth 4000 in
/-- A policy with 101 ports: the last rule gets the number 30100, in the next block. -/
theorem rule_outside_block : ¬∀ ipfw bridges host actions,
    (∀ numbers, IsFreeSlot numbers (freePolicySlot numbers)) ∧
      (∀ before, before <+: actions → Good (run (step ipfw bridges) (start host) before)) ∧
        StepsMeet (step ipfw bridges) (TearsDownOwn ipfw bridges) (start host) actions := by
  intro hall
  obtain ⟨-, hgood, -⟩ := hall plainIpfw numberedBridges [defaultRule]
    (.up 0 (oneMember (List.range 101)) :: List.replicate 100 (.add 0))
  have hup : (run (step plainIpfw numberedBridges) (start [defaultRule])
      (.up 0 (oneMember (List.range 101)) :: List.replicate 100 (.add 0))).up 0 =
        .adding 30000 (List.range' 30000 101) [] := by decide
  have hlast := (hgood _ (List.prefix_refl _)).adding 0 _ _ _ hup 30100 (by simp)
  omega

end Crate.Stack
