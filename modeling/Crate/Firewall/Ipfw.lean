import Mathlib

/-!
# The rules of ipfw

The rules are kept in the order of their numbers, and those of one number in the
order in which they were added.  Deleting a number removes every rule that has it.
-/

namespace Crate.IpfwOps

structure Rule (β : Type) where
  number : Nat
  body : β
  deriving DecidableEq, Repr

variable {β : Type}

/-- `ipfw add`. -/
def addRule (rules : List (Rule β)) (number : Nat) (body : β) : List (Rule β) :=
  rules.takeWhile (·.number ≤ number) ++ ⟨number, body⟩ :: rules.dropWhile (·.number ≤ number)

/-- `ipfw delete`. -/
def deleteRule (rules : List (Rule β)) (number : Nat) : List (Rule β) :=
  rules.filter (·.number ≠ number)

theorem mem_addRule {rules : List (Rule β)} {number : Nat} {body : β} {r : Rule β} :
    r ∈ addRule rules number body ↔ r = ⟨number, body⟩ ∨ r ∈ rules := by
  have hsplit : r ∈ rules ↔ r ∈ rules.takeWhile (·.number ≤ number) ∨
      r ∈ rules.dropWhile (·.number ≤ number) := by
    rw [← List.mem_append, List.takeWhile_append_dropWhile]
  rw [addRule, List.mem_append, List.mem_cons, hsplit]
  exact or_left_comm

theorem mem_deleteRule {rules : List (Rule β)} {number : Nat} {r : Rule β} :
    r ∈ deleteRule rules number ↔ r ∈ rules ∧ r.number ≠ number := by
  rw [deleteRule, List.mem_filter, decide_eq_true_eq]

/-! ## The first rule that matches -/

def Ordered (rules : List (Rule β)) : Prop := rules.Pairwise (fun a b => a.number ≤ b.number)

theorem lt_of_mem_dropWhile {rules : List (Rule β)} (h : Ordered rules) {number : Nat} :
    ∀ r ∈ rules.dropWhile (·.number ≤ number), number < r.number := by
  induction rules with
  | nil =>
      intro r hr
      exact absurd hr List.not_mem_nil
  | cons first rest ih =>
      obtain ⟨hfirst, hrest⟩ := List.pairwise_cons.mp h
      rw [List.dropWhile_cons]
      split
      · exact ih hrest
      · rename_i hlt
        rw [decide_eq_true_eq, not_le] at hlt
        intro r hr
        rcases List.mem_cons.mp hr with rfl | hr
        · exact hlt
        · exact hlt.trans_le (hfirst r hr)

theorem Ordered.addRule {rules : List (Rule β)} (h : Ordered rules) (number : Nat) (body : β) :
    Ordered (addRule rules number body) := by
  have hbelow : ∀ r ∈ rules.takeWhile (·.number ≤ number), r.number ≤ number := by
    intro r hr
    simpa using List.mem_takeWhile_imp hr
  have habove : ∀ r ∈ rules.dropWhile (·.number ≤ number), number < r.number :=
    lt_of_mem_dropWhile h
  refine List.pairwise_append.mpr ⟨h.sublist (List.takeWhile_sublist _), ?_, ?_⟩
  · exact List.pairwise_cons.mpr
      ⟨fun r hr => (habove r hr).le, h.sublist (List.dropWhile_sublist _)⟩
  · intro a ha b hb
    rcases List.mem_cons.mp hb with rfl | hb
    · exact hbelow a ha
    · exact (hbelow a ha).trans (habove b hb).le

theorem Ordered.foldl_addRule (adds : List (Rule β)) {rules : List (Rule β)} (h : Ordered rules) :
    Ordered (adds.foldl (fun rules r => IpfwOps.addRule rules r.number r.body) rules) := by
  induction adds generalizing rules with
  | nil => exact h
  | cons first rest ih => exact ih (h.addRule first.number first.body)

theorem mem_foldl_addRule {adds rules : List (Rule β)} {r : Rule β}
    (h : r ∈ adds.foldl (fun rules r => addRule rules r.number r.body) rules) :
    r ∈ rules ∨ r ∈ adds := by
  induction adds generalizing rules with
  | nil => exact .inl h
  | cons first rest ih =>
      rcases ih h with h | h
      · rcases mem_addRule.mp h with rfl | h
        · exact .inr List.mem_cons_self
        · exact .inl h
      · exact .inr (List.mem_cons_of_mem _ h)

theorem find?_addRule_of_not {matching : Rule β → Bool} {rules : List (Rule β)} {number : Nat}
    {body : β} (h : ¬matching ⟨number, body⟩ = true) :
    (addRule rules number body).find? matching = rules.find? matching := by
  have hsplit := congrArg (List.find? matching)
    (List.takeWhile_append_dropWhile (p := fun r : Rule β => r.number ≤ number) (l := rules))
  rw [List.find?_append] at hsplit
  rw [addRule, List.find?_append, List.find?_cons_of_neg h, hsplit]

/-- A rule that matches comes behind those that match under no higher number. -/
theorem find?_addRule_of_pos {matching : Rule β → Bool} {rules : List (Rule β)}
    (hordered : Ordered rules) {number : Nat} {body : β} (h : matching ⟨number, body⟩ = true)
    (hlow : ∀ r ∈ rules, matching r = true → r.number ≤ number) :
    (addRule rules number body).find? matching =
      (rules.find? matching).or (some ⟨number, body⟩) := by
  have hsplit := congrArg (List.find? matching)
    (List.takeWhile_append_dropWhile (p := fun r : Rule β => r.number ≤ number) (l := rules))
  have hdrop : (rules.dropWhile (·.number ≤ number)).find? matching = none := by
    rw [List.find?_eq_none]
    intro r hr hmatch
    have hlt := lt_of_mem_dropWhile hordered r hr
    have hle := hlow r ((List.dropWhile_sublist _).subset hr) hmatch
    omega
  rw [List.find?_append, hdrop, Option.or_none] at hsplit
  rw [addRule, List.find?_append, List.find?_cons_of_pos h, hsplit]

/--
Rules of which the matching ones are added in the order of their numbers: the
first to match is the first one added.
-/
theorem find?_foldl_addRule {matching : Rule β → Bool} {adds : List (Rule β)}
    (h : Ordered (adds.filter matching)) :
    (adds.foldl (fun rules r => addRule rules r.number r.body) []).find? matching =
      adds.find? matching := by
  induction adds using List.reverseRecOn with
  | nil => rfl
  | append_singleton l r ih =>
      rw [List.filter_append] at h
      obtain ⟨hl, -, hcross⟩ := List.pairwise_append.mp h
      have hordered : Ordered (l.foldl (fun rules r => addRule rules r.number r.body) []) :=
        Ordered.foldl_addRule l List.Pairwise.nil
      rw [List.foldl_append, List.foldl_cons, List.foldl_nil, List.find?_append]
      by_cases hmatch : matching r = true
      · rw [find?_addRule_of_pos hordered hmatch, ih hl, List.find?_cons_of_pos hmatch]
        intro x hx hxmatch
        have hmem := (mem_foldl_addRule hx).resolve_left List.not_mem_nil
        exact hcross x (List.mem_filter.mpr ⟨hmem, hxmatch⟩) r (by simp [hmatch])
      · rw [find?_addRule_of_not hmatch, ih hl, List.find?_cons_of_neg hmatch, List.find?_nil,
          Option.or_none]

end Crate.IpfwOps
