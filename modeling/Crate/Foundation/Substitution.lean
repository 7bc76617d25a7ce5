import Crate.Foundation.Occurrences

/-!
# Simultaneous substitution of tokens

A rule replaces a token by a value.  `substitute` applies a list of rules in one
pass, so a value is never looked at again.  Tokens that are bracketed by two
symbols which do not stand inside them cannot overlap; for such tokens the rules
may be applied one after the other exactly as long as no application makes a
new occurrence of a later token.
-/

namespace Crate.Foundation

section Rules

variable {α : Type} [DecidableEq α]

abbrev Replacement (α : Type) := List α × List α

/-- The first rule whose token stands at the front of the text. -/
def ruleAt (rules : List (Replacement α)) (text : List α) : Option (Replacement α) :=
  rules.find? (fun r => r.1.isPrefixOf text)

/-- One pass; `skip` symbols belong to a token that has been replaced. -/
def substituteFrom (rules : List (Replacement α)) : Nat → List α → List α
  | _, [] => []
  | skip + 1, _ :: rest => substituteFrom rules skip rest
  | 0, c :: rest =>
      match ruleAt rules (c :: rest) with
      | some r => r.2 ++ substituteFrom rules (r.1.length - 1) rest
      | none => c :: substituteFrom rules 0 rest

def substitute (rules : List (Replacement α)) (text : List α) : List α :=
  substituteFrom rules 0 text

variable {rules : List (Replacement α)} {r : Replacement α}
variable {c : α} {rest text token value : List α}

theorem ruleAt_eq_none_iff : ruleAt rules text = none ↔ ∀ r ∈ rules, ¬r.1 <+: text := by
  simp [ruleAt]

theorem mem_of_ruleAt (h : ruleAt rules text = some r) : r ∈ rules := List.mem_of_find?_eq_some h

theorem prefix_of_ruleAt (h : ruleAt rules text = some r) : r.1 <+: text := by
  have hstart := List.find?_some h
  rwa [List.isPrefixOf_iff_prefix] at hstart

theorem substituteFrom_eq (rules : List (Replacement α)) (skip : Nat) (text : List α) :
    substituteFrom rules skip text = substitute rules (text.drop skip) := by
  induction skip generalizing text with
  | zero => rfl
  | succ skip ih =>
      cases text with
      | nil => rfl
      | cons c rest => exact ih rest

@[simp] theorem substitute_nil : substitute rules ([] : List α) = [] := rfl

theorem substitute_hit (hne : r.1 ≠ []) (h : ruleAt rules (r.1 ++ rest) = some r) :
    substitute rules (r.1 ++ rest) = r.2 ++ substitute rules rest := by
  obtain ⟨token, value⟩ := r
  obtain ⟨c, tail, rfl⟩ := List.exists_cons_of_ne_nil hne
  have hskip := substituteFrom_eq rules tail.length (tail ++ rest)
  rw [List.drop_left] at hskip
  rw [List.cons_append] at h
  rw [substitute, List.cons_append, substituteFrom, h]
  exact congrArg (value ++ ·) hskip

theorem substitute_miss (h : ruleAt rules (c :: rest) = none) :
    substitute rules (c :: rest) = c :: substitute rules rest := by
  rw [substitute, substituteFrom, h]
  rfl

theorem substitute_of_no_rules (text : List α) : substitute [] text = text := by
  induction text with
  | nil => rfl
  | cons c rest ih => rw [substitute_miss rfl, ih]

/-- Induction along a pass: a text is empty, begins with a token or with a symbol that stays. -/
theorem pass_induction {P : List α → Prop} (hne : ∀ r ∈ rules, r.1 ≠ []) (hnil : P [])
    (hmiss : ∀ c rest, ruleAt rules (c :: rest) = none → P rest → P (c :: rest))
    (hhit : ∀ r ∈ rules, ∀ rest, ruleAt rules (r.1 ++ rest) = some r → P rest → P (r.1 ++ rest))
    (text : List α) : P text := by
  induction hlen : text.length using Nat.strong_induction_on generalizing text with
  | _ len ih =>
      cases text with
      | nil => exact hnil
      | cons c rest =>
          cases hat : ruleAt rules (c :: rest) with
          | none =>
              exact hmiss c rest hat (ih rest.length (by rw [← hlen]; exact Nat.lt_succ_self _) rest rfl)
          | some r =>
              obtain ⟨behind, hbehind⟩ := prefix_of_ruleAt hat
              have hr := mem_of_ruleAt hat
              have hpos := List.length_pos_of_ne_nil (hne r hr)
              have hshort : behind.length < len := by
                rw [← hlen, ← hbehind, List.length_append]
                omega
              rw [← hbehind] at hat ⊢
              exact hhit r hr behind hat (ih _ hshort behind rfl)

end Rules

/-! ## Bracketed tokens -/

/-- The opening and the closing symbol stand at the ends of the token only. -/
structure Bracketed {α : Type} (opening closing : α) (token : List α) : Prop where
  ne : opening ≠ closing
  ends : ∃ body, token = opening :: (body ++ [closing]) ∧ opening ∉ body ∧ closing ∉ body

namespace Bracketed

variable {α : Type} {opening closing : α} {s token rest text : List α}

theorem ne_nil (h : Bracketed opening closing token) : token ≠ [] := by
  obtain ⟨body, rfl, -⟩ := h.ends
  exact List.cons_ne_nil _ _

theorem exists_tail (h : Bracketed opening closing token) :
    ∃ tail, token = opening :: tail ∧ opening ∉ tail := by
  obtain ⟨body, rfl, hopening, -⟩ := h.ends
  refine ⟨body ++ [closing], rfl, ?_⟩
  simp [hopening, h.ne]

/-- Two tokens at one place are the same. -/
theorem eq_of_starts (hs : Bracketed opening closing s) (ht : Bracketed opening closing token)
    (h : s <+: text) (h' : token <+: text) : s = token := by
  classical
  obtain ⟨b, rfl, -, hb⟩ := hs.ends
  obtain ⟨b', rfl, -, hb'⟩ := ht.ends
  obtain ⟨rest, rfl⟩ := h
  obtain ⟨rest', heq⟩ := h'
  have hcut : ∀ {a : List α} (w : List α), closing ∉ a →
      (a ++ closing :: w).takeWhile (fun x => decide (x ≠ closing)) = a := by
    intro a w ha
    rw [List.takeWhile_append_of_pos]
    · simp
    · intro x hx
      exact decide_eq_true (fun h => ha (h ▸ hx))
  have hbody : b' ++ closing :: rest' = b ++ closing :: rest := by simpa using heq
  have hleft := hcut rest' hb'
  rw [hbody, hcut rest hb] at hleft
  rw [hleft]

/-- A token that begins before an opening symbol ends before it. -/
theorem prefix_of_prefix_append (ht : Bracketed opening closing token) (hne : s ≠ [])
    (h : token <+: s ++ opening :: rest) : token <+: s := by
  obtain ⟨tail, rfl, htail⟩ := ht.exists_tail
  rcases List.prefix_or_prefix_of_prefix h (List.prefix_append s _) with hin | ⟨w, hw⟩
  · exact hin
  · cases w with
    | nil => rw [← hw, List.append_nil]
    | cons d w =>
        rw [← hw] at h
        have hd := (List.cons_prefix_cons.mp ((List.prefix_append_right_inj s).mp h)).1
        obtain ⟨c, s, rfl⟩ := List.exists_cons_of_ne_nil hne
        rw [List.cons_append, List.cons.injEq] at hw
        refine absurd ?_ htail
        rw [← hw.2, hd]
        simp

/-- No token begins behind an opening symbol and before the next one. -/
theorem not_prefix_of_not_mem (ht : Bracketed opening closing token) (hne : s ≠ [])
    (hs : opening ∉ s) : ¬token <+: s ++ rest := by
  obtain ⟨tail, rfl, -⟩ := ht.exists_tail
  obtain ⟨c, s, rfl⟩ := List.exists_cons_of_ne_nil hne
  intro h
  exact hs (List.mem_cons.mpr (.inl (List.cons_prefix_cons.mp h).1))

end Bracketed

/-! ## One rule after the other -/

section Sequential

variable {α : Type} [DecidableEq α] {opening closing : α} {rules : List (Replacement α)}
variable {r : Replacement α} {s token value text rest : List α}

/-- Every token of the rules is bracketed. -/
def AllBracketed (opening closing : α) (rules : List (Replacement α)) : Prop :=
  ∀ r ∈ rules, Bracketed opening closing r.1

theorem substitute_append_of_not_mem (hrules : AllBracketed opening closing rules)
    (hs : opening ∉ s) : substitute rules (s ++ rest) = s ++ substitute rules rest := by
  induction s with
  | nil => rfl
  | cons c s ih =>
      have hmiss : ruleAt rules (c :: (s ++ rest)) = none := by
        rw [ruleAt_eq_none_iff]
        intro r hr
        exact (hrules r hr).not_prefix_of_not_mem (List.cons_ne_nil c s) hs
      rw [List.cons_append, substitute_miss hmiss, ih (List.not_mem_of_not_mem_cons hs)]
      rfl

/-- A token without a rule stays. -/
theorem substitute_token (hrules : AllBracketed opening closing rules)
    (htoken : Bracketed opening closing token) (hnot : ∀ r ∈ rules, r.1 ≠ token) :
    substitute rules (token ++ rest) = token ++ substitute rules rest := by
  have hmiss : ruleAt rules (token ++ rest) = none := by
    rw [ruleAt_eq_none_iff]
    intro r hr hin
    exact hnot r hr ((hrules r hr).eq_of_starts htoken hin (List.prefix_append _ _))
  obtain ⟨tail, rfl, htail⟩ := htoken.exists_tail
  rw [List.cons_append] at hmiss ⊢
  rw [substitute_miss hmiss, substitute_append_of_not_mem hrules htail]
  rfl

theorem substitute_rule (hrules : AllBracketed opening closing rules)
    (hdistinct : (rules.map Prod.fst).Nodup) (hr : r ∈ rules) :
    substitute rules (r.1 ++ rest) = r.2 ++ substitute rules rest := by
  apply substitute_hit (hrules r hr).ne_nil
  cases hat : ruleAt rules (r.1 ++ rest) with
  | none => exact absurd (List.prefix_append _ _) (ruleAt_eq_none_iff.mp hat r hr)
  | some r' =>
      have hr' := mem_of_ruleAt hat
      have htoken := (hrules r' hr').eq_of_starts (hrules r hr) (prefix_of_ruleAt hat)
        (List.prefix_append _ _)
      exact congrArg some (List.inj_on_of_nodup_map hdistinct hr' hr htoken)

theorem ruleAt_append_opening (hrules : AllBracketed opening closing rules) (hne : s ≠ []) :
    ruleAt rules (s ++ opening :: rest) = ruleAt rules s := by
  apply List.find?_congr
  intro r hr
  have hiff : r.1 <+: s ++ opening :: rest ↔ r.1 <+: s :=
    ⟨(hrules r hr).prefix_of_prefix_append hne, fun h => h.trans (List.prefix_append _ _)⟩
  rw [Bool.eq_iff_iff, List.isPrefixOf_iff_prefix, List.isPrefixOf_iff_prefix, hiff]

omit [DecidableEq α] in
theorem AllBracketed.ne_nil (h : AllBracketed opening closing rules) : ∀ r ∈ rules, r.1 ≠ [] :=
  fun r hr => (h r hr).ne_nil

/-- An opening symbol cuts the text. -/
theorem substitute_append_opening (hrules : AllBracketed opening closing rules) (s : List α) :
    substitute rules (s ++ opening :: rest) =
      substitute rules s ++ substitute rules (opening :: rest) := by
  induction s using pass_induction hrules.ne_nil with
  | hnil => rfl
  | hmiss c s hat ih =>
      have hfront : ruleAt rules (c :: s ++ opening :: rest) = ruleAt rules (c :: s) :=
        ruleAt_append_opening hrules (List.cons_ne_nil c s)
      rw [hat, List.cons_append] at hfront
      rw [List.cons_append, substitute_miss hfront, substitute_miss hat, ih]
      rfl
  | hhit r hr s hat ih =>
      have hne := hrules.ne_nil r hr
      have hfront : ruleAt rules (r.1 ++ s ++ opening :: rest) = ruleAt rules (r.1 ++ s) :=
        ruleAt_append_opening hrules (List.append_ne_nil_of_left_ne_nil hne s)
      rw [hat, List.append_assoc] at hfront
      rw [List.append_assoc, substitute_hit hne hfront, substitute_hit hne hat, ih, List.append_assoc]

theorem occurrences_append_opening (htoken : Bracketed opening closing token) (s : List α) :
    occurrences token (s ++ opening :: rest) =
      occurrences token s + occurrences token (opening :: rest) := by
  induction s with
  | nil => simp [occurrences]
  | cons c s ih =>
      have hiff : token <+: c :: (s ++ opening :: rest) ↔ token <+: c :: s :=
        ⟨htoken.prefix_of_prefix_append (List.cons_ne_nil c s),
          fun h => h.trans (List.prefix_append (c :: s) _)⟩
      rw [List.cons_append, occurrences, occurrences, ih]
      simp only [List.isPrefixOf_iff_prefix, hiff, Nat.add_assoc]

theorem occurrences_append_of_not_mem (htoken : Bracketed opening closing token)
    (hs : opening ∉ s) : occurrences token (s ++ rest) = occurrences token rest := by
  induction s with
  | nil => rfl
  | cons c s ih =>
      have hnot : ¬token <+: c :: (s ++ rest) :=
        htoken.not_prefix_of_not_mem (List.cons_ne_nil c s) hs
      rw [List.cons_append, occurrences, ih (List.not_mem_of_not_mem_cons hs)]
      simp [hnot]

theorem occurrences_token (htoken : Bracketed opening closing token)
    (hs : Bracketed opening closing s) :
    occurrences token (s ++ rest) = (if s = token then 1 else 0) + occurrences token rest := by
  have hiff : token <+: s ++ rest ↔ s = token := by
    constructor
    · exact fun h => hs.eq_of_starts htoken (List.prefix_append _ _) h
    · rintro rfl
      exact List.prefix_append _ _
  obtain ⟨tail, rfl, htail⟩ := hs.exists_tail
  rw [List.cons_append] at hiff ⊢
  rw [occurrences, occurrences_append_of_not_mem htoken htail]
  simp only [List.isPrefixOf_iff_prefix, hiff]

/-- Pieces of text with the same text between them. -/
def joined (between first : List α) (others : List (List α)) : List α :=
  first ++ others.flatMap (fun s => between ++ s)

omit [DecidableEq α] in
theorem joined_cons (between first s : List α) (others : List (List α)) :
    joined between first (s :: others) = first ++ (between ++ joined between s others) := by
  simp [joined]

/-- The places of a token without a rule cut the text into pieces. -/
theorem exists_pieces (hrules : AllBracketed opening closing rules)
    (hdistinct : (rules.map Prod.fst).Nodup) (htoken : Bracketed opening closing token)
    (hnot : ∀ r ∈ rules, r.1 ≠ token) (value text : List α) :
    ∃ first others, substitute rules text = joined token first others ∧
      substitute (rules ++ [(token, value)]) text = joined value first others ∧
      occurrences token text = others.length := by
  have hrules' : AllBracketed opening closing (rules ++ [(token, value)]) := by
    intro r hr
    rcases List.mem_append.mp hr with h | h
    · exact hrules r h
    · rw [List.mem_singleton.mp h]
      exact htoken
  have hdistinct' : ((rules ++ [(token, value)]).map Prod.fst).Nodup := by
    rw [List.map_append, List.nodup_append]
    refine ⟨hdistinct, List.nodup_singleton _, ?_⟩
    intro a ha b hb
    obtain ⟨r, hr, rfl⟩ := List.mem_map.mp ha
    rw [List.map_singleton, List.mem_singleton] at hb
    rw [hb]
    exact hnot r hr
  induction text using pass_induction hrules'.ne_nil with
  | hnil => exact ⟨[], [], rfl, rfl, rfl⟩
  | hmiss c rest hat ih =>
      have hat' : ruleAt rules (c :: rest) = none := by
        rw [ruleAt_eq_none_iff] at hat ⊢
        exact fun r hr => hat r (List.mem_append_left _ hr)
      have hnone : ¬token <+: c :: rest := ruleAt_eq_none_iff.mp hat (token, value) (by simp)
      obtain ⟨first, others, hleft, hright, hcount⟩ := ih
      refine ⟨c :: first, others, ?_, ?_, ?_⟩
      · rw [substitute_miss hat', hleft]
        rfl
      · rw [substitute_miss hat, hright]
        rfl
      · rw [occurrences, hcount]
        simp [hnone]
  | hhit r hr rest hat ih =>
      obtain ⟨first, others, hleft, hright, hcount⟩ := ih
      rw [substitute_hit (hrules'.ne_nil r hr) hat, occurrences_token htoken (hrules' r hr), hcount,
        hright]
      rcases List.mem_append.mp hr with hmem | hmem
      · refine ⟨r.2 ++ first, others, ?_, ?_, ?_⟩
        · rw [substitute_rule hrules hdistinct hmem, hleft, joined, joined, List.append_assoc]
        · rw [joined, joined, List.append_assoc]
        · rw [if_neg (hnot r hmem), Nat.zero_add]
      · obtain rfl := List.mem_singleton.mp hmem
        refine ⟨[], first :: others, ?_, ?_, ?_⟩
        · rw [substitute_token hrules htoken hnot, hleft, joined_cons]
          rfl
        · rw [joined_cons]
          rfl
        · rw [if_pos rfl, List.length_cons, Nat.add_comm]

omit [DecidableEq α] in
theorem allBracketed_singleton (h : Bracketed opening closing token) (value : List α) :
    AllBracketed opening closing [(token, value)] := by
  intro r hr
  rw [List.mem_singleton.mp hr]
  exact h

theorem substitute_token_append (htoken : Bracketed opening closing token) (value : List α) :
    substitute [(token, value)] (token ++ rest) = value ++ substitute [(token, value)] rest :=
  substitute_rule (r := (token, value)) (allBracketed_singleton htoken value) (by simp) (by simp)

theorem substitute_joined (htoken : Bracketed opening closing token) (value first : List α)
    (others : List (List α)) :
    substitute [(token, value)] (joined token first others) =
      joined value (substitute [(token, value)] first)
        (others.map (substitute [(token, value)])) := by
  induction others generalizing first with
  | nil => simp [joined]
  | cons s others ih =>
      obtain ⟨tail, htail, -⟩ := htoken.exists_tail
      have hcut : substitute [(token, value)] (first ++ opening :: (tail ++ joined token s others)) =
          substitute [(token, value)] first ++
            substitute [(token, value)] (opening :: (tail ++ joined token s others)) :=
        substitute_append_opening (allBracketed_singleton htoken value) first
      rw [← List.cons_append, ← htail] at hcut
      rw [joined_cons, hcut, substitute_token_append htoken, ih, List.map_cons, joined_cons]

theorem occurrences_joined (htoken : Bracketed opening closing token) (first : List α)
    (others : List (List α)) :
    occurrences token (joined token first others) =
      occurrences token first + others.length + (others.map (occurrences token)).sum := by
  induction others generalizing first with
  | nil => simp [joined]
  | cons s others ih =>
      obtain ⟨tail, htail, -⟩ := htoken.exists_tail
      have hcut : occurrences token (first ++ opening :: (tail ++ joined token s others)) =
          occurrences token first + occurrences token (opening :: (tail ++ joined token s others)) :=
        occurrences_append_opening htoken first
      rw [← List.cons_append, ← htail] at hcut
      rw [joined_cons, hcut, occurrences_token htoken htoken, if_pos rfl, ih, List.map_cons,
        List.sum_cons, List.length_cons]
      omega

theorem length_substitute (htoken : Bracketed opening closing token) (value text : List α) :
    (substitute [(token, value)] text).length + occurrences token text * token.length =
      text.length + occurrences token text * value.length := by
  induction text using pass_induction (allBracketed_singleton htoken value).ne_nil with
  | hnil => simp [occurrences]
  | hmiss c rest hat ih =>
      have hnone : ¬token <+: c :: rest := ruleAt_eq_none_iff.mp hat (token, value) (by simp)
      have hcount : occurrences token (c :: rest) = occurrences token rest := by
        simp [occurrences, hnone]
      rw [substitute_miss hat, hcount, List.length_cons, List.length_cons]
      omega
  | hhit r hr rest hat ih =>
      obtain rfl := List.mem_singleton.mp hr
      dsimp only
      rw [substitute_token_append htoken, occurrences_token htoken htoken, if_pos rfl,
        List.length_append, List.length_append, Nat.add_mul, Nat.add_mul]
      omega

omit [DecidableEq α] in
theorem length_eq_of_mul_eq {n : Nat} (hn : n ≠ 0)
    (h : n * token.length = n * value.length) : token.length = value.length :=
  Nat.eq_of_mul_eq_mul_left (Nat.pos_of_ne_zero hn) h

/-- A rule that changes nothing has nothing to replace. -/
theorem occurrences_eq_zero_of_substitute_eq (htoken : Bracketed opening closing token)
    (hvalue : value ≠ token) (h : substitute [(token, value)] text = text) :
    occurrences token text = 0 := by
  induction text using pass_induction (allBracketed_singleton htoken value).ne_nil with
  | hnil => rfl
  | hmiss c rest hat ih =>
      have hnone : ¬token <+: c :: rest := ruleAt_eq_none_iff.mp hat (token, value) (by simp)
      rw [substitute_miss hat, List.cons.injEq] at h
      rw [occurrences, ih h.2]
      simp [hnone]
  | hhit r hr rest hat ih =>
      obtain rfl := List.mem_singleton.mp hr
      have hlength := length_substitute htoken value (token ++ rest)
      dsimp only at h
      rw [h, occurrences_token htoken htoken, if_pos rfl] at hlength
      have hsame : token.length = value.length :=
        length_eq_of_mul_eq (by omega) (Nat.add_left_cancel hlength)
      rw [substitute_token_append htoken] at h
      exact absurd (List.append_inj h hsame.symm).1 hvalue

/-- Between pieces, a rule changes nothing if it has nothing to replace in any piece. -/
theorem occurrences_pieces_eq_zero (htoken : Bracketed opening closing token)
    (hvalue : value ≠ token) {first : List α} {others : List (List α)}
    (h : joined value (substitute [(token, value)] first)
      (others.map (substitute [(token, value)])) = joined value first others) :
    occurrences token first + (others.map (occurrences token)).sum = 0 := by
  have htotal : (joined value (substitute [(token, value)] first)
        (others.map (substitute [(token, value)]))).length +
      (occurrences token first + (others.map (occurrences token)).sum) * token.length =
        (joined value first others).length +
          (occurrences token first + (others.map (occurrences token)).sum) * value.length := by
    clear h
    induction others generalizing first with
    | nil => simpa [joined] using length_substitute htoken value first
    | cons s others ih =>
        have hfirst := length_substitute htoken value first
        have hrest := @ih s
        simp only [List.map_cons, joined_cons, List.length_append, List.sum_cons, Nat.add_mul] at hrest ⊢
        omega
  by_contra hne
  rw [h] at htotal
  have hsame : token.length = value.length := length_eq_of_mul_eq hne (Nat.add_left_cancel htotal)
  have hkeep : ∀ s, (substitute [(token, value)] s).length = s.length := by
    intro s
    have hs := length_substitute htoken value s
    rw [hsame] at hs
    exact Nat.add_right_cancel hs
  apply hne
  clear htotal hne
  induction others generalizing first with
  | nil =>
      rw [occurrences_eq_zero_of_substitute_eq htoken hvalue (by simpa [joined] using h)]
      rfl
  | cons s others ih =>
      rw [List.map_cons, joined_cons, joined_cons] at h
      obtain ⟨hfirst, hrest⟩ := List.append_inj h (hkeep first)
      rw [occurrences_eq_zero_of_substitute_eq htoken hvalue hfirst, List.map_cons, List.sum_cons,
        ih (List.append_cancel_left hrest)]

theorem substitute_of_occurrences_eq_zero (h : occurrences token text = 0) :
    substitute [(token, value)] text = text := by
  induction text with
  | nil => rfl
  | cons c rest ih =>
      rw [occurrences, Nat.add_eq_zero_iff] at h
      have hnone : ¬token <+: c :: rest := by simpa using h.1
      have hmiss : ruleAt [(token, value)] (c :: rest) = none := by
        rw [ruleAt_eq_none_iff]
        intro r hr
        rwa [List.mem_singleton.mp hr]
      rw [substitute_miss hmiss, ih h.2]

theorem substitute_self (htoken : Bracketed opening closing token) (text : List α) :
    substitute [(token, token)] text = text := by
  induction text using pass_induction (allBracketed_singleton htoken token).ne_nil with
  | hnil => rfl
  | hmiss c rest hat ih => rw [substitute_miss hat, ih]
  | hhit r hr rest hat ih =>
      obtain rfl := List.mem_singleton.mp hr
      rw [substitute_token_append htoken, ih]

/-- One more rule may come behind the others if they make no occurrence of its token. -/
theorem substitute_snoc_iff (hrules : AllBracketed opening closing rules)
    (hdistinct : (rules.map Prod.fst).Nodup) (htoken : Bracketed opening closing token)
    (hnot : ∀ r ∈ rules, r.1 ≠ token) (value text : List α) :
    substitute [(token, value)] (substitute rules text) =
        substitute (rules ++ [(token, value)]) text ↔
      (value ≠ token → occurrences token (substitute rules text) = occurrences token text) := by
  obtain ⟨first, others, hleft, hright, hcount⟩ :=
    exists_pieces hrules hdistinct htoken hnot value text
  rw [hleft, hright, hcount, substitute_joined htoken, occurrences_joined htoken]
  constructor
  · intro h hvalue
    have hzero := occurrences_pieces_eq_zero htoken hvalue h
    omega
  · intro h
    by_cases hvalue : value = token
    · subst hvalue
      rw [substitute_self htoken, List.map_congr_left (fun s _ => substitute_self htoken s),
        List.map_id']
    · have hzero := h hvalue
      have hpieces : ∀ s ∈ others, occurrences token s = 0 := by
        intro s hs
        have hle := List.single_le_sum (l := others.map (occurrences token)) (by simp) _
          (List.mem_map_of_mem hs)
        omega
      rw [substitute_of_occurrences_eq_zero (by omega),
        List.map_congr_left (fun s hs => substitute_of_occurrences_eq_zero (hpieces s hs)),
        List.map_id']

/-- The step from the first `n` rules to the next one. -/
theorem substitute_take_succ_iff (hrules : AllBracketed opening closing rules)
    (hdistinct : (rules.map Prod.fst).Nodup) {n : Nat} (hr : rules[n]? = some r) (text : List α) :
    substitute [r] (substitute (rules.take n) text) = substitute (rules.take (n + 1)) text ↔
      (r.2 ≠ r.1 → occurrences r.1 (substitute (rules.take n) text) = occurrences r.1 text) := by
  have hmem : r ∈ rules := List.mem_of_getElem? hr
  have htake : rules.take (n + 1) = rules.take n ++ [r] := by
    rw [List.take_add_one, hr]
    rfl
  rw [htake]
  refine substitute_snoc_iff ?_ ?_ (hrules r hmem) ?_ r.2 text
  · exact fun r' hr' => hrules r' (List.mem_of_mem_take hr')
  · exact hdistinct.sublist ((List.take_sublist n rules).map Prod.fst)
  · intro r' hr' hsame
    have hnodup := hdistinct.sublist ((List.take_sublist (n + 1) rules).map Prod.fst)
    rw [htake, List.map_append, List.nodup_append] at hnodup
    exact hnodup.2.2 _ (List.mem_map_of_mem hr') _ (by simp) hsame

/-- The rules applied in turn are applied at once, as long as no rule meets a token that the text
does not have. -/
theorem foldl_substitute_eq (hrules : AllBracketed opening closing rules)
    (hdistinct : (rules.map Prod.fst).Nodup) (text : List α) (n : Nat)
    (h : ∀ m < n, ∀ r ∈ rules[m]?, r.2 ≠ r.1 →
      (rules.take m).foldl (fun s r => substitute [r] s) text = substitute (rules.take m) text →
        occurrences r.1 (substitute (rules.take m) text) = occurrences r.1 text) :
    (rules.take n).foldl (fun s r => substitute [r] s) text = substitute (rules.take n) text := by
  induction n with
  | zero => simp [substitute_of_no_rules]
  | succ n ih =>
      have hsame := ih (fun m hm => h m (Nat.lt_succ_of_lt hm))
      cases hget : rules[n]? with
      | none =>
          rw [List.take_add_one, hget]
          simpa using hsame
      | some r =>
          rw [← (substitute_take_succ_iff hrules hdistinct hget text).mpr
            (fun hvalue => h n (Nat.lt_succ_self n) r hget hvalue hsame), List.take_add_one, hget,
            List.foldl_append, hsame]
          rfl

/-- In turn, every rule meets the tokens of the text and no others exactly when the rules before it,
applied at once, make none of them. -/
theorem foldl_meets_iff (hrules : AllBracketed opening closing rules)
    (hdistinct : (rules.map Prod.fst).Nodup) (text : List α) :
    (∀ n, ∀ r ∈ rules[n]?, r.2 ≠ r.1 →
        occurrences r.1 ((rules.take n).foldl (fun s r => substitute [r] s) text) =
          occurrences r.1 text) ↔
      ∀ n, ∀ r ∈ rules[n]?, r.2 ≠ r.1 →
        occurrences r.1 (substitute (rules.take n) text) = occurrences r.1 text := by
  constructor
  · intro h n r hr hvalue
    rw [← foldl_substitute_eq hrules hdistinct text n, h n r hr hvalue]
    intro m _ r' hr' hvalue' hsame
    rw [← hsame, h m r' hr' hvalue']
  · intro h n r hr hvalue
    have heq := foldl_substitute_eq hrules hdistinct text n
      (fun m _ r' hr' hvalue' _ => h m r' hr' hvalue')
    rw [heq, h n r hr hvalue]

end Sequential

/-! ## Other names for the tokens -/

section Renaming

variable {α : Type} [DecidableEq α] {opening closing : α} {rules rules' : List (Replacement α)}

theorem prefix_of_prefix_substitute (hrules : AllBracketed opening closing rules)
    (hvalues : ∀ r ∈ rules, Bracketed opening closing r.2) {w text : List α} (hw : opening ∉ w)
    (h : w <+: substitute rules text) : w <+: text := by
  induction w generalizing text with
  | nil => exact List.nil_prefix
  | cons d w ih =>
      obtain ⟨hd, hw'⟩ := List.ne_and_not_mem_of_not_mem_cons hw
      cases text with
      | nil => exact h
      | cons c rest =>
          cases hat : ruleAt rules (c :: rest) with
          | none =>
              rw [substitute_miss hat, List.cons_prefix_cons] at h
              exact List.cons_prefix_cons.mpr ⟨h.1, ih hw' h.2⟩
          | some r =>
              obtain ⟨behind, hbehind⟩ := prefix_of_ruleAt hat
              obtain ⟨tail, htail, -⟩ := (hvalues r (mem_of_ruleAt hat)).exists_tail
              rw [← hbehind] at hat
              rw [← hbehind, substitute_hit (hrules.ne_nil r (mem_of_ruleAt hat)) hat, htail,
                List.cons_append, List.cons_prefix_cons] at h
              exact absurd h.1.symm hd

/-- The rules that give the tokens their new names. -/
def renamed (name : List α → List α) (rules : List (Replacement α)) : List (Replacement α) :=
  rules.map (fun r => (r.1, name r.1))

/-- New names for the tokens change nothing, if they capture no text. -/
theorem substitute_renamed {name : List α → List α} (hrules : AllBracketed opening closing rules)
    (hdistinct : (rules.map Prod.fst).Nodup) (hrules' : AllBracketed opening closing rules')
    (hdistinct' : (rules'.map Prod.fst).Nodup)
    (hsame : ∀ r', r' ∈ rules' ↔ ∃ r ∈ rules, r' = (name r.1, r.2)) {text : List α}
    (hcapture : ∀ r ∈ rules, name r.1 ∉ rules.map Prod.fst → occurrences (name r.1) text = 0) :
    substitute rules' (substitute (renamed name rules) text) = substitute rules text := by
  have hnew : ∀ r ∈ rules, (name r.1, r.2) ∈ rules' := fun r hr => (hsame _).mpr ⟨r, hr, rfl⟩
  have hfst : (renamed name rules).map Prod.fst = rules.map Prod.fst := by
    simp [renamed]
  have hrenaming : AllBracketed opening closing (renamed name rules) := by
    intro r₁ hr₁
    obtain ⟨r, hr, rfl⟩ := List.mem_map.mp hr₁
    exact hrules r hr
  have hvalues : ∀ r ∈ renamed name rules, Bracketed opening closing r.2 := by
    intro r₁ hr₁
    obtain ⟨r, hr, rfl⟩ := List.mem_map.mp hr₁
    exact hrules' _ (hnew r hr)
  induction text using pass_induction hrules.ne_nil with
  | hnil => rfl
  | hmiss c rest hat ih =>
      have hat' : ruleAt (renamed name rules) (c :: rest) = none := by
        rw [ruleAt_eq_none_iff] at hat ⊢
        intro r₁ hr₁
        obtain ⟨r, hr, rfl⟩ := List.mem_map.mp hr₁
        exact hat r hr
      have hmiss : ruleAt rules' (c :: substitute (renamed name rules) rest) = none := by
        rw [ruleAt_eq_none_iff] at hat ⊢
        intro r' hr' hin
        obtain ⟨tail, htail, hopening⟩ := (hrules' r' hr').exists_tail
        rw [htail, List.cons_prefix_cons] at hin
        have hrest := prefix_of_prefix_substitute hrenaming hvalues hopening hin.2
        have htoken : r'.1 <+: c :: rest := by
          rw [htail]
          exact List.cons_prefix_cons.mpr ⟨hin.1, hrest⟩
        obtain ⟨r, hr, rfl⟩ := (hsame r').mp hr'
        by_cases hknown : name r.1 ∈ rules.map Prod.fst
        · obtain ⟨s, hs, hsname⟩ := List.mem_map.mp hknown
          exact hat s hs (hsname ▸ htoken)
        · have hzero := hcapture r hr hknown
          rw [occurrences, Nat.add_eq_zero_iff] at hzero
          simp only [List.isPrefixOf_iff_prefix] at hzero
          rw [if_pos htoken] at hzero
          cases hzero.1
      have hcapture' : ∀ r ∈ rules, name r.1 ∉ rules.map Prod.fst →
          occurrences (name r.1) rest = 0 := by
        intro r hr hknown
        have hzero := hcapture r hr hknown
        rw [occurrences, Nat.add_eq_zero_iff] at hzero
        exact hzero.2
      rw [substitute_miss hat', substitute_miss hmiss, substitute_miss hat, ih hcapture']
  | hhit r hr rest hat ih =>
      have hcapture' : ∀ s ∈ rules, name s.1 ∉ rules.map Prod.fst →
          occurrences (name s.1) rest = 0 := by
        intro s hs hknown
        have hzero := hcapture s hs hknown
        rw [occurrences_token (hrules' _ (hnew s hs)) (hrules r hr), Nat.add_eq_zero_iff] at hzero
        exact hzero.2
      have hrename : substitute (renamed name rules) (r.1 ++ rest) =
          name r.1 ++ substitute (renamed name rules) rest :=
        substitute_rule (r := (r.1, name r.1)) hrenaming (by rwa [hfst])
          (List.mem_map_of_mem hr)
      have hvalue : substitute rules' (name r.1 ++ substitute (renamed name rules) rest) =
          r.2 ++ substitute rules' (substitute (renamed name rules) rest) :=
        substitute_rule (r := (name r.1, r.2)) hrules' hdistinct' (hnew r hr)
      rw [hrename, hvalue, substitute_rule hrules hdistinct hr, ih hcapture']

end Renaming

/-! ## Replacing by search -/

theorem substitute_of_splitFirst {token value s before behind : Str} (hne : token ≠ [])
    (h : splitFirst token s = some (before, behind)) :
    substitute [(token, value)] s = before ++ value ++ substitute [(token, value)] behind := by
  induction s generalizing before behind with
  | nil => simp [splitFirst, hne] at h
  | cons c rest ih =>
      rw [splitFirst] at h
      split at h
      · rename_i hstart
        cases h
        obtain ⟨behind, hbehind⟩ := List.isPrefixOf_iff_prefix.mp hstart
        have hat : ruleAt [(token, value)] (token ++ behind) = some (token, value) := by
          simp [ruleAt]
        rw [← hbehind, substitute_hit (r := (token, value)) hne hat, List.drop_left]
        rfl
      · rename_i hstart
        obtain ⟨parts, hparts, hcons⟩ := Option.map_eq_some_iff.mp h
        cases hcons
        have hmiss : ruleAt [(token, value)] (c :: rest) = none := by
          simpa [ruleAt] using hstart
        rw [substitute_miss hmiss, ih hparts]
        rfl

theorem substitute_of_splitFirst_none {token value s : Str} (hne : token ≠ [])
    (h : splitFirst token s = none) : substitute [(token, value)] s = s := by
  apply substitute_of_occurrences_eq_zero
  rw [occurrences_eq_zero_iff hne, ← isSome_splitFirst_iff, h]
  exact Bool.false_ne_true

end Crate.Foundation
