import Crate.PerUser.Ip6Text

/-!
# One IPv6 grammar, read three times

The privileged validator, the lease allocator and the per-user networks each
read an address with a scanner of their own.  They agree, except on texts with
a colon that stands alone at an end, and on eight groups around a pair of
colons.
-/

namespace Crate.PrivOpsPure

open Crate.Foundation
open Crate.Ip6AllocPure (IsGroup)
open Crate.PerUserNetPure (Readable)

/-! ## The validator -/

variable {words : List Str} {w rest : Str} {r : Nat × Bool}

theorem closeIpv6Group_bind_eq_ok {groups : Nat} {next : Nat → Except Str (Nat × Bool)} :
    (closeIpv6Group w groups >>= next) = .ok r ↔ w.length ≤ 4 ∧ next (groups + 1) = .ok r := by
  unfold closeIpv6Group
  by_cases hlen : w.length > 4
  · rw [if_pos hlen]
    exact ⟨fun h => absurd h nofun, fun h => absurd h.1 (by omega)⟩
  · rw [if_neg hlen, ok_bind]
    exact ⟨fun h => ⟨by omega, h⟩, fun h => h.2⟩

theorem ipv6GroupLoop_word (h : ':' ∉ w) (cur : Str) (groups : Nat) (saw : Bool) :
    ipv6GroupLoop (w ++ rest) cur groups saw = .ok r ↔
      (∀ c ∈ w, isHexDigit c = true) ∧ ipv6GroupLoop rest (cur ++ w) groups saw = .ok r := by
  induction w generalizing cur with
  | nil => simp
  | cons c w ih =>
      obtain ⟨hne, htail⟩ := List.ne_and_not_mem_of_not_mem_cons h
      rw [List.cons_append, ipv6GroupLoop, List.forall_mem_cons]
      · by_cases hc : isHexDigit c = true
        · rw [hc, Bool.not_true, if_neg Bool.false_ne_true, ih htail]
          simp
        · rw [Bool.not_eq_true] at hc
          rw [hc, Bool.not_false, if_pos rfl]
          simp
      · rintro rest' hc
        exact absurd hc.symm hne
      · rintro hc
        exact absurd hc.symm hne

/-- What the loop does behind a word: the word is closed first. -/
def ClosesWord (rest : Str) (saw : Bool) (r : Nat × Bool) (K : Nat → Prop) : Prop :=
  ∀ w groups, w ≠ [] →
    (ipv6GroupLoop rest w groups saw = .ok r ↔ w.length ≤ 4 ∧ K (groups + 1))

theorem ipv6GroupLoop_join {saw : Bool} {K : Nat → Prop} (h : Clean words) (hne : words ≠ [])
    (hrest : ClosesWord rest saw r K) (groups : Nat) :
    ipv6GroupLoop (joinColons words ++ rest) [] groups saw = .ok r ↔
      (∀ w ∈ words, IsGroup w) ∧ K (groups + words.length) := by
  induction words generalizing groups with
  | nil => exact absurd rfl hne
  | cons w words ih =>
      obtain ⟨hw, hwords⟩ := List.forall_mem_cons.mp h
      have hgroup : (∀ c ∈ w, isHexDigit c = true) ∧ w.length ≤ 4 ↔ IsGroup w :=
        ⟨fun h => ⟨hw.ne_nil, h.2, h.1⟩, fun h => ⟨h.digits, h.length_le⟩⟩
      cases words with
      | nil =>
          rw [joinColons_singleton, ipv6GroupLoop_word hw.no_colon, List.nil_append,
            hrest w groups hw.ne_nil, ← and_assoc, hgroup, List.forall_mem_singleton]
          rfl
      | cons w' words =>
          have hcolon : ipv6GroupLoop (':' :: (joinColons (w' :: words) ++ rest)) w groups saw =
              closeIpv6Group w groups >>=
                (fun groups => ipv6GroupLoop (joinColons (w' :: words) ++ rest) [] groups saw) := by
            rw [ipv6GroupLoop, if_neg hw.ne_nil]
            rintro rest' hrest'
            exact head?_joinColons_append_ne hwords (by simp) rest (by rw [hrest']; rfl)
          have hcount : groups + 1 + (w' :: words).length = groups + (w :: w' :: words).length := by
            simp only [List.length_cons]
            omega
          rw [joinColons_cons_cons, List.append_assoc, List.cons_append,
            ipv6GroupLoop_word hw.no_colon, List.nil_append, hcolon, closeIpv6Group_bind_eq_ok,
            ih hwords (by simp) (groups + 1), hcount, ← and_assoc, hgroup, ← and_assoc,
            ← List.forall_mem_cons]

theorem closesWord_end (trail saw : Bool) :
    ClosesWord (colon trail) saw r (fun groups => (groups, saw) = r) := by
  intro w groups hw
  have hend : ipv6GroupLoop (colon trail) w groups saw =
      closeIpv6Group w groups >>= (fun groups => .ok (groups, saw)) := by
    cases trail with
    | false =>
        rw [colon, if_neg Bool.false_ne_true]
        exact ipv6GroupLoop_last hw groups saw
    | true =>
        simp only [colon, if_true, ipv6GroupLoop]
        rw [if_neg hw]
        rfl
  rw [hend, closeIpv6Group_bind_eq_ok, Except.ok.injEq]

theorem closesWord_pair :
    ClosesWord (':' :: ':' :: rest) false r
      (fun groups => ipv6GroupLoop rest [] groups true = .ok r) := by
  intro w groups hw
  rw [ipv6GroupLoop, if_neg Bool.false_ne_true, if_neg hw]
  exact closeIpv6Group_bind_eq_ok

/-- The words behind the pair, or no word at all. -/
theorem ipv6GroupLoop_end {saw : Bool} (h : Clean words) {trail : Bool}
    (htrail : trail = true → words ≠ []) (groups : Nat) :
    ipv6GroupLoop (joinColons words ++ colon trail) [] groups saw = .ok r ↔
      (∀ w ∈ words, IsGroup w) ∧ (groups + words.length, saw) = r := by
  by_cases hwords : words = []
  · have hnot : trail = false := by simpa [hwords] using htrail
    subst hwords hnot
    simp [colon, ipv6GroupLoop]
  · exact ipv6GroupLoop_join h hwords (closesWord_end trail saw) groups

/-- A single colon in front is an error, one at the end is not. -/
theorem ipv6GroupLoop_text (p : Spelling) :
    ipv6GroupLoop p.text [] 0 false = .ok r ↔
      p.lead = false ∧ (∀ w ∈ p.words, IsGroup w) ∧ (p.words.length, p.back.isSome) = r := by
  have htrail := p.trail_last
  have hclean := p.clean_back
  have hlead : ∀ rest : Str, rest.head? ≠ some ':' →
      (ipv6GroupLoop (colon p.lead ++ rest) [] 0 false = .ok r ↔
        p.lead = false ∧ ipv6GroupLoop rest [] 0 false = .ok r) := by
    intro rest hhead
    cases p.lead with
    | false => simp [colon]
    | true =>
        have hcolon : colon true ++ rest = ':' :: rest := rfl
        rw [hcolon, ipv6GroupLoop, if_pos rfl]
        · simp
        · rintro rest' rfl
          exact hhead rfl
  cases hback : p.back with
  | none =>
      rw [hback, Option.getD_none] at htrail
      have hwords : p.words = p.front := by rw [Spelling.words, hback]; simp
      have hhead : (joinColons p.front ++ colon p.trail).head? ≠ some ':' := by
        by_cases hfront : p.front = []
        · have hnot : p.trail = false := by simpa [hfront] using htrail
          simp [hfront, hnot, colon]
        · exact head?_joinColons_append_ne p.clean_front hfront _
      rw [p.text_of_none hback, List.append_assoc, hlead _ hhead,
        ipv6GroupLoop_end p.clean_front htrail, hwords, Nat.zero_add]
      rfl
  | some back =>
      rw [hback, Option.getD_some] at htrail hclean
      have hwords : p.words = p.front ++ back := by rw [Spelling.words, hback]; rfl
      have hpair : ipv6GroupLoop (joinColons p.front ++ (':' :: ':' ::
          (joinColons back ++ colon p.trail))) [] 0 false = .ok r ↔
          (∀ w ∈ p.front, IsGroup w) ∧
            ipv6GroupLoop (joinColons back ++ colon p.trail) [] p.front.length true = .ok r := by
        by_cases hfront : p.front = []
        · rw [hfront, joinColons_nil, List.nil_append, ipv6GroupLoop,
            if_neg Bool.false_ne_true, if_pos rfl, ok_bind]
          simp
        · have hcloses : ClosesWord (':' :: ':' :: (joinColons back ++ colon p.trail)) false r
              (fun n => ipv6GroupLoop (joinColons back ++ colon p.trail) [] n true = .ok r) :=
            closesWord_pair
          have hjoin := ipv6GroupLoop_join p.clean_front hfront hcloses 0
          rwa [Nat.zero_add] at hjoin
      have hstart : ipv6GroupLoop p.text [] 0 false = .ok r ↔ p.lead = false ∧
          ipv6GroupLoop (joinColons p.front ++ (':' :: ':' ::
            (joinColons back ++ colon p.trail))) [] 0 false = .ok r := by
        rw [p.text_of_some hback, Spelling.frontText, List.append_assoc]
        by_cases hfront : p.front = []
        · have hnot : p.lead = false := by
            have hne := p.lead_front (by rw [hback]; rfl)
            simpa [hfront] using hne
          rw [hnot]
          simp [colon]
        · exact hlead _ (head?_joinColons_append_ne p.clean_front hfront _)
      rw [hstart, hpair, ipv6GroupLoop_end hclean htrail, hwords, List.forall_mem_append,
        List.length_append, and_assoc]
      rfl

/-- What the validator asks of a spelling: it does not look at a colon at the end. -/
structure Valid (p : Spelling) : Prop where
  no_lead : p.lead = false
  groups : ∀ w ∈ p.words, IsGroup w
  count : if p.back = none then p.words.length = 8 else p.words.length ≤ 7

theorem Valid.readable {p : Spelling} (h : Valid p) : Readable p := by
  have hcount := h.count
  refine ⟨h.groups, ?_⟩
  split at hcount
  · rwa [if_pos ‹_›]
  · rw [if_neg ‹_›]
    omega

theorem not_slash_of_groups {p : Spelling} (h : ∀ w ∈ p.words, IsGroup w) : '/' ∉ p.text := by
  intro hmem
  rcases p.mem_text hmem with hcolon | ⟨w, hw, hslash⟩
  · contradiction
  · have hhex := (h w hw).digits '/' hslash
    contradiction

theorem not_parseUnsignedDecLoop_of_mem {s : Str} {c : Char} (h : c ∈ s)
    (hc : (c < '0' || c > '9') = true) (acc : UInt64) : parseUnsignedDecLoop s acc = none := by
  induction s generalizing acc with
  | nil => exact absurd h List.not_mem_nil
  | cons d rest ih =>
      rw [parseUnsignedDecLoop]
      split
      · rfl
      · rename_i hd
        dsimp only
        split
        · rfl
        · rcases List.mem_cons.mp h with rfl | hrest
          · exact absurd hc hd
          · exact ih hrest _

/-- The count of the groups of a spelling's text passes exactly for the valid spellings. -/
theorem groupCount_eq_ok_iff (p : Spelling) :
    (do
      let (groups, sawDoubleColon) ← ipv6GroupLoop p.text [] 0 false
      if sawDoubleColon then
        reject (groups > 7) "IPv6 has too many groups around '::'"
      else
        reject (groups ≠ 8) "IPv6 must have 8 groups when '::' is absent") = .ok () ↔
      Valid p := by
  rw [bind_eq_ok]
  constructor
  · rintro ⟨⟨groups, saw⟩, hloop, hcount⟩
    obtain ⟨hlead, hgroups, hr⟩ := (ipv6GroupLoop_text p).mp hloop
    obtain ⟨rfl, rfl⟩ := Prod.mk.inj hr
    refine ⟨hlead, hgroups, ?_⟩
    cases hback : p.back with
    | none =>
        rw [hback] at hcount
        simpa using hcount
    | some back =>
        rw [hback] at hcount
        simpa using hcount
  · rintro ⟨hlead, hgroups, hcount⟩
    refine ⟨(p.words.length, p.back.isSome),
      (ipv6GroupLoop_text p).mpr ⟨hlead, hgroups, rfl⟩, ?_⟩
    cases hback : p.back with
    | none =>
        rw [hback] at hcount
        simpa using hcount
    | some back =>
        rw [hback] at hcount
        simpa using hcount

theorem validateIpv6Cidr_eq_ok_iff {s : Str} :
    validateIpv6Cidr (s ++ "/64") = .ok () ↔ ∃ p : Spelling, p.text = s ∧ Valid p := by
  have hmem : '/' ∈ s ++ ("/64" : Str) := List.mem_append_right _ (by decide)
  have hne : s ++ ("/64" : Str) ≠ [] := List.ne_nil_of_mem hmem
  unfold validateIpv6Cidr
  rw [if_neg hne, if_neg (not_not_intro hmem)]
  dsimp only
  by_cases hslash : '/' ∈ s
  · -- the prefix length would have a slash in it
    have hsplit : s ++ ("/64" : Str) = s.takeWhile (· ≠ '/') ++
        '/' :: ((s.dropWhile (· ≠ '/')).tail ++ "/64") := by
      conv_lhs => rw [← takeWhile_append_tail hslash]
      simp
    have hfree : '/' ∉ s.takeWhile (· ≠ '/') := by
      intro h
      simpa using List.mem_takeWhile_imp h
    have hbad : prefixLengthBad ((s.dropWhile (· ≠ '/')).tail ++ "/64") 128 = true := by
      have hnone : parseUnsignedDec ((s.dropWhile (· ≠ '/')).tail ++ "/64") = none := by
        rw [parseUnsignedDec]
        split
        · rfl
        · exact not_parseUnsignedDecLoop_of_mem (c := '/')
            (List.mem_append_right _ (by decide)) (by decide) 0
      rw [prefixLengthBad, hnone]
    rw [hsplit, takeWhile_append_cons hfree, dropWhile_append_cons hfree, List.tail_cons, hbad]
    constructor
    · intro h
      exact absurd rfl (reject_bind_eq_ok.mp h).1
    · rintro ⟨p, rfl, hvalid⟩
      exact absurd hslash (not_slash_of_groups hvalid.groups)
  · have htake : (s ++ ("/64" : Str)).takeWhile (· ≠ '/') = s := takeWhile_append_cons hslash _
    have hdrop : ((s ++ ("/64" : Str)).dropWhile (· ≠ '/')).tail = "64" := by
      have hlit : ("/64" : Str) = '/' :: "64" := rfl
      rw [hlit, dropWhile_append_cons hslash]
      rfl
    have hplen : prefixLengthBad "64" 128 = false := by decide
    rw [htake, hdrop, hplen]
    constructor
    · intro h
      obtain ⟨-, h⟩ := reject_bind_eq_ok.mp h
      obtain ⟨-, h⟩ := reject_bind_eq_ok.mp h
      obtain ⟨-, h⟩ := reject_bind_eq_ok.mp h
      obtain ⟨honce, h⟩ := reject_bind_eq_ok.mp h
      rw [secondPair_iff, not_not] at honce
      obtain ⟨p, rfl⟩ := exists_spelling honce
      exact ⟨p, rfl, (groupCount_eq_ok_iff p).mp h⟩
    · rintro ⟨p, rfl, hvalid⟩
      have honce : ¬¬OncePair p.text := not_not.mpr p.oncePair
      rw [← secondPair_iff] at honce
      obtain ⟨hempty, hlen⟩ := hvalid.readable.text_bounds
      have htext : ¬p.text = [] := List.isEmpty_eq_false_iff.mp hempty
      exact reject_bind_eq_ok.mpr ⟨Bool.false_ne_true, reject_bind_eq_ok.mpr ⟨htext,
        reject_bind_eq_ok.mpr ⟨by omega, reject_bind_eq_ok.mpr ⟨honce, (groupCount_eq_ok_iff p).mpr hvalid⟩⟩⟩⟩

end Crate.PrivOpsPure

namespace Crate.Ip6Agreement

open Crate.Foundation
open Crate.Ip6AllocPure
open Crate.PerUserNetPure (parseIpv6 Readable parseIpv6_text parseIpv6_eq_some_iff)
open Crate.PrivOpsPure (validateIpv6Cidr Valid validateIpv6Cidr_eq_ok_iff)

/-! ## Agreement -/

/-- Eight groups between single colons, or at most seven around a pair of colons. -/
def IsIp6Text (s : Str) : Prop :=
  (∃ words, words.length = 8 ∧ (∀ w ∈ words, IsGroup w) ∧ s = joinColons words) ∨
    ∃ front back, front.length + back.length ≤ 7 ∧ (∀ w ∈ front ++ back, IsGroup w) ∧
      s = joinColons front ++ "::" ++ joinColons back

/-- The three scanners accept the grammar, and read the same groups. -/
structure OneGrammar (s : Str) : Prop where
  allocator : (∃ a, parseIp6 s = .ok a) ↔ IsIp6Text s
  validator : validateIpv6Cidr (s ++ "/64") = .ok () ↔ ∃ a, parseIp6 s = .ok a
  per_user : ∀ groups, parseIpv6 s = some groups ↔ ∃ a, parseIp6 s = .ok a ∧ groupsOf a = groups

/-- Groups with a colon alone at an end, or eight of them around a pair of colons. -/
def Stray (s : Str) : Prop :=
  ∃ p : Spelling, p.text = s ∧ Readable p ∧
    (p.lead = true ∨ p.trail = true ∨ p.back.isSome = true ∧ p.words.length = 8)

/-- The texts of regular spellings are the grammar. -/
theorem exists_regular_iff {s : Str} :
    (∃ p : Spelling, p.text = s ∧ Regular p) ↔ IsIp6Text s := by
  constructor
  · rintro ⟨p, rfl, hregular⟩
    have hgroups := hregular.groups
    have hcount := hregular.count
    cases hback : p.back with
    | none =>
        have hwords : p.words = p.front := by rw [Spelling.words, hback]; simp
        rw [if_pos hback, hwords] at hcount
        rw [hwords] at hgroups
        refine .inl ⟨p.front, hcount, hgroups, ?_⟩
        rw [p.text_of_none hback, hregular.no_lead, hregular.no_trail]
        simp [colon]
    | some back =>
        have hwords : p.words = p.front ++ back := by rw [Spelling.words, hback]; rfl
        rw [if_neg (by simp [hback]), hwords, List.length_append] at hcount
        rw [hwords] at hgroups
        refine .inr ⟨p.front, back, hcount, hgroups, ?_⟩
        rw [p.text_of_some hback, Spelling.frontText, hregular.no_lead, hregular.no_trail]
        simp [colon]
  · rintro (⟨words, hcount, hgroups, rfl⟩ | ⟨front, back, hcount, hgroups, rfl⟩)
    · refine ⟨.plain words (fun w hw => (hgroups w hw).clean), Spelling.text_plain _, rfl, rfl,
        ?_, ?_⟩
      · rwa [Spelling.words_plain]
      · rwa [if_pos (by rfl), Spelling.words_plain]
    · obtain ⟨hfront, hback⟩ := List.forall_mem_append.mp hgroups
      refine ⟨.around front back (fun w hw => (hfront w hw).clean) (fun w hw => (hback w hw).clean),
        ?_, rfl, rfl, ?_, ?_⟩
      · rw [Spelling.text_around, List.append_assoc]
        rfl
      · rwa [Spelling.words_around]
      · rwa [if_neg (by simp [Spelling.around]), Spelling.words_around, List.length_append]

theorem regular_of_readable {p : Spelling} (h : Readable p)
    (hstray : ¬(p.lead = true ∨ p.trail = true ∨ p.back.isSome = true ∧ p.words.length = 8)) :
    Regular p := by
  simp only [not_or, Bool.not_eq_true, not_and] at hstray
  obtain ⟨hlead, htrail, hpair⟩ := hstray
  have hcount := h.count
  refine ⟨hlead, htrail, h.groups, ?_⟩
  split at hcount
  · rwa [if_pos ‹_›]
  · rename_i hback
    have hne := hpair (Option.isSome_iff_ne_none.mpr hback)
    rw [if_neg hback]
    omega

theorem valid_of_regular {p : Spelling} (h : Regular p) : Valid p :=
  ⟨h.no_lead, h.groups, h.count⟩

/-- The scanners agree exactly on the texts that are not stray. -/
theorem one_grammar_iff (s : Str) : OneGrammar s ↔ ¬Stray s := by
  constructor
  · rintro hone ⟨p, rfl, hreadable, hstray⟩
    have hread := (parseIpv6_text p (spelledGroups p)).mpr ⟨hreadable, rfl⟩
    obtain ⟨a, ha, -⟩ := (hone.per_user _).mp hread
    obtain ⟨hregular, -⟩ := (parseIp6_text_eq_ok p a).mp ha
    rcases hstray with hlead | htrail | ⟨hpair, height⟩
    · exact absurd (hlead.symm.trans hregular.no_lead) Bool.noConfusion
    · exact absurd (htrail.symm.trans hregular.no_trail) Bool.noConfusion
    · have hcount := hregular.count
      rw [if_neg (Option.isSome_iff_ne_none.mp hpair)] at hcount
      omega
  · intro hnot
    have hregular : ∀ p : Spelling, p.text = s → Readable p → Regular p := by
      intro p hs hreadable
      exact regular_of_readable hreadable (fun hstray => hnot ⟨p, hs, hreadable, hstray⟩)
    refine ⟨exists_parseIp6_iff.trans exists_regular_iff, ?_, ?_⟩
    · rw [validateIpv6Cidr_eq_ok_iff, exists_parseIp6_iff]
      constructor
      · rintro ⟨p, hs, hvalid⟩
        exact ⟨p, hs, hregular p hs hvalid.readable⟩
      · rintro ⟨p, hs, hp⟩
        exact ⟨p, hs, valid_of_regular hp⟩
    · intro groups
      rw [parseIpv6_eq_some_iff]
      constructor
      · rintro ⟨p, hs, hreadable, rfl⟩
        have hp := hregular p hs hreadable
        obtain ⟨a, ha⟩ := exists_groupsOf (length_spelledGroups hp.count_le)
        exact ⟨a, parseIp6_eq_ok_iff.mpr ⟨p, hs, hp, ha⟩, ha⟩
      · rintro ⟨a, ha, rfl⟩
        obtain ⟨p, hs, hp, hgroups⟩ := parseIp6_eq_ok_iff.mp ha
        exact ⟨p, hs, (valid_of_regular hp).readable, hgroups.symm⟩

/-- The validator takes a colon at the end, which the allocator refuses. -/
theorem trailing_colon_differs : ¬OneGrammar "1:2:3:4:5:6:7:8:" := by
  intro h
  have hvalid : validateIpv6Cidr (("1:2:3:4:5:6:7:8:" : Str) ++ "/64") = .ok () := by
    decide
  have hparse : (parseIp6 "1:2:3:4:5:6:7:8:").toOption = none := by decide
  obtain ⟨a, ha⟩ := h.validator.mp hvalid
  rw [ha] at hparse
  contradiction

end Crate.Ip6Agreement
