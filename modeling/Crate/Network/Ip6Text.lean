import Crate.Foundation.Outcome
import Crate.Network.HexGroup

/-!
# What `parseIp6` accepts

An address is its eight groups.  `parseIp6` accepts the spellings without a
stray colon that have eight groups, or at most seven around a pair of colons,
and the pair stands for the groups that are missing.
-/

namespace Crate.Ip6AllocPure

open Crate.Foundation

/-! ## The groups of an address -/

def get16 (a : Addr6) (pos : Nat) : UInt16 :=
  ((a[pos]?.getD 0).toUInt16 <<< 8) ||| (a[pos + 1]?.getD 0).toUInt16

def groupsOf (a : Addr6) : List UInt16 := (List.range 8).map (fun i => get16 a (2 * i))

@[simp] theorem length_groupsOf (a : Addr6) : (groupsOf a).length = 8 := by
  simp [groupsOf]

theorem toNat_bytes (high low : UInt8) :
    ((high.toUInt16 <<< 8) ||| low.toUInt16).toNat = 256 * high.toNat + low.toNat := by
  have hhigh := high.toNat_lt
  have hlow : low.toNat < 2 ^ 8 := low.toNat_lt
  have height : (8 : UInt16).toNat % 16 = 8 := rfl
  have hshift : (high.toUInt16 <<< 8).toNat = high.toNat <<< 8 := by
    rw [UInt16.toNat_shiftLeft, height, UInt8.toNat_toUInt16, Nat.shiftLeft_eq]
    omega
  rw [UInt16.toNat_or, hshift, UInt8.toNat_toUInt16, ← Nat.shiftLeft_add_eq_or_of_lt hlow,
    Nat.shiftLeft_eq]
  omega

theorem toNat_get16 (a : Addr6) (pos : Nat) :
    (get16 a pos).toNat = 256 * (a[pos]?.getD 0).toNat + (a[pos + 1]?.getD 0).toNat :=
  toNat_bytes _ _

theorem groupsOf_injective : Function.Injective groupsOf := by
  intro a b h
  have hgroup : ∀ i < 8, get16 a (2 * i) = get16 b (2 * i) := by
    intro i hi
    have hat := congrArg (fun l => l[i]?) h
    simpa [groupsOf, hi] using hat
  have hbyte : ∀ i < 8, a[2 * i]?.getD 0 = b[2 * i]?.getD 0 ∧
      a[2 * i + 1]?.getD 0 = b[2 * i + 1]?.getD 0 := by
    intro i hi
    have heq := congrArg UInt16.toNat (hgroup i hi)
    rw [toNat_get16, toNat_get16] at heq
    have ha := (a[2 * i + 1]?.getD 0).toNat_lt
    have hb := (b[2 * i + 1]?.getD 0).toNat_lt
    refine ⟨UInt8.toNat_inj.mp ?_, UInt8.toNat_inj.mp ?_⟩
    · omega
    · omega
  apply Vector.ext
  intro j hj
  obtain ⟨heven, hodd⟩ := hbyte (j / 2) (by omega)
  rcases Nat.even_or_odd' j with ⟨i, rfl | rfl⟩
  · have hi : 2 * i / 2 = i := by omega
    rw [hi] at heven
    simpa [hj] using heven
  · have hi : (2 * i + 1) / 2 = i := by omega
    rw [hi] at hodd
    simpa [hj] using hodd

theorem get16_put16 (a : Addr6) {i : Nat} (hi : i < 8) (v : UInt16) (j : Nat) :
    get16 (put16 a (2 * i) v) (2 * j) = if i = j then v else get16 a (2 * j) := by
  by_cases hsame : i = j
  · subst hsame
    have hhigh : (put16 a (2 * i) v)[2 * i]? = some (v >>> 8).toUInt8 := by
      rw [put16, Vector.getElem?_setIfInBounds_ne (by omega),
        Vector.getElem?_setIfInBounds_self_of_lt (by omega)]
    have hlow : (put16 a (2 * i) v)[2 * i + 1]? = some v.toUInt8 := by
      rw [put16, Vector.getElem?_setIfInBounds_self_of_lt (by omega)]
    have hv := v.toNat_lt
    have height : (8 : UInt16).toNat % 16 = 8 := rfl
    rw [if_pos rfl, ← UInt16.toNat_inj, toNat_get16, hhigh, hlow, Option.getD_some,
      Option.getD_some, UInt16.toNat_toUInt8, UInt16.toNat_toUInt8, UInt16.toNat_shiftRight, height,
      Nat.shiftRight_eq_div_pow]
    omega
  · rw [if_neg hsame, get16, get16, put16, Vector.getElem?_setIfInBounds_ne (by omega),
      Vector.getElem?_setIfInBounds_ne (by omega), Vector.getElem?_setIfInBounds_ne (by omega),
      Vector.getElem?_setIfInBounds_ne (by omega)]

theorem groupsOf_put16 (a : Addr6) {i : Nat} (hi : i < 8) (v : UInt16) :
    groupsOf (put16 a (2 * i) v) = (groupsOf a).set i v := by
  apply List.ext_getElem?
  intro j
  rw [List.getElem?_set, length_groupsOf]
  by_cases hj : j < 8
  · simp only [groupsOf, List.getElem?_map, List.getElem?_range hj, Option.map_some,
      get16_put16 a hi]
    by_cases hsame : i = j
    · rw [if_pos hsame, if_pos hsame, if_pos hi]
    · rw [if_neg hsame, if_neg hsame]
  · have hne : i ≠ j := by omega
    rw [if_neg hne, List.getElem?_eq_none (by simp; omega), List.getElem?_eq_none (by simp; omega)]

@[simp] theorem groupsOf_zero : groupsOf (Vector.replicate 16 0) = List.replicate 8 0 := by decide

theorem take_succ_set {α : Type*} {l : List α} {k : Nat} (hk : k < l.length) (v : α) :
    (l.set k v).take (k + 1) = l.take k ++ [v] := by
  have hlen : (l.take k).length = k := List.length_take_of_le hk.le
  rw [List.set_eq_take_append_cons_drop, if_pos hk, List.take_append, hlen,
    List.take_of_length_le (by omega), Nat.add_sub_cancel_left]
  rfl

theorem exists_groupsOf {gs : List UInt16} (h : gs.length = 8) : ∃ a, groupsOf a = gs := by
  have hput : ∀ k ≤ 8, ∃ a, (groupsOf a).take k = gs.take k := by
    intro k hk
    induction k with
    | zero => exact ⟨Vector.replicate 16 0, rfl⟩
    | succ k ih =>
        obtain ⟨a, ha⟩ := ih (by omega)
        have hlt : k < gs.length := by omega
        refine ⟨put16 a (2 * k) gs[k], ?_⟩
        rw [groupsOf_put16 a (by omega), take_succ_set (by rw [length_groupsOf]; omega), ha,
          List.take_append_getElem hlt]
  obtain ⟨a, ha⟩ := hput 8 le_rfl
  refine ⟨a, ?_⟩
  rwa [List.take_of_length_le (length_groupsOf a).le, List.take_of_length_le h.le] at ha

/-- What a list of eight groups holds after some of them are written from a place on. -/
theorem putGroups_ok {groups : List Str} (h : ∀ g ∈ groups, IsGroup g) (a : Addr6) {k : Nat}
    (hk : k + groups.length ≤ 8) :
    ∃ a', putGroups a (2 * k) groups = .ok (a', 2 * (k + groups.length)) ∧
      groupsOf a' = (groupsOf a).take k ++ groups.map groupValue ++
        (groupsOf a).drop (k + groups.length) := by
  induction groups generalizing a k with
  | nil => exact ⟨a, rfl, by simp⟩
  | cons g rest ih =>
      obtain ⟨hg, hrest⟩ := List.forall_mem_cons.mp h
      rw [List.length_cons] at hk
      obtain ⟨a', hput, hgroups⟩ := ih hrest (put16 a (2 * k) (groupValue g))
        (show k + 1 + rest.length ≤ 8 by omega)
      have hpos : k + (g :: rest).length = k + 1 + rest.length := by
        rw [List.length_cons]
        omega
      refine ⟨a', ?_, ?_⟩
      · have hstep : putGroups a (2 * k) (g :: rest) =
            putGroups (put16 a (2 * k) (groupValue g)) (2 * (k + 1)) rest := by
          simp only [putGroups, List.foldlM_cons, parseGroup_eq, if_pos hg, ok_bind]
          rfl
        rw [hstep, hput, hpos]
      · have hk' : k < (groupsOf a).length := by
          rw [length_groupsOf]
          omega
        rw [hgroups, groupsOf_put16 a (by omega), hpos, List.drop_set_of_lt (by omega),
          take_succ_set hk',
          List.map_cons, List.append_assoc ((groupsOf a).take k), List.singleton_append]

/-! ## The splitter -/

theorem groupLoop_append {w : Str} (h : ':' ∉ w) (rest cur : Str) (out : List Str) :
    groupLoop (w ++ rest) cur out = groupLoop rest (cur ++ w) out := by
  induction w generalizing cur with
  | nil => simp
  | cons c w ih =>
      obtain ⟨hne, htail⟩ := List.ne_and_not_mem_of_not_mem_cons h
      rw [List.cons_append, groupLoop, if_neg (Ne.symm hne), ih htail, List.append_assoc]
      rfl

theorem groupLoop_join {words : List Str} (h : Clean words) (hne : words ≠ []) (trail : Bool)
    (out : List Str) :
    groupLoop (joinColons words ++ colon trail) [] out =
      if trail then .error "trailing ':' without '::'" else .ok (out ++ words) := by
  induction words generalizing out with
  | nil => exact absurd rfl hne
  | cons w words ih =>
      obtain ⟨hw, hwords⟩ := List.forall_mem_cons.mp h
      have hempty : w.isEmpty = false := by simpa using hw.ne_nil
      cases words with
      | nil =>
          rw [joinColons_singleton, groupLoop_append hw.no_colon, List.nil_append]
          cases trail with
          | false =>
              simp only [colon, Bool.false_eq_true, if_false, groupLoop]
              rw [hempty, if_neg Bool.false_ne_true]
          | true =>
              simp only [colon, if_true, groupLoop]
              rw [hempty, if_neg Bool.false_ne_true]
              rfl
      | cons w' words =>
          rw [joinColons_cons_cons, List.append_assoc, groupLoop_append hw.no_colon,
            List.nil_append, List.cons_append, groupLoop, if_pos rfl, hempty,
            if_neg Bool.false_ne_true, ih hwords (by simp), List.append_assoc]
          rfl

/-- Words between single colons are split; a stray colon at either end is an error. -/
theorem splitGroups_eq_ok {words : List Str} (h : Clean words) {lead trail : Bool}
    (htrail : trail = true → words ≠ []) {gs : List Str} :
    splitGroups (colon lead ++ joinColons words ++ colon trail) = .ok gs ↔
      lead = false ∧ trail = false ∧ words = gs := by
  cases lead with
  | true =>
      simp only [splitGroups, colon, if_true, List.cons_append, List.nil_append, List.isEmpty_cons,
        Bool.false_eq_true, if_false, groupLoop, List.isEmpty_nil]
      simp
  | false =>
      simp only [colon, Bool.false_eq_true, if_false, List.nil_append]
      by_cases hnil : words = []
      · have hnot : trail = false := by
          cases trail with
          | false => rfl
          | true => exact absurd hnil (htrail rfl)
        subst hnil hnot
        simp [splitGroups, eq_comm]
      · have hne : (joinColons words ++ if trail = true then [':'] else []).isEmpty = false := by
          have := joinColons_ne_nil h hnil
          simp [this]
        have hloop := groupLoop_join h hnil trail []
        rw [colon] at hloop
        rw [splitGroups, hne, if_neg Bool.false_ne_true, hloop]
        cases trail with
        | false => simp
        | true => simp

/-! ## The parser on the text of a spelling -/

theorem parseParts_eq_ok {s before after : Str} {hasShorthand : Bool} {a : Addr6} :
    parseParts s before after hasShorthand = .ok a ↔
      ∃ front back, splitGroups before = .ok front ∧ splitGroups after = .ok back ∧
        front.length + back.length ≤ 8 ∧
        (front.length + back.length = 8 ↔ hasShorthand = false) ∧
        ∃ r r', putGroups (Vector.replicate 16 0) 0 front = .ok r ∧
          putGroups r.1 (r.2 + (8 - (front.length + back.length)) * 2) back = .ok r' ∧
          r'.1 = a := by
  have hlabel : ∀ (part : Str) (gs : List Str),
      (splitGroups part).mapError (fun e => "IPv6 parse: " ++ e ++ " in '" ++ s ++ "'") = .ok gs ↔
        splitGroups part = .ok gs := by
    intro part gs
    cases splitGroups part <;> simp [Except.mapError]
  unfold parseParts
  constructor
  · intro h
    obtain ⟨front, hfront, h⟩ := bind_eq_ok.mp h
    obtain ⟨back, hback, h⟩ := bind_eq_ok.mp h
    obtain ⟨hle, h⟩ := reject_bind_eq_ok.mp h
    obtain ⟨hplain, h⟩ := reject_bind_eq_ok.mp h
    obtain ⟨hshort, h⟩ := reject_bind_eq_ok.mp h
    obtain ⟨r, hr, h⟩ := bind_eq_ok.mp h
    obtain ⟨r', hr', h⟩ := bind_eq_ok.mp h
    refine ⟨front, back, (hlabel _ _).mp hfront, (hlabel _ _).mp hback, by omega, ?_,
      r, r', hr, hr', Except.ok.inj h⟩
    cases hasShorthand
    · simpa using hplain
    · simpa using hshort
  · rintro ⟨front, back, hfront, hback, hle, height, r, r', hr, hr', rfl⟩
    refine bind_eq_ok.mpr ⟨front, (hlabel _ _).mpr hfront, ?_⟩
    refine bind_eq_ok.mpr ⟨back, (hlabel _ _).mpr hback, ?_⟩
    refine reject_bind_eq_ok.mpr ⟨by omega, ?_⟩
    refine reject_bind_eq_ok.mpr ⟨?_, reject_bind_eq_ok.mpr ⟨?_, ?_⟩⟩
    · cases hasShorthand <;> simp_all
    · cases hasShorthand <;> simp_all
    · exact bind_eq_ok.mpr ⟨r, hr, bind_eq_ok.mpr ⟨r', hr', rfl⟩⟩

/-- No stray colon, and as many groups as the text can stand for. -/
structure Regular (p : Spelling) : Prop where
  no_lead : p.lead = false
  no_trail : p.trail = false
  groups : ∀ w ∈ p.words, IsGroup w
  count : if p.back = none then p.words.length = 8 else p.words.length ≤ 7

/-- The eight groups: a pair of colons stands for the missing ones. -/
def spelledGroups (p : Spelling) : List UInt16 :=
  p.front.map groupValue ++ List.replicate (8 - p.words.length) 0 ++
    (p.back.getD []).map groupValue

theorem length_spelledGroups {p : Spelling} (h : p.words.length ≤ 8) :
    (spelledGroups p).length = 8 := by
  have hwords : p.words.length = p.front.length + (p.back.getD []).length := List.length_append
  simp only [spelledGroups, List.length_append, List.length_map, List.length_replicate]
  omega

theorem isGroup_of_putGroups {groups : List Str} {a : Addr6} {pos : Nat} {r : Addr6 × Nat}
    (h : putGroups a pos groups = .ok r) : ∀ g ∈ groups, IsGroup g := by
  intro g hg
  have hsome := isSome_parseGroup_of_putGroups h g hg
  rw [parseGroup_eq] at hsome
  split at hsome
  · assumption
  · contradiction

/-- The groups before and behind the gap are written, the gap stays zero. -/
theorem putGroups_both {front back : List Str} {a : Addr6}
    (hlen : front.length + back.length ≤ 8) :
    (∃ r r', putGroups (Vector.replicate 16 0) 0 front = .ok r ∧
        putGroups r.1 (r.2 + (8 - (front.length + back.length)) * 2) back = .ok r' ∧ r'.1 = a) ↔
      (∀ g ∈ front ++ back, IsGroup g) ∧
        groupsOf a = front.map groupValue ++
          List.replicate (8 - (front.length + back.length)) 0 ++ back.map groupValue := by
  have hput : (∀ g ∈ front ++ back, IsGroup g) →
      ∃ r r', putGroups (Vector.replicate 16 0) 0 front = .ok r ∧
        putGroups r.1 (r.2 + (8 - (front.length + back.length)) * 2) back = .ok r' ∧
        groupsOf r'.1 = front.map groupValue ++
          List.replicate (8 - (front.length + back.length)) 0 ++ back.map groupValue := by
    intro hgroups
    obtain ⟨hfront, hback⟩ := List.forall_mem_append.mp hgroups
    obtain ⟨a₁, hput₁, hgroups₁⟩ :=
      putGroups_ok hfront (Vector.replicate 16 0) (show 0 + front.length ≤ 8 by omega)
    obtain ⟨a₂, hput₂, hgroups₂⟩ :=
      putGroups_ok hback a₁ (show 8 - back.length + back.length ≤ 8 by omega)
    have hpos : 2 * (0 + front.length) + (8 - (front.length + back.length)) * 2 =
        2 * (8 - back.length) := by omega
    refine ⟨_, (a₂, 2 * (8 - back.length + back.length)), hput₁, ?_, ?_⟩
    · dsimp only
      rw [hpos]
      exact hput₂
    · have hend : 8 - back.length + back.length = 8 := by omega
      rw [hgroups₂, hgroups₁, groupsOf_zero, hend]
      simp only [List.take_zero, List.nil_append, Nat.zero_add, List.drop_replicate]
      have hlong : (front.map groupValue ++ List.replicate (8 - front.length) 0).length = 8 := by
        simp only [List.length_append, List.length_map, List.length_replicate]
        omega
      rw [List.drop_of_length_le (by omega), List.append_nil, List.take_append,
        List.take_of_length_le (by simp; omega), List.take_replicate, List.length_map]
      congr 3
      omega
  constructor
  · rintro ⟨r, r', hr, hr', rfl⟩
    have hgroups : ∀ g ∈ front ++ back, IsGroup g :=
      List.forall_mem_append.mpr ⟨isGroup_of_putGroups hr, isGroup_of_putGroups hr'⟩
    obtain ⟨q, q', hq, hq', hresult⟩ := hput hgroups
    obtain rfl := Except.ok.inj (hr.symm.trans hq)
    obtain rfl := Except.ok.inj (hr'.symm.trans hq')
    exact ⟨hgroups, hresult⟩
  · rintro ⟨hgroups, hresult⟩
    obtain ⟨q, q', hq, hq', heq⟩ := hput hgroups
    exact ⟨q, q', hq, hq', groupsOf_injective (heq.trans hresult.symm)⟩

theorem length_joinColons_le {words : List Str} (h : ∀ w ∈ words, w.length ≤ 4) :
    (joinColons words).length ≤ 5 * words.length := by
  induction words with
  | nil => simp
  | cons w words ih =>
      obtain ⟨hw, hwords⟩ := List.forall_mem_cons.mp h
      cases words with
      | nil =>
          rw [joinColons_singleton, List.length_singleton]
          omega
      | cons w' words =>
          have hrest := ih hwords
          rw [joinColons_cons_cons, List.length_append, List.length_cons, List.length_cons]
          omega

theorem length_colon_le (present : Bool) : (colon present).length ≤ 1 := by
  cases present <;> simp [colon]

/-- Eight groups, with a pair of colons and stray ones, are not long. -/
theorem length_text_le {p : Spelling} (hgroups : ∀ w ∈ p.words, w.length ≤ 4) :
    p.text.length ≤ 5 * p.words.length + 4 := by
  have hlead := length_colon_le p.lead
  have htrail := length_colon_le p.trail
  obtain ⟨hfront, hback⟩ := List.forall_mem_append.mp hgroups
  have hfrontLen := length_joinColons_le hfront
  cases hpair : p.back with
  | none =>
      rw [p.text_of_none hpair, Spelling.words]
      simp only [List.length_append]
      omega
  | some back =>
      rw [hpair] at hback
      have hbackLen := length_joinColons_le hback
      rw [p.text_of_some hpair, Spelling.words, Spelling.frontText, hpair]
      simp only [List.length_append, List.length_cons, List.length_nil, Option.getD_some] at *
      omega

theorem Regular.text_bounds {p : Spelling} (h : Regular p) :
    p.text.isEmpty = false ∧ p.text.length ≤ 44 := by
  have hcount := h.count
  have hlen := length_text_le (fun w hw => (h.groups w hw).length_le)
  refine ⟨List.isEmpty_eq_false_iff.mpr (p.text_ne_nil ?_), ?_⟩
  · rintro hback hnil
    rw [if_pos hback, hnil] at hcount
    contradiction
  · split at hcount <;> omega

theorem parseParts_plain_eq_ok {p : Spelling} (hpair : p.back = none) {a : Addr6} :
    parseParts p.text p.text [] false = .ok a ↔ Regular p ∧ groupsOf a = spelledGroups p := by
  have htrail := p.trail_last
  rw [hpair] at htrail
  have hsplit : ∀ gs, splitGroups p.text = .ok gs ↔
      p.lead = false ∧ p.trail = false ∧ p.front = gs := by
    intro gs
    rw [p.text_of_none hpair]
    exact splitGroups_eq_ok p.clean_front htrail
  have hwords : p.words = p.front := by rw [Spelling.words, hpair]; simp
  rw [parseParts_eq_ok]
  constructor
  · rintro ⟨front, back, hfront, hback, hle, height, hput⟩
    obtain ⟨hlead, htrail, rfl⟩ := (hsplit front).mp hfront
    obtain rfl : [] = back := Except.ok.inj hback
    obtain ⟨hgroups, hresult⟩ := (putGroups_both hle).mp hput
    rw [List.append_nil] at hgroups
    refine ⟨⟨hlead, htrail, by rwa [hwords], ?_⟩, ?_⟩
    · rw [if_pos hpair, hwords]
      simpa using height
    · rw [hresult, spelledGroups, hwords, hpair]
      simp
  · rintro ⟨hregular, hresult⟩
    have hcount := hregular.count
    have hgroups := hregular.groups
    rw [if_pos hpair, hwords] at hcount
    rw [hwords] at hgroups
    have hle : p.front.length + ([] : List Str).length ≤ 8 := by simp [hcount]
    refine ⟨p.front, [], (hsplit _).mpr ⟨hregular.no_lead, hregular.no_trail, rfl⟩, rfl, hle,
      by simp [hcount], (putGroups_both hle).mpr ⟨by rwa [List.append_nil], ?_⟩⟩
    rw [hresult, spelledGroups, hwords, hpair]
    simp

theorem parseParts_pair_eq_ok {p : Spelling} {back : List Str} (hpair : p.back = some back)
    {a : Addr6} :
    parseParts p.text p.frontText (joinColons back ++ colon p.trail) true = .ok a ↔
      Regular p ∧ groupsOf a = spelledGroups p := by
  have htrail := p.trail_last
  have hclean := p.clean_back
  rw [hpair, Option.getD_some] at htrail hclean
  have hfrontSplit : ∀ gs, splitGroups p.frontText = .ok gs ↔ p.lead = false ∧ p.front = gs := by
    intro gs
    have h : splitGroups (colon p.lead ++ joinColons p.front ++ colon false) = .ok gs ↔
        p.lead = false ∧ false = false ∧ p.front = gs :=
      splitGroups_eq_ok p.clean_front (by simp)
    simpa [Spelling.frontText, colon] using h
  have hbackSplit : ∀ gs, splitGroups (joinColons back ++ colon p.trail) = .ok gs ↔
      p.trail = false ∧ back = gs := by
    intro gs
    have h : splitGroups (colon false ++ joinColons back ++ colon p.trail) = .ok gs ↔
        false = false ∧ p.trail = false ∧ back = gs :=
      splitGroups_eq_ok hclean htrail
    simpa [colon] using h
  have hwords : p.words = p.front ++ back := by rw [Spelling.words, hpair]; rfl
  have hsome : ¬p.back = none := by simp [hpair]
  rw [parseParts_eq_ok]
  constructor
  · rintro ⟨front, back', hfront, hback, hle, height, hput⟩
    obtain ⟨hlead, rfl⟩ := (hfrontSplit front).mp hfront
    obtain ⟨htrail, rfl⟩ := (hbackSplit back').mp hback
    obtain ⟨hgroups, hresult⟩ := (putGroups_both hle).mp hput
    refine ⟨⟨hlead, htrail, by rwa [hwords], ?_⟩, ?_⟩
    · rw [if_neg hsome, hwords, List.length_append]
      have : ¬p.front.length + back.length = 8 := by simpa using height
      omega
    · rw [hresult, spelledGroups, hwords, hpair, List.length_append]
      rfl
  · rintro ⟨hregular, hresult⟩
    have hcount := hregular.count
    have hgroups := hregular.groups
    rw [if_neg hsome, hwords, List.length_append] at hcount
    rw [hwords] at hgroups
    have hle : p.front.length + back.length ≤ 8 := by omega
    refine ⟨p.front, back, (hfrontSplit _).mpr ⟨hregular.no_lead, rfl⟩,
      (hbackSplit _).mpr ⟨hregular.no_trail, rfl⟩, hle, ?_, (putGroups_both hle).mpr ⟨hgroups, ?_⟩⟩
    · simp only [Bool.true_eq_false, iff_false]
      omega
    · rw [hresult, spelledGroups, hwords, hpair, List.length_append]
      rfl

theorem parsePair_text_eq_ok (p : Spelling) (a : Addr6) :
    (match splitFirst "::" p.text with
      | some (before, after) =>
          if (splitFirst "::" (':' :: after)).isSome then
            Except.error ("IPv6 address has more than one '::': '" ++ p.text ++ "'")
          else parseParts p.text before after true
      | none => parseParts p.text p.text [] false) = Except.ok a ↔
      Regular p ∧ groupsOf a = spelledGroups p := by
  have hsplit := p.splitFirst_text
  have honce := p.oncePair
  have hpair : ("::" : Str) = [':', ':'] := rfl
  rw [hpair]
  cases hback : p.back with
  | none =>
      rw [hback] at hsplit
      rw [hsplit]
      exact parseParts_plain_eq_ok hback
  | some back =>
      rw [hback] at hsplit
      have hnone := honce _ _ hsplit
      rw [← isSome_splitFirst_iff] at hnone
      rw [hsplit]
      dsimp only [Option.map_some]
      rw [if_neg hnone]
      exact parseParts_pair_eq_ok hback

theorem parseIp6_text_eq_ok (p : Spelling) (a : Addr6) :
    parseIp6 p.text = .ok a ↔ Regular p ∧ groupsOf a = spelledGroups p := by
  unfold parseIp6
  constructor
  · intro h
    split at h
    · contradiction
    · split at h
      · contradiction
      · exact (parsePair_text_eq_ok p a).mp h
  · intro h
    obtain ⟨hempty, hlen⟩ := h.1.text_bounds
    rw [hempty, if_neg Bool.false_ne_true, if_neg (by omega)]
    exact (parsePair_text_eq_ok p a).mpr h

theorem Regular.count_le {p : Spelling} (h : Regular p) : p.words.length ≤ 8 := by
  have hcount := h.count
  split at hcount <;> omega

/-- Exactly the texts of regular spellings are accepted, each as the groups it spells. -/
theorem parseIp6_eq_ok_iff {s : Str} {a : Addr6} :
    parseIp6 s = .ok a ↔ ∃ p : Spelling, p.text = s ∧ Regular p ∧ groupsOf a = spelledGroups p := by
  constructor
  · intro h
    have honce : OncePair s := by
      intro before behind hsplit hpair
      rw [← isSome_splitFirst_iff] at hpair
      have hlit : ("::" : Str) = [':', ':'] := rfl
      unfold parseIp6 at h
      rw [hlit, hsplit] at h
      split at h
      · contradiction
      · split at h
        · contradiction
        · dsimp only at h
          rw [if_pos hpair] at h
          contradiction
    obtain ⟨p, rfl⟩ := exists_spelling honce
    exact ⟨p, rfl, (parseIp6_text_eq_ok p a).mp h⟩
  · rintro ⟨p, rfl, h⟩
    exact (parseIp6_text_eq_ok p a).mpr h

theorem exists_parseIp6_iff {s : Str} :
    (∃ a, parseIp6 s = .ok a) ↔ ∃ p : Spelling, p.text = s ∧ Regular p := by
  constructor
  · rintro ⟨a, h⟩
    obtain ⟨p, hs, hregular, -⟩ := parseIp6_eq_ok_iff.mp h
    exact ⟨p, hs, hregular⟩
  · rintro ⟨p, hs, hregular⟩
    obtain ⟨a, ha⟩ := exists_groupsOf (length_spelledGroups hregular.count_le)
    exact ⟨a, parseIp6_eq_ok_iff.mpr ⟨p, hs, hregular, ha⟩⟩

end Crate.Ip6AllocPure
