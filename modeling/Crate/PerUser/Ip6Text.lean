import Crate.Network.Ip6Text

/-!
# What the per-user parser accepts

`parseIpv6` of `lib/per_user_net_pure.cpp` on the text of a spelling.  Unlike
the lease allocator it passes over a colon that stands alone at an end, and it
takes eight groups around a pair of colons, which then stands for none.
-/

namespace Crate.PerUserNetPure

open Crate.Foundation
open Crate.Ip6AllocPure (IsGroup groupValue Regular spelledGroups length_text_le)

/-! ## The loop -/

/-- The groups that are being read, with more at their end and no word pending. -/
def Groups.append (g : Groups) (values : List UInt16) : Groups :=
  if g.seenDoubleColon then { g with tail := g.tail ++ values, cur := [] }
  else { g with head := g.head ++ values, cur := [] }

def Groups.push (g : Groups) (words : List Str) : Option Groups :=
  if ∀ w ∈ words, IsGroup w then some (g.append (words.map groupValue)) else none

variable {g : Groups} {words : List Str} {w rest : Str}

@[simp] theorem Groups.cur_append (values : List UInt16) : (g.append values).cur = [] := by
  rw [Groups.append]
  split <;> rfl

@[simp] theorem Groups.seenDoubleColon_append (values : List UInt16) :
    (g.append values).seenDoubleColon = g.seenDoubleColon := by
  rw [Groups.append]
  split <;> rfl

theorem Groups.append_nil (h : g.cur = []) : g.append [] = g := by
  obtain ⟨head, tail, cur, seen⟩ := g
  obtain rfl : cur = [] := h
  cases seen <;> simp [Groups.append]

theorem Groups.append_append (values values' : List UInt16) :
    (g.append values).append values' = g.append (values ++ values') := by
  obtain ⟨head, tail, cur, seen⟩ := g
  cases seen <;> simp [Groups.append]

theorem Groups.push_nil (h : g.cur = []) : g.push [] = some g := by
  rw [Groups.push, if_pos (List.forall_mem_nil _), List.map_nil, Groups.append_nil h]

theorem Groups.push_singleton :
    g.push [w] = if IsGroup w then some (g.append [groupValue w]) else none := by
  simp [Groups.push]

theorem Groups.push_cons : g.push (w :: words) = (g.push [w]).bind (fun g' => g'.push words) := by
  rw [Groups.push_singleton]
  unfold Groups.push
  by_cases hgroup : IsGroup w
  · rw [if_pos hgroup, Option.bind_some, Groups.append_append]
    by_cases hrest : ∀ w ∈ words, IsGroup w
    · rw [if_pos (List.forall_mem_cons.mpr ⟨hgroup, hrest⟩), if_pos hrest]
      rfl
    · rw [if_neg (fun h => hrest (List.forall_mem_cons.mp h).2), if_neg hrest]
  · rw [if_neg (fun h => hgroup (List.forall_mem_cons.mp h).1), if_neg hgroup, Option.bind_none]

theorem Groups.flushCurrent_nil (h : g.cur = []) : g.flushCurrent = some g := by
  obtain ⟨head, tail, cur, seen⟩ := g
  obtain rfl : cur = [] := h
  cases seen <;> simp [Groups.flushCurrent, flush]

theorem Groups.flushCurrent_word (hw : w ≠ []) :
    { g with cur := w }.flushCurrent = g.push [w] := by
  rw [Groups.push_singleton]
  unfold Groups.flushCurrent Groups.append
  dsimp only
  rw [flush_eq hw, flush_eq hw]
  by_cases hgroup : IsGroup w
  · rw [if_pos hgroup, if_pos hgroup, if_pos hgroup]
    split <;> rfl
  · rw [if_neg hgroup, if_neg hgroup, if_neg hgroup]
    split <;> rfl

theorem groupLoop_word (h : ':' ∉ w) :
    groupLoop (w ++ rest) g = groupLoop rest { g with cur := g.cur ++ w } := by
  induction w generalizing g with
  | nil => simp
  | cons c w ih =>
      obtain ⟨hne, htail⟩ := List.ne_and_not_mem_of_not_mem_cons h
      rw [List.cons_append, groupLoop, if_neg (Ne.symm hne), ih htail]
      · simp
      · intro rest' hc
        exact absurd hc.symm hne

theorem groupLoop_colon (h : rest.head? ≠ some ':') :
    groupLoop (':' :: rest) g = g.flushCurrent.bind (groupLoop rest) := by
  rw [groupLoop, if_pos rfl]
  · cases g.flushCurrent <;> rfl
  · rintro rest' - rfl
    exact h rfl

/-- Words between colons are appended, whatever the loop does after it has flushed the last. -/
theorem groupLoop_join {K : Groups → Option Groups} (h : Clean words) (hcur : g.cur = [])
    (hrest : ∀ g', g'.seenDoubleColon = g.seenDoubleColon →
      groupLoop rest g' = g'.flushCurrent.bind K) :
    groupLoop (joinColons words ++ rest) g = (g.push words).bind K := by
  induction words generalizing g with
  | nil =>
      rw [joinColons_nil, List.nil_append, hrest g rfl, Groups.flushCurrent_nil hcur,
        Groups.push_nil hcur]
  | cons w words ih =>
      obtain ⟨hw, hwords⟩ := List.forall_mem_cons.mp h
      have hword : { g with cur := g.cur ++ w } = { g with cur := w } := by
        rw [hcur]
        rfl
      cases words with
      | nil =>
          rw [joinColons_singleton, groupLoop_word hw.no_colon, hword,
            hrest { g with cur := w } rfl, Groups.flushCurrent_word hw.ne_nil]
      | cons w' words =>
          have hcons : g.push (w :: w' :: words) =
              (g.push [w]).bind (fun g' => g'.push (w' :: words)) := Groups.push_cons
          rw [joinColons_cons_cons, List.append_assoc, List.cons_append,
            groupLoop_word hw.no_colon, hword,
            groupLoop_colon (head?_joinColons_append_ne hwords (by simp) _),
            Groups.flushCurrent_word hw.ne_nil, hcons, Option.bind_assoc, Groups.push_singleton]
          by_cases hgroup : IsGroup w
          · rw [if_pos hgroup, Option.bind_some, Option.bind_some]
            refine ih hwords (Groups.cur_append _) (fun g' hseen => hrest g' ?_)
            rw [hseen, Groups.seenDoubleColon_append]
          · rw [if_neg hgroup, Option.bind_none, Option.bind_none]

/-- The loop on words with a colon at the end, or none. -/
theorem groupLoop_end (h : Clean words) (hcur : g.cur = []) (trail : Bool) :
    groupLoop (joinColons words ++ colon trail) g = g.push words := by
  have hflush : ∀ g' : Groups, groupLoop (colon trail) g' =
      g'.flushCurrent.bind (fun g'' => if trail then g''.flushCurrent else some g'') := by
    intro g'
    cases trail with
    | false => simp [colon, groupLoop]
    | true =>
        simp only [colon, if_true]
        rw [groupLoop_colon (by simp)]
        rfl
  rw [groupLoop_join h hcur (fun g' _ => hflush g')]
  unfold Groups.push
  split
  · rw [Option.bind_some]
    cases trail with
    | false => rfl
    | true => exact Groups.flushCurrent_nil (Groups.cur_append _)
  · rfl

/-- The loop passes over a single colon before the first word. -/
theorem groupLoop_lead (lead : Bool) (hcur : g.cur = []) (h : rest.head? ≠ some ':') :
    groupLoop (colon lead ++ rest) g = groupLoop rest g := by
  cases lead with
  | false => rfl
  | true =>
      have hcolon : colon true ++ rest = ':' :: rest := rfl
      rw [hcolon, groupLoop_colon h, Groups.flushCurrent_nil hcur, Option.bind_some]

/-- What the loop has read of the text of a spelling. -/
theorem groupLoop_text (p : Spelling) :
    groupLoop p.text {} =
      if ∀ w ∈ p.words, IsGroup w then
        some ⟨p.front.map groupValue, (p.back.getD []).map groupValue, [], p.back.isSome⟩
      else none := by
  have htrail := p.trail_last
  have hclean := p.clean_back
  cases hback : p.back with
  | none =>
      rw [hback, Option.getD_none] at htrail
      have hwords : p.words = p.front := by rw [Spelling.words, hback]; simp
      have hhead : (joinColons p.front ++ colon p.trail).head? ≠ some ':' := by
        by_cases hfront : p.front = []
        · have hnot : p.trail = false := by simpa [hfront] using htrail
          simp [hfront, hnot, colon]
        · exact head?_joinColons_append_ne p.clean_front hfront _
      rw [p.text_of_none hback, List.append_assoc, groupLoop_lead p.lead rfl hhead,
        groupLoop_end p.clean_front rfl, hwords]
      rfl
  | some back =>
      rw [hback, Option.getD_some] at hclean
      have hwords : p.words = p.front ++ back := by rw [Spelling.words, hback]; rfl
      have hpair : ∀ g' : Groups, g'.seenDoubleColon = false →
          groupLoop ([':', ':'] ++ (joinColons back ++ colon p.trail)) g' =
            g'.flushCurrent.bind (fun g'' => groupLoop (joinColons back ++ colon p.trail)
              { g'' with seenDoubleColon := true }) := by
        intro g' hseen
        exact groupLoop_pair.trans (if_neg (by rw [hseen]; exact Bool.false_ne_true))
      have hlead : groupLoop p.text {} = groupLoop
          (joinColons p.front ++ ([':', ':'] ++ (joinColons back ++ colon p.trail))) {} := by
        rw [p.text_of_some hback, Spelling.frontText, List.append_assoc]
        by_cases hfront : p.front = []
        · have hnot : p.lead = false := by
            have hne := p.lead_front (by rw [hback]; rfl)
            simpa [hfront] using hne
          rw [hnot]
          rfl
        · exact groupLoop_lead p.lead rfl (head?_joinColons_append_ne p.clean_front hfront _)
      rw [hlead, groupLoop_join p.clean_front rfl hpair, hwords]
      unfold Groups.push
      by_cases hall : ∀ w ∈ p.front, IsGroup w
      · rw [if_pos hall, Option.bind_some]
        refine (groupLoop_end (g := ⟨p.front.map groupValue, [], [], true⟩) hclean rfl
          p.trail).trans ?_
        unfold Groups.push
        by_cases hrest : ∀ w ∈ back, IsGroup w
        · rw [if_pos hrest, if_pos (List.forall_mem_append.mpr ⟨hall, hrest⟩)]
          rfl
        · rw [if_neg hrest, if_neg (fun h => hrest (List.forall_mem_append.mp h).2)]
      · rw [if_neg hall, if_neg (fun h => hall (List.forall_mem_append.mp h).1)]
        rfl

/-! ## The parser -/

/-- What the parser asks of a spelling: it does not look at the colons that stand alone. -/
structure Readable (p : Spelling) : Prop where
  groups : ∀ w ∈ p.words, IsGroup w
  count : if p.back = none then p.words.length = 8 else p.words.length ≤ 8

theorem Readable.text_bounds {p : Spelling} (h : Readable p) :
    p.text.isEmpty = false ∧ p.text.length ≤ 45 := by
  have hcount := h.count
  have hlen := length_text_le (fun w hw => (h.groups w hw).length_le)
  refine ⟨List.isEmpty_eq_false_iff.mpr (p.text_ne_nil ?_), ?_⟩
  · rintro hback hnil
    rw [if_pos hback, hnil] at hcount
    contradiction
  · split at hcount <;> omega

theorem parseIpv6_text (p : Spelling) (groups : List UInt16) :
    parseIpv6 p.text = some groups ↔ Readable p ∧ spelledGroups p = groups := by
  have honce : ¬((suffixFrom "::" p.text).bind
      (fun rest => suffixFrom "::" rest.tail)).isSome = true := by
    rw [secondPair_iff]
    exact not_not.mpr p.oncePair
  have hwords : p.words.length = p.front.length + (p.back.getD []).length := List.length_append
  have hloop := groupLoop_text p
  constructor
  · intro h
    unfold parseIpv6 at h
    rw [hloop, if_neg honce] at h
    split at h
    · contradiction
    · by_cases hall : ∀ w ∈ p.words, IsGroup w
      · rw [if_pos hall] at h
        dsimp only at h
        cases hback : p.back with
        | none =>
            simp only [hback, Option.isSome_none, Bool.false_eq_true, if_false,
              List.length_map] at h
            split at h
            · contradiction
            · rename_i height
              have hcount : p.words.length = 8 := by
                rw [hwords, hback]
                simpa using height
              refine ⟨⟨hall, by rw [if_pos hback, hcount]⟩, ?_⟩
              rw [← Option.some.inj h, spelledGroups, hcount, hback]
              simp
        | some back =>
            simp only [hback, Option.isSome_some, if_true, List.length_map,
              Option.getD_some] at h hwords
            split at h
            · contradiction
            · refine ⟨⟨hall, by rw [if_neg (by simp [hback])]; omega⟩, ?_⟩
              have hgap : 8 - p.front.length - back.length = 8 - p.words.length := by omega
              rw [← Option.some.inj h, spelledGroups, hgap, hback]
              rfl
      · rw [if_neg hall] at h
        contradiction
  · rintro ⟨hreadable, rfl⟩
    obtain ⟨hempty, hlen⟩ := hreadable.text_bounds
    have hcount := hreadable.count
    unfold parseIpv6
    rw [hloop, hempty, if_neg (by simpa using hlen), if_neg honce, if_pos hreadable.groups]
    dsimp only
    cases hback : p.back with
    | none =>
        rw [if_pos hback] at hcount
        have hfront : p.front.length = 8 := by
          rw [hwords, hback] at hcount
          simpa using hcount
        simp [spelledGroups, hback, hcount, hfront]
    | some back =>
        rw [if_neg (by simp [hback])] at hcount
        rw [hback, Option.getD_some] at hwords
        have hgap : 8 - p.front.length - back.length = 8 - p.words.length := by omega
        simp only [Option.isSome_some, if_true, List.length_map, Option.getD_some, spelledGroups,
          hback, hgap]
        rw [if_neg (by omega)]

/-- Exactly the texts of readable spellings are accepted, each as the groups it spells. -/
theorem parseIpv6_eq_some_iff {s : Str} {groups : List UInt16} :
    parseIpv6 s = some groups ↔
      ∃ p : Spelling, p.text = s ∧ Readable p ∧ spelledGroups p = groups := by
  constructor
  · intro h
    have honce : OncePair s := by
      by_contra hnot
      rw [← secondPair_iff] at hnot
      unfold parseIpv6 at h
      rw [if_pos hnot, ite_self] at h
      contradiction
    obtain ⟨p, rfl⟩ := exists_spelling honce
    exact ⟨p, rfl, (parseIpv6_text p groups).mp h⟩
  · rintro ⟨p, rfl, h⟩
    exact (parseIpv6_text p groups).mpr h

end Crate.PerUserNetPure
