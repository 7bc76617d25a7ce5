import Crate.Foundation.OrdSet
import Crate.Foundation.Outcome
import Crate.Spec.OptionColumns

/-!
# When the parser takes merged details

The parser reads the details of an option key by key, and what it read before
never makes it reject a key.  A key that both sides give holds one of the two
values after the merge, or a list or a map of what both hold.  It is taken
again, except that `outbound` lists may join `all` or `none` with other words.
-/

namespace Crate.SpecParser

open Crate.Foundation
open Crate.Spec
open Crate.Yaml
open Crate.Profile

section Reading

variable [yaml : YamlCpp]

/-! ## Entries that are taken -/

/-- The body of the loop takes the entry, from some state and so from any. -/
def Takes {σ : Type} (body : Str → Entry → σ → Parse σ) (e : Entry) : Prop :=
  ∃ key, asString e.1 = .ok key ∧ ∃ s s', body key e s = .ok s'

theorem eachEntry_ok_iff {σ : Type} {body : Str → Entry → σ → Parse σ}
    (h : ∀ key e, Indifferent (body key e)) (entries : List Entry) (init : σ) :
    (∃ r, eachEntry (.map entries) init body = .ok r) ↔ ∀ e ∈ entries, Takes body e := by
  rw [eachEntry, pairs, ok_bind,
    Indifferent.foldlM_ok_iff (fun e _ => Indifferent.bind (fun key => h key e))]
  refine forall₂_congr (fun e _ => ?_)
  constructor
  · rintro ⟨s', hs'⟩
    obtain ⟨key, hkey, hbody⟩ := bind_eq_ok.mp hs'
    exact ⟨key, hkey, init, s', hbody⟩
  · rintro ⟨key, hkey, s, s', hbody⟩
    obtain ⟨t', ht'⟩ := h key e s s' hbody init
    exact ⟨t', bind_eq_ok.mpr ⟨key, hkey, ht'⟩⟩

omit yaml in
theorem indifferent_addOutbound (size : Nat) (word : Str) :
    Indifferent (fun d => addOutbound size d word) := by
  unfold addOutbound
  refine .ite (.ite (.error _) (.ok _)) ?_
  refine .ite (.ite (.error _) (.ok _)) ?_
  exact .ite (.ok _) (.ite (.ok _) (.ite (.ok _) (.ite (.ok _) (.error _))))

omit yaml in
theorem indifferent_netIpv6 (node : Node) : Indifferent (netIpv6 node) := by
  unfold netIpv6
  cases node with
  | scalar text => exact .ite (.ok _) (.ite (.ok _) (.ite (.ok _) (.ite (.ok _) (.ok _))))
  | null => exact .error _
  | sequence items => exact .error _
  | map entries => exact .error _

theorem indifferent_netOption (key : Str) (e : Entry) : Indifferent (netOption key e) := by
  unfold netOption
  refine .ite (.bind fun _ => .foldlM fun word _ => indifferent_addOutbound _ word) ?_
  refine .ite (.bind fun _ => .ok _) ?_
  refine .ite (.bind fun _ => .ok _) ?_
  refine .ite (indifferent_netIpv6 e.2) ?_
  refine .ite (.bind fun _ => .ok _) ?_
  refine .ite (.bind fun _ => .bind fun _ => .ok _) ?_
  refine .ite (.bind fun _ => .ok _) ?_
  refine .ite (.bind fun _ => .ok _) ?_
  refine .ite (.bind fun _ => .ok _) ?_
  refine .ite (.bind fun _ => .bind fun _ => .ok _) ?_
  refine .ite (.bind fun _ => .bind fun _ => .ok _) ?_
  refine .ite (.bind fun _ => .bind fun _ => .ok _) ?_
  refine .ite (.bind fun _ => .ok _) ?_
  refine .ite (.bind fun _ => .bind fun _ => .ok _) ?_
  exact .ite (.bind fun _ => .ok _) (.error _)

/-! ## The shapes of values that are taken -/

/-- A scalar, or null where it has a text. -/
def Simple (v : Node) : Prop := v.isSequence = false ∧ v.isMap = false

theorem simple_of_asString {v : Node} {text : Str} (h : asString v = .ok text) : Simple v := by
  cases v with
  | null => exact ⟨rfl, rfl⟩
  | scalar text => exact ⟨rfl, rfl⟩
  | sequence items => contradiction
  | map entries => contradiction

theorem simple_of_boolean {v : Node} {msg : Str} {value : Bool} (h : boolean v msg = .ok value) :
    Simple v := by
  cases v with
  | null => exact ⟨rfl, rfl⟩
  | scalar text => exact ⟨rfl, rfl⟩
  | sequence items => contradiction
  | map entries => contradiction

/-- The keys of `net` that take a list, and those that take a map. -/
structure NetShape (key : Str) (v : Node) : Prop where
  text : key ≠ "null"
  list : v.isSequence → key ∈ (["outbound", "inbound-tcp", "inbound-udp", "extra"] : List Str)
  map : v.isMap → key ∈ (["inbound-tcp", "inbound-udp"] : List Str)

omit yaml in
theorem Simple.netShape {v : Node} (h : Simple v) {key : Str} (hkey : key ≠ "null") :
    NetShape key v :=
  ⟨hkey, fun hlist => absurd (h.1.symm.trans hlist) (by simp),
    fun hmap => absurd (h.2.symm.trans hmap) (by simp)⟩

theorem netShape_text {key word : Str} (h : key = word) (hword : word ≠ "null") {e : Entry}
    {f : Str → Parse NetOptDetails} :
    Post (asString e.2 >>= f) (fun _ => NetShape key e.2) :=
  Post.bind fun _ htext _ _ => (simple_of_asString htext).netShape (h ▸ hword)

theorem netOption_shape (key : Str) (e : Entry) (d : NetOptDetails) :
    Post (netOption key e d) (fun _ => NetShape key e.2) := by
  unfold netOption
  refine Post.ite (fun h => ?_) fun _ => ?_
  · subst h
    refine Post.bind fun words hwords d' _ => ⟨by decide, fun _ => by decide, fun hmap => ?_⟩
    cases hv : e.2 <;> rw [hv] at hwords hmap <;> contradiction
  refine Post.ite (fun h => ?_) fun _ => ?_
  · subst h
    exact Post.bind fun _ _ _ _ => ⟨by decide, fun _ => by decide, fun _ => by decide⟩
  refine Post.ite (fun h => ?_) fun _ => ?_
  · subst h
    exact Post.bind fun _ _ _ _ => ⟨by decide, fun _ => by decide, fun _ => by decide⟩
  refine Post.ite (fun h => ?_) fun _ => ?_
  · subst h
    intro d' hd'
    refine Simple.netShape ?_ (by decide)
    cases hv : e.2 with
    | scalar text => exact ⟨rfl, rfl⟩
    | null => exact ⟨rfl, rfl⟩
    | sequence items =>
        rw [hv] at hd'
        contradiction
    | map entries =>
        rw [hv] at hd'
        contradiction
  refine Post.ite (fun h => netShape_text h (by simp)) fun _ => ?_
  refine Post.ite (fun h => netShape_text h (by simp)) fun _ => ?_
  refine Post.ite (fun h => netShape_text h (by simp)) fun _ => ?_
  refine Post.ite (fun h => netShape_text h (by simp)) fun _ => ?_
  refine Post.ite (fun h => netShape_text h (by simp)) fun _ => ?_
  refine Post.ite (fun h => netShape_text h (by simp)) fun _ => ?_
  refine Post.ite (fun h => netShape_text h (by simp)) fun _ => ?_
  refine Post.ite (fun h => netShape_text h (by simp)) fun _ => ?_
  refine Post.ite (fun h => ?_) fun _ => ?_
  · subst h
    exact Post.bind fun mac hmac d' _ => (simple_of_boolean hmac).netShape (by decide)
  refine Post.ite (fun h => netShape_text h (by simp)) fun _ => ?_
  refine Post.ite (fun h => ?_) fun _ => Post.error
  · subst h
    refine Post.bind fun extras hextras d' _ => ⟨by decide, fun _ => by decide, fun hmap => ?_⟩
    cases hv : e.2 <;> rw [hv] at hextras hmap <;> contradiction

/-! ## Ports and further interfaces -/

omit yaml in
theorem mapM_ok_iff {ε α β : Type} {f : β → Except ε α} {l : List β} :
    (∃ r, l.mapM f = .ok r) ↔ ∀ b ∈ l, ∃ a, f b = .ok a :=
  ⟨fun ⟨_, h⟩ _ hb => exists_ok_of_mapM_eq_ok h hb, exists_mapM_eq_ok⟩

omit yaml in
theorem exists_bind_ok_iff {ε α σ : Type} {x : Except ε α} (init : σ) (f : σ → α → σ) :
    (∃ s s', (do return f s (← x) : Except ε σ) = .ok s') ↔ ∃ a, x = .ok a := by
  constructor
  · rintro ⟨s, s', h⟩
    obtain ⟨a, ha, -⟩ := bind_eq_ok.mp h
    exact ⟨a, ha⟩
  · rintro ⟨a, ha⟩
    exact ⟨init, f init a, by rw [ha]; rfl⟩

omit yaml in
theorem exists_return_iff {ε α β : Type} {x : Except ε α} (f : α → β) :
    (∃ r, (do return f (← x) : Except ε β) = .ok r) ↔ ∃ a, x = .ok a := by
  cases x with
  | ok a => exact iff_of_true ⟨f a, rfl⟩ ⟨a, rfl⟩
  | error e => exact iff_of_false (fun ⟨_, h⟩ => nomatch h) (fun ⟨_, h⟩ => nomatch h)

/-- The ports that `inbound-tcp` and `inbound-udp` take. -/
def InboundTakes : Node → Prop
  | .null => False
  | .scalar text => ∀ word ∈ Util.splitString text, ∃ p, inboundPort word = .ok p
  | .sequence items =>
      ∀ item ∈ items, ∃ word, asString item = .ok word ∧ ∃ p, inboundPort word = .ok p
  | .map entries => ∀ e ∈ entries, ∃ p, inboundPair e = .ok p

theorem inboundPorts_ok_iff (v : Node) (what : Str) :
    (∃ ports, inboundPorts v what = .ok ports) ↔ InboundTakes v := by
  cases v with
  | null => simp [inboundPorts, listOrScalar, err, raise, InboundTakes]
  | scalar text => exact mapM_ok_iff
  | map entries => exact mapM_ok_iff
  | sequence items =>
      have hread : inboundPorts (.sequence items) what =
          items.mapM asString >>= fun words => words.mapM inboundPort := by
        simp only [inboundPorts, listOrScalar, bind_assoc, pure_bind]
      rw [hread]
      constructor
      · rintro ⟨ports, h⟩ item hitem
        obtain ⟨words, hwords, hports⟩ := bind_eq_ok.mp h
        obtain ⟨word, hword⟩ := exists_ok_of_mapM_eq_ok hwords hitem
        exact ⟨word, hword, exists_ok_of_mapM_eq_ok hports
          ((mem_of_mapM_eq_ok hwords).mpr ⟨item, hitem, hword⟩)⟩
      · intro h
        obtain ⟨words, hwords⟩ := exists_mapM_eq_ok (fun item hitem => (h item hitem).imp
          (fun _ hword => hword.1))
        rw [hwords, ok_bind, mapM_ok_iff]
        intro word hword
        obtain ⟨item, hitem, htext⟩ := (mem_of_mapM_eq_ok hwords).mp hword
        obtain ⟨word', hword', hport⟩ := h item hitem
        rw [htext, Except.ok.injEq] at hword'
        exact hword' ▸ hport

theorem takes_scalar_iff {σ : Type} {body : Str → Entry → σ → Parse σ} {key : Str} {v : Node} :
    Takes body (.scalar key, v) ↔ ∃ s s', body key (.scalar key, v) s = .ok s' := by
  unfold Takes
  simp only [asString, Except.ok.injEq, exists_eq_left']

theorem takes_inbound_iff {key : Str} (hkey : key ∈ (["inbound-tcp", "inbound-udp"] : List Str))
    {v : Node} : Takes netOption (.scalar key, v) ↔ InboundTakes v := by
  rw [takes_scalar_iff, ← inboundPorts_ok_iff v key]
  rw [List.mem_cons, List.mem_singleton] at hkey
  rcases hkey with rfl | rfl
  · exact exists_bind_ok_iff ({} : NetOptDetails) (fun s ports =>
      { s with inboundPortsTcp := s.inboundPortsTcp ++ ports })
  · exact exists_bind_ok_iff ({} : NetOptDetails) (fun s ports =>
      { s with inboundPortsUdp := s.inboundPortsUdp ++ ports })

theorem takes_extra_iff {items : List Node} :
    Takes netOption (.scalar "extra", .sequence items) ↔
      ∀ item ∈ items, ∃ x, extraInterface item = .ok x := by
  rw [takes_scalar_iff, ← mapM_ok_iff]
  exact exists_bind_ok_iff ({} : NetOptDetails) (fun s extras =>
    { s with extraInterfaces := s.extraInterfaces ++ extras })

/-! ## The words of `outbound` -/

def outboundWords : List Str := ["all", "none", "wan", "lan", "host", "dns"]

/-- `all` and `none` stand alone. -/
def Alone (words : List Str) : Prop :=
  ∀ word ∈ words, word = "all" ∨ word = "none" → ∀ other ∈ words, other = word

omit yaml in
theorem addOutbound_ok_iff (size : Nat) (d : NetOptDetails) (word : Str) :
    (∃ d', addOutbound size d word = .ok d') ↔
      word ∈ outboundWords ∧ (word = "all" ∨ word = "none" → size ≤ 1) := by
  unfold addOutbound
  by_cases hall : word = "all"
  · subst hall
    rw [if_pos rfl]
    split
    · rename_i hsize
      refine iff_of_false (fun ⟨_, h⟩ => nomatch h) (fun ⟨_, h⟩ => ?_)
      exact absurd (h (.inl rfl)) (by omega)
    · rename_i hsize
      exact iff_of_true ⟨_, rfl⟩ ⟨by decide, fun _ => by omega⟩
  rw [if_neg hall]
  by_cases hnone : word = "none"
  · subst hnone
    rw [if_pos rfl]
    split
    · rename_i hsize
      refine iff_of_false (fun ⟨_, h⟩ => nomatch h) (fun ⟨_, h⟩ => ?_)
      exact absurd (h (.inr rfl)) (by omega)
    · rename_i hsize
      exact iff_of_true ⟨_, rfl⟩ ⟨by decide, fun _ => by omega⟩
  rw [if_neg hnone]
  have halone : word = "all" ∨ word = "none" → size ≤ 1 :=
    fun h => absurd h (not_or.mpr ⟨hall, hnone⟩)
  split
  · rename_i h
    exact iff_of_true ⟨_, rfl⟩ ⟨by rw [h]; decide, halone⟩
  split
  · rename_i h
    exact iff_of_true ⟨_, rfl⟩ ⟨by rw [h]; decide, halone⟩
  split
  · rename_i h
    exact iff_of_true ⟨_, rfl⟩ ⟨by rw [h]; decide, halone⟩
  split
  · rename_i h
    exact iff_of_true ⟨_, rfl⟩ ⟨by rw [h]; decide, halone⟩
  · refine iff_of_false (fun ⟨_, h⟩ => nomatch h) (fun ⟨h, _⟩ => ?_)
    simp only [outboundWords, List.mem_cons, List.not_mem_nil, or_false] at h
    tauto

omit yaml in
/-- A set has one word when it has no other. -/
theorem ofElems_length_le_one {words : List Str} {word : Str} (hword : word ∈ words) :
    (OrdSet.ofElems words).entries.length ≤ 1 ↔ ∀ other ∈ words, other = word := by
  have hlength : (OrdSet.ofElems words).entries.length = (OrdSet.ofElems words).elems.length :=
    (List.length_map Prod.fst).symm
  rw [hlength]
  constructor
  · intro h other hother
    rw [← OrdSet.mem_elems_ofElems] at hword hother
    match hkeys : (OrdSet.ofElems words).elems with
    | [] => simp [hkeys] at hword
    | [_] =>
        rw [hkeys, List.mem_singleton] at hword hother
        rw [hword, hother]
    | _ :: _ :: _ =>
        rw [hkeys] at h
        simp at h
  · intro h
    have hall : ∀ other ∈ (OrdSet.ofElems words).elems, other = word :=
      fun other hother => h other (OrdSet.mem_elems_ofElems.mp hother)
    have hnodup : (OrdSet.ofElems words).elems.Nodup := (OrdSet.ofElems words).keys_nodup
    rw [List.eq_replicate_of_mem hall, List.nodup_replicate] at hnodup
    exact hnodup

theorem takes_outbound_iff {items : List Node} :
    Takes netOption (.scalar "outbound", .sequence items) ↔
      (∀ item ∈ items, ∃ word, asString item = .ok word) ∧
        (∀ word ∈ textsOf items, word ∈ outboundWords) ∧ Alone (textsOf items) := by
  rw [takes_scalar_iff]
  have hread : ∀ d, netOption "outbound" (.scalar "outbound", .sequence items) d =
      items.mapM asString >>= fun words => ((OrdSet.ofElems words).elems).foldlM
        (addOutbound (OrdSet.ofElems words).entries.length) d := by
    intro d
    simp only [netOption, if_true, outbound, listOrScalarOnly, listOrScalar, bind_assoc, pure_bind]
    rfl
  have hsteps : ∀ words : List Str, ∀ d, (∃ d', ((OrdSet.ofElems words).elems).foldlM
      (addOutbound (OrdSet.ofElems words).entries.length) d = .ok d') ↔
        (∀ word ∈ words, word ∈ outboundWords) ∧ Alone words := by
    intro words d
    rw [Indifferent.foldlM_ok_iff (fun word _ => indifferent_addOutbound _ word)]
    simp only [addOutbound_ok_iff, OrdSet.mem_elems_ofElems]
    constructor
    · intro h
      refine ⟨fun word hword => (h word hword).1, fun word hword hspecial => ?_⟩
      exact (ofElems_length_le_one hword).mp ((h word hword).2 hspecial)
    · rintro ⟨hknown, halone⟩ word hword
      refine ⟨hknown word hword, fun hspecial => ?_⟩
      exact (ofElems_length_le_one hword).mpr (halone word hword hspecial)
  constructor
  · rintro ⟨d, d', h⟩
    rw [hread] at h
    obtain ⟨words, hwords, h⟩ := bind_eq_ok.mp h
    rw [textsOf_of_mapM hwords]
    exact ⟨fun item hitem => exists_ok_of_mapM_eq_ok hwords hitem, (hsteps words d).mp ⟨d', h⟩⟩
  · rintro ⟨hitems, hwords⟩
    obtain ⟨words, hread'⟩ := exists_mapM_eq_ok hitems
    rw [textsOf_of_mapM hread'] at hwords
    obtain ⟨d', hd'⟩ := (hsteps words {}).mpr hwords
    exact ⟨{}, d', by rw [hread, hread', ok_bind, hd']⟩

/-! ## Merged values -/

theorem mergeNode_simple {x y v : Node} (hx : Simple x) (hy : Simple y)
    (h : mergeNode x y = .ok v) : v = x ∨ v = y := by
  obtain ⟨-, rfl⟩ | ⟨-, -, rfl⟩ | ⟨xs, ys, rfl, -, -⟩ | ⟨xs, ys, merged, rfl, -⟩ :=
    mergeNode_eq_ok h
  · exact .inl rfl
  · exact .inr rfl
  · exact absurd hx.1 (by simp [Node.isSequence])
  · exact absurd hx.2 (by simp [Node.isMap])

theorem simple_of_inboundPair {e : Entry} (h : ∃ p, inboundPair e = .ok p) : Simple e.2 := by
  obtain ⟨p, h⟩ := h
  simp only [inboundPair, bind_eq_ok] at h
  obtain ⟨_, -, _, -, text, htext, -⟩ := h
  exact simple_of_asString htext

theorem takes_merged {key : Str} {x y v : Node} (hx : Takes netOption (.scalar key, x))
    (hy : Takes netOption (.scalar key, y)) (hplain : Plain y) (h : mergeNode x y = .ok v)
    (houtbound : key = "outbound" → x.isSequence = false ∨ y.isSequence = false) :
    Takes netOption (.scalar key, v) := by
  obtain ⟨-, rfl⟩ | ⟨-, -, rfl⟩ | ⟨xs, ys, rfl, rfl, rfl⟩ | ⟨xs, ys, merged, rfl, rfl, hmerged,
    rfl⟩ := mergeNode_eq_ok h
  · exact hx
  · exact hy
  · have hshape : key ∈ (["outbound", "inbound-tcp", "inbound-udp", "extra"] : List Str) := by
      obtain ⟨s, s', hs⟩ := takes_scalar_iff.mp hx
      exact (netOption_shape key _ s s' hs).list rfl
    rw [List.mem_cons] at hshape
    rcases hshape with hkey | hshape
    · rcases houtbound hkey with hcontra | hcontra <;> simp [Node.isSequence] at hcontra
    · by_cases hextra : key = "extra"
      · subst hextra
        rw [takes_extra_iff] at hx hy ⊢
        intro item hitem
        exact (mem_mergeItems hitem).elim (hx item) (hy item)
      · have hinbound : key ∈ (["inbound-tcp", "inbound-udp"] : List Str) := by
          simp only [List.mem_cons, List.not_mem_nil, or_false, hextra] at hshape ⊢
          exact hshape
        rw [takes_inbound_iff hinbound] at hx hy ⊢
        intro item hitem
        exact (mem_mergeItems hitem).elim (hx item) (hy item)
  · have hinbound : key ∈ (["inbound-tcp", "inbound-udp"] : List Str) := by
      obtain ⟨s, s', hs⟩ := takes_scalar_iff.mp hx
      exact (netOption_shape key _ s s' hs).map rfl
    rw [takes_inbound_iff hinbound] at hx hy ⊢
    obtain ⟨-, hkeys, -⟩ := plain_map_iff.mp hplain
    rw [mergeEntries_eq_foldlM] at hmerged
    intro e he
    rcases (mergedEntries_of_foldlM hkeys hmerged).mem e he with hxs | ⟨port, y, hport, hys, hputs⟩
    · exact hx e hxs
    · -- Both sides give the port, and a port is a scalar.
      have hsame : ∀ w, e.2 = w → e = (.scalar port, w) := fun w hw => Prod.ext hport hw
      obtain ⟨-, hvalue⟩ | ⟨old, hold, hvalue⟩ := hputs
      · exact hsame y hvalue ▸ hy _ hys
      · have hxs := mem_of_lookup hold
        rcases mergeNode_simple (simple_of_inboundPair (hx _ hxs))
          (simple_of_inboundPair (hy _ hys)) hvalue with hvalue | hvalue
        · exact hsame old hvalue ▸ hx _ hxs
        · exact hsame y hvalue ▸ hy _ hys

/-! ## Merged details -/

/-- The `outbound` lists of both sides, if both give one, may be joined. -/
def OutboundAgree (x y : List Entry) : Prop :=
  ∀ xs ys, lookup x "outbound" = some (.sequence xs) → lookup y "outbound" = some (.sequence ys) →
    Alone (textsOf xs ++ textsOf ys)

/-- Keys and values of the options other than `net`. -/
def TextsOnly {σ : Type} (body : Str → Entry → σ → Parse σ) : Prop :=
  ∀ key e s, Post (body key e s) (fun _ => key ≠ "null" ∧ Simple e.2)

theorem textsOnly_torOption : TextsOnly torOption := by
  intro key e s
  unfold torOption
  refine Post.ite (fun h => ?_) fun _ => Post.error
  subst h
  split
  · rename_i hbool
    refine Post.ok ⟨by decide, ?_⟩
    cases hv : e.2 with
    | scalar text => exact ⟨rfl, rfl⟩
    | null => exact ⟨rfl, rfl⟩
    | sequence items =>
        rw [hv] at hbool
        contradiction
    | map entries =>
        rw [hv] at hbool
        contradiction
  · exact Post.bind fun _ _ => Post.error

theorem textsOnly_wireguardOption : TextsOnly wireguardOption := by
  intro key e s
  unfold wireguardOption
  refine Post.ite (fun h => ?_) fun _ => Post.error
  subst h
  exact fun text htext => ⟨by decide, simple_of_asString htext⟩

theorem textsOnly_ipsecOption : TextsOnly ipsecOption := by
  intro key e s
  unfold ipsecOption
  refine Post.ite (fun h => ?_) fun _ => Post.ite (fun h => ?_) fun _ => Post.error
  · subst h
    exact Post.bind fun text htext => Post.ok ⟨by decide, simple_of_asString htext⟩
  · subst h
    exact Post.bind fun text htext => Post.ok ⟨by decide, simple_of_asString htext⟩

theorem indifferent_torOption (key : Str) (e : Entry) : Indifferent (torOption key e) :=
  fun _ s' h _ => ⟨s', h⟩

theorem indifferent_wireguardOption (key : Str) (e : Entry) :
    Indifferent (wireguardOption key e) :=
  fun _ s' h _ => ⟨s', h⟩

theorem indifferent_ipsecOption (key : Str) (e : Entry) : Indifferent (ipsecOption key e) := by
  unfold ipsecOption
  exact .ite (.bind fun _ => .ok _) (.ite (.bind fun _ => .ok _) (.error _))

/-- What it takes for the details of an option to be read. -/
theorem readDetails_ok_iff (name : Str) (details : List Entry) :
    (∃ r, readDetails name details = .ok r) ↔
      if name = "net" then ∀ e ∈ details, Takes netOption e
      else if name = "tor" then ∀ e ∈ details, Takes torOption e
      else if name = "wireguard" then ∀ e ∈ details, Takes wireguardOption e
      else if name = "ipsec" then ∀ e ∈ details, Takes ipsecOption e
      else False := by
  unfold readDetails
  split
  · rw [← eachEntry_ok_iff indifferent_netOption details {}]
    exact exists_return_iff _
  split
  · rw [← eachEntry_ok_iff indifferent_torOption details false]
    exact exists_return_iff _
  split
  · rw [← eachEntry_ok_iff indifferent_wireguardOption details []]
    exact exists_return_iff _
  split
  · rw [← eachEntry_ok_iff indifferent_ipsecOption details ([], [])]
    exact exists_return_iff (fun ip : Str × Str => some (OptDetails.ipsec ip.1 ip.2))
  · exact iff_of_false (fun ⟨_, h⟩ => nomatch h) id

theorem takes_mergedEntries {σ : Type} {body : Str → Entry → σ → Parse σ} {x y z : List Entry}
    (hx : ∀ e ∈ x, Takes body e) (hy : ∀ e ∈ y, Takes body e) (hz : MergedEntries x y z)
    (hboth : ∀ key old new value, lookup x key = some old → (.scalar key, new) ∈ y →
      mergeNode old new = .ok value → Takes body (.scalar key, value)) :
    ∀ e ∈ z, Takes body e := by
  intro e he
  rcases hz.mem e he with hin | ⟨key, new, hkey, hin, hputs⟩
  · exact hx e hin
  · have hsame : ∀ w, e.2 = w → e = (.scalar key, w) := fun w hw => Prod.ext hkey hw
    obtain ⟨-, hvalue⟩ | ⟨old, hold, hvalue⟩ := hputs
    · exact hsame new hvalue ▸ hy _ hin
    · exact hsame e.2 rfl ▸ hboth key old new e.2 hold hin hvalue

theorem takes_merged_texts {σ : Type} {body : Str → Entry → σ → Parse σ} (hbody : TextsOnly body)
    {x y z : List Entry} (hx : ∀ e ∈ x, Takes body e) (hy : ∀ e ∈ y, Takes body e)
    (hz : MergedEntries x y z) : ∀ e ∈ z, Takes body e := by
  refine takes_mergedEntries hx hy hz (fun key old new value hold hnew hvalue => ?_)
  have hsimple : ∀ v, Takes body (.scalar key, v) → Simple v := by
    intro v hv
    obtain ⟨s, s', h⟩ := takes_scalar_iff.mp hv
    exact (hbody key _ s s' h).2
  have htakesOld := hx _ (mem_of_lookup hold)
  have htakesNew := hy _ hnew
  rcases mergeNode_simple (hsimple old htakesOld) (hsimple new htakesNew) hvalue with rfl | rfl
  · exact htakesOld
  · exact htakesNew

theorem subset_textsOf_mergeItems {xs ys : List Node} {word : Str}
    (h : word ∈ textsOf (mergeItems xs ys)) : word ∈ textsOf xs ++ textsOf ys := by
  obtain ⟨node, hnode, htext⟩ := mem_textsOf.mp h
  rw [List.mem_append, mem_textsOf, mem_textsOf]
  exact (mem_mergeItems hnode).imp (fun h => ⟨node, h, htext⟩) (fun h => ⟨node, h, htext⟩)

theorem takes_outbound_mergeItems {xs ys : List Node}
    (hx : Takes netOption (.scalar "outbound", .sequence xs))
    (hy : Takes netOption (.scalar "outbound", .sequence ys))
    (halone : Alone (textsOf xs ++ textsOf ys)) :
    Takes netOption (.scalar "outbound", .sequence (mergeItems xs ys)) := by
  rw [takes_outbound_iff] at hx hy ⊢
  refine ⟨fun item hitem => (mem_mergeItems hitem).elim (hx.1 item) (hy.1 item), ?_, ?_⟩
  · intro word hword
    rcases List.mem_append.mp (subset_textsOf_mergeItems hword) with hword | hword
    · exact hx.2.1 word hword
    · exact hy.2.1 word hword
  · intro word hword hspecial other hother
    exact halone word (subset_textsOf_mergeItems hword) hspecial other
      (subset_textsOf_mergeItems hother)

/-- The merged details are read again if their `outbound` lists agree. -/
theorem exists_readDetails_merged {name : Str} {x y z : List Entry}
    (hx : ∃ r, readDetails name x = .ok r) (hy : ∃ r, readDetails name y = .ok r)
    (hplain : Plain (.map y)) (hz : mergeEntries x y = .ok z)
    (hagree : name = "net" → OutboundAgree x y) : ∃ r, readDetails name z = .ok r := by
  obtain ⟨-, hkeys, hvalues⟩ := plain_map_iff.mp hplain
  rw [mergeEntries_eq_foldlM] at hz
  have hmerged := mergedEntries_of_foldlM hkeys hz
  rw [readDetails_ok_iff] at hx hy ⊢
  split at hx
  · rename_i hnet
    rw [if_pos hnet] at hy ⊢
    refine takes_mergedEntries hx hy hmerged (fun key old new value hold hnew hvalue => ?_)
    have htakesOld := hx _ (mem_of_lookup hold)
    have htakesNew := hy _ hnew
    by_cases hlists : key = "outbound" ∧ old.isSequence ∧ new.isSequence
    · obtain ⟨rfl, hold', hnew'⟩ := hlists
      cases old with
      | sequence xs =>
          cases new with
          | sequence ys =>
              obtain rfl := Except.ok.inj hvalue
              exact takes_outbound_mergeItems htakesOld htakesNew
                (hagree hnet xs ys hold (lookup_of_mem hkeys hnew))
          | _ => contradiction
      | _ => contradiction
    · refine takes_merged htakesOld htakesNew (hvalues _ hnew) hvalue (fun hkey => ?_)
      by_contra hcontra
      simp only [not_or, Bool.not_eq_false] at hcontra
      exact hlists ⟨hkey, hcontra⟩
  · rename_i hnet
    rw [if_neg hnet] at hy ⊢
    split at hx
    · rename_i htor
      rw [if_pos htor] at hy ⊢
      exact takes_merged_texts textsOnly_torOption hx hy hmerged
    · rename_i htor
      rw [if_neg htor] at hy ⊢
      split at hx
      · rename_i hwireguard
        rw [if_pos hwireguard] at hy ⊢
        exact takes_merged_texts textsOnly_wireguardOption hx hy hmerged
      · rename_i hwireguard
        rw [if_neg hwireguard] at hy ⊢
        split at hx
        · rename_i hipsec
          rw [if_pos hipsec] at hy ⊢
          exact takes_merged_texts textsOnly_ipsecOption hx hy hmerged
        · exact hx.elim

/-- Distinct scalars are written in different ways. -/
def WritesApart : Prop :=
  ∀ text other : Str, yaml.emit (.scalar text) = yaml.emit (.scalar other) → text = other

theorem scalar_of_outboundWord {item : Node} {word : Str} (h : asString item = .ok word)
    (hword : word ∈ outboundWords) : item = .scalar word := by
  refine eq_scalar_of_asString h ?_
  rintro rfl
  revert hword
  decide

theorem textsOf_subset_mergeItems (hemit : WritesApart) {xs ys : List Node}
    (hxs : ∀ word ∈ textsOf xs, word ∈ outboundWords)
    (hys : ∀ word ∈ textsOf ys, word ∈ outboundWords)
    (hitems : ∀ item ∈ mergeItems xs ys, ∃ word, asString item = .ok word) {word : Str}
    (hword : word ∈ textsOf xs ++ textsOf ys) : word ∈ textsOf (mergeItems xs ys) := by
  have hknown : ∀ w ∈ textsOf xs ++ textsOf ys, w ∈ outboundWords := fun w hw =>
    (List.mem_append.mp hw).elim (hxs w) (hys w)
  rw [mem_textsOf]
  rcases List.mem_append.mp hword with hin | hin
  · obtain ⟨node, hnode, htext⟩ := mem_textsOf.mp hin
    exact ⟨node, base_subset_mergeItems xs ys node hnode, htext⟩
  · -- The item itself may be left out, but then one with the same text is there.
    obtain ⟨node, hnode, htext⟩ := mem_textsOf.mp hin
    obtain ⟨existing, hexisting, hsame⟩ := present_mergeItems xs ys node hnode
    obtain ⟨other, hother⟩ := hitems existing hexisting
    have hmem : other ∈ textsOf xs ++ textsOf ys :=
      subset_textsOf_mergeItems (mem_textsOf.mpr ⟨existing, hexisting, hother⟩)
    rw [scalar_of_outboundWord hother (hknown other hmem),
      scalar_of_outboundWord htext (hknown word hword)] at hsame
    exact ⟨existing, hexisting, hemit _ _ hsame ▸ hother⟩

/-- If the merged details of `net` are read, its `outbound` lists agree. -/
theorem outboundAgree_of_read (hemit : WritesApart) {x y z : List Entry}
    (hx : ∃ r, readDetails "net" x = .ok r) (hy : ∃ r, readDetails "net" y = .ok r)
    (hplain : Plain (.map y)) (hz : mergeEntries x y = .ok z)
    (h : ∃ r, readDetails "net" z = .ok r) : OutboundAgree x y := by
  intro xs ys hxs hys
  obtain ⟨-, hkeys, -⟩ := plain_map_iff.mp hplain
  rw [mergeEntries_eq_foldlM] at hz
  rw [readDetails_ok_iff, if_pos rfl] at hx hy h
  have htakesX := takes_outbound_iff.mp (hx _ (mem_of_lookup hxs))
  have htakesY := takes_outbound_iff.mp (hy _ (mem_of_lookup hys))
  obtain ⟨key, value, hkey, hvalue, hputs⟩ :=
    (mergedEntries_of_foldlM hkeys hz).named _ (mem_of_lookup hys)
  obtain rfl := Node.scalar.inj hkey
  obtain ⟨hnone, -⟩ | ⟨old, hold, hmerge⟩ := hputs
  · rw [hxs] at hnone
    contradiction
  · rw [hxs, Option.some.injEq] at hold
    subst hold
    obtain rfl := Except.ok.inj hmerge
    have htakes := takes_outbound_iff.mp (h _ (mem_of_lookup hvalue))
    have hsubset : ∀ word ∈ textsOf xs ++ textsOf ys, word ∈ textsOf (mergeItems xs ys) :=
      fun word hword => textsOf_subset_mergeItems hemit htakesX.2.1 htakesY.2.1 htakes.1 hword
    intro word hword hspecial other hother
    exact htakes.2.2 word (hsubset word hword) hspecial other (hsubset other hother)

/-! ## Accepted details are plain -/

omit yaml in
theorem Simple.plain {v : Node} (h : Simple v) : Plain v := by
  cases v with
  | null => exact .null
  | scalar text => exact .scalar text
  | sequence items => exact absurd h.1 (by simp [Node.isSequence])
  | map entries => exact absurd h.2 (by simp [Node.isMap])

omit yaml in
theorem uniqueKeys_map_iff {entries : List Entry} :
    UniqueKeys (.map entries) ↔
      (entries.map Prod.fst).Nodup ∧ ∀ e ∈ entries, UniqueKeys e.2 :=
  ⟨fun | .map hkeys hvalues => ⟨hkeys, hvalues⟩, fun ⟨hkeys, hvalues⟩ => .map hkeys hvalues⟩

theorem plain_of_inbound {entries : List Entry} (h : InboundTakes (.map entries))
    (hunique : UniqueKeys (.map entries)) : Plain (.map entries) := by
  refine .map (fun e he => ?_) (uniqueKeys_map_iff.mp hunique).1
    (fun e he => (simple_of_inboundPair (h e he)).plain)
  obtain ⟨p, hp⟩ := h e he
  obtain ⟨text, htext, hp⟩ := bind_eq_ok.mp hp
  obtain ⟨port, hport, -⟩ := bind_eq_ok.mp hp
  refine ⟨text, eq_scalar_of_asString htext ?_⟩
  rintro rfl
  cases hport

theorem plain_of_takes {key : Str} {v : Node} (h : Takes netOption (.scalar key, v))
    (hunique : UniqueKeys v) : Plain v := by
  obtain ⟨s, s', hs⟩ := takes_scalar_iff.mp h
  have hshape := netOption_shape key _ s s' hs
  cases v with
  | null => exact .null
  | scalar text => exact .scalar text
  | sequence items => exact .sequence items
  | map entries => exact plain_of_inbound ((takes_inbound_iff (hshape.map rfl)).mp h) hunique

theorem plain_of_all {σ : Type} {body : Str → Entry → σ → Parse σ}
    (hkey : ∀ key e s, Post (body key e s) (fun _ => key ≠ "null"))
    (hvalue : ∀ key v, Takes body (.scalar key, v) → UniqueKeys v → Plain v)
    {details : List Entry} (h : ∀ e ∈ details, Takes body e)
    (hunique : UniqueKeys (.map details)) : Plain (.map details) := by
  obtain ⟨hkeys, hvalues⟩ := uniqueKeys_map_iff.mp hunique
  have hscalar : ∀ e ∈ details, ∃ key, e.1 = .scalar key := by
    intro e he
    obtain ⟨key, htext, s, s', hs⟩ := h e he
    exact ⟨key, eq_scalar_of_asString htext (hkey key e s s' hs)⟩
  refine .map hscalar hkeys (fun e he => ?_)
  obtain ⟨key, hsame⟩ := hscalar e he
  have hentry : e = (.scalar key, e.2) := Prod.ext hsame rfl
  exact hvalue key e.2 (hentry ▸ h e he) (hvalues e he)

theorem plain_of_textsOnly {σ : Type} {body : Str → Entry → σ → Parse σ} (hbody : TextsOnly body)
    {details : List Entry} (h : ∀ e ∈ details, Takes body e)
    (hunique : UniqueKeys (.map details)) : Plain (.map details) := by
  refine plain_of_all (fun key e s => (hbody key e s).mono (fun _ h => h.1)) ?_ h hunique
  intro key v htakes _
  obtain ⟨s, s', hs⟩ := takes_scalar_iff.mp htakes
  exact (hbody key _ s s' hs).2.plain

/-- The details that the parser reads are plain. -/
theorem plain_of_read {name : Str} {details : List Entry}
    (h : ∃ r, readDetails name details = .ok r) (hunique : UniqueKeys (.map details)) :
    Plain (.map details) := by
  rw [readDetails_ok_iff] at h
  split at h
  · exact plain_of_all (fun key e s => (netOption_shape key e s).mono (fun _ h => h.text))
      (fun _ _ => plain_of_takes) h hunique
  split at h
  · exact plain_of_textsOnly textsOnly_torOption h hunique
  split at h
  · exact plain_of_textsOnly textsOnly_wireguardOption h hunique
  split at h
  · exact plain_of_textsOnly textsOnly_ipsecOption h hunique
  · exact h.elim

end Reading

end Crate.SpecParser
