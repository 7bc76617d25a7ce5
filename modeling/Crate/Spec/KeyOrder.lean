import Crate.Spec.OptionOrder
import Crate.Spec.ParseSpec

/-!
# The order of the keys of a specification

The top-level keys of a document form a map, so their order should not matter.
Each section writes a part of its own, and so two entries can disturb each
other in two ways only: they are two spellings of one section, of which the
later one wins, or they are `network` and `options`, which both write the
details of `net`.
-/

namespace Crate.SpecParser

open Crate.Foundation
open Crate.Yaml

variable [yaml : YamlCpp]

/-- Every order of the entries is rejected, or every order gives the same specification. -/
def OrderIndependent (doc : List Entry) : Prop :=
  ∀ doc', doc.Perm doc' → ∀ spec,
    parseSpecFromNode (.map doc) = .ok spec ↔ parseSpecFromNode (.map doc') = .ok spec

/-- An entry that is a document the parser takes. -/
def AcceptedAlone (k : Entry) : Prop := ∃ spec, parseSpecFromNode (.map [k]) = .ok spec

/-- No two entries disturb each other. -/
structure Undisturbed (doc : List Entry) : Prop where
  /-- Two spellings of a section say the same. -/
  spellings : ∀ k ∈ doc, ∀ k' ∈ doc, ∀ s, sectionOf k = some s → sectionOf k' = some s →
    ∀ x, readSection s k.2 (parts {} s) = .ok x ↔ readSection s k'.2 (parts {} s) = .ok x
  /-- Beside `network`, the options leave the mode of `net` alone or set it to `auto`. -/
  network : ∀ k ∈ doc, ∀ k' ∈ doc, sectionOf k = some .network → sectionOf k' = some .options →
    keepsAuto k'.2 = true

/-! ## Two entries of one section -/

theorem asString_of_sectionOf {k : Entry} {s : Section} (h : sectionOf k = some s) :
    ∃ key, k.1 = .scalar key ∧ key ∈ s.keys := by
  unfold sectionOf at h
  cases hkey : asString k.1 with
  | error e => simp [hkey] at h
  | ok key =>
      rw [hkey] at h
      refine ⟨key, eq_scalar_of_asString hkey ?_, mem_keys_of_ofKey h⟩
      rintro rfl
      have hnull : Section.ofKey "null" = none := by decide
      exact absurd (hnull.symm.trans h) (by simp)

/-- A section that is named twice has two spellings, and such a section starts afresh. -/
theorem readSection_congr {k k' : Entry} {s : Section} (h : sectionOf k = some s)
    (h' : sectionOf k' = some s) (hne : k.1 ≠ k'.1) (v : Node) (x y : s.Fields) :
    readSection s v x = readSection s v y := by
  obtain ⟨key, hkey, hmem⟩ := asString_of_sectionOf h
  obtain ⟨key', hkey', hmem'⟩ := asString_of_sectionOf h'
  have hkeys : key ≠ key' := by
    rintro rfl
    exact hne (hkey.trans hkey'.symm)
  cases s
  case dnsFilter => rfl
  case socketProxy => rfl
  case securityAdvanced => rfl
  case baseContainer => rfl
  case restart => rfl
  all_goals
    exact absurd ((List.mem_singleton.mp hmem).trans (List.mem_singleton.mp hmem').symm) hkeys

theorem eq_of_single_spelling {k k' : Entry} {s : Section} (h : sectionOf k = some s)
    (h' : sectionOf k' = some s) (hs : s.keys.length = 1) : k.1 = k'.1 := by
  obtain ⟨key, hkey, hmem⟩ := asString_of_sectionOf h
  obtain ⟨key', hkey', hmem'⟩ := asString_of_sectionOf h'
  obtain ⟨only, honly⟩ := List.length_eq_one_iff.mp hs
  rw [honly, List.mem_singleton] at hmem hmem'
  rw [hkey, hkey', hmem, hmem']

/-! ## The map of options -/

theorem onSection_options {k : Entry} (h : sectionOf k = some .options) (m : OptMap) :
    onSection .options m k = options k.2 m := by
  rw [onSection_of_some h]
  change (options k.2 m >>= fun m' => pure m') = _
  rw [bind_pure]

theorem onSection_network {k : Entry} (h : sectionOf k = some .network) (m : OptMap) :
    onSection .options m k = network k.2 m := by
  rw [onSection_of_some h]
  change (network k.2 m >>= fun m' => pure m') = _
  rw [bind_pure]

theorem onSection_x11 {k : Entry} (h : sectionOf k = some .x11) (m : OptMap) :
    onSection .options m k = .ok (ensureX11 m) := by
  rw [onSection_of_some h]
  rfl

theorem onSection_other {k : Entry} {t : Section} (h : sectionOf k = some t)
    (hoptions : t ≠ .options) (hnetwork : t ≠ .network) (hx11 : t ≠ .x11) (m : OptMap) :
    onSection .options m k = .ok m := by
  rw [onSection_of_some h]
  have hnone : alsoOptions t k.2 = none := by
    unfold alsoOptions
    split
    · contradiction
    · contradiction
    · rfl
  rw [sectionSteps, hnone, Parts.runPart, List.foldlM_cons, Parts.Step.onPart_of_ne hoptions]
  rfl

omit yaml in
theorem mild_ensureX11 {m : OptMap} : Mild (ensureX11 m) ↔ Mild m := by
  unfold Mild ensureX11
  rw [netDetails_touch]

theorem options_eq_ok {v : Node} {m m' : OptMap} :
    options v m = .ok m' ↔ ∃ update, readOptions v = .ok update ∧ update m = m' := by
  unfold options
  rw [bind_eq_ok]
  simp

/-- Whatever an entry does to the options, `x11` may come before or after it. -/
theorem onSection_ensureX11 {m t : OptMap} {k : Entry} :
    onSection .options (ensureX11 m) k = .ok t ↔
      ∃ t', onSection .options m k = .ok t' ∧ ensureX11 t' = t := by
  cases hsection : sectionOf k with
  | none =>
      constructor
      · intro h
        exact absurd h (onSection_of_none hsection _ _ _)
      · rintro ⟨t', h, -⟩
        exact absurd h (onSection_of_none hsection _ _ _)
  | some s =>
      by_cases hoptions : s = .options
      · subst hoptions
        simp only [onSection_options hsection, options_eq_ok]
        constructor
        · rintro ⟨update, hread, rfl⟩
          exact ⟨update m, ⟨update, hread, rfl⟩, readOptions_passesX11 k.2 update hread m⟩
        · rintro ⟨t', ⟨update, hread, rfl⟩, rfl⟩
          exact ⟨update, hread, (readOptions_passesX11 k.2 update hread m).symm⟩
      by_cases hnetwork : s = .network
      · subst hnetwork
        have hswap : setAuto (ensureX11 m) = ensureX11 (setAuto m) :=
          (quiet_touch (by decide)).auto m
        simp only [onSection_network hsection, network_eq_ok, mild_ensureX11, hswap]
        constructor
        · rintro ⟨hauto, hmild, rfl⟩
          exact ⟨setAuto m, ⟨hauto, hmild, rfl⟩, rfl⟩
        · rintro ⟨t', ⟨hauto, hmild, rfl⟩, rfl⟩
          exact ⟨hauto, hmild, rfl⟩
      by_cases hx11 : s = .x11
      · subst hx11
        simp [onSection_x11 hsection]
      · simp [onSection_other hsection hoptions hnetwork hx11]

/-! ## Exchanging two entries -/

def DistinctKeys (doc : List Entry) : Prop := (doc.map Prod.fst).Nodup

omit yaml in
theorem DistinctKeys.perm {doc doc' : List Entry} (h : doc.Perm doc') (hdoc : DistinctKeys doc) :
    DistinctKeys doc' :=
  (h.map Prod.fst).nodup_iff.mp hdoc

omit yaml in
theorem DistinctKeys.tail {k : Entry} {doc : List Entry} (h : DistinctKeys (k :: doc)) :
    DistinctKeys doc :=
  (List.nodup_cons.mp h).2

omit yaml in
theorem DistinctKeys.head_ne {k k' : Entry} {doc : List Entry} (h : DistinctKeys (k :: doc))
    (hk' : k' ∈ doc) : k.1 ≠ k'.1 := by
  intro heq
  exact (List.nodup_cons.mp h).1 (heq ▸ List.mem_map_of_mem hk')

theorem Undisturbed.mono {doc doc' : List Entry} (hsub : ∀ k ∈ doc', k ∈ doc)
    (h : Undisturbed doc) : Undisturbed doc' where
  spellings := fun k hk k' hk' => h.spellings k (hsub k hk) k' (hsub k' hk')
  network := fun k hk k' hk' => h.network k (hsub k hk) k' (hsub k' hk')

/-- Two entries may be exchanged as far as a part other than the options goes. -/
theorem onSection_swap {a b : Entry} {l : List Entry} {s : Section} (hoptions : s ≠ .options)
    (hkeys : DistinctKeys (a :: b :: l)) (hdoc : Undisturbed (a :: b :: l)) {x t : s.Fields}
    (h : (onSection s x a >>= fun y => onSection s y b) = .ok t) :
    (onSection s x b >>= fun y => onSection s y a) = .ok t := by
  obtain ⟨y, ha, hb⟩ := bind_eq_ok.mp h
  rw [bind_eq_ok]
  cases hsa : sectionOf a with
  | none => exact absurd ha (onSection_of_none hsa _ _ _)
  | some sa =>
      cases hsb : sectionOf b with
      | none => exact absurd hb (onSection_of_none hsb _ _ _)
      | some sb =>
          by_cases hnea : sa = s
          · by_cases hneb : sb = s
            · subst hnea hneb
              -- Two spellings: each replaces the part, and by assumption with the same value.
              rw [onSection_self hsa hoptions] at ha
              rw [onSection_self hsb hoptions] at hb
              have hirrel := readSection_congr hsa hsb (hkeys.head_ne (by simp))
              rw [hirrel _ _ (parts {} sb)] at ha hb
              have hsame := (hdoc.spellings a (by simp) b (by simp) sb hsa hsb y).mp ha
              obtain rfl := Except.ok.inj (hsame.symm.trans hb)
              refine ⟨y, ?_, ?_⟩
              · rw [onSection_self hsb hoptions, hirrel _ _ (parts {} sb)]
                exact hb
              · rw [onSection_self hsa hoptions, hirrel _ _ (parts {} sb)]
                exact ha
            · rw [onSection_of_ne hsb hneb hoptions, Except.ok.injEq] at hb
              subst hb
              exact ⟨x, onSection_of_ne hsb hneb hoptions x, ha⟩
          · rw [onSection_of_ne hsa hnea hoptions, Except.ok.injEq] at ha
            subst ha
            exact ⟨t, hb, onSection_of_ne hsa hnea hoptions t⟩

/-- Whether the rest of a document has both `network` and `options`. -/
def HasBoth (doc : List Entry) : Prop :=
  (∃ k ∈ doc, sectionOf k = some .network) ∧ ∃ k ∈ doc, sectionOf k = some .options

/-- An entry besides `network` and `options` changes nothing that others look at. -/
theorem onSection_light {k : Entry} {s : Section} (h : sectionOf k = some s)
    (hoptions : s ≠ .options) (hnetwork : s ≠ .network) :
    ∃ g : OptMap → OptMap, (∀ m, onSection .options m k = .ok (g m)) ∧
      (∀ m, netDetails (g m) = netDetails m) ∧
      ∀ m b t, onSection .options (g m) b = .ok t ↔
        ∃ t', onSection .options m b = .ok t' ∧ g t' = t := by
  by_cases hx11 : s = .x11
  · subst hx11
    exact ⟨ensureX11, onSection_x11 h, fun m => netDetails_touch m _,
      fun _ _ _ => onSection_ensureX11⟩
  · refine ⟨id, onSection_other h hoptions hnetwork hx11, fun _ => rfl, ?_⟩
    simp

/-- `network` and `options` may be exchanged on a map whose mode `network` may replace. -/
theorem network_options_swap {v w : Node} (hkeeps : keepsAuto w = true) {m : OptMap}
    (hmild : Mild m) (t : OptMap) :
    (network v m >>= fun m' => options w m') = .ok t ↔
      (options w m >>= fun m' => network v m') = .ok t := by
  simp only [bind_eq_ok, network_eq_ok, options_eq_ok]
  constructor
  · rintro ⟨_, ⟨hauto, -, rfl⟩, update, hread, rfl⟩
    obtain ⟨hswap, hstays⟩ := readOptions_commutes hread hkeeps m
    exact ⟨update m, ⟨update, hread, rfl⟩, hauto, hstays hmild, hswap.symm⟩
  · rintro ⟨_, ⟨update, hread, rfl⟩, hauto, -, rfl⟩
    obtain ⟨hswap, -⟩ := readOptions_commutes hread hkeeps m
    exact ⟨setAuto m, ⟨hauto, hmild, rfl⟩, update, hread, hswap.symm⟩

/-- Two entries may be exchanged as far as the options go. -/
theorem onSection_options_swap {a b : Entry} {l : List Entry}
    (hkeys : DistinctKeys (a :: b :: l)) (hdoc : Undisturbed (a :: b :: l)) {m t : OptMap}
    (hmild : HasBoth (a :: b :: l) → Mild m)
    (h : (onSection .options m a >>= fun m' => onSection .options m' b) = .ok t) :
    (onSection .options m b >>= fun m' => onSection .options m' a) = .ok t := by
  obtain ⟨m', ha, hb⟩ := bind_eq_ok.mp h
  have hne : a.1 ≠ b.1 := hkeys.head_ne (by simp)
  cases hsa : sectionOf a with
  | none => exact absurd ha (onSection_of_none hsa _ _ _)
  | some sa =>
  cases hsb : sectionOf b with
  | none => exact absurd hb (onSection_of_none hsb _ _ _)
  | some sb =>
  by_cases hlight : sa ≠ .options ∧ sa ≠ .network
  · obtain ⟨g, hg, -, hpass⟩ := onSection_light hsa hlight.1 hlight.2
    rw [hg, Except.ok.injEq] at ha
    subst ha
    obtain ⟨t', ht', rfl⟩ := (hpass m b t).mp hb
    rw [ht', ok_bind, hg]
  by_cases hlight' : sb ≠ .options ∧ sb ≠ .network
  · obtain ⟨g, hg, -, hpass⟩ := onSection_light hsb hlight'.1 hlight'.2
    rw [hg, Except.ok.injEq] at hb
    subst hb
    rw [hg, ok_bind]
    exact (hpass m a _).mpr ⟨m', ha, rfl⟩
  -- What is left is one of each, since either has one spelling only.
  have hsections : sa = .network ∧ sb = .options ∨ sa = .options ∧ sb = .network := by
    have hdiff : ∀ s : Section, s.keys.length = 1 → ¬(sa = s ∧ sb = s) := by
      rintro s hs ⟨rfl, rfl⟩
      exact hne (eq_of_single_spelling hsa hsb hs)
    have hnetwork := hdiff .network rfl
    have hoptions := hdiff .options rfl
    tauto
  obtain ⟨rfl, rfl⟩ | ⟨rfl, rfl⟩ := hsections
  · have hkeeps := hdoc.network a (by simp) b (by simp) hsa hsb
    have hboth : HasBoth (a :: b :: l) := ⟨⟨a, by simp, hsa⟩, b, by simp, hsb⟩
    simp only [onSection_network hsa, onSection_options hsb] at h ⊢
    exact (network_options_swap hkeeps (hmild hboth) t).mp h
  · have hkeeps := hdoc.network b (by simp) a (by simp) hsb hsa
    have hboth : HasBoth (a :: b :: l) := ⟨⟨b, by simp, hsb⟩, a, by simp, hsa⟩
    simp only [onSection_network hsb, onSection_options hsa] at h ⊢
    exact (network_options_swap hkeeps (hmild hboth) t).mpr h

/-! ## Undisturbed documents -/

omit yaml in
theorem mild_empty : Mild OrdMap.empty := .inl rfl

theorem foldlM_options_perm {doc doc' : List Entry} (hperm : doc.Perm doc')
    (hkeys : DistinctKeys doc) (hdoc : Undisturbed doc) {t : OptMap}
    (h : doc.foldlM (onSection .options) (parts {} .options) = .ok t) :
    doc'.foldlM (onSection .options) (parts {} .options) = .ok t := by
  -- The mode is still mild as long as neither `network` nor `options` is behind us.
  refine foldlM_eq_ok_of_perm (P := fun l m => DistinctKeys l ∧ Undisturbed l ∧
    (HasBoth l → Mild m)) ?_ ?_ ?_ hperm ⟨hkeys, hdoc, fun _ => mild_empty⟩ h
  · rintro l l' m hl ⟨hk, hu, hmild⟩
    refine ⟨hk.perm hl, hu.mono (fun k => hl.mem_iff.mpr), ?_⟩
    rintro ⟨⟨n, hn, hsn⟩, o, ho, hso⟩
    exact hmild ⟨⟨n, hl.mem_iff.mpr hn, hsn⟩, o, hl.mem_iff.mpr ho, hso⟩
  · rintro b l m m' ⟨hk, hu, hmild⟩ hb
    refine ⟨hk.tail, hu.mono (fun k => List.mem_cons_of_mem b), ?_⟩
    rintro ⟨⟨n, hn, hsn⟩, o, ho, hso⟩
    cases hsb : sectionOf b with
    | none => exact absurd hb (onSection_of_none hsb _ _ _)
    | some sb =>
        have hnetwork : sb ≠ .network := by
          rintro rfl
          exact hk.head_ne hn (eq_of_single_spelling hsb hsn rfl)
        have hoptions : sb ≠ .options := by
          rintro rfl
          exact hk.head_ne ho (eq_of_single_spelling hsb hso rfl)
        obtain ⟨g, hg, hnet, -⟩ := onSection_light hsb hoptions hnetwork
        rw [hg, Except.ok.injEq] at hb
        subst hb
        unfold Mild
        rw [hnet]
        exact hmild ⟨⟨n, List.mem_cons_of_mem b hn, hsn⟩, o, List.mem_cons_of_mem b ho, hso⟩
  · rintro a b l m t ⟨hk, hu, hmild⟩ hab
    exact onSection_options_swap hk hu hmild hab

theorem foldlM_part_perm {s : Section} (hoptions : s ≠ .options) {doc doc' : List Entry}
    (hperm : doc.Perm doc') (hkeys : DistinctKeys doc) (hdoc : Undisturbed doc) {t : s.Fields}
    (h : doc.foldlM (onSection s) (parts {} s) = .ok t) :
    doc'.foldlM (onSection s) (parts {} s) = .ok t := by
  refine foldlM_eq_ok_of_perm (P := fun l _ => DistinctKeys l ∧ Undisturbed l) ?_ ?_ ?_ hperm
    ⟨hkeys, hdoc⟩ h
  · rintro l l' - hl ⟨hk, hu⟩
    exact ⟨hk.perm hl, hu.mono (fun k => hl.mem_iff.mpr)⟩
  · rintro b l - - ⟨hk, hu⟩ -
    exact ⟨hk.tail, hu.mono (fun k => List.mem_cons_of_mem b)⟩
  · rintro a b l x t ⟨hk, hu⟩ hab
    exact onSection_swap hoptions hk hu hab

theorem parse_perm {doc doc' : List Entry} (hperm : doc.Perm doc') (hkeys : DistinctKeys doc)
    (hdoc : Undisturbed doc) {spec : Spec} (h : parseSpecFromNode (.map doc) = .ok spec) :
    parseSpecFromNode (.map doc') = .ok spec := by
  rw [parseSpecFromNode_eq_ok] at h ⊢
  intro s
  by_cases hoptions : s = .options
  · subst hoptions
    exact foldlM_options_perm hperm hkeys hdoc (h .options)
  · exact foldlM_part_perm hoptions hperm hkeys hdoc (h s)

theorem Undisturbed.orderIndependent {doc : List Entry} (hkeys : DistinctKeys doc)
    (hdoc : Undisturbed doc) : OrderIndependent doc := by
  intro doc' hperm spec
  constructor
  · exact parse_perm hperm hkeys hdoc
  · exact parse_perm hperm.symm (hkeys.perm hperm) (hdoc.mono (fun k => hperm.mem_iff.mpr))

/-! ## Entries that are rejected -/

theorem acceptedAlone_iff {k : Entry} :
    AcceptedAlone k ↔ ∀ s, ∃ x, onSection s (parts {} s) k = .ok x := by
  have hsingle : ∀ (s : Section) (x : s.Fields),
      [k].foldlM (onSection s) (parts {} s) = .ok x ↔ onSection s (parts {} s) k = .ok x := by
    intro s x
    rw [List.foldlM_cons]
    change (onSection s (parts {} s) k >>= fun y => pure y) = _ ↔ _
    rw [bind_pure]
  unfold AcceptedAlone
  simp only [parseSpecFromNode_eq_ok, hsingle]
  constructor
  · rintro ⟨spec, h⟩ s
    exact ⟨_, h s⟩
  · intro h
    choose p hp using h
    refine ⟨ofParts p, ?_⟩
    rw [parts_ofParts]
    exact hp

theorem AcceptedAlone.sectionOf {k : Entry} (h : AcceptedAlone k) : ∃ s, sectionOf k = some s := by
  obtain ⟨x, hx⟩ := acceptedAlone_iff.mp h .base
  cases hsection : SpecParser.sectionOf k with
  | none => exact absurd hx (onSection_of_none hsection _ _ _)
  | some s => exact ⟨s, rfl⟩

/-- An entry of an accepted document is accepted alone. -/
theorem acceptedAlone_of_parse {doc : List Entry} (hkeys : DistinctKeys doc) {spec : Spec}
    (h : parseSpecFromNode (.map doc) = .ok spec) {k : Entry} (hk : k ∈ doc) :
    AcceptedAlone k := by
  rw [parseSpecFromNode_eq_ok] at h
  rw [acceptedAlone_iff]
  obtain ⟨before, behind, rfl⟩ := List.append_of_mem hk
  have hreached : ∀ s, ∃ x y, before.foldlM (onSection s) (parts {} s) = .ok x ∧
      onSection s x k = .ok y := by
    intro s
    have hs := h s
    rw [List.foldlM_append] at hs
    obtain ⟨x, hx, hs⟩ := bind_eq_ok.mp hs
    rw [List.foldlM_cons] at hs
    obtain ⟨y, hy, -⟩ := bind_eq_ok.mp hs
    exact ⟨x, y, hx, hy⟩
  have hbefore : ∀ k' ∈ before, k'.1 ≠ k.1 := by
    intro k' hk' heq
    have hnodup := hkeys
    rw [DistinctKeys, List.map_append, List.map_cons] at hnodup
    exact List.disjoint_of_nodup_append hnodup (List.mem_map_of_mem hk') (by simp [heq])
  intro s
  obtain ⟨x, y, hx, hy⟩ := hreached s
  cases ht : sectionOf k with
  | none => exact absurd hy (onSection_of_none ht _ _ _)
  | some t =>
  by_cases hoptions : s = .options
  · subst hoptions
    by_cases hto : t = .options
    · subst hto
      rw [onSection_options ht, options_eq_ok] at hy
      obtain ⟨update, hread, -⟩ := hy
      exact ⟨_, (onSection_options ht _).trans (options_eq_ok.mpr ⟨update, hread, rfl⟩)⟩
    by_cases htn : t = .network
    · subst htn
      rw [onSection_network ht, network_eq_ok] at hy
      exact ⟨_, (onSection_network ht _).trans (network_eq_ok.mpr ⟨hy.1, mild_empty, rfl⟩)⟩
    · obtain ⟨g, hg, -⟩ := onSection_light ht hto htn
      exact ⟨_, hg _⟩
  by_cases hts : t = s
  · subst hts
    rw [onSection_self ht hoptions] at hy ⊢
    by_cases hother : ∃ k' ∈ before, sectionOf k' = some t
    · obtain ⟨k', hk', ht'⟩ := hother
      rw [readSection_congr ht' ht (hbefore k' hk') k.2 _ x]
      exact ⟨y, hy⟩
    · -- Nobody has written the part yet, so it is what it was at the start.
      have hstart : before.foldlM (onSection t) (parts {} t) = .ok (parts {} t) := by
        apply foldlM_eq_ok_self
        intro k' hk'
        cases ht' : sectionOf k' with
        | none =>
            obtain ⟨x', y', hstep⟩ := exists_step_of_foldlM_eq_ok hx hk'
            exact absurd hstep (onSection_of_none ht' _ _ _)
        | some t' =>
            refine onSection_of_ne ht' ?_ hoptions _
            rintro rfl
            exact hother ⟨k', hk', ht'⟩
      obtain rfl := Except.ok.inj (hstart.symm.trans hx)
      exact ⟨y, hy⟩
  · exact ⟨_, onSection_of_ne ht hts hoptions _⟩

/-! ## Orders that are accepted -/

/-- The condition under which the part of `s` is read to the end. -/
theorem exists_foldlM_part {s : Section} (hoptions : s ≠ .options) {doc : List Entry}
    (hkeys : DistinctKeys doc) (haccepted : ∀ k ∈ doc, AcceptedAlone k) :
    ∃ x, doc.foldlM (onSection s) (parts {} s) = .ok x := by
  refine exists_foldlM_eq_ok (P := fun l x => DistinctKeys l ∧ (∀ k ∈ l, AcceptedAlone k) ∧
    ∀ k ∈ l, sectionOf k = some s → ∃ y, readSection s k.2 x = .ok y) ?_
    ⟨hkeys, haccepted, ?_⟩
  · rintro b l x ⟨hk, hall, hread⟩
    have htail : ∀ k ∈ l, AcceptedAlone k := fun k hk => hall k (List.mem_cons_of_mem b hk)
    obtain ⟨sb, hsb⟩ := (hall b (by simp)).sectionOf
    by_cases hself : sb = s
    · subst hself
      obtain ⟨y, hy⟩ := hread b (by simp) hsb
      refine ⟨y, (onSection_self hsb hoptions x).trans hy, hk.tail, htail, ?_⟩
      intro k hkl hsk
      rw [readSection_congr hsb hsk (hk.head_ne hkl) k.2 y x]
      exact hread k (List.mem_cons_of_mem b hkl) hsk
    · exact ⟨x, onSection_of_ne hsb hself hoptions x, hk.tail, htail,
        fun k hkl => hread k (List.mem_cons_of_mem b hkl)⟩
  · intro k hk hsk
    obtain ⟨y, hy⟩ := acceptedAlone_iff.mp (haccepted k hk) s
    rw [onSection_self hsk hoptions] at hy
    exact ⟨y, hy⟩

/-- Only `network` looks at what the map of options holds. -/
theorem exists_onSection_options {k : Entry} {s : Section} (hs : sectionOf k = some s)
    (hnetwork : s ≠ .network) (haccepted : AcceptedAlone k) (m : OptMap) :
    ∃ m', onSection .options m k = .ok m' := by
  by_cases hoptions : s = .options
  · subst hoptions
    obtain ⟨x, hx⟩ := acceptedAlone_iff.mp haccepted .options
    rw [onSection_options hs, options_eq_ok] at hx
    obtain ⟨update, hread, -⟩ := hx
    exact ⟨_, (onSection_options hs m).trans (options_eq_ok.mpr ⟨update, hread, rfl⟩)⟩
  · obtain ⟨g, hg, -⟩ := onSection_light hs hoptions hnetwork
    exact ⟨_, hg m⟩

/-- A document is accepted when its entries are and `network`, if there, comes first. -/
theorem exists_parse_of_networkFirst {networks others : List Entry}
    (hkeys : DistinctKeys (networks ++ others))
    (haccepted : ∀ k ∈ networks ++ others, AcceptedAlone k)
    (hnetworks : ∀ k ∈ networks, sectionOf k = some .network)
    (hothers : ∀ k ∈ others, sectionOf k ≠ some .network) :
    ∃ spec, parseSpecFromNode (.map (networks ++ others)) = .ok spec := by
  have hparts : ∀ s, ∃ x, (networks ++ others).foldlM (onSection s) (parts {} s) = .ok x := by
    intro s
    by_cases hoptions : s = .options
    · subst hoptions
      have hfirst : ∃ m, networks.foldlM (onSection .options) (parts {} .options) = .ok m := by
        refine exists_foldlM_eq_ok (P := fun l m => (∀ k ∈ l, k ∈ networks) ∧ Mild m) ?_
          ⟨fun _ hk => hk, mild_empty⟩
        rintro b l m ⟨hsub, hmild⟩
        have hb := hsub b (by simp)
        obtain ⟨x, hx⟩ := acceptedAlone_iff.mp (haccepted b (List.mem_append_left _ hb)) .options
        rw [onSection_network (hnetworks b hb), network_eq_ok] at hx
        refine ⟨setAuto m, ?_, fun k hk => hsub k (List.mem_cons_of_mem b hk), mild_setAuto m⟩
        rw [onSection_network (hnetworks b hb), network_eq_ok]
        exact ⟨hx.1, hmild, rfl⟩
      obtain ⟨m, hm⟩ := hfirst
      have hrest : ∃ t, others.foldlM (onSection .options) m = .ok t := by
        refine exists_foldlM_eq_ok (P := fun l _ => ∀ k ∈ l, k ∈ others) ?_ (fun _ hk => hk)
        intro b l m' hsub
        have hb := hsub b (by simp)
        have halone := haccepted b (List.mem_append_right _ hb)
        obtain ⟨sb, hsb⟩ := halone.sectionOf
        have hne : sb ≠ .network := fun h => hothers b hb (h ▸ hsb)
        obtain ⟨t, ht⟩ := exists_onSection_options hsb hne halone m'
        exact ⟨t, ht, fun k hk => hsub k (List.mem_cons_of_mem b hk)⟩
      obtain ⟨t, ht⟩ := hrest
      refine ⟨t, ?_⟩
      rw [List.foldlM_append, hm, ok_bind]
      exact ht
    · exact exists_foldlM_part hoptions hkeys haccepted
  choose p hp using hparts
  refine ⟨ofParts p, parseSpecFromNode_eq_ok.mpr ?_⟩
  rw [parts_ofParts]
  exact hp

/-! ## What independence of the order says about a document -/

omit yaml in
theorem DistinctKeys.ne_of_mem {doc : List Entry} (h : DistinctKeys doc) {k k' : Entry}
    (hk : k ∈ doc) (hk' : k' ∈ doc) (hne : k ≠ k') : k.1 ≠ k'.1 :=
  fun heq => hne (List.inj_on_of_nodup_map h hk hk' heq)

theorem spellings_of_orderIndependent {doc : List Entry} (hkeys : DistinctKeys doc)
    (haccepted : ∀ k ∈ doc, AcceptedAlone k) (h : OrderIndependent doc) {k k' : Entry}
    (hk : k ∈ doc) (hk' : k' ∈ doc) (hne : k ≠ k') {s : Section} (hs : sectionOf k = some s)
    (hs' : sectionOf k' = some s) :
    ∃ x, readSection s k.2 (parts {} s) = .ok x ∧ readSection s k'.2 (parts {} s) = .ok x := by
  have hdiff := hkeys.ne_of_mem hk hk' hne
  have hsingle : s.keys.length ≠ 1 := fun hone => hdiff (eq_of_single_spelling hs hs' hone)
  have hoptions : s ≠ .options := by
    rintro rfl
    exact hsingle rfl
  have hnetwork : s ≠ .network := by
    rintro rfl
    exact hsingle rfl
  let isNetwork : Entry → Bool := fun k => sectionOf k = some .network
  have hother : ∀ {k : Entry}, k ∈ doc → sectionOf k = some s →
      k ∈ doc.filter (fun k => !isNetwork k) := by
    intro k hk hs
    simp [isNetwork, hk, hs, hnetwork]
  obtain ⟨rest, hrest⟩ := exists_perm_append_pair (hother hk hs) (hother hk' hs') hne
  have hsplit : (doc.filter isNetwork ++ doc.filter (fun k => !isNetwork k)).Perm doc :=
    List.filter_append_perm isNetwork doc
  have hfirst : doc.Perm (doc.filter isNetwork ++ (rest ++ [k, k'])) :=
    hsplit.symm.trans (hrest.append_left _)
  have hsecond : doc.Perm (doc.filter isNetwork ++ (rest ++ [k', k])) :=
    hfirst.trans (((List.Perm.swap k' k []).append_left rest).append_left _)
  obtain ⟨spec, hspec⟩ := exists_parse_of_networkFirst (hkeys.perm hfirst)
    (fun b hb => haccepted b (hfirst.mem_iff.mpr hb))
    (fun b hb => by simpa [isNetwork] using (List.mem_filter.mp hb).2)
    (fun b hb => by simpa [isNetwork] using (List.mem_filter.mp (hrest.mem_iff.mpr hb)).2)
  have hspec' := (h _ hsecond spec).mp ((h _ hfirst spec).mpr hspec)
  -- The last of the two spellings decides, and it is another one in the two orders.
  have hlast : ∀ {a b : Entry}, sectionOf b = some s →
      parseSpecFromNode (.map (doc.filter isNetwork ++ (rest ++ [a, b]))) = .ok spec →
      readSection s b.2 (parts {} s) = .ok (parts spec s) := by
    intro a b hb hparse
    have hrun := parseSpecFromNode_eq_ok.mp hparse s
    have hassoc : doc.filter isNetwork ++ (rest ++ [a, b]) =
        (doc.filter isNetwork ++ (rest ++ [a])) ++ [b] := by simp
    rw [hassoc] at hrun
    obtain ⟨x, -, hx⟩ := exists_of_foldlM_snoc hrun
    rw [onSection_self hb hoptions] at hx
    rw [readSection_congr hs hs' hdiff b.2 _ x]
    exact hx
  exact ⟨parts spec s, hlast hs hspec', hlast hs' hspec⟩

theorem network_of_orderIndependent {doc : List Entry} (hkeys : DistinctKeys doc)
    (haccepted : ∀ k ∈ doc, AcceptedAlone k) (h : OrderIndependent doc) {k k' : Entry}
    (hk : k ∈ doc) (hk' : k' ∈ doc) (hs : sectionOf k = some .network)
    (hs' : sectionOf k' = some .options) : keepsAuto k'.2 = true := by
  have hne : k' ≠ k := by
    rintro rfl
    rw [hs] at hs'
    contradiction
  obtain ⟨rest, hrest⟩ := exists_perm_append_pair hk' hk hne
  have hfirst : doc.Perm ([k] ++ (rest ++ [k'])) := by
    refine hrest.trans (List.Perm.trans ?_ List.perm_append_comm)
    rw [List.append_assoc]
    rfl
  have hdistinct := hkeys.perm hfirst
  -- No other entry is called `network` or `options`.
  have hlight : ∀ b ∈ rest, ∃ s, sectionOf b = some s ∧ s ≠ .options ∧ s ≠ .network := by
    intro b hb
    have hbdoc : b ∈ doc := hrest.mem_iff.mpr (List.mem_append_left _ hb)
    obtain ⟨s, hsb⟩ := (haccepted b hbdoc).sectionOf
    have hkeysRest := hkeys.perm hrest
    rw [DistinctKeys, List.map_append] at hkeysRest
    have hdisjoint := List.disjoint_of_nodup_append hkeysRest (List.mem_map_of_mem hb)
    refine ⟨s, hsb, ?_, ?_⟩
    · rintro rfl
      exact hdisjoint (by simp [eq_of_single_spelling hsb hs' rfl])
    · rintro rfl
      exact hdisjoint (by simp [eq_of_single_spelling hsb hs rfl])
  obtain ⟨spec, hspec⟩ := exists_parse_of_networkFirst hdistinct
    (fun b hb => haccepted b (hfirst.mem_iff.mpr hb))
    (fun b hb => by
      obtain rfl := List.mem_singleton.mp hb
      exact hs)
    (fun b hb => by
      rcases List.mem_append.mp hb with hb | hb
      · obtain ⟨s, hsb, -, hnetwork⟩ := hlight b hb
        rw [hsb]
        exact fun hcontra => hnetwork (Option.some.inj hcontra)
      · obtain rfl := List.mem_singleton.mp hb
        rw [hs']
        simp)
  have hspec' := (h _ hrest spec).mp ((h _ hfirst spec).mpr hspec)
  -- With `network` last the mode is `auto`, so it is as well with `options` last.
  have hauto : (netDetails (parts spec .options)).mode = .auto := by
    have hrun := parseSpecFromNode_eq_ok.mp hspec' .options
    have hassoc : rest ++ [k', k] = (rest ++ [k']) ++ [k] := by simp
    rw [hassoc] at hrun
    obtain ⟨m, -, hm⟩ := exists_of_foldlM_snoc hrun
    rw [onSection_network hs, network_eq_ok] at hm
    rw [hm.2.2, netDetails_setAuto]
  have hrun := parseSpecFromNode_eq_ok.mp hspec .options
  rw [← List.append_assoc] at hrun
  obtain ⟨m, hm, hlast⟩ := exists_of_foldlM_snoc hrun
  rw [onSection_options hs', options_eq_ok] at hlast
  obtain ⟨update, hread, hupdate⟩ := hlast
  have hreached : (netDetails m).mode = .auto := by
    rw [List.foldlM_append] at hm
    obtain ⟨m', hm', hm⟩ := bind_eq_ok.mp hm
    have hstart : (netDetails m').mode = .auto := by
      obtain ⟨m₀, -, hm₀⟩ := exists_of_foldlM_snoc (l := []) hm'
      rw [onSection_network hs, network_eq_ok] at hm₀
      rw [hm₀.2.2, netDetails_setAuto]
    refine Post.foldlM (Q := fun m => (netDetails m).mode = .auto) ?_ hstart m hm
    intro b hb m hmode
    obtain ⟨s, hsb, hoptions, hnetwork⟩ := hlight b hb
    obtain ⟨g, hg, hnet, -⟩ := onSection_light hsb hoptions hnetwork
    rw [hg]
    exact Post.ok (by rw [hnet, hmode])
  rw [← hupdate] at hauto
  exact (readOptions_mode hread hreached).mp hauto

/--
For a document with distinct keys the order does not matter exactly when it
has an entry that is rejected by itself, or when no two entries disturb each
other.
-/
theorem orderIndependent_iff {doc : List Entry} (hkeys : (doc.map Prod.fst).Nodup) :
    OrderIndependent doc ↔ (∃ k ∈ doc, ¬AcceptedAlone k) ∨ Undisturbed doc := by
  constructor
  · intro h
    by_cases haccepted : ∀ k ∈ doc, AcceptedAlone k
    · right
      constructor
      · intro k hk k' hk' s hs hs' x
        by_cases hsame : k = k'
        · rw [hsame]
        · obtain ⟨y, hy, hy'⟩ :=
            spellings_of_orderIndependent hkeys haccepted h hk hk' hsame hs hs'
          rw [hy, hy']
      · intro k hk k' hk' hs hs'
        exact network_of_orderIndependent hkeys haccepted h hk hk' hs hs'
    · left
      simpa using haccepted
  · rintro (⟨k, hk, hrejected⟩ | hdoc)
    · intro doc' hperm spec
      constructor
      · intro hparse
        exact absurd (acceptedAlone_of_parse hkeys hparse hk) hrejected
      · intro hparse
        exact absurd (acceptedAlone_of_parse (DistinctKeys.perm hperm hkeys) hparse
          (hperm.mem_iff.mp hk)) hrejected
    · exact Undisturbed.orderIndependent hkeys hdoc

/-- `network: auto`, options that set the mode to `auto` as well, and `x11`. -/
def autoDoc : List Entry :=
  [(.scalar "network", .scalar "auto"),
    (.scalar "options", .map [(.scalar "net", .map [(.scalar "mode", .scalar "auto")])]),
    (.scalar "x11", .map [(.scalar "mode", .scalar "shared")])]

omit yaml in
theorem autoDoc_orderIndependent :
    (autoDoc.map Prod.fst).Nodup ∧ @OrderIndependent plainYaml autoDoc := by
  let _ := plainYaml
  have hkeys : (autoDoc.map Prod.fst).Nodup := by simp [autoDoc]
  have hsections : autoDoc.map sectionOf = [some .network, some .options, some .x11] := by decide
  refine ⟨hkeys, (orderIndependent_iff hkeys).mpr (.inr ⟨?_, ?_⟩)⟩
  · intro k hk k' hk' s hs hs' x
    have hsame : k = k' := by
      have hnodup : (autoDoc.map sectionOf).Nodup := by
        rw [hsections]
        decide
      exact List.inj_on_of_nodup_map hnodup hk hk' (hs.trans hs'.symm)
    rw [hsame]
  · intro k hk k' hk' hs hs'
    have hall : ∀ b ∈ autoDoc, sectionOf b = some .options → keepsAuto b.2 = true := by
      simp only [autoDoc, List.mem_cons, List.not_mem_nil, or_false, forall_eq_or_imp, forall_eq]
      decide
    exact hall k' hk' hs'

/-- `network: auto` and the list form of the options. -/
def autoListDoc : List Entry :=
  [(.scalar "network", .scalar "auto"), (.scalar "options", .sequence [.scalar "net"])]

omit yaml in
/-- The list form of the options takes the mode back when it comes second. -/
theorem autoListDoc_orderDependent :
    (autoListDoc.map Prod.fst).Nodup ∧ ¬@OrderIndependent plainYaml autoListDoc := by
  let _ := plainYaml
  have hkeys : (autoListDoc.map Prod.fst).Nodup := by simp [autoListDoc]
  refine ⟨hkeys, fun h => ?_⟩
  have haccepted : ∀ k ∈ autoListDoc, AcceptedAlone k := by
    simp only [autoListDoc, List.mem_cons, List.not_mem_nil, or_false, forall_eq_or_imp, forall_eq]
    exact ⟨⟨_, rfl⟩, ⟨_, rfl⟩⟩
  have hnetwork : sectionOf (.scalar "network", .scalar "auto") = some .network := by decide
  have hoptions : sectionOf (.scalar "options", .sequence [.scalar "net"]) = some .options := by
    decide
  have hkeeps := network_of_orderIndependent hkeys haccepted h (by simp [autoListDoc])
    (by simp [autoListDoc]) hnetwork hoptions
  contradiction

end Crate.SpecParser
