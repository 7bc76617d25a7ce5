import Crate.Foundation.Check

/-!
# Runs over a state of independent parts

A state is a family of parts, and a step reads and writes one of them and may
fail.  A run over such a state is a family of runs, one for each part, which
do not see each other: it succeeds exactly when each of them does.

The second half is about folds that may fail.  It gives the rule by which two
orders of the same list are compared: what is left of the list and the state
reached satisfy a condition, and under that condition two neighbours may be
exchanged.
-/

namespace Crate.Foundation

namespace Parts

variable {ι : Type} [DecidableEq ι] {α : ι → Type} {ε : Type}

structure Step (α : ι → Type) (ε : Type) where
  part : ι
  act : α part → Except ε (α part)

def Step.run (step : Step α ε) (s : ∀ i, α i) : Except ε (∀ i, α i) := do
  let x ← step.act (s step.part)
  return Function.update s step.part x

/-- What a step does to one part, which is nothing unless the part is its own. -/
def Step.onPart (step : Step α ε) (i : ι) (x : α i) : Except ε (α i) :=
  if h : step.part = i then (h ▸ step.act : α i → Except ε (α i)) x else .ok x

def runAll (steps : List (Step α ε)) (s : ∀ i, α i) : Except ε (∀ i, α i) :=
  steps.foldlM (fun s step => step.run s) s

def runPart (i : ι) (steps : List (Step α ε)) (x : α i) : Except ε (α i) :=
  steps.foldlM (fun x step => step.onPart i x) x

theorem Step.onPart_of_ne {step : Step α ε} {i : ι} (h : step.part ≠ i) (x : α i) :
    step.onPart i x = .ok x := by
  rw [Step.onPart, dif_neg h]

@[simp] theorem Step.onPart_self (i : ι) (act : α i → Except ε (α i)) (x : α i) :
    (Step.mk i act).onPart i x = act x := by
  rw [Step.onPart, dif_pos rfl]

theorem Step.run_eq_ok {step : Step α ε} {s t : ∀ i, α i} :
    step.run s = .ok t ↔ ∀ i, step.onPart i (s i) = .ok (t i) := by
  obtain ⟨part, act⟩ := step
  unfold Step.run
  rw [bind_eq_ok]
  constructor
  · rintro ⟨x, hact, hupdate⟩ i
    have ht : Function.update s part x = t := by simpa using hupdate
    subst ht
    by_cases hi : part = i
    · subst hi
      rw [Step.onPart_self, Function.update_self]
      exact hact
    · rw [Step.onPart_of_ne hi, Function.update_of_ne (fun h => hi h.symm)]
  · intro hparts
    refine ⟨t part, ?_, ?_⟩
    · simpa using hparts part
    · rw [pure_eq_ok, Except.ok.injEq]
      funext i
      by_cases hi : part = i
      · subst hi
        rw [Function.update_self]
      · have hstay := hparts i
        rw [Step.onPart_of_ne hi, Except.ok.injEq] at hstay
        rw [Function.update_of_ne (fun h => hi h.symm), hstay]

omit [DecidableEq ι] in
/-- A fold over the whole state is the family of the folds over its parts. -/
theorem foldlM_eq_ok_iff_parts {β : Type} {f : (∀ i, α i) → β → Except ε (∀ i, α i)}
    {g : ∀ i, α i → β → Except ε (α i)}
    (h : ∀ s b t, f s b = .ok t ↔ ∀ i, g i (s i) b = .ok (t i))
    {l : List β} {s t : ∀ i, α i} :
    l.foldlM f s = .ok t ↔ ∀ i, l.foldlM (g i) (s i) = .ok (t i) := by
  induction l generalizing s with
  | nil =>
      simp only [List.foldlM_nil, pure_eq_ok, Except.ok.injEq]
      exact funext_iff
  | cons b rest ih =>
      simp only [List.foldlM_cons, bind_eq_ok]
      constructor
      · rintro ⟨m, hstep, hrest⟩ i
        exact ⟨m i, (h s b m).mp hstep i, ih.mp hrest i⟩
      · intro hparts
        choose m hstep hrest using hparts
        exact ⟨m, (h s b m).mpr hstep, ih.mpr hrest⟩

/-- A run succeeds exactly when the run of each part does. -/
theorem runAll_eq_ok {steps : List (Step α ε)} {s t : ∀ i, α i} :
    runAll steps s = .ok t ↔ ∀ i, runPart i steps (s i) = .ok (t i) :=
  foldlM_eq_ok_iff_parts (fun _ _ _ => Step.run_eq_ok)

end Parts

/-! ## Folds that may fail -/

section Fold

variable {σ β ε : Type} {f : σ → β → Except ε σ} {P : List β → σ → Prop}

/-- A fold succeeds when a condition on the rest and the state lets each step succeed. -/
theorem exists_foldlM_eq_ok
    (hstep : ∀ {b l s}, P (b :: l) s → ∃ s', f s b = .ok s' ∧ P l s')
    {l : List β} {s : σ} (h : P l s) : ∃ t, l.foldlM f s = .ok t := by
  induction l generalizing s with
  | nil => exact ⟨s, rfl⟩
  | cons b rest ih =>
      obtain ⟨s', hs', hrest⟩ := hstep h
      obtain ⟨t, ht⟩ := ih hrest
      refine ⟨t, ?_⟩
      rw [List.foldlM_cons, hs', ok_bind]
      exact ht

/-- Two orders of a list give the same result when neighbours may be exchanged. -/
theorem foldlM_eq_ok_of_perm
    (hperm : ∀ {l l' s}, l.Perm l' → P l s → P l' s)
    (hstep : ∀ {b l s s'}, P (b :: l) s → f s b = .ok s' → P l s')
    (hswap : ∀ {a b l s t}, P (a :: b :: l) s →
      (f s a >>= fun s' => f s' b) = .ok t → (f s b >>= fun s' => f s' a) = .ok t)
    {l l' : List β} (h : l.Perm l') {s t : σ} (hP : P l s) (hrun : l.foldlM f s = .ok t) :
    l'.foldlM f s = .ok t := by
  induction h generalizing s with
  | nil => exact hrun
  | cons b _ ih =>
      rw [List.foldlM_cons, bind_eq_ok] at hrun ⊢
      obtain ⟨s', hs', hrest⟩ := hrun
      exact ⟨s', hs', ih (hstep hP hs') hrest⟩
  | swap a b l =>
      rw [List.foldlM_cons, bind_eq_ok] at hrun
      obtain ⟨s', hfirst, hrun⟩ := hrun
      rw [List.foldlM_cons, bind_eq_ok] at hrun
      obtain ⟨s'', hsecond, hrest⟩ := hrun
      have hboth := hswap hP (bind_eq_ok.mpr ⟨s', hfirst, hsecond⟩)
      obtain ⟨m, hm, hm'⟩ := bind_eq_ok.mp hboth
      rw [List.foldlM_cons, hm, ok_bind, List.foldlM_cons, hm', ok_bind]
      exact hrest
  | trans hfirst _ ihfirst ihsecond =>
      exact ihsecond (hperm hfirst hP) (ihfirst hP hrun)

theorem exists_step_of_foldlM_eq_ok {l : List β} {s t : σ} (h : l.foldlM f s = .ok t) {b : β}
    (hb : b ∈ l) : ∃ s' s'', f s' b = .ok s'' := by
  induction l generalizing s with
  | nil => contradiction
  | cons c rest ih =>
      rw [List.foldlM_cons] at h
      obtain ⟨s', hs', hrest⟩ := bind_eq_ok.mp h
      obtain rfl | hb := List.mem_cons.mp hb
      · exact ⟨s, s', hs'⟩
      · exact ih hrest hb

/-- A fold leaves the state as it is when no step changes it. -/
theorem foldlM_eq_ok_self {l : List β} {s : σ} (h : ∀ b ∈ l, f s b = .ok s) :
    l.foldlM f s = .ok s := by
  induction l with
  | nil => rfl
  | cons b rest ih =>
      rw [List.foldlM_cons, h b (by simp), ok_bind]
      exact ih (fun c hc => h c (List.mem_cons_of_mem b hc))

theorem foldlM_congr {g : σ → β → Except ε σ} {l : List β} (h : ∀ b ∈ l, ∀ s, f s b = g s b)
    (s : σ) : l.foldlM f s = l.foldlM g s := by
  induction l generalizing s with
  | nil => rfl
  | cons b rest ih =>
      rw [List.foldlM_cons, List.foldlM_cons, h b (by simp)]
      exact bind_congr (ih (fun c hc => h c (List.mem_cons_of_mem b hc)))

theorem foldlM_filter {p : β → Bool} {l : List β} (h : ∀ b ∈ l, p b = false → ∀ s, f s b = .ok s)
    (s : σ) : (l.filter p).foldlM f s = l.foldlM f s := by
  induction l generalizing s with
  | nil => rfl
  | cons b rest ih =>
      have hrest := ih (fun c hc => h c (List.mem_cons_of_mem b hc))
      rw [List.filter_cons]
      split
      · rw [List.foldlM_cons, List.foldlM_cons]
        exact bind_congr hrest
      · rename_i hb
        rw [List.foldlM_cons, h b (by simp) (by simpa using hb) s, ok_bind]
        exact hrest s

theorem exists_of_foldlM_snoc {l : List β} {b : β} {s t : σ}
    (h : (l ++ [b]).foldlM f s = .ok t) : ∃ m, l.foldlM f s = .ok m ∧ f m b = .ok t := by
  rw [List.foldlM_append] at h
  obtain ⟨m, hm, hlast⟩ := bind_eq_ok.mp h
  rw [List.foldlM_cons] at hlast
  obtain ⟨t', ht', hnil⟩ := bind_eq_ok.mp hlast
  obtain rfl := Except.ok.inj hnil
  exact ⟨m, hm, ht'⟩

end Fold

/-- Two different members of a list may be brought to its end. -/
theorem exists_perm_append_pair {β : Type} {l : List β} {a b : β} (ha : a ∈ l) (hb : b ∈ l)
    (hne : a ≠ b) : ∃ rest, l.Perm (rest ++ [a, b]) := by
  obtain ⟨before, behind, rfl⟩ := List.append_of_mem ha
  have hb' : b ∈ before ++ behind := by
    simp only [List.mem_append, List.mem_cons] at hb ⊢
    tauto
  obtain ⟨before', behind', hsplit⟩ := List.append_of_mem hb'
  refine ⟨before' ++ behind', List.perm_middle.trans ?_⟩
  rw [hsplit]
  have hfront : (before' ++ b :: behind').Perm (b :: (before' ++ behind')) := List.perm_middle
  have hback : ([a, b] ++ (before' ++ behind')).Perm (before' ++ behind' ++ [a, b]) :=
    List.perm_append_comm
  exact (hfront.cons a).trans hback

end Crate.Foundation
