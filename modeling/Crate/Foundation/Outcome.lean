import Crate.Foundation.Check

/-!
# Postconditions of computations that may fail

`Post r Q` says that the result of `r`, if there is one, satisfies `Q`.  There
is one rule for each way in which a `do` block is put together.
-/

namespace Crate.Foundation

variable {ε α β σ : Type}

def Post (r : Except ε α) (Q : α → Prop) : Prop := ∀ a, r = .ok a → Q a

namespace Post

theorem ok {Q : α → Prop} {a : α} (h : Q a) : Post (.ok a : Except ε α) Q := by
  rintro a' ha
  obtain rfl := Except.ok.inj ha
  exact h

theorem error {Q : α → Prop} {e : ε} : Post (.error e : Except ε α) Q := by
  intro a ha
  contradiction

theorem mono {r : Except ε α} {P Q : α → Prop} (h : Post r P) (hPQ : ∀ a, P a → Q a) :
    Post r Q :=
  fun a ha => hPQ a (h a ha)

theorem bind {x : Except ε α} {f : α → Except ε β} {Q : β → Prop}
    (h : ∀ a, x = .ok a → Post (f a) Q) : Post (x >>= f) Q := by
  intro b hb
  obtain ⟨a, ha, hf⟩ := bind_eq_ok.mp hb
  exact h a ha b hf

theorem ite {c : Prop} [Decidable c] {x y : Except ε α} {Q : α → Prop}
    (hthen : c → Post x Q) (helse : ¬c → Post y Q) : Post (if c then x else y) Q := by
  split
  · exact hthen ‹c›
  · exact helse ‹¬c›

theorem foldlM {f : σ → β → Except ε σ} {Q : σ → Prop} {l : List β}
    (hstep : ∀ b ∈ l, ∀ s, Q s → Post (f s b) Q) {s : σ} (h : Q s) :
    Post (l.foldlM f s) Q := by
  induction l generalizing s with
  | nil => exact ok h
  | cons b rest ih =>
      rw [List.foldlM_cons]
      refine bind (fun s' hs' => ?_)
      exact ih (fun c hc => hstep c (List.mem_cons_of_mem b hc)) (hstep b (by simp) s h s' hs')

theorem mapM {f : β → Except ε α} {Q : α → Prop} {l : List β}
    (h : ∀ b ∈ l, Post (f b) Q) : Post (l.mapM f) (fun r => ∀ a ∈ r, Q a) := by
  induction l with
  | nil => exact ok (fun _ ha => absurd ha (by simp))
  | cons b rest ih =>
      rw [List.mapM_cons]
      refine bind (fun a ha => bind (fun r hr => ok ?_))
      rintro x (_ | ⟨_, hx⟩)
      · exact h b (by simp) _ ha
      · exact ih (fun c hc => h c (List.mem_cons_of_mem b hc)) r hr x hx

end Post

theorem forM_eq_ok {f : β → Except ε Unit} {l : List β} :
    l.forM f = .ok () ↔ ∀ b ∈ l, f b = .ok () := by
  induction l with
  | nil => simp [List.forM]
  | cons b rest ih =>
      rw [List.forM, bind_eq_ok, List.forall_mem_cons, ← ih]
      constructor
      · rintro ⟨⟨⟩, hfirst, hrest⟩
        exact ⟨hfirst, hrest⟩
      · rintro ⟨hfirst, hrest⟩
        exact ⟨(), hfirst, hrest⟩

theorem mem_of_mapM_eq_ok {f : β → Except ε α} {l : List β} {r : List α} (h : l.mapM f = .ok r)
    {a : α} : a ∈ r ↔ ∃ b ∈ l, f b = .ok a := by
  induction l generalizing r with
  | nil =>
      obtain rfl := Except.ok.inj h
      simp
  | cons b rest ih =>
      rw [List.mapM_cons] at h
      obtain ⟨first, hfirst, h⟩ := bind_eq_ok.mp h
      obtain ⟨others, hothers, h⟩ := bind_eq_ok.mp h
      obtain rfl := Except.ok.inj h
      rw [List.mem_cons, ih hothers]
      simp [hfirst, eq_comm]

theorem exists_ok_of_mapM_eq_ok {f : β → Except ε α} {l : List β} {r : List α}
    (h : l.mapM f = .ok r) {b : β} (hb : b ∈ l) : ∃ a, f b = .ok a := by
  induction l generalizing r with
  | nil => cases hb
  | cons first rest ih =>
      rw [List.mapM_cons] at h
      obtain ⟨a, ha, h⟩ := bind_eq_ok.mp h
      obtain ⟨others, hothers, -⟩ := bind_eq_ok.mp h
      rcases List.mem_cons.mp hb with rfl | hrest
      · exact ⟨a, ha⟩
      · exact ih hothers hrest

theorem exists_mapM_eq_ok {f : β → Except ε α} {l : List β} (h : ∀ b ∈ l, ∃ a, f b = .ok a) :
    ∃ r, l.mapM f = .ok r := by
  induction l with
  | nil => exact ⟨[], rfl⟩
  | cons b rest ih =>
      obtain ⟨a, ha⟩ := h b (by simp)
      obtain ⟨r, hr⟩ := ih (fun c hc => h c (List.mem_cons_of_mem b hc))
      exact ⟨a :: r, by rw [List.mapM_cons, ha, ok_bind, hr]; rfl⟩

theorem mapM_eq_ok_of_forall {γ : Type} {f : β → Except ε α} {g : γ → β} {k : γ → α} {l : List γ}
    (h : ∀ c ∈ l, f (g c) = .ok (k c)) : (l.map g).mapM f = .ok (l.map k) := by
  induction l with
  | nil => rfl
  | cons c rest ih =>
      rw [List.map_cons, List.mapM_cons, h c (by simp), ok_bind,
        ih (fun d hd => h d (List.mem_cons_of_mem c hd))]
      rfl

theorem mapM_eq_some_iff {f : α → Option β} {l : List α} {r : List β} :
    l.mapM f = some r ↔ l.map f = r.map some := by
  induction l generalizing r with
  | nil =>
      rw [List.mapM_nil, List.map_nil, Option.pure_def, Option.some.injEq, eq_comm,
        eq_comm (a := []), List.map_eq_nil_iff]
  | cons a rest ih =>
      rw [List.mapM_cons, List.map_cons]
      cases ha : f a with
      | none => cases r <;> simp
      | some b =>
          cases r with
          | nil => cases rest.mapM f <;> simp
          | cons c tail =>
              rw [List.map_cons, List.cons.injEq, ← ih, Option.some.injEq]
              cases rest.mapM f <;> simp

/-! ## Steps whose success does not depend on the state -/

/-- If the step succeeds from one state, it does from every other. -/
def Indifferent (step : σ → Except ε σ) : Prop :=
  ∀ s s', step s = .ok s' → ∀ t, ∃ t', step t = .ok t'

namespace Indifferent

theorem ok (f : σ → σ) : Indifferent (fun s => (.ok (f s) : Except ε σ)) :=
  fun _ _ _ t => ⟨f t, rfl⟩

theorem error (e : ε) : Indifferent (fun _ : σ => (.error e : Except ε σ)) :=
  fun _ _ h => nomatch h

theorem ite {c : Prop} [Decidable c] {x y : σ → Except ε σ} (hx : Indifferent x)
    (hy : Indifferent y) : Indifferent (fun s => if c then x s else y s) := by
  by_cases h : c
  · simpa only [if_pos h] using hx
  · simpa only [if_neg h] using hy

theorem bind {x : Except ε α} {f : α → σ → Except ε σ} (h : ∀ a, Indifferent (f a)) :
    Indifferent (fun s => x >>= fun a => f a s) := by
  intro s s' hs t
  obtain ⟨a, ha, hf⟩ := bind_eq_ok.mp hs
  obtain ⟨t', ht⟩ := h a s s' hf t
  exact ⟨t', bind_eq_ok.mpr ⟨a, ha, ht⟩⟩

theorem foldlM_ok_iff {f : σ → β → Except ε σ} {l : List β}
    (h : ∀ b ∈ l, Indifferent (fun s => f s b)) (s : σ) :
    (∃ s', l.foldlM f s = .ok s') ↔ ∀ b ∈ l, ∃ s', f s b = .ok s' := by
  induction l generalizing s with
  | nil => simp [pure, Except.pure]
  | cons b rest ih =>
      have hrest := ih (fun c hc => h c (List.mem_cons_of_mem b hc))
      rw [List.foldlM_cons, List.forall_mem_cons]
      constructor
      · rintro ⟨s', hs'⟩
        obtain ⟨next, hnext, hfold⟩ := bind_eq_ok.mp hs'
        refine ⟨⟨next, hnext⟩, fun c hc => ?_⟩
        obtain ⟨c', hc'⟩ := (hrest next).mp ⟨s', hfold⟩ c hc
        exact h c (List.mem_cons_of_mem b hc) next c' hc' s
      · rintro ⟨⟨next, hnext⟩, hothers⟩
        obtain ⟨s', hfold⟩ := (hrest next).mpr (fun c hc => by
          obtain ⟨c', hc'⟩ := hothers c hc
          exact h c (List.mem_cons_of_mem b hc) s c' hc' next)
        exact ⟨s', bind_eq_ok.mpr ⟨next, hnext, hfold⟩⟩

theorem foldlM {f : σ → β → Except ε σ} {l : List β}
    (h : ∀ b ∈ l, Indifferent (fun s => f s b)) : Indifferent (fun s => l.foldlM f s) := by
  intro s s' hs t
  refine (foldlM_ok_iff h t).mpr (fun b hb => ?_)
  obtain ⟨s'', hs''⟩ := (foldlM_ok_iff h s).mp ⟨s', hs⟩ b hb
  exact h b hb s s'' hs'' t

end Indifferent

end Crate.Foundation
