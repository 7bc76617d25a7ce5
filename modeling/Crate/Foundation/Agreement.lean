import Mathlib

/-!
# Agreement of two fallible computations

Two implementations of one sequence of reads.  The first may fail where the
second succeeds.  `Paired` describes one read, `Agrees` a whole sequence: when
the second implementation succeeds, and when the two have the same outcome.
The rules build the conditions of a sequence from those of its reads.
-/

namespace Crate.Foundation

variable {ε α β : Type}

/-- One read: the first implementation fails unless `clean`. -/
structure Paired (supplied clean : Prop) (first second : Except ε α) : Prop where
  isOk_iff : (∃ x, second = .ok x) ↔ supplied
  of_clean : clean → first.toOption = second.toOption
  of_not_clean : ¬clean → first.toOption = none

/-- A sequence of reads: equal outcomes, except where the second one is complete and not clean. -/
structure Agrees (complete clean : Prop) (first second : Except ε α) : Prop where
  isOk_iff : (∃ x, second = .ok x) ↔ complete
  same_iff : first.toOption = second.toOption ↔ (complete → clean)

theorem toOption_eq_none_iff {x : Except ε α} : x.toOption = none ↔ ¬∃ a, x = .ok a := by
  cases x <;> simp [Except.toOption]

theorem toOption_eq_some_iff {x : Except ε α} {a : α} : x.toOption = some a ↔ x = .ok a := by
  cases x <;> simp [Except.toOption]

namespace Paired

variable {c q c' q' : Prop} {w n : Except ε α} {wk nk : α → Except ε β}

theorem ok (a : α) : Paired True True (Except.ok a : Except ε α) (.ok a) :=
  ⟨by simp, by simp, by simp⟩

theorem refl (w : Except ε α) : Paired (∃ x, w = .ok x) True w w :=
  ⟨Iff.rfl, fun _ => rfl, by simp⟩

theorem congr (h : Paired c q w n) (hc : c ↔ c') (hq : q ↔ q') : Paired c' q' w n := by
  rwa [← propext hc, ← propext hq]

theorem bind (h : Paired c q w n) (hk : ∀ x, Paired c' q' (wk x) (nk x)) :
    Paired (c ∧ c') (q ∧ q') (w >>= wk) (n >>= nk) := by
  refine ⟨?_, ?_, ?_⟩
  · rw [← h.isOk_iff]
    cases n with
    | error e => simp [Bind.bind, Except.bind]
    | ok x => simpa [Bind.bind, Except.bind] using (hk x).isOk_iff
  · rintro ⟨hq, hq'⟩
    have hsame := h.of_clean hq
    cases n with
    | error e =>
        cases w with
        | error e' => rfl
        | ok y => simp [Except.toOption] at hsame
    | ok x =>
        rw [toOption_eq_some_iff.mp hsame]
        exact (hk x).of_clean hq'
  · intro hclean
    cases w with
    | error e => rfl
    | ok x =>
        have hq : q := by
          by_contra hq
          simpa [Except.toOption] using h.of_not_clean hq
        exact (hk x).of_not_clean (fun hq' => hclean ⟨hq, hq'⟩)

end Paired

namespace Agrees

theorem ok (a : α) : Agrees True True (Except.ok a : Except ε α) (.ok a) :=
  ⟨by simp, by simp⟩

theorem congr {c c' q q' : Prop} {w n : Except ε α} (h : Agrees c q w n) (hc : c ↔ c')
    (hq : q ↔ q') : Agrees c' q' w n := by
  rwa [← propext hc, ← propext hq]

theorem map {c q : Prop} {w n : Except ε α} (h : Agrees c q w n) {g : α → β}
    (hg : Function.Injective g) : Agrees c q (w.map g) (n.map g) := by
  have hmap : ∀ x : Except ε α, (x.map g).toOption = x.toOption.map g := by
    intro x
    cases x <;> rfl
  constructor
  · rw [← h.isOk_iff]
    cases n <;> simp [Except.map]
  · rw [← h.same_iff, hmap, hmap]
    exact (Option.map_injective hg).eq_iff

variable {c q c' q' : Prop} {w n : Except ε α} {wk nk : α → Except ε β}

/-- A read whose failure ends the first implementation. -/
theorem bind (h : Paired c q w n) (hk : ∀ x, n = .ok x → Agrees c' q' (wk x) (nk x)) :
    Agrees (c ∧ c') (q ∧ q') (w >>= wk) (n >>= nk) := by
  cases n with
  | error e =>
      have hc : ¬c := by
        rw [← h.isOk_iff]
        simp
      have hw : w.toOption = none := by
        by_cases hq : q
        · exact h.of_clean hq
        · exact h.of_not_clean hq
      cases w with
      | ok x => simp [Except.toOption] at hw
      | error e' =>
          constructor
          · simp [hc, Bind.bind, Except.bind]
          · simp [hc, Bind.bind, Except.bind, Except.toOption]
  | ok x =>
      have hc : c := h.isOk_iff.mp ⟨x, rfl⟩
      have hnext := hk x rfl
      constructor
      · simpa [hc, Bind.bind, Except.bind] using hnext.isOk_iff
      · by_cases hq : q
        · have hw : w = .ok x := toOption_eq_some_iff.mp (h.of_clean hq)
          subst hw
          simpa [hc, hq, Bind.bind, Except.bind] using hnext.same_iff
        · have hw := toOption_eq_none_iff.mp (h.of_not_clean hq)
          cases w with
          | ok y => exact absurd ⟨y, rfl⟩ hw
          | error e =>
              have hnone : (Except.error e >>= wk : Except ε β).toOption = none := rfl
              simp only [hnone, hc, hq, true_and, false_and, imp_false]
              rw [eq_comm, toOption_eq_none_iff, ← hnext.isOk_iff]
              rfl

/-- The two go on with values that the result tells apart. -/
theorem ofValues {y x : α} (hinj : ∀ y x r, wk y = .ok r → nk x = .ok r → y = x)
    (hk : ∀ x, Agrees c' q' (wk x) (nk x)) : Agrees c' (y = x ∧ q') (wk y) (nk x) := by
  refine ⟨(hk x).isOk_iff, ?_⟩
  by_cases heq : y = x
  · subst heq
    simpa using (hk y).same_iff
  · by_cases hc : c'
    · obtain ⟨r, hr⟩ := (hk x).isOk_iff.mpr hc
      have hne : ¬wk y = .ok r := fun hy => heq (hinj y x r hy hr)
      simp only [heq, false_and, hc, true_imp_iff, iff_false]
      rw [hr]
      exact fun h => hne (toOption_eq_some_iff.mp h)
    · have hy : (wk y).toOption = none := by
        rw [(hk y).same_iff.mpr (fun h => absurd h hc), toOption_eq_none_iff, (hk y).isOk_iff]
        exact hc
      have hx : (nk x).toOption = none := by
        rw [toOption_eq_none_iff, (hk x).isOk_iff]
        exact hc
      simp [hc, hx, hy]

end Agrees

end Crate.Foundation
