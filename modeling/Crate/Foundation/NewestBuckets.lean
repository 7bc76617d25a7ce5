import Mathlib

/-!
# The newest of each of the newest buckets

A finite set of entries, each with a time and a bucket.  From a bucket its newest
entry is taken, and only from the `n` buckets that have been used last.  When the
entries that are taken stay, it makes no difference which of the others go.
-/

namespace Crate.Foundation

variable {α τ κ : Type} [LinearOrder τ] [DecidableEq κ] (time : α → τ) (bucket : α → κ)

/-- The buckets of the entries that are newer than `t`. -/
def bucketsAfter (entries : Finset α) (t : τ) : Finset κ :=
  (entries.filter (fun a => t < time a)).image bucket

structure Taken (n : Nat) (entries : Finset α) (a : α) : Prop where
  mem : a ∈ entries
  newest : ∀ b ∈ entries, bucket b = bucket a → time b ≤ time a
  recent : (bucketsAfter time bucket entries (time a)).card < n

variable {time bucket} {n : Nat} {entries kept : Finset α} {a : α} {t : τ} {k : κ}

theorem mem_bucketsAfter_iff :
    k ∈ bucketsAfter time bucket entries t ↔ ∃ a ∈ entries, t < time a ∧ bucket a = k := by
  simp [bucketsAfter, and_assoc]

theorem bucketsAfter_subset (hkept : kept ⊆ entries) :
    bucketsAfter time bucket kept t ⊆ bucketsAfter time bucket entries t :=
  Finset.image_subset_image (Finset.filter_subset_filter _ hkept)

/-- With fewer entries, one that stays is still taken. -/
theorem Taken.of_subset (h : Taken time bucket n entries a) (hkept : kept ⊆ entries)
    (ha : a ∈ kept) : Taken time bucket n kept a := by
  refine ⟨ha, ?_, ?_⟩
  · intro b hb
    exact h.newest b (hkept hb)
  · exact lt_of_le_of_lt (Finset.card_le_card (bucketsAfter_subset hkept)) h.recent

/-- Behind fewer than `n` buckets no bucket has been lost. -/
theorem bucketsAfter_eq (hkept : kept ⊆ entries)
    (htaken : ∀ a, Taken time bucket n entries a → a ∈ kept)
    (hcard : (bucketsAfter time bucket kept t).card < n) :
    bucketsAfter time bucket kept t = bucketsAfter time bucket entries t := by
  refine (bucketsAfter_subset hkept).antisymm ?_
  by_contra hlost
  -- the newest entry of a bucket that has been lost
  let lost := entries.filter
    (fun a => t < time a ∧ bucket a ∉ bucketsAfter time bucket kept t)
  have hne : lost.Nonempty := by
    obtain ⟨k, hk, hout⟩ := Finset.not_subset.mp hlost
    obtain ⟨a, ha, hafter, rfl⟩ := mem_bucketsAfter_iff.mp hk
    exact ⟨a, Finset.mem_filter.mpr ⟨ha, hafter, hout⟩⟩
  obtain ⟨a, ha, hmax⟩ := lost.exists_max_image time hne
  obtain ⟨hain, hafter, hout⟩ := Finset.mem_filter.mp ha
  have hnewer : ∀ b ∈ entries, time a < time b →
      bucket b ∈ bucketsAfter time bucket kept t := by
    intro b hb hlt
    by_contra hb'
    exact absurd (hmax b (Finset.mem_filter.mpr ⟨hb, hafter.trans hlt, hb'⟩)) (not_le.mpr hlt)
  have htake : Taken time bucket n entries a := by
    refine ⟨hain, ?_, ?_⟩
    · intro b hb hsame
      by_contra hlt
      exact hout (hsame ▸ hnewer b hb (not_le.mp hlt))
    · refine lt_of_le_of_lt (Finset.card_le_card ?_) hcard
      intro k hk
      obtain ⟨b, hb, hlt, rfl⟩ := mem_bucketsAfter_iff.mp hk
      exact hnewer b hb hlt
  exact hout (mem_bucketsAfter_iff.mpr ⟨a, htaken a htake, hafter, rfl⟩)

/-- When every entry that is taken stays, no other one is taken in its place. -/
theorem taken_iff (hkept : kept ⊆ entries)
    (htaken : ∀ a, Taken time bucket n entries a → a ∈ kept) :
    Taken time bucket n kept a ↔ Taken time bucket n entries a := by
  constructor
  · intro h
    have hsame := bucketsAfter_eq hkept htaken h.recent
    refine ⟨hkept h.mem, ?_, hsame ▸ h.recent⟩
    intro b hb hbucket
    by_contra hlt
    have hin : bucket a ∈ bucketsAfter time bucket kept (time a) := by
      rw [hsame]
      exact mem_bucketsAfter_iff.mpr ⟨b, hb, not_le.mp hlt, hbucket⟩
    obtain ⟨c, hc, hnewer, hcbucket⟩ := mem_bucketsAfter_iff.mp hin
    exact absurd (h.newest c hc hcbucket) (not_le.mpr hnewer)
  · intro h
    exact h.of_subset hkept (htaken a h)

end Crate.Foundation
