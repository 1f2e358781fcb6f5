import Mathlib.Data.List.Basic
import Mathlib.Data.List.Nodup

/-! # The ranges of the pieces of a list

A list that is sorted by a number is cut into pieces, and each piece is called by the first and the last
of its numbers. Two pieces are called alike only when one number fills two pieces that follow each other.

* **`spanOf`** — what a piece is called.
* **`spans_nodup_iff`** — when no two pieces are called alike. -/

namespace Ingest4x

section Ranges

variable {α : Type*} (f : α → ℕ)

/-- **The numbers of the first and the last element** of a piece. -/
def spanOf (piece : List α) : ℕ × ℕ :=
  ((piece.head?.map f).getD 0, (piece.getLast?.map f).getD 0)

variable {f}

/-- The ends of a piece are numbers of its elements. -/
theorem spanOf_mem {piece : List α} (hne : piece ≠ []) :
    (∃ a ∈ piece, f a = (spanOf f piece).1) ∧ ∃ a ∈ piece, f a = (spanOf f piece).2 := by
  refine ⟨⟨piece.head hne, List.head_mem hne, ?_⟩, ⟨piece.getLast hne, List.getLast_mem hne, ?_⟩⟩
  · simp [spanOf, List.head?_eq_some_head hne]
  · simp [spanOf, List.getLast?_eq_some_getLast hne]

/-- The numbers of a sorted piece are between its ends. -/
theorem spanOf_bounds {piece : List α} (hsorted : piece.Pairwise fun a b => f a ≤ f b) {a : α}
    (ha : a ∈ piece) : (spanOf f piece).1 ≤ f a ∧ f a ≤ (spanOf f piece).2 := by
  have hne : piece ≠ [] := List.ne_nil_of_mem ha
  constructor
  · cases piece with
    | nil => cases ha
    | cons first rest =>
      show f first ≤ f a
      rcases List.mem_cons.mp ha with rfl | ha
      · exact Nat.le_refl _
      · exact (List.pairwise_cons.mp hsorted).1 a ha
  · obtain ⟨front, last, rfl⟩ := (List.eq_nil_or_concat' piece).resolve_left hne
    have hlast : (spanOf f (front ++ [last])).2 = f last := by simp [spanOf]
    rw [hlast]
    rcases List.mem_append.mp ha with ha | ha
    · exact (List.pairwise_append.mp hsorted).2.2 a ha last (by simp)
    · obtain rfl := List.mem_singleton.mp ha
      exact Nat.le_refl _

/-- A piece with one number is called by it. -/
theorem spanOf_eq_of_constant {piece : List α} (hne : piece ≠ []) {n : ℕ} (h : ∀ a ∈ piece, f a = n) :
    spanOf f piece = (n, n) := by
  obtain ⟨⟨a, ha, hfirst⟩, b, hb, hlast⟩ := spanOf_mem (f := f) hne
  exact Prod.ext (hfirst.symm.trans (h a ha)) (hlast.symm.trans (h b hb))

/-- **No two pieces are called alike** if and only if no number fills two pieces that follow each
other. -/
theorem spans_nodup_iff {pieces : List (List α)} (hne : ∀ piece ∈ pieces, piece ≠ [])
    (hsorted : pieces.flatten.Pairwise fun a b => f a ≤ f b) :
    (pieces.map (spanOf f)).Nodup ↔ ∀ front piece next back,
      pieces = front ++ piece :: next :: back → ¬∃ n, ∀ a ∈ piece ++ next, f a = n := by
  constructor
  · rintro hnodup front piece next back rfl ⟨n, hn⟩
    have hpiece := spanOf_eq_of_constant (hne piece (by simp)) fun a ha =>
      hn a (List.mem_append_left _ ha)
    have hnext := spanOf_eq_of_constant (hne next (by simp)) fun a ha =>
      hn a (List.mem_append_right _ ha)
    rw [List.map_append, List.map_cons, List.map_cons, hpiece, hnext] at hnodup
    simp [List.nodup_append] at hnodup
  · intro h
    induction pieces with
    | nil => exact List.nodup_nil
    | cons piece rest ih =>
      rw [List.flatten_cons, List.pairwise_append] at hsorted
      obtain ⟨hpiece, hrest, hbefore⟩ := hsorted
      have hne' : ∀ piece ∈ rest, piece ≠ [] := fun piece' hmem => hne piece' (List.mem_cons_of_mem _ hmem)
      rw [List.map_cons, List.nodup_cons]
      refine ⟨?_, ih hne' hrest fun front piece' next back hsplit =>
        h (piece :: front) piece' next back (by rw [hsplit, List.cons_append])⟩
      intro hmem
      obtain ⟨other, hother, hspan⟩ := List.mem_map.mp hmem
      cases rest with
      | nil => cases hother
      | cons next back =>
        -- the last number of the piece is the first of the other, and all between are the same
        have hspan₁ : (spanOf f other).1 = (spanOf f piece).1 := congrArg Prod.fst hspan
        have hspan₂ : (spanOf f other).2 = (spanOf f piece).2 := congrArg Prod.snd hspan
        obtain ⟨⟨a, ha, hfirst⟩, b, hb, hlast⟩ := spanOf_mem (f := f) (hne piece (by simp))
        obtain ⟨⟨c, hc, hfirst'⟩, -⟩ := spanOf_mem (f := f) (hne' other hother)
        have hle : f b ≤ f c := hbefore b hb c (List.mem_flatten.mpr ⟨other, hother, hc⟩)
        have hends : (spanOf f piece).1 ≤ (spanOf f piece).2 := by
          rw [← hfirst]
          exact (spanOf_bounds hpiece ha).2
        refine h [] piece next back rfl ⟨(spanOf f piece).2, fun d hd => ?_⟩
        rcases List.mem_append.mp hd with hd | hd
        · have hbounds := spanOf_bounds hpiece hd
          omega
        · have hafter : f b ≤ f d := hbefore b hb d (List.mem_flatten.mpr ⟨next, by simp, hd⟩)
          obtain ⟨hsorted, hpairwise⟩ := List.pairwise_flatten.mp hrest
          rcases List.mem_cons.mp hother with rfl | hother
          · have hbounds := spanOf_bounds (hsorted _ List.mem_cons_self) hd
            omega
          · have hbound : f d ≤ f c := (List.pairwise_cons.mp hpairwise).1 other hother d hd c hc
            omega

end Ranges

end Ingest4x
