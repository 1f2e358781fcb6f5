import Mathlib.Data.List.Basic
import Mathlib.Data.List.Chain

/-! # Cutting a list greedily

A list is cut into pieces from left to right: elements are added to the open piece until a predicate of
the piece and the next element closes it.

* **`cutInto`** — the pieces.
* **`flatten_cutInto`** — they are the list.
* **`uncut_of_mem_cutInto`** — no piece could have been closed earlier.
* **`isChain_cutInto`** — a piece is closed only before an element that does not go into it. -/

namespace Ingest4x

section Greedy

variable {α : Type*} (cuts : List α → α → Bool)

/-- **The pieces of a list** after an open piece, which is closed before an element when `cuts` says
so. -/
def cutInto : List α → List α → List (List α)
  | [], piece => if piece.isEmpty then [] else [piece]
  | a :: l, piece => if cuts piece a then piece :: cutInto l [a] else cutInto l (piece ++ [a])

/-- No element of the piece but the first closes what is before it. -/
def Uncut (piece : List α) : Prop :=
  ∀ front a back, piece = front ++ a :: back → front ≠ [] → cuts front a = false

variable {cuts}

/-- The pieces are the list. -/
@[simp] theorem flatten_cutInto (l piece : List α) : (cutInto cuts l piece).flatten = piece ++ l := by
  induction l generalizing piece with
  | nil => cases piece <;> simp [cutInto]
  | cons a l ih =>
    rw [cutInto]
    split_ifs
    · rw [List.flatten_cons, ih, List.singleton_append]
    · rw [ih, List.append_assoc, List.singleton_append]

/-- The open piece is the beginning of the first one. -/
theorem cutInto_eq_cons (l : List α) {piece : List α} (hpiece : piece ≠ []) :
    ∃ back pieces, cutInto cuts l piece = (piece ++ back) :: pieces := by
  induction l generalizing piece with
  | nil =>
    refine ⟨[], [], ?_⟩
    rw [cutInto, if_neg (by simpa using hpiece), List.append_nil]
  | cons a l ih =>
    rw [cutInto]
    split_ifs
    · exact ⟨[], _, by rw [List.append_nil]⟩
    · have hne : piece ++ [a] ≠ [] := List.append_ne_nil_of_right_ne_nil _ (List.cons_ne_nil a [])
      obtain ⟨back, pieces, heq⟩ := ih hne
      exact ⟨a :: back, pieces, by rw [heq, List.append_assoc, List.singleton_append]⟩

/-- No piece is empty, where nothing closes an empty one. -/
theorem ne_nil_of_mem_cutInto (hnil : ∀ a, cuts [] a = false) (l : List α) {piece p : List α}
    (h : p ∈ cutInto cuts l piece) : p ≠ [] := by
  induction l generalizing piece with
  | nil =>
    rw [cutInto] at h
    split_ifs at h with hempty
    · cases h
    · rw [List.mem_singleton.mp h]
      simpa using hempty
  | cons a l ih =>
    rw [cutInto] at h
    split_ifs at h with hcuts
    · rcases List.mem_cons.mp h with rfl | h
      · rintro rfl
        rw [hnil a] at hcuts
        cases hcuts
      · exact ih h
    · exact ih h

theorem uncut_singleton (a : α) : Uncut cuts [a] := by
  intro front b back h hfront
  cases front with
  | nil => exact absurd rfl hfront
  | cons c front => simp at h

/-- One more element that does not close the piece. -/
theorem Uncut.concat {piece : List α} (h : Uncut cuts piece) {a : α} (hcuts : cuts piece a = false) :
    Uncut cuts (piece ++ [a]) := by
  intro front b back heq hfront
  rcases List.eq_nil_or_concat back with rfl | ⟨back, c, rfl⟩
  · obtain ⟨rfl, hb⟩ := List.append_inj' heq rfl
    cases hb
    exact hcuts
  · rw [List.concat_eq_append, ← List.cons_append, ← List.append_assoc] at heq
    exact h front b back (List.append_inj' heq rfl).1 hfront

/-- **No piece could have been closed earlier.** -/
theorem uncut_of_mem_cutInto (l : List α) {piece p : List α} (hpiece : Uncut cuts piece)
    (h : p ∈ cutInto cuts l piece) : Uncut cuts p := by
  induction l generalizing piece with
  | nil =>
    rw [cutInto] at h
    split_ifs at h
    · cases h
    · rw [List.mem_singleton.mp h]
      exact hpiece
  | cons a l ih =>
    rw [cutInto] at h
    split_ifs at h with hcuts
    · rcases List.mem_cons.mp h with rfl | h
      · exact hpiece
      · exact ih (uncut_singleton a) h
    · exact ih (hpiece.concat (by simpa using hcuts)) h

/-- **A piece is closed only before an element that closes it.** -/
theorem isChain_cutInto (l piece : List α) :
    (cutInto cuts l piece).IsChain fun p next => ∀ a ∈ next.head?, cuts p a = true := by
  induction l generalizing piece with
  | nil =>
    rw [cutInto]
    split_ifs
    · exact List.IsChain.nil
    · exact List.IsChain.singleton _
  | cons a l ih =>
    rw [cutInto]
    split_ifs with hcuts
    · obtain ⟨back, pieces, heq⟩ := @cutInto_eq_cons _ cuts l [a] (List.cons_ne_nil a [])
      have htail := ih [a]
      rw [heq] at htail ⊢
      refine List.isChain_cons_cons.mpr ⟨fun b hb => ?_, htail⟩
      cases hb
      exact hcuts
    · exact ih _

end Greedy

end Ingest4x
