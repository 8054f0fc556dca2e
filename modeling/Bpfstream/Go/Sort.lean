import Mathlib.Data.List.Basic

/-!
# `sort.Slice`

`sort.Slice(x, less)` runs pattern-defeating quicksort, which sorts every run of at most twelve
elements with `insertionSortLessFunc`.  The model keeps that insertion sort as the code runs it
and, for longer slices, only what `sort.Slice` promises: a permutation of the input, sorted by
`less` when `less` is a strict weak order.  The sort is not stable.
-/

namespace Bpfstream

/-- `less` is a strict weak order: asymmetric, and its negation transitive. -/
structure StrictWeakOrder {α : Type} (less : α → α → Bool) : Prop where
  asymm : ∀ a b, less a b → less b a = false
  not_less_trans : ∀ a b c, less a b = false → less b c = false → less a c = false

/-- One pass of the inner loop of `insertionSortLessFunc`: `x`, just after the sorted prefix
(held here in reverse), is swapped down while `data.Less(j, j-1)` holds. -/
def insertRev (less : α → α → Bool) (x : α) : List α → List α
  | [] => [x]
  | y :: ys => if less x y then y :: insertRev less x ys else x :: y :: ys

/-- `insertionSortLessFunc(data, 0, n)`. -/
def insertionSort (less : α → α → Bool) (l : List α) : List α :=
  (l.foldl (fun acc x => insertRev less x acc) []).reverse

/-- `sort.Slice` on slices of `α`: insertion sort up to twelve elements, and on longer slices
some sort with the guarantee of `sort.Slice`. -/
structure SliceSort (α : Type) where
  sort : (α → α → Bool) → List α → List α
  small : ∀ less l, l.length ≤ 12 → sort less l = insertionSort less l
  perm : ∀ less l, (sort less l).Perm l
  sorted : ∀ less l, StrictWeakOrder less → (sort less l).Pairwise fun a b => less b a = false

section InsertionSort

variable {α : Type} (less : α → α → Bool)

theorem insertRev_perm (x : α) (l : List α) : (insertRev less x l).Perm (x :: l) := by
  induction l with
  | nil => rfl
  | cons y ys ih =>
    unfold insertRev
    split
    · exact (ih.cons y).trans (List.Perm.swap x y ys)
    · rfl

theorem foldl_insertRev_perm (l acc : List α) :
    (l.foldl (fun acc x => insertRev less x acc) acc).Perm (l.reverse ++ acc) := by
  induction l generalizing acc with
  | nil => rfl
  | cons x l ih =>
    rw [List.foldl_cons, List.reverse_cons, List.append_assoc]
    exact (ih _).trans ((insertRev_perm less x acc).append_left _)

theorem insertionSort_perm (l : List α) : (insertionSort less l).Perm l := by
  have h := foldl_insertRev_perm less l []
  rw [List.append_nil] at h
  exact (List.reverse_perm _).trans (h.trans (List.reverse_perm l))

variable {less}

/-- Inserting into a reversed sorted prefix keeps it sorted. -/
theorem insertRev_pairwise (h : StrictWeakOrder less) (x : α) {l : List α}
    (hl : l.Pairwise fun a b => less a b = false) :
    (insertRev less x l).Pairwise fun a b => less a b = false := by
  induction l with
  | nil => exact List.pairwise_singleton _ x
  | cons y ys ih =>
    rw [List.pairwise_cons] at hl
    unfold insertRev
    split
    · rename_i hxy
      refine List.pairwise_cons.mpr ⟨fun z hz => ?_, ih hl.2⟩
      rcases List.mem_cons.mp ((insertRev_perm less x ys).mem_iff.mp hz) with rfl | hz
      · exact h.asymm _ _ hxy
      · exact hl.1 z hz
    · rename_i hxy
      simp only [Bool.not_eq_true] at hxy
      refine List.pairwise_cons.mpr ⟨fun z hz => ?_, List.pairwise_cons.mpr hl⟩
      rcases List.mem_cons.mp hz with rfl | hz
      · exact hxy
      · exact h.not_less_trans _ _ _ hxy (hl.1 z hz)

theorem insertionSort_pairwise (h : StrictWeakOrder less) (l : List α) :
    (insertionSort less l).Pairwise fun a b => less b a = false := by
  have key : ∀ (l acc : List α), (acc.Pairwise fun a b => less a b = false) →
      (l.foldl (fun acc x => insertRev less x acc) acc).Pairwise fun a b => less a b = false := by
    intro l
    induction l with
    | nil => exact fun _ h => h
    | cons x l ih => exact fun acc hacc => ih _ (insertRev_pairwise h x hacc)
  exact List.pairwise_reverse.mpr (key l [] List.Pairwise.nil)

end InsertionSort

/-- Insertion sort alone meets the guarantee of `sort.Slice`, so the model has instances. -/
def insertionSortSlice (α : Type) : SliceSort α where
  sort := insertionSort
  small _ _ _ := rfl
  perm := insertionSort_perm
  sorted _ _ h := insertionSort_pairwise h _

end Bpfstream
