import Mathlib.Data.List.Basic

/-!
# First occurrences of a key

Tables built by "the first one seen wins" keep, of a sequence, the elements whose key no earlier
element has. `firstBy` says which these are without any table: it goes over the sequence once and
drops what repeats a key.

Two ways to look at it are needed. A table grows at its end, so `firstBy_concat` tells what one
more element does. And one sequence is kept apart by two keys at once, names and values, where the
one determines the other: `firstBy_firstBy` says that going through the finer key first changes
nothing, and `find?_firstBy` that looking up the coarser one does not notice it either.
-/

namespace PacketGen

variable {α κ μ : Type} [DecidableEq κ] [DecidableEq μ]

/-- The elements whose key no earlier element has, in order. -/
def firstBy (key : α → κ) : List α → List α
  | [] => []
  | x :: xs => x :: (firstBy key xs).filter (key · ≠ key x)

/-! ## What is kept -/

theorem firstBy_sublist (key : α → κ) (xs : List α) : (firstBy key xs).Sublist xs := by
  induction xs with
  | nil => exact List.Sublist.refl _
  | cons x xs ih => exact (List.filter_sublist.trans ih).cons_cons x

theorem firstBy_eq_nil_iff {key : α → κ} {xs : List α} : firstBy key xs = [] ↔ xs = [] := by
  cases xs <;> simp [firstBy]

theorem mem_of_mem_firstBy {key : α → κ} {xs : List α} {x : α} (h : x ∈ firstBy key xs) :
    x ∈ xs :=
  (firstBy_sublist key xs).subset h

theorem nodup_map_firstBy (key : α → κ) (xs : List α) : ((firstBy key xs).map key).Nodup := by
  induction xs with
  | nil => exact List.nodup_nil
  | cons x xs ih =>
    simp only [firstBy, List.map_cons, List.nodup_cons]
    refine ⟨?_, (List.filter_sublist.map key).nodup ih⟩
    intro hmem
    obtain ⟨y, hy, hkey⟩ := List.mem_map.mp hmem
    have hne : key y ≠ key x := by simpa using (List.mem_filter.mp hy).2
    exact hne hkey

theorem mem_map_firstBy {key : α → κ} {xs : List α} {k : κ} :
    k ∈ (firstBy key xs).map key ↔ k ∈ xs.map key := by
  induction xs with
  | nil => simp [firstBy]
  | cons x xs ih =>
    by_cases hk : k = key x
    · simp [firstBy, hk]
    · have hfilter : k ∈ ((firstBy key xs).filter (key · ≠ key x)).map key ↔
          k ∈ (firstBy key xs).map key := by
        simp only [List.mem_map, List.mem_filter, decide_eq_true_eq]
        constructor
        · rintro ⟨y, ⟨hy, -⟩, rfl⟩
          exact ⟨y, hy, rfl⟩
        · rintro ⟨y, hy, rfl⟩
          exact ⟨y, ⟨hy, hk⟩, rfl⟩
      rw [firstBy, List.map_cons, List.mem_cons, List.map_cons, List.mem_cons, hfilter, ih]

/-- One more element is kept exactly when its key is new. -/
theorem firstBy_concat (key : α → κ) (xs : List α) (x : α) :
    firstBy key (xs ++ [x]) =
      if key x ∈ xs.map key then firstBy key xs else firstBy key xs ++ [x] := by
  induction xs with
  | nil => simp [firstBy]
  | cons y ys ih =>
    rw [List.cons_append, firstBy, ih]
    by_cases hx : key x ∈ ys.map key
    · rw [if_pos hx, List.map_cons, if_pos (List.mem_cons_of_mem _ hx), firstBy]
    · rw [if_neg hx, List.filter_append, List.map_cons, firstBy]
      by_cases hxy : key x = key y
      · simp [hxy]
      · rw [if_neg (by simpa [hxy] using hx)]
        simp [hxy]

/-! ## Two keys -/

/-- A restriction by the key may be made before or after. -/
theorem firstBy_filter (key : α → κ) (p : κ → Bool) (xs : List α) :
    firstBy key (xs.filter fun x => p (key x)) = (firstBy key xs).filter fun x => p (key x) := by
  induction xs with
  | nil => rfl
  | cons x xs ih =>
    by_cases hp : p (key x) = true
    · rw [List.filter_cons, if_pos hp, firstBy, firstBy, List.filter_cons, if_pos hp, ih,
        List.filter_filter, List.filter_filter]
      simp only [Bool.and_comm]
    · rw [List.filter_cons, if_neg hp, firstBy, List.filter_cons, if_neg hp, ih,
        List.filter_filter]
      -- What the head's key removes fails `p` already.
      refine List.filter_congr fun y _ => ?_
      by_cases hy : key y = key x
      · simp [hy, hp]
      · simp [hy]

/-- Keeping the first of every finer key first changes nothing, when the finer key determines the
other. -/
theorem firstBy_firstBy {key : α → κ} {fine : α → μ} {xs : List α}
    (hfine : ∀ x ∈ xs, ∀ y ∈ xs, fine x = fine y → key x = key y) :
    firstBy key (firstBy fine xs) = firstBy key xs := by
  induction xs with
  | nil => rfl
  | cons x xs ih =>
    have hxs : ∀ y ∈ xs, ∀ z ∈ xs, fine y = fine z → key y = key z := fun y hy z hz =>
      hfine y (List.mem_cons_of_mem _ hy) z (List.mem_cons_of_mem _ hz)
    rw [firstBy, firstBy, firstBy, ← firstBy_filter key (fun k => decide (k ≠ key x)),
      ← ih hxs, ← firstBy_filter key (fun k => decide (k ≠ key x)), List.filter_filter]
    congr 2
    refine List.filter_congr fun y hy => ?_
    have hkey := hfine y (List.mem_cons_of_mem _ (mem_of_mem_firstBy hy)) x List.mem_cons_self
    by_cases hy' : fine y = fine x
    · simp [hkey hy']
    · simp [hy']

/-- The first element with a key is found among the first elements of a finer key. -/
theorem find?_firstBy (key : α → κ) (fine : α → μ) {xs : List α}
    (hfine : ∀ x ∈ xs, ∀ y ∈ xs, fine x = fine y → key x = key y) (k : κ) :
    (firstBy fine xs).find? (key · = k) = xs.find? (key · = k) := by
  induction xs with
  | nil => rfl
  | cons x xs ih =>
    have hxs : ∀ y ∈ xs, ∀ z ∈ xs, fine y = fine z → key y = key z := fun y hy z hz =>
      hfine y (List.mem_cons_of_mem _ hy) z (List.mem_cons_of_mem _ hz)
    by_cases hx : key x = k
    · simp [firstBy, hx]
    · rw [firstBy, List.find?_cons_of_neg (by simpa using hx),
        List.find?_cons_of_neg (by simpa using hx), ← ih hxs, ← List.head?_filter,
        ← List.head?_filter, List.filter_filter]
      refine congrArg List.head? (List.filter_congr fun y hy => ?_)
      have hkey := hfine y (List.mem_cons_of_mem _ (mem_of_mem_firstBy hy)) x List.mem_cons_self
      by_cases hy' : fine y = fine x
      · simp [hkey hy', hx]
      · simp [hy']

end PacketGen
