import PacketGen.Brackets

/-!
# Balanced texts

A text in which every bracket has its partner leaves the count of open brackets where it was, so a
scan passes over it as if it were not there (`closing?_append`). From that the partner of an opening
bracket is read off a text that is written around it: it is the closing bracket behind the first
balanced stretch.
-/

namespace PacketGen.Brackets

theorem braces_ne : braces.opening ≠ braces.closing := by decide

theorem parens_ne : parens.opening ≠ parens.closing := by decide

variable {α : Type}

/-- Every opening bracket has its closing one behind it, and nothing else is a bracket. -/
inductive Balanced (b : Brackets α) : List α → Prop
  | nil : Balanced b []
  | other {x : α} {xs : List α} : x ≠ b.opening → x ≠ b.closing → Balanced b xs →
      Balanced b (x :: xs)
  | block {xs ys : List α} : Balanced b xs → Balanced b ys →
      Balanced b (b.opening :: (xs ++ b.closing :: ys))

variable {b : Brackets α} {xs ys : List α}

theorem balanced_of_not_mem (hopening : b.opening ∉ xs) (hclosing : b.closing ∉ xs) :
    b.Balanced xs := by
  induction xs with
  | nil => exact .nil
  | cons x xs ih =>
    have hx : x ≠ b.opening := fun h => hopening (h ▸ List.mem_cons_self)
    have hx' : x ≠ b.closing := fun h => hclosing (h ▸ List.mem_cons_self)
    exact .other hx hx' (ih (fun h => hopening (List.mem_cons_of_mem _ h))
      fun h => hclosing (List.mem_cons_of_mem _ h))

theorem Balanced.append (hxs : b.Balanced xs) (hys : b.Balanced ys) : b.Balanced (xs ++ ys) := by
  induction hxs with
  | nil => exact hys
  | other hx hx' _ ih => exact .other hx hx' ih
  | block hin _ _ ih =>
    rw [List.cons_append, List.append_assoc, List.cons_append]
    exact .block hin ih

variable [DecidableEq α]

theorem closing?_opening (b : Brackets α) (pending : Nat) (xs : List α) :
    b.closing? pending (b.opening :: xs) = (b.closing? (pending + 1) xs).map (· + 1) := by
  rw [closing?.eq_def]
  exact if_pos rfl

theorem closing?_other {x : α} (hx : x ≠ b.opening) (hx' : x ≠ b.closing) (pending : Nat)
    (xs : List α) : b.closing? pending (x :: xs) = (b.closing? pending xs).map (· + 1) := by
  rw [closing?.eq_def]
  dsimp only
  rw [if_neg hx, if_neg hx']

theorem closing?_closing_zero (hne : b.opening ≠ b.closing) (xs : List α) :
    b.closing? 0 (b.closing :: xs) = some 0 := by
  rw [closing?.eq_def]
  dsimp only
  rw [if_neg hne.symm, if_pos rfl]

theorem closing?_closing_succ (hne : b.opening ≠ b.closing) (pending : Nat) (xs : List α) :
    b.closing? (pending + 1) (b.closing :: xs) = (b.closing? pending xs).map (· + 1) := by
  rw [closing?.eq_def]
  dsimp only
  rw [if_neg hne.symm, if_pos rfl]

/-- A scan passes over a balanced text. -/
theorem closing?_append (hne : b.opening ≠ b.closing) (hxs : b.Balanced xs) (pending : Nat)
    (rest : List α) :
    b.closing? pending (xs ++ rest) = (b.closing? pending rest).map (· + xs.length) := by
  induction hxs generalizing pending rest with
  | nil => simp
  | other hx hx' _ ih =>
    rw [List.cons_append, closing?_other hx hx', ih, Option.map_map]
    rfl
  | block _ _ ihin ihys =>
    -- Inside the block one more bracket is open, until its closing one is met.
    rw [List.cons_append, closing?_opening, List.append_assoc, ihin, List.cons_append,
      closing?_closing_succ hne, ihys, Option.map_map, Option.map_map, Option.map_map]
    congr 1
    funext n
    simp only [Function.comp_apply, List.length_cons, List.length_append]
    omega

theorem match?_of_balanced (hne : b.opening ≠ b.closing) (hxs : b.Balanced xs)
    (before after : List α) :
    b.match? (before ++ b.opening :: (xs ++ b.closing :: after)) before.length =
      some (before.length + 1 + xs.length) := by
  rw [match?, List.drop_left]
  dsimp only
  rw [if_pos rfl, closing?_append hne hxs, closing?_closing_zero hne]
  simp

/-- The block of the first opening bracket behind a place. -/
theorem findBlock_of_balanced (hne : b.opening ≠ b.closing) (hxs : b.Balanced xs)
    (before : List α) {gap : List α} (hgap : b.opening ∉ gap) (after : List α) :
    b.findBlock (before ++ (gap ++ b.opening :: (xs ++ b.closing :: after))) before.length =
      .closed (before.length + gap.length + 1) (before.length + gap.length + 1 + xs.length) := by
  have hfind : (gap ++ b.opening :: (xs ++ b.closing :: after)).findIdx? (· = b.opening) =
      some gap.length := by
    rw [List.findIdx?_append, List.findIdx?_eq_none_iff.mpr fun x hx => by
      simpa using fun h : x = b.opening => hgap (h ▸ hx)]
    simp [List.findIdx?_cons]
  have hmatch := match?_of_balanced hne hxs (before ++ gap) after
  rw [List.append_assoc, List.length_append] at hmatch
  rw [findBlock, List.drop_left, hfind]
  dsimp only
  rw [hmatch]

end PacketGen.Brackets
