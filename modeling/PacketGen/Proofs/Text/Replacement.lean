import PacketGen.Proofs.Text.SplitLines
import PacketGen.Text.Occurrence

/-!
# Replacing inside of lines

A pattern that holds no line feed occurs inside of lines only, so that a text may be cut into its
lines before its occurrences are replaced, or after.
-/

namespace PacketGen.Text

variable {pattern replacement : List Char}

/-- A pattern that starts in a line ends there. -/
theorem isPrefixOf_append_feed (hfeed : '\n' ∉ pattern) (l rest : List Char) :
    pattern.isPrefixOf (l ++ '\n' :: rest) = pattern.isPrefixOf l := by
  induction pattern generalizing l with
  | nil => rfl
  | cons p ps ih =>
    have hp : p ≠ '\n' := fun heq => hfeed (heq ▸ List.mem_cons_self)
    have hps : '\n' ∉ ps := fun hmem => hfeed (List.mem_cons_of_mem p hmem)
    cases l with
    | nil =>
      have hne : (p == '\n') = false := by simpa using hp
      rw [List.nil_append, List.isPrefixOf_cons_cons, hne, Bool.false_and]
      rfl
    | cons c l =>
      rw [List.cons_append, List.isPrefixOf_cons_cons, List.isPrefixOf_cons_cons, ih hps l]

theorem replaceFrom_append_feed (hne : pattern ≠ []) (hfeed : '\n' ∉ pattern) {covered : Nat}
    (l rest : List Char) (hcovered : covered ≤ l.length) :
    replaceFrom pattern replacement covered (l ++ '\n' :: rest) =
      replaceFrom pattern replacement covered l ++
        '\n' :: replaceFrom pattern replacement 0 rest := by
  -- An occurrence that has been replaced does not reach over the end of the line.
  induction l generalizing covered with
  | nil =>
    have hzero : covered = 0 := Nat.le_zero.mp hcovered
    have hnone : pattern.isPrefixOf ('\n' :: rest) = false := by
      have hempty := isPrefixOf_append_feed hfeed [] rest
      obtain ⟨p, ps, rfl⟩ := List.exists_cons_of_ne_nil hne
      exact hempty
    rw [hzero, List.nil_append, replaceFrom, replaceFrom, hnone]
    rfl
  | cons c l ih =>
    cases covered with
    | succ covered =>
      rw [List.cons_append, replaceFrom, replaceFrom]
      exact ih (Nat.le_of_succ_le_succ hcovered)
    | zero =>
      have hline := isPrefixOf_append_feed hfeed (c :: l) rest
      rw [List.cons_append] at hline
      rw [List.cons_append, replaceFrom, replaceFrom, hline]
      by_cases hfound : pattern.isPrefixOf (c :: l) = true
      · have hlength : pattern.length ≤ l.length + 1 :=
          (List.isPrefixOf_iff_prefix.mp hfound).length_le
        rw [if_pos hfound, if_pos hfound, ih (by omega), List.append_assoc]
      · rw [if_neg hfound, if_neg hfound, ih (Nat.zero_le _)]
        rfl

/-- Replacing goes on line by line. -/
theorem replaceAll_joinLines (hne : pattern ≠ []) (hfeed : '\n' ∉ pattern)
    (ls : List (List Char)) :
    replaceAll pattern replacement (joinLines ls) =
      joinLines (ls.map (replaceAll pattern replacement)) := by
  induction ls with
  | nil => rfl
  | cons l ls ih =>
    rw [replaceAll] at ih
    rw [replaceAll, joinLines_cons, replaceFrom_append_feed hne hfeed l _ (Nat.zero_le _), ih,
      List.map_cons, joinLines_cons]
    rfl

/-- A text where a pattern has been replaced has its characters from the text and from what was put
in. -/
theorem mem_of_mem_replaceFrom {covered : Nat} {cs : List Char} {c : Char}
    (h : c ∈ replaceFrom pattern replacement covered cs) : c ∈ cs ∨ c ∈ replacement := by
  fun_induction replaceFrom pattern replacement covered cs with
  | case1 => cases h
  | case2 d cs _ ih =>
    rcases List.mem_append.mp h with h | h
    · exact Or.inr h
    · exact (ih h).imp_left (List.mem_cons_of_mem d)
  | case3 d cs _ ih =>
    rcases List.mem_cons.mp h with rfl | h
    · exact Or.inl List.mem_cons_self
    · exact (ih h).imp_left (List.mem_cons_of_mem d)
  | case4 covered d cs ih => exact (ih h).imp_left (List.mem_cons_of_mem d)

theorem not_mem_replaceAll {cs : List Char} {c : Char} (hcs : c ∉ cs)
    (hreplacement : c ∉ replacement) : c ∉ replaceAll pattern replacement cs := fun h =>
  (mem_of_mem_replaceFrom h).elim hcs hreplacement

end PacketGen.Text
