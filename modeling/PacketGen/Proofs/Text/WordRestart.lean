import PacketGen.Proofs.Text.WordPlace

/-!
# A search that is begun anew

A word is looked for again and again, each time behind the place where it was found last, until
the place is the one that is wanted. That comes to going through all the places which one search
finds: behind the first of them it finds what a search finds that begins there (`wordIndices_tail`),
whatever the word is, as long as it is not empty. So nothing is found twice or left out.
-/

namespace PacketGen.Text

variable {text cs w : List Char} {i first last : Nat}

theorem occurrencesFrom_add (pattern : List Char) (covered n index : Nat) (cs : List Char) :
    occurrencesFrom pattern covered (n + index) cs =
      (occurrencesFrom pattern covered index cs).map (n + ·) := by
  fun_induction occurrencesFrom pattern covered index cs with
  | case1 covered index hempty => rw [occurrencesFrom, if_pos hempty, List.map_singleton]
  | case2 covered index hempty => rw [occurrencesFrom, if_neg hempty, List.map_nil]
  | case3 index c cs hprefix ih =>
    rw [occurrencesFrom, if_pos hprefix, Nat.add_assoc, ih, List.map_cons]
  | case4 index c cs hprefix ih => rw [occurrencesFrom, if_neg hprefix, Nat.add_assoc, ih]
  | case5 covered index c cs ih => rw [occurrencesFrom, Nat.add_assoc, ih]

theorem occurrencesFrom_covered {pattern : List Char} (hpattern : pattern ≠ [])
    (covered index : Nat) (cs : List Char) : occurrencesFrom pattern covered index cs =
      occurrencesFrom pattern 0 (index + covered) (cs.drop covered) := by
  induction cs generalizing covered index with
  | nil => simp [occurrencesFrom, hpattern]
  | cons c cs ih =>
    cases covered with
    | zero => rfl
    | succ covered =>
      rw [occurrencesFrom, ih, List.drop_succ_cons, Nat.add_right_comm, Nat.add_assoc]

/-- What is found behind an occurrence is what a search finds that begins there. -/
theorem occurrencesFrom_tail {pattern : List Char} (hpattern : pattern ≠ []) {covered index : Nat}
    {before behind : List Nat}
    (h : occurrencesFrom pattern covered index cs = before ++ i :: behind) :
    behind = occurrencesFrom pattern 0 (i + pattern.length)
      (cs.drop (i + pattern.length - index)) := by
  have hpos : 0 < pattern.length := List.length_pos_iff.mpr hpattern
  have hstep {index : Nat} (c : Char) (cs : List Char) (hle : index + 1 ≤ i) :
      cs.drop (i + pattern.length - (index + 1)) =
        (c :: cs).drop (i + pattern.length - index) := by
    have hsub : i + pattern.length - index = i + pattern.length - (index + 1) + 1 := by omega
    rw [hsub, List.drop_succ_cons]
  have hle {covered index : Nat} {cs : List Char} {before : List Nat}
      (h : occurrencesFrom pattern covered index cs = before ++ i :: behind) : index ≤ i :=
    (pairwise_occurrencesFrom pattern cs covered index).2 i (h ▸ by simp)
  fun_induction occurrencesFrom pattern covered index cs generalizing before with
  | case1 covered index hempty => exact absurd hempty.2 hpattern
  | case2 => simp at h
  | case3 index c cs hprefix ih =>
    cases before with
    | nil =>
      obtain ⟨rfl, rfl⟩ := List.cons.inj h
      have hsum : index + 1 + (pattern.length - 1) = index + pattern.length := by omega
      have hdrop : (c :: cs).drop (index + pattern.length - index) =
          cs.drop (pattern.length - 1) := by
        have hsub : index + pattern.length - index = pattern.length - 1 + 1 := by omega
        rw [hsub, List.drop_succ_cons]
      rw [occurrencesFrom_covered hpattern, hsum, hdrop]
    | cons j before =>
      have htail := (List.cons.inj h).2
      rw [ih htail, hstep c cs (hle htail)]
  | case4 index c cs hprefix ih => rw [ih h, hstep c cs (hle h)]
  | case5 covered index c cs ih => rw [ih h, hstep c cs (hle h)]

/-- What is found in a part of a text is there in the text. -/
theorem occurs_of_mem (hle : first ≤ last) (hlast : last ≤ text.length)
    (h : i ∈ occurrencesFrom w 0 first (slice text first last)) :
    first ≤ i ∧ i + w.length ≤ last ∧ w <+: text.drop i := by
  obtain ⟨before, after, hsplit, rfl, -⟩ := mem_occurrencesFrom h
  have hlength := congrArg List.length hsplit
  rw [length_slice text first hlast, List.length_append, List.length_append] at hlength
  refine ⟨Nat.le_add_right _ _, by omega, after ++ text.drop last, ?_⟩
  rw [← List.drop_drop, drop_eq_append text hle, hsplit, List.append_assoc, List.append_assoc,
    List.drop_left]

theorem mem_of_wordIndices_cons {is : List Nat} (hle : first ≤ last) (hlast : last ≤ text.length)
    (h : wordIndices text first last w = i :: is) :
    first ≤ i ∧ i + w.length ≤ last ∧ w <+: text.drop i := by
  have hmem : i ∈ wordIndices text first last w := h ▸ List.mem_cons_self
  exact occurs_of_mem hle hlast (List.mem_filter.mp hmem).1

/-- **Behind the first word, a search finds what one finds that is begun there.** -/
theorem wordIndices_tail {is : List Nat} (hw : w ≠ []) (hle : first ≤ last)
    (hlast : last ≤ text.length) (h : wordIndices text first last w = i :: is) :
    is = wordIndices text (i + w.length) last w := by
  obtain ⟨hfirst, -, -⟩ := mem_of_wordIndices_cons hle hlast h
  obtain ⟨before, behind, hsplit, -, -, rfl⟩ := List.filter_eq_cons_iff.mp h
  have hsum : first + (i + w.length - first) = i + w.length := by omega
  rw [occurrencesFrom_tail hw hsplit, List.drop_drop, hsum]
  rfl

theorem findWord?_eq (text : List Char) (first last : Nat) (w : List Char) :
    findWord? text first last w =
      (occurrencesFrom w 0 first (slice text first last)).find? (standsAlone text · w.length) := by
  rw [findWord?, wordIndices, List.head?_filter]
  rfl

theorem mem_occurrencesFrom_iff_prefix {index : Nat} :
    index ∈ occurrencesFrom w 0 index cs ↔ w.isPrefixOf cs = true := by
  constructor
  · intro h
    obtain ⟨before, after, rfl, hlength, -⟩ := mem_occurrencesFrom h
    obtain rfl : before = [] := List.eq_nil_of_length_eq_zero (by omega)
    exact List.isPrefixOf_iff_prefix.mpr ⟨after, rfl⟩
  · intro h
    cases cs with
    | nil =>
      obtain rfl := List.prefix_nil.mp (List.isPrefixOf_iff_prefix.mp h)
      exact List.mem_singleton_self index
    | cons c cs =>
      rw [occurrencesFrom, if_pos h]
      exact List.mem_cons_self

/-- A word is found first where the search begins just when it stands there. -/
theorem findWord?_eq_some_first :
    findWord? text first text.length w = some first ↔ hasWordAt text first w = true := by
  have hslice : slice text first text.length = text.drop first := by
    rw [slice, List.take_length]
  rw [findWord?_eq, hslice, hasWordAt, Bool.and_eq_true]
  obtain ⟨hpairwise, hle⟩ := pairwise_occurrencesFrom w (text.drop first) 0 first
  rw [find?_eq_some_iff_of_pairwise hpairwise, mem_occurrencesFrom_iff_prefix, ← and_assoc]
  refine and_iff_left fun j hj hlt => ?_
  exact absurd (hle j hj) (Nat.not_le.mpr hlt)

end PacketGen.Text
