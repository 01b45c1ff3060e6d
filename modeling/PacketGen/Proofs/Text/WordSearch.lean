import PacketGen.Proofs.Text.NameChar

/-!
# Standalone words are never missed

The search for a word goes from left to right and does not look inside an occurrence it has taken.
For an arbitrary pattern that loses occurrences; for a standalone word it does not: an occurrence
reaching into it from the left would have to cover the character before it, which is no character
of a name. So what is found is exactly what is there (`mem_wordIndices`), from left to right
(`pairwise_wordIndices`), and a search for the first word with a property can be decided by looking
at the text alone (`find?_of_pairwise`, `findSome?_of_pairwise`).

Positions are told by what stands before and behind: an index is the length of a prefix.
-/

namespace PacketGen.Text

/-! ## Occurrences -/

theorem mem_occurrencesFrom {pattern cs : List Char} {covered index i : Nat}
    (h : i ∈ occurrencesFrom pattern covered index cs) :
    ∃ before after, cs = before ++ pattern ++ after ∧ i = index + before.length ∧
      covered ≤ before.length := by
  fun_induction occurrencesFrom pattern covered index cs with
  | case1 covered index hempty =>
    obtain ⟨rfl, rfl⟩ := hempty
    exact ⟨[], [], rfl, by simpa using h, Nat.le_refl 0⟩
  | case2 => exact absurd h (by simp)
  | case3 index c cs hprefix ih =>
    rcases List.mem_cons.mp h with rfl | h
    · obtain ⟨after, hafter⟩ := List.isPrefixOf_iff_prefix.mp hprefix
      exact ⟨[], after, by simp [hafter], by simp, by simp⟩
    · obtain ⟨before, after, rfl, rfl, hcovered⟩ := ih h
      exact ⟨c :: before, after, by simp, by simp; omega, by simp⟩
  | case4 index c cs _ ih =>
    obtain ⟨before, after, rfl, rfl, hcovered⟩ := ih h
    exact ⟨c :: before, after, by simp, by simp; omega, by simp⟩
  | case5 covered index c cs ih =>
    obtain ⟨before, after, rfl, rfl, hcovered⟩ := ih h
    exact ⟨c :: before, after, by simp, by simp; omega, by simpa using hcovered⟩

theorem pairwise_occurrencesFrom (pattern cs : List Char) (covered index : Nat) :
    (occurrencesFrom pattern covered index cs).Pairwise (· < ·) ∧
      ∀ i ∈ occurrencesFrom pattern covered index cs, index ≤ i := by
  fun_induction occurrencesFrom pattern covered index cs with
  | case1 => simp
  | case2 => simp
  | case3 index c cs _ ih =>
    refine ⟨List.pairwise_cons.mpr ⟨fun i hi => ih.2 i hi, ih.1⟩, fun i hi => ?_⟩
    rcases List.mem_cons.mp hi with rfl | hi
    · exact Nat.le_refl _
    · exact Nat.le_of_succ_le (ih.2 i hi)
  | case4 index c cs _ ih => exact ⟨ih.1, fun i hi => Nat.le_of_succ_le (ih.2 i hi)⟩
  | case5 covered index c cs ih => exact ⟨ih.1, fun i hi => Nat.le_of_succ_le (ih.2 i hi)⟩

/-- No occurrence that begins before a place reaches over it. -/
def Clear (pattern cs : List Char) (place : Nat) : Prop :=
  ∀ before after, cs = before ++ pattern ++ after → before.length < place →
    before.length + pattern.length ≤ place

theorem Clear.tail {pattern cs : List Char} {c : Char} {place : Nat}
    (h : Clear pattern (c :: cs) (place + 1)) : Clear pattern cs place := by
  intro before after hsplit hlt
  have hover := h (c :: before) after (by simp [hsplit]) (by simpa using hlt)
  simp only [List.length_cons] at hover
  omega

/-- An occurrence into which no earlier one reaches is found. -/
theorem mem_occurrencesFrom_of_split {pattern cs before after : List Char} {covered index : Nat}
    (hpattern : pattern ≠ []) (hsplit : cs = before ++ pattern ++ after)
    (hcovered : covered ≤ before.length) (hclear : Clear pattern cs before.length) :
    index + before.length ∈ occurrencesFrom pattern covered index cs := by
  have hstep (index n : Nat) : index + (n + 1) = index + 1 + n := by omega
  fun_induction occurrencesFrom pattern covered index cs generalizing before with
  | case1 => exact absurd hsplit.symm (by simp [hpattern])
  | case2 => exact absurd hsplit.symm (by simp [hpattern])
  | case3 index c cs hprefix ih =>
    -- What is found here covers the characters behind it, but not the ones looked for.
    cases before with
    | nil => exact List.mem_cons_self
    | cons d before =>
      obtain ⟨rfl, hcs⟩ := List.cons.inj hsplit
      obtain ⟨rest, hrest⟩ := List.isPrefixOf_iff_prefix.mp hprefix
      have hover := hclear [] rest hrest.symm (by simp)
      simp only [List.length_nil, List.length_cons] at hover
      rw [List.length_cons, hstep _ before.length]
      exact List.mem_cons_of_mem _ (ih hcs (by omega) hclear.tail)
  | case4 index c cs hprefix ih =>
    cases before with
    | nil =>
      refine absurd (List.isPrefixOf_iff_prefix.mpr ?_) hprefix
      exact ⟨after, hsplit.symm⟩
    | cons d before =>
      obtain ⟨rfl, hcs⟩ := List.cons.inj hsplit
      rw [List.length_cons, hstep _ before.length]
      exact ih hcs (Nat.zero_le _) hclear.tail
  | case5 covered index c cs ih =>
    cases before with
    | nil => exact absurd hcovered (by simp)
    | cons d before =>
      obtain ⟨rfl, hcs⟩ := List.cons.inj hsplit
      rw [List.length_cons, hstep _ before.length]
      exact ih hcs (by simpa using hcovered) hclear.tail

/-! ## Words -/

def IsWord (w : List Char) : Prop := w ≠ [] ∧ ∀ c ∈ w, isNameChar c = true

instance (w : List Char) : Decidable (IsWord w) :=
  have : Decidable (∀ c ∈ w, isNameChar c = true) := List.decidableBAll _ w
  inferInstanceAs (Decidable (_ ∧ _))

/-- Whether a text ends in a character of a name, so that a name behind it would not begin there. -/
def endsName (cs : List Char) : Bool := cs.getLast?.any isNameChar

def startsName (cs : List Char) : Bool := cs.head?.any isNameChar

/-- An occurrence with nothing of a name on either side. -/
structure Alone (before after : List Char) : Prop where
  before : endsName before = false
  after : startsName after = false

theorem endsName_append_of_ne_nil (cs : List Char) {ds : List Char} (h : ds ≠ []) :
    endsName (cs ++ ds) = endsName ds := by
  rw [endsName, endsName, List.getLast?_append]
  cases hlast : ds.getLast? with
  | none => exact absurd (List.getLast?_eq_none_iff.mp hlast) h
  | some c => rfl

theorem endsName_concat (cs : List Char) (c : Char) : endsName (cs ++ [c]) = isNameChar c := by
  rw [endsName_append_of_ne_nil cs (by simp)]
  rfl

theorem standsAlone_split (before w after : List Char) :
    standsAlone (before ++ w ++ after) before.length w.length = true ↔ Alone before after := by
  have htake : (before ++ w ++ after).take before.length = before := by simp
  have hget : (before ++ w ++ after)[before.length + w.length]? = after.head? := by
    rw [← List.length_append, List.getElem?_append_right (Nat.le_refl _), Nat.sub_self,
      List.head?_eq_getElem?]
  rw [standsAlone, htake, hget, Bool.and_eq_true, Bool.not_eq_true', Bool.not_eq_true']
  exact ⟨fun h => ⟨h.1, h.2⟩, fun h => ⟨h.1, h.2⟩⟩

theorem hasWordAt_split (before w after : List Char) :
    hasWordAt (before ++ w ++ after) before.length w = true ↔ Alone before after := by
  have hprefix : w.isPrefixOf ((before ++ w ++ after).drop before.length) = true := by
    rw [List.append_assoc, List.drop_left]
    exact List.isPrefixOf_iff_prefix.mpr (List.prefix_append _ _)
  rw [hasWordAt, hprefix, Bool.true_and, standsAlone_split]

/-- No word reaches over a place that is not in the middle of a name. -/
theorem length_le_of_endsName {w before rest b a : List Char} (hw : IsWord w)
    (hsplit : before ++ rest = b ++ w ++ a) (hends : endsName before = false)
    (hlt : b.length < before.length) : b.length + w.length ≤ before.length := by
  -- Otherwise the last character of `before` is one of the word.
  refine Nat.le_of_not_lt fun hover => ?_
  have hindex : before.length - 1 - b.length < w.length := by omega
  have hlast : before.getLast? = some w[before.length - 1 - b.length] := by
    have hright : (b ++ w ++ a)[before.length - 1]? = some w[before.length - 1 - b.length] := by
      rw [List.append_assoc, List.getElem?_append_right (by omega),
        List.getElem?_append_left hindex, List.getElem?_eq_getElem hindex]
    rw [← hsplit, List.getElem?_append_left (by omega)] at hright
    rw [List.getLast?_eq_getElem?]
    exact hright
  have hname : isNameChar w[before.length - 1 - b.length] = true := hw.2 _ (List.getElem_mem _)
  rw [endsName, hlast] at hends
  exact absurd hname (by simpa using hends)

theorem takeWhile_word {w after : List Char} (hw : ∀ c ∈ w, isNameChar c = true)
    (hafter : startsName after = false) : (w ++ after).takeWhile isNameChar = w := by
  rw [List.takeWhile_append_of_pos hw]
  cases after with
  | nil => simp
  | cons c cs =>
    have hc : isNameChar c = false := by simpa [startsName] using hafter
    rw [List.takeWhile_cons_of_neg (by simp [hc]), List.append_nil]

/-- Two standalone words of one text: one stands before the other, or they are the same. -/
theorem alone_trichotomy {v w before after b a : List Char} (hv : IsWord v) (hw : IsWord w)
    (hsplit : before ++ v ++ after = b ++ w ++ a) (halone : Alone before after)
    (halone' : Alone b a) :
    (∃ m, before = b ++ w ++ m) ∨ (b = before ∧ w = v ∧ a = after) ∨
      ∃ m, after = m ++ w ++ a := by
  rcases Nat.lt_trichotomy b.length before.length with hlt | heq | hgt
  · have hle := length_le_of_endsName hw (by rw [← List.append_assoc, hsplit]) halone.before hlt
    rw [List.append_assoc before] at hsplit
    have hbw : b ++ w <+: before ++ (v ++ after) := ⟨a, hsplit.symm⟩
    obtain ⟨m, hm⟩ := List.prefix_of_prefix_length_le hbw (List.prefix_append _ _)
      (by simpa using hle)
    exact Or.inl ⟨m, hm.symm⟩
  · rw [List.append_assoc, List.append_assoc] at hsplit
    obtain ⟨rfl, hrest⟩ := List.append_inj hsplit.symm heq
    have hword : w = v := by
      rw [← takeWhile_word hw.2 halone'.after, hrest, takeWhile_word hv.2 halone.after]
    subst hword
    exact Or.inr (Or.inl ⟨rfl, rfl, List.append_cancel_left hrest⟩)
  · have hle := length_le_of_endsName hv (by rw [← List.append_assoc, hsplit]) halone'.before hgt
    rw [List.append_assoc b] at hsplit
    have hbv : before ++ v <+: b ++ (w ++ a) := ⟨after, hsplit⟩
    obtain ⟨m, hm⟩ := List.prefix_of_prefix_length_le hbv (List.prefix_append _ _)
      (by simpa using hle)
    refine Or.inr (Or.inr ⟨m, ?_⟩)
    rw [← hm, List.append_assoc, List.append_assoc, List.append_assoc] at hsplit
    simpa using List.append_cancel_left (List.append_cancel_left hsplit)

variable {A B D w : List Char}

theorem slice_middle (A B D : List Char) :
    ((A ++ B ++ D).take (A.length + B.length)).drop A.length = B := by
  rw [← List.length_append, List.take_left, List.drop_left]

/-- What is found in a part of a text is what stands alone there. -/
theorem mem_wordIndices (hw : IsWord w) {i : Nat} :
    i ∈ wordIndices (A ++ B ++ D) A.length (A.length + B.length) w ↔
      ∃ before after, B = before ++ w ++ after ∧ i = A.length + before.length ∧
        Alone (A ++ before) (after ++ D) := by
  have hregroup (before after : List Char) :
      A ++ (before ++ w ++ after) ++ D = (A ++ before) ++ w ++ (after ++ D) := by
    simp
  rw [wordIndices, slice_middle, List.mem_filter]
  constructor
  · rintro ⟨hmem, halone⟩
    obtain ⟨before, after, rfl, rfl, -⟩ := mem_occurrencesFrom hmem
    refine ⟨before, after, rfl, rfl, ?_⟩
    rw [hregroup, ← List.length_append] at halone
    exact (standsAlone_split _ _ _).mp halone
  · rintro ⟨before, after, rfl, rfl, halone⟩
    refine ⟨mem_occurrencesFrom_of_split hw.1 rfl (Nat.zero_le _) fun b a hb hlt => ?_, ?_⟩
    · have htext : (A ++ before) ++ (w ++ (after ++ D)) = (A ++ b) ++ w ++ (a ++ D) := by
        rw [← List.append_assoc, ← hregroup, hb, hregroup]
      have hclear := length_le_of_endsName hw htext halone.before (by simpa using hlt)
      simpa [Nat.add_assoc] using hclear
    · rw [hregroup, ← List.length_append]
      exact (standsAlone_split _ _ _).mpr halone

theorem pairwise_wordIndices (text : List Char) (first last : Nat) (w : List Char) :
    (wordIndices text first last w).Pairwise (· < ·) :=
  (pairwise_occurrencesFrom _ _ _ _).1.filter _

/-! ## The first word with a property -/

theorem find?_of_pairwise {l : List Nat} (hl : l.Pairwise (· < ·)) {p : Nat → Bool} {i : Nat}
    (hi : i ∈ l) (hp : p i = true) (hfirst : ∀ j ∈ l, j < i → p j = false) :
    l.find? p = some i := by
  induction l with
  | nil => exact absurd hi (by simp)
  | cons k l ih =>
    obtain ⟨hk, hl⟩ := List.pairwise_cons.mp hl
    rcases List.mem_cons.mp hi with rfl | hi
    · rw [List.find?_cons_of_pos hp]
    · rw [List.find?_cons_of_neg (by simp [hfirst k List.mem_cons_self (hk i hi)])]
      exact ih hl hi fun j hj => hfirst j (List.mem_cons_of_mem _ hj)

theorem findSome?_of_pairwise {α : Type} {l : List Nat} (hl : l.Pairwise (· < ·))
    {f : Nat → Option α} {i : Nat} {x : α} (hi : i ∈ l) (hf : f i = some x)
    (hfirst : ∀ j ∈ l, j < i → f j = none) : l.findSome? f = some x := by
  induction l with
  | nil => exact absurd hi (by simp)
  | cons k l ih =>
    obtain ⟨hk, hl⟩ := List.pairwise_cons.mp hl
    rcases List.mem_cons.mp hi with rfl | hi
    · rw [List.findSome?_cons, hf]
    · rw [List.findSome?_cons, hfirst k List.mem_cons_self (hk i hi)]
      exact ih hl hi fun j hj => hfirst j (List.mem_cons_of_mem _ hj)

/-- What is before a place in an ascending list are the smaller ones. -/
theorem mem_of_pairwise_of_lt {as bs : List Nat} {i j : Nat}
    (h : (as ++ i :: bs).Pairwise (· < ·)) (hj : j ∈ as ++ i :: bs) (hlt : j < i) : j ∈ as := by
  obtain ⟨-, hbs, -⟩ := List.pairwise_append.mp h
  rcases List.mem_append.mp hj with hj | hj
  · exact hj
  · rcases List.mem_cons.mp hj with rfl | hj
    · exact absurd hlt (Nat.lt_irrefl j)
    · exact absurd ((List.pairwise_cons.mp hbs).1 j hj) (Nat.lt_asymm hlt)

theorem find?_eq_some_iff_of_pairwise {l : List Nat} (hl : l.Pairwise (· < ·)) {p : Nat → Bool}
    {i : Nat} : l.find? p = some i ↔ i ∈ l ∧ p i = true ∧ ∀ j ∈ l, j < i → p j = false := by
  constructor
  · intro h
    obtain ⟨hp, as, bs, rfl, has⟩ := List.find?_eq_some_iff_append.mp h
    refine ⟨by simp, hp, fun j hj hlt => ?_⟩
    simpa using has j (mem_of_pairwise_of_lt hl hj hlt)
  · rintro ⟨hi, hp, hfirst⟩
    exact find?_of_pairwise hl hi hp hfirst

theorem findSome?_eq_some_iff_of_pairwise {α : Type} {l : List Nat} (hl : l.Pairwise (· < ·))
    {f : Nat → Option α} {x : α} :
    l.findSome? f = some x ↔ ∃ i ∈ l, f i = some x ∧ ∀ j ∈ l, j < i → f j = none := by
  constructor
  · intro h
    obtain ⟨as, i, bs, rfl, hf, has⟩ := List.findSome?_eq_some_iff.mp h
    exact ⟨i, by simp, hf, fun j hj hlt => has j (mem_of_pairwise_of_lt hl hj hlt)⟩
  · rintro ⟨i, hi, hf, hfirst⟩
    exact findSome?_of_pairwise hl hi hf hfirst

/-! ## Behind blanks -/

theorem skipBlanks_split (before : List Char) {gap : List Char} {c : Char} (after : List Char)
    (hgap : ∀ d ∈ gap, isBlank d = true) (hc : isBlank c = false) :
    skipBlanks (before ++ gap ++ c :: after) before.length = before.length + gap.length := by
  rw [skipBlanks, List.append_assoc, List.drop_left, List.takeWhile_append_of_pos hgap,
    List.takeWhile_cons_of_neg (by simp [hc]), List.append_nil]

end PacketGen.Text
