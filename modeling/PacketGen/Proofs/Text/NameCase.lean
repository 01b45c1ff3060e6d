import PacketGen.Proofs.IdTable.Names

/-!
# What a change of case keeps

A name changes its case piece by piece: it is cut at underscores, or at whatever is no letter or
digit, and the pieces are written one behind the other with their first characters as capitals.
Nothing but the separators is lost on the way (`flatten_splitOnP`), so that the new name begins with
the capital of the first character that is none.

Where the separators were is known from the capitals, if all pieces begin with a letter and no two
separators stand side by side. Names in `UPPER_SNAKE` are like that (`UpperSnake`), and are read
back from their new case (`flatMap_snakeOf_upperToPascal`).
-/

namespace PacketGen.Text

/-! ## What a name begins with -/

/-- A name that is seen outside its package: letters, digits and underscores behind a capital. -/
def IsExported (name : String) : Prop :=
  ∃ c cs, name.toList = c :: cs ∧ c.isUpper = true ∧ ∀ d ∈ cs, isNameChar d = true

/-- Of a text of characters with `q`, only the first is left to look at. -/
theorem exists_eq_cons_iff {p q : Char → Bool} {cs : List Char} (h : ∀ c ∈ cs, q c = true) :
    (∃ c rest, cs = c :: rest ∧ p c = true ∧ ∀ d ∈ rest, q d = true) ↔
      ∃ c ∈ cs.head?, p c = true := by
  constructor
  · rintro ⟨c, rest, rfl, hc, -⟩
    exact ⟨c, rfl, hc⟩
  · rintro ⟨c, hhead, hc⟩
    obtain ⟨rest, rfl⟩ := List.head?_eq_some_iff.mp hhead
    exact ⟨c, rest, rfl, hc, (List.forall_mem_cons.mp h).2⟩

theorem isExported_iff {name : String} (h : ∀ c ∈ name.toList, isNameChar c = true) :
    IsExported name ↔ ∃ c ∈ name.toList.head?, c.isUpper = true :=
  exists_eq_cons_iff h

/-- The first character with `p` has `q`. -/
def FirstIs (p q : Char → Bool) (cs : List Char) : Prop :=
  ∃ front c rest, cs = front ++ c :: rest ∧ (∀ d ∈ front, p d = false) ∧ p c = true ∧ q c = true

theorem firstIs_iff {p q : Char → Bool} {cs : List Char} :
    FirstIs p q cs ↔ ∃ c ∈ cs.find? p, q c = true := by
  constructor
  · rintro ⟨front, c, rest, htext, hfront, hp, hq⟩
    refine ⟨c, List.find?_eq_some_iff_append.mpr ⟨hp, front, rest, htext, ?_⟩, hq⟩
    intro d hd
    simp [hfront d hd]
  · rintro ⟨c, hfind, hq⟩
    obtain ⟨hp, front, rest, htext, hfront⟩ := List.find?_eq_some_iff_append.mp hfind
    exact ⟨front, c, rest, htext, fun d hd => by simpa using hfront d hd, hp, hq⟩

instance (p q : Char → Bool) (cs : List Char) : Decidable (FirstIs p q cs) :=
  decidable_of_iff ((cs.find? p).any q = true) (by rw [firstIs_iff, Option.any_eq_true]; rfl)

/-! ## Pieces -/

theorem splitSeparators_eq_splitOnP (cs : List Char) :
    splitSeparators cs = cs.splitOnP fun c => !c.isAlphanum := by
  induction cs with
  | nil => rfl
  | cons c cs ih =>
    obtain ⟨s, ss, hs⟩ := List.exists_cons_of_ne_nil (List.splitOnP_ne_nil _ cs)
    rw [splitSeparators, ih, List.splitOnP_cons_eq_if_modifyHead, hs]
    rfl

theorem splitUnderscores_eq_splitOnP (cs : List Char) :
    splitUnderscores cs = cs.splitOnP (· == '_') := by
  induction cs with
  | nil => rfl
  | cons c cs ih =>
    obtain ⟨s, ss, hs⟩ := List.exists_cons_of_ne_nil (List.splitOnP_ne_nil _ cs)
    rw [splitUnderscores, ih, List.splitOnP_cons_eq_if_modifyHead, hs]
    simp

theorem flatten_splitOnP (p : Char → Bool) (cs : List Char) :
    (cs.splitOnP p).flatten = cs.filter fun c => !p c := by
  induction cs with
  | nil => simp
  | cons c cs ih =>
    rw [List.splitOnP_cons_eq_if_modifyHead, List.filter_cons, ← ih]
    by_cases hc : p c = true
    · simp [hc]
    · obtain ⟨s, ss, hs⟩ := List.exists_cons_of_ne_nil (List.splitOnP_ne_nil p cs)
      simp [hc, hs]

/-- What is written for pieces that are each capitalised begins with the capital of what they
begin with. -/
theorem head?_flatMap_of_capital {f : List Char → List Char} {ss : List (List Char)}
    (h : ∀ s ∈ ss, (f s).head? = s.head?.map Char.toUpper) :
    (ss.flatMap f).head? = ss.flatten.head?.map Char.toUpper := by
  induction ss with
  | nil => rfl
  | cons s ss ih =>
    obtain ⟨hs, hss⟩ := List.forall_mem_cons.mp h
    rw [List.flatMap_cons, List.flatten_cons, List.head?_append, List.head?_append, hs, ih hss]
    cases s.head? <;> rfl

/-! ## Camel case -/

theorem flatten_splitCase (word : List Char) (m : WordCase) (cs : List Char) :
    (splitCase word m cs).flatten = word.reverse ++ cs := by
  fun_induction splitCase word m cs with
  | case1 => rfl
  | case2 word => simp
  | case3 word m c => simp
  | case4 word m c d cs _ ih => simp [ih]
  | case5 word m c d cs _ _ ih => simp [ih]
  | case6 word m c d cs _ _ ih => simp [ih]

/-- Cutting a name into words drops its separators and nothing else. -/
theorem flatten_camelWords (name : List Char) :
    (camelWords name).flatten = name.filter Char.isAlphanum := by
  have hpiece : ∀ piece, (splitCase [] .start piece).flatten = piece :=
    fun piece => flatten_splitCase [] .start piece
  have hpieces : (camelWords name).flatten = (splitSeparators name).flatten := by
    rw [camelWords, ← List.flatMap_id, List.flatMap_assoc]
    simp only [List.flatMap_id, hpiece, List.flatMap_id']
  rw [hpieces, splitSeparators_eq_splitOnP, flatten_splitOnP]
  simp only [Bool.not_not]

/-- A name in camel case begins with the capital of the first letter or digit. -/
theorem head?_upperCamel (name : String) :
    (upperCamel name).toList.head? = (name.toList.find? Char.isAlphanum).map Char.toUpper := by
  have hword : ∀ w : List Char, (capitalWord w).head? = w.head?.map Char.toUpper := by
    intro w
    cases w <;> rfl
  rw [upperCamel, String.toList_ofList, head?_flatMap_of_capital fun w _ => hword w,
    flatten_camelWords, List.head?_filter]

/-! ## Underscores dropped -/

section

variable {s : List Char}

/-- A name of name characters begins, without its underscores, with the capital of the first
character that is none. -/
theorem head?_upperToPascal {name : String} (h : ∀ c ∈ name.toList, isNameChar c = true) :
    (upperToPascal name).toList.head? = (name.toList.find? (· != '_')).map Char.toUpper := by
  have hsegment : ∀ s ∈ splitUnderscores name.toList,
      (capitalized s).head? = s.head?.map Char.toUpper := by
    intro s hs
    cases s with
    | nil => rfl
    | cons c cs =>
      rw [capitalized_cons fun d hd => isAlphanum_of_mem_splitUnderscores h hs hd]
      rfl
  rw [upperToPascal, String.toList_ofList, head?_flatMap_of_capital hsegment,
    splitUnderscores_eq_splitOnP, flatten_splitOnP, List.head?_filter]
  rfl

theorem splitUnderscores_of_not_mem (h : '_' ∉ s) : splitUnderscores s = [s] := by
  rw [splitUnderscores_eq_splitOnP]
  refine List.splitOnP_eq_singleton fun c hc => beq_false_of_ne ?_
  rintro rfl
  exact h hc

theorem splitUnderscores_append (rest : List Char) (h : '_' ∉ s) :
    splitUnderscores (s ++ '_' :: rest) = s :: splitUnderscores rest := by
  rw [splitUnderscores_eq_splitOnP, splitUnderscores_eq_splitOnP]
  refine List.splitOnP_append_cons_of_forall_mem (fun c hc => beq_false_of_ne ?_) '_' rfl rest
  rintro rfl
  exact h hc

/-! ## Names in upper snake case -/

/-- A capital, and capitals and digits behind it. -/
def IsSegment : List Char → Prop
  | [] => False
  | c :: cs => c.isUpper = true ∧ ∀ d ∈ cs, d.isUpper = true ∨ d.isDigit = true

/-- Segments with one underscore between any two of them. -/
inductive UpperSnake : List Char → Prop
  | segment {s : List Char} : IsSegment s → UpperSnake s
  | joined {s rest : List Char} : IsSegment s → UpperSnake rest → UpperSnake (s ++ '_' :: rest)

instance : DecidablePred IsSegment
  | [] => isFalse id
  | c :: cs =>
    decidable_of_iff ((c.isUpper && cs.all fun d => d.isUpper || d.isDigit) = true)
      (by simp [IsSegment])

/-- A character as it was: a capital opened a segment, any other letter stood in one. -/
def snakeOf (c : Char) : List Char := if c.isUpper then ['_', c] else [c.toUpper]

theorem isAlphanum_of_isUpper_or_isDigit {c : Char} (h : c.isUpper = true ∨ c.isDigit = true) :
    c.isAlphanum = true := by
  rcases h with hupper | hdigit
  · have halpha : c.isAlpha = true := Bool.or_eq_true_iff.mpr (.inl hupper)
    exact Bool.or_eq_true_iff.mpr (.inl halpha)
  · exact Bool.or_eq_true_iff.mpr (.inr hdigit)

theorem snakeOf_toUpper {c : Char} (h : c.isUpper = true) : snakeOf c.toUpper = ['_', c] :=
  of_isAlphanum (p := fun c => c.isUpper = true → snakeOf c.toUpper = ['_', c]) (by decide)
    (isAlphanum_of_isUpper_or_isDigit (.inl h)) h

theorem snakeOf_toLower {c : Char} (h : c.isUpper = true ∨ c.isDigit = true) :
    snakeOf c.toLower = [c] :=
  of_isAlphanum (p := fun c => c.isUpper = true ∨ c.isDigit = true → snakeOf c.toLower = [c])
    (by decide) (isAlphanum_of_isUpper_or_isDigit h) h

namespace IsSegment

theorem isAlphanum (h : IsSegment s) : ∀ c ∈ s, c.isAlphanum = true := by
  cases s with
  | nil => exact h.elim
  | cons c cs =>
    exact List.forall_mem_cons.mpr ⟨isAlphanum_of_isUpper_or_isDigit (.inl h.1),
      fun d hd => isAlphanum_of_isUpper_or_isDigit (h.2 d hd)⟩

theorem underscore_not_mem (h : IsSegment s) : '_' ∉ s :=
  fun hmem => absurd (h.isAlphanum _ hmem) (by decide)

theorem flatMap_snakeOf (h : IsSegment s) : (capitalized s).flatMap snakeOf = '_' :: s := by
  cases s with
  | nil => exact h.elim
  | cons c cs =>
    have hrest : (cs.map Char.toLower).flatMap snakeOf = cs := by
      rw [List.flatMap_map, List.flatMap_congr fun d hd => snakeOf_toLower (h.2 d hd),
        List.flatMap_singleton']
    rw [capitalized_cons h.isAlphanum, List.flatMap_cons, snakeOf_toUpper h.1, hrest]
    rfl

end IsSegment

theorem upperSnake_intercalate {segments : List (List Char)} (hne : segments ≠ [])
    (h : ∀ s ∈ segments, IsSegment s) : UpperSnake (['_'].intercalate segments) := by
  induction segments with
  | nil => exact absurd rfl hne
  | cons s ss ih =>
    obtain ⟨hs, hss⟩ := List.forall_mem_cons.mp h
    cases ss with
    | nil =>
      rw [List.intercalate_singleton]
      exact .segment hs
    | cons s' ss =>
      rw [List.intercalate_cons_cons, List.append_assoc]
      exact .joined hs (ih (List.cons_ne_nil s' ss) hss)

/-- A name is in upper snake case if all its pieces are segments. -/
theorem upperSnake_iff (cs : List Char) :
    UpperSnake cs ↔ ∀ s ∈ splitUnderscores cs, IsSegment s := by
  constructor
  · intro h
    induction h with
    | segment hs =>
      rw [splitUnderscores_of_not_mem hs.underscore_not_mem]
      exact List.forall_mem_singleton.mpr hs
    | joined hs _ ih =>
      rw [splitUnderscores_append _ hs.underscore_not_mem]
      exact List.forall_mem_cons.mpr ⟨hs, ih⟩
  · intro h
    rw [splitUnderscores_eq_splitOnP, ← List.splitOn_eq_splitOnP] at h
    have hcs : ['_'].intercalate (cs.splitOn '_') = cs := List.intercalate_splitOn '_'
    exact hcs ▸ upperSnake_intercalate (List.splitOnP_ne_nil _ cs) h

instance : DecidablePred UpperSnake := fun cs => decidable_of_iff _ (upperSnake_iff cs).symm

/-- A name in upper snake case is read back from its new case, an underscore for every capital. -/
theorem flatMap_snakeOf_upperToPascal {name : String} (h : UpperSnake name.toList) :
    (upperToPascal name).toList.flatMap snakeOf = '_' :: name.toList := by
  rw [upperToPascal, String.toList_ofList]
  generalize name.toList = cs at h
  induction h with
  | segment hs =>
    rw [splitUnderscores_of_not_mem hs.underscore_not_mem, List.flatMap_singleton,
      hs.flatMap_snakeOf]
  | joined hs _ ih =>
    rw [splitUnderscores_append _ hs.underscore_not_mem, List.flatMap_cons, List.flatMap_append,
      hs.flatMap_snakeOf, ih, List.cons_append]

theorem upperToPascal_inj {a b : String} (ha : UpperSnake a.toList) (hb : UpperSnake b.toList)
    (h : upperToPascal a = upperToPascal b) : a = b := by
  have hname : '_' :: a.toList = '_' :: b.toList := by
    rw [← flatMap_snakeOf_upperToPascal ha, h, flatMap_snakeOf_upperToPascal hb]
  exact String.toList_inj.mp (List.cons.inj hname).2

/-- A segment that begins with a digit leaves no trace of its underscore. -/
example : ¬ UpperSnake "BLOCK_2".toList ∧ upperToPascal "BLOCK_2" = upperToPascal "BLOCK2" := by
  decide +kernel

end

end PacketGen.Text
