import PacketGen.PacketClass
import PacketGen.Proofs.Brackets.Balanced
import PacketGen.Proofs.Text.Trim
import PacketGen.Proofs.Text.WordSearch

/-!
# Finding a class and its procedures in a text

Names of fields and constants are free, so the words that the search looks for can turn up anywhere:
a class may be called `extends`, a field `encode`. What tells a procedure from them is that it is
**called** what it is called: a parenthesis follows. `calls` lists what stands before the
parentheses of a text, and a procedure that nothing before it calls by name is found where it is
declared (`declaration?_of_calls`).
-/

namespace PacketGen

namespace Text

/-! ## What is called -/

/-- The name that a text ends in, blanks apart; empty when it ends in something else. -/
def callee (before : List Char) : List Char :=
  ((trimEnd before).reverse.takeWhile isNameChar).reverse

/-- The names before the parentheses of a text that has `before` in front of it. -/
def callsFrom (before : List Char) : List Char → List (List Char)
  | [] => []
  | c :: cs =>
    if c = '(' then callee before :: callsFrom (before ++ [c]) cs
    else callsFrom (before ++ [c]) cs

def calls (cs : List Char) : List (List Char) := callsFrom [] cs

/-- A text behind which a name can only begin anew. -/
structure Cut (cs : List Char) : Prop where
  ends : endsName cs = false
  callee : callee cs = []

variable {before after cs ds w : List Char} {c : Char}

theorem trimEnd_append_of_blank (cs : List Char) (hds : ∀ d ∈ ds, isBlank d = true) :
    trimEnd (cs ++ ds) = trimEnd cs :=
  dropEndWhile_append_of_all cs hds

theorem trimEnd_concat (cs : List Char) (hc : isBlank c = false) :
    trimEnd (cs ++ [c]) = cs ++ [c] :=
  List.rdropWhile_concat_neg isBlank cs c (by simp [hc])

theorem blank_or_last (cs : List Char) :
    (∀ c ∈ cs, isBlank c = true) ∨
      ∃ ds c gap, cs = ds ++ [c] ++ gap ∧ isBlank c = false ∧ ∀ d ∈ gap, isBlank d = true := by
  induction cs with
  | nil => exact Or.inl (by simp)
  | cons d cs ih =>
    rcases ih with hblank | ⟨ds, c, gap, rfl, hc, hgap⟩
    · cases hd : isBlank d with
      | true => exact Or.inl (List.forall_mem_cons.mpr ⟨hd, hblank⟩)
      | false => exact Or.inr ⟨[], d, cs, rfl, hd, hblank⟩
    · exact Or.inr ⟨d :: ds, c, gap, rfl, hc, hgap⟩

theorem callee_of_blank (hcs : ∀ c ∈ cs, isBlank c = true) : callee cs = [] := by
  have htrim : trimEnd cs = [] := List.rdropWhile_eq_nil_iff.mpr hcs
  rw [callee, htrim]
  rfl

theorem Cut.nil : Cut [] := ⟨rfl, rfl⟩

theorem Cut.of_mark (cs : List Char) (hname : isNameChar c = false) (hblank : isBlank c = false) :
    Cut (cs ++ [c]) := by
  refine ⟨by rw [endsName_concat, hname], ?_⟩
  rw [Text.callee, trimEnd_concat cs hblank, List.reverse_concat,
    List.takeWhile_cons_of_neg (by simp [hname])]
  rfl

theorem endsName_of_blank (hds : ∀ d ∈ ds, isBlank d = true) (hcs : endsName cs = false) :
    endsName (cs ++ ds) = false := by
  cases hlast : ds.getLast? with
  | none =>
    rw [List.getLast?_eq_none_iff.mp hlast, List.append_nil, hcs]
  | some d =>
    rw [endsName, List.getLast?_append, hlast]
    exact isNameChar_of_isBlank (hds d (List.mem_of_getLast? hlast))

theorem Cut.append_blank (hcs : Cut cs) (hds : ∀ d ∈ ds, isBlank d = true) : Cut (cs ++ ds) := by
  refine ⟨endsName_of_blank hds hcs.ends, ?_⟩
  rw [Text.callee, trimEnd_append_of_blank cs hds]
  exact hcs.callee

/-- Behind a cut, what is called is told without what is before it. -/
theorem callee_append (hcs : Cut cs) (ds : List Char) :
    Text.callee (cs ++ ds) = Text.callee ds := by
  rcases blank_or_last ds with hblank | ⟨ds', c, gap, rfl, hc, hgap⟩
  · rw [callee_of_blank hblank, (hcs.append_blank hblank).callee]
  · have hassoc : cs ++ (ds' ++ [c] ++ gap) = cs ++ ds' ++ [c] ++ gap := by simp
    rw [hassoc, Text.callee, Text.callee, trimEnd_append_of_blank _ hgap,
      trimEnd_append_of_blank _ hgap, trimEnd_concat _ hc, trimEnd_concat _ hc, List.append_assoc,
      List.reverse_append, List.takeWhile_append]
    split
    · next hall =>
      -- All of `ds'` is one name, and `cs` adds nothing to it.
      have hstop : cs.reverse.takeWhile isNameChar = [] := by
        cases hlast : cs.reverse with
        | nil => rfl
        | cons d _ =>
          have hd : isNameChar d = false := by
            have hends := hcs.ends
            rw [endsName, ← List.head?_reverse, hlast] at hends
            simpa using hends
          exact List.takeWhile_cons_of_neg (by simp [hd])
      have hwhole : (ds' ++ [c]).reverse.takeWhile isNameChar = (ds' ++ [c]).reverse :=
        (List.takeWhile_sublist _).eq_of_length hall
      rw [hstop, List.append_nil, hwhole]
    · rfl

theorem Cut.append (hcs : Cut cs) (hds : Cut ds) : Cut (cs ++ ds) := by
  refine ⟨?_, by rw [callee_append hcs, hds.callee]⟩
  by_cases hempty : ds = []
  · rw [hempty, List.append_nil, hcs.ends]
  · rw [endsName_append_of_ne_nil cs hempty, hds.ends]

theorem callsFrom_eq (hbefore : Cut before) (ds cs : List Char) :
    callsFrom (before ++ ds) cs = callsFrom ds cs := by
  induction cs generalizing ds with
  | nil => rfl
  | cons c cs ih => rw [callsFrom, callsFrom, callee_append hbefore, List.append_assoc, ih]

theorem callsFrom_append (before cs ds : List Char) :
    callsFrom before (cs ++ ds) = callsFrom before cs ++ callsFrom (before ++ cs) ds := by
  induction cs generalizing before with
  | nil => simp [callsFrom]
  | cons c cs ih =>
    rw [List.cons_append, callsFrom, callsFrom, ih, List.append_assoc]
    split <;> rfl

theorem calls_append (hcs : Cut cs) (ds : List Char) : calls (cs ++ ds) = calls cs ++ calls ds := by
  have hrest := callsFrom_eq hcs [] ds
  rw [List.append_nil] at hrest
  rw [calls, callsFrom_append, List.nil_append, hrest, calls, calls]

theorem callsFrom_of_not_mem (hcs : '(' ∉ cs) (before : List Char) : callsFrom before cs = [] := by
  induction cs generalizing before with
  | nil => rfl
  | cons c cs ih =>
    have hc : c ≠ '(' := fun h => hcs (h ▸ List.mem_cons_self)
    rw [callsFrom, if_neg hc, ih fun h => hcs (List.mem_cons_of_mem _ h)]

theorem calls_of_not_mem (hcs : '(' ∉ cs) : calls cs = [] := callsFrom_of_not_mem hcs []

theorem IsWord.reverse_takeWhile (hw : IsWord w) (hcs : endsName cs = false) :
    ((cs ++ w).reverse.takeWhile isNameChar).reverse = w := by
  have hname : ∀ c ∈ w.reverse, isNameChar c = true := fun c hc => hw.2 c (List.mem_reverse.mp hc)
  have hstarts : startsName cs.reverse = false := by
    rw [startsName, List.head?_reverse]
    exact hcs
  rw [List.reverse_append, takeWhile_word hname hstarts, List.reverse_reverse]

theorem callee_word (hw : IsWord w) (hcs : endsName cs = false)
    (hds : ∀ d ∈ ds, isBlank d = true) : Text.callee (cs ++ w ++ ds) = w := by
  obtain ⟨v, c, rfl⟩ : ∃ v c, w = v ++ [c] :=
    ⟨_, _, (List.dropLast_concat_getLast hw.1).symm⟩
  have hc : isBlank c = false := isBlank_of_isNameChar (hw.2 c (by simp))
  rw [Text.callee, trimEnd_append_of_blank _ hds, ← List.append_assoc, trimEnd_concat _ hc,
    List.append_assoc, hw.reverse_takeWhile hcs]

theorem callee_mem_calls (before after : List Char) :
    Text.callee before ∈ calls (before ++ '(' :: after) := by
  rw [calls, callsFrom_append, callsFrom, if_pos rfl]
  simp

/-- A name right before a parenthesis is called, and what is behind it is looked at by itself. -/
theorem calls_named (hcs : '(' ∉ cs) (hends : endsName cs = false) (hw : IsWord w)
    (rest : List Char) : calls (cs ++ w ++ '(' :: rest) = w :: calls rest := by
  have hword : '(' ∉ cs ++ w := fun h => (List.mem_append.mp h).elim hcs fun h =>
    absurd (hw.2 _ h) (by decide)
  have hcallee : callee (cs ++ w ++ []) = w := callee_word hw hends (by simp)
  rw [List.append_nil] at hcallee
  have hcut : Cut (cs ++ w ++ ['(']) := Cut.of_mark _ (by decide) (by decide)
  have hregroup : cs ++ w ++ '(' :: rest = (cs ++ w ++ ['(']) ++ rest := by simp
  rw [hregroup, calls_append hcut, calls, callsFrom_append, callsFrom_of_not_mem hword,
    List.nil_append, List.nil_append, callsFrom, if_pos rfl, hcallee]
  rfl

end Text

namespace PacketClass

open Text

/-! ## The declaration of a procedure -/

/-- A text ends in the keyword, blanks apart, just when it is the keyword with a text before and
blanks behind it. -/
theorem function_isSuffixOf_iff {cs : List Char} :
    "function".toList.isSuffixOf (trimEnd cs) = true ↔
      ∃ before gap, cs = before ++ "function".toList ++ gap ∧ ∀ c ∈ gap, isBlank c = true := by
  rw [List.isSuffixOf_iff_suffix]
  constructor
  · rintro ⟨before, hbefore⟩
    rcases blank_or_last cs with hblank | ⟨ds, c, gap, rfl, hc, hgap⟩
    · rw [trimEnd, dropEndWhile_eq_rdropWhile, List.rdropWhile_eq_nil_iff.mpr hblank] at hbefore
      exact absurd hbefore (by simp)
    · rw [trimEnd_append_of_blank _ hgap, trimEnd_concat _ hc] at hbefore
      exact ⟨before, gap, by rw [hbefore], hgap⟩
  · rintro ⟨before, gap, rfl, hgap⟩
    have hend : before ++ "function".toList = before ++ "functio".toList ++ ['n'] := by simp
    rw [trimEnd_append_of_blank _ hgap, hend, trimEnd_concat _ (by decide), ← hend]
    exact List.suffix_append before _

/-- Behind an occurrence of a name, blanks are skipped until a parenthesis. -/
theorem split_of_skipBlanks {text before w after : List Char}
    (htext : text = before ++ w ++ after)
    (hparen : text[skipBlanks text (before.length + w.length)]? = some '(') :
    ∃ gap rest, after = gap ++ '(' :: rest ∧ ∀ d ∈ gap, isBlank d = true := by
  have hindex : skipBlanks text (before.length + w.length) =
      (before ++ w).length + (after.takeWhile isBlank).length := by
    rw [skipBlanks, ← List.length_append, htext, List.drop_left]
  have hafter : after = after.takeWhile isBlank ++ after.dropWhile isBlank :=
    List.takeWhile_append_dropWhile.symm
  rw [hindex, htext, List.getElem?_append_right (by omega), Nat.add_sub_cancel_left] at hparen
  have hhead : (after.dropWhile isBlank).head? = some '(' := by
    rw [hafter, List.getElem?_append_right (by simp)] at hparen
    simpa [List.head?_eq_getElem?] using hparen
  obtain ⟨rest, hrest⟩ := List.head?_eq_some_iff.mp hhead
  refine ⟨after.takeWhile isBlank, rest, by rw [← hrest]; exact hafter, fun d hd => ?_⟩
  exact List.all_eq_true.mp (List.all_takeWhile) d hd

theorem endsName_right {A b : List Char} (h : endsName (A ++ b) = false) : endsName b = false := by
  by_cases hb : b = []
  · rw [hb]
    rfl
  · rwa [endsName_append_of_ne_nil A hb] at h

theorem not_mark_of_isWord {name rest after : List Char} {c : Char} (hname : IsWord name)
    (hc : isNameChar c = false) : name ++ rest ≠ c :: after := by
  obtain ⟨n, ns, rfl⟩ := List.exists_cons_of_ne_nil hname.1
  rintro h
  have hn : isNameChar n = true := hname.2 n List.mem_cons_self
  rw [(List.cons.inj h).1, hc] at hn
  exact absurd hn (by simp)

/-- A name followed by a parenthesis, blanks apart, and standing before another occurrence of the
name, is called before that. -/
theorem mem_calls_of_split {X b a name rest after : List Char} (hname : IsWord name)
    (hsplit : X ++ (name ++ rest) = b ++ name ++ a) (hle : b.length + name.length ≤ X.length)
    (hb : endsName b = false)
    (hparen : ∃ gap rest, a ++ after = gap ++ '(' :: rest ∧ ∀ d ∈ gap, isBlank d = true) :
    name ∈ calls X := by
  have hprefix : b ++ name <+: X ++ (name ++ rest) := ⟨a, hsplit.symm⟩
  obtain ⟨m, rfl⟩ := List.prefix_of_prefix_length_le hprefix (List.prefix_append _ _)
    (by simpa using hle)
  have ha : a = m ++ (name ++ rest) := by
    rw [List.append_assoc] at hsplit
    exact (List.append_cancel_left hsplit).symm
  -- Either the parenthesis is behind the name looked for, or it is before it and called there.
  obtain ⟨gap, rest', hgap, hblank⟩ := hparen
  rw [ha, List.append_assoc, List.append_assoc] at hgap
  rcases List.append_eq_append_iff.mp hgap with ⟨g, rfl, hg⟩ | ⟨m', rfl, hm'⟩
  · -- The name itself would have to be blank.
    cases g with
    | nil => exact absurd hg (not_mark_of_isWord hname rfl)
    | cons d g =>
      have hd : isNameChar d = false := isNameChar_of_isBlank (hblank d (by simp))
      exact absurd hg (not_mark_of_isWord hname hd)
  · cases m' with
    | nil =>
      rw [List.nil_append] at hm'
      exact absurd hm'.symm (not_mark_of_isWord hname rfl)
    | cons d m' =>
      obtain ⟨rfl, -⟩ := List.cons.inj hm'
      have hmem := callee_mem_calls (b ++ name ++ gap) m'
      rw [callee_word hname hb hblank, List.append_assoc] at hmem
      exact hmem

/-- A procedure is found where it is declared, when nothing before it in the class body calls its
name. -/
theorem declaration?_of_calls {A X Y D name : List Char} (hname : IsWord name)
    (hX : endsName (A ++ X) = false)
    (hfunction : "function".toList.isSuffixOf (trimEnd X) = true) (hcalls : name ∉ calls X) :
    declaration? (A ++ (X ++ name ++ '(' :: Y) ++ D) A.length
        (A.length + (X ++ name ++ '(' :: Y).length) name = some (A.length + X.length) := by
  have hregroup : A ++ (X ++ name ++ '(' :: Y) ++ D = (A ++ X) ++ name ++ '(' :: (Y ++ D) := by
    simp
  have hparen : isBlank '(' = false := by decide
  have hmem : A.length + X.length ∈ wordIndices (A ++ (X ++ name ++ '(' :: Y) ++ D) A.length
      (A.length + (X ++ name ++ '(' :: Y).length) name :=
    (mem_wordIndices hname).mpr ⟨X, '(' :: Y, rfl, rfl, hX, rfl⟩
  refine find?_of_pairwise (pairwise_wordIndices _ _ _ _) hmem ?_ fun j hj hlt => ?_
  · have hslice : slice (A ++ (X ++ name ++ '(' :: Y) ++ D) A.length (A.length + X.length) = X := by
      rw [hregroup, slice, ← List.length_append, List.append_assoc, List.take_left, List.drop_left]
    have hskip : skipBlanks (A ++ (X ++ name ++ '(' :: Y) ++ D)
        (A.length + X.length + name.length) = (A ++ X ++ name).length := by
      have hempty : ∀ d ∈ ([] : List Char), isBlank d = true := by simp
      have h := skipBlanks_split (A ++ X ++ name) (Y ++ D) hempty hparen
      rw [List.append_nil] at h
      rw [hregroup, ← List.length_append, ← List.length_append, h]
      rfl
    rw [declaresAt, hslice, hfunction, hskip, hregroup]
    simp
  · obtain ⟨b, a, hsplit, rfl, halone⟩ := (mem_wordIndices hname).mp hj
    cases hdeclares : declaresAt (A ++ (X ++ name ++ '(' :: Y) ++ D) A.length name
        (A.length + b.length) with
    | false => rfl
    | true =>
      have htext : A ++ (X ++ name ++ '(' :: Y) ++ D = (A ++ b) ++ name ++ (a ++ D) := by
        rw [hsplit]
        simp
      have hpar : (A ++ (X ++ name ++ '(' :: Y) ++ D)[skipBlanks (A ++ (X ++ name ++ '(' :: Y) ++ D)
          ((A ++ b).length + name.length)]? = some '(' := by
        rw [List.length_append]
        simpa using (Bool.and_eq_true_iff.mp hdeclares).2
      have hsame : (A ++ X) ++ (name ++ '(' :: (Y ++ D)) = (A ++ b) ++ name ++ (a ++ D) := by
        rw [← htext, hregroup]
        simp
      have hle := length_le_of_endsName hname hsame hX (by simpa using hlt)
      rw [List.append_assoc X] at hsplit
      exact absurd (mem_calls_of_split hname hsplit (by simpa [Nat.add_assoc] using hle)
        (endsName_right halone.before) (split_of_skipBlanks htext hpar)) hcalls

end PacketClass

end PacketGen
