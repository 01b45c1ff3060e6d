import Mathlib.Data.List.Infix
import PacketGen.Generated.Template
import PacketGen.Proofs.Text.Replacement

/-!
# Filling in a template in one go

The placeholders of a template are replaced one after the other, in the whole text each time. That
comes to going through the template once, as `Filled` has it: a placeholder gives way to what it
stands for, the longest one where two begin alike, and what has been put in is not looked at again
(`renderTemplate_fills`).

Two things could go wrong. The placeholder for the identifier begins the one for its type, so it
has to wait until that one is gone; and what one replacement puts in could be taken for a
placeholder by the next. Every placeholder begins with a dollar sign and holds no other, so
whatever holds none, be it a part of the template or something that was put in, is passed over as a
whole (`replaceAll_append_of_not_mem`). Only at the dollar signs of the template is there anything
to decide, and there each replacement either takes the whole placeholder or leaves it.
-/

namespace PacketGen

namespace Text

variable {pattern replacement as cs : List Char} {c : Char}

/-! ## One replacement -/

/-- A text without the first character of a pattern is passed over. -/
theorem replaceAll_append_of_not_mem (has : c ∉ as) :
    replaceAll (c :: pattern) replacement (as ++ cs) =
      as ++ replaceAll (c :: pattern) replacement cs := by
  induction as with
  | nil => rfl
  | cons a as ih =>
    obtain ⟨hne, has⟩ := not_or.mp (mt List.mem_cons.mpr has)
    have hnone : (c :: pattern).isPrefixOf (a :: (as ++ cs)) = false := by
      rw [List.isPrefixOf_cons_cons, beq_eq_false_iff_ne.mpr hne, Bool.false_and]
    rw [List.cons_append, List.cons_append, replaceAll, replaceFrom, hnone,
      if_neg Bool.false_ne_true]
    exact congrArg (a :: ·) (ih has)

theorem replaceFrom_length_append (as cs : List Char) :
    replaceFrom pattern replacement as.length (as ++ cs) =
      replaceFrom pattern replacement 0 cs := by
  induction as with
  | nil => rfl
  | cons a as ih => exact ih

theorem replaceAll_pattern_append :
    replaceAll (c :: pattern) replacement (c :: pattern ++ cs) =
      replacement ++ replaceAll (c :: pattern) replacement cs := by
  have hfound : (c :: pattern).isPrefixOf (c :: (pattern ++ cs)) = true :=
    List.isPrefixOf_iff_prefix.mpr (List.prefix_append _ _)
  rw [List.cons_append, replaceAll, replaceFrom, if_pos hfound]
  exact congrArg (replacement ++ ·) (replaceFrom_length_append pattern cs)

/-- Where another text begins, the pattern's first character stays, and so does what comes behind
it without that character. -/
theorem replaceAll_append_of_not_prefix (hnone : ¬ c :: pattern <+: c :: as ++ cs)
    (has : c ∉ as) :
    replaceAll (c :: pattern) replacement (c :: as ++ cs) =
      c :: as ++ replaceAll (c :: pattern) replacement cs := by
  have hfalse : ¬ (c :: pattern).isPrefixOf (c :: (as ++ cs)) = true := fun h =>
    hnone (List.isPrefixOf_iff_prefix.mp h)
  rw [List.cons_append, List.cons_append, replaceAll, replaceFrom, if_neg hfalse]
  exact congrArg (c :: ·) (replaceAll_append_of_not_mem has)

end Text

namespace Generated

open Text

/-! ## Placeholders -/

/-- What a template may leave open. -/
inductive Placeholder where
  | typeName
  | identifier
  | packetName
deriving DecidableEq

namespace Placeholder

/-- What comes behind the dollar sign. -/
def word : Placeholder → List Char
  | typeName => "ID_TYPE".toList
  | identifier => "ID".toList
  | packetName => "NAME".toList

/-- How a placeholder is written. -/
def mark (p : Placeholder) : List Char := '$' :: p.word

/-- What a placeholder stands for in the code of the packet `name`. -/
def value (name : String) (t : IdType) : Placeholder → List Char
  | typeName => t.name.toList
  | identifier => (t.constant name).toList
  | packetName => name.toList

/-- `p` is the longest of the placeholders that a text begins with. -/
structure LongestIn (p : Placeholder) (cs : List Char) : Prop where
  begins : p.mark <+: cs
  longest : ∀ q : Placeholder, q.mark <+: cs → q.mark.length ≤ p.mark.length

theorem dollar_not_mem_word (p : Placeholder) : '$' ∉ p.word := by
  cases p <;> decide

def all : List Placeholder := [typeName, identifier, packetName]

theorem mem_all (p : Placeholder) : p ∈ all := by
  cases p <;> simp [all]

/-- The placeholder for the packet's name begins like no other one. -/
theorem not_prefix_packetName {q : Placeholder} (hq : q ≠ packetName) (cs : List Char) :
    ¬ q.mark <+: packetName.mark ++ cs := by
  intro h
  have hboth := List.prefix_or_prefix_of_prefix h (List.prefix_append packetName.mark cs)
  cases q with
  | typeName => exact absurd hboth (by decide)
  | identifier => exact absurd hboth (by decide)
  | packetName => exact hq rfl

theorem exists_longestIn {cs : List Char} (h : ∃ p : Placeholder, p.mark <+: cs) :
    ∃ p : Placeholder, p.LongestIn cs := by
  obtain ⟨p, hp⟩ := h
  by_cases htype : typeName.mark <+: cs
  · exact ⟨typeName, htype, fun q _ => by cases q <;> decide⟩
  · refine ⟨p, hp, fun q hq => ?_⟩
    cases q with
    | typeName => exact absurd hq htype
    | identifier => cases p <;> decide
    | packetName =>
      by_cases hsame : p = packetName
      · rw [hsame]
      · obtain ⟨cs, rfl⟩ := hq
        exact absurd hp (not_prefix_packetName hsame cs)

end Placeholder

/-- Every dollar sign of a template begins a placeholder. -/
def IsMarked (template : List Char) : Prop :=
  ∀ cs ∈ template.tails, cs.head? = some '$' → ∃ p : Placeholder, p.mark <+: cs

instance (template : List Char) : Decidable (IsMarked template) :=
  decidable_of_iff (∀ cs ∈ template.tails, cs.head? = some '$' →
    ∃ p ∈ Placeholder.all, p.mark <+: cs) <| by
      simp [IsMarked, Placeholder.mem_all]

/-- What going through a template once makes of it, from left to right. -/
inductive Filled (value : Placeholder → List Char) : (template text : List Char) → Prop
  | nil : Filled value [] []
  | char {c : Char} {cs ds : List Char} (hc : c ≠ '$') (h : Filled value cs ds) :
      Filled value (c :: cs) (c :: ds)
  | placeholder {p : Placeholder} {cs ds : List Char} (hp : p.LongestIn (p.mark ++ cs))
      (h : Filled value cs ds) : Filled value (p.mark ++ cs) (value p ++ ds)

theorem IsMarked.of_suffix {template cs : List Char} (h : IsMarked template)
    (hcs : cs <:+ template) : IsMarked cs := by
  intro ds hds
  have hds := (List.mem_tails ds cs).mp hds
  exact h ds ((List.mem_tails ds template).mpr (hds.trans hcs))

/-- A template whose dollar signs all begin placeholders can be filled in. -/
theorem IsMarked.exists_filled {template : List Char} (h : IsMarked template)
    (value : Placeholder → List Char) : ∃ text, Filled value template text := by
  induction hlength : template.length using Nat.strong_induction_on generalizing template with
  | _ n ih =>
    cases template with
    | nil => exact ⟨[], .nil⟩
    | cons c cs =>
      by_cases hc : c = '$'
      · -- Behind the placeholder the template is shorter.
        subst hc
        obtain ⟨p, hp⟩ :=
          Placeholder.exists_longestIn (h _ ((List.mem_tails _ _).mpr (List.suffix_refl _)) rfl)
        obtain ⟨rest, hrest⟩ := hp.begins
        have hshorter : rest.length < n := by
          have hmark : 0 < p.mark.length := Nat.succ_pos _
          rw [← hlength, ← hrest, List.length_append]
          omega
        obtain ⟨text, htext⟩ := ih _ hshorter (h.of_suffix ⟨p.mark, hrest⟩) rfl
        rw [← hrest] at hp ⊢
        exact ⟨value p ++ text, .placeholder hp htext⟩
      · have hshorter : cs.length < n := by
          rw [← hlength]
          simp
        obtain ⟨text, htext⟩ := ih _ hshorter (h.of_suffix (List.suffix_cons c cs)) rfl
        exact ⟨c :: text, .char hc htext⟩

/-- No dollar sign is left where none is put in. -/
theorem Filled.dollar_not_mem {value : Placeholder → List Char} {template text : List Char}
    (hvalue : ∀ p, '$' ∉ value p) (h : Filled value template text) : '$' ∉ text := by
  induction h with
  | nil => simp
  | char hc _ ih => simp [hc.symm, ih]
  | placeholder _ _ ih => simp [hvalue, ih]

/-! ## The three replacements -/

theorem dollar_not_mem_value {name : String} {t : IdType} (hname : '$' ∉ name.toList)
    (htype : '$' ∉ t.name.toList) (hsuffix : '$' ∉ t.suffix.toList) (p : Placeholder) :
    '$' ∉ p.value name t := by
  cases p with
  | typeName => exact htype
  | identifier => simp [Placeholder.value, IdType.constant, hname, hsuffix]
  | packetName => exact hname

/-- Replaces one of the placeholders. -/
def replaced (value : Placeholder → List Char) (p : Placeholder) (template : List Char) :
    List Char :=
  replaceAll p.mark (value p) template

theorem substituted_eq (template : List Char) (name : String) (t : IdType) :
    substituted template name t =
      replaced (Placeholder.value name t) .packetName
        (replaced (Placeholder.value name t) .identifier
          (replaced (Placeholder.value name t) .typeName template)) := rfl

variable {value : Placeholder → List Char} {p q : Placeholder} {as cs : List Char}

theorem replaced_append (has : '$' ∉ as) :
    replaced value p (as ++ cs) = as ++ replaced value p cs :=
  replaceAll_append_of_not_mem has

theorem replaced_mark : replaced value p (p.mark ++ cs) = value p ++ replaced value p cs :=
  replaceAll_pattern_append

theorem replaced_other (h : ¬ q.mark <+: p.mark ++ cs) :
    replaced value q (p.mark ++ cs) = p.mark ++ replaced value q cs :=
  replaceAll_append_of_not_prefix h p.dollar_not_mem_word

/-- The longest placeholder gives way to what it stands for, and the replacements go on behind. -/
theorem substituted_mark {name : String} {t : IdType}
    (hvalue : ∀ p : Placeholder, '$' ∉ p.value name t) (hp : p.LongestIn (p.mark ++ cs)) :
    substituted (p.mark ++ cs) name t = p.value name t ++ substituted cs name t := by
  rw [substituted_eq, substituted_eq]
  cases p with
  | typeName =>
    rw [replaced_mark, replaced_append (hvalue _), replaced_append (hvalue _)]
  | identifier =>
    have hlonger : ¬ Placeholder.typeName.mark <+: Placeholder.identifier.mark ++ cs := fun h =>
      absurd (hp.longest .typeName h) (by decide)
    rw [replaced_other hlonger, replaced_mark, replaced_append (hvalue _)]
  | packetName =>
    have htype : Placeholder.typeName ≠ .packetName := nofun
    have hidentifier : Placeholder.identifier ≠ .packetName := nofun
    rw [replaced_other (Placeholder.not_prefix_packetName htype cs),
      replaced_other (Placeholder.not_prefix_packetName hidentifier _), replaced_mark]

/-- Three replacements, each of the whole text, come to going through the template once. -/
theorem Filled.substituted_eq {template text : List Char} {name : String} {t : IdType}
    (hvalue : ∀ p : Placeholder, '$' ∉ p.value name t)
    (h : Filled (Placeholder.value name t) template text) :
    substituted template name t = text := by
  induction h with
  | nil => rfl
  | @char c cs ds hc _ ih =>
    have has : '$' ∉ [c] := by simp [hc.symm]
    rw [← ih, Generated.substituted_eq, Generated.substituted_eq]
    show replaced _ _ (replaced _ _ (replaced _ _ ([c] ++ cs))) = _
    rw [replaced_append has, replaced_append has, replaced_append has]
    rfl
  | placeholder hp _ ih => rw [substituted_mark hvalue hp, ih]

/-- **A template is filled in as in one pass from left to right.** If every dollar sign begins
a placeholder and what is put in holds none, there is just one way to fill in the template, which
takes the longest placeholder everywhere, and that is what is written, ended by a line feed and an
empty line. No dollar sign is left. -/
theorem renderTemplate_fills {template name : String} {t : IdType}
    (hmarked : IsMarked template.toList) (hname : '$' ∉ name.toList)
    (htype : '$' ∉ t.name.toList) (hsuffix : '$' ∉ t.suffix.toList) :
    ∃ body, (∀ text, Filled (Placeholder.value name t) template.toList text ↔ text = body) ∧
      (body.getLast? = some '\n' →
        (renderTemplate template name t).toList = body ++ ['\n']) ∧
      (body.getLast? ≠ some '\n' →
        (renderTemplate template name t).toList = body ++ ['\n', '\n']) ∧
      '$' ∉ (renderTemplate template name t).toList := by
  have hvalue := dollar_not_mem_value hname htype hsuffix
  obtain ⟨body, hbody⟩ := hmarked.exists_filled (Placeholder.value name t)
  have hcode := hbody.substituted_eq hvalue
  have hdollar := hbody.dollar_not_mem hvalue
  refine ⟨body, fun text => ⟨fun h => ?_, fun h => h ▸ hbody⟩, fun hended => ?_, fun hended => ?_,
    ?_⟩
  · rw [← h.substituted_eq hvalue, hcode]
  · rw [renderTemplate, hcode, if_pos hended, String.toList_ofList]
  · rw [renderTemplate, hcode, if_neg hended, String.toList_ofList]
  · rw [renderTemplate, hcode, String.toList_ofList]
    split <;> simp [hdollar]

/-- What is put in is written like placeholders without their dollar sign, and comes to stand
behind a placeholder that would be a longer one then. -/
theorem renderTemplate_fills_adjacent :
    let template := "$ID_$ID_TYPE_TYPE$NAME$ID"
    let t : IdType := ⟨"NAME", "byte", "_TYPE"⟩
    IsMarked template.toList ∧ '$' ∉ "ID".toList ∧ '$' ∉ t.name.toList ∧ '$' ∉ t.suffix.toList ∧
      Filled (Placeholder.value "ID" t) template.toList "ID_TYPE_NAME_TYPEIDID_TYPE".toList ∧
      renderTemplate template "ID" t = "ID_TYPE_NAME_TYPEIDID_TYPE\n\n" := by
  intro template t
  have hmarked : IsMarked template.toList := by decide
  have hname : '$' ∉ "ID".toList := by decide
  have htype : '$' ∉ t.name.toList := by decide
  have hsuffix : '$' ∉ t.suffix.toList := by decide
  have hrun : renderTemplate template "ID" t = "ID_TYPE_NAME_TYPEIDID_TYPE\n\n" := by decide
  have hcode : substituted template.toList "ID" t = "ID_TYPE_NAME_TYPEIDID_TYPE".toList := by decide
  obtain ⟨body, hfilled, -⟩ := renderTemplate_fills hmarked hname htype hsuffix
  have hbody := (hfilled body).mpr rfl
  refine ⟨hmarked, hname, htype, hsuffix, ?_, hrun⟩
  rw [← hcode, hbody.substituted_eq (dollar_not_mem_value hname htype hsuffix)]
  exact hbody

end Generated

end PacketGen
