import PacketGen.Proofs.Token.Spelling
import PacketGen.Statement

/-!
# Statements are read back from their tokens

Names and tags are free in a statement, so not every tree can be written down: a tag has to start
with a capital, and a name has to be one. For the trees that can (`WellFormed`), reading the tokens
gives the tree back, whatever is behind them; the accessor's name is what decides between a call and
the reset.
-/

namespace PacketGen

open Token (IsIdentifier)

namespace Accessor

/-- The tag, when there is one, can be told from the verb. -/
def WellFormed (a : Accessor) : Prop :=
  ∀ tag ∈ a.tag, ∃ c cs, tag.toList = c :: cs ∧ c.isUpper = true ∧
    ∀ d ∈ cs, Text.isNameChar d = true

theorem wellFormed_raw (verb : Verb) : WellFormed ⟨verb, none⟩ := by
  intro tag htag
  exact absurd htag (by simp)

theorem tag?_getD {tag : Option String} (htag : ∀ t ∈ tag, ∃ c cs, t.toList = c :: cs ∧
    c.isUpper = true ∧ ∀ d ∈ cs, Text.isNameChar d = true) :
    tag? (tag.getD "").toList = some tag := by
  cases tag with
  | none => rfl
  | some t =>
    obtain ⟨c, cs, hcs, hc, -⟩ := htag t rfl
    rw [Option.getD_some, hcs, tag?, if_pos hc, ← hcs, String.ofList_toList]

theorem ofName?_name {a : Accessor} (ha : a.WellFormed) : ofName? a.name = some a := by
  obtain ⟨verb, tag⟩ := a
  have htag : tag? (tag.getD "").toList = some tag := tag?_getD ha
  cases verb with
  | get =>
    have hname : (name ⟨.get, tag⟩).toList = 'g' :: 'e' :: 't' :: (tag.getD "").toList := by
      simp [name, Verb.keyword]
    rw [ofName?, hname]
    change (tag? (tag.getD "").toList).map _ = _
    rw [htag, Option.map_some]
  | put =>
    have hname : (name ⟨.put, tag⟩).toList = 'p' :: 'u' :: 't' :: (tag.getD "").toList := by
      simp [name, Verb.keyword]
    rw [ofName?, hname]
    change (tag? (tag.getD "").toList).map _ = _
    rw [htag, Option.map_some]

theorem name_ne_reset {a : Accessor} (ha : a.WellFormed) : a.name ≠ "reset" := by
  intro h
  have hname := ofName?_name ha
  rw [h] at hname
  exact absurd hname (by simp [ofName?])

theorem isIdentifier_name {a : Accessor} (ha : a.WellFormed) : IsIdentifier a.name := by
  have htag : ∀ d ∈ (a.tag.getD "").toList, Text.isNameChar d = true := by
    cases htag : a.tag with
    | none => simp
    | some tag =>
      obtain ⟨c, cs, hcs, hc, hall⟩ := ha tag htag
      have hname : Text.isNameChar c = true := Text.isNameChar_of_isUpper hc
      rw [Option.getD_some, hcs]
      exact List.forall_mem_cons.mpr ⟨hname, hall⟩
  obtain ⟨verb, tag⟩ := a
  cases verb with
  | get =>
    refine ⟨'g', 'e' :: 't' :: (tag.getD "").toList, by simp [name, Verb.keyword], rfl, ?_⟩
    exact List.forall_mem_cons.mpr ⟨rfl, List.forall_mem_cons.mpr ⟨rfl, htag⟩⟩
  | put =>
    refine ⟨'p', 'u' :: 't' :: (tag.getD "").toList, by simp [name, Verb.keyword], rfl, ?_⟩
    exact List.forall_mem_cons.mpr ⟨rfl, List.forall_mem_cons.mpr ⟨rfl, htag⟩⟩

end Accessor

namespace Call

def WellFormed : Call → Prop
  | bare a => a.WellFormed
  | ofField a field | ofLength a field => a.WellFormed ∧ IsIdentifier field
  | ofCall a inner => a.WellFormed ∧ WellFormed inner

/-- The parenthesis behind the name tells a call that is an argument from a member. -/
theorem exists_tokens (c : Call) :
    ∃ rest, c.tokens = .this :: .arrow :: .word c.accessor.name :: .openParen :: rest := by
  cases c with
  | bare a => exact ⟨_, rfl⟩
  | ofField a field => exact ⟨_, rfl⟩
  | ofLength a field => exact ⟨_, rfl⟩
  | ofCall a inner => exact ⟨_, rfl⟩

theorem WellFormed.accessor {c : Call} (hc : c.WellFormed) : c.accessor.WellFormed := by
  cases c with
  | bare a => exact hc
  | ofField a field => exact hc.1
  | ofLength a field => exact hc.1
  | ofCall a inner => exact hc.1

theorem parse?_tokens {c : Call} (hc : c.WellFormed) (after : List Token) :
    parse? (c.tokens ++ after) = some (c, after) := by
  induction c generalizing after with
  | bare a =>
    have hname : Accessor.ofName? a.name = some a := Accessor.ofName?_name hc
    change parse? (.this :: .arrow :: .word a.name :: .openParen :: .closeParen :: after) = _
    rw [parse?, hname]
    rfl
  | ofField a field =>
    have hname := Accessor.ofName?_name hc.1
    change parse? (.this :: .arrow :: .word a.name :: .openParen :: .this :: .arrow ::
      .word field :: .closeParen :: after) = _
    rw [parse?, hname]
    rfl
  | ofLength a field =>
    have hname := Accessor.ofName?_name hc.1
    change parse? (.this :: .arrow :: .word a.name :: .openParen :: .word "strlen" ::
      .openParen :: .this :: .arrow :: .word field :: .closeParen :: .closeParen :: after) = _
    rw [parse?, hname]
    rfl
  | ofCall a inner ih =>
    have hname := Accessor.ofName?_name hc.1
    have hinner := ih hc.2 (.closeParen :: after)
    obtain ⟨rest, hrest⟩ := exists_tokens inner
    have htokens : (ofCall a inner).tokens ++ after = .this :: .arrow :: .word a.name ::
        .openParen :: (inner.tokens ++ .closeParen :: after) := by
      simp [tokens, memberTokens]
    -- The argument is no member, because its fourth token opens a parenthesis.
    rw [htokens, parse?, hname, Option.bind_some]
    rw [hrest] at hinner ⊢
    simp only [List.cons_append] at hinner ⊢
    rw [hinner]

end Call

namespace Statement

def WellFormed : Statement → Prop
  | .reset => True
  | .call c => c.WellFormed
  | .assign field c => IsIdentifier field ∧ c.WellFormed

theorem ofTokens?_tokens {s : Statement} (hs : s.WellFormed) (after : List Token) :
    ofTokens? (s.tokens ++ after) = some (s, after) := by
  cases s with
  | reset => rfl
  | call c =>
    have hparse := Call.parse?_tokens hs after
    have hreset := Accessor.name_ne_reset (Call.WellFormed.accessor hs)
    obtain ⟨rest, hrest⟩ := c.exists_tokens
    change ofTokens? (c.tokens ++ after) = _
    rw [hrest] at hparse ⊢
    simp only [List.cons_append] at hparse ⊢
    unfold ofTokens?
    split
    · next h =>
      have hword : c.accessor.name = "reset" := by simp_all
      exact absurd hword hreset
    · next h => exact absurd h (by simp)
    · rw [hparse, Option.map_some]
  | assign field c =>
    have htokens : (Statement.assign field c).tokens ++ after =
        .this :: .arrow :: .word field :: .equals :: (c.tokens ++ after) := by
      simp [tokens, Call.memberTokens]
    rw [htokens, ofTokens?, Call.parse?_tokens hs.2, Option.map_some]

theorem exists_tokens (s : Statement) : ∃ rest, s.tokens = .this :: rest := by
  cases s with
  | reset => exact ⟨_, rfl⟩
  | call c =>
    obtain ⟨rest, hrest⟩ := c.exists_tokens
    exact ⟨_, hrest⟩
  | assign field c => exact ⟨_, rfl⟩

/-- A text that spells a statement is read as it. -/
theorem parse_of_spelled {s : Statement} (hs : s.WellFormed) {text : List Char}
    (htext : Token.Spelled text s.tokens) : parse (.ofList text) = .ok s := by
  have htokens := ofTokens?_tokens hs []
  rw [List.append_nil] at htokens
  have hread : read? text = some s := by
    rw [read?, Token.scan?_of_spelled htext, Option.bind_some, htokens]
    rfl
  rw [parse, String.toList_ofList, hread]

end Statement

end PacketGen
