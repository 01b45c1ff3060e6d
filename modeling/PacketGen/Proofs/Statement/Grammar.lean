import PacketGen.Proofs.Statement.Reading
import PacketGen.Proofs.Token.Spacing

/-!
# The statements a text can be

A statement is spelled by its tokens with any spacing around them, and by these and a semicolon
(`Statement.Spells`). That names no reader. `parse_eq_ok_iff` says that the reader of statements is
exactly this relation turned around: it takes every text that spells a statement, gives back the
statement that it spells, and hands every other text back as it came.

So no choice of the reader hides another reading. A member called `getter` or `reset` is a member,
an accessor is one token with its tag, and calls may stand in calls to any depth.
-/

namespace PacketGen

open Token (IsIdentifier NamesWord Parted Spaced)

namespace Accessor

theorem tag?_eq_some {cs : List Char} {tag : Option String} (h : tag? cs = some tag) :
    (tag.getD "").toList = cs ∧ ∀ t ∈ tag, ∃ c ds, t.toList = c :: ds ∧ c.isUpper = true := by
  cases cs with
  | nil =>
    cases h
    exact ⟨rfl, by simp⟩
  | cons c cs =>
    rw [tag?] at h
    split at h
    · next hc =>
      cases h
      refine ⟨String.toList_ofList, ?_⟩
      intro t ht
      cases ht
      exact ⟨c, cs, String.toList_ofList, hc⟩
    · cases h

/-- A method name is read as an accessor by taking it apart into verb and tag. -/
theorem ofName?_eq_some {name : String} {a : Accessor} (h : ofName? name = some a)
    (hname : IsIdentifier name) : a.name = name ∧ a.WellFormed := by
  have hparts : a.name.toList = name.toList ∧
      ∀ t ∈ a.tag, ∃ c ds, t.toList = c :: ds ∧ c.isUpper = true := by
    unfold ofName? at h
    split at h
    · next tag hsplit =>
      obtain ⟨t, ht, rfl⟩ := Option.map_eq_some_iff.mp h
      obtain ⟨htag, hupper⟩ := tag?_eq_some ht
      refine ⟨?_, hupper⟩
      rw [Accessor.name, String.toList_append, htag, hsplit]
      simp [Verb.keyword]
    · next tag hsplit =>
      obtain ⟨t, ht, rfl⟩ := Option.map_eq_some_iff.mp h
      obtain ⟨htag, hupper⟩ := tag?_eq_some ht
      refine ⟨?_, hupper⟩
      rw [Accessor.name, String.toList_append, htag, hsplit]
      simp [Verb.keyword]
    · cases h
  obtain ⟨htext, hupper⟩ := hparts
  refine ⟨String.toList_inj.mp htext, ?_⟩
  intro t ht
  obtain ⟨c, ds, hcs, hc⟩ := hupper t ht
  refine ⟨c, ds, hcs, hc, ?_⟩
  intro d hd
  have hmem : d ∈ a.name.toList := by
    rw [Accessor.name, String.toList_append, Option.mem_def.mp ht, Option.getD_some, hcs]
    exact List.mem_append_right _ (List.mem_cons_of_mem _ hd)
  rw [htext] at hmem
  exact hname.isWord.2 d hmem

end Accessor

namespace Call

/-- What is read as a call is the call's tokens. -/
theorem tokens_of_parse? {ts after : List Token} {c : Call} (h : parse? ts = some (c, after))
    (hwords : ∀ t ∈ ts, NamesWord t) : ts = c.tokens ++ after ∧ c.WellFormed := by
  induction hn : ts.length using Nat.strongRecOn generalizing ts after c with
  | ind n ih =>
    unfold parse? at h
    split at h
    · next name rest =>
      obtain ⟨a, ha, hbody⟩ := Option.bind_eq_some_iff.mp h
      clear h
      have hname : IsIdentifier name := hwords (.word name) (by simp) name rfl
      obtain ⟨rfl, hwell⟩ := Accessor.ofName?_eq_some ha hname
      split at hbody
      · cases hbody
        exact ⟨rfl, hwell⟩
      · next field _ =>
        cases hbody
        have hfield : IsIdentifier field := hwords (.word field) (by simp) field rfl
        exact ⟨rfl, hwell, hfield⟩
      · next field _ =>
        cases hbody
        have hfield : IsIdentifier field := hwords (.word field) (by simp) field rfl
        exact ⟨rfl, hwell, hfield⟩
      · split at hbody
        · next inner after hinner =>
          cases hbody
          have hrest : ∀ t ∈ rest, NamesWord t := by
            intro t ht
            exact hwords t (by simp [ht])
          have hshort : rest.length < n := by
            rw [← hn]
            simp only [List.length_cons]
            omega
          obtain ⟨htokens, hcall⟩ := ih rest.length hshort hinner hrest rfl
          refine ⟨?_, hwell, hcall⟩
          rw [htokens]
          simp [tokens, memberTokens]
        · cases hbody
    · cases h

/-- In a call, a mark is behind every word. -/
theorem parted_tokens {c : Call} (hc : c.WellFormed) {ts : List Token} (hts : Parted ts) :
    Parted (c.tokens ++ ts) := by
  have hmember {name : String} {us : List Token} (hname : IsIdentifier name)
      (hus : ∀ t ∈ us.head?, t.isMark = true) (h : Parted us) :
      Parted (memberTokens name ++ us) :=
    .mark rfl (.mark rfl (.word hname hus h))
  induction c generalizing ts with
  | bare a =>
    have hname := Accessor.isIdentifier_name hc
    have hparted := hmember hname (by simp [Token.isMark]) (.mark (t := .openParen) rfl
      (.mark (t := .closeParen) rfl hts))
    simpa [tokens] using hparted
  | ofField a field =>
    have hname := Accessor.isIdentifier_name hc.1
    have hfield := hmember hc.2 (by simp [Token.isMark]) (.mark (t := .closeParen) rfl hts)
    have hparted := hmember hname (by simp [Token.isMark]) (.mark (t := .openParen) rfl hfield)
    simpa [tokens] using hparted
  | ofLength a field =>
    have hname := Accessor.isIdentifier_name hc.1
    have hstrlen : IsIdentifier "strlen" := Token.isIdentifier_of_all rfl rfl rfl
    have hfield := hmember hc.2 (by simp [Token.isMark]) (.mark (t := .closeParen) rfl
      (.mark (t := .closeParen) rfl hts))
    have hlength := Parted.word hstrlen (by simp [Token.isMark])
      (.mark (t := .openParen) rfl hfield)
    have hparted := hmember hname (by simp [Token.isMark]) (.mark (t := .openParen) rfl hlength)
    simpa [tokens] using hparted
  | ofCall a inner ih =>
    have hname := Accessor.isIdentifier_name hc.1
    have hinner := ih hc.2 (.mark (t := .closeParen) rfl hts)
    have hparted := hmember hname (by simp [Token.isMark]) (.mark (t := .openParen) rfl hinner)
    simpa [tokens] using hparted

end Call

namespace Statement

/-- The text is the statement's tokens with any spacing around them, or these and a semicolon. -/
def Spells (s : Statement) (text : List Char) : Prop :=
  s.WellFormed ∧ (Spaced s.tokens text ∨ Spaced (s.tokens ++ [.semicolon]) text)

theorem tokens_of_ofTokens? {ts after : List Token} {s : Statement}
    (h : ofTokens? ts = some (s, after)) (hwords : ∀ t ∈ ts, NamesWord t) :
    ts = s.tokens ++ after ∧ s.WellFormed := by
  unfold ofTokens? at h
  split at h
  · cases h
    exact ⟨rfl, trivial⟩
  · next field rest =>
    obtain ⟨⟨c, us⟩, hc, h⟩ := Option.map_eq_some_iff.mp h
    cases h
    have hfield : IsIdentifier field := hwords (.word field) (by simp) field rfl
    have hrest : ∀ t ∈ rest, NamesWord t := by
      intro t ht
      exact hwords t (by simp [ht])
    obtain ⟨htokens, hcall⟩ := Call.tokens_of_parse? hc hrest
    refine ⟨?_, hfield, hcall⟩
    rw [htokens]
    simp [tokens, Call.memberTokens]
  · obtain ⟨⟨c, us⟩, hc, h⟩ := Option.map_eq_some_iff.mp h
    cases h
    exact Call.tokens_of_parse? hc hwords

theorem isEnd_iff {ts : List Token} : isEnd ts = true ↔ ts = [] ∨ ts = [.semicolon] := by
  unfold isEnd
  split
  · simp
  · simp
  · next hnil hsemicolon =>
    refine iff_of_false (by simp) ?_
    rintro (h | h)
    · exact hnil h
    · exact hsemicolon h

/-- What is read as a statement spells it. -/
theorem spells_of_read? {text : List Char} {s : Statement} (h : read? text = some s) :
    s.Spells text := by
  obtain ⟨⟨t, after⟩, hts, h⟩ := Option.bind_eq_some_iff.mp h
  obtain ⟨ts, hscan, hts⟩ := Option.bind_eq_some_iff.mp hts
  split at h
  · next hend =>
    cases h
    obtain ⟨hspaced, hwords⟩ := Token.spaced_of_scan? hscan
    obtain ⟨htokens, hwell⟩ := tokens_of_ofTokens? hts hwords
    refine ⟨hwell, ?_⟩
    rw [htokens] at hspaced
    rcases isEnd_iff.mp hend with rfl | rfl
    · rw [List.append_nil] at hspaced
      exact Or.inl hspaced
    · exact Or.inr hspaced
  · cases h

theorem parted_tokens {s : Statement} (hs : s.WellFormed) {ts : List Token} (hts : Parted ts) :
    Parted (s.tokens ++ ts) := by
  have hmark (t : Token) (ht : t.isMark = true) (us : List Token) :
      ∀ u ∈ (t :: us).head?, u.isMark = true := by
    intro u hu
    cases hu
    exact ht
  cases s with
  | reset =>
    have hreset : IsIdentifier "reset" := Token.isIdentifier_of_all rfl rfl rfl
    exact .mark rfl (.mark rfl (.word hreset (hmark .openParen rfl _) (.mark rfl (.mark rfl hts))))
  | call c => exact Call.parted_tokens hs hts
  | assign field c =>
    have hcall := Parted.mark (t := .equals) rfl (Call.parted_tokens hs.2 hts)
    have hparted : Parted (.this :: .arrow :: .word field :: .equals :: (c.tokens ++ ts)) :=
      .mark rfl (.mark rfl (.word hs.1 (hmark .equals rfl _) hcall))
    simpa [tokens, Call.memberTokens] using hparted

/-- What spells a statement is read as it. -/
theorem read?_of_spells {text : List Char} {s : Statement} (h : s.Spells text) :
    read? text = some s := by
  obtain ⟨hs, hspaced⟩ := h
  obtain ⟨after, hafter, hspaced, hparted⟩ : ∃ after, isEnd after = true ∧
      Spaced (s.tokens ++ after) text ∧ Parted after := by
    rcases hspaced with hspaced | hspaced
    · exact ⟨[], rfl, by rwa [List.append_nil], .nil⟩
    · exact ⟨[.semicolon], rfl, hspaced, .mark rfl .nil⟩
  have hscan := Token.scan?_of_spaced (parted_tokens hs hparted) hspaced
  rw [read?, hscan, Option.bind_some, ofTokens?_tokens hs, Option.bind_some, if_pos hafter]

/-- **Reading a statement is its grammar turned around.** A text is read as a statement if and only
if it spells it, any other text is handed back unchanged, and no text spells two statements. -/
theorem parse_eq_ok_iff (text : String) :
    (∀ s, parse text = .ok s ↔ s.Spells text.toList) ∧
      (parse text = .error ⟨text⟩ ↔ ∀ s : Statement, ¬ s.Spells text.toList) ∧
      ∀ s t : Statement, s.Spells text.toList → t.Spells text.toList → s = t := by
  have hread (s : Statement) : read? text.toList = some s ↔ s.Spells text.toList :=
    ⟨spells_of_read?, read?_of_spells⟩
  have hok (s : Statement) : parse text = .ok s ↔ s.Spells text.toList := by
    rw [← hread s, parse]
    cases read? text.toList with
    | some t => simp
    | none => simp
  refine ⟨hok, ?_, ?_⟩
  · rw [parse]
    cases hresult : read? text.toList with
    | some t =>
      refine iff_of_false (by simp) ?_
      intro hnone
      exact hnone t (spells_of_read? hresult)
    | none =>
      refine iff_of_true rfl ?_
      intro s hs
      rw [read?_of_spells hs] at hresult
      cases hresult
  · intro s t hs ht
    have hst := (read?_of_spells hs).symm.trans (read?_of_spells ht)
    cases hst
    rfl

example : read? "\t$this ->putInt( $this->get\r\n($this -> getter) ) ; ".toList =
    some (.call (.ofCall ⟨.put, some "Int"⟩ (.ofField ⟨.get, none⟩ "getter"))) := by
  decide +kernel

end Statement

end PacketGen
