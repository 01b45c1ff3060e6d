import PacketGen.Proofs.PacketClass.CodeLines
import PacketGen.Proofs.PacketClass.Search
import PacketGen.Proofs.Statement.Reading

/-!
# Statements as they are written

`Statement.source` is how a statement usually looks in a packet source. It is read back as the
statement (`parse_source`), and little of it is not up to the grammar: no brace, line feed or
comment can come up in it (`plain_source`), and nothing is called in it but accessors, `strlen` and
the reset (`calls_source`).
-/

namespace PacketGen

open Token (IsIdentifier Spelled)

namespace Call

def source : Call → String
  | bare a => "$this->" ++ a.name ++ "()"
  | ofField a field => "$this->" ++ a.name ++ "($this->" ++ field ++ ")"
  | ofLength a field => "$this->" ++ a.name ++ "(strlen($this->" ++ field ++ "))"
  | ofCall a inner => "$this->" ++ a.name ++ "(" ++ source inner ++ ")"

end Call

namespace Statement

/-- The text of a statement, without its semicolon. -/
def source : Statement → String
  | reset => "$this->reset()"
  | call c => c.source
  | assign field c => "$this->" ++ field ++ " = " ++ c.source

def line (s : Statement) : String := s.source ++ ";"

end Statement

/-! ## Reading it -/

namespace Call

theorem spelled_member {name : String} {rest : List Char} {ts : List Token}
    (hname : IsIdentifier name) (hrest : Text.startsName rest = false) (h : Spelled rest ts) :
    Spelled ("$this->".toList ++ name.toList ++ rest) (memberTokens name ++ ts) := by
  rw [List.append_assoc]
  exact .mark (t := .this) (Or.inl rfl) (.mark (t := .arrow) (Or.inr (Or.inl rfl))
    (.word hname hrest h))

theorem spelled_open {rest : List Char} {ts : List Token} (h : Spelled rest ts) :
    Spelled ('(' :: rest) (.openParen :: ts) := .mark (t := .openParen) (by simp) h

theorem spelled_close {rest : List Char} {ts : List Token} (h : Spelled rest ts) :
    Spelled (')' :: rest) (.closeParen :: ts) := .mark (t := .closeParen) (by simp) h

theorem isIdentifier_strlen : IsIdentifier "strlen" := Token.isIdentifier_of_all rfl rfl rfl

theorem spelled_source {c : Call} (hc : c.WellFormed) {rest : List Char} {ts : List Token}
    (h : Spelled rest ts) : Spelled (c.source.toList ++ rest) (c.tokens ++ ts) := by
  induction c generalizing rest ts with
  | bare a =>
    have hname := Accessor.isIdentifier_name hc
    have hspelled := spelled_member hname rfl (spelled_open (spelled_close h))
    simpa [source, tokens] using hspelled
  | ofField a field =>
    have hname := Accessor.isIdentifier_name hc.1
    have hargument := spelled_member hc.2 rfl (spelled_close h)
    have hspelled := spelled_member hname rfl (spelled_open hargument)
    simpa [source, tokens] using hspelled
  | ofLength a field =>
    have hname := Accessor.isIdentifier_name hc.1
    have hargument := spelled_member hc.2 rfl (spelled_close (spelled_close h))
    have hstrlen := Spelled.word isIdentifier_strlen rfl (spelled_open hargument)
    have hspelled := spelled_member hname rfl (spelled_open hstrlen)
    simpa [source, tokens] using hspelled
  | ofCall a inner ih =>
    have hname := Accessor.isIdentifier_name hc.1
    have hspelled := spelled_member hname rfl (spelled_open (ih hc.2 (spelled_close h)))
    simpa [source, tokens] using hspelled

end Call

namespace Statement

theorem spelled_source {s : Statement} (hs : s.WellFormed) {rest : List Char} {ts : List Token}
    (h : Spelled rest ts) : Spelled (s.source.toList ++ rest) (s.tokens ++ ts) := by
  cases s with
  | reset =>
    have hreset : IsIdentifier "reset" := Token.isIdentifier_of_all rfl rfl rfl
    exact Call.spelled_member hreset rfl (Call.spelled_open (Call.spelled_close h))
  | call c => exact Call.spelled_source hs h
  | assign field c =>
    have hcall := Spelled.gap (c := ' ') rfl (Call.spelled_source hs.2 h)
    have hequals := Spelled.gap (c := ' ') rfl (Spelled.mark (t := .equals) (by simp) hcall)
    have hspelled := Call.spelled_member hs.1 rfl hequals
    simpa [source, tokens, Token.spell] using hspelled

/-- What is written for a statement is read as the statement. -/
theorem parse_source {s : Statement} (hs : s.WellFormed) : parse s.source = .ok s := by
  have hspelled := spelled_source hs .nil
  rw [List.append_nil, List.append_nil] at hspelled
  have hparse := parse_of_spelled hs hspelled
  rwa [String.ofList_toList] at hparse

end Statement

/-! ## What is in it -/

open Text (calls Cut)

/-- What may be called in a procedure: an accessor, `strlen` or the reset. -/
def IsCallee (w : List Char) : Prop := w.head? ∈ [some 'g', some 'p', some 's', some 'r']

instance (w : List Char) : Decidable (IsCallee w) := inferInstanceAs (Decidable (_ ∈ _))

namespace Call

theorem isCallee_name (a : Accessor) : IsCallee a.name.toList := by
  obtain ⟨verb, tag⟩ := a
  cases verb with
  | get => simp [IsCallee, Accessor.name, Verb.keyword]
  | put => simp [IsCallee, Accessor.name, Verb.keyword]

theorem calls_member {name : String} (hname : IsIdentifier name) (rest : List Char) :
    calls ("$this->".toList ++ name.toList ++ '(' :: rest) = name.toList :: calls rest :=
  Text.calls_named (by decide) (by decide) hname.isWord rest

theorem open_not_mem_identifier {name : String} (hname : IsIdentifier name) :
    '(' ∉ name.toList := fun h => absurd (hname.isWord.2 _ h) (by decide)

/-- An argument that is a member calls nothing. -/
theorem calls_field {field : String} (hfield : IsIdentifier field) {rest : List Char}
    (hrest : '(' ∉ rest) : calls ("$this->".toList ++ field.toList ++ rest) = [] := by
  refine Text.calls_of_not_mem fun h => ?_
  rcases List.mem_append.mp h with h | h
  · rcases List.mem_append.mp h with h | h
    · exact absurd h (by decide)
    · exact open_not_mem_identifier hfield h
  · exact hrest h

/-- A call starts with its receiver and ends with its parenthesis. -/
theorem exists_source (c : Call) :
    (∃ cs, c.source.toList = '$' :: cs) ∧ ∃ cs, c.source.toList = cs ++ [')'] := by
  cases c with
  | bare a =>
    exact ⟨⟨"this->".toList ++ a.name.toList ++ ['(', ')'], by simp [source]⟩,
      ⟨"$this->".toList ++ a.name.toList ++ ['('], by simp [source]⟩⟩
  | ofField a field =>
    exact ⟨⟨"this->".toList ++ a.name.toList ++ "($this->".toList ++ field.toList ++ [')'],
      by simp [source]⟩,
      ⟨"$this->".toList ++ a.name.toList ++ "($this->".toList ++ field.toList, by simp [source]⟩⟩
  | ofLength a field =>
    exact ⟨⟨"this->".toList ++ a.name.toList ++ "(strlen($this->".toList ++ field.toList ++
      [')', ')'], by simp [source]⟩,
      ⟨"$this->".toList ++ a.name.toList ++ "(strlen($this->".toList ++ field.toList ++ [')'],
        by simp [source]⟩⟩
  | ofCall a inner =>
    exact ⟨⟨"this->".toList ++ a.name.toList ++ '(' :: (inner.source.toList ++ [')']),
      by simp [source]⟩,
      ⟨"$this->".toList ++ a.name.toList ++ ['('] ++ inner.source.toList, by simp [source]⟩⟩

theorem cut_source (c : Call) : Cut c.source.toList := by
  obtain ⟨-, cs, hcs⟩ := c.exists_source
  rw [hcs]
  exact .of_mark cs (by decide) (by decide)

theorem calls_source {c : Call} (hc : c.WellFormed) : ∀ w ∈ calls c.source.toList, IsCallee w := by
  induction c with
  | bare a =>
    have hsource : (bare a).source.toList = "$this->".toList ++ a.name.toList ++ '(' :: [')'] := by
      simp [source]
    rw [hsource, calls_member (Accessor.isIdentifier_name hc)]
    exact List.forall_mem_cons.mpr ⟨isCallee_name a, by decide⟩
  | ofField a field =>
    have hsource : (ofField a field).source.toList = "$this->".toList ++ a.name.toList ++
        '(' :: ("$this->".toList ++ field.toList ++ [')']) := by
      simp [source]
    rw [hsource, calls_member (Accessor.isIdentifier_name hc.1), calls_field hc.2 (by decide)]
    exact List.forall_mem_cons.mpr ⟨isCallee_name a, by simp⟩
  | ofLength a field =>
    have hsource : (ofLength a field).source.toList = "$this->".toList ++ a.name.toList ++
        '(' :: ([] ++ "strlen".toList ++
          '(' :: ("$this->".toList ++ field.toList ++ [')', ')'])) := by
      simp [source]
    rw [hsource, calls_member (Accessor.isIdentifier_name hc.1),
      Text.calls_named (by simp) rfl (by decide), calls_field hc.2 (by decide)]
    exact List.forall_mem_cons.mpr ⟨isCallee_name a, List.forall_mem_cons.mpr ⟨by decide, by simp⟩⟩
  | ofCall a inner ih =>
    have hsource : (ofCall a inner).source.toList = "$this->".toList ++ a.name.toList ++
        '(' :: (inner.source.toList ++ [')']) := by
      simp [source]
    have hclose : calls [')'] = [] := rfl
    rw [hsource, calls_member (Accessor.isIdentifier_name hc.1), Text.calls_append inner.cut_source,
      hclose, List.append_nil]
    exact List.forall_mem_cons.mpr ⟨isCallee_name a, ih hc.2⟩

theorem plain_source {c : Call} (hc : c.WellFormed) : Token.Plain c.source.toList := by
  have hthis : Token.Plain "$this->".toList := by decide
  induction c with
  | bare a =>
    simp only [source, String.toList_append]
    exact (hthis.append (Accessor.isIdentifier_name hc).plain).append (by decide)
  | ofField a field =>
    simp only [source, String.toList_append]
    exact (((hthis.append (Accessor.isIdentifier_name hc.1).plain).append (by decide)).append
      hc.2.plain).append (by decide)
  | ofLength a field =>
    simp only [source, String.toList_append]
    exact (((hthis.append (Accessor.isIdentifier_name hc.1).plain).append (by decide)).append
      hc.2.plain).append (by decide)
  | ofCall a inner ih =>
    simp only [source, String.toList_append]
    exact (((hthis.append (Accessor.isIdentifier_name hc.1).plain).append (by decide)).append
      (ih hc.2)).append (by decide)

end Call

namespace Statement

theorem plain_source {s : Statement} (hs : s.WellFormed) : Token.Plain s.source.toList := by
  cases s with
  | reset =>
    change Token.Plain "$this->reset()".toList
    decide
  | call c => exact Call.plain_source hs
  | assign field c =>
    have hthis : Token.Plain "$this->".toList := by decide
    simp only [source, String.toList_append]
    exact ((hthis.append hs.1.plain).append (by decide)).append (Call.plain_source hs.2)

/-- Nothing is called in a statement that could be the name of a procedure. -/
theorem calls_source {s : Statement} (hs : s.WellFormed) :
    ∀ w ∈ calls s.source.toList, IsCallee w := by
  cases s with
  | reset =>
    change ∀ w ∈ calls "$this->reset()".toList, IsCallee w
    decide
  | call c => exact Call.calls_source hs
  | assign field c =>
    have hcut : Cut ("$this->".toList ++ field.toList ++ " = ".toList) := by
      have hmark : Cut ("$this->".toList ++ field.toList ++ " =".toList) := by
        have h : "$this->".toList ++ field.toList ++ " =".toList =
            ("$this->".toList ++ field.toList ++ [' ']) ++ ['='] := by simp
        rw [h]
        exact .of_mark _ (by decide) (by decide)
      have h : "$this->".toList ++ field.toList ++ " = ".toList =
          "$this->".toList ++ field.toList ++ " =".toList ++ [' '] := by simp
      rw [h]
      exact hmark.append_blank (List.forall_mem_singleton.mpr rfl)
    have hsource : (assign field c).source.toList =
        ("$this->".toList ++ field.toList ++ " = ".toList) ++ c.source.toList := by
      simp [source]
    rw [hsource, Text.calls_append hcut, Call.calls_field hs.1 (by decide), List.nil_append]
    exact Call.calls_source hs.2

theorem toList_line (s : Statement) : s.line.toList = s.source.toList ++ [';'] := by
  simp only [line, String.toList_append]
  rfl

theorem plain_line {s : Statement} (hs : s.WellFormed) : Token.Plain s.line.toList := by
  rw [toList_line]
  exact (plain_source hs).append (by decide)

theorem cut_line (s : Statement) : Cut s.line.toList := by
  rw [toList_line]
  exact .of_mark _ (by decide) (by decide)

theorem exists_source (s : Statement) :
    (∃ cs, s.source.toList = '$' :: cs) ∧ ∃ cs, s.source.toList = cs ++ [')'] := by
  cases s with
  | reset => exact ⟨⟨"this->reset()".toList, rfl⟩, ⟨"$this->reset(".toList, rfl⟩⟩
  | call c => exact c.exists_source
  | assign field c =>
    obtain ⟨-, cs, hcs⟩ := c.exists_source
    exact ⟨⟨"this->".toList ++ field.toList ++ " = ".toList ++ c.source.toList, by simp [source]⟩,
      ⟨"$this->".toList ++ field.toList ++ " = ".toList ++ cs, by simp [source, hcs]⟩⟩

theorem cut_source (s : Statement) : Cut s.source.toList := by
  obtain ⟨-, cs, hcs⟩ := s.exists_source
  rw [hcs]
  exact .of_mark cs (by decide) (by decide)

theorem source_ne_empty (s : Statement) : s.source ≠ "" := by
  obtain ⟨⟨cs, hcs⟩, -⟩ := s.exists_source
  intro h
  rw [h] at hcs
  exact absurd hcs (by simp)

theorem cleanStatement_line (s : Statement) :
    PacketClass.cleanStatement s.line.toList = s.source.toList := by
  obtain ⟨⟨cs, hcs⟩, hlast⟩ := s.exists_source
  rw [toList_line]
  exact PacketClass.cleanStatement_semicolon hcs hlast rfl rfl (by decide)

theorem calls_line {s : Statement} (hs : s.WellFormed) :
    ∀ w ∈ calls s.line.toList, IsCallee w := by
  have hmark : calls [';'] = [] := rfl
  rw [toList_line, Text.calls_append s.cut_source, hmark, List.append_nil]
  exact calls_source hs

end Statement

end PacketGen
