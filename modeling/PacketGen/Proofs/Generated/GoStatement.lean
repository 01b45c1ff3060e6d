import PacketGen.Proofs.Generated.MethodText

/-!
# Generated statements, read back from their text

What a generated method does must not be told from `ReadLine` and `WriteLine`: the lines that are
written are text, and it is the text that runs. So a line is read again here as the language it is
written in reads it. It is cut into words and marks, a comment ends it (`GoToken.lex`), and what is
left must have one of the few shapes of `GoStatement`. A line of any other shape is no statement
at all, so a slip in a text cannot be read as something that it does not say.

The receiver of both methods is called `i`, the buffer `buf`.
-/

namespace PacketGen.Generated

/-- A word, or a single other character that is no blank. -/
inductive GoToken where
  | word (w : String)
  | mark (c : Char)
deriving Repr, DecidableEq

namespace GoToken

/-- The word read so far, its characters in reverse; no word without characters. -/
def flush (word : List Char) : List GoToken :=
  if word = [] then [] else [.word (.ofList word.reverse)]

/-- The tokens of a line behind the characters of a word; two slashes end the line. -/
def lex (word : List Char) : List Char → List GoToken
  | [] => flush word
  | '/' :: '/' :: _ => flush word
  | c :: cs =>
    if Text.isNameChar c then lex (c :: word) cs
    else if Text.isBlank c then flush word ++ lex [] cs
    else flush word ++ mark c :: lex [] cs

theorem lex_nil : lex [] [] = [] := rfl

theorem lex_nameChar (word : List Char) {c : Char} (cs : List Char)
    (hc : Text.isNameChar c = true) : lex word (c :: cs) = lex (c :: word) cs := by
  rw [lex, if_pos hc]
  rintro - rfl -
  exact absurd hc (by decide)

theorem lex_mark (word : List Char) {c : Char} (cs : List Char) (hname : Text.isNameChar c = false)
    (hblank : Text.isBlank c = false) (hslash : c ≠ '/') :
    lex word (c :: cs) = flush word ++ mark c :: lex [] cs := by
  rw [lex, if_neg (by simp [hname]), if_neg (by simp [hblank])]
  rintro - rfl -
  exact hslash rfl

theorem lex_blank (word : List Char) {c : Char} (cs : List Char) (hname : Text.isNameChar c = false)
    (hblank : Text.isBlank c = true) : lex word (c :: cs) = flush word ++ lex [] cs := by
  rw [lex, if_neg (by simp [hname]), if_pos hblank]
  rintro - rfl -
  exact absurd hblank (by decide)

theorem lex_nameChars {w : List Char} (word cs : List Char)
    (hw : ∀ c ∈ w, Text.isNameChar c = true) :
    lex word (w ++ cs) = lex (w.reverse ++ word) cs := by
  induction w generalizing word with
  | nil => rfl
  | cons c w ih =>
    rw [List.cons_append, lex_nameChar _ _ (hw c List.mem_cons_self),
      ih (c :: word) fun d hd => hw d (List.mem_cons_of_mem _ hd), List.reverse_cons,
      List.append_assoc]
    rfl

theorem flush_memberName (field : String) :
    flush ((memberName field).toList.reverse ++ []) = [.word (memberName field)] := by
  have hne : (memberName field).toList.reverse ++ [] ≠ [] := by
    simpa using memberName_ne_empty field
  rw [flush, if_neg hne, List.append_nil, List.reverse_reverse, String.ofList_toList]

theorem lex_memberName_mark (field : String) {c : Char} (cs : List Char)
    (hname : Text.isNameChar c = false) (hblank : Text.isBlank c = false) (hslash : c ≠ '/') :
    lex [] ((memberName field).toList ++ c :: cs) =
      .word (memberName field) :: mark c :: lex [] cs := by
  rw [lex_nameChars _ _ fun d hd => isNameChar_of_mem_memberName hd,
    lex_mark _ _ hname hblank hslash, flush_memberName]
  rfl

theorem lex_memberName_blank (field : String) {c : Char} (cs : List Char)
    (hname : Text.isNameChar c = false) (hblank : Text.isBlank c = true) :
    lex [] ((memberName field).toList ++ c :: cs) = .word (memberName field) :: lex [] cs := by
  rw [lex_nameChars _ _ fun d hd => isNameChar_of_mem_memberName hd,
    lex_blank _ _ hname hblank, flush_memberName]
  rfl

end GoToken

/-! ## Statements -/

inductive GoStatement where
  /-- An empty line, or a line with nothing but a comment. -/
  | nothing
  /-- `buf := new(buffer.Buffer)` -/
  | openBuffer
  /-- `return buf` -/
  | returnBuffer
  /-- `i.member = buf.ReadT()` -/
  | readValue (member : String) (type : Primitive)
  /-- `i.member = buf.Read(conversion(buf.ReadT()))` -/
  | readBytes (member conversion : String) (type : Primitive)
  /-- `buf.WriteT(i.member)` -/
  | writeValue (type : Primitive) (member : String)
  /-- `buf.WriteT(conversion(len(i.member)))` -/
  | writeLength (type : Primitive) (conversion member : String)
  /-- `buf.Write(i.member)` -/
  | writeBytes (member : String)
deriving Repr, DecidableEq

namespace GoStatement

/-- The type of which `verb` and its tag make up the name of a method. -/
def accessor? (verb method : String) : Option Primitive :=
  Primitive.all.find? fun t => verb ++ t.tag == method

open GoToken in
/-- The statement that assigns to a member what the tokens behind `=` spell. -/
def ofSource? (m : String) : List GoToken → Option GoStatement
  | [word b, mark '.', word f, mark '(', mark ')'] =>
    if b = "buf" then (accessor? "Read" f).map (readValue m) else none
  | [word b, mark '.', word r, mark '(', word c, mark '(', word b', mark '.', word f, mark '(',
      mark ')', mark ')', mark ')'] =>
    if b = "buf" ∧ r = "Read" ∧ b' = "buf" then (accessor? "Read" f).map (readBytes m c) else none
  | _ => none

open GoToken in
/-- The call of a method of the buffer with what the tokens behind the bracket spell. -/
def ofArgument? (f : String) : List GoToken → Option GoStatement
  | [word i, mark '.', word m, mark ')'] =>
    if i ≠ "i" then none
    else if f = "Write" then some (writeBytes m)
    else (accessor? "Write" f).map (writeValue · m)
  | [word c, mark '(', word l, mark '(', word i, mark '.', word m, mark ')', mark ')', mark ')'] =>
    if l = "len" ∧ i = "i" then (accessor? "Write" f).map (writeLength · c m) else none
  | _ => none

open GoToken in
def ofTokens? : List GoToken → Option GoStatement
  | [] => some nothing
  | word r :: mark '.' :: word m :: mark '=' :: source =>
    if r = "i" then ofSource? m source else none
  | word b :: mark '.' :: word f :: mark '(' :: argument =>
    if b = "buf" then ofArgument? f argument else none
  | tokens =>
    if tokens = [word "return", word "buf"] then some returnBuffer
    else if tokens = [word "buf", mark ':', mark '=', word "new", mark '(', word "buffer",
        mark '.', word "Buffer", mark ')'] then some openBuffer
    else none

def parse? (line : List Char) : Option GoStatement := ofTokens? (GoToken.lex [] line)

theorem accessor?_read (t : Primitive) : accessor? "Read" ("Read" ++ t.tag) = some t := by
  cases t <;> decide

theorem accessor?_write (t : Primitive) : accessor? "Write" ("Write" ++ t.tag) = some t := by
  cases t <;> decide

end GoStatement

/-! ## The lines of a field

Every line that is written for a field is read as the statement it stands for: the text before the
member, the member, and the text behind it are cut into tokens one after the other. -/

theorem lineOf_append (a : String) {b : String} (hb : b ≠ "") :
    lineOf (a ++ b) = a.toList ++ lineOf b := by
  rw [lineOf, lineOf, String.toList_append, List.dropLast_append_of_ne_nil]
  simpa using hb

theorem lineOf_line (a : String) : lineOf (a ++ "\n") = a.toList := by
  have hfeed : lineOf "\n" = [] := by decide
  rw [lineOf_append a (by decide), hfeed, List.append_nil]

theorem parse?_readValue (field : String) (t : Primitive) :
    GoStatement.parse? (lineOf (ReadLine.render (.value (memberName field) t))) =
      some (.readValue (memberName field) t) := by
  have hline : lineOf (ReadLine.render (.value (memberName field) t)) =
      "\ti.".toList ++ ((memberName field).toList ++
        ' ' :: ("= buf.Read".toList ++ (t.tag.toList ++ "()".toList))) := by
    change lineOf ("\ti." ++ memberName field ++ " = buf.Read" ++ t.tag ++ "()\n") = _
    rw [lineOf_append _ (by decide)]
    simp only [String.toList_append, List.append_assoc]
    congr 1
  have hbefore (cs : List Char) : GoToken.lex [] ("\ti.".toList ++ cs) =
      .word "i" :: .mark '.' :: GoToken.lex [] cs := rfl
  have hbehind : GoToken.lex [] ("= buf.Read".toList ++ (t.tag.toList ++ "()".toList)) =
      [.mark '=', .word "buf", .mark '.', .word ("Read" ++ t.tag), .mark '(', .mark ')'] := by
    cases t <;> decide
  rw [hline, GoStatement.parse?, hbefore,
    GoToken.lex_memberName_blank _ _ (by decide) (by decide), hbehind, GoStatement.ofTokens?,
    if_pos rfl, GoStatement.ofSource?, if_pos (by decide), GoStatement.accessor?_read,
    Option.map_some]

theorem parse?_readBytes (field : String) (t : Primitive) :
    GoStatement.parse? (lineOf (ReadLine.render (.bytes (memberName field) t))) =
      some (.readBytes (memberName field) "uint32" t) := by
  have hline : lineOf (ReadLine.render (.bytes (memberName field) t)) =
      "\ti.".toList ++ ((memberName field).toList ++
        ' ' :: ("= buf.Read(uint32(buf.Read".toList ++ (t.tag.toList ++ "()))".toList))) := by
    change lineOf
      ("\ti." ++ memberName field ++ " = buf.Read(uint32(buf.Read" ++ t.tag ++ "()))\n") = _
    rw [lineOf_append _ (by decide)]
    simp only [String.toList_append, List.append_assoc]
    congr 1
  have hbefore (cs : List Char) : GoToken.lex [] ("\ti.".toList ++ cs) =
      .word "i" :: .mark '.' :: GoToken.lex [] cs := rfl
  have hbehind : GoToken.lex []
        ("= buf.Read(uint32(buf.Read".toList ++ (t.tag.toList ++ "()))".toList)) =
      [.mark '=', .word "buf", .mark '.', .word "Read", .mark '(', .word "uint32", .mark '(',
        .word "buf", .mark '.', .word ("Read" ++ t.tag), .mark '(', .mark ')', .mark ')',
        .mark ')'] := by
    cases t <;> decide
  rw [hline, GoStatement.parse?, hbefore,
    GoToken.lex_memberName_blank _ _ (by decide) (by decide), hbehind, GoStatement.ofTokens?,
    if_pos rfl, GoStatement.ofSource?, if_pos (by decide), GoStatement.accessor?_read,
    Option.map_some]

theorem parse?_writeValue (field : String) (t : Primitive) :
    GoStatement.parse? (lineOf (WriteLine.render (.value t (memberName field)))) =
      some (.writeValue t (memberName field)) := by
  have hline : lineOf (WriteLine.render (.value t (memberName field))) =
      "\tbuf.Write".toList ++ (t.tag.toList ++ ("(i.".toList ++
        ((memberName field).toList ++ ')' :: []))) := by
    change lineOf ("\tbuf.Write" ++ t.tag ++ "(i." ++ memberName field ++ ")\n") = _
    rw [lineOf_append _ (by decide)]
    simp only [String.toList_append, List.append_assoc]
    congr 1
  have hbefore (cs : List Char) :
      GoToken.lex [] ("\tbuf.Write".toList ++ (t.tag.toList ++ ("(i.".toList ++ cs))) =
        .word "buf" :: .mark '.' :: .word ("Write" ++ t.tag) :: .mark '(' :: .word "i" ::
          .mark '.' :: GoToken.lex [] cs := by
    cases t <;> rfl
  have hmethod : "Write" ++ t.tag ≠ "Write" := by cases t <;> decide
  rw [hline, GoStatement.parse?, hbefore,
    GoToken.lex_memberName_mark _ _ (by decide) (by decide) (by decide), GoToken.lex_nil,
    GoStatement.ofTokens?, if_pos rfl,
    GoStatement.ofArgument?, if_neg (by simp), if_neg hmethod, GoStatement.accessor?_write,
    Option.map_some]

theorem parse?_writeLength (field : String) (t : Primitive) :
    GoStatement.parse? (lineOf (WriteLine.render (.length t (memberName field)))) =
      some (.writeLength t t.valueType (memberName field)) := by
  have hline : lineOf (WriteLine.render (.length t (memberName field))) =
      "\tbuf.Write".toList ++ (t.tag.toList ++ ("(".toList ++ (t.valueType.toList ++
        ("(len(i.".toList ++ ((memberName field).toList ++ ')' :: "))".toList))))) := by
    change lineOf ("\tbuf.Write" ++ t.tag ++ "(" ++ t.valueType ++ "(len(i." ++
      memberName field ++ ")))\n") = _
    rw [lineOf_append _ (by decide)]
    simp only [String.toList_append, List.append_assoc]
    congr 1
  have hbefore (cs : List Char) :
      GoToken.lex [] ("\tbuf.Write".toList ++ (t.tag.toList ++ ("(".toList ++
          (t.valueType.toList ++ ("(len(i.".toList ++ cs))))) =
        .word "buf" :: .mark '.' :: .word ("Write" ++ t.tag) :: .mark '(' ::
          .word t.valueType :: .mark '(' :: .word "len" :: .mark '(' :: .word "i" ::
          .mark '.' :: GoToken.lex [] cs := by
    cases t <;> rfl
  have hbehind : GoToken.lex [] "))".toList = [.mark ')', .mark ')'] := by decide
  rw [hline, GoStatement.parse?, hbefore,
    GoToken.lex_memberName_mark _ _ (by decide) (by decide) (by decide), hbehind,
    GoStatement.ofTokens?, if_pos rfl, GoStatement.ofArgument?, if_pos (by decide),
    GoStatement.accessor?_write, Option.map_some]

theorem parse?_writeBytes (field : String) :
    GoStatement.parse? (lineOf (WriteLine.render (.bytes (memberName field)))) =
      some (.writeBytes (memberName field)) := by
  have hline : lineOf (WriteLine.render (.bytes (memberName field))) =
      "\tbuf.Write(i.".toList ++ ((memberName field).toList ++ ')' :: []) := by
    change lineOf ("\tbuf.Write(i." ++ memberName field ++ ")\n") = _
    rw [lineOf_append _ (by decide)]
    simp only [String.toList_append, List.append_assoc]
    congr 1
  have hbefore (cs : List Char) : GoToken.lex [] ("\tbuf.Write(i.".toList ++ cs) =
      .word "buf" :: .mark '.' :: .word "Write" :: .mark '(' :: .word "i" :: .mark '.' ::
        GoToken.lex [] cs := rfl
  rw [hline, GoStatement.parse?, hbefore,
    GoToken.lex_memberName_mark _ _ (by decide) (by decide) (by decide), GoToken.lex_nil,
    GoStatement.ofTokens?, if_pos rfl, GoStatement.ofArgument?, if_neg (by simp), if_pos rfl]

/-- The comment that keeps a statement does nothing, whatever the statement is. -/
theorem parse?_unexpected (statement : String) :
    GoStatement.parse? (lineOf (unexpected statement)) = some .nothing := by
  have hline := lineOf_line ("\t// Unexpected code: " ++ statement)
  simp only [String.toList_append] at hline
  have hlex : GoToken.lex [] ("\t// Unexpected code: ".toList ++ statement.toList) = [] := rfl
  unfold unexpected
  rw [hline, GoStatement.parse?, hlex]
  rfl

end PacketGen.Generated
