import PacketGen.Proofs.Generated.MemberName
import PacketGen.Proofs.Text.SplitLines

/-!
# The text of the two methods

`readMethod` and `writeMethod` are a fixed frame around one run of lines for every field. Here the
frame and the lines are taken apart: what stands between the braces (`readBodyText`,
`writeBodyText`), and which lines it is made of once it is cut at its line feeds
(`splitLines_readBodyText`, `splitLines_writeBodyText`). The second needs that no line holds a line
feed itself, which is a matter of the statements kept in comments only: member names and tags never
do.
-/

namespace PacketGen.Generated

/-! ## Frames -/

def readHead (packet : String) : String :=
  "// Read implements Packet interface.\n" ++
    "func (i *" ++ packet ++ ") Read(buf *buffer.Buffer) \x7b"

def writeHead (packet : String) : String :=
  "// Write implements Packet interface.\n" ++
    "func (i " ++ packet ++ ") Write() *buffer.Buffer \x7b"

/-- The closing brace of a method and the empty line behind it. -/
def methodEnd : String := "\x7d\n\n"

def readText (fields : List Field) : String := String.join ((readBody fields).map ReadLine.render)

def writeText (fields : List Field) : String :=
  String.join ((writeBody fields).map WriteLine.render)

/-- What stands between the braces of a method with the given lines for its fields; a method
without lines has its braces side by side. -/
def readBodyText (lines : String) : String := if lines = "" then "" else "\n" ++ lines

def writeBodyText (lines : String) : String :=
  "\n\tbuf := new(buffer.Buffer)\n" ++ lines ++ "\treturn buf\n"

theorem render_ne_empty (l : ReadLine) : l.render ≠ "" := by
  intro h
  cases l with
  | value => exact absurd (String.append_eq_empty_iff.mp h).2 (by decide)
  | bytes => exact absurd (String.append_eq_empty_iff.mp h).2 (by decide)
  | comment => exact absurd (String.append_eq_empty_iff.mp h).2 (by decide)

theorem readText_cons_ne_empty (f : Field) (fs : List Field) : readText (f :: fs) ≠ "" := by
  rw [readText, readBody, List.map_cons, List.map_cons, String.join_cons]
  intro h
  exact render_ne_empty _ (String.append_eq_empty_iff.mp h).1

theorem readMethod_eq (p : Packet) :
    readMethod p = readHead p.name ++ readBodyText (readText p.fields) ++ methodEnd := by
  cases hfields : p.fields with
  | nil =>
    have hbody : readBodyText (readText []) = "" := if_pos rfl
    rw [readMethod, hfields, if_pos rfl, hbody, String.append_empty]
    rfl
  | cons f fs =>
    have hbody : readBodyText (readText (f :: fs)) = "\n" ++ readText (f :: fs) :=
      if_neg (readText_cons_ne_empty f fs)
    rw [readMethod, hfields, if_neg (List.cons_ne_nil f fs), hbody, ← String.append_assoc]
    rfl

theorem writeMethod_eq (p : Packet) :
    writeMethod p = writeHead p.name ++ writeBodyText (writeText p.fields) ++ methodEnd := by
  have hopen : ") Write() *buffer.Buffer \x7b\n" = ") Write() *buffer.Buffer \x7b" ++ "\n" := by
    decide
  have hfirst : "\n\tbuf := new(buffer.Buffer)\n" = "\n" ++ "\tbuf := new(buffer.Buffer)\n" := by
    decide
  have hclose : "\treturn buf\n\x7d\n\n" = "\treturn buf\n" ++ "\x7d\n\n" := by decide
  unfold writeMethod writeHead writeBodyText writeText methodEnd
  rw [hopen, hfirst, hclose]
  simp only [← String.append_assoc]

/-! ## What a field leaves -/

/-- The lines of a field in the method that reads and in the one that writes. Bytes are written
behind their length, and what is not recognised is kept in a comment. -/
inductive Trace : Field → (reads writes : List String) → Prop
  | value (type : Primitive) (name : String) : Trace (.value type name)
      ["\ti." ++ memberName name ++ " = buf.Read" ++ type.tag ++ "()\n"]
      ["\tbuf.Write" ++ type.tag ++ "(i." ++ memberName name ++ ")\n"]
  | bytes (type : Primitive) (name : String) : Trace (.bytes type name)
      ["\ti." ++ memberName name ++ " = buf.Read(uint32(buf.Read" ++ type.tag ++ "()))\n"]
      ["\tbuf.Write" ++ type.tag ++ "(" ++ type.valueType ++ "(len(i." ++ memberName name ++ ")))\n",
        "\tbuf.Write(i." ++ memberName name ++ ")\n"]
  | unknown (statement : String) : Trace (.unknown statement)
      ["\t// Unexpected code: " ++ statement ++ "\n"]
      ["\t// Unexpected code: " ++ statement ++ "\n"]

theorem trace_field (f : Field) :
    Trace f [(ReadLine.ofField f).render] ((WriteLine.ofField f).map WriteLine.render) := by
  cases f with
  | value type name => exact .value type name
  | bytes type name => exact .bytes type name
  | unknown statement => exact .unknown statement

/-- A text that is one line: its only line feed is its last character. -/
def OneLine (s : String) : Prop := ∃ l, s.toList = l ++ ['\n'] ∧ '\n' ∉ l

def lineOf (s : String) : List Char := s.toList.dropLast

theorem OneLine.toList_eq {s : String} (h : OneLine s) : s.toList = lineOf s ++ ['\n'] := by
  obtain ⟨l, hl, -⟩ := h
  simp [lineOf, hl]

theorem OneLine.not_mem {s : String} (h : OneLine s) : '\n' ∉ lineOf s := by
  obtain ⟨l, hl, hfeed⟩ := h
  simpa [lineOf, hl] using hfeed

theorem OneLine.append {a b : String} (ha : '\n' ∉ a.toList) (hb : OneLine b) :
    OneLine (a ++ b) := by
  obtain ⟨l, hl, hfeed⟩ := hb
  refine ⟨a.toList ++ l, by rw [String.toList_append, hl, List.append_assoc], ?_⟩
  simp [ha, hfeed]

theorem not_mem_toList_append {a b : String} {c : Char} (ha : c ∉ a.toList) (hb : c ∉ b.toList) :
    c ∉ (a ++ b).toList := by
  simp [String.toList_append, ha, hb]

/-- Lines one below the other are cut apart again where they were joined. -/
theorem toList_join_of_oneLine {ss : List String} (h : ∀ s ∈ ss, OneLine s) :
    (String.join ss).toList = Text.joinLines (ss.map lineOf) := by
  induction ss with
  | nil => rfl
  | cons s ss ih =>
    rw [String.join_cons, String.toList_append, (h s List.mem_cons_self).toList_eq,
      ih fun t ht => h t (List.mem_cons_of_mem _ ht), List.map_cons, Text.joinLines_cons,
      List.append_assoc]
    rfl

theorem feed_not_mem_tag (t : Primitive) : '\n' ∉ t.tag.toList := by cases t <;> decide

theorem feed_not_mem_valueType (t : Primitive) : '\n' ∉ t.valueType.toList := by
  cases t <;> decide

theorem feed_not_mem_memberName (field : String) : '\n' ∉ (memberName field).toList := fun h =>
  absurd (isNameChar_of_mem_memberName h) (by decide)

theorem oneLine_unexpected {statement : String} (h : '\n' ∉ statement.toList) :
    OneLine (unexpected statement) :=
  OneLine.append (not_mem_toList_append (by decide) h) ⟨[], rfl, by simp⟩

/-- Fields whose unrecognised statements hold no line feed. -/
def NoFeed (fields : List Field) : Prop :=
  ∀ statement, Field.unknown statement ∈ fields → '\n' ∉ statement.toList

theorem oneLine_readLine {fields : List Field} (h : NoFeed fields) {f : Field} (hf : f ∈ fields) :
    OneLine (ReadLine.ofField f).render := by
  have hm := feed_not_mem_memberName f.name
  cases f with
  | value t name =>
    exact OneLine.append (not_mem_toList_append (not_mem_toList_append
      (not_mem_toList_append (by decide) hm) (by decide)) (feed_not_mem_tag t))
      ⟨['(', ')'], rfl, by decide⟩
  | bytes t name =>
    exact OneLine.append (not_mem_toList_append (not_mem_toList_append
      (not_mem_toList_append (by decide) hm) (by decide)) (feed_not_mem_tag t))
      ⟨['(', ')', ')', ')'], rfl, by decide⟩
  | unknown statement => exact oneLine_unexpected (h statement hf)

theorem oneLine_writeLine {fields : List Field} (h : NoFeed fields) {f : Field} (hf : f ∈ fields)
    {l : WriteLine} (hl : l ∈ WriteLine.ofField f) : OneLine l.render := by
  have hm := feed_not_mem_memberName f.name
  cases f with
  | value t name =>
    rw [List.mem_singleton.mp hl]
    exact OneLine.append (not_mem_toList_append (not_mem_toList_append
      (not_mem_toList_append (by decide) (feed_not_mem_tag t)) (by decide)) hm)
      ⟨[')'], rfl, by decide⟩
  | bytes t name =>
    rcases List.mem_cons.mp hl with rfl | hl
    · exact OneLine.append (not_mem_toList_append (not_mem_toList_append (not_mem_toList_append
        (not_mem_toList_append (not_mem_toList_append (by decide) (feed_not_mem_tag t))
          (by decide)) (feed_not_mem_valueType t)) (by decide)) hm)
        ⟨[')', ')', ')'], rfl, by decide⟩
    · rw [List.mem_singleton.mp hl]
      exact OneLine.append (not_mem_toList_append (by decide) hm) ⟨[')'], rfl, by decide⟩
  | unknown statement =>
    rw [List.mem_singleton.mp hl]
    exact oneLine_unexpected (h statement hf)

/-- The lines of the method that reads, cut at its line feeds. -/
def readLines (fields : List Field) : List (List Char) :=
  (readBody fields).map fun l => lineOf l.render

def writeLines (fields : List Field) : List (List Char) :=
  (writeBody fields).map fun l => lineOf l.render

theorem feed_not_mem_readLines {fields : List Field} (h : NoFeed fields) :
    ∀ l ∈ readLines fields, '\n' ∉ l := by
  intro l hl
  obtain ⟨r, hr, rfl⟩ := List.mem_map.mp hl
  obtain ⟨f, hf, rfl⟩ := List.mem_map.mp hr
  exact (oneLine_readLine h hf).not_mem

theorem feed_not_mem_writeLines {fields : List Field} (h : NoFeed fields) :
    ∀ l ∈ writeLines fields, '\n' ∉ l := by
  intro l hl
  obtain ⟨w, hw, rfl⟩ := List.mem_map.mp hl
  obtain ⟨f, hf, hw⟩ := List.mem_flatMap.mp hw
  exact (oneLine_writeLine h hf hw).not_mem

theorem toList_readText {fields : List Field} (h : NoFeed fields) :
    (readText fields).toList = Text.joinLines (readLines fields) := by
  rw [readText, toList_join_of_oneLine, List.map_map, readLines]
  · rfl
  · intro s hs
    obtain ⟨r, hr, rfl⟩ := List.mem_map.mp hs
    obtain ⟨f, hf, rfl⟩ := List.mem_map.mp hr
    exact oneLine_readLine h hf

theorem toList_writeText {fields : List Field} (h : NoFeed fields) :
    (writeText fields).toList = Text.joinLines (writeLines fields) := by
  rw [writeText, toList_join_of_oneLine, List.map_map, writeLines]
  · rfl
  · intro s hs
    obtain ⟨w, hw, rfl⟩ := List.mem_map.mp hs
    obtain ⟨f, hf, hw⟩ := List.mem_flatMap.mp hw
    exact oneLine_writeLine h hf hw

/-- The method that reads has one line for every field and nothing else: what else its cut body
holds is the rest of the opening line and the start of the closing one. -/
theorem splitLines_readBodyText {fields : List Field} (h : NoFeed fields) (hne : fields ≠ []) :
    Text.splitLines (readBodyText (readText fields)).toList = [] :: readLines fields ++ [[]] := by
  obtain ⟨f, fs, rfl⟩ := List.exists_cons_of_ne_nil hne
  rw [readBodyText, if_neg (readText_cons_ne_empty f fs), String.toList_append,
    toList_readText h]
  have hsplit := Text.splitLines_joinLines [] (feed_not_mem_readLines h)
  rw [List.append_nil] at hsplit
  exact congrArg ([] :: ·) hsplit

/-- A text that starts with a line feed and one line, has lines joined below it and an end. -/
theorem splitLines_frame {first last : List Char} {ls : List (List Char)} (hfirst : '\n' ∉ first)
    (hls : ∀ l ∈ ls, '\n' ∉ l) :
    Text.splitLines ('\n' :: (first ++ '\n' :: (Text.joinLines ls ++ last))) =
      [] :: first :: (ls ++ Text.splitLines last) := by
  have hsplit := Text.splitLines_append_feed (Text.joinLines ls ++ last) hfirst
  rw [Text.splitLines_joinLines _ hls] at hsplit
  exact congrArg ([] :: ·) hsplit

/-- The method that writes opens a buffer, has the lines of every field, and returns it. -/
theorem splitLines_writeBodyText {fields : List Field} (h : NoFeed fields) :
    Text.splitLines (writeBodyText (writeText fields)).toList =
      [] :: "\tbuf := new(buffer.Buffer)".toList :: (writeLines fields ++
        ["\treturn buf".toList, []]) := by
  have hopen : "\n\tbuf := new(buffer.Buffer)\n".toList =
      '\n' :: ("\tbuf := new(buffer.Buffer)".toList ++ ['\n']) := by decide
  have htail : Text.splitLines "\treturn buf\n".toList = ["\treturn buf".toList, []] := by decide
  have hfeed : '\n' ∉ "\tbuf := new(buffer.Buffer)".toList := by decide
  have htext : (writeBodyText (writeText fields)).toList =
      '\n' :: ("\tbuf := new(buffer.Buffer)".toList ++
        '\n' :: (Text.joinLines (writeLines fields) ++ "\treturn buf\n".toList)) := by
    unfold writeBodyText
    simp only [String.toList_append, hopen, toList_writeText h, List.append_assoc, List.cons_append,
      List.nil_append]
  rw [htext, splitLines_frame hfeed (feed_not_mem_writeLines h), htail]

/-- Lines that are read one by one are read all. -/
theorem mapM_map_eq_some {α β γ : Type} {read : γ → Option β} {line : α → γ} {meaning : α → β}
    {xs : List α} (h : ∀ x ∈ xs, read (line x) = some (meaning x)) :
    (xs.map line).mapM read = some (xs.map meaning) := by
  induction xs with
  | nil => rfl
  | cons x xs ih =>
    obtain ⟨hx, hxs⟩ := List.forall_mem_cons.mp h
    rw [List.map_cons, List.mapM_cons, hx, ih hxs]
    rfl

end PacketGen.Generated
