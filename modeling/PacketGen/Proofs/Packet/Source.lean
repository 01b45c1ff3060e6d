import Mathlib.Control.Monad.Basic
import PacketGen.Packet
import PacketGen.Proofs.Constant.Reading
import PacketGen.Proofs.Field.Source
import PacketGen.Proofs.PacketClass.Between
import PacketGen.Proofs.PacketClass.Finding

/-!
# A packet survives being written as a class

`classSource` is the usual shape of a packet source: a class with its constants, a procedure that
reads its fields and one that writes them. However such a class is laid out, and whatever its
comments say, analyzing it gives the packet back (`analyze_classSource`).

Names are free in it, and so is the order of the layers that could confuse them: comments are gone
before a word is looked for, a class is told by the word behind its name, a procedure by being
called what it is called (`calls` in the text before it), and its lines by the grammar of
statements.
-/

namespace PacketGen

open Layout (Fills Uncommented Written)
open Text (Cut calls)
open Token (IsIdentifier Plain)

namespace Packet

/-! ## The lines of a class -/

def procedureSource (name : String) (lines : List String) : List String :=
  ("public function " ++ name ++ "()\x7b") :: (lines ++ ["\x7d"])

/-- What stands between the braces of a class. -/
def bodySource (constants : List Constant) (decode encode : List String) : List String :=
  constants.map (fun c => c.source ++ ";") ++
    (procedureSource "decode" decode ++ procedureSource "encode" encode)

def classSource (name : String) (constants : List Constant) (decode encode : List String) :
    List String :=
  ("class " ++ name ++ " extends DataPacket \x7b") ::
    (bodySource constants decode encode ++ ["\x7d"])

/-! ## What each line is to the searches -/

/-- A line that neither opens nor ends anything. -/
structure Inner (c : List Char) : Prop where
  plain : Plain c
  cut : Cut c

theorem Inner.not_mem {c : List Char} (hc : Inner c) :
    ('\x7b' ∉ c ∧ '\x7d' ∉ c) ∧ '\n' ∉ c ∧ Uncommented c :=
  ⟨⟨hc.plain.not_mem rfl (by decide), hc.plain.not_mem rfl (by decide)⟩,
    hc.plain.not_mem rfl (by decide),
    hc.plain.not_mem rfl (by decide), hc.plain.not_mem rfl (by decide)⟩

theorem inner_line {s : Statement} (hs : s.WellFormed) : Inner s.line.toList :=
  ⟨Statement.plain_line hs, s.cut_line⟩

theorem inner_constant {c : Constant} (hc : IsIdentifier c.name) :
    Inner (c.source ++ ";").toList := by
  rw [String.toList_append]
  exact ⟨(Constant.plain_source hc).append (by decide), .of_mark _ (by decide) (by decide)⟩

theorem toList_bodySource (constants : List Constant) (decode encode : List String) :
    (bodySource constants decode encode).map String.toList =
      (constants.map fun c => (c.source ++ ";").toList) ++ "public function decode()\x7b".toList ::
        (decode.map String.toList ++ ['\x7d'] :: ([] ++ "public function encode()\x7b".toList ::
          (encode.map String.toList ++ ['\x7d'] :: []))) := by
  simp [bodySource, procedureSource]

theorem forall_bodySource {P : List Char → Prop} {constants : List Constant}
    {read write : List Statement} (hconstants : ∀ c ∈ constants, P (c.source ++ ";").toList)
    (hread : ∀ s ∈ read, P s.line.toList) (hwrite : ∀ s ∈ write, P s.line.toList)
    (hdecode : P "public function decode()\x7b".toList)
    (hencode : P "public function encode()\x7b".toList) (hclose : P ['\x7d']) :
    ∀ l ∈ (bodySource constants (read.map Statement.line)
      (write.map Statement.line)).map String.toList, P l := by
  rw [toList_bodySource]
  simp only [List.forall_mem_append, List.forall_mem_cons, List.forall_mem_map, List.nil_append]
  exact ⟨hconstants, hdecode, hread, hclose, hencode, hwrite, hclose, by simp⟩

theorem inner_constants {constants : List Constant}
    (hconstants : ∀ c ∈ constants, IsIdentifier c.name) :
    ∀ l ∈ constants.map fun c => (c.source ++ ";").toList, Inner l ∧ '(' ∉ l := by
  intro l hl
  obtain ⟨c, hc, rfl⟩ := List.mem_map.mp hl
  refine ⟨inner_constant (hconstants c hc), ?_⟩
  simpa using Constant.open_not_mem_source (hconstants c hc)

theorem inner_lines {statements : List Statement} (h : ∀ s ∈ statements, s.WellFormed) :
    ∀ l ∈ (statements.map Statement.line).map String.toList,
      Inner l ∧ ∀ w ∈ calls l, IsCallee w := by
  simp only [List.forall_mem_map]
  intro s hs
  exact ⟨inner_line (h s hs), Statement.calls_line (h s hs)⟩

theorem feed_not_mem_bodySource {constants : List Constant} {read write : List Statement}
    (hconstants : ∀ c ∈ constants, IsIdentifier c.name) (hread : ∀ s ∈ read, s.WellFormed)
    (hwrite : ∀ s ∈ write, s.WellFormed) :
    ∀ l ∈ (bodySource constants (read.map Statement.line)
      (write.map Statement.line)).map String.toList, '\n' ∉ l :=
  forall_bodySource (fun c hc => (inner_constant (hconstants c hc)).not_mem.2.1)
    (fun s hs => (inner_line (hread s hs)).not_mem.2.1)
    (fun s hs => (inner_line (hwrite s hs)).not_mem.2.1) (by decide) (by decide) (by decide)

/-- No line of a class looks like a comment, so that only the comments are blanked. -/
theorem uncommented_classSource {className : String} {constants : List Constant}
    {read write : List Statement} (hclass : IsIdentifier className)
    (hconstants : ∀ c ∈ constants, IsIdentifier c.name) (hread : ∀ s ∈ read, s.WellFormed)
    (hwrite : ∀ s ∈ write, s.WellFormed) :
    ∀ l ∈ (classSource className constants (read.map Statement.line)
      (write.map Statement.line)).map String.toList, Uncommented l := by
  have hplain : Plain ("class ".toList ++ className.toList ++ " extends DataPacket ".toList) :=
    (Plain.append (by decide) hclass.plain).append (by decide)
  have hopen : ("class " ++ className ++ " extends DataPacket \x7b").toList =
      ("class ".toList ++ className.toList ++ " extends DataPacket ".toList) ++ ['\x7b'] := by
    simp
  have hheader : Uncommented ("class " ++ className ++ " extends DataPacket \x7b").toList := by
    rw [hopen]
    exact Uncommented.append ⟨hplain.not_mem rfl (by decide), hplain.not_mem rfl (by decide)⟩
      (by decide)
  have hbody : ∀ l ∈ (bodySource constants (read.map Statement.line)
      (write.map Statement.line)).map String.toList, Uncommented l :=
    forall_bodySource (fun c hc => (inner_constant (hconstants c hc)).not_mem.2.2)
      (fun s hs => (inner_line (hread s hs)).not_mem.2.2)
      (fun s hs => (inner_line (hwrite s hs)).not_mem.2.2) (by decide) (by decide) (by decide)
  simp only [classSource, List.map_cons, List.map_append, List.forall_mem_cons,
    List.forall_mem_append]
  exact ⟨hheader, hbody, by decide, by simp⟩

/-! ## The parts of a class body -/

/-- Where the pieces of a class body are: its constants, the two procedures' lines, and nothing but
layout behind each of the procedures. -/
structure Parts (constants decode encode : List (List Char)) (B K D M E N : List Char) : Prop where
  text : B = K ++ ("public function ".toList ++ "decode".toList ++ "()\x7b".toList ++
    (D ++ '\x7d' :: (M ++ ("public function ".toList ++ "encode".toList ++ "()\x7b".toList ++
      (E ++ '\x7d' :: N)))))
  constants : Fills constants K
  decode : Fills decode D
  amid : Fills [] M
  encode : Fills encode E
  behind : Fills [] N

theorem exists_parts {constants : List Constant} {decode encode : List String} {B : List Char}
    (h : Fills ((bodySource constants decode encode).map String.toList) B) :
    ∃ K D M E N, Parts (constants.map fun c => (c.source ++ ";").toList)
      (decode.map String.toList) (encode.map String.toList) B K D M E N := by
  rw [toList_bodySource] at h
  obtain ⟨K, B₁, rfl, hK, h⟩ := h.split
  obtain ⟨D, B₂, rfl, hD, h⟩ := h.split
  obtain ⟨M, B₃, rfl, hM, h⟩ := h.split
  obtain ⟨E, N, rfl, hE, hN⟩ := h.split
  exact ⟨K, D, M, E, N, by simp, hK, hD, hM, hE, hN⟩

variable {constants decode encode : List (List Char)} {B K D M E N : List Char}

theorem Parts.balanced (h : Parts constants decode encode B K D M E N)
    (hconstants : ∀ c ∈ constants, Inner c) (hdecode : ∀ c ∈ decode, Inner c)
    (hencode : ∀ c ∈ encode, Inner c) :
    Brackets.braces.Balanced B ∧ Brackets.braces.Balanced D ∧ Brackets.braces.Balanced E := by
  have hK := h.constants.balanced fun c hc => (hconstants c hc).not_mem.1
  have hD := h.decode.balanced fun c hc => (hdecode c hc).not_mem.1
  have hM := h.amid.balanced (by simp)
  have hE := h.encode.balanced fun c hc => (hencode c hc).not_mem.1
  have hN := h.behind.balanced (by simp)
  have hfirst : Brackets.braces.Balanced ("public function ".toList ++ "decode".toList ++
      "()".toList) := Brackets.balanced_of_not_mem (by decide) (by decide)
  have hsecond : Brackets.braces.Balanced ("public function ".toList ++ "encode".toList ++
      "()".toList) := Brackets.balanced_of_not_mem (by decide) (by decide)
  have hB : B = K ++ ("public function ".toList ++ "decode".toList ++ "()".toList ++
      '\x7b' :: (D ++ '\x7d' :: (M ++ ("public function ".toList ++ "encode".toList ++
        "()".toList ++ '\x7b' :: (E ++ '\x7d' :: N))))) := by
    rw [h.text]
    simp
  refine ⟨?_, hD, hE⟩
  -- The body's only brackets are the two blocks.
  rw [hB]
  exact hK.append (hfirst.append (.block hD (hM.append (hsecond.append (.block hE hN)))))

theorem Parts.calls_constants (h : Parts constants decode encode B K D M E N)
    (hconstants : ∀ c ∈ constants, Inner c ∧ '(' ∉ c) : Cut K ∧ calls K = [] := by
  obtain ⟨hcut, hcalls⟩ := h.constants.calls fun c hc => (hconstants c hc).1.cut
  refine ⟨hcut, ?_⟩
  rw [hcalls]
  exact List.flatMap_eq_nil_iff.mpr fun c hc => Text.calls_of_not_mem (hconstants c hc).2

/-- The reading procedure is found: nothing but constants is before it. -/
theorem Parts.findProcedure_decode (h : Parts constants decode encode B K D M E N)
    (hconstants : ∀ c ∈ constants, Inner c ∧ '(' ∉ c) (hD : Brackets.braces.Balanced D)
    (A tail : List Char) :
    ∃ p, PacketClass.findProcedure (A ++ B ++ tail) A.length (A.length + B.length) "decode" =
      .ok (some p) ∧ p.statements = (PacketClass.codeLines D).map String.ofList := by
  obtain ⟨hcut, hnone⟩ := h.calls_constants hconstants
  rw [h.text]
  exact PacketClass.findProcedure_function (by decide) hcut (by simp [hnone]) hD

/-- The writing procedure is found: what is called before it is the reading one, and what that one
calls. -/
theorem Parts.findProcedure_encode (h : Parts constants decode encode B K D M E N)
    (hconstants : ∀ c ∈ constants, Inner c ∧ '(' ∉ c)
    (hdecode : ∀ c ∈ decode, Inner c ∧ ∀ w ∈ calls c, IsCallee w)
    (hE : Brackets.braces.Balanced E) (A tail : List Char) :
    ∃ p, PacketClass.findProcedure (A ++ B ++ tail) A.length (A.length + B.length) "encode" =
      .ok (some p) ∧ p.statements = (PacketClass.codeLines E).map String.ofList := by
  obtain ⟨hcutK, hnone⟩ := h.calls_constants hconstants
  obtain ⟨hcutD, hcallsD⟩ := h.decode.calls fun c hc => (hdecode c hc).1.cut
  obtain ⟨hcutM, hcallsM⟩ := h.amid.calls (by simp)
  have hhead : Cut "public function decode()\x7b".toList :=
    .of_mark "public function decode()".toList (by decide) (by decide)
  have hclose : Cut ['\x7d'] := .of_mark [] (by decide) (by decide)
  have hcut := hcutK.append (hhead.append (hcutD.append (hclose.append hcutM)))
  have hcalls : "encode".toList ∉ calls (K ++ ("public function decode()\x7b".toList ++
      (D ++ (['\x7d'] ++ M)))) := by
    have hfirst : calls "public function decode()\x7b".toList = ["decode".toList] := by decide
    have hlast : calls ['\x7d'] = [] := rfl
    rw [Text.calls_append hcutK, Text.calls_append hhead, Text.calls_append hcutD,
      Text.calls_append hclose, hnone, hfirst, hcallsD, hlast, hcallsM, List.flatMap_nil]
    -- What is called before is `decode`, and what its statements call.
    intro hmem
    rcases List.mem_cons.mp hmem with hmem | hmem
    · exact absurd hmem (by decide)
    · rw [List.append_nil, List.append_nil] at hmem
      obtain ⟨c, hc, hw⟩ := List.mem_flatMap.mp hmem
      exact absurd ((hdecode c hc).2 _ hw) (by decide)
  have hB : B = (K ++ ("public function decode()\x7b".toList ++ (D ++ (['\x7d'] ++ M)))) ++
      ("public function ".toList ++ "encode".toList ++ "()\x7b".toList ++ (E ++ '\x7d' :: N)) := by
    rw [h.text]
    simp
  rw [hB]
  exact PacketClass.findProcedure_function (by decide) hcut hcalls hE

/-! ## The constants of a class body -/

theorem filterMap_parse?_codeLines (code : List (List Char)) :
    (code.filter (· ≠ [])).filterMap Constant.parse? = code.filterMap Constant.parse? := by
  induction code with
  | nil => rfl
  | cons c code ih =>
    by_cases hc : c = []
    · rw [List.filter_cons_of_neg (by simp [hc]), ih, hc,
        List.filterMap_cons_none Constant.parse?_nil]
    · rw [List.filter_cons_of_pos (by simp [hc]), List.filterMap_cons, List.filterMap_cons, ih]

theorem filterMap_constants {constants : List Constant}
    (h : ∀ c ∈ constants, IsIdentifier c.name ∧ Constant.fits c.value = true) :
    (constants.map fun c => (c.source ++ ";").toList).filterMap
      (Constant.parse? ∘ PacketClass.cleanStatement) = constants := by
  induction constants with
  | nil => rfl
  | cons c constants ih =>
    obtain ⟨⟨hname, hvalue⟩, hrest⟩ := List.forall_mem_cons.mp h
    have hline : (c.source ++ ";").toList = c.source.toList ++ [';'] := by
      simp only [String.toList_append]
      rfl
    rw [List.map_cons, List.filterMap_cons_some (b := c) ?_, ih hrest]
    rw [Function.comp_apply, hline, Constant.cleanStatement_source,
      Constant.parse?_source hname hvalue]

theorem filterMap_statements {statements : List Statement} (h : ∀ s ∈ statements, s.WellFormed) :
    ((statements.map Statement.line).map String.toList).filterMap
      (Constant.parse? ∘ PacketClass.cleanStatement) = [] := by
  refine List.filterMap_eq_nil_iff.mpr fun l hl => ?_
  obtain ⟨t, ht, rfl⟩ := List.mem_map.mp hl
  obtain ⟨s, hs, rfl⟩ := List.mem_map.mp ht
  rw [Function.comp_apply, s.cleanStatement_line, Constant.parse?_statement (h s hs)]

/-- Of all the lines of a class body, the constants are those that were written as such. -/
theorem localConstants_body {constants : List Constant} {read write : List Statement}
    {A B tail : List Char} {reserved : String}
    (hconstants : ∀ c ∈ constants, IsIdentifier c.name ∧ Constant.fits c.value = true)
    (hreserved : ∀ c ∈ constants, c.name ≠ reserved) (hread : ∀ s ∈ read, s.WellFormed)
    (hwrite : ∀ s ∈ write, s.WellFormed)
    (hB : Fills ((bodySource constants (read.map Statement.line)
      (write.map Statement.line)).map String.toList) B) :
    PacketClass.localConstants (A ++ B ++ tail) A.length (A.length + B.length) reserved =
      constants.map fun c => ⟨Text.upperToPascal c.name, c.value⟩ := by
  have hfeed := feed_not_mem_bodySource (fun c hc => (hconstants c hc).1) hread hwrite
  have hdecode : (Constant.parse? ∘ PacketClass.cleanStatement)
      "public function decode()\x7b".toList = none := by decide
  have hencode : (Constant.parse? ∘ PacketClass.cleanStatement)
      "public function encode()\x7b".toList = none := by decide
  have hclose : (Constant.parse? ∘ PacketClass.cleanStatement) ['\x7d'] = none := by decide
  have hlines : (PacketClass.cleanLines B).filterMap Constant.parse? = constants := by
    rw [← filterMap_parse?_codeLines, ← PacketClass.codeLines, PacketClass.codeLines_fills hB hfeed,
      filterMap_parse?_codeLines, List.filterMap_map, toList_bodySource, List.filterMap_append,
      filterMap_constants hconstants, List.filterMap_cons_none hdecode, List.filterMap_append,
      filterMap_statements hread, List.filterMap_cons_none hclose, List.nil_append, List.nil_append,
      List.filterMap_cons_none hencode, List.filterMap_append, filterMap_statements hwrite,
      List.filterMap_cons_none hclose]
    exact List.append_nil constants
  have hkept : constants.filter (·.name ≠ reserved) = constants :=
    List.filter_eq_self.mpr fun c hc => by simpa using hreserved c hc
  rw [PacketClass.localConstants, Text.slice, Text.slice_middle, hlines, hkept]

/-! ## Reading the class back -/

theorem asymmetry?_of_fields {config : Config} {c : PacketClass} {p q : Procedure}
    (hencode : c.encode = some p) (hdecode : c.decode = some q)
    (hfields : Field.ofStatements p.statements = Field.ofStatements q.statements) :
    asymmetry? config c = none := by
  unfold asymmetry?
  simp [hencode, hdecode, hfields]

theorem codeLines_statements {statements : List Statement} {D : List Char}
    (hstatements : ∀ s ∈ statements, s.WellFormed)
    (h : Fills ((statements.map Statement.line).map String.toList) D) :
    (PacketClass.codeLines D).map String.ofList = statements.map Statement.source := by
  have hfeed : ∀ l ∈ (statements.map Statement.line).map String.toList, '\n' ∉ l := by
    simp only [List.forall_mem_map]
    exact fun s hs => (inner_line (hstatements s hs)).not_mem.2.1
  have hclean : ((statements.map Statement.line).map String.toList).map
      PacketClass.cleanStatement = statements.map fun s => s.source.toList := by
    rw [List.map_map, List.map_map]
    exact List.map_congr_left fun s _ => s.cleanStatement_line
  have hkept : (statements.map fun s => s.source.toList).filter (· ≠ []) =
      statements.map fun s => s.source.toList := by
    refine List.filter_eq_self.mpr fun l hl => ?_
    obtain ⟨s, -, rfl⟩ := List.mem_map.mp hl
    simp [s.source_ne_empty]
  rw [PacketClass.codeLines_fills h hfeed, hclean, hkept, List.map_map]
  exact List.map_congr_left fun s _ => String.ofList_toList

theorem extract_classSource {className : String} {constants : List Constant}
    {read write : List Statement} {lines : List (List Char)} (hclass : IsIdentifier className)
    (hconstants : ∀ c ∈ constants,
      IsIdentifier c.name ∧ c.name ≠ "NETWORK_ID" ∧ Constant.fits c.value = true)
    (hread : ∀ s ∈ read, s.WellFormed) (hwrite : ∀ s ∈ write, s.WellFormed)
    (hlines : Written ((classSource className constants (read.map Statement.line)
      (write.map Statement.line)).map String.toList) lines) :
    ∃ c p q, PacketClass.extract Config.default (.ofList (Layout.ofLines lines)) = .ok c ∧
      c.constants = constants.map (fun c => ⟨Text.upperToPascal c.name, c.value⟩) ∧
      c.decode = some p ∧ p.statements = read.map Statement.source ∧
      c.encode = some q ∧ q.statements = write.map Statement.source := by
  have hnames : ∀ c ∈ constants, IsIdentifier c.name := fun c hc => (hconstants c hc).1
  have hinnerConstants := inner_constants hnames
  have hinnerRead := inner_lines hread
  have hinnerWrite := inner_lines hwrite
  have hcode := uncommented_classSource hclass hnames hread hwrite
  -- With its comments blanked the source is `A`, the header; `B`, the body; and a brace.
  rw [classSource, List.map_cons, List.map_append] at hlines hcode
  obtain ⟨W, B, tail, htext, hW, hB⟩ := hlines.around hcode
  obtain ⟨K, D, M, E, N, hparts⟩ := exists_parts hB
  obtain ⟨hbalanced, hD, hE⟩ := hparts.balanced (fun c hc => (hinnerConstants c hc).1)
    (fun c hc => (hinnerRead c hc).1) (fun c hc => (hinnerWrite c hc).1)
  generalize hA : W ++ "class ".toList ++ className.toList ++ " extends DataPacket \x7b".toList = A
  have hsource : blankComments (Layout.ofLines lines) = A ++ B ++ '\x7d' :: tail := by
    rw [htext, ← hA]
    simp
  have hfind := PacketClass.findBody_header tail hW hclass.isWord hbalanced
  dsimp only at hfind
  rw [hA] at hfind
  obtain ⟨p, hp, hpStatements⟩ :=
    hparts.findProcedure_decode hinnerConstants hD A ('\x7d' :: tail)
  obtain ⟨q, hq, hqStatements⟩ :=
    hparts.findProcedure_encode hinnerConstants hinnerRead hE A ('\x7d' :: tail)
  have hlocal : PacketClass.localConstants (A ++ B ++ '\x7d' :: tail) A.length
      (A.length + B.length) Config.default.reservedConstant = _ :=
    localConstants_body (fun c hc => ⟨hnames c hc, (hconstants c hc).2.2⟩)
      (fun c hc => (hconstants c hc).2.1) hread hwrite hB
  have hblanked : blankComments (String.ofList (Layout.ofLines lines)).toList =
      A ++ B ++ '\x7d' :: tail := by
    rw [String.toList_ofList, hsource]
  exact ⟨_, p, q, PacketClass.extract_of_found hblanked hfind hq hp, hlocal, rfl,
    hpStatements.trans (codeLines_statements hread hparts.decode), rfl,
    hqStatements.trans (codeLines_statements hwrite hparts.encode)⟩

/-- **A packet survives being written as a class.** Analyzing the source gives its constants, by
their generated names, and its fields in wire order; and both procedures, though they look
different, are read as these very fields. -/
theorem analyze_classSource {name className : String} {constants : List Constant}
    {fields : List Field} {decode encode : List String} {lines : List (List Char)}
    (hclass : IsIdentifier className)
    (hconstants : ∀ c ∈ constants,
      IsIdentifier c.name ∧ c.name ≠ "NETWORK_ID" ∧ Constant.fits c.value = true)
    (hfields : ∀ f ∈ fields, f.WellFormed)
    (hdecode : Field.WithResets (fields.flatMap Field.readSource) decode)
    (hencode : Field.WithResets (fields.flatMap Field.writeSource) encode)
    (hlines : Written ((classSource className constants decode encode).map String.toList) lines) :
    let source := String.ofList (Layout.ofLines lines)
    analyze Config.default name source =
        .ok ⟨name, constants.map fun c => ⟨Text.upperToPascal c.name, c.value⟩, fields⟩ ∧
      ∃ c p q, PacketClass.extract Config.default source = .ok c ∧
        c.decode = some p ∧ Field.ofStatements p.statements = fields ∧
        c.encode = some q ∧ Field.ofStatements q.statements = fields := by
  intro source
  obtain ⟨read, rfl, hread, hreadFields⟩ :=
    hdecode.exists_of_standFor fun f hf => Field.standFor_read (hfields f hf)
  obtain ⟨write, rfl, hwrite, hwriteFields⟩ :=
    hencode.exists_of_standFor fun f hf => Field.standFor_write (hfields f hf)
  obtain ⟨c, p, q, hextract, hlocal, hp, hpStatements, hq, hqStatements⟩ :=
    extract_classSource hclass hconstants hread hwrite hlines
  have hpFields : Field.ofStatements p.statements = fields := by rw [hpStatements, hreadFields]
  have hqFields : Field.ofStatements q.statements = fields := by rw [hqStatements, hwriteFields]
  -- Both procedures recognise all of the fields, so they recognise equally many.
  have hsymmetric : asymmetry? Config.default c = none :=
    asymmetry?_of_fields hq hp (hqFields.trans hpFields.symm)
  have hwhole : fieldsOf c = fields := by
    simp [fieldsOf, Procedure.fields, hp, hq, hpFields, hqFields]
  refine ⟨?_, c, p, q, hextract, hp, hpFields, hq, hqFields⟩
  rw [← hlocal, ← hwhole]
  simp only [analyze, source, hextract, bind, Except.bind, hsymmetric]

/-- Names that are keywords, a brace in a comment, and a reset right before raw bytes. -/
theorem analyze_classSource_extends :
    analyze Config.default "Login" (.ofList (Layout.ofLines
      ["// \x7b class".toList, "class extends extends DataPacket \x7b".toList,
        "\tconst MAX_LEN = -5;".toList, "  public function decode()\x7b".toList,
        "$this->encode = $this->get($this->getShort());".toList, "\x7d".toList, [],
        "public function encode()\x7b".toList, "$this->putShort(strlen($this->encode));".toList,
        "\t$this->reset();".toList, "$this->put($this->encode);".toList, "\x7d".toList,
        "\x7d".toList])) =
      .ok ⟨"Login", [⟨"MaxLen", -5⟩], [.bytes .short "encode"]⟩ := by
  have hnone : Layout.Indent [] := by decide
  have htab : Layout.Indent ['\t'] := by decide
  have hspaces : Layout.Indent [' ', ' '] := by decide
  have hlines : Written ((classSource "extends" [⟨"MAX_LEN", -5⟩]
      ["$this->encode = $this->get($this->getShort());"]
      ["$this->putShort(strlen($this->encode));", "$this->reset();",
        "$this->put($this->encode);"]).map String.toList) _ :=
    .comment " \x7b class".toList hnone (by decide) <| .code _ hnone <| .code _ htab <|
    .code _ hspaces <| .code _ hnone <| .code _ hnone <| .blank hnone <| .code _ hnone <|
    .code _ hnone <| .code _ htab <| .code _ hnone <| .code _ hnone <| .code _ hnone .nil
  have hconstants : ∀ c ∈ [(⟨"MAX_LEN", -5⟩ : Constant)],
      IsIdentifier c.name ∧ c.name ≠ "NETWORK_ID" ∧ Constant.fits c.value = true := by
    simp only [List.forall_mem_singleton]
    exact ⟨Token.isIdentifier_of_all rfl rfl rfl, by decide, by decide⟩
  have hfields : ∀ f ∈ [Field.bytes .short "encode"], f.WellFormed := by
    simp only [List.forall_mem_singleton]
    exact ⟨rfl, Token.isIdentifier_of_all rfl rfl rfl⟩
  have hanalyze : analyze Config.default "Login" _ = _ ∧ _ :=
    analyze_classSource (Token.isIdentifier_of_all rfl rfl rfl) hconstants hfields (.line _ .nil)
      (.line _ (.reset (.line _ .nil))) hlines
  exact hanalyze.1

end Packet

end PacketGen
