import PacketGen.Proofs.Generated.Dispatch
import PacketGen.Proofs.Generated.IdentifierDeclarations
import PacketGen.Proofs.Generated.StructText

/-!
# What the packets of a file declare

A generated packet declares its struct and its constants, each under the name of the packet and its
own together. The packet written from the template declares its struct, and one left to be written
by hand declares nothing: all that is known of it stands in comments, whatever it is. Methods belong
to their structs, so they declare nothing here, and nor do members.

This is the place where names are put together from two parts. Nothing in the text of one packet
tells whether another has the same name, so nothing is said about that here.
-/

namespace PacketGen.Generated

open GoLexeme (code declared declared? opened? EndsWord)

/-! ## Headings with a name in them -/

theorem endsWord_append {cs : List Char} (ds : List Char) (hcs : EndsWord cs) (hne : cs ≠ []) :
    EndsWord (cs ++ ds) := by
  obtain ⟨c, cs, rfl⟩ := List.exists_cons_of_ne_nil hne
  exact hcs

theorem endsWord_of_head? {cs : List Char} (h : cs.head?.any isGoWordChar = false) :
    EndsWord cs := by
  intro c hc
  rw [Option.mem_def.mp hc] at h
  exact h

/-- A text, a name and what is behind it are read one after the other. -/
theorem code_around {a w b : String} (before : List GoLexeme) {behind : List GoLexeme}
    (ha : ∀ cs, code (a.toList ++ cs) = before ++ code cs) (hw : IsGoWord w)
    (hb : EndsWord b.toList) (hbehind : code b.toList = behind) :
    code (a ++ w ++ b).toList = before ++ .word w :: behind := by
  rw [String.toList_append, String.toList_append, List.append_assoc, ha, code_word hw hb, hbehind]

section Names

variable {w v : String}

theorem IsStem.ne_blank (h : IsStem w) : w ≠ "_" := by
  rintro rfl
  exact absurd (h.2.alphanum '_' (by decide)) (by decide)

theorem IsStem.append (hw : IsStem w) (hv : Text.IsPascal v) : IsStem (w ++ v) := by
  have hne : w.toList ≠ [] := by simpa using hw.1
  obtain ⟨c, cs, hcs⟩ := List.exists_cons_of_ne_nil hne
  refine ⟨?_, ⟨?_, ?_⟩⟩
  · intro hempty
    exact hw.1 (String.append_eq_empty_iff.mp hempty).1
  · intro d hd
    rw [String.toList_append] at hd
    exact (List.mem_append.mp hd).elim (hw.2.alphanum d) (hv.alphanum d)
  · intro d hd
    rw [String.toList_append, hcs] at hd
    exact hw.2.first d (by rw [hcs]; exact hd)

theorem code_struct (hw : IsGoWord w) : code ("type " ++ w ++ " struct \x7b").toList =
    [.word "type", .word w, .word "struct", .mark '{'] :=
  code_around [.word "type"] (fun _ => rfl) hw (endsWord_of_head? rfl) (by decide)

theorem code_emptyStruct (hw : IsGoWord w) : code ("type " ++ w ++ " struct\x7b\x7d").toList =
    [.word "type", .word w, .word "struct", .mark '{', .mark '\x7d'] :=
  code_around [.word "type"] (fun _ => rfl) hw (endsWord_of_head? rfl) (by decide)

theorem code_pid (hw : IsGoWord w) (hv : IsGoWord v) :
    code ("func (i " ++ w ++ ") Pid() PacketID \x7b return " ++ v ++ " \x7d").toList =
      [.word "func", .mark '(', .word "i", .word w, .mark ')', .word "Pid", .mark '(', .mark ')',
        .word "PacketID", .mark '{', .word "return", .word v, .mark '\x7d'] := by
  have hopen (cs : List Char) : code ("func (i ".toList ++ cs) =
      [.word "func", .mark '(', .word "i"] ++ code cs := rfl
  have hmiddle (cs : List Char) : code (") Pid() PacketID \x7b return ".toList ++ cs) =
      [.mark ')', .word "Pid", .mark '(', .mark ')', .word "PacketID", .mark '{',
        .word "return"] ++ code cs := rfl
  have hend : code " \x7d".toList = [.mark '\x7d'] := by decide
  simp only [String.toList_append, List.append_assoc]
  rw [hopen, code_word hw (endsWord_append _ (endsWord_of_head? rfl) (by decide)), hmiddle,
    code_word hv (endsWord_of_head? rfl), hend]
  rfl

theorem code_read (hw : IsGoWord w) :
    code ("func (i *" ++ w ++ ") Read(buf *buffer.Buffer) \x7b").toList =
      [.word "func", .mark '(', .word "i", .mark '*', .word w, .mark ')', .word "Read", .mark '(',
        .word "buf", .mark '*', .word "buffer", .mark '.', .word "Buffer", .mark ')',
        .mark '{'] :=
  code_around [.word "func", .mark '(', .word "i", .mark '*'] (fun _ => rfl) hw
    (endsWord_of_head? rfl) (by decide)

theorem code_emptyRead (hw : IsGoWord w) :
    code ("func (i *" ++ w ++ ") Read(buf *buffer.Buffer) \x7b\x7d").toList =
      [.word "func", .mark '(', .word "i", .mark '*', .word w, .mark ')', .word "Read", .mark '(',
        .word "buf", .mark '*', .word "buffer", .mark '.', .word "Buffer", .mark ')', .mark '{',
        .mark '\x7d'] :=
  code_around [.word "func", .mark '(', .word "i", .mark '*'] (fun _ => rfl) hw
    (endsWord_of_head? rfl) (by decide)

theorem code_write (hw : IsGoWord w) :
    code ("func (i " ++ w ++ ") Write() *buffer.Buffer \x7b").toList =
      [.word "func", .mark '(', .word "i", .word w, .mark ')', .word "Write", .mark '(', .mark ')',
        .mark '*', .word "buffer", .mark '.', .word "Buffer", .mark '{'] :=
  code_around [.word "func", .mark '(', .word "i"] (fun _ => rfl) hw
    (endsWord_of_head? rfl) (by decide)

end Names

/-! ## Constants -/

variable {p : Packet}

def constantLine (packet : String) (c : Constant) : String :=
  "\t" ++ constantName packet c.name ++ " " ++ constantType c.value ++ " = " ++
    toString c.value ++ "\n"

theorem packetConstants_eq (p : Packet) :
    packetConstants p = constantBlock (p.constants.map (constantLine p.name)) := by
  unfold packetConstants constantBlock
  by_cases hne : p.constants = []
  · rw [if_pos hne, if_pos (List.map_eq_nil_iff.mpr hne)]
  · rw [if_neg hne, if_neg fun h => hne (List.map_eq_nil_iff.mp h)]
    rfl

theorem isGoWord_constantType (v : Int) : IsGoWord (constantType v) := by
  unfold constantType
  repeat' split
  all_goals exact isGoWord_of_all (by decide) rfl

/-- What is asked of a packet: its name and those of its constants are words, and the statements
that it keeps are on one line. -/
structure Packet.Plain (p : Packet) : Prop where
  name : IsStem p.name
  constants : ∀ c ∈ p.constants, Text.IsPascal c.name
  statements : NoFeed p.fields

/-- The names of the constants of a packet. -/
def constantNames (p : Packet) : List String := p.constants.map fun c => constantName p.name c.name

theorem goSection_packetConstants (h : Packet.Plain p) :
    GoSection (packetConstants p).toList (constantNames p) := by
  have hstem : ∀ c ∈ p.constants, IsStem (constantName p.name c.name) := fun c hc =>
    h.name.append (h.constants c hc)
  have hline : ∀ c : Constant, lineOf (constantLine p.name c) =
      '\t' :: ((constantName p.name c.name).toList ++ ' ' :: ((constantType c.value).toList ++
        ' ' :: ("= ".toList ++ (toString c.value).toList))) := by
    intro c
    rw [constantLine, lineOf_line]
    simp only [String.toList_append, List.append_assoc]
    rfl
  have hentry : ∀ c ∈ p.constants, IsEntry (constantLine p.name c) := by
    intro c hc
    refine ⟨(constantName p.name c.name ++ " " ++ constantType c.value ++ " = " ++
      toString c.value).toList, ?_, ?_⟩
    · simp only [constantLine, String.toList_append, List.append_assoc]
      rfl
    · simp only [String.toList_append, List.mem_append, (hstem c hc).isGoWord.feed_not_mem,
        (isGoWord_constantType c.value).feed_not_mem, feed_not_mem_toString]
      decide
  have hread : ∀ c ∈ p.constants, constantGroup.entries? (lineOf (constantLine p.name c)) =
      some [constantName p.name c.name] := by
    intro c hc
    rw [hline, entries?_typed (hstem c hc).isGoWord (isGoWord_constantType c.value),
      declared_of_ne (hstem c hc).ne_blank]
  have hblock := goSection_constantBlock hentry hread
  rw [← packetConstants_eq, ← List.map_eq_flatMap] at hblock
  exact hblock

/-! ## The struct and the methods -/

theorem isEntry_of_oneLine {s : String} (hline : OneLine s) (htab : s.toList.head? = some '\t') :
    IsEntry s := by
  obtain ⟨l, hl, hfeed⟩ := hline
  cases l with
  | nil =>
    rw [hl] at htab
    cases htab
  | cons c l =>
    rw [hl] at htab
    cases htab
    exact ⟨l, hl, fun h => hfeed (List.mem_cons_of_mem _ h)⟩

theorem isEntry_member {m : Member} (hm : m ∈ Member.ofFields p.fields) :
    IsEntry ("\t" ++ m.name ++ " " ++ m.type ++ "\n") := by
  refine isEntry_of_oneLine (oneLine_member hm) ?_
  simp only [String.toList_append, List.head?_append]
  rfl

theorem feed_not_mem_around {a w b : String} (ha : '\n' ∉ a.toList) (hw : IsGoWord w)
    (hb : '\n' ∉ b.toList) : '\n' ∉ (a ++ w ++ b).toList :=
  not_mem_toList_append (not_mem_toList_append ha hw.feed_not_mem) hb

theorem goSection_packetStruct (h : Packet.Plain p) :
    GoSection (packetStruct p).toList [p.name] := by
  have hword := h.name.isGoWord
  have hdeclared := declared_of_ne h.name.ne_blank
  unfold packetStruct
  dsimp only
  by_cases hne : Member.ofFields p.fields = []
  · have hclose : " struct\x7b\x7d\n\n" = " struct\x7b\x7d" ++ "\n\n" := by decide
    rw [if_pos hne, hclose, ← String.append_assoc]
    refine GoSection.line (feed_not_mem_around (by decide) hword (by decide)) ?_ ?_
    · rw [code_emptyStruct hword, ← hdeclared]
      rfl
    · rw [code_emptyStruct hword]
      rfl
  · have hopen : " struct \x7b\n" = " struct \x7b" ++ "\n" := by decide
    rw [if_neg hne, hopen, ← String.append_assoc]
    refine GoSection.block (feed_not_mem_around (by decide) hword (by decide)) ?_ ?_
      (List.forall_mem_map.mpr fun m hm => isEntry_member hm)
    · rw [code_struct hword, ← hdeclared]
      rfl
    · rw [code_struct hword]
      rfl

theorem head?_unexpected (statement : String) :
    (unexpected statement).toList.head? = some '\t' := by
  have htab : "\t// Unexpected code: ".toList.head? = some '\t' := by decide
  unfold unexpected
  simp only [String.toList_append, List.head?_append, htab, Option.some_or]

theorem head?_readLine (l : ReadLine) : l.render.toList.head? = some '\t' := by
  cases l with
  | value member type =>
    unfold ReadLine.render
    simp only [String.toList_append, List.head?_append]
    rfl
  | bytes member type =>
    unfold ReadLine.render
    simp only [String.toList_append, List.head?_append]
    rfl
  | comment statement =>
    unfold ReadLine.render
    exact head?_unexpected statement

theorem head?_writeLine (l : WriteLine) : l.render.toList.head? = some '\t' := by
  cases l with
  | value type member =>
    unfold WriteLine.render
    simp only [String.toList_append, List.head?_append]
    rfl
  | length type member =>
    unfold WriteLine.render
    simp only [String.toList_append, List.head?_append]
    rfl
  | bytes member =>
    unfold WriteLine.render
    simp only [String.toList_append, List.head?_append]
    rfl
  | comment statement =>
    unfold WriteLine.render
    exact head?_unexpected statement

theorem isEntry_readLine (h : NoFeed p.fields) {f : Field} (hf : f ∈ p.fields) :
    IsEntry (ReadLine.ofField f).render :=
  isEntry_of_oneLine (oneLine_readLine h hf) (head?_readLine _)

theorem isEntry_writeLine (h : NoFeed p.fields) {f : Field} (hf : f ∈ p.fields) {l : WriteLine}
    (hl : l ∈ WriteLine.ofField f) : IsEntry l.render :=
  isEntry_of_oneLine (oneLine_writeLine h hf hl) (head?_writeLine l)

theorem goSection_pidMethod (h : Packet.Plain p) :
    GoSection (pidMethod p .default).toList [] := by
  have hword := h.name.isGoWord
  have hconstant : IsGoWord (IdType.default.constant p.name) :=
    isGoWord_constant (List.all_eq_true.mp rfl) h.name
  have hcode := code_pid hword hconstant
  have hfeed : '\n' ∉ ("func (i " ++ p.name ++ ") Pid() PacketID \x7b return ").toList :=
    feed_not_mem_around (by decide) hword (by decide)
  have hline : GoSection ("func (i " ++ p.name ++ ") Pid() PacketID \x7b return " ++
      IdType.default.constant p.name ++ " \x7d" ++ "\n\n").toList [] :=
    GoSection.line (feed_not_mem_around hfeed hconstant (by decide)) (by rw [hcode]; rfl)
      (by rw [hcode]; rfl)
  have hsection := (GoSection.note " Pid implements Packet interface." (by decide)).append hline
  have hname : IdType.default.name = "PacketID" := rfl
  have hnote : "// Pid implements Packet interface.\n".toList =
      "//".toList ++ (" Pid implements Packet interface.".toList ++ "\n".toList) := by decide
  have hreturn : ") Pid() PacketID \x7b return ".toList =
      ") Pid() ".toList ++ ("PacketID".toList ++ " \x7b return ".toList) := by
    decide
  have hclose : " \x7d\n\n".toList = " \x7d".toList ++ "\n\n".toList := by decide
  unfold pidMethod
  simp only [String.toList_append, List.append_assoc, hname, hnote, hreturn, hclose] at hsection ⊢
  exact hsection

theorem goSection_readMethod (h : Packet.Plain p) : GoSection (readMethod p).toList [] := by
  have hword := h.name.isGoWord
  have hnote : "// Read implements Packet interface.\n" =
      "//" ++ " Read implements Packet interface." ++ "\n" := by decide
  have hcomment : GoSection ("//" ++ " Read implements Packet interface." ++ "\n").toList [] :=
    GoSection.note _ (by decide)
  unfold readMethod
  dsimp only
  rw [hnote]
  by_cases hne : p.fields = []
  · have hclose : ") Read(buf *buffer.Buffer) \x7b\x7d" =
        ") Read(buf *buffer.Buffer) \x7b" ++ "\x7d" := by decide
    have hend : "\x7d\n\n" = "\x7d" ++ "\n\n" := by decide
    have hcode := code_emptyRead hword
    have hline : GoSection ("func (i *" ++ p.name ++ ") Read(buf *buffer.Buffer) \x7b\x7d" ++
        "\n\n").toList [] :=
      GoSection.line (feed_not_mem_around (by decide) hword (by decide)) (by rw [hcode]; rfl)
        (by rw [hcode]; rfl)
    have hsection := hcomment.append hline
    rw [← String.toList_append, hclose] at hsection
    rw [if_pos hne, hend]
    simp only [String.append_assoc] at hsection ⊢
    exact hsection
  · have hcode := code_read hword
    have hbody : GoSection ("func (i *" ++ p.name ++ ") Read(buf *buffer.Buffer) \x7b" ++ "\n" ++
        String.join ((readBody p.fields).map ReadLine.render) ++ "\x7d\n\n").toList [] := by
      refine GoSection.block (feed_not_mem_around (by decide) hword (by decide))
        (by rw [hcode]; rfl) (by rw [hcode]; rfl) ?_
      rw [readBody, List.map_map]
      exact List.forall_mem_map.mpr fun f hf => isEntry_readLine h.statements hf
    have hsection := hcomment.append hbody
    rw [← String.toList_append] at hsection
    rw [if_neg hne]
    simp only [String.append_assoc] at hsection ⊢
    exact hsection

theorem isEntry_writeLines (h : NoFeed p.fields) :
    ∀ s ∈ "\tbuf := new(buffer.Buffer)\n" :: ((writeBody p.fields).map WriteLine.render ++
      ["\treturn buf\n"]), IsEntry s := by
  have hopen : IsEntry "\tbuf := new(buffer.Buffer)\n" :=
    ⟨"buf := new(buffer.Buffer)".toList, by decide, by decide⟩
  have hreturn : IsEntry "\treturn buf\n" := ⟨"return buf".toList, by decide, by decide⟩
  refine List.forall_mem_cons.mpr ⟨hopen, List.forall_mem_append.mpr
    ⟨?_, List.forall_mem_singleton.mpr hreturn⟩⟩
  refine List.forall_mem_map.mpr ?_
  intro l hl
  obtain ⟨f, hf, hl⟩ := List.mem_flatMap.mp hl
  exact isEntry_writeLine h hf hl

theorem goSection_writeMethod (h : Packet.Plain p) : GoSection (writeMethod p).toList [] := by
  have hword := h.name.isGoWord
  have hcode := code_write hword
  have hnote : "// Write implements Packet interface.\n" =
      "//" ++ " Write implements Packet interface." ++ "\n" := by decide
  have hopen : ") Write() *buffer.Buffer \x7b\n" = ") Write() *buffer.Buffer \x7b" ++ "\n" := by
    decide
  have hclose : "\treturn buf\n\x7d\n\n" = "\treturn buf\n" ++ "\x7d\n\n" := by decide
  have hcomment : GoSection ("//" ++ " Write implements Packet interface." ++ "\n").toList [] :=
    GoSection.note _ (by decide)
  have hbody : GoSection ("func (i " ++ p.name ++ ") Write() *buffer.Buffer \x7b" ++ "\n" ++
      String.join ("\tbuf := new(buffer.Buffer)\n" ::
        ((writeBody p.fields).map WriteLine.render ++ ["\treturn buf\n"])) ++
      "\x7d\n\n").toList [] :=
    GoSection.block (feed_not_mem_around (by decide) hword (by decide)) (by rw [hcode]; rfl)
      (by rw [hcode]; rfl) (isEntry_writeLines h.statements)
  have hsection := hcomment.append hbody
  rw [← String.toList_append, String.join_cons, String.join_append, String.join_cons] at hsection
  unfold writeMethod
  rw [hnote, hopen, hclose]
  simp only [String.append_assoc] at hsection ⊢
  exact hsection

/-- **A generated packet** declares its constants and its struct. -/
theorem goSection_packetCode (h : Packet.Plain p) :
    GoSection (packetCode p .default).toList (constantNames p ++ [p.name]) := by
  have hmethods := ((goSection_pidMethod h).append (goSection_readMethod h)).append
    (goSection_writeMethod h)
  have hsection := ((goSection_packetConstants h).append (goSection_packetStruct h)).append hmethods
  unfold packetCode
  simp only [String.toList_append, List.append_assoc, List.append_nil] at hsection ⊢
  exact hsection

end PacketGen.Generated
