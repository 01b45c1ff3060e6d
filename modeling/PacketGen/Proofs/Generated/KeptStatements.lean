import Mathlib.Control.Monad.Basic
import PacketGen.Proofs.Field.PositionalReading
import PacketGen.Proofs.Generated.MethodText
import PacketGen.Proofs.PacketClass.Inversion
import PacketGen.Proofs.Text.Trim

/-!
# No statement is lost

What is not recognised is meant to be ported by hand, so it must be there: every line of the
procedure that a packet is taken from leaves its trace in both generated methods, in its place, and
neither method holds anything else. `Ported` says what the trace of one line is, without a word
about fields or how they are collected; `PortedLines` goes down the lines of a procedure.

A trace is always whole lines of the generated code. That is why a kept statement stays inside its
comment: lines of a procedure are what is left of a text cut at its line feeds.
-/

namespace PacketGen.Generated

open PacketGen.Field (announcedAfter sharesFrom share isIdle isFolded)

/-! ## The trace of a line -/

/-- What the method that reads and the method that writes hold for a line behind others. -/
inductive Ported (before : List String) (line : String) : (reads writes : List String) → Prop
  /-- The reset call leaves nothing. -/
  | reset : Statement.parse line = .ok .reset → Ported before line [] []
  /-- Raw bytes leave nothing when the length prefix right before them stands for them. -/
  | folded {s : Statement} {name : String} : Statement.parse line = .ok s →
      s.rawBytes? = some name → announcedAfter before = some name → Ported before line [] []
  /-- A field leaves the line that reads it and the one or two that write it. -/
  | field {s : Statement} {f : Field} {reads writes : List String} :
      Statement.parse line = .ok s → s.field? = some f → Trace f reads writes →
      Ported before line reads writes
  /-- Anything else is kept in a comment, word for word. -/
  | kept : (∀ s, Statement.parse line = .ok s → s ≠ .reset ∧ s.field? = none ∧
        ∀ name, s.rawBytes? = some name → announcedAfter before ≠ some name) →
      Ported before line ["\t// Unexpected code: " ++ line ++ "\n"]
        ["\t// Unexpected code: " ++ line ++ "\n"]

/-- The traces of lines behind others, one below the other. -/
inductive PortedLines : (before lines : List String) → (reads writes : List String) → Prop
  | nil (before : List String) : PortedLines before [] [] []
  | cons {before lines : List String} {line : String} {reads writes reads' writes' : List String} :
      Ported before line reads writes → PortedLines (before ++ [line]) lines reads' writes' →
      PortedLines before (line :: lines) (reads ++ reads') (writes ++ writes')

def readsOf (fields : List Field) : List String := (readBody fields).map ReadLine.render

def writesOf (fields : List Field) : List String := (writeBody fields).map WriteLine.render

theorem readsOf_append (fs gs : List Field) : readsOf (fs ++ gs) = readsOf fs ++ readsOf gs := by
  simp [readsOf, readBody]

theorem writesOf_append (fs gs : List Field) :
    writesOf (fs ++ gs) = writesOf fs ++ writesOf gs := by
  simp [writesOf, writeBody]

/-- A line that is not empty leaves what is generated for its share of the fields. -/
theorem ported_share (before : List String) {line : String} (hne : line ≠ "") :
    Ported before line (readsOf (share before line)) (writesOf (share before line)) := by
  cases hparse : Statement.parse line with
  | error e =>
    have hshare : share before line = [.unknown line] := by
      simp [share, isIdle, isFolded, Field.ofLine?, Field.rawBytesOf?, hparse, hne]
    rw [hshare]
    exact .kept fun s hs => absurd (hparse.symm.trans hs) (by simp)
  | ok s =>
    have hidle := Field.isIdle_of_parse hne hparse
    rw [share, Field.ofLine?_of_parse hparse, isFolded, Field.rawBytesOf?_of_parse hparse]
    by_cases hreset : s = .reset
    · rw [if_pos (hidle.mpr hreset)]
      exact .reset (hreset ▸ hparse)
    · rw [if_neg fun h => hreset (hidle.mp h)]
      cases hf : s.field? with
      | some f =>
        have hwrites : writesOf [f] = (WriteLine.ofField f).map WriteLine.render := by
          simp [writesOf, writeBody]
        dsimp only
        rw [hwrites]
        exact .field hparse hf (trace_field f)
      | none =>
        dsimp only
        cases hraw : s.rawBytes? with
        | none =>
          refine .kept fun s' hs' => ?_
          have heq : s = s' := Except.ok.inj (hparse.symm.trans hs')
          rw [← heq]
          exact ⟨hreset, hf, fun name hname => absurd (hraw.symm.trans hname) (by simp)⟩
        | some name =>
          by_cases hannounced : announcedAfter before = some name
          · rw [if_pos (by simp [hannounced])]
            exact .folded hparse hraw hannounced
          · rw [if_neg (by simpa using fun h => hannounced h.symm)]
            refine .kept fun s' hs' => ?_
            have heq : s = s' := Except.ok.inj (hparse.symm.trans hs')
            rw [← heq]
            refine ⟨hreset, hf, fun name' hname' => ?_⟩
            rw [← Option.some.inj (hraw.symm.trans hname')]
            exact hannounced

theorem portedLines_shares {lines : List String} (hne : ∀ l ∈ lines, l ≠ "")
    (before : List String) :
    PortedLines before lines (readsOf (sharesFrom before lines))
      (writesOf (sharesFrom before lines)) := by
  induction lines generalizing before with
  | nil => exact .nil before
  | cons line lines ih =>
    rw [sharesFrom, readsOf_append, writesOf_append]
    exact .cons (ported_share before (hne line List.mem_cons_self))
      (ih (fun l hl => hne l (List.mem_cons_of_mem _ hl)) _)

/-! ## Lines of a procedure -/

theorem oneLine_of_mem_readsOf {fields : List Field} (h : NoFeed fields) :
    ∀ s ∈ readsOf fields, OneLine s := by
  intro s hs
  obtain ⟨l, hl, rfl⟩ := List.mem_map.mp hs
  obtain ⟨f, hf, rfl⟩ := List.mem_map.mp hl
  exact oneLine_readLine h hf

theorem oneLine_of_mem_writesOf {fields : List Field} (h : NoFeed fields) :
    ∀ s ∈ writesOf fields, OneLine s := by
  intro s hs
  obtain ⟨l, hl, rfl⟩ := List.mem_map.mp hs
  obtain ⟨f, hf, hl⟩ := List.mem_flatMap.mp hl
  exact oneLine_writeLine h hf hl

theorem feed_not_mem_statements {text : List Char} {opening closing : Nat} :
    ∀ l ∈ (PacketClass.procedureBetween text opening closing).statements, '\n' ∉ l.toList := by
  intro l hl
  obtain ⟨line, hline, rfl⟩ := List.mem_map.mp hl
  rw [String.toList_ofList]
  exact PacketClass.feed_not_mem_cleanLines (List.mem_filter.mp hline).1

theorem statement_ne_empty {text : List Char} {opening closing : Nat} :
    ∀ l ∈ (PacketClass.procedureBetween text opening closing).statements, l ≠ "" := by
  intro l hl hempty
  obtain ⟨line, hline, rfl⟩ := List.mem_map.mp hl
  have hne : line ≠ [] := by simpa using (List.mem_filter.mp hline).2
  exact hne (by simpa using congrArg String.toList hempty)

/-- Statements of a procedure that stay what they are hold no line feed. -/
theorem noFeed_ofStatements {lines : List String} (h : ∀ l ∈ lines, '\n' ∉ l.toList) :
    NoFeed (Field.ofStatements lines) := by
  intro statement hs
  rw [Field.ofStatements_eq_shares] at hs
  exact h statement (Field.mem_of_unknown_mem_sharesFrom hs)

theorem noFeed_fieldsOf {config : Config} {text : List Char} {c : PacketClass} {first last : Nat}
    (h : PacketClass.FoundIn config text c first last) : NoFeed (Packet.fieldsOf c) := by
  rcases Packet.fieldsOf_eq c with ⟨-, -, hfields⟩ | ⟨q, hq, hfields⟩
  · rw [hfields]
    intro statement hmem
    cases hmem
  · obtain ⟨-, -, -, opening, closing, -, -, rfl⟩ := h.procedure hq
    rw [← hfields]
    exact noFeed_ofStatements feed_not_mem_statements

theorem noFeed_of_analyze {config : Config} {name source : String} {p : Packet}
    (h : Packet.analyze config name source = .ok p) : NoFeed p.fields := by
  obtain ⟨c, hextract, -, rfl⟩ := Packet.analyze_eq_ok h
  obtain ⟨first, last, hfound⟩ := PacketClass.extract_eq_ok hextract
  exact noFeed_fieldsOf hfound

/-- **No statement is lost**: the fields of a packet come from one of its procedures, if it has
any, and for a procedure they come from, the two methods hold the traces of its cleaned lines, one
below the other, and nothing else but their frames. No cleaned line holds a line feed, and every
trace is made of whole lines. -/
theorem analyze_portedLines {config : Config} {name source : String} {p : Packet}
    (h : Packet.analyze config name source = .ok p) :
    ∃ c first last,
      PacketClass.FoundIn config (blankComments source.toList) c first last ∧
      ((c.encode = none ∧ c.decode = none ∧ p.fields = []) ∨
        ∃ q, (c.encode = some q ∨ c.decode = some q) ∧
          Field.ofStatements q.statements = p.fields) ∧
      ∀ q, (c.encode = some q ∨ c.decode = some q) →
        Field.ofStatements q.statements = p.fields →
        ∃ procedure index parametersEnd opening closing,
          (procedure = config.encodeProcedure ∨ procedure = config.decodeProcedure) ∧
          PacketClass.FoundAt (blankComments source.toList) first last procedure index
            parametersEnd opening closing ∧
          q.statements =
            ((PacketClass.cleanLines (Text.slice (blankComments source.toList) (opening + 1)
              closing)).filter (· ≠ [])).map String.ofList ∧
          (∀ line ∈ q.statements, '\n' ∉ line.toList) ∧
          ∃ reads writes,
            PortedLines [] q.statements reads writes ∧
            (∀ s ∈ reads ++ writes, OneLine s) ∧
            ∀ t, packetCode p t = packetConstants p ++ packetStruct p ++ pidMethod p t ++
              (readHead p.name ++ readBodyText (String.join reads) ++ methodEnd) ++
              (writeHead p.name ++ writeBodyText (String.join writes) ++ methodEnd) := by
  obtain ⟨c, hextract, -, rfl⟩ := Packet.analyze_eq_ok h
  obtain ⟨first, last, hfound⟩ := PacketClass.extract_eq_ok hextract
  refine ⟨c, first, last, hfound, Packet.fieldsOf_eq c, fun q hq hfields => ?_⟩
  obtain ⟨procedure, index, parametersEnd, opening, closing, hname, hat, rfl⟩ :=
    hfound.procedure hq
  have hfeed : ∀ l ∈ (PacketClass.procedureBetween (blankComments source.toList) opening
      closing).statements, '\n' ∉ l.toList := feed_not_mem_statements
  have hnoFeed := noFeed_ofStatements hfeed
  have hne : ∀ l ∈ (PacketClass.procedureBetween (blankComments source.toList) opening
      closing).statements, l ≠ "" := statement_ne_empty
  have hported := portedLines_shares hne []
  rw [← Field.ofStatements_eq_shares, hfields] at hported
  rw [hfields] at hnoFeed
  refine ⟨procedure, index, parametersEnd, opening, closing, hname, hat, rfl, hfeed, _, _, hported,
    ?_, fun t => ?_⟩
  · intro s hs
    rcases List.mem_append.mp hs with hs | hs
    · exact oneLine_of_mem_readsOf hnoFeed s hs
    · exact oneLine_of_mem_writesOf hnoFeed s hs
  · rw [packetCode, readMethod_eq, writeMethod_eq]
    rfl

/-- A reset, a field, and a statement that is kept. -/
theorem analyze_portedLines_login :
    let source := "class Login extends DataPacket\x7bfunction encode()\x7b\n$this->reset();\n" ++
      "$this->putByte($this->x);\nfoo();\n\x7d\x7d"
    let p : Packet := ⟨"Login", [], [.value .byte "x", .unknown "foo()"]⟩
    Packet.analyze Config.default "Login" source = .ok p ∧
      ∃ q reads writes, Field.ofStatements (Procedure.statements q) = p.fields ∧
        PortedLines [] q.statements reads writes ∧
        ∀ t, packetCode p t = packetConstants p ++ packetStruct p ++ pidMethod p t ++
          (readHead p.name ++ readBodyText (String.join reads) ++ methodEnd) ++
          (writeHead p.name ++ writeBodyText (String.join writes) ++ methodEnd) := by
  intro source p
  have h : Packet.analyze Config.default "Login" source = .ok p := by decide +kernel
  obtain ⟨c, first, last, -, hq | ⟨q, hq, hfields⟩, hported⟩ := analyze_portedLines h
  · exact absurd hq.2.2 (by simp [p])
  · obtain ⟨-, -, -, -, -, -, -, -, -, reads, writes, hlines, -, hcode⟩ := hported q hq hfields
    exact ⟨h, q, reads, writes, hfields, hlines, hcode⟩

end PacketGen.Generated
