import PacketGen.Proofs.PacketClass.Declared
import PacketGen.Proofs.PacketClass.Finding
import PacketGen.Proofs.PacketClass.Nesting

/-!
# What comes of an extraction

An extraction tries one search after the other and stops at the first that fails. Which one that is,
and what it fails with, is told here by what is where in the text: headings, declarations and pairs
of brackets (`ClassOutcome`, `ProcedureOutcome`, `Outcome`). Every text has exactly one outcome, and
the extraction has that result (`extract_outcome`).

Two things are easily taken for granted and do not hold. The parentheses of a procedure are matched
over the whole text, so an open one may be closed behind the class. And the first declaration
decides: an abstract procedure is a fault, even if it is declared again with a body.
-/

namespace PacketGen.PacketClass

open Text Brackets

variable {text : List Char} {bases : List String} {first last : Nat} {name : String}

/-! ## The class body -/

/-- What comes of the search for the class body. -/
inductive ClassOutcome (text : List Char) (bases : List String) :
    Except PacketFault (Nat × Nat) → Prop
  | noClass : (∀ base ∈ bases, ∀ start stop, ¬ HeadingAt text base.toList start stop) →
      ClassOutcome text bases (.error (.noClass bases))
  | noClassBody {stop : Nat} : FirstHeading text bases stop →
      (∀ i, stop ≤ i → text[i]? ≠ some '\x7b') →
      ClassOutcome text bases (.error (.noClassBody (byteOffset text stop)))
  | unclosed {stop opening : Nat} : FirstHeading text bases stop →
      FirstFrom text stop (· = '\x7b') opening → (∀ close, ¬ braces.Pair text opening close) →
      ClassOutcome text bases (.error (.unclosed .classBody (byteOffset text opening)))
  | body {stop opening close : Nat} : FirstHeading text bases stop →
      FirstFrom text stop (· = '\x7b') opening → braces.Pair text opening close →
      ClassOutcome text bases (.ok (opening + 1, close))

theorem findBody_eq_iff (hbases : ∀ base ∈ bases, IsWord base.toList)
    {r : Except PacketFault (Nat × Nat)} :
    findBody text bases = r ↔ ClassOutcome text bases r := by
  constructor
  · rintro rfl
    unfold findBody
    cases hend : firstBaseEnd? text bases with
    | none => exact .noClass ((firstBaseEnd?_eq_none_iff hbases).mp hend)
    | some stop =>
      have hheading := (firstBaseEnd?_eq_some_iff hbases).mp hend
      have hblock := foundBlock_findBlock braces text stop
      dsimp only
      generalize braces.findBlock text stop = block at hblock
      cases hblock with
      | absent hnone => exact .noClassBody hheading fun i hle h => hnone i hle _ h rfl
      | unclosed hfirst hmatch =>
        exact .unclosed hheading hfirst ((match?_eq_none_iff_pair braces_ne).mp hmatch)
      | closed hfirst hmatch =>
        exact .body hheading hfirst ((match?_eq_some_iff_pair braces_ne).mp hmatch)
  · intro h
    unfold findBody
    cases h with
    | noClass hnone => rw [(firstBaseEnd?_eq_none_iff hbases).mpr hnone]
    | noClassBody hheading hnone =>
      have habsent : braces.findBlock text _ = .absent :=
        findBlock_of_absent fun i hle x hx heq => hnone i hle (by rw [hx, heq]; rfl)
      rw [(firstBaseEnd?_eq_some_iff hbases).mpr hheading]
      dsimp only
      rw [habsent]
    | unclosed hheading hfirst hopen =>
      have hblock := findBlock_of_first (b := braces) hfirst
      rw [(match?_eq_none_iff_pair braces_ne).mpr hopen] at hblock
      rw [(firstBaseEnd?_eq_some_iff hbases).mpr hheading]
      dsimp only
      rw [hblock]
    | body hheading hfirst hpair =>
      have hblock := findBlock_of_first (b := braces) hfirst
      rw [(match?_eq_some_iff_pair braces_ne).mpr hpair] at hblock
      rw [(firstBaseEnd?_eq_some_iff hbases).mpr hheading]
      dsimp only
      rw [hblock]

/-! ## A procedure -/

/-- What comes of the search for a procedure in the class body `first..last`. Parentheses are paired
in the whole text; the brace or semicolon is looked for in the class body. -/
inductive ProcedureOutcome (text : List Char) (first last : Nat) (name : String) :
    Except PacketFault (Option Procedure) → Prop
  | absent : (∀ index paren, ¬ DeclaredAt text first last name.toList index paren) →
      ProcedureOutcome text first last name (.ok none)
  | unclosedParameters {index paren : Nat} :
      FirstDeclared text first last name.toList index paren →
      (∀ close, ¬ parens.Pair text paren close) →
      ProcedureOutcome text first last name (.error (.unclosed .parameters (byteOffset text paren)))
  | noBody {index paren close : Nat} :
      FirstDeclared text first last name.toList index paren → parens.Pair text paren close →
      (∀ mark, FirstFrom (text.take last) (close + 1) IsMark mark → text[mark]? = some ';') →
      ProcedureOutcome text first last name
        (.error (.noProcedureBody name (byteSpan text index paren)))
  | body {index paren close opening closing : Nat} :
      FirstDeclared text first last name.toList index paren → parens.Pair text paren close →
      FirstFrom (text.take last) (close + 1) IsMark opening → text[opening]? = some '\x7b' →
      braces.Pair text opening closing →
      ProcedureOutcome text first last name (.ok (some (procedureBetween text opening closing)))

theorem findProcedure_eq_iff {brace : Nat} (hname : IsWord name.toList)
    (hclass : braces.match? text brace = some last) {r : Except PacketFault (Option Procedure)} :
    findProcedure text (brace + 1) last name = r ↔
      ProcedureOutcome text (brace + 1) last name r := by
  have hle : brace + 1 ≤ last := match?_lt braces_ne hclass
  have hlast : last ≤ text.length := by
    obtain ⟨hlt, -⟩ := List.getElem?_eq_some_iff.mp (match?_closing braces_ne hclass)
    exact Nat.le_of_lt hlt
  constructor
  · rintro rfl
    have hsearched := searched_findProcedure hclass name
    generalize findProcedure text (brace + 1) last name = r at hsearched
    cases hsearched with
    | undeclared hindex => exact .absent ((declaration?_eq_none_iff hname hle hlast).mp hindex)
    | unclosedParameters hindex hskip hparens =>
      subst hskip
      exact .unclosedParameters ((declaration?_eq_some_iff hname hle hlast).mp hindex)
        ((match?_eq_none_iff_pair parens_ne).mp hparens)
    | bodiless hindex hskip hparens hmark =>
      subst hskip
      refine .noBody ((declaration?_eq_some_iff hname hle hlast).mp hindex)
        ((match?_eq_some_iff_pair parens_ne).mp hparens) fun mark hfirst => ?_
      obtain ⟨-, c, hc, rfl | rfl⟩ := exists_mark_of_firstFrom hfirst
      · exact absurd hc (hmark mark (bodyMark?_eq_some_iff.mpr hfirst))
      · exact hc
    | found hat =>
      exact .body ((declaration?_eq_some_iff hname hle hlast).mp hat.declared)
        ((match?_eq_some_iff_pair parens_ne).mp hat.parameters) (bodyMark?_eq_some_iff.mp hat.mark)
        hat.brace ((match?_eq_some_iff_pair braces_ne).mp hat.matched)
  · intro h
    have hdeclaration {index paren : Nat}
        (hdeclared : FirstDeclared text (brace + 1) last name.toList index paren) :
        declaration? text (brace + 1) last name.toList = some index := by
      refine (declaration?_eq_some_iff hname hle hlast).mpr ?_
      rw [hdeclared.1.paren_eq]
      exact hdeclared
    unfold findProcedure
    cases h with
    | absent hnone => rw [(declaration?_eq_none_iff hname hle hlast).mpr hnone]
    | unclosedParameters hdeclared hopen =>
      rw [hdeclaration hdeclared]
      dsimp only
      rw [hdeclared.1.paren_eq, (match?_eq_none_iff_pair parens_ne).mpr hopen]
    | noBody hdeclared hpair hmark =>
      rename_i close
      have hnone : (bodyMark? text (close + 1) last).filter (text[·]? == some '\x7b') = none := by
        rw [Option.filter_eq_none_iff]
        intro mark hmark'
        rw [hmark mark (bodyMark?_eq_some_iff.mp hmark')]
        decide
      rw [hdeclaration hdeclared]
      dsimp only
      rw [hdeclared.1.paren_eq, (match?_eq_some_iff_pair parens_ne).mpr hpair]
      dsimp only
      rw [hnone]
    | body hdeclared hpair hmark hbrace hbody =>
      rw [hdeclaration hdeclared]
      dsimp only
      rw [hdeclared.1.paren_eq, (match?_eq_some_iff_pair parens_ne).mpr hpair]
      dsimp only
      rw [bodyMark?_eq_some_iff.mpr hmark, Option.filter_some, hbrace, if_pos (by simp)]
      dsimp only
      rw [(match?_eq_some_iff_pair braces_ne).mpr hbody]
      rfl

/-! ## The whole -/

/-- What comes of the extraction from a text: the class body is found first, then the procedure that
encodes, then the one that decodes. -/
inductive Outcome (config : Config) (text : List Char) : Except PacketFault PacketClass → Prop
  | classFault {f : PacketFault} : ClassOutcome text config.baseClasses (.error f) →
      Outcome config text (.error f)
  | encodeFault {first last : Nat} {f : PacketFault} :
      ClassOutcome text config.baseClasses (.ok (first, last)) →
      ProcedureOutcome text first last config.encodeProcedure (.error f) →
      Outcome config text (.error f)
  | decodeFault {first last : Nat} {encode : Option Procedure} {f : PacketFault} :
      ClassOutcome text config.baseClasses (.ok (first, last)) →
      ProcedureOutcome text first last config.encodeProcedure (.ok encode) →
      ProcedureOutcome text first last config.decodeProcedure (.error f) →
      Outcome config text (.error f)
  | extracted {first last : Nat} {encode decode : Option Procedure} :
      ClassOutcome text config.baseClasses (.ok (first, last)) →
      ProcedureOutcome text first last config.encodeProcedure (.ok encode) →
      ProcedureOutcome text first last config.decodeProcedure (.ok decode) →
      Outcome config text (.ok ⟨byteSpan text first last,
        localConstants text first last config.reservedConstant, encode, decode⟩)

theorem extract_eq_iff {config : Config}
    (hbases : ∀ base ∈ config.baseClasses, IsWord base.toList)
    (hencode : IsWord config.encodeProcedure.toList)
    (hdecode : IsWord config.decodeProcedure.toList) (source : String)
    {r : Except PacketFault PacketClass} :
    extract config source = r ↔ Outcome config (blankComments source.toList) r := by
  generalize htext : blankComments source.toList = text
  have hbody {r : Except PacketFault (Nat × Nat)} :
      findBody text config.baseClasses = r ↔ ClassOutcome text config.baseClasses r :=
    findBody_eq_iff hbases
  have hprocedure {first last : Nat} {name : String} {r : Except PacketFault (Option Procedure)}
      (hclass : findBody text config.baseClasses = .ok (first, last))
      (hname : IsWord name.toList) :
      findProcedure text first last name = r ↔ ProcedureOutcome text first last name r := by
    obtain ⟨brace, rfl, hmatch⟩ := findBody_eq_ok hclass
    exact findProcedure_eq_iff hname hmatch
  constructor
  · intro h
    cases r with
    | error f =>
      rw [extract_eq_error_iff, htext] at h
      rcases h with hclass | ⟨first, last, hclass, hfault⟩
      · exact .classFault (hbody.mp hclass)
      · rcases hfault with hfault | ⟨encode, hencoded, hfault⟩
        · exact .encodeFault (hbody.mp hclass) ((hprocedure hclass hencode).mp hfault)
        · exact .decodeFault (hbody.mp hclass) ((hprocedure hclass hencode).mp hencoded)
            ((hprocedure hclass hdecode).mp hfault)
    | ok c =>
      obtain ⟨first, last, hfound⟩ := extract_eq_ok h
      rw [htext] at hfound
      obtain ⟨span, constants, encode, decode⟩ := c
      obtain ⟨hclass, rfl, rfl, hencoded, hdecoded⟩ := hfound
      exact .extracted (hbody.mp hclass) ((hprocedure hclass hencode).mp hencoded)
        ((hprocedure hclass hdecode).mp hdecoded)
  · intro h
    cases h with
    | classFault hclass =>
      rw [extract_eq_error_iff, htext]
      exact Or.inl (hbody.mpr hclass)
    | encodeFault hclass hfault =>
      have hclass := hbody.mpr hclass
      rw [extract_eq_error_iff, htext]
      exact Or.inr ⟨_, _, hclass, Or.inl ((hprocedure hclass hencode).mpr hfault)⟩
    | decodeFault hclass hencoded hfault =>
      have hclass := hbody.mpr hclass
      rw [extract_eq_error_iff, htext]
      exact Or.inr ⟨_, _, hclass, Or.inr ⟨_, (hprocedure hclass hencode).mpr hencoded,
        (hprocedure hclass hdecode).mpr hfault⟩⟩
    | extracted hclass hencoded hdecoded =>
      have hclass := hbody.mpr hclass
      exact extract_of_found htext hclass ((hprocedure hclass hencode).mpr hencoded)
        ((hprocedure hclass hdecode).mpr hdecoded)

/-- **The extraction from a source comes to the one outcome that its blanked text has.** In
particular no packet class is missing but for a heading, or for a brace behind the first one. -/
theorem extract_outcome {config : Config}
    (hbases : ∀ base ∈ config.baseClasses, IsWord base.toList)
    (hencode : IsWord config.encodeProcedure.toList)
    (hdecode : IsWord config.decodeProcedure.toList) (source : String) :
    let text := blankComments source.toList
    (∀ r, extract config source = r ↔ Outcome config text r) ∧
    ((∃ f, extract config source = .error f ∧ f.code = .missingPacketClass) ↔
      (∀ base ∈ config.baseClasses, ∀ start stop, ¬ HeadingAt text base.toList start stop) ∨
      ∃ stop, FirstHeading text config.baseClasses stop ∧
        ∀ i, stop ≤ i → text[i]? ≠ some '\x7b') := by
  intro text
  have houtcome (r : Except PacketFault PacketClass) :
      extract config source = r ↔ Outcome config text r :=
    extract_eq_iff hbases hencode hdecode source
  refine ⟨houtcome, ?_, ?_⟩
  · rintro ⟨f, h, hcode⟩
    cases (houtcome _).mp h with
    | classFault hclass =>
      cases hclass with
      | noClass hnone => exact Or.inl hnone
      | noClassBody hheading hnone => exact Or.inr ⟨_, hheading, hnone⟩
      | unclosed => cases hcode
    | encodeFault _ hfault => cases hfault <;> cases hcode
    | decodeFault _ _ hfault => cases hfault <;> cases hcode
  · rintro (hnone | ⟨stop, hheading, hnone⟩)
    · exact ⟨_, (houtcome _).mpr (.classFault (.noClass hnone)), rfl⟩
    · exact ⟨_, (houtcome _).mpr (.classFault (.noClassBody hheading hnone)), rfl⟩

/-- The class whose base comes last in the settings is the first in the text, and has an abstract
procedure. -/
theorem extract_outcome_abstract :
    let config := { Config.default with baseClasses := ["DataPacket", "Packet"] }
    let source :=
      "class A extends Packet\x7bfunction encode ();\x7d class B extends DataPacket\x7b\x7d"
    (∀ base ∈ config.baseClasses, IsWord base.toList) ∧ IsWord config.encodeProcedure.toList ∧
      IsWord config.decodeProcedure.toList ∧
      Outcome config (blankComments source.toList)
        (.error (.noProcedureBody "encode" ⟨32, 39⟩)) := by
  intro config source
  have hbases : ∀ base ∈ config.baseClasses, IsWord base.toList := by decide
  have hencode : IsWord config.encodeProcedure.toList := by decide
  have hdecode : IsWord config.decodeProcedure.toList := by decide
  refine ⟨hbases, hencode, hdecode, ?_⟩
  exact ((extract_outcome hbases hencode hdecode source).1 _).mp (by decide +kernel)

end PacketGen.PacketClass
