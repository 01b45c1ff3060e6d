import PacketGen.Proofs.PacketClass.Outcome

/-!
# Faults point into the source

What a label marks is found in the text with its comments blanked, and blanking makes more
boundaries than there are in the source: a character of three bytes becomes three spaces. A label
of a packet's fault is good for the source all the same, because none begins or ends among spaces.
It begins before or ends behind a bracket or a character of a name, and those are in the source at
the same offset (`isBoundary_of_blankComments`).

`Diagnostic.PointsInto` says what that comes to: every label is in the file of the packet and is
a range of the source, a bracket that is not closed is marked by itself, and the procedures that do
not agree are marked from brace to brace. `analyze_pointsInto` goes through all the faults.
-/

namespace PacketGen

open Text Brackets PacketClass

/-- The range begins and ends between two characters of the text. -/
structure Span.Within (s : Span) (cs : List Char) : Prop where
  le : s.start ≤ s.stop
  le_length : s.stop ≤ byteLength cs
  start : IsBoundary cs s.start
  stop : IsBoundary cs s.stop

/-- The labels of a diagnostic are ranges of the source, which is the file of that number. -/
structure Diagnostic.PointsInto (d : Diagnostic) (file : Nat) (source : String) : Prop where
  labelled : d.labels ≠ []
  file : ∀ l ∈ d.labels, l.file = file
  within : ∀ l ∈ d.labels, l.span.Within source.toList
  /-- A bracket that is not closed is an opening brace or parenthesis. -/
  bracket : d.code = .unbalancedBrackets → ∃ l, d.labels = [l] ∧
    l.span.stop = l.span.start + 1 ∧ ((utf8 source.toList)[l.span.start]? = some 0x7B ∨
      (utf8 source.toList)[l.span.start]? = some 0x28)
  /-- The bodies of two procedures are blocks between braces. -/
  blocks : d.code = .asymmetricProcedures → d.labels.length = 2 ∧
    ∀ l ∈ d.labels, ∃ closing, l.span.stop = closing + 1 ∧
      BraceBlock source l.span.start closing

/-! ## Ranges -/

section

variable {source : List Char} {i j : Nat} {c : Char}

theorem Span.within_of_boundaries {s : Span} (hle : s.start ≤ s.stop)
    (hstart : IsBoundary source s.start) (hstop : IsBoundary source s.stop) : s.Within source :=
  ⟨hle, hstop.le_byteLength, hstart, hstop⟩

theorem ne_space_of_isBlank (h : isBlank c = false) : c ≠ ' ' := by
  rintro rfl
  exact absurd h (by decide)

/-- A word has a boundary on either side. -/
theorem Text.WordAt.isBoundary {w : List Char} (hw : IsWord w)
    (h : WordAt (blankComments source) i w) :
    IsBoundary source (byteOffset (blankComments source) i) ∧
      IsBoundary source (byteOffset (blankComments source) (i + w.length)) := by
  obtain ⟨c, hc, hblank⟩ := h.getElem? hw
  refine ⟨(isBoundary_of_blankComments hc (ne_space_of_isBlank hblank)).1, ?_⟩
  -- The last character of the word is one of a name as well.
  obtain ⟨before, after, hsplit, rfl, -⟩ := h
  obtain ⟨v, d, rfl⟩ : ∃ v d, w = v ++ [d] := ⟨_, _, (List.dropLast_concat_getLast hw.1).symm⟩
  have hname : isNameChar d = true := hw.2 d (by simp)
  have hlast : (blankComments source)[before.length + v.length]? = some d := by
    rw [hsplit, List.append_assoc, List.getElem?_append_right (by omega), Nat.add_sub_cancel_left,
      List.append_assoc, List.getElem?_append_right (Nat.le_refl _), Nat.sub_self]
    rfl
  have hspace := ne_space_of_isBlank (isBlank_of_isNameChar hname)
  rw [List.length_append, List.length_singleton, ← Nat.add_assoc]
  exact (isBoundary_of_blankComments hlast hspace).2

end

/-! ## One fault after the other -/

namespace PacketFault

variable {source : String} {f : PacketFault} {file : Nat}

/-- A bracket that is not closed is one of the source. -/
theorem pointsInto_unclosed {role : BracketRole} {i : Nat} {c : Char} {b : UInt8}
    (hc : (blankComments source.toList)[i]? = some c) (hbyte : String.utf8EncodeChar c = [b])
    (hb : b = 0x7B ∨ b = 0x28) :
    ((unclosed role (byteOffset (blankComments source.toList) i)).diagnostic file).PointsInto file
      source := by
  have hne : b ≠ 0x20 := by
    rcases hb with rfl | rfl
    · decide
    · decide
  have hspace : c ≠ ' ' := by
    rintro rfl
    exact hne (List.cons.inj hbyte).1.symm
  have hsize : c.utf8Size = 1 := by
    rw [← String.length_utf8EncodeChar, hbyte]
    rfl
  obtain ⟨hstart, hstop⟩ := isBoundary_of_blankComments hc hspace
  rw [byteOffset_succ hc, hsize] at hstop
  have hsource := getElem?_of_blankComments (getElem?_utf8 hc hbyte) hne
  refine ⟨List.cons_ne_nil _ _, List.forall_mem_singleton.mpr rfl, ?_,
    fun _ => ⟨_, rfl, rfl, ?_⟩, nofun⟩
  · exact List.forall_mem_singleton.mpr (Span.within_of_boundaries (Nat.le_succ _) hstart hstop)
  · rcases hb with rfl | rfl
    · exact Or.inl hsource
    · exact Or.inr hsource

/-- A fault with one label, of no bracket. -/
theorem pointsInto_of_label {s : Span} {message : String}
    (hlabels : f.labels file = [.primary file s message]) (hs : s.Within source.toList)
    (hcode : f.code = .missingPacketClass ∨ f.code = .missingProcedureBody) :
    (f.diagnostic file).PointsInto file source := by
  have hlabels : (f.diagnostic file).labels = [.primary file s message] := hlabels
  refine ⟨?_, ?_, ?_, ?_, ?_⟩
  · rw [hlabels]
    exact List.cons_ne_nil _ _
  · rw [hlabels]
    exact List.forall_mem_singleton.mpr rfl
  · rw [hlabels]
    exact List.forall_mem_singleton.mpr hs
  · intro hcode'
    rcases hcode with hcode | hcode
    · cases hcode.symm.trans hcode'
    · cases hcode.symm.trans hcode'
  · intro hcode'
    rcases hcode with hcode | hcode
    · cases hcode.symm.trans hcode'
    · cases hcode.symm.trans hcode'

theorem pointsInto_of_classOutcome {bases : List String}
    (hbases : ∀ base ∈ bases, IsWord base.toList)
    (h : ClassOutcome (blankComments source.toList) bases (.error f)) :
    (f.diagnostic file).PointsInto file source := by
  cases h with
  | noClass =>
    have hzero : IsBoundary source.toList 0 := ⟨0, rfl⟩
    exact pointsInto_of_label rfl (Span.within_of_boundaries (Nat.le_refl 0) hzero hzero)
      (Or.inl rfl)
  | noClassBody hheading =>
    obtain ⟨start, ⟨base, hmem, name, -, -, hname, rfl⟩, -⟩ := hheading
    have hstop := (hname.isBoundary (hbases base hmem)).2
    exact pointsInto_of_label rfl (Span.within_of_boundaries (Nat.le_refl _) hstop hstop)
      (Or.inl rfl)
  | unclosed _ hfirst =>
    obtain ⟨_, hc, rfl⟩ := hfirst.holds
    exact pointsInto_unclosed hc rfl (Or.inl rfl)

theorem pointsInto_of_procedureOutcome {first last : Nat} {name : String}
    (hname : IsWord name.toList)
    (h : ProcedureOutcome (blankComments source.toList) first last name (.error f)) :
    (f.diagnostic file).PointsInto file source := by
  cases h with
  | unclosedParameters hdeclared => exact pointsInto_unclosed hdeclared.1.opens rfl (Or.inr rfl)
  | noBody hdeclared =>
    have hstart := (hdeclared.1.word.isBoundary hname).1
    have hstop := (isBoundary_of_blankComments hdeclared.1.opens (by decide)).1
    have hle := Nat.le_trans (Nat.le_add_right _ _) hdeclared.1.gap.le
    exact pointsInto_of_label rfl
      (Span.within_of_boundaries (byteOffset_le _ hle) hstart hstop) (Or.inr rfl)

theorem pointsInto_of_extract {config : Config}
    (hbases : ∀ base ∈ config.baseClasses, IsWord base.toList)
    (hencode : IsWord config.encodeProcedure.toList)
    (hdecode : IsWord config.decodeProcedure.toList)
    (h : extract config source = .error f) : (f.diagnostic file).PointsInto file source := by
  cases (extract_eq_iff hbases hencode hdecode source).mp h with
  | classFault hclass => exact pointsInto_of_classOutcome hbases hclass
  | encodeFault _ hfault => exact pointsInto_of_procedureOutcome hencode hfault
  | decodeFault _ _ hfault => exact pointsInto_of_procedureOutcome hdecode hfault

end PacketFault

/-! ## Procedures that do not agree -/

namespace Packet

variable {config : Config} {source : String} {c : PacketClass} {f : PacketFault} {file : Nat}

/-- The body of a procedure is a range of the source, and goes from brace to brace. -/
theorem within_of_extract (h : extract config source = .ok c) {p : Procedure}
    (hp : c.encode = some p ∨ c.decode = some p) : p.span.Within source.toList ∧
      ∃ closing, p.span.stop = closing + 1 ∧ BraceBlock source p.span.start closing := by
  obtain ⟨first, last, hfound⟩ := extract_eq_ok h
  obtain ⟨brace, rfl, hclass⟩ := findBody_eq_ok hfound.body
  obtain ⟨-, -, closing, hstop, hblock⟩ := hfound.block hclass hp
  refine ⟨?_, closing, hstop, braceBlock_of_match? hblock⟩
  obtain ⟨_, _, _, opening, closing', -, hat, rfl⟩ := hfound.procedure hp
  have hlt := match?_lt braces_ne hat.matched
  have hstart := (isBoundary_of_blankComments hat.brace (by decide)).1
  have hclosing := match?_closing braces_ne hat.matched
  exact Span.within_of_boundaries (byteOffset_le _ (Nat.le_succ_of_le (Nat.le_of_lt hlt))) hstart
    (isBoundary_of_blankComments hclosing (by decide)).2

theorem asymmetry?_eq_some (h : asymmetry? config c = some f) :
    ∃ encode decode written read, c.encode = some encode ∧ c.decode = some decode ∧
      f = .asymmetric ⟨config.encodeProcedure, encode.span, written⟩
        ⟨config.decodeProcedure, decode.span, read⟩ := by
  obtain ⟨encode, hencode, h⟩ := Option.bind_eq_some_iff.mp h
  obtain ⟨decode, hdecode, h⟩ := Option.bind_eq_some_iff.mp h
  dsimp only at h
  split at h
  · cases h
    exact ⟨encode, decode, _, _, hencode, hdecode, rfl⟩
  · cases h

theorem pointsInto_of_asymmetry? (hextract : extract config source = .ok c)
    (h : asymmetry? config c = some f) : (f.diagnostic file).PointsInto file source := by
  obtain ⟨encode, decode, written, read, hencode, hdecode, rfl⟩ := asymmetry?_eq_some h
  obtain ⟨hwritten, hwrittenBlock⟩ := within_of_extract hextract (Or.inl hencode)
  obtain ⟨hread, hreadBlock⟩ := within_of_extract hextract (Or.inr hdecode)
  refine ⟨List.cons_ne_nil _ _, ?_, ?_, nofun, fun _ => ⟨rfl, ?_⟩⟩
  · exact List.forall_mem_cons.mpr ⟨rfl, List.forall_mem_singleton.mpr rfl⟩
  · exact List.forall_mem_cons.mpr ⟨hwritten, List.forall_mem_singleton.mpr hread⟩
  · exact List.forall_mem_cons.mpr ⟨hwrittenBlock, List.forall_mem_singleton.mpr hreadBlock⟩

theorem analyze_eq_error {name : String} (h : analyze config name source = .error f) :
    extract config source = .error f ∨
      ∃ c, extract config source = .ok c ∧ asymmetry? config c = some f := by
  unfold analyze at h
  cases hextract : extract config source with
  | error e =>
    simp only [hextract, bind, Except.bind, Except.error.injEq] at h
    exact Or.inl (congrArg _ h)
  | ok c =>
    cases hfault : asymmetry? config c with
    | some fault =>
      simp only [hextract, hfault, bind, Except.bind, Except.error.injEq] at h
      exact Or.inr ⟨c, rfl, hfault.trans (congrArg some h)⟩
    | none => simp [hextract, hfault, bind, Except.bind] at h

/-- **The labels of every fault of a packet point into its source**, comments and characters of
several bytes in it or not. -/
theorem analyze_pointsInto (hbases : ∀ base ∈ config.baseClasses, IsWord base.toList)
    (hencode : IsWord config.encodeProcedure.toList)
    (hdecode : IsWord config.decodeProcedure.toList) (name : String)
    (h : analyze config name source = .error f) (file : Nat) :
    (f.diagnostic file).PointsInto file source := by
  rcases analyze_eq_error h with hextract | ⟨c, hextract, hfault⟩
  · exact PacketFault.pointsInto_of_extract hbases hencode hdecode hextract
  · exact pointsInto_of_asymmetry? hextract hfault

/-- A comment before the class has a character of three bytes, and the class is not closed. -/
theorem analyze_pointsInto_unclosed :
    let source := "/*€*/class A extends DataPacket\x7b"
    let config := Config.default
    (∀ base ∈ config.baseClasses, IsWord base.toList) ∧ IsWord config.encodeProcedure.toList ∧
      IsWord config.decodeProcedure.toList ∧
      analyze config "A" source = .error (.unclosed .classBody 33) ∧
      ((PacketFault.unclosed .classBody 33).diagnostic 4).PointsInto 4 source := by
  intro source config
  have hbases : ∀ base ∈ config.baseClasses, IsWord base.toList := by decide
  have hencode : IsWord config.encodeProcedure.toList := by decide
  have hdecode : IsWord config.decodeProcedure.toList := by decide
  have h : analyze config "A" source = .error (.unclosed .classBody 33) := by decide +kernel
  exact ⟨hbases, hencode, hdecode, h, analyze_pointsInto hbases hencode hdecode "A" h 4⟩

end Packet

end PacketGen
