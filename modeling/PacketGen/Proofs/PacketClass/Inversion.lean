import PacketGen.Packet

/-!
# What a successful extraction has found

Extraction runs through a handful of searches, each of which can fail. These lemmas turn a success
around: they name everything that was found on the way, so that no later proof has to go through
the searches again.
-/

namespace PacketGen

namespace PacketClass

def procedureBetween (text : List Char) (opening closing : Nat) : Procedure where
  span := Text.byteSpan text opening (closing + 1)
  statements :=
    ((cleanLines (Text.slice text (opening + 1) closing)).filter (· ≠ [])).map String.ofList

/-- Where a procedure was found: its name, the end of its parameters, and its braces. -/
structure FoundAt (text : List Char) (first last : Nat) (name : String)
    (index parametersEnd opening closing : Nat) : Prop where
  declared : declaration? text first last name.toList = some index
  parameters : Brackets.parens.match? text (Text.skipBlanks text (index + name.toList.length)) =
    some parametersEnd
  mark : bodyMark? text (parametersEnd + 1) last = some opening
  brace : text[opening]? = some '{'
  matched : Brackets.braces.match? text opening = some closing

theorem findProcedure_eq_some {text : List Char} {first last : Nat} {name : String}
    {p : Procedure} (h : findProcedure text first last name = .ok (some p)) :
    ∃ index parametersEnd opening closing,
      FoundAt text first last name index parametersEnd opening closing ∧
        p = procedureBetween text opening closing := by
  unfold findProcedure at h
  cases hindex : declaration? text first last name.toList with
  | none => simp [hindex] at h
  | some index =>
    simp only [hindex] at h
    cases hparameters : Brackets.parens.match? text
        (Text.skipBlanks text (index + name.toList.length)) with
    | none => simp [hparameters] at h
    | some parametersEnd =>
      simp only [hparameters] at h
      cases hmark : (bodyMark? text (parametersEnd + 1) last).filter (text[·]? == some '{') with
      | none => simp [hmark] at h
      | some opening =>
        simp only [hmark] at h
        obtain ⟨hopening, hbrace⟩ := Option.filter_eq_some_iff.mp hmark
        cases hmatch : Brackets.braces.match? text opening with
        | none => simp [hmatch] at h
        | some closing =>
          simp only [hmatch, Except.ok.injEq, Option.some.injEq] at h
          exact ⟨index, parametersEnd, opening, closing,
            ⟨hindex, hparameters, hopening, by simpa using hbrace, hmatch⟩, h.symm⟩

/-- A class that was extracted: its body, and what was found in it. -/
structure FoundIn (config : Config) (text : List Char) (c : PacketClass) (first last : Nat) :
    Prop where
  body : findBody text config.baseClasses = .ok (first, last)
  span : c.span = Text.byteSpan text first last
  constants : c.constants = localConstants text first last config.reservedConstant
  encode : findProcedure text first last config.encodeProcedure = .ok c.encode
  decode : findProcedure text first last config.decodeProcedure = .ok c.decode

theorem extract_eq_ok {config : Config} {source : String} {c : PacketClass}
    (h : extract config source = .ok c) :
    ∃ first last, FoundIn config (blankComments source.toList) c first last := by
  unfold extract at h
  cases hbody : findBody (blankComments source.toList) config.baseClasses with
  | error e => simp [hbody, bind, Except.bind] at h
  | ok range =>
    obtain ⟨first, last⟩ := range
    cases hencode : findProcedure (blankComments source.toList) first last
        config.encodeProcedure with
    | error e => simp [hbody, hencode, bind, Except.bind] at h
    | ok encode =>
      cases hdecode : findProcedure (blankComments source.toList) first last
          config.decodeProcedure with
      | error e => simp [hbody, hencode, hdecode, bind, Except.bind] at h
      | ok decode =>
        simp only [hbody, hencode, hdecode, bind, Except.bind, pure, Except.pure,
          Except.ok.injEq] at h
        subst h
        exact ⟨first, last, hbody, rfl, rfl, hencode, hdecode⟩

/-- What an extraction fails with is the fault of its first search that fails. -/
theorem extract_eq_error_iff {config : Config} {source : String} {f : PacketFault} :
    extract config source = .error f ↔
      findBody (blankComments source.toList) config.baseClasses = .error f ∨
      ∃ first last, findBody (blankComments source.toList) config.baseClasses = .ok (first, last) ∧
        (findProcedure (blankComments source.toList) first last config.encodeProcedure = .error f ∨
          ∃ encode,
            findProcedure (blankComments source.toList) first last config.encodeProcedure =
              .ok encode ∧
            findProcedure (blankComments source.toList) first last config.decodeProcedure =
              .error f) := by
  constructor
  · intro h
    unfold extract at h
    cases hbody : findBody (blankComments source.toList) config.baseClasses with
    | error e =>
      simp only [hbody, bind, Except.bind, Except.error.injEq] at h
      exact Or.inl (h ▸ rfl)
    | ok range =>
      obtain ⟨first, last⟩ := range
      refine Or.inr ⟨first, last, rfl, ?_⟩
      cases hencode : findProcedure (blankComments source.toList) first last
          config.encodeProcedure with
      | error e =>
        simp only [hbody, hencode, bind, Except.bind, Except.error.injEq] at h
        exact Or.inl (h ▸ rfl)
      | ok encode =>
        refine Or.inr ⟨encode, rfl, ?_⟩
        cases hdecode : findProcedure (blankComments source.toList) first last
            config.decodeProcedure with
        | error e =>
          simp only [hbody, hencode, hdecode, bind, Except.bind, Except.error.injEq] at h
          exact h ▸ rfl
        | ok decode => simp [hbody, hencode, hdecode, bind, Except.bind, pure, Except.pure] at h
  · rintro (hbody | ⟨first, last, hbody, hencode | ⟨encode, hencode, hdecode⟩⟩)
    · simp only [extract, hbody, bind, Except.bind]
    · simp only [extract, hbody, hencode, bind, Except.bind]
    · simp only [extract, hbody, hencode, hdecode, bind, Except.bind]

/-- The statements of a procedure of an extracted class are the lines between two braces. -/
theorem FoundIn.procedure {config : Config} {text : List Char} {c : PacketClass}
    {first last : Nat} (h : FoundIn config text c first last) {p : Procedure}
    (hp : c.encode = some p ∨ c.decode = some p) :
    ∃ name index parametersEnd opening closing,
      (name = config.encodeProcedure ∨ name = config.decodeProcedure) ∧
        FoundAt text first last name index parametersEnd opening closing ∧
        p = procedureBetween text opening closing := by
  rcases hp with hp | hp
  · obtain ⟨index, parametersEnd, opening, closing, hfound⟩ :=
      findProcedure_eq_some (hp ▸ h.encode)
    exact ⟨_, index, parametersEnd, opening, closing, Or.inl rfl, hfound⟩
  · obtain ⟨index, parametersEnd, opening, closing, hfound⟩ :=
      findProcedure_eq_some (hp ▸ h.decode)
    exact ⟨_, index, parametersEnd, opening, closing, Or.inr rfl, hfound⟩

end PacketClass

namespace Packet

theorem analyze_eq_ok {config : Config} {name source : String} {p : Packet}
    (h : analyze config name source = .ok p) :
    ∃ c, PacketClass.extract config source = .ok c ∧ asymmetry? config c = none ∧
      p = ⟨name, c.constants, fieldsOf c⟩ := by
  unfold analyze at h
  cases hextract : PacketClass.extract config source with
  | error e => simp [hextract, bind, Except.bind] at h
  | ok c =>
    cases hfault : asymmetry? config c with
    | some fault => simp [hextract, hfault, bind, Except.bind] at h
    | none =>
      simp only [hextract, hfault, bind, Except.bind, Except.ok.injEq] at h
      exact ⟨c, rfl, hfault, h.symm⟩

/-- The fields of a packet are those of one of the procedures, unless there is none. -/
theorem fieldsOf_eq (c : PacketClass) :
    (c.encode = none ∧ c.decode = none ∧ fieldsOf c = []) ∨
      ∃ p, (c.encode = some p ∨ c.decode = some p) ∧
        Field.ofStatements p.statements = fieldsOf c := by
  cases hencode : c.encode with
  | none =>
    cases hdecode : c.decode with
    | none =>
      refine Or.inl ⟨rfl, rfl, ?_⟩
      simp [fieldsOf, Procedure.fields, hencode, hdecode]
    | some q =>
      refine Or.inr ⟨q, Or.inr rfl, ?_⟩
      simp [fieldsOf, Procedure.fields, hencode, hdecode]
  | some p =>
    by_cases hempty : Field.ofStatements p.statements = []
    · cases hdecode : c.decode with
      | none =>
        refine Or.inr ⟨p, Or.inl rfl, ?_⟩
        simp [fieldsOf, Procedure.fields, hencode, hdecode, hempty]
      | some q =>
        refine Or.inr ⟨q, Or.inr rfl, ?_⟩
        simp [fieldsOf, Procedure.fields, hencode, hdecode, hempty]
    · refine Or.inr ⟨p, Or.inl rfl, ?_⟩
      simp [fieldsOf, Procedure.fields, hencode, hempty]

end Packet

end PacketGen
