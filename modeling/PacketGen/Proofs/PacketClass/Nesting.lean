import PacketGen.Proofs.Brackets.Bytes
import PacketGen.Proofs.Brackets.FirstBlock
import PacketGen.Proofs.Comment.Blanking
import PacketGen.Proofs.PacketClass.Inversion
import PacketGen.Proofs.Text.WordSearch

/-!
# Procedures nest in their class

The braces of a procedure are looked for between the braces of its class, so they are closed before
those are: what is opened in a block is closed in it (`Brackets.match?_nested`). The search for
a procedure has a branch for a body that is never closed, and `Searched`, which lists what the
search can come to, has no such case.

The parentheses of the parameters are another matter. They are matched over the whole text and may
well be closed behind the class, which then has no body left for the procedure.

Places are told by bytes, as the spans are. The text that is searched is the one with its comments
blanked; a brace there is a brace of the source, since what blanking puts in are spaces.
-/

namespace PacketGen.PacketClass

open Text Brackets

variable {text : List Char} {first last : Nat} {name : String}

/-! ## What a search for a procedure comes to -/

/-- The brace or semicolon that tells whether a procedure has a body. -/
def IsMark (c : Char) : Prop := c = '\x7b' ∨ c = ';'

theorem bodyMark?_eq_some_iff {start mark : Nat} :
    bodyMark? text start last = some mark ↔ FirstFrom (text.take last) start IsMark mark := by
  have hmark : (fun c : Char => (c == '\x7b' || c == ';') = true) = IsMark := by
    funext c
    simp [IsMark]
  rw [bodyMark?, slice, Option.map_eq_some_iff]
  constructor
  · rintro ⟨n, hn, rfl⟩
    rw [← hmark]
    exact findIdx?_drop_eq_some_iff.mp hn
  · intro h
    obtain ⟨n, rfl⟩ := Nat.exists_eq_add_of_le h.le
    rw [← hmark] at h
    exact ⟨n, findIdx?_drop_eq_some_iff.mpr h, rfl⟩

/-- A mark in the class body is before its end, and there in the text. -/
theorem exists_mark_of_firstFrom {start mark : Nat}
    (h : FirstFrom (text.take last) start IsMark mark) :
    mark < last ∧ ∃ c, text[mark]? = some c ∧ IsMark c := by
  obtain ⟨c, hc, hmark⟩ := h.holds
  have hlt : mark < last := by
    obtain ⟨hlength, -⟩ := List.getElem?_eq_some_iff.mp hc
    exact Nat.lt_of_lt_of_le hlength (List.length_take_le last text)
  rw [List.getElem?_take_of_lt hlt] at hc
  exact ⟨hlt, c, hc, hmark⟩

/-- The body of a procedure begins in the class body. -/
theorem opening_lt_last {start mark : Nat} (h : bodyMark? text start last = some mark) :
    mark < last :=
  (exists_mark_of_firstFrom (bodyMark?_eq_some_iff.mp h)).1

theorem first_le_of_declaration? {word : List Char} {index : Nat}
    (h : declaration? text first last word = some index) : first ≤ index := by
  have hmem := List.mem_of_find?_eq_some h
  exact (pairwise_occurrencesFrom _ _ _ _).2 index (List.mem_filter.mp hmem).1

/-- The body of a procedure begins behind its parameters, and so behind the start of the class. -/
theorem first_lt_opening {index parametersEnd mark : Nat}
    (hdeclared : declaration? text first last name.toList = some index)
    (hparameters : parens.match? text (skipBlanks text (index + name.toList.length)) =
      some parametersEnd)
    (hmark : bodyMark? text (parametersEnd + 1) last = some mark) : first < mark := by
  have hindex := first_le_of_declaration? hdeclared
  have hskip : index + name.toList.length ≤ skipBlanks text (index + name.toList.length) :=
    Nat.le_add_right _ _
  have hclose := match?_lt parens_ne hparameters
  have hle := (bodyMark?_eq_some_iff.mp hmark).le
  omega

/-- **A body that begins in a class is closed in it.** -/
theorem exists_closing {brace index parametersEnd opening : Nat}
    (hclass : braces.match? text brace = some last)
    (hdeclared : declaration? text (brace + 1) last name.toList = some index)
    (hparameters : parens.match? text (skipBlanks text (index + name.toList.length)) =
      some parametersEnd)
    (hmark : bodyMark? text (parametersEnd + 1) last = some opening)
    (hbrace : text[opening]? = some '\x7b') :
    ∃ closing, braces.match? text opening = some closing ∧ closing < last := by
  have hbehind := first_lt_opening hdeclared hparameters hmark
  exact match?_nested braces_ne hclass (by omega) (opening_lt_last hmark) hbrace

theorem FoundAt.nested {brace index parametersEnd opening closing : Nat}
    (h : FoundAt text (brace + 1) last name index parametersEnd opening closing)
    (hclass : braces.match? text brace = some last) : brace + 1 < opening ∧ closing < last := by
  refine ⟨first_lt_opening h.declared h.parameters h.mark, ?_⟩
  obtain ⟨closing', hclosing', hlt⟩ :=
    exists_closing hclass h.declared h.parameters h.mark h.brace
  rw [h.matched, Option.some_inj] at hclosing'
  exact hclosing' ▸ hlt

/-- What the search for a procedure comes to. -/
inductive Searched (text : List Char) (first last : Nat) (name : String) :
    Except PacketFault (Option Procedure) → Prop
  | undeclared : declaration? text first last name.toList = none →
      Searched text first last name (.ok none)
  | unclosedParameters {index parameters : Nat} :
      declaration? text first last name.toList = some index →
      skipBlanks text (index + name.toList.length) = parameters →
      parens.match? text parameters = none →
      Searched text first last name (.error (.unclosed .parameters (byteOffset text parameters)))
  | bodiless {index parameters parametersEnd : Nat} :
      declaration? text first last name.toList = some index →
      skipBlanks text (index + name.toList.length) = parameters →
      parens.match? text parameters = some parametersEnd →
      (∀ mark, bodyMark? text (parametersEnd + 1) last = some mark → text[mark]? ≠ some '\x7b') →
      Searched text first last name
        (.error (.noProcedureBody name (byteSpan text index parameters)))
  | found {index parametersEnd opening closing : Nat} :
      FoundAt text first last name index parametersEnd opening closing →
      Searched text first last name (.ok (some (procedureBetween text opening closing)))

/-- So the search for a procedure never ends in a body that is not closed. -/
theorem searched_findProcedure {brace : Nat} (hclass : braces.match? text brace = some last)
    (name : String) : Searched text (brace + 1) last name
      (findProcedure text (brace + 1) last name) := by
  unfold findProcedure
  cases hindex : declaration? text (brace + 1) last name.toList with
  | none => exact .undeclared hindex
  | some index =>
    dsimp only
    cases hparameters : parens.match? text (skipBlanks text (index + name.toList.length)) with
    | none => exact .unclosedParameters hindex rfl hparameters
    | some parametersEnd =>
      dsimp only
      cases hmark : (bodyMark? text (parametersEnd + 1) last).filter (text[·]? == some '\x7b') with
      | none =>
        refine .bodiless hindex rfl hparameters fun mark hmark' hbrace => ?_
        simp [hmark', hbrace] at hmark
      | some opening =>
        obtain ⟨hopening, hbrace⟩ := Option.filter_eq_some_iff.mp hmark
        have hbrace : text[opening]? = some '\x7b' := by simpa using hbrace
        obtain ⟨closing, hclosing, -⟩ := exists_closing hclass hindex hparameters hopening hbrace
        dsimp only
        rw [hclosing]
        exact .found ⟨hindex, hparameters, hopening, hbrace, hclosing⟩

/-- The body of a class is the block of a brace. -/
theorem findBody_eq_ok {bases : List String} (h : findBody text bases = .ok (first, last)) :
    ∃ brace, first = brace + 1 ∧ braces.match? text brace = some last := by
  unfold findBody at h
  split at h
  · cases h
  · next index _ =>
    have hblock := foundBlock_findBlock braces text index
    generalize braces.findBlock text index = block at h hblock
    cases hblock with
    | absent => cases h
    | unclosed => cases h
    | closed _ hmatch =>
      cases h
      exact ⟨_, rfl, hmatch⟩

theorem unclosed_of_findBody {bases : List String} {f : PacketFault}
    (h : findBody text bases = .error f) (hcode : f.code = .unbalancedBrackets) :
    ∃ index, f = .unclosed .classBody index := by
  unfold findBody at h
  split at h
  · cases h
    cases hcode
  · next index _ =>
    generalize braces.findBlock text index = block at h
    cases block with
    | absent =>
      cases h
      cases hcode
    | unclosed opening =>
      cases h
      exact ⟨_, rfl⟩
    | closed => cases h

theorem unclosed_of_searched {f : PacketFault} (h : Searched text first last name (.error f))
    (hcode : f.code = .unbalancedBrackets) : ∃ index, f = .unclosed .parameters index := by
  cases h with
  | unclosedParameters => exact ⟨_, rfl⟩
  | bodiless => cases hcode

/-! ## The bytes of a block -/

/-- The bytes of the source at `start` and `close` are braces, and between them the braces of the
blanked text are balanced. -/
structure BraceBlock (source : String) (start close : Nat) : Prop where
  lt : start < close
  opening : (utf8 source.toList)[start]? = some 0x7B
  closing : (utf8 source.toList)[close]? = some 0x7D
  balanced : byteBraces.Closes 0
    ((utf8 (blankComments source.toList)).extract (start + 1) close)

theorem braceBlock_of_match? {source : String} {start close : Nat}
    (h : byteBraces.match? (utf8 (blankComments source.toList)) start = some close) :
    BraceBlock source start close := by
  obtain ⟨before, inside, after, hsplit, hbalanced⟩ := (match?_eq_some_iff ascii_braces.ne).mp h
  refine ⟨hsplit.lt, getElem?_of_blankComments hsplit.opening (by decide),
    getElem?_of_blankComments hsplit.closing (by decide), ?_⟩
  rw [hsplit.extract.2]
  exact hbalanced.closes ascii_braces.ne

/-- A block of characters is a block of bytes, each of its braces being one byte. -/
theorem match?_bytes {opening closing : Nat} (h : braces.match? text opening = some closing) :
    byteBraces.match? (utf8 text) (byteOffset text opening) = some (byteOffset text closing) ∧
      byteOffset text (opening + 1) = byteOffset text opening + 1 ∧
      byteOffset text (closing + 1) = byteOffset text closing + 1 := by
  refine ⟨?_, byteOffset_succ (match?_opening braces_ne h),
    byteOffset_succ (match?_closing braces_ne h)⟩
  rw [match?_utf8 ascii_braces, h]
  rfl

/-- Where the procedures of a class are: between its braces, and with braces of their own that do
not cross. -/
structure Nests (source : String) (c : PacketClass) : Prop where
  body : ∃ opening, c.span.start = opening + 1 ∧ BraceBlock source opening c.span.stop
  procedures : ∀ p, c.encode = some p ∨ c.decode = some p →
    c.span.start ≤ p.span.start ∧ p.span.stop ≤ c.span.stop ∧
      ∃ closing, p.span.stop = closing + 1 ∧ BraceBlock source p.span.start closing
  laminar : ∀ p q, c.encode = some p → c.decode = some q →
    p.span = q.span ∨ p.span.stop ≤ q.span.start ∨ q.span.stop ≤ p.span.start ∨
      (p.span.start < q.span.start ∧ q.span.stop < p.span.stop) ∨
      (q.span.start < p.span.start ∧ p.span.stop < q.span.stop)

/-- Of a procedure it is enough to know where its block is, among the bytes. -/
theorem FoundIn.block {config : Config} {source : String} {c : PacketClass} {brace : Nat}
    (h : FoundIn config (blankComments source.toList) c (brace + 1) last)
    (hclass : braces.match? (blankComments source.toList) brace = some last) {p : Procedure}
    (hp : c.encode = some p ∨ c.decode = some p) :
    c.span.start ≤ p.span.start ∧ p.span.stop ≤ c.span.stop ∧
      ∃ closing, p.span.stop = closing + 1 ∧
        byteBraces.match? (utf8 (blankComments source.toList)) p.span.start = some closing := by
  obtain ⟨name, index, parametersEnd, opening, closing, -, hat, rfl⟩ := h.procedure hp
  obtain ⟨hbehind, hinside⟩ := hat.nested hclass
  obtain ⟨hblock, -, hstop⟩ := match?_bytes hat.matched
  rw [h.span]
  exact ⟨byteOffset_le _ (Nat.le_of_lt hbehind), byteOffset_le _ hinside, _, hstop, hblock⟩

theorem nests_of_foundIn {config : Config} {source : String} {c : PacketClass} {brace : Nat}
    (h : FoundIn config (blankComments source.toList) c (brace + 1) last)
    (hclass : braces.match? (blankComments source.toList) brace = some last) :
    Nests source c := by
  refine ⟨?_, fun p hp => ?_, fun p q hp hq => ?_⟩
  · obtain ⟨hbytes, hstart, -⟩ := match?_bytes hclass
    rw [h.span]
    exact ⟨_, hstart, braceBlock_of_match? hbytes⟩
  · obtain ⟨hle, hle', closing, hstop, hblock⟩ := h.block hclass hp
    exact ⟨hle, hle', closing, hstop, braceBlock_of_match? hblock⟩
  · obtain ⟨-, -, closing, hstop, hblock⟩ := h.block hclass (Or.inl hp)
    obtain ⟨-, -, closing', hstop', hblock'⟩ := h.block hclass (Or.inr hq)
    rcases match?_laminar ascii_braces.ne hblock hblock' with
      ⟨heq, heq'⟩ | hbefore | hbehind | houter | hinner
    · refine Or.inl ?_
      rw [show p.span = ⟨p.span.start, p.span.stop⟩ from rfl, heq, hstop, heq', ← hstop']
    all_goals omega

/-- No other brackets are reported as unclosed than those of the class body and of parameters. -/
theorem unclosed_of_extract {config : Config} {source : String} {f : PacketFault}
    (h : extract config source = .error f) (hcode : f.code = .unbalancedBrackets) :
    ∃ index, f = .unclosed .classBody index ∨ f = .unclosed .parameters index := by
  rcases extract_eq_error_iff.mp h with hbody | ⟨first, last, hbody, h⟩
  · obtain ⟨index, hf⟩ := unclosed_of_findBody hbody hcode
    exact ⟨index, Or.inl hf⟩
  · obtain ⟨brace, rfl, hclass⟩ := findBody_eq_ok hbody
    have hsearched (name : String) := searched_findProcedure hclass name
    have hparameters : ∃ index, f = .unclosed .parameters index := by
      rcases h with hencode | ⟨_, -, hdecode⟩
      · exact unclosed_of_searched (hencode ▸ hsearched config.encodeProcedure) hcode
      · exact unclosed_of_searched (hdecode ▸ hsearched config.decodeProcedure) hcode
    obtain ⟨index, hf⟩ := hparameters
    exact ⟨index, Or.inr hf⟩

/-- **The procedures of an extracted class nest in it**, and a body that is not closed is none of
the faults. -/
theorem extract_nests (config : Config) (source : String) :
    (∀ f, extract config source = .error f → f.code = .unbalancedBrackets →
      ∃ index, f = .unclosed .classBody index ∨ f = .unclosed .parameters index) ∧
    ∀ c, extract config source = .ok c → Nests source c := by
  refine ⟨fun f h hcode => unclosed_of_extract h hcode, fun c h => ?_⟩
  obtain ⟨first, last, hfound⟩ := extract_eq_ok h
  obtain ⟨brace, rfl, hclass⟩ := findBody_eq_ok hfound.body
  exact nests_of_foundIn hfound hclass

/-- One procedure in the body of the other, and a semicolon between two closing braces. -/
theorem extract_nests_inner :
    let source :=
      "class A extends DataPacket\x7bfunction encode()\x7bfunction decode()\x7b\x7d;\x7d\x7d"
    ∃ c p q, extract Config.default source = .ok c ∧ c.encode = some p ∧ c.decode = some q ∧
      p.span.start < q.span.start ∧ q.span.stop < p.span.stop ∧ Nests source c := by
  intro source
  have h : extract Config.default source = .ok ⟨⟨27, 66⟩, [],
      some ⟨⟨44, 66⟩, ["function decode()\x7b\x7d"]⟩, some ⟨⟨62, 64⟩, []⟩⟩ := by decide +kernel
  exact ⟨_, _, _, h, rfl, rfl, by decide, by decide, (extract_nests Config.default source).2 _ h⟩

end PacketGen.PacketClass
