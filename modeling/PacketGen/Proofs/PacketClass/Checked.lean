import PacketGen.Proofs.Brackets.Bytes
import PacketGen.Proofs.Comment.Checked
import PacketGen.Proofs.PacketClass.Nesting

/-!
# Finding a packet class, checked

The search for a packet class and its procedures by byte offsets, with everything that can go wrong
with them checked: `none` stands for a slice that is out of range or cuts a character, for a byte
that is not there, for a difference below zero, and for a loop that has not ended after as many
rounds as the text has bytes, and one.

None of that happens (`analyze_checked`), and what is found is the same. A place that a search has
found is the offset of a character, and so is what is a word, or an ASCII bracket, behind such
a place. The base classes may be any texts. A procedure has to have a name: the empty word is found
anew where it was found last, so the searches for it do not end.
-/

namespace PacketGen

open Text Brackets

namespace Brackets

variable {α : Type} [DecidableEq α]

/-- The block of the first opening bracket, by the loop that counts the depth. -/
def findBlockCounting? (b : Brackets α) (text : List α) (start : Nat) : Option Block :=
  match (text.drop start).findIdx? (· = b.opening) with
  | none => some .absent
  | some n =>
    (b.matchCounting? text (start + n)).map fun
      | some close => .closed (start + n + 1) close
      | none => .unclosed (start + n)

theorem findBlockCounting?_eq (b : Brackets α) (text : List α) (start : Nat) :
    b.findBlockCounting? text start = some (b.findBlock text start) := by
  rw [findBlockCounting?, findBlock]
  cases (text.drop start).findIdx? (· = b.opening) with
  | none => rfl
  | some n =>
    dsimp only
    rw [matchCounting?_eq]
    rfl

end Brackets

namespace Checked

variable {text base name : List Char} {i first last : Nat}

/-! ## The class -/

/-- Behind the base class name `base`, if it follows the word `extends` at `place`. -/
def baseEndAt? (text base : List Char) (place : Nat) : Option (Option Nat) := do
  let start ← skipBlanks? text (place + byteLength "extends".toList)
  let found ← findWord? text start (byteLength text) base
  return if found = some start then some (start + byteLength base) else none

/-- Behind the first base class name `base` that follows a word `extends`. -/
def baseEnd? (text base : List Char) : Option (Option Nat) :=
  searchWords? text "extends".toList (byteLength text) (baseEndAt? text base)
    (byteLength text + 1) 0

/-- Behind the base class name that ends first, over all base classes. -/
def firstBaseEnd? (text : List Char) (bases : List String) : Option (Option Nat) := do
  let ends ← bases.mapM fun base => baseEnd? text base.toList
  return (ends.filterMap id).min?

/-- The byte offsets of the class body. -/
def findBody? (text : List Char) (bases : List String) :
    Option (Except PacketFault (Nat × Nat)) := do
  match ← firstBaseEnd? text bases with
  | none => return .error (.noClass bases)
  | some offset =>
    match ← byteBraces.findBlockCounting? (utf8 text) offset with
    | .closed start stop => return .ok (start, stop)
    | .absent => return .error (.noClassBody offset)
    | .unclosed opening => return .error (.unclosed .classBody opening)

/-- The offset at which a search begins is that of a found word when the word stands there. -/
theorem found_first_iff {w : List Char} (hi : i ≤ text.length) :
    (Text.findWord? text i text.length w).map (byteOffset text) = some (byteOffset text i) ↔
      hasWordAt text i w = true := by
  rw [← findWord?_eq_some_first, Option.map_eq_some_iff]
  constructor
  · rintro ⟨k, hk, hoffset⟩
    obtain ⟨ks, hks⟩ := List.head?_eq_some_iff.mp hk
    obtain ⟨-, hle, -⟩ := mem_of_wordIndices_cons hi (Nat.le_refl _) hks
    obtain rfl := byteOffset_inj (by omega) hi hoffset
    exact hk
  · intro h
    exact ⟨i, h, rfl⟩

theorem baseEndAt?_byteOffset (base : List Char) (hi : i + "extends".toList.length ≤ text.length)
    (hword : "extends".toList <+: text.drop i) :
    baseEndAt? text base (byteOffset text i) =
      some ((if hasWordAt text (skipBlanks text (i + "extends".toList.length)) base then
        some (skipBlanks text (i + "extends".toList.length) + base.length) else none).map
          (byteOffset text)) := by
  have hstart := skipBlanks_le hi
  have hfind := findWord?_byteOffset hstart (Nat.le_refl _) base
  rw [byteOffset_length] at hfind
  rw [baseEndAt?, ← byteOffset_add_of_prefix hword, skipBlanks?_byteOffset hi]
  generalize skipBlanks text (i + "extends".toList.length) = start at hstart hfind ⊢
  dsimp only [Option.bind_eq_bind, Option.bind_some]
  rw [hfind, Option.bind_some]
  by_cases hhere : hasWordAt text start base = true
  · have hprefix := List.isPrefixOf_iff_prefix.mp (Bool.and_eq_true_iff.mp hhere).1
    rw [if_pos ((found_first_iff hstart).mpr hhere), if_pos hhere, Option.map_some,
      byteOffset_add_of_prefix hprefix]
    rfl
  · rw [if_neg fun h => hhere ((found_first_iff hstart).mp h), if_neg hhere]
    rfl

theorem baseEnd?_eq (text base : List Char) :
    baseEnd? text base = some ((PacketClass.baseEnd? text base).map (byteOffset text)) := by
  have hrounds : text.length - 0 < byteLength text + 1 :=
    Nat.lt_succ_of_le (length_le_byteLength text)
  have hsearch := searchWords?_eq (by decide) (Nat.zero_le _) (Nat.le_refl text.length) hrounds
    fun k _ hk hprefix => baseEndAt?_byteOffset base hk hprefix
  rw [byteOffset_length, byteOffset_zero] at hsearch
  rw [baseEnd?, hsearch, PacketClass.baseEnd?, List.map_findSome?]
  rfl

theorem min?_map {f : Nat → Nat} (hf : ∀ m n, m ≤ n → f m ≤ f n) (l : List Nat) :
    (l.map f).min? = l.min?.map f := by
  induction l with
  | nil => rfl
  | cons m l ih =>
    rw [List.map_cons, List.min?_cons, List.min?_cons, ih]
    cases l.min? with
    | none => rfl
    | some n =>
      refine congrArg some ?_
      dsimp only [Option.map_some, Option.elim_some]
      rcases Nat.le_total m n with hle | hle
      · rw [Nat.min_eq_left hle, Nat.min_eq_left (hf m n hle)]
      · rw [Nat.min_eq_right hle, Nat.min_eq_right (hf n m hle)]

theorem firstBaseEnd?_eq (text : List Char) (bases : List String) : firstBaseEnd? text bases =
    some ((PacketClass.firstBaseEnd? text bases).map (byteOffset text)) := by
  have hends : (bases.mapM fun base => baseEnd? text base.toList) =
      some (bases.map fun base =>
        (PacketClass.baseEnd? text base.toList).map (byteOffset text)) := by
    simp only [baseEnd?_eq]
    exact List.mapM_pure
  rw [firstBaseEnd?, hends, PacketClass.firstBaseEnd?,
    ← min?_map fun _ _ => byteOffset_le text, List.map_filterMap]
  dsimp only [Option.bind_eq_bind, Option.bind_some]
  rw [List.filterMap_map]
  rfl

/-- Two places, told by bytes. -/
def byteRange (text : List Char) (range : Nat × Nat) : Nat × Nat :=
  (byteOffset text range.1, byteOffset text range.2)

theorem findBody?_eq (text : List Char) (bases : List String) :
    findBody? text bases = some ((PacketClass.findBody text bases).map (byteRange text)) := by
  rw [findBody?, firstBaseEnd?_eq, PacketClass.findBody]
  dsimp only [Option.bind_eq_bind, Option.bind_some]
  cases PacketClass.firstBaseEnd? text bases with
  | none => rfl
  | some i =>
    dsimp only [Option.map_some]
    rw [findBlockCounting?_eq, findBlock_utf8 ascii_braces, Option.bind_some]
    cases braces.findBlock text i with
    | absent => rfl
    | unclosed opening => rfl
    | closed start stop => rfl

/-! ## A procedure -/

/-- The byte offsets of a name and of the parenthesis behind it, where `name` is declared at
`place`. -/
def declaredAt? (text : List Char) (bodyStart : Nat) (name : List Char) (place : Nat) :
    Option (Option (Nat × Nat)) := do
  let before ← slice? text bodyStart place
  let parameters ← skipBlanks? text (place + byteLength name)
  return if "function".toList.isSuffixOf (trimEnd before) &&
      (utf8 text)[parameters]? == some 0x28 then some (place, parameters) else none

/-- Where a procedure is declared in a class body. -/
def declaration? (text : List Char) (bodyStart bodyStop : Nat) (name : List Char) :
    Option (Option (Nat × Nat)) :=
  searchWords? text name bodyStop (declaredAt? text bodyStart name) (byteLength text + 1) bodyStart

/-- The byte offset of the first opening brace or semicolon between two others. These may be out of
order, as parameters may be closed behind the class; then there is none. -/
def bodyMark? (text : List Char) (start stop : Nat) : Option Nat := do
  let rest ← slice? text start stop
  let n ← rest.findIdx? fun c => c == '\x7b' || c == ';'
  return start + byteOffset rest n

/-- The procedure whose body opens at a byte offset. -/
def procedureAt? (text : List Char) (name : String) (opening : Nat) :
    Option (Except PacketFault (Option Procedure)) := do
  match ← byteBraces.matchCounting? (utf8 text) opening with
  | none => return .error (.unclosed (.procedure name) opening)
  | some closing =>
    let body ← slice? text (opening + 1) closing
    return .ok (some ⟨⟨opening, closing + 1⟩,
      ((PacketClass.cleanLines body).filter (· ≠ [])).map String.ofList⟩)

/-- The procedure `name` of a class body, if it is declared there. -/
def findProcedure? (text : List Char) (bodyStart bodyStop : Nat) (name : String) :
    Option (Except PacketFault (Option Procedure)) := do
  match ← declaration? text bodyStart bodyStop name.toList with
  | none => return .ok none
  | some (start, parameters) =>
    match ← byteParens.matchCounting? (utf8 text) parameters with
    | none => return .error (.unclosed .parameters parameters)
    | some parametersEnd =>
      match bodyMark? text (parametersEnd + 1) bodyStop with
      | none => return .error (.noProcedureBody name ⟨start, parameters⟩)
      | some opening =>
        let b ← (utf8 text)[opening]?
        if b = 0x7B then procedureAt? text name opening
        else return .error (.noProcedureBody name ⟨start, parameters⟩)

theorem declaredAt?_byteOffset (hle : first ≤ i) (hi : i + name.length ≤ text.length)
    (hword : name <+: text.drop i) :
    declaredAt? text (byteOffset text first) name (byteOffset text i) =
      some ((Option.guard (PacketClass.declaresAt text first name) i).map fun k =>
        (byteOffset text k, byteOffset text (skipBlanks text (k + name.length)))) := by
  have hparen (k : Nat) : ((utf8 text)[byteOffset text k]? == some 0x28) =
      (text[k]? == some '(') := by
    rw [Bool.eq_iff_iff, beq_iff_eq, beq_iff_eq]
    exact getElem?_utf8_iff rfl (by decide)
  rw [declaredAt?, slice?_byteOffset hle (by omega), ← byteOffset_add_of_prefix hword,
    skipBlanks?_byteOffset hi]
  dsimp only [Option.bind_eq_bind, Option.bind_some]
  rw [hparen, Option.guard, PacketClass.declaresAt]
  split <;> rfl

theorem declaration?_eq (hname : name ≠ []) (hle : first ≤ last) (hlast : last ≤ text.length) :
    declaration? text (byteOffset text first) (byteOffset text last) name =
      some ((PacketClass.declaration? text first last name).map fun k =>
        (byteOffset text k, byteOffset text (skipBlanks text (k + name.length)))) := by
  have hrounds : last - first < byteLength text + 1 := by
    have hlength := length_le_byteLength text
    omega
  have hsearch := searchWords?_eq hname hle hlast hrounds fun k hk hlast' hprefix =>
    declaredAt?_byteOffset hk (Nat.le_trans hlast' hlast) hprefix
  rw [declaration?, hsearch, PacketClass.declaration?, List.find?_eq_findSome?_guard,
    List.map_findSome?]
  rfl

/-- A mark is looked for in a part of the text, if the part is one. -/
theorem bodyMark?_eq (hi : i ≤ text.length) (hlast : last ≤ text.length) :
    bodyMark? text (byteOffset text i) (byteOffset text last) =
      (PacketClass.bodyMark? text i last).map (byteOffset text) := by
  rcases Nat.lt_or_ge last i with hlt | hge
  · have hslice : slice text i last = [] := by
      rw [slice_eq, Nat.sub_eq_zero_of_le (Nat.le_of_lt hlt), List.take_zero]
    have hnone : slice? text (byteOffset text i) (byteOffset text last) = none := by
      have hoffset := byteOffset_lt hlt (Nat.lt_of_lt_of_le hlt hi)
      rw [Option.eq_none_iff_forall_ne_some]
      intro part hpart
      have hle := (slice?_isSome_iff.mp (Option.isSome_of_eq_some hpart)).1
      omega
    rw [bodyMark?, hnone, PacketClass.bodyMark?, hslice]
    rfl
  · rw [bodyMark?, slice?_byteOffset hge hlast, PacketClass.bodyMark?]
    dsimp only [Option.bind_eq_bind, Option.bind_some]
    cases hmark : (slice text i last).findIdx? fun c => c == '\x7b' || c == ';' with
    | none => rfl
    | some n =>
      have hn : n < (slice text i last).length := (List.findIdx?_eq_some_iff_getElem.mp hmark).1
      rw [length_slice text i hlast] at hn
      exact congrArg some (byteOffset_slice (by omega))

/-- At a mark is a byte, and it tells whether the mark is a brace. -/
theorem exists_markByte {mark : Nat} (h : PacketClass.bodyMark? text i last = some mark) :
    ∃ b, (utf8 text)[byteOffset text mark]? = some b ∧ (b = 0x7B ↔ text[mark]? = some '\x7b') := by
  obtain ⟨-, c, hc, -⟩ :=
    PacketClass.exists_mark_of_firstFrom (PacketClass.bodyMark?_eq_some_iff.mp h)
  obtain ⟨b, -, hbyte⟩ := exists_byte hc (Char.utf8Size_pos c)
  rw [Nat.add_zero] at hbyte
  have hbrace : (utf8 text)[byteOffset text mark]? = some 0x7B ↔ text[mark]? = some '\x7b' :=
    getElem?_utf8_iff rfl (by decide)
  rw [hbyte, Option.some_inj] at hbrace
  exact ⟨b, hbyte, hbrace⟩

theorem procedureAt?_eq (text : List Char) (name : String) (opening : Nat) :
    procedureAt? text name (byteOffset text opening) =
      some (match braces.match? text opening with
        | none => .error (.unclosed (.procedure name) (byteOffset text opening))
        | some closing => .ok (some (PacketClass.procedureBetween text opening closing))) := by
  rw [procedureAt?, matchCounting?_eq, match?_utf8 ascii_braces]
  dsimp only [Option.bind_eq_bind, Option.bind_some]
  cases hmatch : braces.match? text opening with
  | none => rfl
  | some closing =>
    obtain ⟨hlength, -⟩ := List.getElem?_eq_some_iff.mp (match?_closing braces_ne hmatch)
    obtain ⟨-, hopening, hclosing⟩ := PacketClass.match?_bytes hmatch
    have hlt : opening + 1 ≤ closing := match?_lt braces_ne hmatch
    dsimp only [Option.map_some]
    rw [← hopening, slice?_byteOffset hlt (Nat.le_of_lt hlength), ← hclosing]
    rfl

theorem findProcedure?_eq {name : String} (hname : name ≠ "") (hle : first ≤ last)
    (hlast : last ≤ text.length) :
    findProcedure? text (byteOffset text first) (byteOffset text last) name =
      some (PacketClass.findProcedure text first last name) := by
  have hname : name.toList ≠ [] := by simpa using hname
  rw [findProcedure?, declaration?_eq hname hle hlast, PacketClass.findProcedure]
  dsimp only [Option.bind_eq_bind, Option.bind_some]
  cases PacketClass.declaration? text first last name.toList with
  | none => rfl
  | some index =>
    dsimp only [Option.map_some]
    generalize skipBlanks text (index + name.toList.length) = parameters
    rw [matchCounting?_eq, match?_utf8 ascii_parens, Option.bind_some]
    cases hparameters : parens.match? text parameters with
    | none => rfl
    | some parametersEnd =>
      have hclosing := match?_closing parens_ne hparameters
      obtain ⟨hlength, -⟩ := List.getElem?_eq_some_iff.mp hclosing
      have hbehind : byteOffset text (parametersEnd + 1) = byteOffset text parametersEnd + 1 :=
        byteOffset_succ hclosing
      dsimp only [Option.map_some]
      rw [← hbehind, bodyMark?_eq hlength hlast]
      cases hmark : PacketClass.bodyMark? text (parametersEnd + 1) last with
      | none => rfl
      | some opening =>
        obtain ⟨b, hbyte, hbrace⟩ := exists_markByte hmark
        dsimp only [Option.map_some]
        rw [hbyte, Option.bind_some, Option.filter_some]
        by_cases hopen : text[opening]? = some '\x7b'
        · rw [if_pos (hbrace.mpr hopen), if_pos (beq_iff_eq.mpr hopen), procedureAt?_eq]
          rfl
        · rw [if_neg (fun h => hopen (hbrace.mp h)), if_neg (by simpa using hopen)]
          rfl

/-! ## The packet -/

/-- The packet class of a source. -/
def extract? (config : Config) (source : String) : Option (Except PacketFault PacketClass) := do
  let text ← blankComments? source.toList
  match ← findBody? text config.baseClasses with
  | .error fault => return .error fault
  | .ok (start, stop) =>
    let body ← slice? text start stop
    let constants := PacketClass.localConstants body 0 body.length config.reservedConstant
    match ← findProcedure? text start stop config.encodeProcedure with
    | .error fault => return .error fault
    | .ok encode =>
      match ← findProcedure? text start stop config.decodeProcedure with
      | .error fault => return .error fault
      | .ok decode => return .ok ⟨⟨start, stop⟩, constants, encode, decode⟩

/-- The packet `name` with the given source. -/
def analyze? (config : Config) (name source : String) : Option (Except PacketFault Packet) := do
  match ← extract? config source with
  | .error fault => return .error fault
  | .ok c =>
    match Packet.asymmetry? config c with
    | some fault => return .error fault
    | none => return .ok ⟨name, c.constants, Packet.fieldsOf c⟩

/-- The constants of a class body are those of the text that it is. -/
theorem localConstants_slice (text : List Char) (first last : Nat) (reserved : String) :
    PacketClass.localConstants (slice text first last) 0 (slice text first last).length reserved =
      PacketClass.localConstants text first last reserved := by
  have hwhole : slice (slice text first last) 0 (slice text first last).length =
      slice text first last := List.take_length
  rw [PacketClass.localConstants, hwhole]
  rfl

theorem extract?_eq {config : Config} (hencode : config.encodeProcedure ≠ "")
    (hdecode : config.decodeProcedure ≠ "") (source : String) :
    extract? config source = some (PacketClass.extract config source) := by
  rw [extract?, blankComments?_eq, PacketClass.extract]
  generalize blankComments source.toList = text
  dsimp only [Option.bind_eq_bind, Option.bind_some]
  rw [findBody?_eq, Option.bind_some]
  cases hbody : PacketClass.findBody text config.baseClasses with
  | error fault => rfl
  | ok range =>
    obtain ⟨first, last⟩ := range
    obtain ⟨brace, rfl, hmatch⟩ := PacketClass.findBody_eq_ok hbody
    have hle : brace + 1 ≤ last := match?_lt braces_ne hmatch
    obtain ⟨hlength, -⟩ := List.getElem?_eq_some_iff.mp (match?_closing braces_ne hmatch)
    have hlast := Nat.le_of_lt hlength
    dsimp only [Except.map, byteRange]
    rw [slice?_byteOffset hle hlast, findProcedure?_eq hencode hle hlast,
      findProcedure?_eq hdecode hle hlast]
    dsimp only [Option.bind_some, bind, Except.bind]
    cases PacketClass.findProcedure text (brace + 1) last config.encodeProcedure with
    | error fault => rfl
    | ok encode =>
      cases PacketClass.findProcedure text (brace + 1) last config.decodeProcedure with
      | error fault => rfl
      | ok decode =>
        have hconstants := localConstants_slice text (brace + 1) last config.reservedConstant
        dsimp only
        rw [hconstants]
        rfl

theorem analyze?_eq {config : Config} (hencode : config.encodeProcedure ≠ "")
    (hdecode : config.decodeProcedure ≠ "") (name source : String) :
    analyze? config name source = some (Packet.analyze config name source) := by
  rw [analyze?, extract?_eq hencode hdecode, Packet.analyze]
  dsimp only [Option.bind_eq_bind, Option.bind_some, bind, Except.bind]
  cases PacketClass.extract config source with
  | error fault => rfl
  | ok c =>
    dsimp only
    cases Packet.asymmetry? config c with
    | some fault => rfl
    | none => rfl

end Checked

namespace Packet

/-- **Extraction and analysis never slice, index or subtract out of range, and always end**, for
every source, every base class and all procedure names but the empty one. -/
theorem analyze_checked {config : Config} (hencode : config.encodeProcedure ≠ "")
    (hdecode : config.decodeProcedure ≠ "") (name source : String) :
    Checked.extract? config source = some (PacketClass.extract config source) ∧
      Checked.analyze? config name source = some (analyze config name source) :=
  ⟨Checked.extract?_eq hencode hdecode source, Checked.analyze?_eq hencode hdecode name source⟩

/-- The parameters are closed behind the class, which extends what has no ASCII letter; one of the
base classes is empty. -/
theorem analyze_checked_behind :
    let source := "/*€*/class A extends É\x7bfunction encode(\x7d)"
    let config := { Config.default with baseClasses := ["É", ""] }
    config.encodeProcedure ≠ "" ∧ config.decodeProcedure ≠ "" ∧
      Checked.analyze? config "A" source = some (.error (.noProcedureBody "encode" ⟨35, 41⟩)) := by
  intro source config
  have hencode : config.encodeProcedure ≠ "" := by decide
  have hdecode : config.decodeProcedure ≠ "" := by decide
  have hresult : analyze config "A" source = .error (.noProcedureBody "encode" ⟨35, 41⟩) := by
    decide +kernel
  refine ⟨hencode, hdecode, ?_⟩
  rw [(analyze_checked hencode hdecode "A" source).2, hresult]

end Packet

end PacketGen
