import PacketGen.Proofs.Json.Value
import PacketGen.Report

/-!
# A report loses nothing

Who reads a report knows JSON and the names of the members, and nothing of how it is written. That
reader is `contents?`: it looks members up by name, tells the outcomes of packets apart by their tag
and the kinds of fields by theirs, and takes a null for an absent text. What it finds in the report
on a run is all that went into it, except where the aliases stand (`contents?_ofRun`).

The text of a report is read as the value that was written (`Json.parse_render`), so the same holds
of the text, and two runs with one report had the same contents.
-/

namespace PacketGen

/-! ## Parts of a value -/

namespace Json

def member? (key : String) : Json → Option Json
  | object members => members.lookup key
  | _ => none

def text? : Json → Option String
  | string s => some s
  | _ => none

def integer? : Json → Option Int
  | number n => some n
  | _ => none

/-- A text, or null where there is none. -/
def textOrNull? : Json → Option (Option String)
  | string s => some (some s)
  | null => some none
  | _ => none

/-- The items of a list, if each of them can be read. -/
def itemsAs? {α : Type} (item? : Json → Option α) : Json → Option (List α)
  | array items => items.mapM item?
  | _ => none

theorem itemsAs?_map {α : Type} {item? : Json → Option α} {write : α → Json}
    (h : ∀ a, item? (write a) = some a) (as : List α) :
    itemsAs? item? (.array (as.map write)) = some as := by
  show (as.map write).mapM item? = some as
  induction as with
  | nil => rfl
  | cons a as ih =>
    rw [List.map_cons, List.mapM_cons, h, ih]
    rfl

end Json

namespace Report

/-! ## Reading a report -/

def constant? (j : Json) : Option Constant := do
  let name ← (← j.member? "name").text?
  let value ← (← j.member? "value").integer?
  return ⟨name, value⟩

/-- The name of an alias and the name that it stands for. -/
def alias? (j : Json) : Option (String × String) := do
  let name ← (← j.member? "name").text?
  let canonical ← (← j.member? "canonical").text?
  return (name, canonical)

/-- The primitive type of a kind of field. -/
def type? (kind : Json) : Option Primitive := do
  Primitive.ofTag? (← (← kind.member? "type").text?)

def field? (j : Json) : Option Field := do
  let name ← (← j.member? "name").text?
  let kind ← j.member? "kind"
  match ← (← kind.member? "kind").text? with
  | "Primitive" => return .value (← type? kind) name
  | "LengthOf" => return .bytes (← type? kind) name
  | "Unknown" => return .unknown name
  | _ => none

def packet? (j : Json) : Option Packet := do
  let name ← (← j.member? "name").text?
  let constants ← (← j.member? "constants").itemsAs? constant?
  let fields ← (← j.member? "fields").itemsAs? field?
  return ⟨name, constants, fields⟩

def fallback? (j : Json) : Option Fallback := do
  let name ← (← j.member? "name").text?
  let fileName ← (← j.member? "file_name").text?
  let code ← (← j.member? "code").textOrNull?
  let diagnostic ← (← j.member? "diagnostic").text?
  let source ← (← j.member? "source").textOrNull?
  return { name, fileName, code, diagnostic, source }

def outcome? (j : Json) : Option Outcome := do
  match ← (← j.member? "outcome").text? with
  | "generated" => return .generated (← packet? j)
  | "template" => return .template (← (← j.member? "name").text?)
  | "fallback" => return .fallback (← fallback? j)
  | _ => none

/-- What a report tells of a run. -/
structure Contents where
  canonical : List Constant
  /-- The aliases, each with the name that it stands for. -/
  aliases : List (String × String)
  outcomes : List Outcome
deriving DecidableEq

def contents? (j : Json) : Option Contents := do
  let ids ← j.member? "ids"
  let canonical ← (← ids.member? "canonical").itemsAs? constant?
  let aliases ← (← ids.member? "aliases").itemsAs? alias?
  let outcomes ← (← j.member? "packets").itemsAs? outcome?
  return { canonical, aliases, outcomes }

/-- What is told of an alias: its name, and the name that it stands for. -/
def names (a : Alias) : String × String := (a.name, a.canonical)

/-- What there is to tell of a table and outcomes. -/
def contents (table : IdTable) (outcomes : List Outcome) : Contents where
  canonical := table.canonical
  aliases := table.aliases.map names
  outcomes := outcomes

/-! ## What is written is read -/

theorem constant?_ofConstant (c : Constant) : constant? (ofConstant c) = some c := rfl

/-- What is told of an alias, written as an alias is. -/
def ofNames (names : String × String) : Json :=
  .object [("name", .string names.1), ("canonical", .string names.2)]

theorem map_ofAlias (aliases : List Alias) :
    aliases.map ofAlias = (aliases.map names).map ofNames := by
  rw [List.map_map]
  rfl

theorem alias?_ofNames (names : String × String) : alias? (ofNames names) = some names := rfl

theorem type?_fieldKind (type : Primitive) (kind : String) :
    type? (.object [("kind", .string kind), ("type", .string type.tag)]) = some type :=
  Primitive.ofTag?_tag type

theorem field?_ofField (f : Field) : field? (ofField f) = some f := by
  cases f with
  | value type name =>
    show (type? _ >>= fun type => some (Field.value type name)) = _
    rw [fieldKind, type?_fieldKind]
    rfl
  | bytes type name =>
    show (type? _ >>= fun type => some (Field.bytes type name)) = _
    rw [fieldKind, type?_fieldKind]
    rfl
  | unknown statement => rfl

theorem textOrNull?_ofOption (s : Option String) : (ofOption s).textOrNull? = some s := by
  cases s <;> rfl

theorem outcome?_ofOutcome (o : Outcome) : outcome? (ofOutcome o) = some o := by
  cases o with
  | generated p =>
    have hconstants := Json.itemsAs?_map constant?_ofConstant p.constants
    have hfields := Json.itemsAs?_map field?_ofField p.fields
    show ((Json.itemsAs? constant? _ >>= fun constants => Json.itemsAs? field? _ >>= fun fields =>
      some (Packet.mk p.name constants fields)) >>= fun p => some (Outcome.generated p)) = _
    rw [hconstants, hfields]
    rfl
  | template name => rfl
  | fallback f =>
    show (((ofOption f.code).textOrNull? >>= fun code => (ofOption f.source).textOrNull? >>=
      fun source => some (Fallback.mk f.name f.fileName code f.diagnostic source)) >>=
        fun f => some (Outcome.fallback f)) = _
    rw [textOrNull?_ofOption, textOrNull?_ofOption]
    rfl

theorem aliases?_map (aliases : List Alias) :
    Json.itemsAs? alias? (.array (aliases.map ofAlias)) = some (aliases.map names) := by
  rw [map_ofAlias]
  exact Json.itemsAs?_map alias?_ofNames (aliases.map names)

theorem contents?_ofRun (table : IdTable) (outcomes : List Outcome) :
    contents? (ofRun table outcomes) = some (contents table outcomes) := by
  have hcanonical := Json.itemsAs?_map constant?_ofConstant table.canonical
  have houtcomes := Json.itemsAs?_map outcome?_ofOutcome outcomes
  show (Json.itemsAs? constant? _ >>= fun canonical => Json.itemsAs? alias? _ >>= fun aliases =>
    Json.itemsAs? outcome? _ >>= fun outcomes => some (Contents.mk canonical aliases outcomes)) = _
  rw [hcanonical, aliases?_map, houtcomes]
  rfl

/-- The value of a report is made of its contents only. -/
theorem ofRun_congr {table table' : IdTable} {outcomes outcomes' : List Outcome}
    (h : contents table outcomes = contents table' outcomes') :
    ofRun table outcomes = ofRun table' outcomes' := by
  obtain ⟨hcanonical, haliases, rfl⟩ := Contents.mk.inj h
  rw [ofRun, ofRun, ofTable, ofTable, map_ofAlias, map_ofAlias, hcanonical, haliases]

/-- **A report loses nothing.** Its text is JSON from which the table and the outcomes can be read
back, so runs have the same report only if they have the same contents. -/
theorem parse_render_contents (table : IdTable) (outcomes : List Outcome) :
    (∃ value, Json.parse (render table outcomes) = .ok value ∧
      contents? value = some (contents table outcomes)) ∧
    ∀ table' outcomes', render table outcomes = render table' outcomes' ↔
      contents table outcomes = contents table' outcomes' := by
  refine ⟨⟨_, Json.parse_render _, contents?_ofRun table outcomes⟩, fun table' outcomes' => ?_⟩
  constructor
  · intro h
    have hvalue : Json.parse (render table outcomes) = Json.parse (render table' outcomes') :=
      congrArg Json.parse h
    rw [render, render, Json.parse_render, Json.parse_render] at hvalue
    have hcontents := congrArg contents? (Except.ok.inj hvalue)
    rw [contents?_ofRun, contents?_ofRun] at hcontents
    exact Option.some.inj hcontents
  · intro h
    rw [render, render, ofRun_congr h]

end Report

end PacketGen
