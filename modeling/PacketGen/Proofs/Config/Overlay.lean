import Mathlib.Data.Fintype.Basic
import PacketGen.Config.Reader
import PacketGen.Proofs.Json.NamedValues

/-!
# Settings over the defaults

A text that gives some settings and no others leads to a configuration that has just those settings
from the text and all others by default (`Config.ofJson_overlay`). It does not matter in which order
they are given, how the strings are spelled, or what keys nobody knows come in between, with values
that may be anything.

The settings are told by their keys, so that a set of settings can be named. What there is to show
of each one by itself is that it reads its own value and copies it into its own place; that the
twelve together do the right thing follows for every record at once.
-/

namespace PacketGen

open Json

namespace IdType

/-! ## The type of the identifiers -/

inductive Key where
  | name
  | repr
  | suffix
deriving DecidableEq

namespace Key

def text : Key → String
  | name => "name"
  | repr => "repr"
  | suffix => "suffix"

def all : List Key := [name, repr, suffix]

instance : Fintype Key where
  elems := all.toFinset
  complete := by intro k; cases k <;> decide

theorem text_injective : Function.Injective text := by decide

end Key

variable (t : IdType)

/-- What is written for a part. -/
def value : Key → Json
  | .name => .string t.name
  | .repr => .string t.repr
  | .suffix => .string t.suffix

theorem toJson_eq : t.toJson = .object (Key.all.map fun k => (k.text, t.value k)) := rfl

/-- The draft when the parts in `T` have been read. -/
def draft (T : Finset Key) : Draft where
  name := if .name ∈ T then some t.name else none
  repr := if .repr ∈ T then some t.repr else none
  suffix := if .suffix ∈ T then t.suffix else ""

theorem fills : Fills record.settings Key.text t.value t.draft where
  injective := Key.text_injective
  known := by
    intro k text h
    cases k with
    | name => exact ⟨_, _, rfl, (readsValue_text h).map _, fun T => by simp [draft]⟩
    | repr => exact ⟨_, _, rfl, (readsValue_text h).map _, fun T => by simp [draft]⟩
    | suffix => exact ⟨_, _, rfl, (readsValue_text h).map _, fun T => by simp [draft]⟩
  unknown := by
    intro key hkey
    have hkeys : record.settings.map Setting.key = Key.all.map Key.text := rfl
    exact find?_eq_none_of_name hkeys hkey

/-- The parts may stand in any order. -/
theorem readsValue {text : List Char} (h : Spells t.toJson text) :
    ReadsValue record.read text t := by
  rw [toJson_eq] at h
  obtain ⟨members, hmembers, htext⟩ := exists_holds Key.text_injective (by decide) h
  have hchanges := hmembers.changes (T := ∅) t.fills fun _ _ => List.not_mem_nil
  rw [Finset.empty_union] at hchanges
  exact Changes.readsValue (r := record) hchanges rfl htext

end IdType

namespace Config

/-! ## All settings -/

inductive Key where
  | package
  | imports
  | templateImports
  | baseClasses
  | reservedConstant
  | encodeProcedure
  | decodeProcedure
  | sourceExtension
  | idDeclarationSuffix
  | idType
  | batchPacket
  | batchTemplate
deriving DecidableEq

namespace Key

def text : Key → String
  | package => "package"
  | imports => "imports"
  | templateImports => "template_imports"
  | baseClasses => "base_classes"
  | reservedConstant => "reserved_constant"
  | encodeProcedure => "encode_procedure"
  | decodeProcedure => "decode_procedure"
  | sourceExtension => "source_extension"
  | idDeclarationSuffix => "id_declaration_suffix"
  | idType => "id_type"
  | batchPacket => "batch_packet"
  | batchTemplate => "batch_template"

def all : List Key :=
  [package, imports, templateImports, baseClasses, reservedConstant, encodeProcedure,
    decodeProcedure, sourceExtension, idDeclarationSuffix, idType, batchPacket, batchTemplate]

instance : Fintype Key where
  elems := all.toFinset
  complete := by intro k; cases k <;> decide

theorem text_injective : Function.Injective text := by decide

end Key

variable (c : Config)

/-- What is written for a setting. -/
def value : Key → Json
  | .package => .string c.package
  | .imports => listToJson c.imports
  | .templateImports => listToJson c.templateImports
  | .baseClasses => listToJson c.baseClasses
  | .reservedConstant => .string c.reservedConstant
  | .encodeProcedure => .string c.encodeProcedure
  | .decodeProcedure => .string c.decodeProcedure
  | .sourceExtension => .string c.sourceExtension
  | .idDeclarationSuffix => .string c.idDeclarationSuffix
  | .idType => c.idType.toJson
  | .batchPacket => .string c.batchPacket
  | .batchTemplate => match c.batchTemplate with
    | some path => .string path
    | none => .null

theorem toJson_eq : c.toJson = .object (Key.all.map fun k => (k.text, c.value k)) := rfl

/-- The configuration that is `c` on the settings in `S`, and has all others by default. -/
def overlay (S : Finset Key) : Config where
  package := if .package ∈ S then c.package else default.package
  imports := if .imports ∈ S then c.imports else default.imports
  templateImports := if .templateImports ∈ S then c.templateImports else default.templateImports
  baseClasses := if .baseClasses ∈ S then c.baseClasses else default.baseClasses
  reservedConstant :=
    if .reservedConstant ∈ S then c.reservedConstant else default.reservedConstant
  encodeProcedure := if .encodeProcedure ∈ S then c.encodeProcedure else default.encodeProcedure
  decodeProcedure := if .decodeProcedure ∈ S then c.decodeProcedure else default.decodeProcedure
  sourceExtension := if .sourceExtension ∈ S then c.sourceExtension else default.sourceExtension
  idDeclarationSuffix :=
    if .idDeclarationSuffix ∈ S then c.idDeclarationSuffix else default.idDeclarationSuffix
  idType := if .idType ∈ S then c.idType else default.idType
  batchPacket := if .batchPacket ∈ S then c.batchPacket else default.batchPacket
  batchTemplate := if .batchTemplate ∈ S then c.batchTemplate else default.batchTemplate

theorem overlay_empty : c.overlay ∅ = default := rfl

theorem overlay_univ : c.overlay Finset.univ = c := rfl

theorem fills : Fills record.settings Key.text c.value c.overlay where
  injective := Key.text_injective
  known := by
    intro k text h
    cases k with
    | package => exact ⟨_, _, rfl, (readsValue_text h).map _, fun T => by simp [overlay]⟩
    | imports => exact ⟨_, _, rfl, (readsValue_texts h).map _, fun T => by simp [overlay]⟩
    | templateImports => exact ⟨_, _, rfl, (readsValue_texts h).map _, fun T => by simp [overlay]⟩
    | baseClasses => exact ⟨_, _, rfl, (readsValue_texts h).map _, fun T => by simp [overlay]⟩
    | reservedConstant => exact ⟨_, _, rfl, (readsValue_text h).map _, fun T => by simp [overlay]⟩
    | encodeProcedure => exact ⟨_, _, rfl, (readsValue_text h).map _, fun T => by simp [overlay]⟩
    | decodeProcedure => exact ⟨_, _, rfl, (readsValue_text h).map _, fun T => by simp [overlay]⟩
    | sourceExtension => exact ⟨_, _, rfl, (readsValue_text h).map _, fun T => by simp [overlay]⟩
    | idDeclarationSuffix =>
      exact ⟨_, _, rfl, (readsValue_text h).map _, fun T => by simp [overlay]⟩
    | idType => exact ⟨_, _, rfl, (c.idType.readsValue h).map _, fun T => by simp [overlay]⟩
    | batchPacket => exact ⟨_, _, rfl, (readsValue_text h).map _, fun T => by simp [overlay]⟩
    | batchTemplate =>
      exact ⟨_, _, rfl, (readsValue_textOrNull _ h).map _, fun T => by simp [overlay]⟩
  unknown := by
    intro key hkey
    have hkeys : record.settings.map Setting.key = Key.all.map Key.text := rfl
    exact find?_eq_none_of_name hkeys hkey

/-! ## All of them -/

/-- A text is an object that holds the values of `c` for just the settings in `S`, each once and in
any order, and any members that are no settings. -/
inductive Gives (S : Finset Key) (source : String) : Prop
  | intro {members : List (String × List Char)} {object : List Char}
      (hmembers : Holds Key.text c.value S members) (hobject : ObjectText members object)
      (hsource : Surrounded object source.toList)

variable {c}

theorem Gives.ofJson {S : Finset Key} {source : String} (h : Gives c S source) :
    ofJson source = .ok (c.overlay S) := by
  obtain ⟨hmembers, hobject, hsource⟩ := h
  have hchanges := hmembers.changes (T := ∅) c.fills fun _ _ => List.not_mem_nil
  rw [Finset.empty_union, overlay_empty] at hchanges
  have hread := Changes.readsValue (r := record) hchanges rfl hobject
  rw [Config.ofJson, hread.readAll hsource]
  rfl

/-- An object that stands for the values of some settings gives them, in whatever order they are
listed. -/
theorem gives_of_spells {keys : List Key} (hkeys : keys.Nodup) {object : List Char}
    {source : String} (h : Spells (.object (keys.map fun k => (k.text, c.value k))) object)
    (hsource : Surrounded object source.toList) : Gives c keys.toFinset source := by
  obtain ⟨members, hmembers, hobject⟩ := exists_holds Key.text_injective hkeys h
  exact ⟨hmembers, hobject, hsource⟩

theorem surrounded_render (j : Json) : Surrounded (j.pretty 0) j.render.toList := by
  have hsource : Surrounded (j.pretty 0) ([] ++ (j.pretty 0 ++ [])) := .intro spaces_nil spaces_nil
  simpa [render] using hsource

/-- **Settings that are given are read, and all others have their defaults**, whatever the order of
the keys and whatever else the text holds. So it is with some settings written in any order, and
what is written for a configuration is read back as that configuration. -/
theorem ofJson_overlay (c : Config) :
    (∀ S source, Gives c S source → ofJson source = .ok (c.overlay S)) ∧
      (∀ keys : List Key, keys.Nodup →
        ofJson (Json.object (keys.map fun k => (k.text, c.value k))).render =
          .ok (c.overlay keys.toFinset)) ∧
      (∀ object source, Spells c.toJson object → Surrounded object source.toList →
        ofJson source = .ok c) ∧
      ofJson c.toJson.render = .ok c := by
  have hwhole : ∀ object source, Spells c.toJson object → Surrounded object source.toList →
      ofJson source = .ok c := by
    intro object source hspells hsource
    have hkeys : Key.all.Nodup := by decide
    have hgives : Gives c Finset.univ source := gives_of_spells hkeys hspells hsource
    rw [hgives.ofJson, overlay_univ]
  refine ⟨fun _ _ h => h.ofJson, fun keys hkeys => ?_, hwhole, ?_⟩
  · exact (gives_of_spells hkeys (spells_pretty 0 _) (surrounded_render _)).ofJson
  · exact hwhole _ _ (spells_pretty 0 c.toJson) (surrounded_render c.toJson)

/-- Two settings are given and a third is not: a path with an escape of its own, and the type of the
identifiers with its parts in another order. A key that nobody knows comes first, with a value that
the program could not build: a fraction, and half a pair of surrogates. -/
theorem ofJson_overlay_partial :
    let c : Config :=
      { default with package := "proto", idType := ⟨"P", "u8", ""⟩, batchTemplate := some "a/b" }
    let S : Finset Key := {.idType, .batchTemplate}
    let source := "\x7b\"x\":[1.5e3,\"\\ud800\"],\"batch_template\":\"a\\/b\",\"id_type\":" ++
      "\x7b\n  \"suffix\": \"\",\n  \"name\": \"P\",\n  \"repr\": \"u8\"\n\x7d \x7d\n"
    Gives c S source ∧ ofJson source =
      .ok { default with idType := ⟨"P", "u8", ""⟩, batchTemplate := some "a/b" } := by
  intro c S source
  have hnote : WellFormed "[1.5e3,\"\\ud800\"]".toList := by
    have hdigits : ∀ d : Char, d.isDigit = true → Digits [d] := fun d hd =>
      ⟨List.cons_ne_nil _ _, fun e he => by rwa [List.mem_singleton.mp he]⟩
    have hnumber : NumberText ([] ++ (['1'] ++ (['.', '5'] ++ ['e', '3']))) :=
      .intro (.inl rfl) (.digits (hdigits '1' rfl) (by decide)) (.digits (hdigits '5' rfl))
        (.digits (.inl rfl) (.inl rfl) (hdigits '3' rfl))
    have hhalf : StringText ('"' :: ([['\\', 'u', 'd', '8', '0', '0']].flatten ++ ['"'])) := by
      have hd : IsHexDigit 'd' 13 := isHexDigit_hexDigit (by decide)
      have h8 : IsHexDigit '8' 8 := isHexDigit_hexDigit (by decide)
      have h0 : IsHexDigit '0' 0 := isHexDigit_hexDigit (by decide)
      exact .intro (List.forall_mem_singleton.mpr (.code (.intro hd h8 h0 h0)))
    have hlist : ListText ["1.5e3".toList, "\"\\ud800\"".toList] _ := .cons (.intro spaces_nil)
      (.cons spaces_nil (.intro spaces_nil) (.nil spaces_nil))
    refine .array (List.forall_mem_cons.mpr ⟨.number hnumber, ?_⟩) hlist
    exact List.forall_mem_singleton.mpr (.string hhalf)
  have hpath : Spells (c.value .batchTemplate) "\"a\\/b\"".toList := by
    refine .string (.intro ⟨[['a'], ['\\', '/'], ['b']], ?_, rfl⟩)
    exact .cons (.plain (by decide) (by decide) (by decide)) (.cons (.short (by decide))
      (.cons (.plain (by decide) (by decide) (by decide)) .nil))
  have htype : Spells (c.value .idType)
      "\x7b\n  \"suffix\": \"\",\n  \"name\": \"P\",\n  \"repr\": \"u8\"\n\x7d".toList := by
    have horder : ([("suffix", .string "")] ++ [("name", .string "P"), ("repr", .string "u8")] :
        List (String × Json)).Perm _ := List.perm_append_comm
    exact .object horder rfl (spells_prettyMembers 1 _) (objectText_pretty 0 _)
  have hmembers : ∀ {x path type}, WellFormed x → Spells (c.value .batchTemplate) path →
      Spells (c.value .idType) type →
        Holds Key.text c.value S [("x", x), ("batch_template", path), ("id_type", type)] := by
    intro x path type hx hpath htype
    have hother : ∀ k : Key, "x" ≠ k.text := by decide
    refine ⟨fun k => by cases k <;> rfl, ?_, ?_⟩
    · refine List.forall_mem_cons.mpr ⟨fun k hk => absurd hk (hother k), ?_⟩
      refine List.forall_mem_cons.mpr ⟨fun k hk => ?_, List.forall_mem_singleton.mpr fun k hk => ?_⟩
      · obtain rfl : .batchTemplate = k := Key.text_injective hk
        exact hpath
      · obtain rfl : .idType = k := Key.text_injective hk
        exact htype
    · refine List.forall_mem_cons.mpr ⟨fun _ => hx, ?_⟩
      refine List.forall_mem_cons.mpr ⟨fun h => absurd rfl (h .batchTemplate), ?_⟩
      exact List.forall_mem_singleton.mpr fun h => absurd rfl (h .idType)
  have hobject : ∀ x path type : List Char,
      ObjectText [("x", x), ("batch_template", path), ("id_type", type)] _ := fun x path type =>
    .cons (.intro spaces_nil (literal_quote _) spaces_nil spaces_nil)
      (.cons spaces_nil (.intro spaces_nil (literal_quote _) spaces_nil spaces_nil)
        (.cons spaces_nil (.intro spaces_nil (literal_quote _) spaces_nil spaces_nil)
          (.nil spaces_one)))
  have hgives : Gives c S source := by
    have hsource : ∀ value, Surrounded value ([] ++ (value ++ newline 0)) := fun _ =>
      .intro spaces_nil (spaces_newline 0)
    refine ⟨hmembers hnote hpath htype, hobject _ _ _, ?_⟩
    convert hsource _
    decide +kernel
  refine ⟨hgives, ?_⟩
  rw [(ofJson_overlay c).1 S source hgives]
  rfl

end Config

end PacketGen
