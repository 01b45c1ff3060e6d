import PacketGen.Proofs.Generated.KeptStatements
import PacketGen.Proofs.Generated.MemberUse

/-!
# Members used at other types

A member is declared once, with the type that the first field of its name needs, but every field has
its own accessors. Where two fields of one member need different types, the accessors of one of them
do not fit the struct, and the code of the packet is not well typed. Nothing that comes before keeps
such fields apart: a source may transfer a byte and an integer by one name, or by two names that are
one in camel case (`analyze_typed_iff_two_types`).

That is the only way in which the types can go wrong (`analyze_typed_iff`).
-/

namespace PacketGen.Generated

/-- **When the accessors of a packet are well typed**: exactly when no two of its fields need one
member with different types. A member has the type that the first field of its name needs, and the
accessors of every field use it at the type of their own. -/
theorem analyze_typed_iff {config : Config} {name source : String} {p : Packet}
    (h : Packet.analyze config name source = .ok p) (t : IdType) :
    ∃ members reads writes, ReadsAs p t members reads writes ∧
      (∀ m, (∃ s ∈ reads ++ writes, s.member? = some m) ↔
        m ∈ p.fields.filterMap Member.ofField?) ∧
      (∀ member, BufferRuntime.typeOf? members member =
        ((p.fields.filterMap Member.ofField?).find? (·.name = member)).map Member.type) ∧
      ((∀ m ∈ p.fields.filterMap Member.ofField?,
        BufferRuntime.typeOf? members m.name = some m.type) ↔ MembersAgree p.fields) ∧
      ((∀ s ∈ reads ++ writes, s.Typed members) ↔ MembersAgree p.fields) :=
  ⟨_, _, _, readsAs (noFeed_of_analyze h) t, fun _ => mem_member?_iff, typeOf?_eq_first p.fields,
    typeOf?_iff_membersAgree, typed_iff_membersAgree⟩

/-- A name that is transferred twice as a text is used at one type. -/
theorem analyze_typed_iff_text :
    let source := "class Text extends DataPacket\x7bfunction encode()\x7b\n" ++
      "$this->putString($this->text);\n$this->putString($this->text);\n\x7d\x7d"
    let p : Packet := ⟨"Text", [], [.value .string "text", .value .string "text"]⟩
    Packet.analyze Config.default "Text" source = .ok p ∧
      ∃ members reads writes, ReadsAs p IdType.default members reads writes ∧
        ∀ s ∈ reads ++ writes, s.Typed members := by
  intro source p
  have h : Packet.analyze Config.default "Text" source = .ok p := by decide +kernel
  have hagree : MembersAgree p.fields := by
    unfold MembersAgree
    decide
  obtain ⟨members, reads, writes, hreads, -, -, -, htyped⟩ := analyze_typed_iff h IdType.default
  exact ⟨h, members, reads, writes, hreads, htyped.mpr hagree⟩

/-- Two fields share a member in camel case. It is declared as the byte that the first one is, and
the accessors of the second take it for a `uint32`. -/
theorem analyze_typed_iff_two_types :
    let source := "class TextPacket extends DataPacket \x7b\npublic function encode()\x7b\n" ++
      "$this->putByte($this->text_type);\n$this->putInt($this->textType);\n\x7d\n\x7d"
    ∃ p members reads writes, Packet.analyze Config.default "Text" source = .ok p ∧
      p.fields = [.value .byte "text_type", .value .int "textType"] ∧
      ReadsAs p IdType.default members reads writes ∧ members = [⟨"TextType", "byte"⟩] ∧
      .readValue "TextType" .int ∈ reads ∧ .writeValue .int "TextType" ∈ writes ∧
      ¬ ∀ s ∈ reads ++ writes, s.Typed members := by
  intro source
  let p : Packet := ⟨"Text", [], [.value .byte "text_type", .value .int "textType"]⟩
  have h : Packet.analyze Config.default "Text" source = .ok p := by decide +kernel
  have hmembers : Member.ofFields p.fields = [⟨"TextType", "byte"⟩] := by decide
  have hread : .readValue "TextType" .int ∈ readStatements p.fields := by decide
  have hwrite : .writeValue .int "TextType" ∈ writeStatements p.fields := by decide
  refine ⟨p, _, _, _, h, rfl, readsAs (noFeed_of_analyze h) IdType.default, hmembers, hread, hwrite,
    ?_⟩
  intro htyped
  have htype := htyped _ (List.mem_append_left _ hread) ⟨"TextType", "uint32"⟩ rfl
  rw [hmembers] at htype
  exact absurd htype (by decide)

end PacketGen.Generated
