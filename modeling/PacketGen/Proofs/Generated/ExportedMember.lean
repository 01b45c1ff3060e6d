import PacketGen.Proofs.Generated.MemberClashes
import PacketGen.Proofs.Text.NameCase

/-!
# Members that can be declared

A member is seen outside its package because its name begins with a capital. Camel case gives it
one: the words of a name are all its letters and digits in order (`flatten_camelWords`), and the
first of these is written as a capital (`head?_upperCamel`). Of a digit it makes nothing, though. A
field whose name has a digit before its first letter, as `_1` has, is given a name that is not even
an identifier (`member_isExported_iff_digit`). These are the only fields whose members are not
exported (`member_isExported_iff`).
-/

namespace PacketGen

namespace Text

theorem isUpper_toUpper_iff {c : Char} (h : c.isAlphanum = true) :
    c.toUpper.isUpper = true ↔ c.isDigit = false :=
  of_isAlphanum
    (p := fun c => c.isAlphanum = true → (c.toUpper.isUpper = true ↔ c.isDigit = false))
    (by decide) h h

end Text

namespace Generated

open Text (IsExported FirstIs)

/-- A name with a digit before any letter. -/
def DigitFirst (field : String) : Prop := FirstIs Char.isAlphanum Char.isDigit field.toList

instance (field : String) : Decidable (DigitFirst field) := inferInstanceAs (Decidable (FirstIs ..))

/-! ## The first character of a member -/

theorem head?_memberName (field : String) :
    (memberName field).toList.head? =
      some (((field.toList.find? Char.isAlphanum).map Char.toUpper).getD 'F') := by
  rw [← Text.head?_upperCamel, memberName]
  split
  · next hempty =>
    rw [hempty]
    rfl
  · next hne =>
    obtain ⟨c, cs, hcamel⟩ : ∃ c cs, (Text.upperCamel field).toList = c :: cs :=
      List.exists_cons_of_ne_nil (mt String.toList_eq_nil_iff.mp hne)
    split
    · rw [String.toList_append, hcamel]
      rfl
    · rw [hcamel]
      rfl

/-- The stand-in for a name without a letter or digit is exported like any letter. -/
theorem isExported_memberName_iff_not_digitFirst (field : String) :
    IsExported (memberName field) ↔ ¬ DigitFirst field := by
  rw [Text.isExported_iff fun c hc => isNameChar_of_mem_memberName hc, head?_memberName,
    DigitFirst, Text.firstIs_iff]
  cases hfind : field.toList.find? Char.isAlphanum with
  | none => simp
  | some c =>
    have hupper := Text.isUpper_toUpper_iff (List.find?_some hfind)
    simp only [Option.map_some, Option.getD_some, Option.mem_some_iff, exists_eq_left', hupper,
      Bool.not_eq_true]

/-- What is said of the names of members is said of the recognised fields. -/
theorem forall_member_iff (P : String → Prop) (fields : List Field) :
    (∀ m ∈ Member.ofFields fields, P m.name) ↔
      ∀ name ∈ recognizedNames fields, P (memberName name) := by
  rw [← List.forall_mem_map (f := Member.name), ← List.forall_mem_map (f := memberName)]
  simp only [mem_map_name_ofFields, map_name_filterMap_ofField?]

/-- **A member is exported exactly when its field has no digit before the letters**, and those of a
struct are when all its fields are like that. In any case the name of a member keeps to the
characters of names, and is not that of a method. -/
theorem member_isExported_iff (p : Packet) :
    (∀ field, (IsExported (memberName field) ↔ ¬ DigitFirst field) ∧
      Text.IsWord (memberName field).toList ∧ memberName field ∉ methodNames) ∧
    ∃ members, membersIn? (readBodyText (membersText p.fields)).toList = some members ∧
      ((∀ m ∈ members, IsExported m.name) ↔
        ∀ name ∈ recognizedNames p.fields, ¬ DigitFirst name) := by
  refine ⟨fun field => ⟨isExported_memberName_iff_not_digitFirst field, ?_,
    memberName_not_mem_methodNames field⟩, _, membersIn?_readBodyText p.fields, ?_⟩
  · refine ⟨?_, fun c hc => isNameChar_of_mem_memberName hc⟩
    exact mt String.toList_eq_nil_iff.mp (memberName_ne_empty field)
  · rw [forall_member_iff]
    exact forall₂_congr fun name _ => isExported_memberName_iff_not_digitFirst name

/-- A field that the grammar has, and a struct that does not compile. -/
theorem member_isExported_iff_digit :
    let source := "class MovePacket extends DataPacket \x7b\n" ++
      "public function encode()\x7b\n$this->putByte($this->_1);\n\x7d\n\x7d"
    ∃ p, Packet.analyze Config.default "Move" source = .ok p ∧
      recognizedNames p.fields = ["_1"] ∧ Token.IsIdentifier "_1" ∧
      packetStruct p = "type Move struct \x7b\n\t1 byte\n\x7d\n\n" ∧
      ¬ IsExported (memberName "_1") := by
  intro source
  have h : Packet.analyze Config.default "Move" source = .ok ⟨"Move", [], [.value .byte "_1"]⟩ := by
    decide +kernel
  refine ⟨_, h, rfl, Token.isIdentifier_of_all rfl rfl rfl, by decide +kernel, ?_⟩
  rw [isExported_memberName_iff_not_digitFirst, not_not]
  decide

-- Underscores alone have a stand-in, and a digit may follow a letter.
example : ¬ DigitFirst "__" ∧ ¬ DigitFirst "_a1" ∧ memberName "__" = "Field" := by
  decide

end Generated

end PacketGen
