import PacketGen.Proofs.Generated.ReadInvertsWrite

/-!
# The struct, read back from its text

The struct of a packet is text as its methods are, and what it declares is read off the text: what
stands between its braces is cut into lines, and every line must declare a member or nothing
(`Member.parse?`). A text with any other line declares no members at all, so that reading it
(`membersIn?_readBodyText`) also says that nothing else is in it.

The names of the members are those of the recognised fields, each at its first appearance
(`map_name_ofFields`). No member is called like a method: the ending that such a name is given makes
it different from every name in camel case (`memberName_not_mem_methodNames`).
-/

namespace PacketGen.Generated

/-! ## Frame -/

def Member.render (m : Member) : String := "\t" ++ m.name ++ " " ++ m.type ++ "\n"

def membersText (fields : List Field) : String :=
  String.join ((Member.ofFields fields).map Member.render)

/-- The text up to the brace; there is no blank in front of two braces side by side. -/
def structHead (packet lines : String) : String :=
  "type " ++ packet ++ (if lines = "" then " struct\x7b" else " struct \x7b")

theorem member_render_ne_empty (m : Member) : m.render ≠ "" := by
  intro h
  exact absurd (String.append_eq_empty_iff.mp h).2 (by decide)

theorem membersText_eq_empty_iff {fields : List Field} :
    membersText fields = "" ↔ Member.ofFields fields = [] := by
  unfold membersText
  constructor
  · intro h
    cases hmembers : Member.ofFields fields with
    | nil => rfl
    | cons m ms =>
      rw [hmembers, List.map_cons, String.join_cons] at h
      exact absurd (String.append_eq_empty_iff.mp h).1 (member_render_ne_empty m)
  · intro h
    rw [h]
    rfl

theorem packetStruct_eq (p : Packet) :
    packetStruct p = structHead p.name (membersText p.fields) ++
      readBodyText (membersText p.fields) ++ methodEnd := by
  unfold packetStruct structHead readBodyText methodEnd
  by_cases hmembers : Member.ofFields p.fields = []
  · have htext := membersText_eq_empty_iff.mpr hmembers
    have hclose : " struct\x7b\x7d\n\n" = " struct\x7b" ++ "\x7d\n\n" := by decide
    rw [if_pos hmembers, if_pos htext, if_pos htext, String.append_empty, hclose,
      ← String.append_assoc]
  · have htext := mt membersText_eq_empty_iff.mp hmembers
    have hopen : " struct \x7b\n" = " struct \x7b" ++ "\n" := by decide
    rw [if_neg hmembers, if_neg htext, if_neg htext, hopen]
    simp only [← String.append_assoc]
    rfl

/-! ## Members -/

open GoToken in
/-- The member that the tokens of a line declare, if there are any. -/
def Member.ofTokens? : List GoToken → Option (List Member)
  | [] => some []
  | [word name, word type] => some [⟨name, type⟩]
  | [word name, mark '[', mark ']', word type] => some [⟨name, "[]" ++ type⟩]
  | _ => none

def Member.parse? (line : List Char) : Option (List Member) := ofTokens? (GoToken.lex [] line)

/-- The members that are declared between the braces of a struct. -/
def membersIn? (body : List Char) : Option (List Member) :=
  ((Text.splitLines body).mapM Member.parse?).map List.flatten

/-- A member has a member name and the type of a value or of bytes. -/
theorem exists_field_of_mem_ofFields {fields : List Field} {m : Member}
    (hm : m ∈ Member.ofFields fields) :
    ∃ f ∈ fields, m.name = memberName f.name ∧
      (m.type = "[]byte" ∨ ∃ t : Primitive, m.type = t.valueType) := by
  obtain ⟨f, hf, hfm⟩ := List.mem_filterMap.mp (mem_filterMap_of_mem_ofFields hm)
  cases f with
  | value type name =>
    obtain rfl : ⟨memberName name, type.valueType⟩ = m := Option.some.inj hfm
    refine ⟨_, hf, ?_, Or.inr ⟨type, rfl⟩⟩
    rw [Field.name]
  | bytes type name =>
    obtain rfl : ⟨memberName name, "[]byte"⟩ = m := Option.some.inj hfm
    refine ⟨_, hf, ?_, Or.inl rfl⟩
    rw [Field.name]
  | unknown statement => cases hfm

theorem oneLine_member {fields : List Field} {m : Member} (hm : m ∈ Member.ofFields fields) :
    OneLine m.render := by
  obtain ⟨f, -, hname, htype⟩ := exists_field_of_mem_ofFields hm
  have hfeed : '\n' ∉ m.type.toList := by
    rcases htype with htype | ⟨t, htype⟩
    · rw [htype]
      decide
    · rw [htype]
      exact feed_not_mem_valueType t
  refine OneLine.append ?_ ⟨[], rfl, by simp⟩
  rw [hname]
  exact not_mem_toList_append (not_mem_toList_append (not_mem_toList_append (by decide)
    (feed_not_mem_memberName f.name)) (by decide)) hfeed

theorem lineOf_member (m : Member) :
    lineOf m.render = '\t' :: (m.name.toList ++ ' ' :: m.type.toList) := by
  have htab : "\t".toList = ['\t'] := by decide
  have hspace : " ".toList = [' '] := by decide
  rw [Member.render, lineOf_line]
  simp only [String.toList_append, htab, hspace, List.append_assoc, List.cons_append,
    List.nil_append]

/-- The line of a member declares that member. -/
theorem parse?_member {fields : List Field} {m : Member} (hm : m ∈ Member.ofFields fields) :
    Member.parse? (lineOf m.render) = some [m] := by
  obtain ⟨f, -, hname, htype⟩ := exists_field_of_mem_ofFields hm
  have hbefore (cs : List Char) : GoToken.lex [] ('\t' :: cs) = GoToken.lex [] cs :=
    GoToken.lex_blank [] cs (by decide) (by decide)
  rw [Member.parse?, lineOf_member, hbefore, hname,
    GoToken.lex_memberName_blank _ _ (by decide) (by decide), ← hname]
  rcases htype with htype | ⟨t, htype⟩
  · have hlex : GoToken.lex [] "[]byte".toList = [.mark '[', .mark ']', .word "byte"] := by decide
    have hbytes : "[]" ++ "byte" = "[]byte" := by decide
    rw [htype, hlex, Member.ofTokens?, hbytes, ← htype]
  · have hlex : GoToken.lex [] t.valueType.toList = [.word t.valueType] := by cases t <;> decide
    rw [htype, hlex, Member.ofTokens?, ← htype]

theorem toList_membersText (fields : List Field) :
    (membersText fields).toList =
      Text.joinLines ((Member.ofFields fields).map fun m => lineOf m.render) := by
  rw [membersText, toList_join_of_oneLine, List.map_map]
  · rfl
  · intro s hs
    obtain ⟨m, hm, rfl⟩ := List.mem_map.mp hs
    exact oneLine_member hm

/-- **The struct declares the members of the fields**, in their order, and nothing else. -/
theorem membersIn?_readBodyText (fields : List Field) :
    membersIn? (readBodyText (membersText fields)).toList = some (Member.ofFields fields) := by
  by_cases hmembers : Member.ofFields fields = []
  · rw [readBodyText, if_pos (membersText_eq_empty_iff.mpr hmembers), hmembers]
    rfl
  · have hfeed : ∀ l ∈ (Member.ofFields fields).map (fun m => lineOf m.render), '\n' ∉ l := by
      intro l hl
      obtain ⟨m, hm, rfl⟩ := List.mem_map.mp hl
      exact (oneLine_member hm).not_mem
    have hsplit : Text.splitLines (readBodyText (membersText fields)).toList =
        [] :: (Member.ofFields fields).map (fun m => lineOf m.render) ++ [[]] := by
      have hcut := Text.splitLines_joinLines [] hfeed
      rw [List.append_nil] at hcut
      rw [readBodyText, if_neg (mt membersText_eq_empty_iff.mp hmembers), String.toList_append,
        toList_membersText]
      exact congrArg ([] :: ·) hcut
    have hempty : Member.parse? [] = some [] := rfl
    have hmap : ((Member.ofFields fields).map fun m => lineOf m.render).mapM Member.parse? =
        some ((Member.ofFields fields).map fun m => [m]) :=
      mapM_map_eq_some fun m hm => parse?_member hm
    rw [membersIn?, hsplit, List.cons_append, List.mapM_cons, hempty, List.mapM_append, hmap]
    simp [hempty, List.flatten_append, ← List.flatMap_def]

/-! ## Names -/

/-- The names of the recognised fields, in wire order. -/
def recognizedNames (fields : List Field) : List String :=
  (fields.filter Field.isRecognized).map Field.name

section

variable (t : Primitive) (name : String) (fields : List Field)

@[simp] theorem recognizedNames_value :
    recognizedNames (.value t name :: fields) = name :: recognizedNames fields := rfl

@[simp] theorem recognizedNames_bytes :
    recognizedNames (.bytes t name :: fields) = name :: recognizedNames fields := rfl

@[simp] theorem recognizedNames_unknown :
    recognizedNames (.unknown name :: fields) = recognizedNames fields := rfl

end

theorem map_name_filterMap_ofField? (fields : List Field) :
    (fields.filterMap Member.ofField?).map Member.name =
      (recognizedNames fields).map memberName := by
  induction fields with
  | nil => rfl
  | cons f fs ih => cases f <;> simp [List.filterMap_cons, Member.ofField?, ih]

theorem map_firstBy {α κ : Type} [DecidableEq κ] (key : α → κ) (xs : List α) :
    (firstBy key xs).map key = firstBy id (xs.map key) := by
  induction xs with
  | nil => rfl
  | cons x xs ih =>
    rw [firstBy, List.map_cons, List.map_cons, firstBy, ← ih, List.filter_map]
    rfl

theorem map_name_ofFields (fields : List Field) :
    (Member.ofFields fields).map Member.name =
      firstBy id ((recognizedNames fields).map memberName) := by
  rw [ofFields_eq, map_firstBy, map_name_filterMap_ofField?]

theorem nodup_map_name_ofFields (fields : List Field) :
    ((Member.ofFields fields).map Member.name).Nodup := by
  rw [ofFields_eq]
  exact nodup_map_firstBy _ _

theorem memberName_not_mem_methodNames (field : String) : memberName field ∉ methodNames := by
  unfold memberName
  dsimp only
  split
  · decide
  · split
    · next hmethod =>
      -- With the ending, none of the three names is one of them.
      have hall : ∀ name ∈ methodNames, name ++ "_" ∉ methodNames := by decide
      exact hall _ hmethod
    · assumption

end PacketGen.Generated
