import PacketGen.Proofs.Generated.StructText

/-!
# Members and the statements that use them

The struct and the two methods are written by three functions, each of which makes its own names out
of the names of the fields; only the struct leaves out a name that it has. Here their texts are read
side by side (`ReadsAs`). `GoStatement.member?` is what a statement asks of the struct: a member of
that name, and of that type.

The names agree, for any fields (`packetCode_sameMembers`). Whether the types do is another matter,
since the struct has room for the first type of a name only (`typed_iff_membersAgree`).
-/

namespace PacketGen.Generated

/-! ## Statements -/

namespace GoStatement

/-- The member that a statement uses, and the type that it uses it at. -/
def member? : GoStatement → Option Member
  | nothing | openBuffer | returnBuffer => none
  | readValue m t | writeValue t m => some ⟨m, t.valueType⟩
  | readBytes m _ _ | writeLength _ _ m | writeBytes m => some ⟨m, "[]byte"⟩

/-- The name of the member that a statement assigns to. -/
def assigned? : GoStatement → Option String
  | readValue m _ | readBytes m _ _ => some m
  | nothing | openBuffer | returnBuffer | writeValue .. | writeLength .. | writeBytes _ => none

/-- A statement uses its member at the type that the member is declared with. -/
def Typed (members : List Member) (s : GoStatement) : Prop :=
  ∀ m, s.member? = some m → BufferRuntime.typeOf? members m.name = some m.type

end GoStatement

/-- The statements between the braces of a method. -/
def statementsIn? (body : List Char) : Option (List GoStatement) :=
  (Text.splitLines body).mapM GoStatement.parse?

def ReadLine.statement : ReadLine → GoStatement
  | value m t => .readValue m t
  | bytes m t => .readBytes m "uint32" t
  | comment _ => .nothing

def WriteLine.statement : WriteLine → GoStatement
  | value t m => .writeValue t m
  | length t m => .writeLength t t.valueType m
  | bytes m => .writeBytes m
  | comment _ => .nothing

/-- The method that reads: the rest of the line with the brace, a statement for every field, and the
start of the line with the other brace. -/
def readStatements (fields : List Field) : List GoStatement :=
  .nothing :: ((readBody fields).map ReadLine.statement ++
    if fields = [] then [] else [.nothing])

def writeStatements (fields : List Field) : List GoStatement :=
  .nothing :: .openBuffer :: ((writeBody fields).map WriteLine.statement ++
    [.returnBuffer, .nothing])

theorem parse?_readLine (f : Field) :
    GoStatement.parse? (lineOf (ReadLine.ofField f).render) =
      some (ReadLine.ofField f).statement := by
  cases f with
  | value t name => exact parse?_readValue name t
  | bytes t name => exact parse?_readBytes name t
  | unknown statement => exact parse?_unexpected statement

theorem parse?_writeLine {f : Field} {l : WriteLine} (hl : l ∈ WriteLine.ofField f) :
    GoStatement.parse? (lineOf l.render) = some l.statement := by
  cases f with
  | value t name =>
    rw [List.mem_singleton.mp hl]
    exact parse?_writeValue name t
  | bytes t name =>
    rcases List.mem_cons.mp hl with rfl | hl
    · exact parse?_writeLength name t
    · rw [List.mem_singleton.mp hl]
      exact parse?_writeBytes name
  | unknown statement =>
    rw [List.mem_singleton.mp hl]
    exact parse?_unexpected statement

section

variable {fields : List Field}

theorem mapM_readLines (fields : List Field) :
    (readLines fields).mapM GoStatement.parse? =
      some ((readBody fields).map ReadLine.statement) := by
  refine mapM_map_eq_some fun l hl => ?_
  obtain ⟨f, -, rfl⟩ := List.mem_map.mp hl
  exact parse?_readLine f

theorem mapM_writeLines (fields : List Field) :
    (writeLines fields).mapM GoStatement.parse? =
      some ((writeBody fields).map WriteLine.statement) := by
  refine mapM_map_eq_some fun l hl => ?_
  obtain ⟨f, -, hl⟩ := List.mem_flatMap.mp hl
  exact parse?_writeLine hl

theorem statementsIn?_readBodyText (h : NoFeed fields) :
    statementsIn? (readBodyText (readText fields)).toList = some (readStatements fields) := by
  have hempty : GoStatement.parse? [] = some .nothing := rfl
  by_cases hne : fields = []
  · subst hne
    rfl
  · rw [statementsIn?, splitLines_readBodyText h hne, List.cons_append, List.mapM_cons, hempty,
      List.mapM_append, mapM_readLines, readStatements, if_neg hne]
    simp [hempty]

theorem statementsIn?_writeBodyText (h : NoFeed fields) :
    statementsIn? (writeBodyText (writeText fields)).toList = some (writeStatements fields) := by
  have hempty : GoStatement.parse? [] = some .nothing := rfl
  have hopen : GoStatement.parse? "\tbuf := new(buffer.Buffer)".toList = some .openBuffer := by
    decide
  have hend : ["\treturn buf".toList, []].mapM GoStatement.parse? =
      some [.returnBuffer, .nothing] := by decide
  rw [statementsIn?, splitLines_writeBodyText h, List.mapM_cons, hempty, List.mapM_cons, hopen,
    List.mapM_append, mapM_writeLines, hend]
  rfl

/-! ## Members of statements -/

/-- Every recognised field is read once, into the member that it needs. -/
theorem filterMap_member?_readStatements (fields : List Field) :
    (readStatements fields).filterMap GoStatement.member? =
      fields.filterMap Member.ofField? := by
  have hfield : ∀ f : Field, (ReadLine.ofField f).statement.member? = Member.ofField? f := by
    rintro (_ | _ | _) <;> rfl
  have hend : (if fields = [] then [] else [GoStatement.nothing]).filterMap GoStatement.member? =
      [] := by
    split <;> rfl
  rw [readStatements, List.filterMap_cons_none rfl, List.filterMap_append, hend, List.append_nil,
    readBody, List.filterMap_map, List.filterMap_map]
  exact List.filterMap_congr fun f _ => hfield f

theorem assigned?_readStatement {s : GoStatement} (h : s ∈ readStatements fields) :
    s.assigned? = s.member?.map Member.name := by
  have hfield : ∀ l : ReadLine, l.statement.assigned? = l.statement.member?.map Member.name := by
    rintro (_ | _ | _) <;> rfl
  rcases List.mem_cons.mp h with rfl | h
  · rfl
  · rcases List.mem_append.mp h with h | h
    · obtain ⟨l, -, rfl⟩ := List.mem_map.mp h
      exact hfield l
    · split at h
      · cases h
      · rw [List.mem_singleton.mp h]
        rfl

/-- Every recognised field is written, from the member that it needs. -/
theorem mem_filterMap_member?_writeStatements {m : Member} :
    m ∈ (writeStatements fields).filterMap GoStatement.member? ↔
      m ∈ fields.filterMap Member.ofField? := by
  have hfield : ∀ f : Field, (∃ l ∈ WriteLine.ofField f, l.statement.member? = some m) ↔
      Member.ofField? f = some m := by
    rintro (_ | _ | _) <;> simp [WriteLine.ofField, WriteLine.statement, GoStatement.member?,
      Member.ofField?]
  have hend : [GoStatement.returnBuffer, .nothing].filterMap GoStatement.member? = [] := rfl
  rw [writeStatements, List.filterMap_cons_none rfl, List.filterMap_cons_none rfl,
    List.filterMap_append, hend, List.append_nil, writeBody, List.filterMap_map,
    List.filterMap_flatMap, List.mem_flatMap, List.mem_filterMap]
  simp only [List.mem_filterMap, Function.comp_apply, hfield]

end

/-! ## The code of a packet -/

/-- The code of a packet has a struct and two methods; between their braces are these members and
these statements. -/
structure ReadsAs (p : Packet) (t : IdType) (members : List Member)
    (reads writes : List GoStatement) : Prop where
  code : packetCode p t = packetConstants p ++
    (structHead p.name (membersText p.fields) ++ readBodyText (membersText p.fields) ++
      methodEnd) ++
    pidMethod p t ++ (readHead p.name ++ readBodyText (readText p.fields) ++ methodEnd) ++
    (writeHead p.name ++ writeBodyText (writeText p.fields) ++ methodEnd)
  members : membersIn? (readBodyText (membersText p.fields)).toList = some members
  reads : statementsIn? (readBodyText (readText p.fields)).toList = some reads
  writes : statementsIn? (writeBodyText (writeText p.fields)).toList = some writes

theorem readsAs {p : Packet} (h : NoFeed p.fields) (t : IdType) :
    ReadsAs p t (Member.ofFields p.fields) (readStatements p.fields) (writeStatements p.fields) where
  code := by rw [packetCode, packetStruct_eq, readMethod_eq, writeMethod_eq]
  members := membersIn?_readBodyText p.fields
  reads := statementsIn?_readBodyText h
  writes := statementsIn?_writeBodyText h

/-- The struct and the methods speak of the same members. -/
structure SameMembers (fields : List Field) (members : List Member)
    (reads writes : List GoStatement) : Prop where
  distinct : (members.map Member.name).Nodup
  /-- No member is called like a method of the struct. -/
  noMethod : ∀ m ∈ members, m.name ∉ ["Pid", "Read", "Write"]
  /-- They are the members of the recognised fields, by first appearance. -/
  inOrder : members.map Member.name = firstBy id ((recognizedNames fields).map memberName)
  assigned : ∀ name, name ∈ reads.filterMap GoStatement.assigned? ↔ name ∈ members.map Member.name
  used : ∀ name, name ∈ (writes.filterMap GoStatement.member?).map Member.name ↔
    name ∈ members.map Member.name

theorem mem_map_name_ofFields {fields : List Field} {name : String} :
    name ∈ (Member.ofFields fields).map Member.name ↔
      name ∈ (fields.filterMap Member.ofField?).map Member.name := by
  rw [ofFields_eq, mem_map_firstBy]

theorem sameMembers (fields : List Field) :
    SameMembers fields (Member.ofFields fields) (readStatements fields)
      (writeStatements fields) where
  distinct := nodup_map_name_ofFields fields
  noMethod m hm := by
    obtain ⟨f, -, hname, -⟩ := exists_field_of_mem_ofFields hm
    rw [hname]
    exact memberName_not_mem_methodNames f.name
  inOrder := map_name_ofFields fields
  assigned name := by
    rw [mem_map_name_ofFields, ← filterMap_member?_readStatements, List.map_filterMap,
      List.filterMap_congr fun s hs => assigned?_readStatement hs]
  used name := by
    rw [mem_map_name_ofFields]
    simp only [List.mem_map, mem_filterMap_member?_writeStatements]

/-! ## Types -/

/-- A member is declared with the type that the first field of its name needs. -/
theorem typeOf?_eq_first (fields : List Field) (name : String) :
    BufferRuntime.typeOf? (Member.ofFields fields) name =
      ((fields.filterMap Member.ofField?).find? (·.name = name)).map Member.type := by
  rw [ofFields_eq]
  exact congrArg (Option.map Member.type)
    (find?_firstBy Member.name Member.name (fun _ _ _ _ h => h) name)

theorem typeOf?_iff_membersAgree {fields : List Field} :
    (∀ m ∈ fields.filterMap Member.ofField?,
        BufferRuntime.typeOf? (Member.ofFields fields) m.name = some m.type) ↔
      MembersAgree fields := by
  constructor
  · intro h m hm n hn hname
    have htype := h m hm
    rw [hname, h n hn] at htype
    exact (Option.some.inj htype).symm
  · intro hagree m hm
    exact typeOf?_ofFields hagree hm

theorem mem_member?_iff {fields : List Field} {m : Member} :
    (∃ s ∈ readStatements fields ++ writeStatements fields, s.member? = some m) ↔
      m ∈ fields.filterMap Member.ofField? := by
  rw [← List.mem_filterMap, List.filterMap_append, List.mem_append,
    filterMap_member?_readStatements, mem_filterMap_member?_writeStatements, or_self]

/-- The methods use every member at its declared type exactly when all fields of a name need one
type. -/
theorem typed_iff_membersAgree {fields : List Field} :
    (∀ s ∈ readStatements fields ++ writeStatements fields, s.Typed (Member.ofFields fields)) ↔
      MembersAgree fields := by
  rw [← typeOf?_iff_membersAgree]
  constructor
  · intro h m hm
    obtain ⟨s, hs, hsm⟩ := mem_member?_iff.mpr hm
    exact h s hs m hsm
  · intro h s hs m hsm
    exact h m (mem_member?_iff.mp ⟨s, hs, hsm⟩)

/-! ## Names -/

/-- **The struct and the two methods of a packet have the same members.** They are called as the
recognised fields say, each is declared once, assigned where the packet is read and used where it is
written; what was not recognised adds to none of the three. -/
theorem packetCode_sameMembers (p : Packet) (t : IdType) (h : NoFeed p.fields) :
    ∃ members reads writes, ReadsAs p t members reads writes ∧
      SameMembers p.fields members reads writes :=
  ⟨_, _, _, readsAs h t, sameMembers p.fields⟩

/-- A field called like a method, two fields that share a member, and a statement that is kept. -/
theorem packetCode_sameMembers_skin :
    let p : Packet := ⟨"Skin", [], [.value .byte "pid", .bytes .short "skin_data",
      .unknown "$this->putUUID($this->uuid)", .bytes .lint "skinData"]⟩
    NoFeed p.fields ∧ (Member.ofFields p.fields).map Member.name = ["Pid_", "SkinData"] ∧
      ∃ members reads writes, ReadsAs p IdType.default members reads writes ∧
        SameMembers p.fields members reads writes := by
  intro p
  have hfeed : NoFeed p.fields := by
    intro statement h
    have hs : statement = "$this->putUUID($this->uuid)" := by simpa [p] using h
    rw [hs]
    decide
  exact ⟨hfeed, by decide, packetCode_sameMembers p IdType.default hfeed⟩

end PacketGen.Generated
