import PacketGen.Proofs.FirstOccurrence
import PacketGen.Proofs.Generated.BufferRuntime

/-!
# Reading inverts writing

The two methods of a packet are written by two functions that know nothing of each other. Run one
after the other they must cancel out: what the one puts into an empty buffer, the other takes out
again, all of it, into the same members.

The induction is on the fields. Its invariant is the queue: the octets of the fields still to be
read are at the front of the buffer (`octets`), in the order in which they were put at its end, so
that every field finds its own octets first (`run_readField`) whatever is behind them. A member may
be carried by several fields; each of them writes the same value, and reads it back into the same
place (`carry`).
-/

namespace PacketGen.Generated

open BufferRuntime

/-! ## Members

One member can belong to many fields, and the first of them decides its type. -/

theorem firstOfName_eq (seen : List String) (ms : List Member) :
    Member.firstOfName seen ms = (firstBy Member.name ms).filter (·.name ∉ seen) := by
  induction ms generalizing seen with
  | nil => rfl
  | cons m ms ih =>
    rw [Member.firstOfName, firstBy]
    split
    · next hm =>
      -- Nothing of the name is left to be dropped behind `m` that `seen` does not drop already.
      rw [ih, List.filter_cons_of_neg (by simpa using hm), List.filter_filter]
      refine List.filter_congr fun n _ => ?_
      by_cases hn : n.name ∈ seen
      · simp [hn]
      · have hne : n.name ≠ m.name := fun h => hn (h ▸ hm)
        simp [hn, hne]
    · next hm =>
      rw [ih, List.filter_cons_of_pos (by simpa using hm), List.filter_filter]
      congr 1
      refine List.filter_congr fun n _ => ?_
      simp [Bool.and_comm]

theorem ofFields_eq (fields : List Field) :
    Member.ofFields fields = firstBy Member.name (fields.filterMap Member.ofField?) := by
  rw [Member.ofFields, firstOfName_eq]
  exact List.filter_eq_self.mpr (by simp)

/-- No two fields need one member with different types. -/
def MembersAgree (fields : List Field) : Prop :=
  ∀ m ∈ fields.filterMap Member.ofField?, ∀ n ∈ fields.filterMap Member.ofField?,
    m.name = n.name → m.type = n.type

theorem MembersAgree.eq_of_name_eq {fields : List Field} (hagree : MembersAgree fields)
    {m n : Member} (hm : m ∈ fields.filterMap Member.ofField?)
    (hn : n ∈ fields.filterMap Member.ofField?) (hname : m.name = n.name) : m = n := by
  have htype := hagree m hm n hn hname
  cases m
  cases n
  simp_all

theorem mem_filterMap_of_mem_ofFields {fields : List Field} {m : Member}
    (hm : m ∈ Member.ofFields fields) : m ∈ fields.filterMap Member.ofField? := by
  rw [ofFields_eq] at hm
  exact mem_of_mem_firstBy hm

/-- The member of every recognised field is declared with the type that the field needs. -/
theorem mem_ofFields {fields : List Field} (hagree : MembersAgree fields) {m : Member}
    (hm : m ∈ fields.filterMap Member.ofField?) : m ∈ Member.ofFields fields := by
  have hname : m.name ∈ (Member.ofFields fields).map Member.name := by
    rw [ofFields_eq, mem_map_firstBy]
    exact List.mem_map_of_mem hm
  obtain ⟨n, hn, hname⟩ := List.mem_map.mp hname
  have heq := hagree.eq_of_name_eq (mem_filterMap_of_mem_ofFields hn) hm hname
  exact heq ▸ hn

theorem typeOf?_ofFields {fields : List Field} (hagree : MembersAgree fields) {m : Member}
    (hm : m ∈ fields.filterMap Member.ofField?) :
    typeOf? (Member.ofFields fields) m.name = some m.type := by
  cases hfind : (Member.ofFields fields).find? (·.name == m.name) with
  | none => exact absurd (List.find?_eq_none.mp hfind m (mem_ofFields hagree hm)) (by simp)
  | some n =>
    have hname : n.name = m.name := by simpa using List.find?_some hfind
    have hn := mem_filterMap_of_mem_ofFields (List.mem_of_find?_eq_some hfind)
    rw [typeOf?, hfind, hagree.eq_of_name_eq hn hm hname, Option.map_some]

/-! ## Ranges -/

/-- Every value survives the accessors that are called for it: a value those of its type, bytes
those of their length prefix. -/
structure InRange (rt : BufferRuntime) (fields : List Field) (v : GoStruct) : Prop where
  value : ∀ t name, Field.value t name ∈ fields → rt.range t (v (memberName name))
  length : ∀ t name bs, Field.bytes t name ∈ fields → v (memberName name) = .bytes bs →
    rt.KeepsLength t bs.length

/-- What it takes for a field to be carried. -/
def Carried (rt : BufferRuntime) (members : List Member) (v : GoStruct) : Field → Prop
  | .value t name => typeOf? members (memberName name) = some t.valueType ∧
      (v (memberName name)).type = t.valueType ∧ rt.range t (v (memberName name))
  | .bytes t name => typeOf? members (memberName name) = some "[]byte" ∧
      ∃ bs, v (memberName name) = .bytes bs ∧ rt.KeepsLength t bs.length
  | .unknown _ => True

theorem InRange.carried {rt : BufferRuntime} {fields : List Field} {v : GoStruct}
    (hrange : InRange rt fields v) (hagree : MembersAgree fields)
    (hv : v.Typed (Member.ofFields fields)) {f : Field} (hf : f ∈ fields) :
    Carried rt (Member.ofFields fields) v f := by
  cases f with
  | value t name =>
    have hm : (⟨memberName name, t.valueType⟩ : Member) ∈ fields.filterMap Member.ofField? :=
      List.mem_filterMap.mpr ⟨.value t name, hf, rfl⟩
    have hdeclared := typeOf?_ofFields hagree hm
    have htype := hv _ (mem_ofFields hagree hm)
    dsimp only at hdeclared htype
    exact ⟨hdeclared, htype, hrange.value t name hf⟩
  | bytes t name =>
    have hm : (⟨memberName name, "[]byte"⟩ : Member) ∈ fields.filterMap Member.ofField? :=
      List.mem_filterMap.mpr ⟨.bytes t name, hf, rfl⟩
    have hdeclared := typeOf?_ofFields hagree hm
    obtain ⟨bs, hbs⟩ := GoValue.eq_bytes_of_type (hv _ (mem_ofFields hagree hm))
    dsimp only at hdeclared hbs
    exact ⟨hdeclared, bs, hbs, hrange.length t name bs hf hbs⟩
  | unknown => trivial

/-! ## One field -/

section Field

variable {rt : BufferRuntime} {members : List Member} {v : GoStruct} {f : Field}

/-- The octets that a field adds to the buffer. -/
def fieldOctets (rt : BufferRuntime) (v : GoStruct) : Field → List UInt8
  | .value t name => rt.encode t (v (memberName name))
  | .bytes t name =>
    match v (memberName name) with
    | .bytes bs => (rt.ofLength? t.valueType bs.length).elim [] (rt.encode t) ++ bs
    | _ => []
  | .unknown _ => []

theorem load_eq (w : GoStruct) (b : Option (List UInt8)) {name : String}
    (h : typeOf? members name = some (w name).type) : load members ⟨w, b⟩ name = some (w name) :=
  if_pos h

/-- A field appends its octets. -/
theorem run_writeField (hf : Carried rt members v f) (buffer : List UInt8)
    (lines : List (List Char)) :
    rt.run members ⟨v, some buffer⟩
        ((WriteLine.ofField f).map (fun l => lineOf l.render) ++ lines) =
      rt.run members ⟨v, some (buffer ++ fieldOctets rt v f)⟩ lines := by
  cases f with
  | value t name =>
    obtain ⟨hdeclared, htype, -⟩ := hf
    refine run_cons_of_step (parse?_writeValue name t) ?_ lines
    rw [step, load_eq v _ (htype ▸ hdeclared)]
    exact if_pos htype
  | bytes t name =>
    obtain ⟨hdeclared, bs, hbs, x, hx, -, -⟩ := hf
    have hload (b : List UInt8) :
        load members ⟨v, some b⟩ (memberName name) = some (.bytes bs) := by
      rw [load_eq v _ (by rw [hbs]; exact hdeclared), hbs]
    have hlength : rt.step members ⟨v, some buffer⟩ (.writeLength t t.valueType (memberName name)) =
        some ⟨v, some (buffer ++ rt.encode t x)⟩ := by
      rw [step, hload]
      simp only [hx]
      exact if_pos (type_of_ofLength? hx)
    have hbytes : rt.step members ⟨v, some (buffer ++ rt.encode t x)⟩
        (.writeBytes (memberName name)) = some ⟨v, some (buffer ++ rt.encode t x ++ bs)⟩ := by
      rw [step, hload]
      rfl
    have hoctets : fieldOctets rt v (.bytes t name) = rt.encode t x ++ bs := by
      simp only [fieldOctets, hbs, hx, Option.elim_some]
    rw [hoctets, ← List.append_assoc]
    exact (run_cons_of_step (parse?_writeLength name t) hlength _).trans
      (run_cons_of_step (parse?_writeBytes name) hbytes lines)
  | unknown statement =>
    rw [fieldOctets, List.append_nil]
    exact run_cons_of_step (parse?_unexpected statement) rfl lines

/-- The struct behind a field that was read: its member is that of `v`. -/
def carry (v w : GoStruct) (f : Field) : GoStruct :=
  match Member.ofField? f with
  | some m => Function.update w m.name (v m.name)
  | none => w

theorem carry_value (v w : GoStruct) (t : Primitive) (name : String) :
    carry v w (.value t name) = Function.update w (memberName name) (v (memberName name)) := by
  simp only [carry, Member.ofField?]

theorem carry_bytes (v w : GoStruct) (t : Primitive) (name : String) :
    carry v w (.bytes t name) = Function.update w (memberName name) (v (memberName name)) := by
  simp only [carry, Member.ofField?]

/-- A field takes its octets from the front, whatever is behind them. -/
theorem run_readField (hf : Carried rt members v f) (w : GoStruct) (rest : List UInt8)
    (lines : List (List Char)) :
    rt.run members ⟨w, some (fieldOctets rt v f ++ rest)⟩
        (lineOf (ReadLine.ofField f).render :: lines) =
      rt.run members ⟨carry v w f, some rest⟩ lines := by
  cases f with
  | value t name =>
    obtain ⟨hdeclared, htype, hrange⟩ := hf
    refine run_cons_of_step (parse?_readValue name t) ?_ lines
    have hdecode := rt.decode_encode t (v (memberName name)) rest htype hrange
    simp only [step, fieldOctets, Option.bind_eq_bind, Option.bind_some, hdecode]
    rw [carry_value, store, if_pos (htype ▸ hdeclared)]
  | bytes t name =>
    obtain ⟨hdeclared, bs, hbs, x, hx, hrange, hcount⟩ := hf
    have hoctets : fieldOctets rt v (.bytes t name) = rt.encode t x ++ bs := by
      simp only [fieldOctets, hbs, hx, Option.elim_some]
    refine run_cons_of_step (parse?_readBytes name t) ?_ lines
    have hdecode := rt.decode_encode t x (bs ++ rest) (type_of_ofLength? hx) hrange
    have hlong : bs.length ≤ (bs ++ rest).length := by simp
    rw [hoctets, List.append_assoc]
    simp only [step, Option.bind_eq_bind, Option.bind_some, hdecode, if_pos, hcount, if_pos hlong,
      List.take_left, List.drop_left]
    rw [carry_bytes, hbs, store, if_pos]
    exact hdeclared
  | unknown statement =>
    exact run_cons_of_step (parse?_unexpected statement) rfl lines

end Field

/-! ## All fields -/

section Fields

variable {rt : BufferRuntime} {members : List Member} {v : GoStruct} {fields : List Field}

/-- The octets of fields, in wire order. -/
def octets (rt : BufferRuntime) (v : GoStruct) (fields : List Field) : List UInt8 :=
  fields.flatMap (fieldOctets rt v)

theorem run_writeLines (hfields : ∀ f ∈ fields, Carried rt members v f) (buffer : List UInt8)
    (lines : List (List Char)) :
    rt.run members ⟨v, some buffer⟩ (writeLines fields ++ lines) =
      rt.run members ⟨v, some (buffer ++ octets rt v fields)⟩ lines := by
  induction fields generalizing buffer with
  | nil =>
    rw [octets, List.flatMap_nil, List.append_nil]
    rfl
  | cons f fs ih =>
    have hlines : writeLines (f :: fs) ++ lines =
        (WriteLine.ofField f).map (fun l => lineOf l.render) ++ (writeLines fs ++ lines) := by
      simp [writeLines, writeBody]
    rw [hlines, run_writeField (hfields f List.mem_cons_self),
      ih fun g hg => hfields g (List.mem_cons_of_mem _ hg), octets, octets, List.flatMap_cons,
      List.append_assoc]

theorem run_readLines (hfields : ∀ f ∈ fields, Carried rt members v f) (w : GoStruct)
    (rest : List UInt8) (lines : List (List Char)) :
    rt.run members ⟨w, some (octets rt v fields ++ rest)⟩ (readLines fields ++ lines) =
      rt.run members ⟨fields.foldl (carry v) w, some rest⟩ lines := by
  induction fields generalizing w with
  | nil => rfl
  | cons f fs ih =>
    have hoctets : octets rt v (f :: fs) ++ rest =
        fieldOctets rt v f ++ (octets rt v fs ++ rest) := by
      simp [octets]
    have hlines : readLines (f :: fs) ++ lines =
        lineOf (ReadLine.ofField f).render :: (readLines fs ++ lines) := rfl
    rw [hoctets, hlines, run_readField (hfields f List.mem_cons_self),
      ih fun g hg => hfields g (List.mem_cons_of_mem _ hg), List.foldl_cons]

/-- A member that is right already is not spoilt by a field. -/
theorem carry_eq_of_eq {w : GoStruct} {name : String} (h : w name = v name) (f : Field) :
    carry v w f name = v name := by
  cases hm : Member.ofField? f with
  | none =>
    rw [carry, hm]
    exact h
  | some m =>
    rw [carry, hm]
    by_cases hname : name = m.name
    · rw [hname]
      exact Function.update_self _ _ _
    · exact (Function.update_of_ne hname _ _).trans h

theorem foldl_carry_of_eq {w : GoStruct} {name : String} (h : w name = v name)
    (fields : List Field) : fields.foldl (carry v) w name = v name := by
  induction fields generalizing w with
  | nil => exact h
  | cons f fs ih => exact ih (carry_eq_of_eq h f)

/-- Every member of a field that was read is that of `v`, whatever it was before. -/
theorem foldl_carry_of_mem {m : Member} (hm : m ∈ fields.filterMap Member.ofField?)
    (w : GoStruct) : fields.foldl (carry v) w m.name = v m.name := by
  induction fields generalizing w with
  | nil => exact absurd hm (by simp)
  | cons f fs ih =>
    rw [List.foldl_cons]
    obtain ⟨g, hg, hgm⟩ := List.mem_filterMap.mp hm
    rcases List.mem_cons.mp hg with rfl | hg
    · refine foldl_carry_of_eq ?_ fs
      rw [carry, hgm]
      exact Function.update_self _ _ _
    · exact ih (List.mem_filterMap.mpr ⟨g, hg, hgm⟩) _

theorem callWrite_writeBodyText (hfeed : NoFeed fields)
    (hfields : ∀ f ∈ fields, Carried rt members v f) :
    rt.callWrite members (writeBodyText (writeText fields)).toList v =
      some (octets rt v fields) := by
  have hopen : GoStatement.parse? "\tbuf := new(buffer.Buffer)".toList = some .openBuffer := by
    decide
  have hreturn : GoStatement.parse? "\treturn buf".toList = some .returnBuffer := by decide
  have hrun : rt.run members ⟨v, none⟩ (Text.splitLines (writeBodyText (writeText fields)).toList) =
      some (⟨v, some (octets rt v fields)⟩, some (octets rt v fields)) := by
    -- The rest of the line with the brace, then the buffer, then the fields.
    rw [splitLines_writeBodyText hfeed,
      run_cons_of_step (show GoStatement.parse? [] = some .nothing from rfl) rfl,
      run_cons_of_step hopen rfl, run_writeLines hfields, List.nil_append, run, hreturn]
    rfl
  rw [callWrite, hrun, Option.bind_some]

theorem callRead_readBodyText (hfeed : NoFeed fields)
    (hfields : ∀ f ∈ fields, Carried rt members v f) (w : GoStruct) :
    rt.callRead members (readBodyText (readText fields)).toList w (octets rt v fields) =
      some (fields.foldl (carry v) w, []) := by
  have hempty : GoStatement.parse? [] = some .nothing := rfl
  have hrun : rt.run members ⟨w, some (octets rt v fields)⟩
      (Text.splitLines (readBodyText (readText fields)).toList) =
        some (⟨fields.foldl (carry v) w, some []⟩, none) := by
    by_cases hne : fields = []
    · subst hne
      exact run_cons_of_step hempty rfl []
    · have hlines := run_readLines hfields w [] [[]]
      rw [List.append_nil] at hlines
      rw [splitLines_readBodyText hfeed hne, List.cons_append, run_cons_of_step hempty rfl, hlines]
      exact run_cons_of_step hempty rfl []
  rw [callRead, hrun]

end Fields

/-! ## Both methods -/

/-- **Reading inverts writing**: of the code of a packet, run on any runtime, the method that
writes succeeds on every struct in range, and the method that reads, run on what it wrote and from
any struct, succeeds, leaves nothing in the buffer, and makes every declared member equal. -/
theorem readMethod_inverts_writeMethod (rt : BufferRuntime) (p : Packet) (t : IdType)
    (hfeed : NoFeed p.fields) (hagree : MembersAgree p.fields) (v w : GoStruct)
    (hv : v.Typed (Member.ofFields p.fields)) (hrange : InRange rt p.fields v) :
    packetCode p t = packetConstants p ++ packetStruct p ++ pidMethod p t ++
        (readHead p.name ++ readBodyText (readText p.fields) ++ methodEnd) ++
        (writeHead p.name ++ writeBodyText (writeText p.fields) ++ methodEnd) ∧
      ∃ (buffer : List UInt8) (after : GoStruct),
        rt.callWrite (Member.ofFields p.fields)
          (writeBodyText (writeText p.fields)).toList v = some buffer ∧
        rt.callRead (Member.ofFields p.fields)
          (readBodyText (readText p.fields)).toList w buffer = some (after, []) ∧
        ∀ m ∈ Member.ofFields p.fields, after m.name = v m.name := by
  have hfields : ∀ f ∈ p.fields, Carried rt (Member.ofFields p.fields) v f := fun f hf =>
    hrange.carried hagree hv hf
  refine ⟨by rw [packetCode, readMethod_eq, writeMethod_eq], octets rt v p.fields,
    p.fields.foldl (carry v) w, callWrite_writeBodyText hfeed hfields,
    callRead_readBodyText hfeed hfields w, ?_⟩
  intro m hm
  exact foldl_carry_of_mem (mem_filterMap_of_mem_ofFields hm) w

/-- A member that two fields share, bytes behind two prefixes, and a statement that is kept. -/
theorem readMethod_inverts_writeMethod_skin :
    let p : Packet := ⟨"Skin", [], [.value .byte "slot", .bytes .short "skin_data",
      .unknown "foo();", .bytes .lint "skinData", .value .byte "slot"]⟩
    let v : GoStruct := fun m => if m = "Slot" then .byte 3 else .bytes [1, 2]
    NoFeed p.fields ∧ MembersAgree p.fields ∧ v.Typed (Member.ofFields p.fields) ∧
      InRange plainRuntime p.fields v ∧
      ∃ (buffer : List UInt8) (after : GoStruct),
        plainRuntime.callWrite (Member.ofFields p.fields)
          (writeBodyText (writeText p.fields)).toList v = some buffer ∧
        plainRuntime.callRead (Member.ofFields p.fields)
          (readBodyText (readText p.fields)).toList v buffer = some (after, []) ∧
        ∀ m ∈ Member.ofFields p.fields, after m.name = v m.name := by
  intro p v
  have hfeed : NoFeed p.fields := by
    intro statement h
    have hs : statement = "foo();" := by simpa [p] using h
    rw [hs]
    decide
  have hagree : MembersAgree p.fields := by
    unfold MembersAgree
    decide
  have hv : v.Typed (Member.ofFields p.fields) := by
    unfold GoStruct.Typed
    decide
  have hslot : v (memberName "slot") = .byte 3 := by decide
  have hskin : v (memberName "skin_data") = .bytes [1, 2] := by decide
  have hskin' : v (memberName "skinData") = .bytes [1, 2] := by decide
  have hrange : InRange plainRuntime p.fields v := by
    refine ⟨fun t name h => ?_, fun t name bs h hbs => ?_⟩
    · have hf : t = .byte ∧ name = "slot" := by simpa [p] using h
      rw [hf.1, hf.2, hslot]
      show (3 : Nat) < 256 ^ 1
      decide
    · have hf : (t = .short ∧ name = "skin_data") ∨ (t = .lint ∧ name = "skinData") := by
        simpa [p] using h
      have hlength : bs = [1, 2] := by
        rcases hf with ⟨-, rfl⟩ | ⟨-, rfl⟩
        · exact (GoValue.bytes.inj (hskin.symm.trans hbs)).symm
        · exact (GoValue.bytes.inj (hskin'.symm.trans hbs)).symm
      rw [hlength]
      rcases hf with ⟨rfl, -⟩ | ⟨rfl, -⟩
      · exact ⟨.uint16 2, rfl, show (2 : Nat) < 256 ^ 2 by decide, rfl⟩
      · exact ⟨.uint32 2, rfl, show (2 : Nat) < 256 ^ 4 by decide, rfl⟩
  exact ⟨hfeed, hagree, hv, hrange,
    (readMethod_inverts_writeMethod plainRuntime p IdType.default hfeed hagree v v hv hrange).2⟩

end PacketGen.Generated
