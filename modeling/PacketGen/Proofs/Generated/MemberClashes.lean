import Mathlib.Data.Finset.Card
import PacketGen.Proofs.Generated.MemberUse

/-!
# Fields that share a member

A struct has a member for every name in camel case, not for every name of a field: members are kept
apart by what they are called. Camel case forgets underscores and the case of the letters that open
words, so that two fields of different names can share one member, and whoever writes the one writes
the value of the other (`struct_member_per_name_head_yaw`).

Fields share a member exactly when their names are the same in camel case, since the ending that
keeps a member apart from the methods makes no new clash (`memberName_eq_iff`). Names that are in
camel case already keep their letters but for the first (`toList_upperCamel`), and never share one.
-/

namespace PacketGen

namespace Text

/-! ## Names in camel case

Words are put together as they were cut, if every capital opens a word. It does when the last letter
before it is a lower-case one; after another capital it would be taken for a part of an acronym. -/

theorem toLower_eq_self {c : Char} (h : c.isAlphanum = true) (hupper : c.isUpper = false) :
    c.toLower = c :=
  of_isAlphanum (p := fun c => c.isUpper = false → c.toLower = c) (by decide) h hupper

theorem toUpper_eq_self {c : Char} (h : c.isUpper = true) : c.toUpper = c :=
  of_isNameChar (p := fun c => c.isUpper = true → c.toUpper = c) (by decide)
    (isNameChar_of_isUpper h) h

/-- A letter is known from its capital, unless it is a capital itself. -/
theorem toLower_toUpper {c : Char} (h : c.isAlphanum = true) (hupper : c.isUpper = false) :
    c.toUpper.toLower = c :=
  of_isAlphanum (p := fun c => c.isUpper = false → c.toUpper.toLower = c) (by decide) h hupper

/-- Letters and digits behind a letter of the given case, in which every capital opens a word. -/
def CapitalsApart : WordCase → List Char → Prop
  | _, [] => True
  | m, c :: cs =>
    c.isAlphanum = true ∧ (c.isUpper = true → m = .lower) ∧ CapitalsApart (m.next c) cs

/-- A name in `lowerCamelCase`, with digits in it perhaps. -/
def IsCamel (name : String) : Prop := name ≠ "" ∧ CapitalsApart .start name.toList

instance CapitalsApart.decidable : ∀ (m : WordCase) (cs : List Char), Decidable (CapitalsApart m cs)
  | _, [] => isTrue trivial
  | m, c :: cs =>
    have := decidable (m.next c) cs
    inferInstanceAs (Decidable (_ ∧ _ ∧ _))

instance (name : String) : Decidable (IsCamel name) := inferInstanceAs (Decidable (_ ∧ _))

theorem CapitalsApart.isAlphanum {m : WordCase} {cs : List Char} (h : CapitalsApart m cs) :
    ∀ c ∈ cs, c.isAlphanum = true := by
  induction cs generalizing m with
  | nil => simp
  | cons c cs ih => exact List.forall_mem_cons.mpr ⟨h.1, ih h.2.2⟩

theorem next_of_isUpper {c : Char} (h : c.isUpper = true) (m : WordCase) : m.next c = .upper := by
  have hlower : c.isLower = false :=
    of_isNameChar (p := fun c => c.isUpper = true → c.isLower = false) (by decide)
      (isNameChar_of_isUpper h) h
  rw [WordCase.next, if_neg (by simp [hlower]), if_pos h]

/-- A capital that is read behind a lower-case letter begins the next word, any other character goes
on with the word. -/
theorem flatMap_splitCase {word cs : List Char} {m : WordCase} {c : Char}
    (hstart : word = [] → m = .start) (hopen : word ≠ [] → c.isUpper = false)
    (h : CapitalsApart (m.next c) cs) :
    (splitCase word m (c :: cs)).flatMap capitalWord = capitalWord (word.reverse ++ [c]) ++ cs := by
  induction cs generalizing word m c with
  | nil => simp [splitCase]
  | cons d cs ih =>
    obtain ⟨hd, hcapital, hrest⟩ := h
    rw [splitCase]
    by_cases hupper : d.isUpper = true
    · have hrest' : CapitalsApart (WordCase.start.next d) cs := by
        rw [next_of_isUpper hupper] at hrest ⊢
        exact hrest
      rw [if_pos (by simp [hcapital hupper, hupper]), List.flatMap_cons,
        ih (fun _ => rfl) (fun hne => absurd rfl hne) hrest', List.reverse_cons]
      simp [capitalWord, lowerWord, toUpper_eq_self hupper]
    · have hlower : d.isUpper = false := by simpa using hupper
      -- A word is cut before its last capital only if it has another one before.
      have hacronym : ¬ (m = .upper && c.isUpper && d.isLower) = true := by
        intro hcut
        simp only [Bool.and_eq_true, decide_eq_true_eq] at hcut
        by_cases hword : word = []
        · rw [hstart hword] at hcut
          exact absurd hcut.1.1 (by decide)
        · exact absurd hcut.1.2 (by simp [hopen hword])
      rw [if_neg (by simp [hlower]), if_neg hacronym,
        ih (fun hnil => absurd hnil (List.cons_ne_nil c word)) (fun _ => hlower) hrest,
        List.reverse_cons]
      obtain ⟨e, es, hes⟩ : ∃ e es, word.reverse ++ [c] = e :: es :=
        List.exists_cons_of_ne_nil (by simp)
      simp [hes, capitalWord, lowerWord, toLower_eq_self hd hlower]

theorem splitSeparators_of_isAlphanum {cs : List Char} (h : ∀ c ∈ cs, c.isAlphanum = true) :
    splitSeparators cs = [cs] := by
  induction cs with
  | nil => rfl
  | cons c cs ih =>
    obtain ⟨hc, hcs⟩ := List.forall_mem_cons.mp h
    rw [splitSeparators, ih hcs, if_neg (by simp [hc])]

/-- A name in camel case has its first letter changed, and nothing else. -/
theorem toList_upperCamel {name : String} (h : IsCamel name) :
    ∃ c cs, name.toList = c :: cs ∧ c.isAlphanum = true ∧ c.isUpper = false ∧
      (upperCamel name).toList = c.toUpper :: cs := by
  obtain ⟨c, cs, hname⟩ : ∃ c cs, name.toList = c :: cs := by
    refine List.exists_cons_of_ne_nil fun hnil => h.1 ?_
    exact String.toList_eq_nil_iff.mp hnil
  have hapart := h.2
  rw [hname] at hapart
  have hupper : c.isUpper = false := by
    cases hc : c.isUpper with
    | false => rfl
    | true => exact absurd (hapart.2.1 hc) (by decide)
  refine ⟨c, cs, hname, hapart.1, hupper, ?_⟩
  rw [upperCamel, String.toList_ofList, camelWords, hname,
    splitSeparators_of_isAlphanum hapart.isAlphanum, List.flatMap_singleton,
    flatMap_splitCase (fun _ => rfl) (fun hne => absurd rfl hne) hapart.2.2]
  rfl

theorem upperCamel_inj {a b : String} (ha : IsCamel a) (hb : IsCamel b)
    (h : upperCamel a = upperCamel b) : a = b := by
  obtain ⟨c, cs, hname, hc, hupper, hcamel⟩ := toList_upperCamel ha
  obtain ⟨d, ds, hname', hd, hupper', hcamel'⟩ := toList_upperCamel hb
  rw [h, hcamel'] at hcamel
  obtain ⟨hfirst, hrest⟩ := List.cons.inj hcamel
  have hletter : c = d := by
    rw [← toLower_toUpper hc hupper, ← hfirst, toLower_toUpper hd hupper']
  refine String.toList_inj.mp ?_
  rw [hname, hname', hletter, hrest]

/-- Neither two capitals in a row nor an underscore is camel case. -/
example : IsCamel "headYaw2" ∧ ¬ IsCamel "playerID" ∧ ¬ IsCamel "head_yaw" := by decide

end Text

namespace Generated

/-! ## Names that share a member -/

/-- A name in camel case, with a stand-in for a name of which nothing is left. -/
def camelName (field : String) : String :=
  if Text.upperCamel field = "" then "Field" else Text.upperCamel field

/-- The ending of a member that would be called like a method. -/
def escapeMethod (name : String) : String := if name ∈ methodNames then name ++ "_" else name

theorem memberName_eq_escapeMethod (field : String) :
    memberName field = escapeMethod (camelName field) := by
  unfold memberName camelName
  dsimp only
  by_cases hempty : Text.upperCamel field = ""
  · rw [if_pos hempty, if_pos hempty]
    rfl
  · rw [if_neg hempty, if_neg hempty, escapeMethod]

theorem underscore_not_mem_camelName (field : String) : '_' ∉ (camelName field).toList := by
  unfold camelName
  split
  · decide
  · intro h
    exact absurd (Text.isAlphanum_of_mem_upperCamel h) (by decide)

/-- The ending makes no clash, as no name in camel case ends in an underscore. -/
theorem escapeMethod_inj {a b : String} (ha : '_' ∉ a.toList) (hb : '_' ∉ b.toList)
    (h : escapeMethod a = escapeMethod b) : a = b := by
  have hescaped : ∀ name : String, '_' ∈ (name ++ "_").toList := fun name => by
    rw [String.toList_append]
    exact List.mem_append_right _ (by decide)
  unfold escapeMethod at h
  split at h
  · split at h
    · exact (String.append_left_inj "_").mp h
    · exact absurd (h ▸ hescaped a) hb
  · split at h
    · exact absurd (h ▸ hescaped b) ha
    · exact h

/-- **Two fields have one member exactly when they have one name in camel case.** -/
theorem memberName_eq_iff {a b : String} :
    memberName a = memberName b ↔ camelName a = camelName b := by
  rw [memberName_eq_escapeMethod, memberName_eq_escapeMethod]
  constructor
  · exact escapeMethod_inj (underscore_not_mem_camelName a) (underscore_not_mem_camelName b)
  · exact congrArg escapeMethod

theorem camelName_inj {a b : String} (ha : Text.IsCamel a) (hb : Text.IsCamel b)
    (h : camelName a = camelName b) : a = b := by
  have hcamel : ∀ name, Text.IsCamel name → camelName name = Text.upperCamel name := by
    intro name hname
    obtain ⟨c, cs, -, -, -, htext⟩ := Text.toList_upperCamel hname
    refine if_neg fun hempty => ?_
    rw [hempty] at htext
    cases htext
  rw [hcamel a ha, hcamel b hb] at h
  exact Text.upperCamel_inj ha hb h

/-! ## Counting members -/

theorem length_ofFields (fields : List Field) :
    (Member.ofFields fields).length = ((recognizedNames fields).toFinset.image memberName).card := by
  have hsame : ((Member.ofFields fields).map Member.name).toFinset =
      (recognizedNames fields).toFinset.image memberName := by
    ext name
    rw [List.mem_toFinset, mem_map_name_ofFields, map_name_filterMap_ofField?]
    simp
  rw [← hsame, List.toFinset_card_of_nodup (nodup_map_name_ofFields fields), List.length_map]

/-- **A struct has no more members than its packet has names of fields**, and as many exactly when
no two of the names are one in camel case. So it is when the names are in camel case already. -/
theorem struct_member_per_name (p : Packet) :
    packetStruct p = structHead p.name (membersText p.fields) ++
        readBodyText (membersText p.fields) ++ methodEnd ∧
      ∃ members, membersIn? (readBodyText (membersText p.fields)).toList = some members ∧
        members.map Member.name = firstBy id ((recognizedNames p.fields).map memberName) ∧
        (∀ a b, memberName a = memberName b ↔ camelName a = camelName b) ∧
        members.length ≤ (recognizedNames p.fields).toFinset.card ∧
        (members.length = (recognizedNames p.fields).toFinset.card ↔
          ∀ a ∈ recognizedNames p.fields, ∀ b ∈ recognizedNames p.fields,
            camelName a = camelName b → a = b) ∧
        ((∀ name ∈ recognizedNames p.fields, Text.IsCamel name) →
          members.length = (recognizedNames p.fields).toFinset.card) := by
  have hiff : (Member.ofFields p.fields).length = (recognizedNames p.fields).toFinset.card ↔
      ∀ a ∈ recognizedNames p.fields, ∀ b ∈ recognizedNames p.fields,
        camelName a = camelName b → a = b := by
    rw [length_ofFields, Finset.card_image_iff]
    constructor
    · intro h a ha b hb hname
      exact h (by simpa using ha) (by simpa using hb) (memberName_eq_iff.mpr hname)
    · intro h a ha b hb hname
      exact h a (by simpa using ha) b (by simpa using hb) (memberName_eq_iff.mp hname)
  refine ⟨packetStruct_eq p, _, membersIn?_readBodyText p.fields, map_name_ofFields p.fields,
    fun _ _ => memberName_eq_iff, ?_, hiff, ?_⟩
  · rw [length_ofFields]
    exact Finset.card_image_le
  · intro hcamel
    exact hiff.mpr fun a ha b hb => camelName_inj (hcamel a ha) (hcamel b hb)

/-- Two fields of different names have one member, and what is written for the one is the value of
the other. -/
theorem struct_member_per_name_head_yaw :
    let source := "class MovePlayerPacket extends DataPacket \x7b\n" ++
      "public function encode()\x7b\n$this->putByte($this->head_yaw);\n" ++
      "$this->putByte($this->headYaw);\n\x7d\n\x7d"
    ∃ p members reads writes, Packet.analyze Config.default "MovePlayer" source = .ok p ∧
      recognizedNames p.fields = ["head_yaw", "headYaw"] ∧
      ReadsAs p IdType.default members reads writes ∧ members = [⟨"HeadYaw", "byte"⟩] ∧
      writes.filterMap GoStatement.member? = [⟨"HeadYaw", "byte"⟩, ⟨"HeadYaw", "byte"⟩] ∧
      members.length ≠ (recognizedNames p.fields).toFinset.card := by
  intro source
  let p : Packet := ⟨"MovePlayer", [], [.value .byte "head_yaw", .value .byte "headYaw"]⟩
  have h : Packet.analyze Config.default "MovePlayer" source = .ok p := by decide +kernel
  have hfeed : NoFeed p.fields := by
    intro statement hstatement
    simp [p] at hstatement
  refine ⟨p, _, _, _, h, rfl, readsAs hfeed IdType.default, ?_, ?_, ?_⟩
  · decide
  · decide
  · decide

end Generated

end PacketGen
