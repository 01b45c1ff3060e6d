import PacketGen.Generated.PacketCode
import PacketGen.Proofs.Text.NameChar

/-!
# Member names

Whatever a field is called, its member is called by ASCII letters, digits and underscores: camel
case drops every other character. So a member name never ends early where generated code is read
again, and never holds a line feed.
-/

namespace PacketGen

namespace Text

/-! ## The words of a name -/

theorem isAlphanum_of_mem_splitSeparators {cs w : List Char} {c : Char}
    (hw : w ∈ splitSeparators cs) (hc : c ∈ w) : c.isAlphanum = true := by
  induction cs generalizing w with
  | nil =>
    simp only [splitSeparators, List.mem_singleton] at hw
    subst hw
    exact absurd hc (by simp)
  | cons d ds ih =>
    rw [splitSeparators] at hw
    split at hw
    · rcases List.mem_cons.mp hw with rfl | hw
      · exact absurd hc (by simp)
      · exact ih hw hc
    · next hd =>
      split at hw
      · rw [List.mem_singleton.mp hw, List.mem_singleton] at hc
        simpa [hc] using hd
      · next s ss hs =>
        rcases List.mem_cons.mp hw with rfl | hw
        · rcases List.mem_cons.mp hc with rfl | hc
          · simpa using hd
          · exact ih (w := s) (by simp [hs]) hc
        · exact ih (by simp [hs, hw]) hc

/-- Cutting a piece at its case changes keeps to its characters. -/
theorem mem_of_mem_splitCase {word : List Char} {m : WordCase} {cs w : List Char} {c : Char}
    (hw : w ∈ splitCase word m cs) (hc : c ∈ w) : c ∈ word ∨ c ∈ cs := by
  fun_induction splitCase word m cs with
  | case1 => simp at hw
  | case2 word =>
    rw [List.mem_singleton.mp hw, List.mem_reverse] at hc
    exact Or.inl hc
  | case3 word m d =>
    rw [List.mem_singleton.mp hw, List.mem_reverse] at hc
    simpa [or_comm] using hc
  | case4 word m d e ds _ ih =>
    rcases List.mem_cons.mp hw with rfl | hw
    · rw [List.mem_reverse] at hc
      rcases List.mem_cons.mp hc with rfl | hc
      · exact Or.inr List.mem_cons_self
      · exact Or.inl hc
    · exact Or.inr (List.mem_cons_of_mem _ ((ih hw).resolve_left (by simp)))
  | case5 word m d e ds _ _ ih =>
    rcases List.mem_cons.mp hw with rfl | hw
    · exact Or.inl (List.mem_reverse.mp hc)
    · rcases ih hw with h | h
      · rw [List.mem_singleton.mp h]
        exact Or.inr List.mem_cons_self
      · exact Or.inr (List.mem_cons_of_mem _ h)
  | case6 word m d e ds _ _ ih =>
    rcases ih hw with h | h
    · rcases List.mem_cons.mp h with rfl | h
      · exact Or.inr List.mem_cons_self
      · exact Or.inl h
    · exact Or.inr (List.mem_cons_of_mem _ h)

theorem isAlphanum_of_mem_camelWords {name w : List Char} {c : Char} (hw : w ∈ camelWords name)
    (hc : c ∈ w) : c.isAlphanum = true := by
  obtain ⟨piece, hpiece, hw⟩ := List.mem_flatMap.mp hw
  exact isAlphanum_of_mem_splitSeparators hpiece
    ((mem_of_mem_splitCase hw hc).resolve_left (by simp))

/-! ## Camel case -/

theorem isAlphanum_toUpper {c : Char} (h : c.isAlphanum = true) : c.toUpper.isAlphanum = true :=
  of_isAlphanum (p := fun c => c.isAlphanum = true → c.toUpper.isAlphanum = true) (by decide) h h

theorem isAlphanum_toLower {c : Char} (h : c.isAlphanum = true) : c.toLower.isAlphanum = true :=
  of_isAlphanum (p := fun c => c.isAlphanum = true → c.toLower.isAlphanum = true) (by decide) h h

theorem isAlphanum_of_mem_lowerWord {w : List Char} (hw : ∀ d ∈ w, d.isAlphanum = true) {c : Char}
    (hc : c ∈ lowerWord w) : c.isAlphanum = true := by
  obtain ⟨d, hd, rfl⟩ := List.mem_map.mp hc
  exact isAlphanum_toLower (hw d hd)

theorem isAlphanum_of_mem_capitalWord {w : List Char} (hw : ∀ d ∈ w, d.isAlphanum = true)
    {c : Char} (hc : c ∈ capitalWord w) : c.isAlphanum = true := by
  cases w with
  | nil => exact absurd hc (by simp [capitalWord])
  | cons d ds =>
    obtain ⟨hd, hds⟩ := List.forall_mem_cons.mp hw
    rcases List.mem_cons.mp hc with rfl | hc
    · exact isAlphanum_toUpper hd
    · exact isAlphanum_of_mem_lowerWord hds hc

theorem isAlphanum_of_mem_upperCamel {name : String} {c : Char} (h : c ∈ (upperCamel name).toList) :
    c.isAlphanum = true := by
  rw [upperCamel, String.toList_ofList] at h
  obtain ⟨w, hw, hc⟩ := List.mem_flatMap.mp h
  exact isAlphanum_of_mem_capitalWord (fun d hd => isAlphanum_of_mem_camelWords hw hd) hc

theorem isAlphanum_of_mem_lowerCamel {name : String} {c : Char} (h : c ∈ (lowerCamel name).toList) :
    c.isAlphanum = true := by
  rw [lowerCamel, String.toList_ofList] at h
  have hwords : ∀ w ∈ camelWords name.toList, ∀ d ∈ w, d.isAlphanum = true :=
    fun w hw d hd => isAlphanum_of_mem_camelWords hw hd
  split at h
  · cases h
  · next w ws hws =>
    rw [hws] at hwords
    obtain ⟨hfirst, hrest⟩ := List.forall_mem_cons.mp hwords
    rcases List.mem_append.mp h with h | h
    · exact isAlphanum_of_mem_lowerWord hfirst h
    · obtain ⟨v, hv, hc⟩ := List.mem_flatMap.mp h
      exact isAlphanum_of_mem_capitalWord (hrest v hv) hc

end Text

namespace Generated

/-- A member name holds ASCII letters, digits and underscores only. -/
theorem isNameChar_of_mem_memberName {field : String} {c : Char}
    (h : c ∈ (memberName field).toList) : Text.isNameChar c = true := by
  unfold memberName at h
  dsimp only at h
  split at h
  · have hall : "Field".toList.all Text.isNameChar = true := by decide
    exact List.all_eq_true.mp hall c h
  · split at h
    · rw [String.toList_append, List.mem_append] at h
      rcases h with h | h
      · simp [Text.isNameChar, Text.isAlphanum_of_mem_upperCamel h]
      · have hall : "_".toList.all Text.isNameChar = true := by decide
        exact List.all_eq_true.mp hall c h
    · simp [Text.isNameChar, Text.isAlphanum_of_mem_upperCamel h]

theorem memberName_ne_empty (field : String) : memberName field ≠ "" := by
  unfold memberName
  dsimp only
  split
  · decide
  · split
    · intro h
      have := congrArg String.length h
      simp at this
    · assumption

end Generated

end PacketGen
