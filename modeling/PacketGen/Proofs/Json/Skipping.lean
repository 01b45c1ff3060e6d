import PacketGen.Proofs.Json.Grammar

/-!
# Values that are passed over

Keys that are no settings are passed over with their values, which may be anything. The reader for
them refuses no text that is a value by the grammar (`readsValue_skipAny`), and it takes just that
text: where a key that nobody knows held the reader up, or took a part of the next member along, a
setting would be lost.

The proof goes by the fuel, as for values that are built, and says of a value, of items and of
members what is taken. One unit of fuel for each character is more than enough.
-/

namespace PacketGen.Json

/-- A reader takes a value with the white space before it, wherever no number goes on behind it. -/
def ReadsValue {α : Type} (r : Reader α) (value : List Char) (a : α) : Prop :=
  ∀ ⦃spaces rest : List Char⦄, Spaces spaces → EndsNumber rest → Reads r (spaces ++ value) a rest

/-! ## What is ahead -/

/-- A value starts with a character that is no white space and closes no list. -/
def Begins (value : List Char) : Prop :=
  ∃ c cs, value = c :: cs ∧ isSpace c = false ∧ c ≠ ']'

theorem Begins.length_pos {value : List Char} (h : Begins value) : 0 < value.length := by
  obtain ⟨c, cs, rfl, -⟩ := h
  exact Nat.succ_pos _

theorem endsNumber_spaces {spaces rest : List Char} (hspaces : Spaces spaces)
    (hrest : EndsNumber rest) : EndsNumber (spaces ++ rest) := by
  cases spaces with
  | nil => exact hrest
  | cons c spaces =>
    intro d hd
    cases hd
    have hspace := hspaces c List.mem_cons_self
    simp only [isSpace, Bool.or_eq_true, beq_iff_eq] at hspace
    rcases hspace with ((rfl | rfl) | rfl) | rfl <;> decide

theorem endsNumber_closing {closing : Char} (h : closing = ']' ∨ closing = '\x7d')
    (rest : List Char) : EndsNumber (closing :: rest) := by
  intro c hc
  cases hc
  rcases h with rfl | rfl <;> decide

theorem Separated.endsNumber {α : Type} {Part : α → List Char → Prop} {xs : List α}
    {more rest : List Char} (h : Separated Part xs more) (hrest : EndsNumber rest) :
    EndsNumber (more ++ rest) := by
  cases h with
  | nil hspaces => exact endsNumber_spaces hspaces hrest
  | cons hspaces hpart hmore =>
    rw [List.append_assoc]
    exact endsNumber_spaces hspaces (endsNumber_comma _)

theorem Literal.begins {s : String} {text : List Char} (h : Literal s text) : Begins text := by
  cases h
  exact ⟨_, _, rfl, rfl, by decide⟩

theorem Digits.exists_cons {text : List Char} (h : Digits text) :
    ∃ d ds, text = d :: ds ∧ d.isDigit = true := by
  obtain ⟨d, ds, rfl⟩ := List.exists_cons_of_ne_nil h.1
  exact ⟨d, ds, rfl, h.2 d List.mem_cons_self⟩

theorem WholeText.exists_cons {text : List Char} (h : WholeText text) :
    ∃ d ds, text = d :: ds ∧ d.isDigit = true := by
  cases h with
  | zero => exact ⟨'0', [], rfl, rfl⟩
  | digits hdigits _ => exact hdigits.exists_cons

theorem NumberText.begins {text : List Char} (h : NumberText text) : Begins text := by
  obtain ⟨hsign, hwhole, -, -⟩ := h
  rcases hsign with rfl | rfl
  · obtain ⟨d, ds, rfl, hd⟩ := hwhole.exists_cons
    exact ⟨d, _, rfl, not_isSpace_of_isDigit hd⟩
  · exact ⟨'-', _, rfl, rfl, by decide⟩

theorem WellFormed.begins {value : List Char} (h : WellFormed value) : Begins value := by
  cases h with
  | null => exact ⟨_, _, rfl, rfl, by decide⟩
  | bool b => cases b <;> exact ⟨_, _, rfl, rfl, by decide⟩
  | number h => exact h.begins
  | string h => cases h; exact ⟨_, _, rfl, rfl, by decide⟩
  | array _ htext => cases htext <;> exact ⟨_, _, rfl, rfl, by decide⟩
  | object _ htext => cases htext <;> exact ⟨_, _, rfl, rfl, by decide⟩

/-! ## Numbers -/

/-- An exponent goes on neither with a digit nor with a point. -/
theorem ExponentText.head? {text rest : List Char} (h : ExponentText text)
    (hrest : EndsNumber rest) {c : Char} (hc : (text ++ rest).head? = some c) :
    c.isDigit = false ∧ c ≠ '.' := by
  cases h with
  | none => exact ⟨(hrest c hc).1, (hrest c hc).2.1⟩
  | digits he =>
    cases hc
    rcases he with rfl | rfl <;> decide

theorem FractionText.head? {text exponent rest : List Char} (h : FractionText text)
    (hexponent : ExponentText exponent) (hrest : EndsNumber rest) {c : Char}
    (hc : (text ++ (exponent ++ rest)).head? = some c) : c.isDigit = false := by
  cases h with
  | none => exact (hexponent.head? hrest hc).1
  | digits =>
    cases hc
    rfl

theorem Reads.digits {text rest : List Char} (h : Digits text)
    (hrest : ∀ c, rest.head? = some c → c.isDigit = false) :
    Reads (Reader.takeWhile Char.isDigit) text text rest := Reads.takeWhile h.2 hrest

theorem reads_skipExponent {e : Char} {sign text rest : List Char}
    (hsign : sign = [] ∨ sign = ['+'] ∨ sign = ['-']) (hdigits : Digits text)
    (hrest : EndsNumber rest) : Reads skipExponent (e :: (sign ++ text)) () rest := by
  obtain ⟨d, ds, rfl, hd⟩ := hdigits.exists_cons
  have hnumber : Reads
      (if !d.isDigit then fun c => .error ⟨.invalidNumber, c.offset + 1⟩
        else do let _ ← Reader.takeWhile Char.isDigit) (d :: ds) () rest := by
    rw [hd]
    exact (Reads.digits hdigits fun c hc => (hrest c hc).1).done (Reads.pure _ _)
  rw [skipExponent]
  refine (Reads.take e _).bind ?_
  refine (Reads.peek _).seen ?_
  rcases hsign with rfl | rfl | rfl
  · have hnone : ¬ (some d = some '+' ∨ some d = some '-') := by
      rintro (h | h) <;>
        · cases h
          cases hd
    show Reads (if some d = some '+' ∨ some d = some '-' then _ else _) _ _ _
    rw [if_neg hnone]
    exact (Reads.peek _).seen hnumber
  · exact (Reads.take '+' _).bind ((Reads.peek _).seen hnumber)
  · exact (Reads.take '-' _).bind ((Reads.peek _).seen hnumber)

theorem reads_skipFraction {text exponent rest : List Char} (hdigits : Digits text)
    (hexponent : ExponentText exponent) (hrest : EndsNumber rest) :
    Reads skipFraction ('.' :: (text ++ exponent)) () rest := by
  rw [skipFraction]
  refine (Reads.take '.' _).bind ?_
  refine (Reads.digits hdigits fun c hc => (hexponent.head? hrest hc).1).bind ?_
  rw [if_neg hdigits.1]
  refine (Reads.peek _).seen ?_
  cases hexponent with
  | none =>
    split
    · next h => exact absurd rfl (hrest _ h).2.2.1
    · next h => exact absurd rfl (hrest _ h).2.2.2
    · exact Reads.pure () rest
  | digits he hsign hdigits =>
    rcases he with rfl | rfl <;> exact reads_skipExponent hsign hdigits hrest

theorem reads_skipAfterDigits {fraction exponent rest : List Char}
    (hfraction : FractionText fraction) (hexponent : ExponentText exponent)
    (hrest : EndsNumber rest) : Reads skipAfterDigits (fraction ++ exponent) () rest := by
  rw [skipAfterDigits]
  refine (Reads.peek _).seen ?_
  cases hfraction with
  | digits hdigits => exact reads_skipFraction hdigits hexponent hrest
  | none =>
    cases hexponent with
    | none =>
      split
      · next h => exact absurd rfl (hrest _ h).2.1
      · next h => exact absurd rfl (hrest _ h).2.2.1
      · next h => exact absurd rfl (hrest _ h).2.2.2
      · exact Reads.pure () rest
    | digits he hsign hdigits =>
      rcases he with rfl | rfl <;> exact reads_skipExponent hsign hdigits hrest

/-- A number is taken up to where it ends, behind its sign. -/
theorem reads_skipNumber {whole fraction exponent rest : List Char} (hwhole : WholeText whole)
    (hfraction : FractionText fraction) (hexponent : ExponentText exponent)
    (hrest : EndsNumber rest) : Reads skipNumber (whole ++ (fraction ++ exponent)) () rest := by
  have hafter := reads_skipAfterDigits hfraction hexponent hrest
  have hend : ∀ c, (fraction ++ exponent ++ rest).head? = some c → c.isDigit = false := by
    intro c hc
    rw [List.append_assoc] at hc
    exact hfraction.head? hexponent hrest hc
  rw [skipNumber]
  refine (Reads.peek _).seen ?_
  cases hwhole with
  | zero =>
    refine (Reads.take '0' _).bind ?_
    refine (Reads.peek _).seen ?_
    split
    · next d hd =>
      rw [hend d hd]
      exact hafter
    · exact hafter
  | digits hdigits hfirst =>
    have hread := Reads.bind (f := fun _ => skipAfterDigits) (Reads.digits hdigits hend) hafter
    obtain ⟨d, ds, rfl, hd⟩ := hdigits.exists_cons
    split
    · next h => cases h
    · next h => exact absurd (by cases h; rfl) hfirst
    · next h =>
      cases h
      rw [hd]
      exact hread

/-! ## Values, items, members -/

theorem reads_skipString {parts : List (List Char)} (h : ∀ part ∈ parts, StringPiece part)
    (rest : List Char) : Reads skipString (parts.flatten ++ ['"']) () rest := by
  intro offset
  obtain ⟨offset', hoffset⟩ := skipStringFrom_pieces h rest offset
  refine ⟨offset', ?_⟩
  rw [List.append_assoc, List.singleton_append, skipString, hoffset]
  rfl

/-- Values are passed over with this much fuel. -/
def SkipsValues (fuel : Nat) : Prop :=
  ∀ {value : List Char}, WellFormed value → value.length ≤ fuel →
    ReadsValue (skipValue fuel) value ()

/-- Items are passed over up to their bracket with this much fuel. -/
def SkipsItems (fuel : Nat) : Prop :=
  ∀ {value part more : List Char} {values : List (List Char)} (rest : List Char),
    (∀ v ∈ value :: values, WellFormed v) → ItemText value part →
      Separated ItemText values more → (part ++ more).length < fuel →
        Reads (skipItems fuel) (part ++ (more ++ [']'])) () rest

/-- Members are passed over up to their bracket with this much fuel. -/
def SkipsMembers (fuel : Nat) : Prop :=
  ∀ {value part more : List Char} {values : List (List Char)} (rest : List Char),
    (∀ v ∈ value :: values, WellFormed v) → MemberText StringText value part →
      Separated (MemberText StringText) values more → (part ++ more).length < fuel →
        Reads (skipMembers fuel) (part ++ (more ++ ['\x7d'])) () rest

/-- Behind a part stands the closing bracket, or a comma and the next part. -/
theorem reads_behind {α β : Type} {Part : α → List Char → Prop} {f : Option Char → Reader β}
    {xs : List α} {more rest : List Char} {closing : Char} {b : β}
    (hmore : Separated Part xs more) (hclosing : isSpace closing = false)
    (hdone : Reads (f (some closing)) [closing] b rest)
    (hnext : ∀ {x part behind xs'}, xs = x :: xs' → Part x part → Separated Part xs' behind →
      (part ++ behind).length < more.length →
        Reads (f (some ',')) ([','] ++ (part ++ (behind ++ [closing]))) b rest) :
    Reads (Reader.peekValue >>= f) (more ++ [closing]) b rest := by
  cases hmore with
  | nil hspaces => exact (Reads.peekValue hspaces hclosing rest).bind hdone
  | @cons spaces part behind _ _ hspaces hpart hmore =>
    have htext : spaces ++ ',' :: (part ++ behind) ++ [closing] =
        spaces ++ ([','] ++ (part ++ (behind ++ [closing]))) := by
      simp
    have hshorter : (part ++ behind).length < (spaces ++ ',' :: (part ++ behind)).length := by
      simp only [List.length_append, List.length_cons]
      omega
    rw [htext]
    exact (Reads.peekValue hspaces rfl _).bind (hnext rfl hpart hmore hshorter)

theorem skipsItems_succ {fuel : Nat} (hvalues : SkipsValues fuel) (hitems : SkipsItems fuel) :
    SkipsItems (fuel + 1) := by
  intro value part more values rest hformed hpart hmore hfuel
  obtain ⟨hvalue, hformed⟩ := List.forall_mem_cons.mp hformed
  obtain ⟨hspaces⟩ := hpart
  have hends : EndsNumber (more ++ [']'] ++ rest) := by
    rw [List.append_assoc]
    exact hmore.endsNumber (endsNumber_closing (.inl rfl) rest)
  simp only [List.length_append] at hfuel
  rw [skipItems]
  refine (hvalues hvalue (by omega) hspaces hends).bind ?_
  refine reads_behind hmore rfl (Reads.take ']' rest) fun heq hnext hbehind hshorter => ?_
  subst heq
  exact (Reads.take ',' _).bind (hitems rest hformed hnext hbehind (by omega))

theorem skipsMembers_succ {fuel : Nat} (hvalues : SkipsValues fuel)
    (hmembers : SkipsMembers fuel) : SkipsMembers (fuel + 1) := by
  intro value part more values rest hformed hpart hmore hfuel
  obtain ⟨hvalue, hformed⟩ := List.forall_mem_cons.mp hformed
  have hends : EndsNumber (more ++ ['\x7d'] ++ rest) := by
    rw [List.append_assoc]
    exact hmore.endsNumber (endsNumber_closing (.inr rfl) rest)
  obtain @⟨front, key, behind, spaces, hfront, hkey, hbehind, hspaces⟩ := hpart
  obtain @⟨parts, hparts⟩ := hkey
  have htext : front ++ ('"' :: (parts.flatten ++ ['"']) ++ (behind ++ ':' :: (spaces ++ value))) ++
      (more ++ ['\x7d']) = front ++ (['"'] ++ ((parts.flatten ++ ['"']) ++ (behind ++ ([':'] ++
        ((spaces ++ value) ++ (more ++ ['\x7d'])))))) := by
    simp
  simp only [List.length_append, List.length_cons] at hfuel
  rw [skipMembers, htext]
  refine (Reads.peekValue hfront rfl _).bind ?_
  refine (Reads.take '"' _).bind ?_
  refine (reads_skipString hparts _).bind ?_
  refine (Reads.peekValue hbehind rfl _).bind ?_
  refine (Reads.take ':' _).bind ?_
  refine (hvalues hvalue (by omega) hspaces hends).bind ?_
  refine reads_behind hmore rfl (Reads.take '\x7d' rest) fun heq hnext hbehind hshorter => ?_
  subst heq
  exact (Reads.take ',' _).bind (hmembers rest hformed hnext hbehind (by omega))

theorem skipsValues_succ {fuel : Nat} (hitems : SkipsItems fuel) (hmembers : SkipsMembers fuel) :
    SkipsValues (fuel + 1) := by
  intro value hvalue hfuel spaces rest hspaces hrest
  rw [skipValue]
  cases hvalue with
  | null =>
    refine (Reads.peekValue hspaces rfl _).bind ?_
    exact Reads.word "null".toList rest
  | bool b =>
    cases b with
    | true =>
      refine (Reads.peekValue hspaces rfl _).bind ?_
      exact Reads.word "true".toList rest
    | false =>
      refine (Reads.peekValue hspaces rfl _).bind ?_
      exact Reads.word "false".toList rest
  | number h =>
    obtain ⟨hsign, hwhole, hfraction, hexponent⟩ := h
    have hnumber := reads_skipNumber hwhole hfraction hexponent hrest
    rcases hsign with rfl | rfl
    · obtain ⟨d, ds, rfl, hd⟩ := hwhole.exists_cons
      refine (Reads.peekValue hspaces (not_isSpace_of_isDigit hd).1 _).bind ?_
      split
      all_goals try (next h => cases h; cases hd)
      · next h => cases h
      · next h =>
        cases h
        rw [if_pos hd]
        exact hnumber
    · refine (Reads.peekValue hspaces rfl _).bind ?_
      exact (Reads.take '-' _).bind hnumber
  | string h =>
    obtain ⟨hparts⟩ := h
    refine (Reads.peekValue hspaces rfl _).bind ?_
    refine (Reads.take '"' _).bind ?_
    exact reads_skipString hparts rest
  | array hformed htext =>
    cases htext with
    | empty hinner =>
      refine (Reads.peekValue hspaces rfl _).bind ?_
      refine (Reads.take '[' _).bind ?_
      refine (Reads.peekValue hinner rfl rest).bind ?_
      exact Reads.take ']' rest
    | cons hpart hmore =>
      obtain ⟨hinner⟩ := hpart
      obtain ⟨c, cs, rfl, hspace, hclose⟩ := (List.forall_mem_cons.mp hformed).1.begins
      simp only [List.length_append, List.length_cons] at hfuel
      have hread := hitems rest hformed (.intro spaces_nil) hmore (by
        simp only [List.length_append, List.length_cons, List.length_nil]
        omega)
      rw [List.append_assoc]
      refine (Reads.peekValue hspaces rfl _).bind ?_
      refine (Reads.take '[' _).bind ?_
      refine (Reads.peekValue hinner hspace _).bind ?_
      split
      · next h => exact absurd (Option.some.inj h) hclose
      · next h => cases h
      · exact hread
  | object hformed htext =>
    cases htext with
    | empty hinner =>
      refine (Reads.peekValue hspaces rfl _).bind ?_
      refine (Reads.take '\x7b' _).bind ?_
      refine (Reads.peekValue hinner rfl rest).bind ?_
      exact Reads.take '\x7d' rest
    | cons hpart hmore =>
      obtain ⟨hfront, ⟨hparts⟩, hbehind, hinner⟩ := hpart
      simp only [List.length_append, List.length_cons] at hfuel
      have hread := hmembers rest hformed (.intro spaces_nil (.intro hparts) hbehind hinner) hmore
        (by
          simp only [List.length_append, List.length_cons, List.length_nil]
          omega)
      rw [List.append_assoc]
      refine (Reads.peekValue hspaces rfl _).bind ?_
      refine (Reads.take '\x7b' _).bind ?_
      refine (Reads.peekValue hfront rfl _).bind ?_
      exact hread

/-- With enough fuel, everything that is well formed is passed over. -/
theorem skipsAll (fuel : Nat) : SkipsValues fuel ∧ SkipsItems fuel ∧ SkipsMembers fuel := by
  induction fuel with
  | zero =>
    refine ⟨fun hvalue hfuel => ?_, fun _ _ _ _ hfuel => ?_, fun _ _ _ _ hfuel => ?_⟩
    · exact absurd hvalue.begins.length_pos (Nat.not_lt.mpr hfuel)
    · exact absurd hfuel (Nat.not_lt_zero _)
    · exact absurd hfuel (Nat.not_lt_zero _)
  | succ fuel ih =>
    obtain ⟨hvalues, hitems, hmembers⟩ := ih
    exact ⟨skipsValues_succ hitems hmembers, skipsItems_succ hvalues hitems,
      skipsMembers_succ hvalues hmembers⟩

/-- **Every value is passed over**, whatever is in it, and nothing behind it. -/
theorem readsValue_skipAny {value : List Char} (h : WellFormed value) :
    ReadsValue skipAny value () := by
  intro spaces rest hspaces hrest offset
  refine (skipsAll _).1 h ?_ hspaces hrest offset
  simp only [List.length_append]
  omega

end PacketGen.Json
