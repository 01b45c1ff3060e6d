import PacketGen.Proofs.Json.Skipping

/-!
# Lists and records in a text

What is read off a list and off an object, when it is known what is read off their parts. For a
list that is one item after the other (`readsValue_listOf`). Of a record it is said by `Changes`,
which knows of keys and values but of no text: a key that is a setting changes the state, and any
other key leaves it as it is. That the members stand in brackets, behind commas and in white space
makes no difference (`Changes.readsValue`).
-/

namespace PacketGen.Json

variable {α β σ : Type}

/-! ## Strings -/

theorem ReadsValue.map {r : Reader α} {value : List Char} {a : α} (h : ReadsValue r value a)
    (f : α → β) : ReadsValue (do return f (← r)) value (f a) := by
  intro spaces rest hspaces hrest
  exact (h hspaces hrest).done (Reads.pure _ rest)

theorem readsValue_stringAs (expected : String) {s : String} {text : List Char}
    (h : Literal s text) : ReadsValue (stringAs expected) text s := by
  obtain ⟨hspelled⟩ := h
  intro spaces rest hspaces _
  rw [stringAs]
  refine (Reads.peekValue hspaces rfl _).bind ?_
  refine (Reads.take '"' _).bind ?_
  exact Reads.spelled hspelled rest

theorem readsValue_text {s : String} {value : List Char} (h : Spells (.string s) value) :
    ReadsValue text value s := by
  cases h with
  | string h => exact readsValue_stringAs _ h

/-- A null is read as no string. -/
theorem readsValue_textOrNull (expected : String) {s : Option String} {value : List Char}
    (h : Spells (match s with | some s => .string s | none => .null) value) :
    ReadsValue (optional (stringAs expected)) value s := by
  intro spaces rest hspaces hrest
  rw [optional]
  cases s with
  | none =>
    cases h
    refine (Reads.peekValue hspaces rfl _).bind ?_
    exact (Reads.word "null".toList rest).done (Reads.pure _ rest)
  | some s =>
    cases h with
    | string h =>
      have hread := readsValue_stringAs expected h spaces_nil hrest
      obtain ⟨hspelled⟩ := h
      refine (Reads.peekValue hspaces rfl _).bind ?_
      exact hread.done (Reads.pure _ rest)

/-! ## Brackets -/

theorem reads_enclosed {close : Cursor → Cursor × Option Misread}
    {contents : Reader (Except Fault α)} {opening closing : Char} {inner rest : List Char} {a : α}
    (hclose : ∀ offset, ∃ offset', close ⟨closing :: rest, offset⟩ = (⟨rest, offset'⟩, none))
    (hcontents : Reads contents inner (.ok a) (closing :: rest)) :
    Reads (enclosed close contents) (opening :: (inner ++ [closing])) a rest := by
  intro offset
  obtain ⟨middle, hmiddle⟩ := hcontents (offset + Text.byteLength [opening])
  obtain ⟨offset', hoffset⟩ := hclose middle
  refine ⟨offset', ?_⟩
  have hbehind : (⟨opening :: (inner ++ [closing]) ++ rest, offset⟩ : Cursor).advance 1 =
      ⟨inner ++ closing :: rest, offset + Text.byteLength [opening]⟩ := by
    simp [Cursor.advance]
  rw [enclosed, hbehind, hmiddle]
  dsimp only
  rw [hoffset]

/-- What is read up to a closing bracket has as much fuel as there are characters ahead. -/
theorem reads_fueled {r : Nat → Reader α} {text rest : List Char} {a : α} (f : α → β)
    (h : ∀ fuel, text.length ≤ fuel → Reads (r (fuel + 1)) text a rest) :
    Reads (fun c => (r (c.rest.length + 1) c).map fun x => (f x.1, x.2)) text (f a) rest := by
  intro offset
  have hfuel : text.length ≤ (text ++ rest).length := by
    rw [List.length_append]
    omega
  obtain ⟨offset', hoffset⟩ := h _ hfuel offset
  refine ⟨offset', ?_⟩
  show Except.map _ (r ((text ++ rest).length + 1) ⟨text ++ rest, offset⟩) = _
  rw [hoffset]
  rfl

/-! ## Lists -/

/-- An item is read, and it is told from the end of the list. -/
def ReadsItem (r : Reader α) (value : List Char) (a : α) : Prop :=
  Begins value ∧ ReadsValue r value a

theorem reads_nextItem_end {spaces : List Char} (hspaces : Spaces spaces) (isFirst : Bool)
    (rest : List Char) : Reads (nextItem isFirst) spaces false (']' :: rest) := by
  rw [nextItem]
  exact (Reads.peekValue hspaces rfl rest).done (Reads.pure _ _)

theorem reads_nextItem_first {spaces : List Char} (hspaces : Spaces spaces) {c : Char}
    (hspace : isSpace c = false) (hclose : c ≠ ']') (rest : List Char) :
    Reads (nextItem true) spaces true (c :: rest) := by
  rw [nextItem]
  refine (Reads.peekValue hspaces hspace rest).done ?_
  split
  · next h => exact absurd (Option.some.inj h) hclose
  · next h => cases h
  · exact Reads.pure _ _

theorem reads_nextItem_more {before spaces : List Char} (hbefore : Spaces before)
    (hspaces : Spaces spaces) {c : Char} (hspace : isSpace c = false) (hclose : c ≠ ']')
    (rest : List Char) : Reads (nextItem false) (before ++ ',' :: spaces) true (c :: rest) := by
  rw [nextItem]
  refine (Reads.peekValue hbefore rfl _).bind ?_
  refine (Reads.take ',' _).bind ?_
  refine (Reads.peekValue hspaces hspace rest).done ?_
  split
  · next h => exact absurd (Option.some.inj h) hclose
  · exact Reads.pure _ _
  · next h => cases h

theorem reads_items_end (r : Reader α) {spaces : List Char} (hspaces : Spaces spaces) (fuel : Nat)
    (isFirst : Bool) (rest : List Char) :
    Reads (items r (fuel + 1) isFirst) spaces [] (']' :: rest) := by
  rw [items]
  exact (reads_nextItem_end hspaces isFirst rest).done (Reads.pure _ _)

/-- One item is read, and the others behind it. -/
theorem reads_item {r : Reader α} {isFirst : Bool} {fuel : Nat}
    {front value more rest : List Char} {a : α} {xs : List α}
    (hnext : ∀ {c rest}, isSpace c = false → c ≠ ']' →
      Reads (nextItem isFirst) front true (c :: rest))
    (hitem : ReadsItem r value a) (hends : EndsNumber (more ++ ']' :: rest))
    (hmore : Reads (items r fuel false) more xs (']' :: rest)) :
    Reads (items r (fuel + 1) isFirst) (front ++ (value ++ more)) (a :: xs) (']' :: rest) := by
  obtain ⟨⟨c, cs, rfl, hspace, hclose⟩, hread⟩ := hitem
  rw [items]
  refine (hnext hspace hclose).bind ?_
  refine (hread spaces_nil hends).bind ?_
  exact hmore.done (Reads.pure _ _)

/-- Items behind the first are read up to the closing bracket. -/
theorem reads_items {r : Reader α} {values : List (List Char)} {xs : List α} {more : List Char}
    (h : List.Forall₂ (ReadsItem r) values xs) (hmore : Separated ItemText values more)
    {fuel : Nat} (hfuel : more.length ≤ fuel) (rest : List Char) :
    Reads (items r (fuel + 1) false) more xs (']' :: rest) := by
  induction hmore generalizing xs fuel with
  | nil hspaces =>
    cases h
    exact reads_items_end r hspaces fuel false rest
  | @cons before part more value values hbefore hpart hmore ih =>
    obtain @⟨spaces, hspaces⟩ := hpart
    obtain ⟨_, _, hitem, hitems, rfl⟩ := List.forall₂_cons_left_iff.mp h
    have htext : before ++ ',' :: (spaces ++ value ++ more) =
        before ++ ',' :: spaces ++ (value ++ more) := by
      simp
    have hends : EndsNumber (more ++ ']' :: rest) :=
      hmore.endsNumber (endsNumber_closing (.inl rfl) rest)
    simp only [List.length_append, List.length_cons] at hfuel
    obtain ⟨fuel, rfl⟩ : ∃ n, fuel = n + 1 := Nat.exists_eq_succ_of_ne_zero (by omega)
    rw [htext]
    exact reads_item (reads_nextItem_more hbefore hspaces · · _) hitem hends
      (ih hitems (by omega))

theorem reads_items_first {r : Reader α} {values : List (List Char)} {xs : List α}
    {text : List Char} (h : List.Forall₂ (ReadsItem r) values xs) (htext : ListText values text) :
    ∃ inner, text = '[' :: (inner ++ [']']) ∧ ∀ fuel rest, inner.length ≤ fuel →
      Reads (items r (fuel + 1) true) inner xs (']' :: rest) := by
  cases htext with
  | @empty inner hspaces =>
    cases h
    exact ⟨inner, rfl, fun fuel rest _ => reads_items_end r hspaces fuel true rest⟩
  | @cons part more value _ hpart hmore =>
    obtain @⟨spaces, hspaces⟩ := hpart
    obtain ⟨_, _, hitem, hitems, rfl⟩ := List.forall₂_cons_left_iff.mp h
    refine ⟨spaces ++ (value ++ more), by simp, fun fuel rest hfuel => ?_⟩
    have hends : EndsNumber (more ++ ']' :: rest) :=
      hmore.endsNumber (endsNumber_closing (.inl rfl) rest)
    have hpos := hitem.1.length_pos
    simp only [List.length_append] at hfuel
    obtain ⟨fuel, rfl⟩ : ∃ n, fuel = n + 1 := Nat.exists_eq_succ_of_ne_zero (by omega)
    exact reads_item (reads_nextItem_first hspaces · · _) hitem hends
      (reads_items hitems hmore (by omega) rest)

/-- **A list is read item by item.** -/
theorem readsValue_listOf {r : Reader α} {values : List (List Char)} {xs : List α}
    {text : List Char} (h : List.Forall₂ (ReadsItem r) values xs) (htext : ListText values text) :
    ReadsValue (listOf r) text xs := by
  obtain ⟨inner, rfl, hitems⟩ := reads_items_first h htext
  intro spaces rest hspaces _
  rw [listOf]
  refine (Reads.peekValue hspaces rfl _).bind ?_
  refine reads_enclosed (fun offset => ⟨_, rfl⟩) ?_
  exact reads_fueled (r := fun fuel => items r fuel true) Except.ok fun fuel => hitems fuel rest

theorem readsItem_text {s : String} {value : List Char} (h : Spells (.string s) value) :
    ReadsItem text value s := by
  cases h with
  | string h => exact ⟨h.begins, readsValue_stringAs _ h⟩

theorem readsValue_texts {xs : List String} {value : List Char}
    (h : Spells (.array (xs.map .string)) value) : ReadsValue (listOf text) value xs := by
  cases h with
  | array hitems htext =>
    rw [List.forall₂_map_left_iff] at hitems
    exact readsValue_listOf (hitems.flip.imp fun _ _ h => readsItem_text h) htext

/-! ## Records -/

/-- What the members of an object make of a state when the keys in `seen` have been read. A key
that is no setting may come with any value, and more than once. -/
inductive Changes (settings : List (Setting σ)) :
    (seen : List String) → List (String × List Char) → σ → σ → Prop
  | done {seen : List String} {s : σ} : Changes settings seen [] s s
  | known {seen : List String} {key : String} {value : List Char} {setting : Setting σ}
      {change : σ → σ} {members : List (String × List Char)} {s t : σ}
      (hfind : settings.find? (·.key == key) = some setting) (hseen : key ∉ seen)
      (hread : ReadsValue setting.read value change)
      (hmore : Changes settings (key :: seen) members (change s) t) :
      Changes settings seen ((key, value) :: members) s t
  | unknown {seen : List String} {key : String} {value : List Char}
      {members : List (String × List Char)} {s t : σ}
      (hfind : settings.find? (·.key == key) = none) (hvalue : WellFormed value)
      (hmore : Changes settings seen members s t) :
      Changes settings seen ((key, value) :: members) s t

theorem reads_nextKey_end {spaces : List Char} (hspaces : Spaces spaces) (isFirst : Bool)
    (rest : List Char) : Reads (nextKey isFirst) spaces none ('\x7d' :: rest) := by
  rw [nextKey]
  exact (Reads.peekValue hspaces rfl rest).done (Reads.pure _ _)

theorem reads_nextKey_first {spaces text : List Char} {key : String} (hspaces : Spaces spaces)
    (hkey : Literal key text) (rest : List Char) :
    Reads (nextKey true) (spaces ++ text) (some key) rest := by
  obtain ⟨hspelled⟩ := hkey
  rw [nextKey]
  refine (Reads.peekValue hspaces rfl _).bind ?_
  refine (Reads.take '"' _).bind ?_
  exact (Reads.spelled hspelled rest).done (Reads.pure _ _)

theorem reads_nextKey_more {before spaces text : List Char} {key : String}
    (hbefore : Spaces before) (hspaces : Spaces spaces) (hkey : Literal key text)
    (rest : List Char) :
    Reads (nextKey false) (before ++ ',' :: (spaces ++ text)) (some key) rest := by
  obtain ⟨hspelled⟩ := hkey
  rw [nextKey]
  refine (Reads.peekValue hbefore rfl _).bind ?_
  refine (Reads.take ',' _).bind ?_
  refine (Reads.peekValue hspaces rfl _).bind ?_
  refine (Reads.take '"' _).bind ?_
  exact (Reads.spelled hspelled rest).done (Reads.pure _ _)

namespace Changes

variable {settings : List (Setting σ)} {seen : List String} {key : String} {value : List Char}
  {members : List (String × List Char)} {s t : σ}

/-- One member is read with its colon, and the others behind it. -/
theorem reads_member (h : Changes settings seen ((key, value) :: members) s t) {isFirst : Bool}
    {front behind spaces more rest : List Char} {fuel : Nat}
    (hkey : ∀ rest, Reads (nextKey isFirst) front (some key) rest) (hbehind : Spaces behind)
    (hspaces : Spaces spaces) (hends : EndsNumber (more ++ rest))
    (hmore : ∀ {seen : List String} {s : σ}, Changes settings seen members s t →
      Reads (Record.members settings fuel false seen s) more (.ok t) rest) :
    Reads (Record.members settings (fuel + 1) isFirst seen s)
      (front ++ ((behind ++ [':']) ++ ((spaces ++ value) ++ more))) (.ok t) rest := by
  rw [Record.members]
  refine (hkey _).bind ?_
  dsimp only
  cases h with
  | known hfind hseen hread hchanges =>
    rw [hfind]
    dsimp only
    rw [if_neg hseen]
    refine (reads_colon hbehind _).bind ?_
    refine (hread hspaces hends).bind ?_
    exact hmore hchanges
  | unknown hfind hvalue hchanges =>
    rw [hfind]
    refine (reads_colon hbehind _).bind ?_
    refine (readsValue_skipAny hvalue hspaces hends).bind ?_
    exact hmore hchanges

theorem reads_members_end {spaces : List Char} (hspaces : Spaces spaces) (fuel : Nat)
    (isFirst : Bool) (rest : List Char) :
    Reads (Record.members settings (fuel + 1) isFirst seen s) spaces (.ok s) ('\x7d' :: rest) := by
  rw [Record.members]
  exact (reads_nextKey_end hspaces isFirst rest).done (Reads.pure _ _)

/-- Members behind the first are read up to the closing bracket. -/
theorem reads_members {more : List Char} (h : Changes settings seen members s t)
    (hmore : Separated KeyedText members more) {fuel : Nat} (hfuel : more.length ≤ fuel)
    (rest : List Char) :
    Reads (Record.members settings (fuel + 1) false seen s) more (.ok t) ('\x7d' :: rest) := by
  induction hmore generalizing seen s fuel with
  | nil hspaces =>
    cases h
    exact reads_members_end hspaces fuel false rest
  | @cons before part more member members hbefore hpart hmore ih =>
    obtain @⟨front, key, behind, spaces, hfront, hkey, hbehind, hspaces⟩ := hpart
    have htext : before ++ ',' :: (front ++ (key ++ (behind ++ ':' :: (spaces ++ member.2))) ++
        more) = before ++ ',' :: (front ++ key) ++ ((behind ++ [':']) ++
          ((spaces ++ member.2) ++ more)) := by
      simp
    have hends : EndsNumber (more ++ '\x7d' :: rest) :=
      hmore.endsNumber (endsNumber_closing (.inr rfl) rest)
    simp only [List.length_append, List.length_cons] at hfuel
    obtain ⟨fuel, rfl⟩ : ∃ n, fuel = n + 1 := Nat.exists_eq_succ_of_ne_zero (by omega)
    rw [htext]
    exact h.reads_member (reads_nextKey_more hbefore hfront hkey) hbehind hspaces hends
      fun hchanges => ih hchanges (by omega)

theorem reads_members_first {text : List Char} (h : Changes settings seen members s t)
    (htext : ObjectText members text) :
    ∃ inner, text = '\x7b' :: (inner ++ ['\x7d']) ∧ ∀ fuel rest, inner.length ≤ fuel →
      Reads (Record.members settings (fuel + 1) true seen s) inner (.ok t) ('\x7d' :: rest) := by
  cases htext with
  | @empty inner hspaces =>
    cases h
    exact ⟨inner, rfl, fun fuel rest _ => reads_members_end hspaces fuel true rest⟩
  | @cons part more member members hpart hmore =>
    obtain @⟨front, key, behind, spaces, hfront, hkey, hbehind, hspaces⟩ := hpart
    refine ⟨(front ++ key) ++ ((behind ++ [':']) ++ ((spaces ++ member.2) ++ more)), by simp,
      fun fuel rest hfuel => ?_⟩
    have hends : EndsNumber (more ++ '\x7d' :: rest) :=
      hmore.endsNumber (endsNumber_closing (.inr rfl) rest)
    simp only [List.length_append, List.length_cons] at hfuel
    obtain ⟨fuel, rfl⟩ : ∃ n, fuel = n + 1 := Nat.exists_eq_succ_of_ne_zero (by omega)
    exact h.reads_member (reads_nextKey_first hfront hkey) hbehind hspaces hends
      fun hchanges => hchanges.reads_members hmore (by omega) rest

/-- **A record is read off its members**, in whatever text they stand. -/
theorem readsValue {r : Record σ α} {text : List Char} {a : α}
    (h : Changes r.settings [] members r.initial t) (hkeys : r.ofKeys t = .ok a)
    (htext : ObjectText members text) : ReadsValue r.read text a := by
  obtain ⟨inner, rfl, hmembers⟩ := h.reads_members_first htext
  intro spaces rest hspaces _
  rw [Record.read]
  refine (Reads.peekValue hspaces rfl _).bind ?_
  refine reads_enclosed (fun offset => ⟨_, rfl⟩) ?_
  rw [← hkeys]
  exact reads_fueled (r := fun fuel => Record.members r.settings fuel true [] r.initial)
    (fun x => x.bind r.ofKeys) fun fuel => hmembers fuel rest

end Changes

/-! ## Whole texts -/

theorem ReadsValue.readAll {r : Reader α} {value : List Char} {source : String} {a : α}
    (h : ReadsValue r value a) (hsource : Surrounded value source.toList) :
    readAll r source = .ok a := by
  rw [Json.readAll, Cursor.start]
  generalize source.toList = text at hsource ⊢
  obtain @⟨before, behind, hbefore, hbehind⟩ := hsource
  have hends : EndsNumber behind := by
    have hnil := endsNumber_spaces hbehind endsNumber_nil
    rwa [List.append_nil] at hnil
  obtain ⟨offset, hread⟩ := h hbefore hends 0
  have hrest : ((⟨behind, offset⟩ : Cursor).skip isSpace).rest = [] := by
    rw [Cursor.skip, List.takeWhile_eq_self_iff.mpr hbehind, Cursor.advance]
    exact List.drop_length
  rw [← List.append_assoc, hread]
  dsimp only
  rw [if_pos hrest]

end PacketGen.Json
