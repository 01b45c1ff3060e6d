import PacketGen.Proofs.Brackets.Matching

/-!
# The first block behind a place

The search for a block is two searches, for the first opening bracket and then for its partner.
`FirstFrom` is what the first of them finds, here and wherever else a text is searched for the first
character of some kind; `FoundBlock` says what comes of the two.
-/

namespace PacketGen.Brackets

variable {α : Type} {text : List α} {start i j : Nat} {P : α → Prop}

/-! ## The first place with a property -/

/-- `i` is the first place from `start` on where the text has the property. -/
structure FirstFrom (text : List α) (start : Nat) (P : α → Prop) (i : Nat) : Prop where
  le : start ≤ i
  holds : ∃ x, text[i]? = some x ∧ P x
  first : ∀ j, start ≤ j → j < i → ∀ x, text[j]? = some x → ¬ P x

theorem FirstFrom.unique (h : FirstFrom text start P i) (h' : FirstFrom text start P j) :
    i = j := by
  obtain ⟨x, hx, hP⟩ := h.holds
  obtain ⟨y, hy, hP'⟩ := h'.holds
  rcases Nat.lt_trichotomy i j with hlt | heq | hgt
  · exact absurd hP (h'.first i h.le hlt x hx)
  · exact heq
  · exact absurd hP' (h.first j h'.le hgt y hy)

theorem findIdx?_drop_eq_some_iff {p : α → Bool} {n : Nat} :
    (text.drop start).findIdx? p = some n ↔ FirstFrom text start (p · = true) (start + n) := by
  rw [List.findIdx?_eq_some_iff_getElem]
  constructor
  · rintro ⟨hn, hp, hfirst⟩
    refine ⟨Nat.le_add_right _ _, ⟨_, ?_, hp⟩, fun j hle hlt x hx => ?_⟩
    · rw [← List.getElem?_drop, List.getElem?_eq_getElem hn]
    · obtain ⟨k, rfl⟩ := Nat.exists_eq_add_of_le hle
      have hk := hfirst k (by omega)
      rw [← List.getElem?_drop] at hx
      obtain ⟨-, rfl⟩ := List.getElem?_eq_some_iff.mp hx
      exact hk
  · rintro ⟨-, ⟨x, hx, hp⟩, hfirst⟩
    rw [← List.getElem?_drop] at hx
    obtain ⟨hn, rfl⟩ := List.getElem?_eq_some_iff.mp hx
    refine ⟨hn, hp, fun k hk => hfirst (start + k) (Nat.le_add_right _ _) (by omega) _ ?_⟩
    rw [← List.getElem?_drop, List.getElem?_eq_getElem]

theorem findIdx?_drop_eq_none_iff {p : α → Bool} :
    (text.drop start).findIdx? p = none ↔
      ∀ i, start ≤ i → ∀ x, text[i]? = some x → ¬ p x = true := by
  rw [List.findIdx?_eq_none_iff]
  constructor
  · intro h i hle x hx
    obtain ⟨k, rfl⟩ := Nat.exists_eq_add_of_le hle
    rw [← List.getElem?_drop] at hx
    rw [h x (List.mem_of_getElem? hx)]
    exact Bool.false_ne_true
  · intro h x hx
    obtain ⟨k, hk⟩ := List.mem_iff_getElem?.mp hx
    rw [List.getElem?_drop] at hk
    exact Bool.eq_false_iff.mpr (h _ (Nat.le_add_right _ _) x hk)

/-! ## Its block -/

variable [DecidableEq α] {b : Brackets α}

/-- What is found from `start` on: no opening bracket, or the first one, without or with the one
that closes it. -/
inductive FoundBlock (b : Brackets α) (text : List α) (start : Nat) : Block → Prop
  | absent : (∀ i, start ≤ i → ∀ x, text[i]? = some x → x ≠ b.opening) →
      FoundBlock b text start .absent
  | unclosed {opening : Nat} : FirstFrom text start (· = b.opening) opening →
      b.match? text opening = none → FoundBlock b text start (.unclosed opening)
  | closed {opening close : Nat} : FirstFrom text start (· = b.opening) opening →
      b.match? text opening = some close → FoundBlock b text start (.closed (opening + 1) close)

theorem foundBlock_findBlock (b : Brackets α) (text : List α) (start : Nat) :
    b.FoundBlock text start (b.findBlock text start) := by
  rw [findBlock]
  cases hfirst : (text.drop start).findIdx? (· = b.opening) with
  | none =>
    refine .absent fun i hle x hx => ?_
    simpa using findIdx?_drop_eq_none_iff.mp hfirst i hle x hx
  | some n =>
    have hopening : FirstFrom text start (· = b.opening) (start + n) := by
      simpa using findIdx?_drop_eq_some_iff.mp hfirst
    dsimp only
    cases hmatch : b.match? text (start + n) with
    | none => exact .unclosed hopening hmatch
    | some close => exact .closed hopening hmatch

theorem findBlock_of_absent (h : ∀ i, start ≤ i → ∀ x, text[i]? = some x → x ≠ b.opening) :
    b.findBlock text start = .absent := by
  generalize hresult : b.findBlock text start = result
  have hfound := hresult ▸ foundBlock_findBlock b text start
  cases hfound with
  | absent => rfl
  | unclosed hfirst | closed hfirst =>
    obtain ⟨x, hx, rfl⟩ := hfirst.holds
    exact absurd rfl (h _ hfirst.le _ hx)

theorem findBlock_of_first {opening : Nat} (h : FirstFrom text start (· = b.opening) opening) :
    b.findBlock text start =
      match b.match? text opening with
      | some close => .closed (opening + 1) close
      | none => .unclosed opening := by
  generalize hresult : b.findBlock text start = result
  have hfound := hresult ▸ foundBlock_findBlock b text start
  cases hfound with
  | absent hnone =>
    obtain ⟨x, hx, rfl⟩ := h.holds
    exact absurd rfl (hnone _ h.le _ hx)
  | unclosed hfirst hmatch | closed hfirst hmatch =>
    obtain rfl := h.unique hfirst
    rw [hmatch]

end PacketGen.Brackets
