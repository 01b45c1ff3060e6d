import PacketGen.Proofs.Brackets.Balanced

/-!
# The matching bracket, told without a scan

Which bracket closes another is a matter of counting: from the one through the other there are as
many opening as closing brackets, and up to any place between them more opening ones (`Pair`). The
scan finds that bracket, and nothing if there is none (`match?_eq_some_iff_pair`).

Counting and nesting are two ways to say that a text is balanced. `Closes pending` counts what a
text closes of the brackets opened before it; such a text is balanced stretches between closing
brackets (`Closes.exists_split`), so with nothing pending it is `Balanced`. The scan keeps the same
count, from one character to the next, which makes `closing?_eq_some_iff` an induction.

From a balanced text no bracket can reach out: one that is opened inside is closed inside
(`Balanced.exists_closing`).
-/

namespace PacketGen.Brackets

variable {α : Type} {b : Brackets α}

/-! ## A block in a text -/

/-- A place in a text is a cut through it. -/
theorem exists_split_of_getElem? {text : List α} {i : Nat} {x : α} (h : text[i]? = some x) :
    ∃ before after, text = before ++ x :: after ∧ before.length = i := by
  obtain ⟨hi, rfl⟩ := List.getElem?_eq_some_iff.mp h
  refine ⟨text.take i, text.drop (i + 1), ?_, List.length_take_of_le (Nat.le_of_lt hi)⟩
  rw [← List.drop_eq_getElem_cons, List.take_append_drop]

/-- The brackets at `start` and `close` enclose `inside`, between what is before and after them. -/
structure Encloses (b : Brackets α) (text : List α) (start close : Nat)
    (before inside after : List α) : Prop where
  eq : text = before ++ b.opening :: (inside ++ b.closing :: after)
  start_eq : start = before.length
  close_eq : close = start + 1 + inside.length

namespace Encloses

variable {text before inside after : List α} {start close : Nat}

theorem lt (h : b.Encloses text start close before inside after) : start < close := by
  have := h.close_eq
  omega

theorem opening (h : b.Encloses text start close before inside after) :
    text[start]? = some b.opening := by
  rw [h.eq, h.start_eq, List.getElem?_append_right (Nat.le_refl _), Nat.sub_self]
  rfl

theorem closing (h : b.Encloses text start close before inside after) :
    text[close]? = some b.closing := by
  have hclose : close = (before ++ b.opening :: inside).length := by
    rw [List.length_append, List.length_cons, h.close_eq, h.start_eq]
    omega
  have hregroup : text = before ++ b.opening :: inside ++ b.closing :: after := by
    rw [h.eq]
    simp
  rw [hregroup, hclose, List.getElem?_append_right (Nat.le_refl _), Nat.sub_self]
  rfl

theorem extract
    (h : b.Encloses text start close before inside after) :
    text.extract start (close + 1) = b.opening :: (inside ++ [b.closing]) ∧
      text.extract (start + 1) close = inside := by
  obtain ⟨rfl, rfl, rfl⟩ := h
  have hone : before.length + 1 = (before ++ [b.opening]).length := by simp
  have hregroup : before ++ b.opening :: (inside ++ b.closing :: after) =
      before ++ [b.opening] ++ (inside ++ b.closing :: after) := by simp
  have hwhole : before.length + 1 + inside.length + 1 - before.length =
      (b.opening :: (inside ++ [b.closing])).length := by
    simp only [List.length_cons, List.length_append, List.length_nil]
    omega
  have hsame : b.opening :: (inside ++ b.closing :: after) =
      b.opening :: (inside ++ [b.closing]) ++ after := by simp
  constructor
  · rw [List.extract_eq_take_drop, List.drop_left, hwhole, hsame, List.take_left]
  · rw [List.extract_eq_take_drop, Nat.add_sub_cancel_left, hone, hregroup, List.drop_left,
      List.take_left]

end Encloses

theorem exists_encloses {text : List α} {start close : Nat}
    (hopening : text[start]? = some b.opening) (hlt : start < close)
    (hclosing : text[close]? = some b.closing) :
    ∃ before inside after, b.Encloses text start close before inside after := by
  obtain ⟨before, rest, rfl, rfl⟩ := exists_split_of_getElem? hopening
  obtain ⟨k, rfl⟩ := Nat.exists_eq_add_of_lt hlt
  rw [List.getElem?_append_right (by omega), Nat.add_assoc, Nat.add_sub_cancel_left,
    List.getElem?_cons_succ] at hclosing
  obtain ⟨inside, after, rfl, rfl⟩ := exists_split_of_getElem? hclosing
  exact ⟨before, inside, after, rfl, rfl, Nat.add_right_comm _ _ _⟩

/-- A beginning of a block, short of its closing bracket, is the opening one and a beginning of
what the block holds. -/
theorem forall_beginning_iff {inside : List α} {P : List α → Prop} {o c : α} :
    (∀ p, p <+: o :: (inside ++ [c]) → p ≠ [] → p ≠ o :: (inside ++ [c]) → P p) ↔
      ∀ p, p <+: inside → P (o :: p) := by
  constructor
  · intro h p hp
    refine h _ (List.cons_prefix_cons.mpr ⟨rfl, hp.trans (List.prefix_append _ _)⟩)
      (List.cons_ne_nil _ _) fun heq => ?_
    have hlength := hp.length_le
    rw [(List.cons.inj heq).2, List.length_append, List.length_singleton] at hlength
    omega
  · intro h p hp hne hwhole
    rcases List.prefix_cons_iff.mp hp with rfl | ⟨q, rfl, hq⟩
    · exact absurd rfl hne
    · rcases List.prefix_concat_iff.mp hq with rfl | hq
      · exact absurd rfl hwhole
      · exact h q hq

variable [DecidableEq α] {pending : Nat} {x : α} {xs : List α}

/-! ## Counting -/

/-- Besides its own brackets a text closes `pending` more, and never more than that on the way. -/
structure Closes (b : Brackets α) (pending : Nat) (xs : List α) : Prop where
  counts : xs.count b.closing = pending + xs.count b.opening
  within : ∀ p, p <+: xs → p.count b.closing ≤ pending + p.count b.opening

theorem closes_nil : b.Closes pending [] ↔ pending = 0 := by
  constructor
  · intro h
    have hcounts := h.counts
    simp only [List.count_nil] at hcounts
    omega
  · rintro rfl
    refine ⟨rfl, fun p hp => ?_⟩
    rw [List.prefix_nil.mp hp]
    exact Nat.le_refl _

theorem closes_cons : b.Closes pending (x :: xs) ↔
    (x :: xs).count b.closing = pending + (x :: xs).count b.opening ∧
      ∀ p, p <+: xs → (x :: p).count b.closing ≤ pending + (x :: p).count b.opening := by
  constructor
  · intro h
    exact ⟨h.counts, fun p hp => h.within _ (List.cons_prefix_cons.mpr ⟨rfl, hp⟩)⟩
  · rintro ⟨hcounts, hwithin⟩
    refine ⟨hcounts, fun p hp => ?_⟩
    rcases List.prefix_cons_iff.mp hp with rfl | ⟨q, rfl, hq⟩
    · exact Nat.zero_le _
    · exact hwithin q hq

/-- One more bracket to close behind an opening one. -/
theorem closes_opening (hne : b.opening ≠ b.closing) :
    b.Closes pending (b.opening :: xs) ↔ b.Closes (pending + 1) xs := by
  have hshift (n m : Nat) : n = pending + (m + 1) ↔ n = pending + 1 + m := by omega
  have hshift' (n m : Nat) : n ≤ pending + (m + 1) ↔ n ≤ pending + 1 + m := by omega
  simp only [closes_cons, List.count_cons_self, List.count_cons_of_ne hne, hshift, hshift']
  exact ⟨fun h => ⟨h.1, h.2⟩, fun h => ⟨h.counts, h.within⟩⟩

/-- One bracket less to close behind a closing one. -/
theorem closes_closing (hne : b.opening ≠ b.closing) :
    b.Closes (pending + 1) (b.closing :: xs) ↔ b.Closes pending xs := by
  have hshift (n m : Nat) : n + 1 = pending + 1 + m ↔ n = pending + m := by omega
  have hshift' (n m : Nat) : n + 1 ≤ pending + 1 + m ↔ n ≤ pending + m := by omega
  simp only [closes_cons, List.count_cons_self, List.count_cons_of_ne hne.symm, hshift, hshift']
  exact ⟨fun h => ⟨h.1, h.2⟩, fun h => ⟨h.counts, h.within⟩⟩

theorem not_closes_closing (hne : b.opening ≠ b.closing) : ¬ b.Closes 0 (b.closing :: xs) := by
  intro h
  have hfirst := h.within [b.closing] (List.cons_prefix_cons.mpr ⟨rfl, List.nil_prefix⟩)
  rw [List.count_singleton_self, List.count_cons_of_ne hne.symm] at hfirst
  exact absurd hfirst (by simp)

theorem closes_other (hx : x ≠ b.opening) (hx' : x ≠ b.closing) :
    b.Closes pending (x :: xs) ↔ b.Closes pending xs := by
  simp only [closes_cons, List.count_cons_of_ne hx, List.count_cons_of_ne hx']
  exact ⟨fun h => ⟨h.1, h.2⟩, fun h => ⟨h.counts, h.within⟩⟩

/-- What is behind some part of a text has to close what is open there. -/
theorem Closes.drop {ys : List α} (h : b.Closes pending (xs ++ ys)) :
    b.Closes (pending + xs.count b.opening - xs.count b.closing) ys := by
  have hxs := h.within xs (List.prefix_append xs ys)
  refine ⟨?_, fun p hp => ?_⟩
  · have hcounts := h.counts
    rw [List.count_append, List.count_append] at hcounts
    omega
  · have hwithin := h.within (xs ++ p) ((List.prefix_append_right_inj xs).mpr hp)
    rw [List.count_append, List.count_append] at hwithin
    omega

/-! ## Counting and nesting -/

theorem Balanced.closes (hne : b.opening ≠ b.closing) (h : b.Balanced xs) : b.Closes 0 xs := by
  -- More generally, a balanced stretch changes nothing about what is to be closed.
  have hskip : ∀ {pending : Nat} {rest : List α}, b.Closes pending rest →
      b.Closes pending (xs ++ rest) := by
    induction h with
    | nil => exact fun hrest => hrest
    | other hx hx' _ ih => exact fun hrest => (closes_other hx hx').mpr (ih hrest)
    | block _ _ ihin ihys =>
      intro pending rest hrest
      rw [List.cons_append, List.append_assoc, List.cons_append, closes_opening hne]
      exact ihin ((closes_closing hne).mpr (ihys hrest))
  have hnil := hskip (closes_nil.mpr rfl)
  rwa [List.append_nil] at hnil

/-- A text with a bracket to close does so behind a balanced stretch. -/
theorem Closes.exists_split (hne : b.opening ≠ b.closing) (h : b.Closes (pending + 1) xs) :
    ∃ ys zs, xs = ys ++ b.closing :: zs ∧ b.Balanced ys ∧ b.Closes pending zs := by
  induction hlength : xs.length using Nat.strongRecOn generalizing xs pending with
  | ind n ih =>
    cases xs with
    | nil => exact absurd (closes_nil.mp h) (Nat.succ_ne_zero _)
    | cons x xs =>
      rw [List.length_cons] at hlength
      by_cases hx : x = b.opening
      · -- The bracket that is opened here is closed first, and then the pending one.
        subst hx
        obtain ⟨inside, behind, rfl, hinside, hbehind⟩ :=
          ih xs.length (by omega) ((closes_opening hne).mp h) rfl
        rw [List.length_append, List.length_cons] at hlength
        obtain ⟨ys, zs, rfl, hys, hzs⟩ := ih behind.length (by omega) hbehind rfl
        exact ⟨b.opening :: (inside ++ b.closing :: ys), zs, by simp, .block hinside hys, hzs⟩
      · by_cases hx' : x = b.closing
        · subst hx'
          exact ⟨[], xs, rfl, .nil, (closes_closing hne).mp h⟩
        · obtain ⟨ys, zs, rfl, hys, hzs⟩ :=
            ih xs.length (by omega) ((closes_other hx hx').mp h) rfl
          exact ⟨x :: ys, zs, rfl, .other hx hx' hys, hzs⟩

/-- **A text is balanced when it counts out**: as many closing as opening brackets in all, and not
more in any beginning. -/
theorem balanced_iff_closes (hne : b.opening ≠ b.closing) : b.Balanced xs ↔ b.Closes 0 xs := by
  refine ⟨Balanced.closes hne, fun h => ?_⟩
  induction hlength : xs.length using Nat.strongRecOn generalizing xs with
  | ind n ih =>
    cases xs with
    | nil => exact .nil
    | cons x xs =>
      rw [List.length_cons] at hlength
      by_cases hx : x = b.opening
      · subst hx
        obtain ⟨inside, behind, rfl, hinside, hbehind⟩ :=
          ((closes_opening hne).mp h).exists_split hne
        rw [List.length_append, List.length_cons] at hlength
        exact .block hinside (ih behind.length (by omega) hbehind rfl)
      · by_cases hx' : x = b.closing
        · subst hx'
          exact absurd h (not_closes_closing hne)
        · exact .other hx hx' (ih xs.length (by omega) ((closes_other hx hx').mp h) rfl)

/-- A bracket that is opened in a balanced text is closed in it. -/
theorem Balanced.exists_closing (hne : b.opening ≠ b.closing) {ys : List α}
    (h : b.Balanced (xs ++ b.opening :: ys)) :
    ∃ inside rest, ys = inside ++ b.closing :: rest ∧ b.Balanced inside := by
  have hrest := (closes_opening hne).mp (h.closes hne).drop
  obtain ⟨inside, rest, rfl, hinside, -⟩ := hrest.exists_split hne
  exact ⟨inside, rest, rfl, hinside⟩

/-! ## The scan -/

theorem closing?_eq_some_iff (hne : b.opening ≠ b.closing) {n : Nat} :
    b.closing? pending xs = some n ↔
      ∃ inside rest, xs = inside ++ b.closing :: rest ∧ inside.length = n ∧
        b.Closes pending inside := by
  constructor
  · intro h
    fun_induction closing? b pending xs generalizing n with
    | case1 => cases h
    | case2 pending xs ih =>
      obtain ⟨n, hn, rfl⟩ := Option.map_eq_some_iff.mp h
      obtain ⟨inside, rest, rfl, rfl, hinside⟩ := ih hn
      exact ⟨b.opening :: inside, rest, rfl, rfl, (closes_opening hne).mpr hinside⟩
    | case3 xs hx =>
      cases h
      exact ⟨[], xs, rfl, rfl, closes_nil.mpr rfl⟩
    | case4 xs hx pending ih =>
      obtain ⟨n, hn, rfl⟩ := Option.map_eq_some_iff.mp h
      obtain ⟨inside, rest, rfl, rfl, hinside⟩ := ih hn
      exact ⟨b.closing :: inside, rest, rfl, rfl, (closes_closing hne).mpr hinside⟩
    | case5 pending x xs hx hx' ih =>
      obtain ⟨n, hn, rfl⟩ := Option.map_eq_some_iff.mp h
      obtain ⟨inside, rest, rfl, rfl, hinside⟩ := ih hn
      exact ⟨x :: inside, rest, rfl, rfl, (closes_other hx hx').mpr hinside⟩
  · rintro ⟨inside, rest, rfl, rfl, h⟩
    induction inside generalizing pending with
    | nil =>
      obtain rfl := closes_nil.mp h
      exact closing?_closing_zero hne rest
    | cons x inside ih =>
      rw [List.cons_append, List.length_cons]
      by_cases hx : x = b.opening
      · subst hx
        rw [closing?_opening, ih ((closes_opening hne).mp h)]
        rfl
      · by_cases hx' : x = b.closing
        · subst hx'
          cases pending with
          | zero => exact absurd h (not_closes_closing hne)
          | succ pending =>
            rw [closing?_closing_succ hne, ih ((closes_closing hne).mp h)]
            rfl
        · rw [closing?_other hx hx', ih ((closes_other hx hx').mp h)]
          rfl

/-- **The scan finds the bracket behind the balanced text**, and nothing else. -/
theorem match?_eq_some_iff (hne : b.opening ≠ b.closing) {text : List α} {start close : Nat} :
    b.match? text start = some close ↔
      ∃ before inside after, b.Encloses text start close before inside after ∧
        b.Balanced inside := by
  constructor
  · intro h
    unfold match? at h
    split at h
    · cases h
    · next x xs hdrop =>
      split at h
      · next hx =>
        subst hx
        obtain ⟨n, hn, rfl⟩ := Option.map_eq_some_iff.mp h
        obtain ⟨inside, after, rfl, rfl, hinside⟩ := (closing?_eq_some_iff hne).mp hn
        have hstart : start ≤ text.length := by
          have hlength := congrArg List.length hdrop
          rw [List.length_drop, List.length_cons] at hlength
          omega
        refine ⟨text.take start, inside, after, ⟨?_, ?_, rfl⟩,
          (balanced_iff_closes hne).mpr hinside⟩
        · rw [← hdrop, List.take_append_drop]
        · rw [List.length_take_of_le hstart]
      · cases h
  · rintro ⟨before, inside, after, ⟨rfl, rfl, rfl⟩, hinside⟩
    exact match?_of_balanced hne hinside before after

/-! ## Blocks within blocks -/

theorem match?_opening (hne : b.opening ≠ b.closing) {text : List α} {start close : Nat}
    (h : b.match? text start = some close) : text[start]? = some b.opening := by
  obtain ⟨_, _, _, hsplit, -⟩ := (match?_eq_some_iff hne).mp h
  exact hsplit.opening

theorem match?_closing (hne : b.opening ≠ b.closing) {text : List α} {start close : Nat}
    (h : b.match? text start = some close) : text[close]? = some b.closing := by
  obtain ⟨_, _, _, hsplit, -⟩ := (match?_eq_some_iff hne).mp h
  exact hsplit.closing

theorem match?_lt (hne : b.opening ≠ b.closing) {text : List α} {start close : Nat}
    (h : b.match? text start = some close) : start < close := by
  obtain ⟨_, _, _, hsplit, -⟩ := (match?_eq_some_iff hne).mp h
  exact hsplit.lt

/-- **A bracket that is opened in a block is closed in it.** -/
theorem match?_nested (hne : b.opening ≠ b.closing) {text : List α} {start close i : Nat}
    (h : b.match? text start = some close) (hstart : start < i) (hclose : i < close)
    (hopening : text[i]? = some b.opening) : ∃ j, b.match? text i = some j ∧ j < close := by
  obtain ⟨before, inside, after, ⟨rfl, rfl, rfl⟩, hbalanced⟩ := (match?_eq_some_iff hne).mp h
  obtain ⟨k, rfl⟩ := Nat.exists_eq_add_of_lt hstart
  have hk : k < inside.length := by omega
  rw [List.getElem?_append_right (by omega), Nat.add_assoc, Nat.add_sub_cancel_left,
    List.getElem?_cons_succ, List.getElem?_append_left hk] at hopening
  obtain ⟨as, bs, rfl, rfl⟩ := exists_split_of_getElem? hopening
  obtain ⟨inner, rest, rfl, hinner⟩ := hbalanced.exists_closing hne
  have hregroup : before ++ b.opening ::
      (as ++ b.opening :: (inner ++ b.closing :: rest) ++ b.closing :: after) =
      before ++ b.opening :: as ++
        b.opening :: (inner ++ b.closing :: (rest ++ b.closing :: after)) := by simp
  have hplace : before.length + as.length + 1 = (before ++ b.opening :: as).length := by
    rw [List.length_append, List.length_cons, Nat.add_assoc]
  rw [hregroup, hplace, match?_of_balanced hne hinner]
  refine ⟨_, rfl, ?_⟩
  simp only [List.length_append, List.length_cons]
  omega

/-- Two blocks of a text are the same, or one is behind the other, or one is inside the other. -/
theorem match?_laminar (hne : b.opening ≠ b.closing) {text : List α} {i j i' j' : Nat}
    (h : b.match? text i = some j) (h' : b.match? text i' = some j') :
    (i = i' ∧ j = j') ∨ j < i' ∨ j' < i ∨ (i < i' ∧ j' < j) ∨ (i' < i ∧ j < j') := by
  -- Of two opening brackets the later one is behind the other's closing one, or before it.
  have hlater {i j i' j' : Nat} (h : b.match? text i = some j) (h' : b.match? text i' = some j')
      (hlt : i < i') : j < i' ∨ j' < j := by
    rcases Nat.lt_trichotomy j i' with hbehind | rfl | hinside
    · exact Or.inl hbehind
    · have hclosing := match?_closing hne h
      rw [match?_opening hne h', Option.some_inj] at hclosing
      exact absurd hclosing hne
    · obtain ⟨j'', hj'', hlt'⟩ := match?_nested hne h hlt hinside (match?_opening hne h')
      rw [h', Option.some_inj] at hj''
      exact Or.inr (hj'' ▸ hlt')
  rcases Nat.lt_trichotomy i i' with hlt | rfl | hlt
  · rcases hlater h h' hlt with hbehind | hinside
    · exact Or.inr (Or.inl hbehind)
    · exact Or.inr (Or.inr (Or.inr (Or.inl ⟨hlt, hinside⟩)))
  · rw [h, Option.some_inj] at h'
    exact Or.inl ⟨rfl, h'⟩
  · rcases hlater h' h hlt with hbehind | hinside
    · exact Or.inr (Or.inr (Or.inl hbehind))
    · exact Or.inr (Or.inr (Or.inr (Or.inr ⟨hlt, hinside⟩)))

/-! ## The bracket that closes another -/

/-- The bracket at `start` is closed by the one at `close`: from the one through the other the
brackets count out, and up to no place before that. -/
structure Pair (b : Brackets α) (text : List α) (start close : Nat) : Prop where
  opening : text[start]? = some b.opening
  lt : start < close
  closing : text[close]? = some b.closing
  counts : (text.extract start (close + 1)).count b.opening =
    (text.extract start (close + 1)).count b.closing
  deeper : ∀ p, p <+: text.extract start (close + 1) → p ≠ [] →
    p ≠ text.extract start (close + 1) → p.count b.closing < p.count b.opening

/-- A pair of brackets counts out just when the text between them is balanced. -/
theorem pair_iff_balanced (hne : b.opening ≠ b.closing) {text : List α} {start close : Nat} :
    b.Pair text start close ↔
      text[start]? = some b.opening ∧ start < close ∧ text[close]? = some b.closing ∧
        b.Balanced (text.extract (start + 1) close) := by
  have hcounts (hopening : text[start]? = some b.opening) (hlt : start < close)
      (hclosing : text[close]? = some b.closing) :
      (text.extract start (close + 1)).count b.opening =
          (text.extract start (close + 1)).count b.closing ∧
        (∀ p, p <+: text.extract start (close + 1) → p ≠ [] →
          p ≠ text.extract start (close + 1) → p.count b.closing < p.count b.opening) ↔
      b.Balanced (text.extract (start + 1) close) := by
    obtain ⟨_, inside, _, hsplit⟩ := exists_encloses hopening hlt hclosing
    rw [hsplit.extract.1, hsplit.extract.2, forall_beginning_iff, balanced_iff_closes hne]
    simp only [List.count_cons_self, List.count_append, List.count_cons_of_ne hne,
      List.count_cons_of_ne hne.symm, List.count_nil, Nat.lt_succ_iff]
    constructor
    · rintro ⟨hcounts, hdeeper⟩
      exact ⟨by omega, fun p hp => by have := hdeeper p hp; omega⟩
    · intro h
      have hcounts := h.counts
      exact ⟨by omega, fun p hp => by have := h.within p hp; omega⟩
  constructor
  · intro h
    exact ⟨h.opening, h.lt, h.closing, (hcounts h.opening h.lt h.closing).mp ⟨h.counts, h.deeper⟩⟩
  · rintro ⟨hopening, hlt, hclosing, hbalanced⟩
    obtain ⟨hcounts, hdeeper⟩ := (hcounts hopening hlt hclosing).mpr hbalanced
    exact ⟨hopening, hlt, hclosing, hcounts, hdeeper⟩

theorem match?_eq_some_iff_pair (hne : b.opening ≠ b.closing) {text : List α}
    {start close : Nat} : b.match? text start = some close ↔ b.Pair text start close := by
  rw [match?_eq_some_iff hne, pair_iff_balanced hne]
  constructor
  · rintro ⟨before, inside, after, h, hinside⟩
    exact ⟨h.opening, h.lt, h.closing, h.extract.2 ▸ hinside⟩
  · rintro ⟨hopening, hlt, hclosing, hbalanced⟩
    obtain ⟨before, inside, after, hsplit⟩ := exists_encloses hopening hlt hclosing
    exact ⟨before, inside, after, hsplit, hsplit.extract.2 ▸ hbalanced⟩

theorem match?_eq_none_iff_pair (hne : b.opening ≠ b.closing) {text : List α} {start : Nat} :
    b.match? text start = none ↔ ∀ close, ¬ b.Pair text start close := by
  rw [Option.eq_none_iff_forall_ne_some]
  exact forall_congr' fun close => not_congr (match?_eq_some_iff_pair hne)

/-! ## The depth as a counter -/

/-- The scan as a loop that goes through a text with its depth and its place; `none` when the depth
would have to be lowered below zero. -/
def scan? (b : Brackets α) : (depth index : Nat) → List α → Option (Option Nat)
  | _, _, [] => some none
  | depth, index, x :: xs =>
    if x = b.opening then b.scan? (depth + 1) (index + 1) xs
    else if x = b.closing then
      match depth with
      | 0 => none
      | depth + 1 => if depth = 0 then some (some index) else b.scan? depth (index + 1) xs
    else b.scan? depth (index + 1) xs

/-- The loop from an opening bracket on, with no bracket open before it. -/
def matchCounting? (b : Brackets α) (text : List α) (start : Nat) : Option (Option Nat) :=
  if text[start]? = some b.opening then b.scan? 0 start (text.drop start) else some none

/-- Behind an opening bracket the depth stays above zero until that bracket is closed. -/
theorem scan?_succ (b : Brackets α) (pending index : Nat) (xs : List α) :
    b.scan? (pending + 1) index xs = some ((b.closing? pending xs).map (index + ·)) := by
  have hmap (index : Nat) (r : Option Nat) :
      (r.map (· + 1)).map (index + ·) = r.map (index + 1 + ·) := by
    rw [Option.map_map]
    congr 1
    funext n
    exact (Nat.add_right_comm index 1 n).symm
  induction xs generalizing pending index with
  | nil => rfl
  | cons x xs ih =>
    unfold scan? closing?
    split
    · rw [ih, hmap]
    · split
      · cases pending with
        | zero => rfl
        | succ pending =>
          dsimp only
          rw [if_neg (Nat.succ_ne_zero _), ih, hmap]
      · rw [ih, hmap]

theorem matchCounting?_eq (b : Brackets α) (text : List α) (start : Nat) :
    b.matchCounting? text start = some (b.match? text start) := by
  unfold matchCounting? match?
  split
  · next hopening =>
    obtain ⟨hstart, hx⟩ := List.getElem?_eq_some_iff.mp hopening
    rw [List.drop_eq_getElem_cons hstart, hx]
    dsimp only
    rw [if_pos rfl, scan?, if_pos rfl, scan?_succ]
  · next hopening =>
    split
    · rfl
    · next x xs hdrop =>
      rw [if_neg]
      rintro rfl
      refine hopening ?_
      rw [← List.head?_drop, hdrop]
      rfl

/-- **The matching bracket is found exactly when there is one**: the one up to which the brackets
count out, or in other words up to which the text is balanced. There is never a second one, and
whatever the two brackets are, no depth falls below zero on the way. -/
theorem match?_finds (b : Brackets α) (text : List α) (start : Nat) :
    (b.opening ≠ b.closing →
      (∀ close, b.match? text start = some close ↔ b.Pair text start close) ∧
      (∀ close, b.Pair text start close ↔ text[start]? = some b.opening ∧ start < close ∧
        text[close]? = some b.closing ∧ b.Balanced (text.extract (start + 1) close)) ∧
      (b.match? text start = none ↔ ∀ close, ¬ b.Pair text start close) ∧
      ∀ close close', b.Pair text start close → b.Pair text start close' → close = close') ∧
    b.matchCounting? text start = some (b.match? text start) := by
  refine ⟨fun hne => ⟨fun close => match?_eq_some_iff_pair hne, fun close => pair_iff_balanced hne,
    match?_eq_none_iff_pair hne, fun close close' h h' => ?_⟩, matchCounting?_eq b text start⟩
  have hsame := (match?_eq_some_iff_pair hne).mpr h
  rw [(match?_eq_some_iff_pair hne).mpr h'] at hsame
  exact (Option.some.inj hsame).symm

/-- Braces among the bytes of a text, one block in another. -/
theorem match?_finds_nested :
    let b : Brackets UInt8 := ⟨0x7B, 0x7D⟩
    let text : List UInt8 := [0x61, 0x7B, 0x20, 0x7B, 0xC3, 0xA9, 0x7D, 0x7D, 0x7D]
    b.opening ≠ b.closing ∧ b.Pair text 1 7 ∧ b.Pair text 3 6 ∧ (∀ close, ¬ b.Pair text 7 close) ∧
      b.matchCounting? text 1 = some (some 7) := by
  intro b text
  have hne : b.opening ≠ b.closing := by decide
  refine ⟨hne, ?_, ?_, ?_, ?_⟩
  · exact (((match?_finds b text 1).1 hne).1 7).mp (by decide)
  · exact (((match?_finds b text 3).1 hne).1 6).mp (by decide)
  · exact ((match?_finds b text 7).1 hne).2.2.1.mp (by decide)
  · exact (match?_finds b text 1).2.trans (by decide)

end PacketGen.Brackets
