import PacketGen.Proofs.Field.PositionalReading

/-!
# Fields by the line right before

`share` looks back over everything that stands before a line. That is more than it needs: what a
line adds hangs on the line itself and on one other, the last before it that does anything. Here the
lines that do nothing are dropped first (`effective`), and every other line is read beside its
neighbour, without any state (`contribution`).

What a line adds is told twice. `contribution` computes it, and `Contributes` says it of the written
shapes alone: which statements transfer a field (`Statement.Transfers`), and which raw-bytes call is
absorbed by the length prefix before it (`Absorbed`). They agree (`contribution_eq_iff`), and
`ofStatements_neighbourly` is the account of a whole procedure.
-/

namespace PacketGen

namespace Accessor

theorem primitive?_eq_some_iff {a : Accessor} {t : Primitive} :
    a.primitive? = some t ↔ a.tag = some t.tag := by
  rw [primitive?, Option.bind_eq_some_iff]
  constructor
  · rintro ⟨tag, htag, ht⟩
    rw [htag, Primitive.tag_of_ofTag? ht]
  · intro h
    exact ⟨t.tag, h, Primitive.ofTag?_tag t⟩

theorem lengthType?_eq_some_iff {a : Accessor} {t : Primitive} :
    a.lengthType? = some t ↔ a.tag = some t.tag ∧ t.isInteger = true := by
  rw [lengthType?, Option.filter_eq_some_iff, primitive?_eq_some_iff]

end Accessor

namespace Statement

/-- A statement transfers a field by its shape alone, whatever stands before it. It does not matter
whether its accessors get or put. -/
inductive Transfers : Statement → Field → Prop
  /-- As in `$this->putT($this->name)`. -/
  | value (verb : Verb) (t : Primitive) (name : String) :
      Transfers (.call (.ofField ⟨verb, some t.tag⟩ name)) (.value t name)
  /-- As in `$this->name = $this->getT()`. -/
  | assignedValue (verb : Verb) (t : Primitive) (name : String) :
      Transfers (.assign name (.bare ⟨verb, some t.tag⟩)) (.value t name)
  /-- As in `$this->putT(strlen($this->name))`. -/
  | bytes (verb : Verb) {t : Primitive} (name : String) (ht : t.isInteger = true) :
      Transfers (.call (.ofLength ⟨verb, some t.tag⟩ name)) (.bytes t name)
  /-- As in `$this->name = $this->get($this->getT())`. -/
  | assignedBytes (outer inner : Verb) {t : Primitive} (name : String) (ht : t.isInteger = true) :
      Transfers (.assign name (.ofCall ⟨outer, none⟩ (.bare ⟨inner, some t.tag⟩))) (.bytes t name)

theorem field?_eq_some_iff {s : Statement} {f : Field} : s.field? = some f ↔ s.Transfers f := by
  constructor
  · intro h
    unfold field? at h
    split at h
    · next a name =>
      obtain ⟨t, ht, rfl⟩ := Option.map_eq_some_iff.mp h
      obtain ⟨verb, tag⟩ := a
      obtain rfl : tag = some t.tag := Accessor.primitive?_eq_some_iff.mp ht
      exact .value verb t name
    · next a name =>
      obtain ⟨t, ht, rfl⟩ := Option.map_eq_some_iff.mp h
      obtain ⟨verb, tag⟩ := a
      obtain ⟨rfl, hinteger⟩ := Accessor.lengthType?_eq_some_iff.mp ht
      exact .bytes verb name hinteger
    · next name a =>
      obtain ⟨t, ht, rfl⟩ := Option.map_eq_some_iff.mp h
      obtain ⟨verb, tag⟩ := a
      obtain rfl : tag = some t.tag := Accessor.primitive?_eq_some_iff.mp ht
      exact .assignedValue verb t name
    · next name outer length =>
      obtain ⟨t, ht, rfl⟩ := Option.map_eq_some_iff.mp h
      obtain ⟨inner, tag⟩ := length
      obtain ⟨rfl, hinteger⟩ := Accessor.lengthType?_eq_some_iff.mp ht
      exact .assignedBytes outer inner name hinteger
    · cases h
  · intro h
    cases h with
    | value verb t name =>
      exact Option.map_eq_some_iff.mpr ⟨t, Accessor.primitive?_eq_some_iff.mpr rfl, rfl⟩
    | assignedValue verb t name =>
      exact Option.map_eq_some_iff.mpr ⟨t, Accessor.primitive?_eq_some_iff.mpr rfl, rfl⟩
    | bytes verb name ht =>
      exact Option.map_eq_some_iff.mpr ⟨_, Accessor.lengthType?_eq_some_iff.mpr ⟨rfl, ht⟩, rfl⟩
    | assignedBytes outer inner name ht =>
      exact Option.map_eq_some_iff.mpr ⟨_, Accessor.lengthType?_eq_some_iff.mpr ⟨rfl, ht⟩, rfl⟩

theorem rawBytes?_eq_some_iff {s : Statement} {name : String} :
    s.rawBytes? = some name ↔ ∃ verb, s = .call (.ofField ⟨verb, none⟩ name) := by
  constructor
  · intro h
    unfold rawBytes? at h
    split at h
    · next verb name' =>
      cases h
      exact ⟨verb, rfl⟩
    · cases h
  · rintro ⟨verb, rfl⟩
    rfl

end Statement

namespace Field

/-! ## One line and the one before it -/

/-- A line is the raw-bytes call of the very member whose length prefix stands right before it. -/
def Absorbed (previous : Option String) (line : String) : Prop :=
  ∃ before s t verb name, previous = some before ∧ Statement.parse before = .ok s ∧
    s.Transfers (.bytes t name) ∧ Statement.parse line = .ok (.call (.ofField ⟨verb, none⟩ name))

/-- What a line that does something adds to the fields, given the last such line before it. -/
inductive Contributes (previous : Option String) (line : String) : List Field → Prop
  | field {s : Statement} {f : Field} (hline : Statement.parse line = .ok s)
      (h : s.Transfers f) : Contributes previous line [f]
  | absorbed (h : Absorbed previous line) : Contributes previous line []
  | kept (hfield : ∀ s f, Statement.parse line = .ok s → ¬ s.Transfers f)
      (habsorbed : ¬ Absorbed previous line) : Contributes previous line [.unknown line]

/-- The member that a line is the length prefix of. -/
def prefixed? (line : String) : Option String := (ofLine? line).bind announces

/-- Whether a line is `Absorbed`. -/
def isAbsorbed (previous : Option String) (line : String) : Bool :=
  (rawBytesOf? line).isSome && rawBytesOf? line == previous.bind prefixed?

/-- What a line `Contributes`. -/
def contribution (previous : Option String) (line : String) : List Field :=
  match ofLine? line with
  | some f => [f]
  | none => if isAbsorbed previous line then [] else [.unknown line]

theorem ofLine?_eq_some_iff {line : String} {f : Field} :
    ofLine? line = some f ↔ ∃ s, Statement.parse line = .ok s ∧ s.Transfers f := by
  rw [ofLine?]
  cases Statement.parse line with
  | error e => simp
  | ok s => simp [Statement.field?_eq_some_iff]

theorem rawBytesOf?_eq_some_iff {line name : String} :
    rawBytesOf? line = some name ↔
      ∃ verb, Statement.parse line = .ok (.call (.ofField ⟨verb, none⟩ name)) := by
  rw [rawBytesOf?]
  cases Statement.parse line with
  | error e => simp
  | ok s => simp [Statement.rawBytes?_eq_some_iff]

theorem announces_eq_some_iff {f : Field} {name : String} :
    f.announces = some name ↔ ∃ t, f = .bytes t name := by
  cases f <;> simp [announces]

theorem prefixed?_eq_some_iff {line name : String} :
    prefixed? line = some name ↔
      ∃ s t, Statement.parse line = .ok s ∧ s.Transfers (.bytes t name) := by
  rw [prefixed?, Option.bind_eq_some_iff]
  constructor
  · rintro ⟨f, hf, hname⟩
    obtain ⟨t, rfl⟩ := announces_eq_some_iff.mp hname
    obtain ⟨s, hs, htransfers⟩ := ofLine?_eq_some_iff.mp hf
    exact ⟨s, t, hs, htransfers⟩
  · rintro ⟨s, t, hs, htransfers⟩
    exact ⟨.bytes t name, ofLine?_eq_some_iff.mpr ⟨s, hs, htransfers⟩, rfl⟩

theorem isAbsorbed_iff {previous : Option String} {line : String} :
    isAbsorbed previous line = true ↔
      ∃ name, rawBytesOf? line = some name ∧ previous.bind prefixed? = some name := by
  rw [isAbsorbed, Bool.and_eq_true, Option.isSome_iff_exists, beq_iff_eq]
  constructor
  · rintro ⟨⟨name, hraw⟩, hprevious⟩
    exact ⟨name, hraw, hprevious ▸ hraw⟩
  · rintro ⟨name, hraw, hprevious⟩
    exact ⟨⟨name, hraw⟩, hraw.trans hprevious.symm⟩

theorem isAbsorbed_iff_absorbed {previous : Option String} {line : String} :
    isAbsorbed previous line = true ↔ Absorbed previous line := by
  rw [isAbsorbed_iff]
  constructor
  · rintro ⟨name, hraw, hprevious⟩
    obtain ⟨verb, hline⟩ := rawBytesOf?_eq_some_iff.mp hraw
    obtain ⟨before, hbefore, hprefixed⟩ := Option.bind_eq_some_iff.mp hprevious
    obtain ⟨s, t, hs, htransfers⟩ := prefixed?_eq_some_iff.mp hprefixed
    exact ⟨before, s, t, verb, name, hbefore, hs, htransfers, hline⟩
  · rintro ⟨before, s, t, verb, name, rfl, hs, htransfers, hline⟩
    exact ⟨name, rawBytesOf?_eq_some_iff.mpr ⟨verb, hline⟩,
      prefixed?_eq_some_iff.mpr ⟨s, t, hs, htransfers⟩⟩

theorem ofLine?_of_rawBytesOf? {line name : String} (h : rawBytesOf? line = some name) :
    ofLine? line = none := by
  obtain ⟨verb, hline⟩ := rawBytesOf?_eq_some_iff.mp h
  rw [ofLine?, hline]
  rfl

theorem ofLine?_of_isAbsorbed {previous : Option String} {line : String}
    (h : isAbsorbed previous line = true) : ofLine? line = none := by
  obtain ⟨name, hraw, -⟩ := isAbsorbed_iff.mp h
  exact ofLine?_of_rawBytesOf? hraw

theorem contribution_of_isAbsorbed {previous : Option String} {line : String}
    (h : isAbsorbed previous line = true) : contribution previous line = [] := by
  rw [contribution, ofLine?_of_isAbsorbed h]
  exact if_pos h

theorem isAbsorbed_of_contribution {previous : Option String} {line : String}
    (h : contribution previous line = []) : isAbsorbed previous line = true := by
  unfold contribution at h
  split at h
  · cases h
  · split at h
    · assumption
    · cases h

/-- What absorbs a line is not absorbed itself: a line that is left out announces nothing. -/
theorem not_isAbsorbed_of_isAbsorbed {previous : Option String} {line next : String}
    (h : isAbsorbed previous line = true) : isAbsorbed (some line) next = false := by
  rw [Bool.eq_false_iff]
  intro hnext
  obtain ⟨name, -, hprefixed⟩ := isAbsorbed_iff.mp hnext
  rw [Option.bind_some, prefixed?, ofLine?_of_isAbsorbed h] at hprefixed
  cases hprefixed

theorem contributes_contribution (previous : Option String) (line : String) :
    Contributes previous line (contribution previous line) := by
  unfold contribution
  split
  · next f hf =>
    obtain ⟨s, hline, htransfers⟩ := ofLine?_eq_some_iff.mp hf
    exact .field hline htransfers
  · next hnone =>
    split
    · next h => exact .absorbed (isAbsorbed_iff_absorbed.mp h)
    · next h =>
      refine .kept ?_ fun habsorbed => h (isAbsorbed_iff_absorbed.mpr habsorbed)
      intro s f hline htransfers
      rw [ofLine?_eq_some_iff.mpr ⟨s, hline, htransfers⟩] at hnone
      cases hnone

theorem contribution_eq_iff {previous : Option String} {line : String} {fs : List Field} :
    contribution previous line = fs ↔ Contributes previous line fs := by
  constructor
  · rintro rfl
    exact contributes_contribution previous line
  · intro h
    cases h with
    | field hline htransfers =>
      rw [contribution, ofLine?_eq_some_iff.mpr ⟨_, hline, htransfers⟩]
    | absorbed h => exact contribution_of_isAbsorbed (isAbsorbed_iff_absorbed.mpr h)
    | kept hfield habsorbed =>
      have hnone : ofLine? line = none := by
        refine Option.eq_none_iff_forall_ne_some.mpr ?_
        intro f hf
        obtain ⟨s, hline, htransfers⟩ := ofLine?_eq_some_iff.mp hf
        exact hfield s f hline htransfers
      rw [contribution, hnone]
      exact if_neg fun h => habsorbed (isAbsorbed_iff_absorbed.mp h)

/-! ## A whole procedure -/

/-- The lines that do something. -/
def effective (lines : List String) : List String := lines.filter fun line => !isIdle line

/-- The elements of a list, each behind the one right before it, and the first behind `before`. -/
def pairedFrom {α : Type} (before : Option α) (xs : List α) : List (Option α × α) :=
  (before :: xs.map some).zip xs

/-- What lines add that all do something, when `before` is the last such line before them. -/
def contributionsFrom (before : Option String) (lines : List String) : List Field :=
  (pairedFrom before lines).flatMap fun p => contribution p.1 p.2

theorem effective_append (as bs : List String) :
    effective (as ++ bs) = effective as ++ effective bs :=
  List.filter_append ..

theorem contributionsFrom_cons (before : Option String) (line : String) (lines : List String) :
    contributionsFrom before (line :: lines) =
      contribution before line ++ contributionsFrom (some line) lines :=
  rfl

/-- Looking back over all lines is looking at the last of them that does something. -/
theorem isFolded_eq_isAbsorbed (before : List String) (line : String) :
    isFolded before line = isAbsorbed (effective before).getLast? line := by
  rw [isFolded, isAbsorbed, announcedAfter, Option.bind_assoc]
  rfl

theorem share_of_not_idle {before : List String} {line : String} (h : isIdle line = false) :
    share before line = contribution (effective before).getLast? line := by
  cases hf : ofLine? line with
  | some f => simp [share, contribution, h, hf]
  | none => simp [share, contribution, h, hf, isFolded_eq_isAbsorbed]

theorem sharesFrom_eq_contributions (before lines : List String) :
    sharesFrom before lines = contributionsFrom (effective before).getLast? (effective lines) := by
  induction lines generalizing before with
  | nil => rfl
  | cons line lines ih =>
    rw [sharesFrom, ih, effective_append]
    cases hidle : isIdle line with
    | true =>
      -- The line changes neither what is before the others nor what there is to read.
      have hshare : share before line = [] := if_pos hidle
      have hline : effective [line] = [] := List.filter_cons_of_neg (by simp [hidle])
      have hlines : effective (line :: lines) = effective lines :=
        List.filter_cons_of_neg (by simp [hidle])
      rw [hshare, hline, hlines, List.nil_append, List.append_nil]
    | false =>
      have hline : effective [line] = [line] := List.filter_cons_of_pos (by simp [hidle])
      have hlines : effective (line :: lines) = line :: effective lines :=
        List.filter_cons_of_pos (by simp [hidle])
      rw [share_of_not_idle hidle, hline, hlines, contributionsFrom_cons, List.getLast?_concat]

theorem ofStatements_eq_contributions (lines : List String) :
    ofStatements lines = contributionsFrom none (effective lines) := by
  rw [ofStatements_eq_shares]
  exact sharesFrom_eq_contributions [] lines

/-- How the fields of a procedure come out of its lines. -/
structure Neighbourly (lines : List String) (fields : List Field) : Prop where
  /-- Each line that does something adds its part, in order. -/
  parts : fields = (pairedFrom none (effective lines)).flatMap fun p => contribution p.1 p.2
  /-- The part of a line is told by its shape and by the line right before it. -/
  part_iff : ∀ previous line part,
    contribution previous line = part ↔ Contributes previous line part
  /-- A length prefix absorbs one line at most: behind an absorbed line none is left out. -/
  absorbs_once : ∀ previous line next,
    contribution previous line = [] → contribution (some line) next ≠ []

/-- **Fields need no memory**: the fields of a procedure are those of its lines that do something,
each read beside the one before it. -/
theorem ofStatements_neighbourly (lines : List String) :
    Neighbourly lines (ofStatements lines) where
  parts := ofStatements_eq_contributions lines
  part_iff _ _ _ := contribution_eq_iff
  absorbs_once previous line next h hnext := by
    have hfirst : isAbsorbed (some line) next = false :=
      not_isAbsorbed_of_isAbsorbed (isAbsorbed_of_contribution h)
    rw [isAbsorbed_of_contribution hnext] at hfirst
    cases hfirst

example :
    ofStatements ["$this->putInt(strlen($this->skin))", "", "$this->reset()",
      "$this->put($this->skin)", "$this->put($this->skin)"] =
        [.bytes .int "skin", .unknown "$this->put($this->skin)"] := by
  decide +kernel

end Field

end PacketGen
