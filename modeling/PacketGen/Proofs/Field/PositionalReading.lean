import PacketGen.Field

/-!
# What one statement adds to the fields

`Field.ofStatementsFrom` walks a procedure with a state: the member whose raw bytes are still to
come. Here the same is told of each statement by itself and by the one before it. A statement is a
field on its own (`Statement.field?`), or the raw-bytes call of a member (`Statement.rawBytes?`); a
raw-bytes call counts for nothing when the last statement before it that did anything announced the
bytes of that very member, and every other statement is kept as it is (`share`).

So the state is nothing but a look at the statement before (`announcedAfter`), and
`ofStatements_eq_shares` says that walking with the one is looking back with the other.
-/

namespace PacketGen

namespace Statement

/-- The field that a statement transfers, whatever stands before it. -/
def field? : Statement → Option Field
  | .call (.ofField a name) => a.primitive?.map (.value · name)
  | .call (.ofLength a name) => a.lengthType?.map (.bytes · name)
  | .assign name (.bare a) => a.primitive?.map (.value · name)
  | .assign name (.ofCall ⟨_, none⟩ (.bare length)) => length.lengthType?.map (.bytes · name)
  | _ => none

/-- The member whose raw bytes a statement transfers. -/
def rawBytes? : Statement → Option String
  | .call (.ofField ⟨_, none⟩ name) => some name
  | _ => none

theorem isRecognized_of_field? {s : Statement} {f : Field} (h : s.field? = some f) :
    f.isRecognized = true := by
  unfold field? at h
  split at h
  · obtain ⟨t, -, rfl⟩ := Option.map_eq_some_iff.mp h
    rfl
  · obtain ⟨t, -, rfl⟩ := Option.map_eq_some_iff.mp h
    rfl
  · obtain ⟨t, -, rfl⟩ := Option.map_eq_some_iff.mp h
    rfl
  · obtain ⟨t, -, rfl⟩ := Option.map_eq_some_iff.mp h
    rfl
  · exact absurd h (by simp)

theorem ofStatement_eq (announced : Option String) (s : Statement) :
    Transfer.ofStatement announced s =
      if s = .reset then .silent
      else match s.field? with
        | some f => .field f
        | none =>
          if s.rawBytes?.isSome && s.rawBytes? == announced then .folded else .unrecognized := by
  cases s with
  | reset => rfl
  | call c =>
    rw [if_neg (by simp)]
    cases c with
    | ofField a name =>
      obtain ⟨verb, tag⟩ := a
      cases tag with
      | none =>
        by_cases h : announced = some name
        · simp [Transfer.ofStatement, Transfer.ofCall, field?, rawBytes?, Accessor.primitive?, h]
        · have h' : some name ≠ announced := fun e => h e.symm
          simp [Transfer.ofStatement, Transfer.ofCall, field?, rawBytes?, Accessor.primitive?, h,
            h']
      | some tag =>
        cases hp : Accessor.primitive? ⟨verb, some tag⟩ <;>
          simp [Transfer.ofStatement, Transfer.ofCall, field?, rawBytes?, hp]
    | ofLength a name =>
      cases hl : a.lengthType? <;>
        simp [Transfer.ofStatement, Transfer.ofCall, field?, rawBytes?, hl]
    | bare a => rfl
    | ofCall a inner => rfl
  | assign name c =>
    rw [if_neg (by simp)]
    cases c with
    | bare a =>
      cases hp : a.primitive? <;>
        simp [Transfer.ofStatement, Transfer.ofAssignment, field?, rawBytes?, hp]
    | ofCall a inner =>
      obtain ⟨verb, tag⟩ := a
      cases tag with
      | some tag => cases inner <;> rfl
      | none =>
        cases inner with
        | bare length =>
          cases hl : length.lengthType? <;>
            simp [Transfer.ofStatement, Transfer.ofAssignment, field?, rawBytes?, hl]
        | _ => rfl
    | ofField a field => rfl
    | ofLength a field => rfl

end Statement

namespace Field

/-- Whether a line transfers nothing and is not in the way of what does: it is empty, or the reset
call. -/
def isIdle (line : String) : Bool :=
  line = "" || match Statement.parse line with
    | .ok .reset => true
    | _ => false

def ofLine? (line : String) : Option Field :=
  match Statement.parse line with
  | .ok s => s.field?
  | .error _ => none

def rawBytesOf? (line : String) : Option String :=
  match Statement.parse line with
  | .ok s => s.rawBytes?
  | .error _ => none

/-- The member whose raw bytes are announced right before what follows `before`: the last line that
is not idle decides. -/
def announcedAfter (before : List String) : Option String :=
  ((before.filter fun line => !isIdle line).getLast?.bind ofLine?).bind announces

/-- Whether a line is a raw-bytes call that the length prefix right before it already stands for. -/
def isFolded (before : List String) (line : String) : Bool :=
  (rawBytesOf? line).isSome && rawBytesOf? line == announcedAfter before

/-- What a line adds to the fields of the lines before it. -/
def share (before : List String) (line : String) : List Field :=
  if isIdle line then []
  else match ofLine? line with
    | some f => [f]
    | none => if isFolded before line then [] else [.unknown line]

def sharesFrom (before : List String) : List String → List Field
  | [] => []
  | line :: lines => share before line ++ sharesFrom (before ++ [line]) lines

/-! ## Looking back is walking along -/

theorem announcedAfter_concat (before : List String) (line : String) :
    announcedAfter (before ++ [line]) =
      if isIdle line then announcedAfter before else (ofLine? line).bind announces := by
  cases h : isIdle line with
  | true => simp [announcedAfter, h]
  | false => simp [announcedAfter, h]

theorem isIdle_of_parse {line : String} {s : Statement} (hne : line ≠ "")
    (h : Statement.parse line = .ok s) : isIdle line = true ↔ s = .reset := by
  rw [isIdle, h]
  cases s <;> simp [hne]

theorem ofLine?_of_parse {line : String} {s : Statement} (h : Statement.parse line = .ok s) :
    ofLine? line = s.field? := by
  rw [ofLine?, h]

theorem rawBytesOf?_of_parse {line : String} {s : Statement}
    (h : Statement.parse line = .ok s) : rawBytesOf? line = s.rawBytes? := by
  rw [rawBytesOf?, h]

/-- A line that is not empty is walked over as `share` tells. -/
theorem ofText_announcedAfter (before : List String) {line : String} (hne : line ≠ "") :
    Transfer.ofText (announcedAfter before) line =
      if isIdle line then .silent
      else match ofLine? line with
        | some f => .field f
        | none => if isFolded before line then .folded else .unrecognized := by
  cases hparse : Statement.parse line with
  | error e =>
    simp [Transfer.ofText, isIdle, ofLine?, isFolded, rawBytesOf?, hparse, hne]
  | ok s =>
    rw [Transfer.ofText, hparse, ofLine?_of_parse hparse, isFolded, rawBytesOf?_of_parse hparse]
    dsimp only
    rw [Statement.ofStatement_eq]
    by_cases hs : s = .reset
    · rw [if_pos hs, if_pos ((isIdle_of_parse hne hparse).mpr hs)]
    · rw [if_neg hs, if_neg fun h => hs ((isIdle_of_parse hne hparse).mp h)]

theorem ofStatementsFrom_announcedAfter (before lines : List String) :
    ofStatementsFrom (announcedAfter before) lines = sharesFrom before lines := by
  induction lines generalizing before with
  | nil => rfl
  | cons line lines ih =>
    rw [ofStatementsFrom, sharesFrom, ← ih, announcedAfter_concat]
    by_cases hempty : line = ""
    · have hidle : isIdle line = true := by simp [isIdle, hempty]
      rw [if_pos hempty, if_pos hidle, share, if_pos hidle, List.nil_append]
    · rw [if_neg hempty, ofText_announcedAfter before hempty, share]
      by_cases hidle : isIdle line = true
      · rw [if_pos hidle, if_pos hidle, if_pos hidle, List.nil_append]
      · rw [if_neg hidle, if_neg hidle, if_neg hidle]
        cases hf : ofLine? line with
        | some f => rfl
        | none =>
          dsimp only
          by_cases hfolded : isFolded before line
          · rw [if_pos hfolded, if_pos hfolded]
            rfl
          · rw [if_neg hfolded, if_neg hfolded]
            rfl

/-- **Looking back is enough**: the fields of statements are what each of them adds behind those
before it. -/
theorem ofStatements_eq_shares (lines : List String) :
    ofStatements lines = sharesFrom [] lines :=
  ofStatementsFrom_announcedAfter [] lines

theorem isRecognized_of_ofLine? {line : String} {f : Field} (h : ofLine? line = some f) :
    f.isRecognized = true := by
  unfold ofLine? at h
  split at h
  · exact Statement.isRecognized_of_field? h
  · exact absurd h (by simp)

/-- A statement is only ever kept where it stands. -/
theorem eq_of_unknown_mem_share {before : List String} {line statement : String}
    (h : unknown statement ∈ share before line) : statement = line := by
  unfold share at h
  split at h
  · exact absurd h (by simp)
  · split at h
    · next f hf =>
      rw [List.mem_singleton] at h
      exact absurd (isRecognized_of_ofLine? hf) (by simp [← h, isRecognized])
    · split at h
      · exact absurd h (by simp)
      · simpa using h

theorem mem_of_unknown_mem_sharesFrom {before lines : List String} {statement : String}
    (h : unknown statement ∈ sharesFrom before lines) : statement ∈ lines := by
  induction lines generalizing before with
  | nil => exact absurd h (by simp [sharesFrom])
  | cons line lines ih =>
    rcases List.mem_append.mp h with h | h
    · exact eq_of_unknown_mem_share h ▸ List.mem_cons_self
    · exact List.mem_cons_of_mem _ (ih h)

end Field

end PacketGen
