import Mathlib.Data.List.Basic
import PacketGen.Field
import PacketGen.Proofs.Statement.Source

/-!
# Fields as they are written

A field is read by one line of a packet source (`readSource`) and written by one line or two
(`writeSource`); resets may stand between any of them (`WithResets`). The lines of either kind stand
for the field (`standFor_read`, `standFor_write`): they add it whatever was announced before, since
a length prefix announces its own raw bytes, and they come next. So whole procedures are taken for
their fields again (`WithResets.exists_of_standFor`).
-/

namespace PacketGen

open Token (IsIdentifier)

namespace Field

/-- A field that a packet source can be about. -/
def WellFormed : Field → Prop
  | value _ name => IsIdentifier name
  | bytes lengthType name => lengthType.isInteger = true ∧ IsIdentifier name
  | unknown _ => False

def readSource : Field → List String
  | value t name => ["$this->" ++ name ++ " = $this->get" ++ t.tag ++ "();"]
  | bytes t name => ["$this->" ++ name ++ " = $this->get($this->get" ++ t.tag ++ "());"]
  | unknown statement => [statement]

def writeSource : Field → List String
  | value t name => ["$this->put" ++ t.tag ++ "($this->" ++ name ++ ");"]
  | bytes t name =>
    ["$this->put" ++ t.tag ++ "(strlen($this->" ++ name ++ "));",
      "$this->put($this->" ++ name ++ ");"]
  | unknown statement => [statement]

/-- Lines with reset calls put between them. -/
inductive WithResets : (lines spread : List String) → Prop
  | nil : WithResets [] []
  | line {lines spread : List String} (l : String) : WithResets lines spread →
      WithResets (l :: lines) (l :: spread)
  | reset {lines spread : List String} : WithResets lines spread →
      WithResets lines ("$this->reset();" :: spread)

end Field

/-! ## The statements of a field -/

namespace Accessor

theorem wellFormed_tag (verb : Verb) (t : Primitive) : WellFormed ⟨verb, some t.tag⟩ := by
  intro tag htag
  obtain rfl : t.tag = tag := by simpa using htag
  cases t
  all_goals exact ⟨_, _, rfl, rfl, List.all_eq_true.mp rfl⟩

@[simp] theorem primitive?_tag (verb : Verb) (t : Primitive) :
    primitive? ⟨verb, some t.tag⟩ = some t := by
  simp [primitive?]

theorem lengthType?_tag (verb : Verb) {t : Primitive} (ht : t.isInteger = true) :
    lengthType? ⟨verb, some t.tag⟩ = some t := by
  simp [lengthType?, ht]

end Accessor

namespace Field

def readStatements : Field → List Statement
  | value t name => [.assign name (.bare ⟨.get, some t.tag⟩)]
  | bytes t name => [.assign name (.ofCall ⟨.get, none⟩ (.bare ⟨.get, some t.tag⟩))]
  | unknown _ => []

def writeStatements : Field → List Statement
  | value t name => [.call (.ofField ⟨.put, some t.tag⟩ name)]
  | bytes t name => [.call (.ofLength ⟨.put, some t.tag⟩ name), .call (.ofField ⟨.put, none⟩ name)]
  | unknown _ => []

theorem readSource_eq {f : Field} (hf : f.WellFormed) :
    f.readSource = f.readStatements.map Statement.line := by
  cases f with
  | value t name =>
    refine congrArg (fun l => [l]) (String.toList_inj.mp ?_)
    simp [Statement.line, Statement.source, Call.source, Accessor.name, Verb.keyword]
  | bytes t name =>
    refine congrArg (fun l => [l]) (String.toList_inj.mp ?_)
    simp [Statement.line, Statement.source, Call.source, Accessor.name, Verb.keyword]
  | unknown statement => exact absurd hf (by simp [WellFormed])

theorem writeSource_eq {f : Field} (hf : f.WellFormed) :
    f.writeSource = f.writeStatements.map Statement.line := by
  cases f with
  | value t name =>
    refine congrArg (fun l => [l]) (String.toList_inj.mp ?_)
    simp [Statement.line, Statement.source, Call.source, Accessor.name, Verb.keyword]
  | bytes t name =>
    have hlength : "$this->put" ++ t.tag ++ "(strlen($this->" ++ name ++ "));" =
        Statement.line (.call (.ofLength ⟨.put, some t.tag⟩ name)) := by
      refine String.toList_inj.mp ?_
      simp [Statement.line, Statement.source, Call.source, Accessor.name, Verb.keyword]
    have hraw : "$this->put($this->" ++ name ++ ");" =
        Statement.line (.call (.ofField ⟨.put, none⟩ name)) := by
      refine String.toList_inj.mp ?_
      simp [Statement.line, Statement.source, Call.source, Accessor.name, Verb.keyword]
    rw [writeSource, hlength, hraw]
    rfl
  | unknown statement => exact absurd hf (by simp [WellFormed])

theorem wellFormed_readStatements {f : Field} (hf : f.WellFormed) :
    ∀ s ∈ f.readStatements, s.WellFormed := by
  cases f with
  | value t name => simpa [readStatements] using ⟨hf, Accessor.wellFormed_tag .get t⟩
  | bytes t name =>
    simpa [readStatements] using
      ⟨hf.2, Accessor.wellFormed_raw .get, Accessor.wellFormed_tag .get t⟩
  | unknown statement => simp [readStatements]

theorem wellFormed_writeStatements {f : Field} (hf : f.WellFormed) :
    ∀ s ∈ f.writeStatements, s.WellFormed := by
  cases f with
  | value t name => simpa [writeStatements] using ⟨Accessor.wellFormed_tag .put t, hf⟩
  | bytes t name =>
    simpa [writeStatements] using
      ⟨⟨Accessor.wellFormed_tag .put t, hf.2⟩, Accessor.wellFormed_raw .put, hf.2⟩
  | unknown statement => simp [writeStatements]

/-! ## The fields of the lines -/

theorem ofText_source {s : Statement} (hs : s.WellFormed) (announced : Option String) :
    Transfer.ofText announced s.source = Transfer.ofStatement announced s := by
  simp only [Transfer.ofText, Statement.parse_source hs]

/-- A statement that transfers a field adds it, and announces what the field announces. -/
theorem ofStatementsFrom_field {s : Statement} {f : Field} {announced : Option String}
    (hs : s.WellFormed) (htransfer : Transfer.ofStatement announced s = .field f)
    (texts : List String) :
    ofStatementsFrom announced (s.source :: texts) = f :: ofStatementsFrom f.announces texts := by
  rw [ofStatementsFrom, if_neg s.source_ne_empty, ofText_source hs, htransfer]

theorem line_reset : Statement.line .reset = "$this->reset();" := by decide

/-- Resets change nothing about the fields that statements transfer. -/
theorem WithResets.exists_statements {statements : List Statement} {spread : List String}
    (h : WithResets (statements.map Statement.line) spread)
    (hstatements : ∀ s ∈ statements, s.WellFormed) :
    ∃ ts : List Statement, spread = ts.map Statement.line ∧ (∀ t ∈ ts, t.WellFormed) ∧
      ∀ announced, ofStatementsFrom announced (ts.map Statement.source) =
        ofStatementsFrom announced (statements.map Statement.source) := by
  -- The induction is on where the resets are; a reset leaves what was announced as it was.
  generalize hlines : statements.map Statement.line = lines at h
  induction h generalizing statements with
  | nil =>
    obtain rfl := List.map_eq_nil_iff.mp hlines
    exact ⟨[], rfl, by simp, fun _ => rfl⟩
  | line l _ ih =>
    obtain ⟨s, rest, rfl, rfl, hrest⟩ := List.map_eq_cons_iff.mp hlines
    obtain ⟨hs, hall⟩ := List.forall_mem_cons.mp hstatements
    obtain ⟨ts, rfl, hts, hfields⟩ := ih hall hrest
    refine ⟨s :: ts, rfl, List.forall_mem_cons.mpr ⟨hs, hts⟩, fun announced => ?_⟩
    rw [List.map_cons, List.map_cons, ofStatementsFrom, ofStatementsFrom, ofText_source hs]
    simp only [hfields]
  | reset _ ih =>
    have hreset : Statement.WellFormed .reset := trivial
    obtain ⟨ts, rfl, hts, hfields⟩ := ih hstatements hlines
    refine ⟨.reset :: ts, by rw [List.map_cons, line_reset],
      List.forall_mem_cons.mpr ⟨hreset, hts⟩, fun announced => ?_⟩
    rw [List.map_cons, ofStatementsFrom, if_neg (Statement.source_ne_empty _),
      ofText_source hreset, ← hfields]
    rfl

/-- Statements that are written as these lines and add this field, whatever was announced before. -/
structure StandFor (f : Field) (lines : List String) (statements : List Statement) : Prop where
  wellFormed : ∀ s ∈ statements, s.WellFormed
  lines : lines = statements.map Statement.line
  adds : ∀ announced texts, ∃ left,
    ofStatementsFrom announced (statements.map Statement.source ++ texts) =
      f :: ofStatementsFrom left texts

theorem standFor_read {f : Field} (hf : f.WellFormed) :
    StandFor f f.readSource f.readStatements := by
  have hwell := wellFormed_readStatements hf
  refine ⟨hwell, readSource_eq hf, ?_⟩
  intro announced texts
  cases f with
  | value t name =>
    have htransfer : Transfer.ofStatement announced (.assign name (.bare ⟨.get, some t.tag⟩)) =
        .field (.value t name) := by
      simp [Transfer.ofStatement, Transfer.ofAssignment]
    exact ⟨_, ofStatementsFrom_field (hwell _ List.mem_cons_self) htransfer texts⟩
  | bytes t name =>
    have htransfer : Transfer.ofStatement announced
        (.assign name (.ofCall ⟨.get, none⟩ (.bare ⟨.get, some t.tag⟩))) =
          .field (.bytes t name) := by
      simp [Transfer.ofStatement, Transfer.ofAssignment, Accessor.lengthType?_tag .get hf.1]
    exact ⟨_, ofStatementsFrom_field (hwell _ List.mem_cons_self) htransfer texts⟩
  | unknown statement => exact absurd hf (by simp [WellFormed])

theorem standFor_write {f : Field} (hf : f.WellFormed) :
    StandFor f f.writeSource f.writeStatements := by
  have hwell := wellFormed_writeStatements hf
  refine ⟨hwell, writeSource_eq hf, ?_⟩
  intro announced texts
  cases f with
  | value t name =>
    have htransfer : Transfer.ofStatement announced
        (.call (.ofField ⟨.put, some t.tag⟩ name)) = .field (.value t name) := by
      simp [Transfer.ofStatement, Transfer.ofCall]
    exact ⟨_, ofStatementsFrom_field (hwell _ List.mem_cons_self) htransfer texts⟩
  | bytes t name =>
    have htransfer : Transfer.ofStatement announced
        (.call (.ofLength ⟨.put, some t.tag⟩ name)) = .field (.bytes t name) := by
      simp [Transfer.ofStatement, Transfer.ofCall, Accessor.lengthType?_tag .put hf.1]
    have hraw : Statement.WellFormed (.call (.ofField ⟨.put, none⟩ name)) :=
      hwell _ (List.mem_cons_of_mem _ List.mem_cons_self)
    -- The prefix has just announced the bytes that the second statement writes.
    have hfolded : Transfer.ofStatement (announces (.bytes t name))
        (.call (.ofField ⟨.put, none⟩ name)) = .folded := by
      simp [Transfer.ofStatement, Transfer.ofCall, announces]
    refine ⟨none, ?_⟩
    rw [writeStatements, List.map_cons, List.map_singleton, List.cons_append,
      ofStatementsFrom_field (hwell _ List.mem_cons_self) htransfer, List.singleton_append,
      ofStatementsFrom, if_neg (Statement.source_ne_empty _), ofText_source hraw, hfolded]
  | unknown statement => exact absurd hf (by simp [WellFormed])

theorem ofStatementsFrom_flatMap {source : Field → List String}
    {statements : Field → List Statement} {fs : List Field}
    (h : ∀ f ∈ fs, StandFor f (source f) (statements f)) (announced : Option String) :
    ofStatementsFrom announced ((fs.flatMap statements).map Statement.source) = fs := by
  induction fs generalizing announced with
  | nil => rfl
  | cons f fs ih =>
    obtain ⟨hf, hrest⟩ := List.forall_mem_cons.mp h
    obtain ⟨left, hadds⟩ := hf.adds announced ((fs.flatMap statements).map Statement.source)
    rw [List.flatMap_cons, List.map_append, hadds, ih hrest]

/-- Lines that stand for fields, resets among them, are read as these fields. -/
theorem WithResets.exists_of_standFor {source : Field → List String}
    {statements : Field → List Statement} {fs : List Field} {spread : List String}
    (h : WithResets (fs.flatMap source) spread)
    (hfs : ∀ f ∈ fs, StandFor f (source f) (statements f)) :
    ∃ ts : List Statement, spread = ts.map Statement.line ∧ (∀ t ∈ ts, t.WellFormed) ∧
      ofStatements (ts.map Statement.source) = fs := by
  have hlines : fs.flatMap source = (fs.flatMap statements).map Statement.line := by
    rw [List.map_flatMap]
    exact List.flatMap_congr fun f hf => (hfs f hf).lines
  have hwell : ∀ s ∈ fs.flatMap statements, s.WellFormed := by
    intro s hs
    obtain ⟨f, hf, hs⟩ := List.mem_flatMap.mp hs
    exact (hfs f hf).wellFormed s hs
  rw [hlines] at h
  obtain ⟨ts, hspread, hts, hfields⟩ := h.exists_statements hwell
  exact ⟨ts, hspread, hts, (hfields none).trans (ofStatementsFrom_flatMap hfs none)⟩

end Field

end PacketGen
