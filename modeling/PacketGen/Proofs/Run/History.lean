import PacketGen.Proofs.Diagnostic.FileNumber
import PacketGen.Run.Basic

/-!
# Runs have no memory

Every packet that is processed leaves its source among the files of the run, so the same fault gets
another file number in every run. Nothing else of a run changes, and the numbers do not show
(`PacketFault.render_diagnostic`): what becomes of a packet is decided by the settings and by its
own source (`process_fst`), whatever has been processed before (`process_after`).

What one step does to the state is told once, by `process_cases`. `Grows` is what a user of a run
may count on after a step, and `Keeps` the part of it that goes through a whole history.
-/

namespace PacketGen

namespace Sources

theorem file?_next (s : Sources) : s.file? s.next = none :=
  List.getElem?_eq_none (Nat.le_refl _)

end Sources

namespace PacketSources

theorem read_set_of_ne (packets : PacketSources) {name other : String} (source : String)
    (h : other ≠ name) : (packets.set name source).read other = packets.read other :=
  if_neg h

end PacketSources

namespace Run

variable {packets packets' : PacketSources} {name : String} {r r' : Run}

/-! ## One packet -/

/-- The outcome of a packet with the given source, which is the last of the files. -/
def outcomeOf (config : Config) (earlier : Sources) (name fileName source : String) : Outcome :=
  match Packet.analyze config name source with
  | .ok packet => .generated packet
  | .error fault =>
    fallback (earlier.add ⟨fileName, source⟩) name fileName (some source) earlier.next fault

/-- All that processing a packet can be: the template packet and an unreadable one leave the run as
it is, and any other source is added to the files of the run. -/
theorem process_cases (packets : PacketSources) (name : String) (r : Run) :
    (name = r.config.batchPacket ∧ process packets name r = (.template name, r)) ∨
    (name ≠ r.config.batchPacket ∧ ∃ reason, packets.read name = .error reason ∧
      process packets name r =
        (fallback r.sources name (packets.locate name) none r.sources.next
          (.unreadable (packets.locate name) reason), r)) ∨
    (name ≠ r.config.batchPacket ∧ ∃ source, packets.read name = .ok source ∧
      process packets name r =
        (outcomeOf r.config r.sources name (packets.locate name) source,
          { r with sources := r.sources.add ⟨packets.locate name, source⟩ })) := by
  by_cases hname : name = r.config.batchPacket
  · refine Or.inl ⟨hname, ?_⟩
    rw [process, if_pos hname]
  · cases hread : packets.read name with
    | error reason =>
      refine Or.inr (Or.inl ⟨hname, reason, rfl, ?_⟩)
      rw [process, if_neg hname]
      dsimp only
      rw [hread]
    | ok source =>
      refine Or.inr (Or.inr ⟨hname, source, rfl, ?_⟩)
      rw [process, if_neg hname]
      dsimp only
      rw [hread]
      rfl

theorem fallback_congr {sources sources' : Sources} {number n : Nat} (fileName : String)
    (source : Option String) (fault : PacketFault)
    (hfile : sources'.file? number = sources.file? n) :
    fallback sources' name fileName source number fault =
      fallback sources name fileName source n fault := by
  have hrender := fault.render_diagnostic hfile
  rw [fallback, fallback, hrender]
  rfl

theorem outcomeOf_congr (config : Config) (earlier earlier' : Sources)
    (name fileName source : String) :
    outcomeOf config earlier' name fileName source =
      outcomeOf config earlier name fileName source := by
  unfold outcomeOf
  cases Packet.analyze config name source with
  | ok packet => rfl
  | error fault =>
    refine fallback_congr fileName (some source) fault ?_
    rw [Sources.file?_add_next, Sources.file?_add_next]

/-- What becomes of a packet is decided by the settings and the packet's own source. -/
theorem process_fst (hconfig : r'.config = r.config)
    (hlocate : packets'.locate name = packets.locate name)
    (hread : packets'.read name = packets.read name) :
    (process packets' name r').1 = (process packets name r).1 := by
  obtain ⟨hname, h⟩ | ⟨hname, reason, herror, h⟩ | ⟨hname, source, hok, h⟩ :=
    process_cases packets name r
  · rw [h, process, if_pos (hname.trans (congrArg Config.batchPacket hconfig).symm)]
  -- The other run goes the same way, as it asks the same of the name and reads the same.
  · obtain ⟨hname', -⟩ | ⟨-, reason', herror', h'⟩ | ⟨-, source', hok', -⟩ :=
      process_cases packets' name r'
    · exact absurd (hname'.trans (congrArg Config.batchPacket hconfig)) hname
    · rw [hread, herror] at herror'
      cases herror'
      rw [h, h', hlocate]
      refine fallback_congr _ none _ ?_
      rw [Sources.file?_next, Sources.file?_next]
    · rw [hread, herror] at hok'
      cases hok'
  · obtain ⟨hname', -⟩ | ⟨-, reason', herror', -⟩ | ⟨-, source', hok', h'⟩ :=
      process_cases packets' name r'
    · exact absurd (hname'.trans (congrArg Config.batchPacket hconfig)) hname
    · rw [hread, hok] at herror'
      cases herror'
    · rw [hread, hok] at hok'
      cases hok'
      rw [h, h', hlocate, hconfig]
      exact outcomeOf_congr r.config r.sources r'.sources name _ source

/-! ## What a step leaves -/

/-- A run has become another one by processing the packet `name`. -/
structure Grows (packets : PacketSources) (name : String) (r r' : Run) : Prop where
  config : r'.config = r.config
  origin : r'.origin = r.origin
  table : r'.table = r.table
  batchTemplate : r'.batchTemplate = r.batchTemplate
  /-- Every file keeps its number. -/
  kept : ∀ number file, r.sources.file? number = some file → r'.sources.file? number = some file
  appended : ∀ source, name ≠ r.config.batchPacket → packets.read name = .ok source →
    r'.sources.files = r.sources.files ++ [⟨packets.locate name, source⟩]
  untouched : name = r.config.batchPacket ∨ (∃ reason, packets.read name = .error reason) →
    r'.sources.files = r.sources.files

theorem process_grows (packets : PacketSources) (name : String) (r : Run) :
    Grows packets name r (process packets name r).2 := by
  obtain ⟨hname, h⟩ | ⟨-, reason, herror, h⟩ | ⟨hname, source, hok, h⟩ :=
    process_cases packets name r
  · rw [h]
    exact
      { config := rfl, origin := rfl, table := rfl, batchTemplate := rfl
        kept := fun _ _ hfile => hfile
        appended := fun _ hne _ => absurd hname hne
        untouched := fun _ => rfl }
  · rw [h]
    refine
      { config := rfl, origin := rfl, table := rfl, batchTemplate := rfl
        kept := fun _ _ hfile => hfile
        appended := ?_
        untouched := fun _ => rfl }
    intro source _ hread
    rw [herror] at hread
    cases hread
  · rw [h]
    refine
      { config := rfl, origin := rfl, table := rfl, batchTemplate := rfl
        kept := fun _ _ hfile => Sources.file?_add _ hfile
        appended := ?_
        untouched := ?_ }
    · intro source' _ hread
      rw [hok] at hread
      cases hread
      rfl
    · rintro (hbatch | ⟨reason, hread⟩)
      · exact absurd hbatch hname
      · rw [hok] at hread
        cases hread

/-- Nothing but the source files has changed. -/
structure Keeps (r r' : Run) : Prop where
  config : r'.config = r.config
  origin : r'.origin = r.origin
  table : r'.table = r.table
  batchTemplate : r'.batchTemplate = r.batchTemplate

theorem Keeps.refl (r : Run) : Keeps r r := ⟨rfl, rfl, rfl, rfl⟩

theorem Keeps.trans {q r s : Run} (hqr : Keeps q r) (hrs : Keeps r s) : Keeps q s :=
  ⟨hrs.config.trans hqr.config, hrs.origin.trans hqr.origin, hrs.table.trans hqr.table,
    hrs.batchTemplate.trans hqr.batchTemplate⟩

theorem process_keeps (packets : PacketSources) (name : String) (r : Run) :
    Keeps r (process packets name r).2 :=
  have h := process_grows packets name r
  ⟨h.config, h.origin, h.table, h.batchTemplate⟩

theorem processAll_keeps (packets : PacketSources) (names : List String) (r : Run) :
    Keeps r (processAll packets names r).2 := by
  induction names generalizing r with
  | nil => exact Keeps.refl r
  | cons name names ih => exact (process_keeps packets name r).trans (ih _)

/-- The outcomes of several packets are those that each of them has by itself. -/
theorem processAll_fst (packets : PacketSources) (names : List String) (r : Run) :
    (processAll packets names r).1 = names.map fun name => (process packets name r).1 := by
  induction names generalizing r with
  | nil => rfl
  | cons name names ih =>
    have hrest : (processAll packets names (process packets name r).2).1 =
        names.map fun name => (process packets name r).1 := by
      rw [ih]
      refine List.map_congr_left ?_
      intro other _
      exact process_fst (process_keeps packets name r).config rfl rfl
    rw [List.map_cons, ← hrest]
    rfl

/-! ## A history of calls -/

/-- A call on a run. -/
inductive Step where
  | process (packets : PacketSources) (name : String)
  | outcomes (packets : PacketSources)

/-- The run that a call leaves. -/
def Step.apply (r : Run) : Step → Run
  | .process packets name => (Run.process packets name r).2
  | .outcomes packets => (Run.outcomes packets r).2

/-- The run after calls, first to last. -/
def after (r : Run) (history : List Step) : Run := history.foldl Step.apply r

theorem Step.keeps (r : Run) (s : Step) : Keeps r (s.apply r) := by
  cases s with
  | process packets name => exact process_keeps packets name r
  | outcomes packets => exact processAll_keeps packets r.packetNames r

theorem after_keeps (r : Run) (history : List Step) : Keeps r (r.after history) := by
  induction history generalizing r with
  | nil => exact Keeps.refl r
  | cons s history ih => exact (s.keeps r).trans (ih _)

/-- **The outcome of a packet does not depend on what was processed before it**, its rendered
diagnostic included, as long as the packet is located and read the same way; and every step leaves
the run as it was but for the one file that it may append. -/
theorem process_after (r : Run) (history : List Step)
    (hlocate : packets'.locate name = packets.locate name)
    (hread : packets'.read name = packets.read name) :
    (process packets' name (r.after history)).1 = (process packets name r).1 ∧
      ∀ (packets : PacketSources) (name : String) (q : Run),
        Grows packets name q (process packets name q).2 := by
  refine ⟨process_fst (after_keeps r history).config hlocate hread, ?_⟩
  intro packets name q
  exact process_grows packets name q

/-- A broken packet keeps its diagnostic after a whole run and a packet that only that run had. -/
theorem process_after_unclosed :
    let r : Run :=
      { config := .default, origin := "Info.php"
        sources := ⟨[⟨"Info.php", "const LOGIN_PACKET = 1;\nconst TEXT_PACKET = 2;"⟩]⟩
        table := ⟨[⟨"Login", 1⟩, ⟨"Text", 2⟩], [], []⟩
        batchTemplate := "" }
    let packets := PacketSources.ofList .default
      [("Login", "class LoginPacket extends DataPacket \x7b")]
    let packets' := packets.set "Text" "class TextPacket extends DataPacket \x7b\x7d"
    let history := [.outcomes packets', .process packets' "Text", .process packets "Batch"]
    (process packets "Login" r).1.isFallback = true ∧
      packets'.locate "Login" = packets.locate "Login" ∧
      packets'.read "Login" = packets.read "Login" ∧
      (r.after history).sources.files.length = 4 ∧
      (process packets' "Login" (r.after history)).1 = (process packets "Login" r).1 := by
  intro r packets packets' history
  have hread : packets'.read "Login" = packets.read "Login" :=
    packets.read_set_of_ne _ (by decide)
  exact ⟨by decide +kernel, rfl, hread, by decide +kernel, (process_after r history rfl hread).1⟩

end Run

end PacketGen
