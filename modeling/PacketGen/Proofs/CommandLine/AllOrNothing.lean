import PacketGen.CommandLine.Run
import PacketGen.Host.FileTree
import PacketGen.Proofs.CommandLine.Arguments

/-!
# A command writes all or nothing

The program reads, works out its whole output, and then writes once. Everything up to the write
leaves the files as they are (`Leaves`), whatever comes of it, so a failure on the way has written
nothing; and the text that is written does not depend on where it goes, so a command without
`--output` prints the same one.

What is asked of the system is said in `Host.Lawful`, for any kind of state: reading changes
nothing, a formatter answers by its input alone, and writing a file fails before it changes anything
or changes that file only. The tree of files in memory is such a system, with any formatter
(`FileTree.lawful_host`).
-/

namespace PacketGen

variable {σ Place : Type}

/-- What a command relies on. `file` is the content at a place, `place` is where a path leads, and
`format` is what formatter programs answer. -/
structure Host.Lawful (host : Host (StateM σ)) (file : σ → Place → Option (List UInt8))
    (place : σ → String → Place) (format : String → String → Except String String) : Prop where
  reads (path : String) (s : σ) : ((host.readFile path).run s).2 = s
  formats (program text : String) (s : σ) :
    (host.pipe program text).run s = (format program text, s)
  fails {path content : String} {s : σ} {e : String} :
    ((host.writeFile path content).run s).1 = .error e →
      ((host.writeFile path content).run s).2 = s
  writes {path content : String} {s : σ} :
    ((host.writeFile path content).run s).1 = .ok () →
      file ((host.writeFile path content).run s).2 (place s path) = some (Text.encode content)
  others {path content : String} {s : σ} {other : Place} :
    ((host.writeFile path content).run s).1 = .ok () → other ≠ place s path →
      file ((host.writeFile path content).run s).2 other = file s other

/-! ## A tree of files -/

namespace FileTree

/-- The content of the file at a place. -/
def content? (t : FileTree) (place : List String) : Option (List UInt8) :=
  (t.entries.find? (·.path == place)).map (·.content)

/-- Where a path leads, if it leads anywhere; the working directory holds no content. -/
def place (t : FileTree) (path : String) : List String := (t.resolve path).toOption.getD []

theorem find?_setContent (path : List String) (content : List UInt8) (entries : List FileEntry) :
    (((setContent path content entries).find? (·.path == path)).map (·.content)) =
      some content := by
  induction entries with
  | nil => simp [setContent]
  | cons e es ih =>
    rw [setContent]
    split
    · next hpath => simp [hpath]
    · next hpath => rw [List.find?_cons_of_neg (by simpa using hpath), ih]

theorem find?_setContent_of_ne {path other : List String} (h : other ≠ path)
    (content : List UInt8) (entries : List FileEntry) :
    ((setContent path content entries).find? (·.path == other)).map (·.content) =
      (entries.find? (·.path == other)).map (·.content) := by
  induction entries with
  | nil => simp [setContent, Ne.symm h]
  | cons e es ih =>
    rw [setContent]
    split
    · next hpath =>
      have hother : (e.path == other) = false := by simpa [hpath] using Ne.symm h
      rw [List.find?_cons, List.find?_cons, hother]
    · rw [List.find?_cons, List.find?_cons]
      split
      · rfl
      · exact ih

theorem write_eq_ok {t t' : FileTree} {path content : String} (h : t.write path content = .ok t') :
    t' = ⟨setContent (t.place path) (Text.encode content) t.entries⟩ := by
  cases hresolve : t.resolve path with
  | error e =>
    rw [write, hresolve] at h
    cases h
  | ok found =>
    rw [write, hresolve] at h
    have hplace : t.place path = found := by
      rw [place, hresolve]
      rfl
    rw [hplace]
    change (if _ then _ else _) = _ at h
    split at h
    · cases h
    · exact (Except.ok.inj h).symm

theorem run_writeFile (programs : String → String → Except String String) (path content : String)
    (t : FileTree) :
    ((host programs).writeFile path content).run t =
      match t.write path content with
      | .error e => (.error e.message, t)
      | .ok t' => (.ok (), t') := by
  show StateT.run (match t.write path content with
    | .error e => _
    | .ok t' => _) t = _
  cases t.write path content <;> rfl

theorem lawful_host (programs : String → String → Except String String) :
    (host programs).Lawful content? place programs where
  reads _ _ := rfl
  formats _ _ _ := rfl
  fails {path content t e} hfail := by
    rw [run_writeFile] at hfail ⊢
    split at hfail
    · rfl
    · cases hfail
  writes {path content t} hwrite := by
    rw [run_writeFile] at hwrite ⊢
    split at hwrite
    · cases hwrite
    · next t' ht =>
      rw [write_eq_ok ht]
      exact find?_setContent _ _ _
  others {path content t other} hwrite hother := by
    rw [run_writeFile] at hwrite ⊢
    split at hwrite
    · cases hwrite
    · next t' ht =>
      rw [write_eq_ok ht]
      exact find?_setContent_of_ne hother _ _

end FileTree

/-! ## Actions that change nothing -/

/-- An action that leaves the state as it is. -/
def Leaves {α : Type} (x : StateM σ α) : Prop := ∀ s, (x.run s).2 = s

theorem run_bind {α β : Type} (x : StateM σ α) (f : α → StateM σ β) (s : σ) :
    (x >>= f).run s = (f (x.run s).1).run (x.run s).2 := rfl

namespace Leaves

variable {α β : Type}

theorem pure (a : α) : Leaves (σ := σ) (Pure.pure a) := fun _ => rfl

theorem bind {x : StateM σ α} {f : α → StateM σ β} (hx : Leaves x) (hf : ∀ a, Leaves (f a)) :
    Leaves (x >>= f) := by
  intro s
  show ((f (x.run s).1).run (x.run s).2).2 = s
  rw [hf, hx]

/-- What comes behind such an action goes on from the same state. -/
theorem run_bind {x : StateM σ α} (hx : Leaves x) (f : α → StateM σ β) (s : σ) :
    (x >>= f).run s = (f (x.run s).1).run s := by
  show (f (x.run s).1).run (x.run s).2 = _
  rw [hx]

end Leaves

namespace CommandLine

variable {host : Host (StateM σ)} {file : σ → Place → Option (List UInt8)}
  {place : σ → String → Place} {format : String → String → Except String String}

section

variable (h : host.Lawful file place format)

include h

theorem leaves_readText (path : String) : Leaves (readText host path) :=
  Leaves.bind (h.reads path) fun _ => .pure _

theorem leaves_readConfig (path : Option String) : Leaves (readConfig host path) := by
  cases path with
  | none => exact .pure _
  | some path => exact (leaves_readText h path).bind fun _ => .pure _

theorem leaves_readTable (path suffix : String) : Leaves (readTable host path suffix) :=
  (leaves_readText h path).bind fun _ => .pure _

theorem leaves_readTemplate (config : Config) : Leaves (readTemplate host config) := by
  rw [readTemplate]
  split
  · exact .pure _
  · exact leaves_readText h _

theorem leaves_readPackets (config : Config) (directory : String) (names : List String) :
    Leaves (readPackets host config directory names) := by
  induction names with
  | nil => exact .pure _
  | cons name names ih => exact Leaves.bind (h.reads _) fun _ => ih.bind fun _ => .pure _

theorem leaves_apply (formatter : Formatter) (text : String) :
    Leaves (formatter.apply host text) := by
  cases formatter with
  | verbatim => exact .pure _
  | program path =>
    have hpipe : Leaves (host.pipe path text) := fun s => by rw [h.formats]
    exact hpipe.bind fun _ => .pure _

theorem leaves_idsText (o : IdsOptions) : Leaves (idsText host o) := by
  refine (leaves_readTable h _ _).bind fun table => ?_
  cases table with
  | error f => exact .pure _
  | ok table =>
    dsimp only
    cases Generated.writeIdentifiersFile o.declarations o.package table.1
        ⟨o.typeName, o.repr, o.suffix⟩ with
    | error p => exact .pure _
    | ok text => exact (leaves_apply h _ _).bind fun _ => .pure _

theorem leaves_packetsText (o : PacketsOptions) : Leaves (packetsText host o) := by
  refine (leaves_readConfig h _).bind fun config => ?_
  cases config with
  | error f => exact .pure _
  | ok config =>
    refine (leaves_readTable h _ _).bind fun table => ?_
    cases table with
    | error f => exact .pure _
    | ok table =>
      refine (leaves_readTemplate h config).bind fun template => ?_
      cases template with
      | error f => exact .pure _
      | ok template =>
        refine (leaves_readPackets h _ _ _).bind fun read => ?_
        generalize o.format = outputFormat
        cases outputFormat with
        | json => exact .pure _
        | go =>
          dsimp only
          split
          · exact .pure _
          · exact (leaves_apply h _ _).bind fun _ => .pure _

end

/-! ## Writing last -/

/-- What a program that is to write to `path?` has done to the state `s`, as compared to the same
program without that path: how the one ends (`wrote`) and how the other does (`printed`). -/
structure Wrote (file : σ → Place → Option (List UInt8)) (place : σ → String → Place)
    (path? : Option String) (s : σ) (wrote printed : Exit × σ) : Prop where
  failed : wrote.1.status ≠ 0 → wrote.2 = s
  others : wrote.1.status = 0 → ∀ other, (∀ path, path? = some path → other ≠ place s path) →
    file wrote.2 other = file s other
  printed (path : String) : path? = some path → wrote.1.status = 0 →
    ∃ text, printed = (⟨0, text, ""⟩, s) ∧
      file wrote.2 (place s path) = some (Text.encode text)

/-- A program that writes nowhere leaves everything as it is. -/
theorem Wrote.of_leaves {s : σ} {wrote printed : Exit × σ} (h : wrote.2 = s) :
    Wrote file place none s wrote printed where
  failed _ := h
  others _ _ _ := by rw [h]
  printed _ hpath := nomatch hpath

theorem wrote_finish (h : host.Lawful file place format) {x : StateM σ (Except Failure String)}
    (hx : Leaves x) (o : OutputOptions) (s : σ) :
    Wrote file place o.output s ((x >>= finish host o).run s)
      ((x >>= finish host o.withoutOutput).run s) := by
  rw [hx.run_bind, hx.run_bind]
  cases (x.run s).1 with
  | error f =>
    -- Whatever the failure is, the status is not zero.
    have hfailed : f.exit.status ≠ 0 := by
      cases f with
      | reported shown reason => exact Nat.one_ne_zero
      | panicked p => exact Nat.succ_ne_zero 100
    exact ⟨fun _ => rfl, fun _ _ _ => rfl, fun _ _ hstatus => absurd hstatus hfailed⟩
  | ok text =>
    show Wrote file place o.output s ((writeOutput host o text).run s) (⟨0, text, ""⟩, s)
    cases houtput : o.output with
    | none =>
      rw [writeOutput, houtput]
      exact .of_leaves rfl
    | some path =>
      rw [writeOutput, houtput]
      dsimp only
      rw [run_bind]
      cases hwrite : ((host.writeFile path text).run s).1 with
      | error e =>
        exact ⟨fun _ => h.fails hwrite, fun hstatus => (nomatch hstatus),
          fun _ _ hstatus => (nomatch hstatus)⟩
      | ok =>
        refine ⟨fun hstatus => absurd rfl hstatus, fun _ other hother => ?_, ?_⟩
        · exact h.others hwrite (hother path rfl)
        · intro path' hpath _
          obtain rfl := Option.some.inj hpath
          exact ⟨text, rfl, h.writes hwrite⟩

theorem wrote_runCommand (h : host.Lawful file place format) (c : Command) (s : σ) :
    Wrote file place c.output? s ((runCommand host c).run s)
      ((runCommand host c.withoutOutput).run s) := by
  cases c with
  | packets o => exact wrote_finish h (leaves_packetsText h o) o.output s
  | ids o => exact wrote_finish h (leaves_idsText h o) o.output s
  | version => exact .of_leaves rfl
  | nothing => exact .of_leaves rfl

/-- The file that the arguments of the program name for the output of a command. -/
def output? (args : List String) : Option String :=
  match parse args with
  | .ok c => c.output?
  | .error _ => none

/-- **The program writes all or nothing.** If it fails, the state is what it was. If it does not, no
file but the one given for the output has changed, and that one holds the very text that is printed
when the option is taken away from the arguments. -/
theorem run_allOrNothing (h : host.Lawful file place format) (args : List String) (s : σ) :
    (((run host args).run s).1.status ≠ 0 → ((run host args).run s).2 = s) ∧
    (((run host args).run s).1.status = 0 →
      ∀ other, (∀ path, output? args = some path → other ≠ place s path) →
        file ((run host args).run s).2 other = file s other) ∧
    ∀ path, output? args = some path →
      (∃ before after, args = before ++ "--output" :: path :: after ∧
        withoutOutput args = before ++ after) ∧
      (((run host args).run s).1.status = 0 →
        ∃ text, (run host (withoutOutput args)).run s = (⟨0, text, ""⟩, s) ∧
          file ((run host args).run s).2 (place s path) = some (Text.encode text)) := by
  cases hparse : parse args with
  | error r =>
    have hrun : (run host args).run s = (r.exit, s) := by
      rw [run, hparse]
      rfl
    rw [hrun, output?, hparse]
    exact ⟨fun _ => rfl, fun _ _ _ => rfl, fun _ hpath => nomatch hpath⟩
  | ok c =>
    have hrun : run host args = runCommand host c := by rw [run, hparse]
    have hprinted : run host (withoutOutput args) = runCommand host c.withoutOutput := by
      rw [run, parse_withoutOutput hparse]
    have houtput : output? args = c.output? := by rw [output?, hparse]
    have hwrote := wrote_runCommand h c s
    rw [hrun, hprinted, houtput]
    exact ⟨hwrote.failed, hwrote.others, fun path hpath =>
      ⟨withoutOutput_split hparse hpath, hwrote.printed path hpath⟩⟩

theorem run_allOrNothing_ids :
    let host := FileTree.host fun _ text => .ok text
    let tree : FileTree := ⟨[⟨["ids.php"], Text.encode "const LOGIN = 1;", false⟩]⟩
    let args := ["ids", "ids.php", "--repr", "byte", "--output", "ids.go", "--no-format"]
    host.Lawful FileTree.content? FileTree.place (fun _ text => .ok text) ∧
      ((run host args).run tree).1.status = 0 ∧
      withoutOutput args = ["ids", "ids.php", "--repr", "byte", "--no-format"] ∧
      ∃ text, (run host (withoutOutput args)).run tree = (⟨0, text, ""⟩, tree) ∧
        ((run host args).run tree).2.content? ["ids.go"] = some (Text.encode text) := by
  intro host tree args
  have hstatus : ((run host args).run tree).1.status = 0 := by decide +kernel
  have houtput : output? args = some "ids.go" := by decide +kernel
  have hplace : tree.place "ids.go" = ["ids.go"] := by decide +kernel
  have hlawful := FileTree.lawful_host fun _ text => .ok text
  obtain ⟨-, hwrote⟩ := (run_allOrNothing hlawful args tree).2.2 "ids.go" houtput
  rw [hplace] at hwrote
  exact ⟨hlawful, hstatus, by decide +kernel, hwrote hstatus⟩

end CommandLine

end PacketGen
