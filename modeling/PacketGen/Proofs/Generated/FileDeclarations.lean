import PacketGen.Generated.File
import PacketGen.Proofs.Generated.PacketDeclarations
import PacketGen.Proofs.Text.Replacement

/-!
# What a generated file declares

The parts of a file are sections one after the other, so what it declares is what they do: the
identifier block, the interface, the dispatch table, and the group of every outcome. The parts are
told here for the settings that a run has by default, where all names are known but those that
come from the declarations and from the packets.
-/

namespace PacketGen.Generated

open GoLexeme (code declared? opened?)

/-! ## The template -/

theorem toList_joinLines (ls : List String) :
    (String.join (ls.map (· ++ "\n"))).toList = Text.joinLines (ls.map String.toList) := by
  induction ls with
  | nil => rfl
  | cons l ls ih =>
    rw [List.map_cons, String.join_cons, String.toList_append, String.toList_append, ih,
      List.map_cons, Text.joinLines_cons, List.append_assoc]
    rfl

/-- Placeholders are filled in line by line. -/
theorem substituted_joinLines (ls : List (List Char)) (name : String) (t : IdType) :
    substituted (Text.joinLines ls) name t =
      Text.joinLines (ls.map fun l => substituted l name t) := by
  unfold substituted
  dsimp only
  rw [Text.replaceAll_joinLines (by decide) (by decide),
    Text.replaceAll_joinLines (by decide) (by decide),
    Text.replaceAll_joinLines (by decide) (by decide), List.map_map, List.map_map]
  rfl

theorem feed_not_mem_substituted {l : List Char} {name : String} {t : IdType} (hl : '\n' ∉ l)
    (hname : '\n' ∉ name.toList) (htype : '\n' ∉ t.name.toList)
    (hsuffix : '\n' ∉ t.suffix.toList) : '\n' ∉ substituted l name t :=
  Text.not_mem_replaceAll (Text.not_mem_replaceAll (Text.not_mem_replaceAll hl htype)
    (not_mem_toList_append hname hsuffix)) hname

theorem exists_templateLines : ∃ ls : List String,
    batchTemplate = String.join (ls.map (· ++ "\n")) ∧ (∀ l ∈ ls.map String.toList, '\n' ∉ l) ∧
      Declares ((ls.map String.toList).map fun l => substituted l "Batch" .default) ["Batch"] :=
  ⟨_, rfl, by decide +kernel, by decide +kernel⟩

theorem getLast?_joinLines {ls : List (List Char)} (hne : ls ≠ []) :
    (Text.joinLines ls).getLast? = some '\n' := by
  obtain ⟨before, l, rfl⟩ := (List.eq_nil_or_concat ls).resolve_left hne
  rw [List.concat_eq_append, Text.joinLines_append, Text.joinLines_cons, Text.joinLines_nil,
    ← List.append_assoc, List.getLast?_concat]

theorem goSection_renderTemplate :
    GoSection (renderTemplate batchTemplate "Batch" .default).toList ["Batch"] := by
  obtain ⟨ls, htemplate, hfeed, hdeclares⟩ := exists_templateLines
  have hne : ((ls.map String.toList).map fun l => substituted l "Batch" .default) ≠ [] := by
    intro hnil
    rw [hnil] at hdeclares
    cases hdeclares
  have hlines : ∀ l ∈ (ls.map String.toList).map fun l => substituted l "Batch" .default,
      '\n' ∉ l :=
    List.forall_mem_map.mpr fun l hl =>
      feed_not_mem_substituted (hfeed l hl) (by decide) (by decide) (by decide)
  have htext : substituted batchTemplate.toList "Batch" .default =
      Text.joinLines ((ls.map String.toList).map fun l => substituted l "Batch" .default) := by
    rw [htemplate, toList_joinLines, substituted_joinLines]
  rw [renderTemplate, htext, if_pos (getLast?_joinLines hne), String.toList_ofList]
  exact (GoSection.ofLines rfl hlines hdeclares).append GoSection.empty

/-! ## Packets left to be written by hand -/

theorem goSection_commentLine {l : List Char} (hfeed : '\n' ∉ l) :
    GoSection (commentLine l) [] := by
  have htrim : '\n' ∉ Text.trimEnd l := fun h => hfeed (Text.mem_of_mem_dropEndWhile h)
  have hspaced : '\n' ∉ ' ' :: Text.trimEnd l := by simpa using htrim
  have hempty : '\n' ∉ ([] : List Char) := by simp
  unfold commentLine
  dsimp only
  split
  · exact GoSection.comment hempty
  · exact GoSection.comment hspaced

theorem goSection_commentLines {ls : List (List Char)} (h : ∀ l ∈ ls, '\n' ∉ l) :
    GoSection (ls.flatMap commentLine) [] := by
  induction ls with
  | nil => exact GoSection.nil
  | cons l ls ih =>
    obtain ⟨hl, hls⟩ := List.forall_mem_cons.mp h
    rw [List.flatMap_cons]
    exact (goSection_commentLine hl).append (ih hls)

/-- Whatever a text is, as comment lines it declares nothing. -/
theorem goSection_commented (text : String) : GoSection (commented text).toList [] := by
  rw [commented, String.toList_ofList]
  exact goSection_commentLines fun _ hl => Text.feed_not_mem_lines hl

theorem goSection_fallbackBlock {f : Fallback} (hfile : '\n' ∉ f.fileName.toList) :
    GoSection (fallbackBlock f).toList [] := by
  have hfailed : '\n' ∉ (" " ++ f.fileName ++ ": automatic port failed.").toList :=
    not_mem_toList_append (not_mem_toList_append (by decide) hfile) (by decide)
  have hhead := ((GoSection.note _ hfailed).append
    (GoSection.note " Read the original code below and port it manually." (by decide))).append
      ((GoSection.note "" (by decide)).append (goSection_commented f.diagnostic))
  have hopen : "// ".toList = "//".toList ++ " ".toList := by decide
  have hfirst : ": automatic port failed.\n".toList =
      ": automatic port failed.".toList ++ "\n".toList := by decide
  have hread : "// Read the original code below and port it manually.\n//\n".toList =
      "//".toList ++ (" Read the original code below and port it manually.".toList ++
        ("\n".toList ++ ("//".toList ++ ("".toList ++ "\n".toList)))) := by decide
  have hlast : "\n".toList = ['\n'] := by decide
  -- With or without a source, what stands behind the diagnostic is comments.
  have hblock : ∀ source : String, GoSection source.toList [] →
      GoSection ("// " ++ f.fileName ++ ": automatic port failed.\n" ++
        "// Read the original code below and port it manually.\n//\n" ++
        commented f.diagnostic ++ source ++ "\n").toList [] := by
    intro source hsource
    have hsection := (hhead.append hsource).append GoSection.empty
    simp only [String.toList_append, List.append_assoc, hopen, hfirst, hread, hlast] at hsection ⊢
    exact hsection
  unfold fallbackBlock
  cases f.source with
  | none => exact hblock _ GoSection.nil
  | some source =>
    refine hblock _ ?_
    rw [String.toList_append]
    exact (GoSection.note "" (by decide)).append (goSection_commented source)

/-! ## Outcomes -/

/-- What the group of an outcome declares. -/
def groupNames : Outcome → List String
  | .generated p => constantNames p ++ [p.name]
  | .template name => [name]
  | .fallback _ => []

/-- What is asked of an outcome: that a generated packet is plain, that the template is that of the
container, and that a source has its name on one line. -/
def PlainOutcome (config : Config) : Outcome → Prop
  | .generated p => Packet.Plain p
  | .template name => name = config.batchPacket
  | .fallback f => IsStem f.name ∧ '\n' ∉ f.fileName.toList

theorem goSection_outcomeGroup {o : Outcome} (h : PlainOutcome .default o) :
    GoSection (outcomeGroup batchTemplate .default o).toList (groupNames o) := by
  cases o with
  | generated p => exact goSection_packetCode h
  | template name =>
    cases h
    exact goSection_renderTemplate
  | fallback f => exact goSection_fallbackBlock h.2

theorem PlainOutcome.name {o : Outcome} (h : PlainOutcome .default o) : IsStem o.name := by
  cases o with
  | generated p => exact Packet.Plain.name h
  | template name =>
    cases h
    refine ⟨by decide, ⟨List.all_eq_true.mp rfl, ?_⟩⟩
    intro c hc
    obtain rfl : 'B' = c := Option.some.inj hc
    rfl
  | fallback f => exact h.1

/-! ## The rest of the file -/

theorem goSection_packetInterface :
    GoSection (packetInterface .default).toList ["Packet"] := by
  have hpid : IsEntry "\tPid() PacketID\n" := ⟨"Pid() PacketID".toList, by decide, by decide⟩
  have hread : IsEntry "\tRead(buf *buffer.Buffer)\n" :=
    ⟨"Read(buf *buffer.Buffer)".toList, by decide, by decide⟩
  have hwrite : IsEntry "\tWrite() *buffer.Buffer\n" :=
    ⟨"Write() *buffer.Buffer".toList, by decide, by decide⟩
  have hentries : ∀ s ∈ ["\tPid() PacketID\n", "\tRead(buf *buffer.Buffer)\n",
      "\tWrite() *buffer.Buffer\n"], IsEntry s :=
    List.forall_mem_cons.mpr ⟨hpid, List.forall_mem_cons.mpr ⟨hread,
      List.forall_mem_singleton.mpr hwrite⟩⟩
  have hblock : GoSection ("type Packet interface \x7b" ++ "\n" ++
      String.join ["\tPid() PacketID\n", "\tRead(buf *buffer.Buffer)\n",
        "\tWrite() *buffer.Buffer\n"] ++ "\x7d\n\n").toList ["Packet"] :=
    GoSection.block (by decide) (by decide) (by decide) hentries
  have hcomment :=
    GoSection.note " Packet is a network packet of the protocol." (by decide)
  have hsection := hcomment.append hblock
  have hname : IdType.default.name = "PacketID" := rfl
  have hnote : "// Packet is a network packet of the protocol.\n".toList =
      "//".toList ++ (" Packet is a network packet of the protocol.".toList ++ "\n".toList) := by
    decide
  have hheading : "type Packet interface \x7b\n".toList =
      "type Packet interface \x7b".toList ++ "\n".toList := by decide
  have hmethod : "\tPid() PacketID\n".toList =
      "\tPid() ".toList ++ ("PacketID".toList ++ "\n".toList) := by decide
  have hnil : String.join [] = "" := rfl
  unfold packetInterface
  simp only [String.join_cons, String.toList_append, List.append_assoc, hname, hnote, hheading,
    hmethod, hnil, String.toList_empty, List.nil_append] at hsection ⊢
  exact hsection

theorem goSection_dispatchTable {outcomes : List Outcome} (h : ∀ o ∈ outcomes, IsStem o.name) :
    GoSection (dispatchTable .default outcomes).toList ["packets"] := by
  have hentries : ∀ s ∈ outcomes.map (dispatchLine .default), IsEntry s := by
    refine List.forall_mem_map.mpr ?_
    intro o ho
    refine isEntry_of_oneLine (oneLine_dispatchLine (by decide) (h o ho).isGoWord.feed_not_mem) ?_
    rw [dispatchLine_toList, listing]
    cases o.isFallback with
    | true => rfl
    | false => rfl
  have hsection : GoSection (dispatchHead .default ++ "\n" ++
      String.join (outcomes.map (dispatchLine .default)) ++ "\x7d\n\n").toList ["packets"] :=
    GoSection.block (by decide) (by decide) (by decide) hentries
  have hopen : "]func() Packet\x7b\n".toList = "]func() Packet\x7b".toList ++ "\n".toList := by
    decide
  unfold dispatchHead at hsection
  unfold dispatchTable
  simp only [String.toList_append, List.append_assoc, hopen] at hsection ⊢
  exact hsection

/-- The imports are those of the settings, with those of the template or without them. -/
theorem importsOf_default (outcomes : List Outcome) :
    importsOf .default outcomes = ["github.com/L7-MCPE/lav7/util/buffer"] ∨
      importsOf .default outcomes =
        ["github.com/L7-MCPE/lav7/util", "github.com/L7-MCPE/lav7/util/buffer"] := by
  unfold importsOf
  cases outcomes.any Outcome.isTemplate with
  | true =>
    refine Or.inr ?_
    simp [Config.default, List.mergeSort, List.eraseReps, List.eraseRepsBy, List.eraseRepsBy.loop]
  | false =>
    refine Or.inl ?_
    simp [Config.default, List.eraseReps, List.eraseRepsBy, List.eraseRepsBy.loop]

theorem goSection_importDeclaration (outcomes : List Outcome) :
    GoSection (importDeclaration (importsOf .default outcomes)).toList [] := by
  rcases importsOf_default outcomes with h | h
  · have htext : (importDeclaration ["github.com/L7-MCPE/lav7/util/buffer"]).toList =
        ("import \"github.com/L7-MCPE/lav7/util/buffer\"" ++ "\n\n").toList := by decide
    rw [h, htext]
    exact GoSection.line (by decide) (by decide) (by decide)
  · have hdeclares : Declares ["import (".toList, "\t\"github.com/L7-MCPE/lav7/util\"".toList,
        "\t\"github.com/L7-MCPE/lav7/util/buffer\"".toList, [')'], []] [] := by decide
    rw [h]
    exact GoSection.ofLines (by decide) (by decide) hdeclares

theorem goSection_preamble {origin : String} (horigin : '\n' ∉ origin.toList)
    (outcomes : List Outcome) :
    GoSection (preamble origin Config.default.package (importsOf .default outcomes)).toList [] := by
  have hnote : '\n' ∉ (" Code generated by pmportc from " ++ origin ++ ". DO NOT EDIT.").toList :=
    not_mem_toList_append (not_mem_toList_append (by decide) horigin) (by decide)
  have hpackage : GoSection ("package lav7" ++ "\n\n").toList [] :=
    GoSection.line (by decide) (by decide) (by decide)
  have hsection := (((GoSection.note _ hnote).append GoSection.empty).append hpackage).append
    (goSection_importDeclaration outcomes)
  have hopen : "// Code generated by pmportc from ".toList =
      "//".toList ++ " Code generated by pmportc from ".toList := by decide
  have hclose : ". DO NOT EDIT.\n\n".toList =
      ". DO NOT EDIT.".toList ++ ("\n".toList ++ ['\n']) := by decide
  have hclause : "package lav7".toList = "package ".toList ++ "lav7".toList := by decide
  have hname : Config.default.package = "lav7" := rfl
  unfold preamble
  simp only [String.toList_append, List.append_assoc, hopen, hclose, hclause, hname] at hsection ⊢
  exact hsection

/-- What a run puts together: the settings are those by default, and every name is a word. -/
structure PlainRun (r : Run) (outcomes : List Outcome) : Prop where
  config : r.config = .default
  template : r.batchTemplate = batchTemplate
  origin : '\n' ∉ r.origin.toList
  table : Spellable r.table .default
  outcomes : ∀ o ∈ outcomes, PlainOutcome .default o

/-- **A generated file** declares what its parts declare. -/
theorem goSection_packetsFile {r : Run} {outcomes : List Outcome} (h : PlainRun r outcomes) :
    GoSection (packetsFile r outcomes).toList
      (identifierNames ++ identifierConstants r.table .default ++ ["Packet", "packets"] ++
        outcomes.flatMap groupNames) := by
  have hnames : ∀ o ∈ outcomes, IsStem o.name := fun o ho => (h.outcomes o ho).name
  have hgroups := GoSection.join fun o ho => goSection_outcomeGroup (h.outcomes o ho)
  have hsection := (((goSection_preamble h.origin outcomes).append
    (goSection_identifiers h.table)).append
      (goSection_packetInterface.append (goSection_dispatchTable hnames))).append hgroups
  have htype : Config.default.idType = .default := rfl
  unfold packetsFile fileAround
  simp only [h.config, h.template, htype, String.toList_append, List.append_assoc,
    List.nil_append] at hsection ⊢
  exact hsection

end PacketGen.Generated
