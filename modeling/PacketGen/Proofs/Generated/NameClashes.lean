import Mathlib.Data.List.Nodup
import PacketGen.Proofs.Generated.FileDeclarations

/-!
# Where the names of a file clash

A file declares fixed names, the constants of the identifiers, the structs of the packets and the
constants of the packets. A constant is the name of something with a suffix or with another name
behind it, and nothing is put between the two. So one name may come about in several ways, and
nothing keeps them from all being declared.

What does keep apart: the names of a table are distinct, and no fixed name ends like a constant of
an identifier. So the fixed names, the constants of the identifiers and the structs never clash
among themselves, each with its own kind. For all the rest it depends on the names
(`nodup_names_iff`). If no name of the table goes on to another one, packets cannot interfere with
each other any more, and what is left are the constants of a single packet
(`nodup_names_iff_of_unambiguous`): two of one name, one that is called like the suffix, and one
without a letter or a digit in its name.
-/

namespace PacketGen.Generated

variable {table : IdTable} {outcomes : List Outcome} {names : List String}

/-- The names that a file declares whatever its packets are. -/
def fileNames (table : IdTable) : List String :=
  identifierNames ++ identifierConstants table .default ++ ["Packet", "packets"]

/-- The structs of the outcomes: one for each that is not left to be written by hand. -/
def structNames (outcomes : List Outcome) : List String :=
  (outcomes.filter fun o => !o.isFallback).map (·.name)

/-- The constants of an outcome. -/
def outcomeConstants : Outcome → List String
  | .generated p => constantNames p
  | .template _ | .fallback _ => []

def packetConstantNames (outcomes : List Outcome) : List String :=
  outcomes.flatMap outcomeConstants

theorem groupNames_perm (outcomes : List Outcome) :
    (outcomes.flatMap groupNames).Perm (structNames outcomes ++ packetConstantNames outcomes) := by
  induction outcomes with
  | nil => exact .refl _
  | cons o os ih =>
    cases o with
    | generated p =>
      have hswap : (constantNames p ++ [p.name] ++ os.flatMap groupNames).Perm
          (constantNames p ++ (p.name :: structNames os ++ packetConstantNames os)) := by
        rw [List.append_assoc]
        exact (ih.cons p.name).append_left _
      refine hswap.trans ?_
      change (constantNames p ++ (p.name :: structNames os ++ packetConstantNames os)).Perm
        (p.name :: structNames os ++ (constantNames p ++ packetConstantNames os))
      rw [← List.append_assoc, ← List.append_assoc]
      exact List.perm_append_comm.append_right _
    | template name => exact ih.cons name
    | fallback f => exact ih

/-- The outcomes of a table, whose names are distinct words. -/
structure Named (table : IdTable) (outcomes : List Outcome) : Prop where
  names : outcomes.map (·.name) = table.canonical.map (·.name)
  distinct : (declaredNames table).Nodup
  stems : ∀ name ∈ declaredNames table, IsStem name

namespace Named

variable (h : Named table outcomes)
include h

theorem nodup_outcomes : (outcomes.map (·.name)).Nodup := by
  rw [h.names]
  exact (List.nodup_append.mp h.distinct).1

theorem nodup_structNames : (structNames outcomes).Nodup :=
  (List.filter_sublist.map _).nodup h.nodup_outcomes

theorem name_mem {o : Outcome} (ho : o ∈ outcomes) : o.name ∈ declaredNames table := by
  refine List.mem_append_left _ ?_
  rw [← h.names]
  exact List.mem_map_of_mem ho

theorem mem_of_mem_structNames {name : String} (hname : name ∈ structNames outcomes) :
    name ∈ declaredNames table := by
  obtain ⟨o, ho, rfl⟩ := List.mem_map.mp hname
  exact h.name_mem (List.mem_of_mem_filter ho)

end Named

/-- A constant of an identifier ends as no fixed name does. -/
theorem constant_ne_of_getLast? {w : String} (hw : w.toList.getLast? ≠ some 'd') (name : String) :
    IdType.default.constant name ≠ w := by
  rintro rfl
  refine hw ?_
  have hsuffix : "Head".toList = "Hea".toList ++ ['d'] := by decide
  rw [IdType.constant, String.toList_append]
  change (name.toList ++ "Head".toList).getLast? = some 'd'
  rw [hsuffix, ← List.append_assoc, List.getLast?_concat]

theorem Named.nodup_fileNames (h : Named table outcomes) : (fileNames table).Nodup := by
  have hconstants : (identifierConstants table .default).Nodup :=
    h.distinct.map fun _ _ heq => constant_inj.mp heq
  have hfixed : ∀ w ∈ identifierNames ++ ["Packet", "packets"],
      w ∉ identifierConstants table .default := by
    intro w hw hmem
    obtain ⟨name, -, hname⟩ := List.mem_map.mp hmem
    have hlast : ∀ w ∈ identifierNames ++ ["Packet", "packets"], w.toList.getLast? ≠ some 'd' := by
      decide
    exact constant_ne_of_getLast? (hlast w hw) name hname
  have hperm : (fileNames table).Perm
      (identifierNames ++ ["Packet", "packets"] ++ identifierConstants table .default) := by
    unfold fileNames
    rw [List.append_assoc, List.append_assoc]
    exact List.perm_append_comm.append_left _
  refine hperm.nodup_iff.mpr (List.nodup_append.mpr ⟨by decide, hconstants, ?_⟩)
  rintro w hw v hv rfl
  exact hfixed w hw hv

/-- **Where names clash**: a struct or a constant of a packet is called as something else is. -/
theorem Named.nodup_names_iff (h : Named table outcomes)
    (hnames : names.Perm (fileNames table ++ outcomes.flatMap groupNames)) :
    names.Nodup ↔
      (∀ w ∈ structNames outcomes, w ∉ fileNames table) ∧
      (packetConstantNames outcomes).Nodup ∧
      ∀ w ∈ packetConstantNames outcomes, w ∉ fileNames table ∧ w ∉ structNames outcomes := by
  have hperm := hnames.trans ((groupNames_perm outcomes).append_left _)
  rw [hperm.nodup_iff]
  constructor
  · intro hnodup
    obtain ⟨-, hrest, hfile⟩ := List.nodup_append.mp hnodup
    obtain ⟨-, hconstants, hstructs⟩ := List.nodup_append.mp hrest
    refine ⟨?_, hconstants, ?_⟩
    · intro w hw hmem
      exact hfile w hmem w (List.mem_append_left _ hw) rfl
    · intro w hw
      exact ⟨fun hmem => hfile w hmem w (List.mem_append_right _ hw) rfl,
        fun hmem => hstructs w hmem w hw rfl⟩
  · rintro ⟨hstructs, hconstants, hapart⟩
    refine List.nodup_append.mpr ⟨h.nodup_fileNames,
      List.nodup_append.mpr ⟨h.nodup_structNames, hconstants, ?_⟩, ?_⟩
    · rintro w hw v hv rfl
      exact (hapart w hv).2 hw
    · rintro w hw v hv rfl
      rcases List.mem_append.mp hv with hv | hv
      · exact hstructs w hv hw
      · exact (hapart w hv).1 hw

/-! ## Names that do not go on to each other -/

/-- No name of a table is the beginning of another, or of a fixed name. -/
structure Unambiguous (table : IdTable) : Prop where
  apart : ∀ a ∈ declaredNames table, ∀ b ∈ declaredNames table, a.toList <+: b.toList → a = b
  fixed : ∀ a ∈ declaredNames table, ¬ a.toList <+: "PacketIDFromString".toList

namespace Unambiguous

variable (hun : Unambiguous table)
include hun

/-- A name put together in two ways has been put together from the same parts. -/
theorem parts_eq {a b c d : String} (ha : a ∈ declaredNames table) (hb : b ∈ declaredNames table)
    (heq : a ++ c = b ++ d) : a = b ∧ c = d := by
  have hlist : a.toList ++ c.toList = b.toList ++ d.toList := by
    rw [← String.toList_append, ← String.toList_append, heq]
  have hname : a = b := by
    rcases List.prefix_or_prefix_of_prefix (List.prefix_append a.toList c.toList)
      (hlist ▸ List.prefix_append b.toList d.toList) with hstarts | hstarts
    · exact hun.apart a ha b hb hstarts
    · exact (hun.apart b hb a ha hstarts).symm
  subst hname
  exact ⟨rfl, String.toList_inj.mp (List.append_cancel_left hlist)⟩

theorem append_not_mem_fixed (hstems : ∀ name ∈ declaredNames table, IsStem name) {a : String}
    (ha : a ∈ declaredNames table) (c : String) :
    a ++ c ∉ identifierNames ++ ["Packet", "packets"] := by
  have hfixed : ∀ w ∈ identifierNames ++ ["Packet", "packets"],
      w.toList <+: "PacketIDFromString".toList ∨ w.toList.head? = some 'p' := by
    decide
  intro hmem
  have hstarts : a.toList <+: (a ++ c).toList := by
    rw [String.toList_append]
    exact List.prefix_append _ _
  rcases hfixed _ hmem with hw | hw
  · exact hun.fixed a ha (hstarts.trans hw)
  · have hstem := hstems a ha
    have hne : a.toList ≠ [] := by simpa using hstem.1
    obtain ⟨d, ds, hds⟩ := List.exists_cons_of_ne_nil hne
    rw [String.toList_append, hds] at hw
    cases hw
    exact absurd (hstem.2.first 'p' (by simp [hds])) (by decide)

/-- Behind a name of the table only the suffix makes it one of the file. -/
theorem append_mem_fileNames_iff (hstems : ∀ name ∈ declaredNames table, IsStem name)
    {a c : String} (ha : a ∈ declaredNames table) : a ++ c ∈ fileNames table ↔ c = "Head" := by
  constructor
  · intro hmem
    rcases List.mem_append.mp hmem with hmem | hmem
    · rcases List.mem_append.mp hmem with hmem | hmem
      · exact absurd (List.mem_append_left _ hmem) (hun.append_not_mem_fixed hstems ha c)
      · obtain ⟨b, hb, hname⟩ := List.mem_map.mp hmem
        exact (hun.parts_eq hb ha hname).2.symm
    · exact absurd (List.mem_append_right _ hmem) (hun.append_not_mem_fixed hstems ha c)
  · rintro rfl
    exact List.mem_append_left _ (List.mem_append_right _ (List.mem_map_of_mem ha))

end Unambiguous

theorem mem_packetConstantNames {w : String} :
    w ∈ packetConstantNames outcomes ↔
      ∃ p, .generated p ∈ outcomes ∧ ∃ c ∈ p.constants, p.name ++ c.name = w := by
  constructor
  · intro h
    obtain ⟨o, ho, hw⟩ := List.mem_flatMap.mp h
    cases o with
    | generated p => exact ⟨p, ho, List.mem_map.mp hw⟩
    | template name => cases hw
    | fallback f => cases hw
  · rintro ⟨p, hp, hw⟩
    exact List.mem_flatMap.mpr ⟨.generated p, hp, List.mem_map.mpr hw⟩

theorem name_mem_structNames {p : Packet} (hp : .generated p ∈ outcomes) :
    p.name ∈ structNames outcomes :=
  List.mem_map.mpr ⟨.generated p, List.mem_filter.mpr ⟨hp, rfl⟩, rfl⟩

/-- The constants of a packet clash with nothing, if those of other packets do not count. -/
def ClashFree (p : Packet) : Prop :=
  (p.constants.map (·.name)).Nodup ∧ ∀ c ∈ p.constants, c.name ≠ "" ∧ c.name ≠ "Head"

theorem nodup_constantNames_iff (p : Packet) :
    (constantNames p).Nodup ↔ (p.constants.map (·.name)).Nodup := by
  have hmap : constantNames p = (p.constants.map (·.name)).map (p.name ++ ·) := by
    rw [constantNames, List.map_map]
    rfl
  rw [hmap]
  refine List.nodup_map_iff ?_
  intro c d heq
  have hlist := congrArg String.toList heq
  dsimp only at hlist
  rw [String.toList_append, String.toList_append] at hlist
  exact String.toList_inj.mp (List.append_cancel_left hlist)

namespace Named

variable (h : Named table outcomes) (hun : Unambiguous table)
include h hun

theorem structNames_not_mem {w : String} (hw : w ∈ structNames outcomes) :
    w ∉ fileNames table := by
  have hmem := hun.append_mem_fileNames_iff h.stems (c := "") (h.mem_of_mem_structNames hw)
  rw [String.append_empty] at hmem
  exact fun hfile => absurd (hmem.mp hfile) (by decide)

/-- Packets of different names have no constant in common. -/
theorem nodup_packetConstantNames_iff :
    (packetConstantNames outcomes).Nodup ↔
      ∀ p, .generated p ∈ outcomes → (p.constants.map (·.name)).Nodup := by
  have hapart : outcomes.Pairwise (Function.onFun List.Disjoint outcomeConstants) := by
    refine (List.pairwise_map.mp h.nodup_outcomes).imp_of_mem ?_
    intro o o' ho ho' hne w hw hw'
    cases o with
    | template name => cases hw
    | fallback f => cases hw
    | generated p =>
      cases o' with
      | template name => cases hw'
      | fallback f => cases hw'
      | generated q =>
        obtain ⟨c, -, rfl⟩ := List.mem_map.mp hw
        obtain ⟨d, -, heq⟩ := List.mem_map.mp hw'
        exact hne (hun.parts_eq (h.name_mem ho') (h.name_mem ho) heq).1.symm
  rw [packetConstantNames, List.nodup_flatMap, and_iff_left hapart]
  constructor
  · intro hall p hp
    exact (nodup_constantNames_iff p).mp (hall _ hp)
  · intro hall o ho
    cases o with
    | generated p => exact (nodup_constantNames_iff p).mpr (hall p ho)
    | template name => exact List.nodup_nil
    | fallback f => exact List.nodup_nil

/-- **If no name goes on to another**, the names of a file are distinct exactly when the constants
of every packet are, and none of them is called like the suffix or has no name left. -/
theorem nodup_names_iff_of_unambiguous
    (hnames : names.Perm (fileNames table ++ outcomes.flatMap groupNames)) :
    names.Nodup ↔ ∀ p, .generated p ∈ outcomes → ClashFree p := by
  rw [h.nodup_names_iff hnames]
  have hstructs : ∀ w ∈ structNames outcomes, w ∉ fileNames table := fun w hw =>
    h.structNames_not_mem hun hw
  constructor
  · rintro ⟨-, hnodup, hapart⟩ p hp
    refine ⟨(h.nodup_packetConstantNames_iff hun).mp hnodup p hp, ?_⟩
    intro c hc
    obtain ⟨hfile, hstruct⟩ := hapart _ (mem_packetConstantNames.mpr ⟨p, hp, c, hc, rfl⟩)
    refine ⟨?_, ?_⟩
    · intro hempty
      rw [hempty, String.append_empty] at hstruct
      exact hstruct (name_mem_structNames hp)
    · intro hhead
      exact hfile ((hun.append_mem_fileNames_iff h.stems (h.name_mem hp)).mpr hhead)
  · intro hfree
    refine ⟨hstructs, (h.nodup_packetConstantNames_iff hun).mpr fun p hp => (hfree p hp).1, ?_⟩
    intro w hw
    obtain ⟨p, hp, c, hc, rfl⟩ := mem_packetConstantNames.mp hw
    obtain ⟨hempty, hhead⟩ := (hfree p hp).2 c hc
    refine ⟨?_, ?_⟩
    · intro hfile
      exact hhead ((hun.append_mem_fileNames_iff h.stems (h.name_mem hp)).mp hfile)
    · intro hstruct
      have hother := h.mem_of_mem_structNames hstruct
      have hparts := hun.parts_eq (d := "") (h.name_mem hp) hother (String.append_empty).symm
      exact hempty hparts.2

end Named

end PacketGen.Generated
