/-!
# Lines

Two ways to cut a text at its line feeds. `splitLines` keeps everything between line feeds, so
that offsets can be counted on; `lines` is the reader's view, where a carriage return before a
line feed belongs to the line end and a final line feed does not open another line.
-/

namespace PacketGen.Text

/-- The pieces between line feeds: one more than there are line feeds. -/
def splitLines (cs : List Char) : List (List Char) := cs.splitOn '\n'

/-- Drops one final carriage return, if there is one. -/
def chompReturn (cs : List Char) : List Char :=
  if cs.getLast? = some '\r' then cs.dropLast else cs

/-- The lines among pieces that a line feed ends, but for the last piece. -/
def endedLines : List (List Char) → List (List Char)
  | [] => []
  | [last] => if last = [] then [] else [last]
  | l :: ls => chompReturn l :: endedLines ls

def lines (cs : List Char) : List (List Char) := endedLines (splitLines cs)

/-- No piece holds a line feed. -/
theorem not_mem_of_mem_splitLines {cs l : List Char} (h : l ∈ splitLines cs) : '\n' ∉ l := by
  unfold splitLines at h
  induction cs generalizing l with
  | nil =>
    rw [List.splitOn_nil, List.mem_singleton] at h
    exact h ▸ List.not_mem_nil
  | cons c cs ih =>
    obtain ⟨first, pieces, hpieces⟩ := List.exists_cons_of_ne_nil (List.splitOn_ne_nil '\n' cs)
    rw [List.splitOn_cons_eq_if_modifyHead] at h
    split at h
    · rcases List.mem_cons.mp h with rfl | h
      · exact List.not_mem_nil
      · exact ih h
    · next hc =>
      rw [hpieces, List.modifyHead_cons] at h
      rcases List.mem_cons.mp h with rfl | h
      · have hfirst : '\n' ∉ first := ih (hpieces ▸ List.mem_cons_self)
        rintro (_ | ⟨_, hmem⟩)
        · exact hc BEq.rfl
        · exact hfirst hmem
      · exact ih (hpieces ▸ List.mem_cons_of_mem _ h)

end PacketGen.Text
