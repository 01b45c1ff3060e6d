import PacketGen.Diagnostic.Snippet
import PacketGen.PacketFault

/-!
# File numbers do not show

A label names its file by a number, and the number decides which labels belong together and which
text they point into. The number itself is never written: a snippet is made of the name and the
lines of the file. So the labels of one file may be moved to any other number that stands for the
same file, among any other sources, and the diagnostic is shown the same (`render_moved`).

A packet's faults point into the packet's own file only, which makes this the whole story of how
they depend on the sources of a run (`PacketFault.render_diagnostic`).
-/

namespace PacketGen

namespace Label

/-- The label in the file with another number. -/
def moved (number : Nat) (l : Label) : Label := { l with file := number }

end Label

namespace FileLayout

variable {number n : Nat} {file : SourceFile} {l : Label} {s : FileLayout}

/-- The layout of the same lines under another number. -/
def moved (number : Nat) (s : FileLayout) : FileLayout :=
  { s with number, head := s.head.moved number }

/-- The layout with the label as its head, if it leads. -/
def headed (s : FileLayout) (l : Label) : FileLayout :=
  if leads l s.head then { s with head := l } else s

theorem file_headed : (s.headed l).file = s.file := by
  unfold headed
  split <;> rfl

theorem number_headed : (s.headed l).number = s.number := by
  unfold headed
  split <;> rfl

theorem headed_moved : (s.moved number).headed (l.moved number) = (s.headed l).moved number := by
  unfold headed
  by_cases hleads : leads l s.head = true
  · have hmoved : leads (l.moved number) (s.moved number).head = true := hleads
    rw [if_pos hleads, if_pos hmoved]
    rfl
  · have hmoved : ¬ leads (l.moved number) (s.moved number).head = true := hleads
    rw [if_neg hleads, if_neg hmoved]

theorem add_eq (s : FileLayout) (l : Label) :
    s.add l =
      if s.file.lineIndex l.span.start = s.file.lineIndex l.span.stop then
        (s.headed l).addCaret (s.file.lineIndex l.span.start) l
      else
        (s.headed l).addBar (s.file.lineIndex l.span.start) (s.file.lineIndex l.span.stop) l := by
  rw [← file_headed (s := s) (l := l)]
  rfl

theorem number_add : (s.add l).number = s.number := by
  rw [add_eq]
  split
  · exact number_headed
  · exact number_headed

theorem add_moved : (s.moved number).add (l.moved number) = (s.add l).moved number := by
  rw [add_eq, add_eq, headed_moved]
  by_cases hlines : s.file.lineIndex l.span.start = s.file.lineIndex l.span.stop
  · have hmoved : (s.moved number).file.lineIndex (l.moved number).span.start =
        (s.moved number).file.lineIndex (l.moved number).span.stop := hlines
    rw [if_pos hlines, if_pos hmoved]
    rfl
  · have hmoved : ¬ (s.moved number).file.lineIndex (l.moved number).span.start =
        (s.moved number).file.lineIndex (l.moved number).span.stop := hlines
    rw [if_neg hlines, if_neg hmoved]
    rfl

theorem start_moved : start file (l.moved number) = (start file l).moved number :=
  add_moved (s := ⟨l.file, file, l, 0, []⟩)

/-- Layouts of one file only, the file with the number `n`. -/
def Within (n : Nat) (layouts : List FileLayout) : Prop := ∀ s ∈ layouts, s.number = n

theorem within_insert {layouts : List FileLayout} (hlayouts : Within n layouts)
    (hl : l.file = n) : Within n (insert file l layouts) := by
  cases layouts with
  | nil =>
    intro s hs
    rw [List.mem_singleton.mp hs, start, number_add]
    exact hl
  | cons t ts =>
    obtain ⟨ht, hts⟩ := List.forall_mem_cons.mp hlayouts
    rw [insert, if_pos (ht.trans hl.symm)]
    exact List.forall_mem_cons.mpr ⟨number_add.trans ht, hts⟩

theorem insert_moved {layouts : List FileLayout} (hlayouts : Within n layouts) (hl : l.file = n) :
    insert file (l.moved number) (layouts.map (moved number)) =
      (insert file l layouts).map (moved number) := by
  cases layouts with
  | nil => exact congrArg (fun s => [s]) start_moved
  | cons t ts =>
    have ht : t.number = l.file := (hlayouts t List.mem_cons_self).trans hl.symm
    have hmoved : (t.moved number).number = (l.moved number).file := rfl
    rw [insert, if_pos ht, List.map_cons, List.map_cons, insert, if_pos hmoved, add_moved]

/-- Labels of one file are laid out alike under every number that stands for the file. -/
theorem ofLabels?_moved {sources sources' : Sources} {labels : List Label}
    (hlabels : ∀ l ∈ labels, l.file = n) (hfile : sources'.file? number = sources.file? n) :
    ofLabels? sources' (labels.map (Label.moved number)) =
      (ofLabels? sources labels).map (List.map (moved number)) := by
  have hfold : ∀ layouts, Within n layouts →
      (labels.map (Label.moved number)).foldlM
        (fun layouts l => (sources'.file? l.file).map (insert · l layouts))
        (layouts.map (moved number)) =
      (labels.foldlM (fun layouts l => (sources.file? l.file).map (insert · l layouts))
        layouts).map (List.map (moved number)) := by
    induction labels with
    | nil =>
      intro layouts _
      rfl
    | cons l ls ih =>
      intro layouts hlayouts
      obtain ⟨hl, hls⟩ := List.forall_mem_cons.mp hlabels
      have hmoved : sources'.file? (l.moved number).file = sources.file? l.file := by
        rw [hl]
        exact hfile
      rw [List.map_cons, List.foldlM_cons, List.foldlM_cons, hmoved]
      cases sources.file? l.file with
      | none => rfl
      | some file =>
        have hstep := ih hls (insert file l layouts) (within_insert hlayouts hl)
        rw [← insert_moved hlayouts hl] at hstep
        exact hstep
  exact hfold [] (by simp [Within])

end FileLayout

namespace Snippet

theorem shownLines_moved (number padding : Nat) (s : FileLayout) (ls : List MarkedLine) :
    shownLines padding (s.moved number) ls = shownLines padding s ls := by
  fun_induction shownLines padding s ls with
  | case1 => rfl
  | case2 a => rfl
  | case3 a b ls ih =>
    rw [shownLines, ih]
    rfl

theorem fileSnippet_moved (number padding : Nat) (s : FileLayout) :
    fileSnippet padding (s.moved number) = fileSnippet padding s := by
  rw [fileSnippet, fileSnippet, shownLines_moved]
  rfl

theorem fileSnippets_moved (number padding : Nat) (layouts : List FileLayout) :
    fileSnippets padding (layouts.map (FileLayout.moved number)) =
      fileSnippets padding layouts := by
  fun_induction fileSnippets padding layouts with
  | case1 => rfl
  | case2 s => exact fileSnippet_moved number padding s
  | case3 s ss hss ih =>
    have hmap : ss.map (FileLayout.moved number) = [] → False := fun h =>
      hss (List.map_eq_nil_iff.mp h)
    rw [List.map_cons, fileSnippets, ih, fileSnippet_moved]
    · rfl
    · exact hmap

theorem paddingOf_moved (number : Nat) (layouts : List FileLayout) :
    paddingOf (layouts.map (FileLayout.moved number)) = paddingOf layouts := by
  rw [paddingOf, paddingOf, List.flatMap_map]
  rfl

end Snippet

namespace Diagnostic

/-- A diagnostic whose labels are all in one file is shown by what the file is, not by its number
or by the other sources. -/
theorem render_moved {sources sources' : Sources} {number n : Nat} {code : ErrorCode}
    {message : String} {labels : List Label} (hlabels : ∀ l ∈ labels, l.file = n)
    (hfile : sources'.file? number = sources.file? n) :
    render sources' ⟨code, message, labels.map (Label.moved number)⟩ =
      render sources ⟨code, message, labels⟩ := by
  rw [render, render, show?, show?, FileLayout.ofLabels?_moved hlabels hfile]
  cases FileLayout.ofLabels? sources labels with
  | none => rfl
  | some layouts =>
    dsimp only [Option.map_some]
    rw [Snippet.fileSnippets_moved, Snippet.paddingOf_moved]
    rfl

end Diagnostic

namespace PacketFault

theorem file_of_mem_labels {n : Nat} {f : PacketFault} {l : Label} (h : l ∈ f.labels n) :
    l.file = n := by
  cases f with
  | noClass bases =>
    rw [List.mem_singleton.mp h]
    rfl
  | noClassBody index =>
    rw [List.mem_singleton.mp h]
    rfl
  | unclosed role index =>
    rw [List.mem_singleton.mp h]
    rfl
  | noProcedureBody name declaration =>
    rw [List.mem_singleton.mp h]
    rfl
  | asymmetric written read =>
    rcases List.mem_cons.mp h with rfl | h
    · rfl
    · rw [List.mem_singleton.mp h]
      rfl
  | unreadable fileName reason => exact absurd h (by simp [labels])

theorem labels_moved (number n : Nat) (f : PacketFault) :
    f.labels number = (f.labels n).map (Label.moved number) := by
  cases f with
  | noClass bases => rfl
  | noClassBody index => rfl
  | unclosed role index => rfl
  | noProcedureBody name declaration => rfl
  | asymmetric written read => rfl
  | unreadable fileName reason => rfl

/-- A fault is shown alike wherever its file is. -/
theorem render_diagnostic {sources sources' : Sources} {number n : Nat} (f : PacketFault)
    (hfile : sources'.file? number = sources.file? n) :
    (f.diagnostic number).render sources' = (f.diagnostic n).render sources := by
  rw [diagnostic, diagnostic, labels_moved number n]
  exact Diagnostic.render_moved (fun l hl => file_of_mem_labels hl) hfile

end PacketFault

end PacketGen
