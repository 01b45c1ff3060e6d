import PacketGen.Proofs.Generated.IdentifierLines

/-!
# Declarations at package level, read from a text

Which names a generated file declares must not be told from the lists that it was generated from:
names are put together from parts, and it is in the text that two of them meet. So the text is read
line by line, the way the language reads one that is laid out as usual: a declaration starts its
line with a keyword, a bracket that is left open at the end of a line opens a block, the lines of a
block are indented, and the closing bracket alone ends it.

A group of declarations is a block in which every line declares a name; in any other block nothing
is declared at package level, and neither is by a method or by a comment. The reading is partial: a
line of another shape, a list of names, or a block that is never closed is not read at all.
-/

namespace PacketGen.Generated

/-- A block that has been opened at package level. -/
structure GoBlock where
  /-- The character of the line that ends it. -/
  closing : Char
  /-- Whether its lines declare names. -/
  declares : Bool
deriving Repr, DecidableEq

namespace GoLexeme

def isComment : GoLexeme → Bool
  | comment _ => true
  | word _ | text _ | mark _ => false

/-- The parts of a line, without the comment at its end. -/
def code (line : List Char) : List GoLexeme := (lex false [] line).filter fun p => !p.isComment

/-- What a name declares: the blank identifier declares nothing. -/
def declared (w : String) : List String := if w = "_" then [] else [w]

/-- The names that a line outside of blocks declares. A bracket behind the keyword opens a group,
or stands around the receiver of a method. -/
def declared? : List GoLexeme → Option (List String)
  | [] => some []
  | word k :: mark '(' :: rest =>
    if k = "func" ∨ (rest = [] ∧ k ∈ ["const", "import", "type", "var"]) then some [] else none
  | [word k, text _] => if k = "import" then some [] else none
  | word k :: word w :: rest =>
    if k = "package" then some []
    else if k ∈ ["const", "func", "type", "var"] ∧ rest.head? ≠ some (mark ',') then
      some (declared w)
    else none
  | _ => none

/-- The names that a line of a group declares. -/
def entries? : List GoLexeme → Option (List String)
  | [] => some []
  | word w :: rest => if rest.head? = some (mark ',') then none else some (declared w)
  | _ => none

/-- The block that a line opens with its last part. -/
def opened? (parts : List GoLexeme) : Option GoBlock :=
  match parts.getLast? with
  | some (mark '(') => some ⟨')', parts ≠ [word "import", mark '(']⟩
  | some (mark '{') => some ⟨'\x7d', false⟩
  | _ => none

end GoLexeme

open GoLexeme (code declared declared? entries? opened?)

/-- The names that a line in a block declares. -/
def GoBlock.entries? (b : GoBlock) (line : List Char) : Option (List String) :=
  if line.head? ≠ some '\t' then none
  else if b.declares then GoLexeme.entries? (code line)
  else some []

/-- The names that lines declare at package level, in their order, where the given block is open
before the first of them. -/
def declarations? : (block : Option GoBlock) → List (List Char) → Option (List String)
  | none, [] => some []
  | some _, [] => none
  | none, l :: ls => do
    return (← declared? (code l)) ++ (← declarations? (opened? (code l)) ls)
  | some b, l :: ls =>
    if l = [b.closing] then declarations? none ls
    else do
      return (← b.entries? l) ++ (← declarations? (some b) ls)

/-- The names that a text declares at package level. -/
def declarationsIn? (source : List Char) : Option (List String) :=
  declarations? none (Text.splitLines source)

/-! ## Lines that leave no block open -/

/-- Lines are read on their own, and declare the names. -/
def Declares (ls : List (List Char)) (names : List String) : Prop :=
  declarations? none ls = some names

instance (ls : List (List Char)) (names : List String) : Decidable (Declares ls names) :=
  inferInstanceAs (Decidable (_ = _))

variable {ls ms : List (List Char)} {ns os : List String}

theorem declares_nil : Declares [] [] := rfl

theorem declares_empty : Declares [[]] [] := rfl

theorem declarations?_cons {l : List Char} (h : declared? (code l) = some ns) :
    declarations? none (l :: ls) = (declarations? (opened? (code l)) ls).map (ns ++ ·) := by
  rw [declarations?, h]
  cases declarations? (opened? (code l)) ls with
  | none => rfl
  | some os => rfl

theorem declarations?_entry {b : GoBlock} {l : List Char} (h : b.entries? l = some ns)
    (hl : l ≠ [b.closing]) :
    declarations? (some b) (l :: ls) = (declarations? (some b) ls).map (ns ++ ·) := by
  rw [declarations?, if_neg hl, h]
  cases declarations? (some b) ls with
  | none => rfl
  | some os => rfl

/-- Lines that leave no block open have no part in how the lines behind them are read. -/
theorem declarations?_append {block : Option GoBlock} (h : declarations? block ls = some ns) :
    declarations? block (ls ++ ms) = (declarations? none ms).map (ns ++ ·) := by
  induction ls generalizing block ns with
  | nil =>
    cases block with
    | none =>
      cases h
      exact Option.map_id'.symm
    | some b => cases h
  | cons l ls ih =>
    cases block with
    | none =>
      rw [declarations?] at h
      obtain ⟨ns₁, hline, h⟩ := Option.bind_eq_some_iff.mp h
      obtain ⟨ns₂, hrest, h⟩ := Option.bind_eq_some_iff.mp h
      cases h
      rw [List.cons_append, declarations?_cons hline, ih hrest, Option.map_map]
      simp [Function.comp_def]
    | some b =>
      rw [declarations?] at h
      by_cases hl : l = [b.closing]
      · rw [if_pos hl] at h
        rw [List.cons_append, declarations?, if_pos hl]
        exact ih h
      · rw [if_neg hl] at h
        obtain ⟨ns₁, hline, h⟩ := Option.bind_eq_some_iff.mp h
        obtain ⟨ns₂, hrest, h⟩ := Option.bind_eq_some_iff.mp h
        cases h
        rw [List.cons_append, declarations?_entry hline hl, ih hrest, Option.map_map]
        simp [Function.comp_def]

theorem Declares.append (hls : Declares ls ns) (hms : Declares ms os) :
    Declares (ls ++ ms) (ns ++ os) := by
  rw [Declares, declarations?_append hls, hms]
  rfl

/-- A line that opens no block. -/
theorem declares_line {l : List Char} (hnames : declared? (code l) = some ns)
    (hopened : opened? (code l) = none) : Declares [l] ns := by
  rw [Declares, declarations?_cons hnames, hopened, declarations?, Option.map_some,
    List.append_nil]

theorem declares_comment (cs : List Char) : Declares ['/' :: '/' :: cs] [] :=
  declares_line rfl rfl

/-- A block from its heading to its end declares what its heading and its lines do. -/
theorem declares_block {α : Type} {heading : List Char} {b : GoBlock} {xs : List α}
    {line : α → List Char} {names : α → List String}
    (hnames : declared? (code heading) = some ns) (hopened : opened? (code heading) = some b)
    (hclosing : b.closing ≠ '\t')
    (hlines : ∀ x ∈ xs, b.entries? (line x) = some (names x)) :
    Declares (heading :: (xs.map line ++ [[b.closing], []])) (ns ++ xs.flatMap names) := by
  have hbody : declarations? (some b) (xs.map line ++ [[b.closing], []]) =
      some (xs.flatMap names) := by
    induction xs with
    | nil =>
      change declarations? (some b) [[b.closing], []] = some []
      rw [declarations?, if_pos rfl]
      rfl
    | cons x xs ih =>
      obtain ⟨hx, hxs⟩ := List.forall_mem_cons.mp hlines
      have hl : line x ≠ [b.closing] := by
        intro heq
        rw [heq, GoBlock.entries?, if_pos (by simpa using hclosing)] at hx
        cases hx
      rw [List.map_cons, List.cons_append, declarations?_entry hx hl, ih hxs]
      rfl
  rw [Declares, declarations?_cons hnames, hopened, hbody]
  rfl

/-- A block that is no group declares what its heading does. -/
theorem declares_body {heading : List Char} {b : GoBlock} {ls : List (List Char)}
    (hnames : declared? (code heading) = some ns) (hopened : opened? (code heading) = some b)
    (hbody : b.declares = false) (hclosing : b.closing ≠ '\t')
    (hlines : ∀ l ∈ ls, l.head? = some '\t') :
    Declares (heading :: (ls ++ [[b.closing], []])) ns := by
  have hentries : ∀ l ∈ ls, b.entries? (id l) = some [] := by
    intro l hl
    rw [id, GoBlock.entries?, if_neg (by simpa using hlines l hl), if_neg (by simp [hbody])]
  have h := declares_block hnames hopened hclosing hentries
  rw [List.map_id, List.flatMap_eq_nil_iff.mpr fun _ _ => rfl, List.append_nil] at h
  exact h

/-! ## Sections of a text -/

/-- A text made of whole lines, which are read on their own and declare the names, in any order. -/
def GoSection (text : List Char) (names : List String) : Prop :=
  ∃ ls ns, text = Text.joinLines ls ∧ (∀ l ∈ ls, '\n' ∉ l) ∧ Declares ls ns ∧ ns.Perm names

namespace GoSection

variable {text text' : List Char}

theorem ofLines (htext : text = Text.joinLines ls) (hfeed : ∀ l ∈ ls, '\n' ∉ l)
    (h : Declares ls ns) : GoSection text ns :=
  ⟨ls, ns, htext, hfeed, h, .refl ns⟩

theorem nil : GoSection [] [] := ofLines Text.joinLines_nil.symm (by simp) declares_nil

theorem perm (h : GoSection text ns) (hperm : ns.Perm os) : GoSection text os := by
  obtain ⟨ls, found, htext, hfeed, hdeclares, hfound⟩ := h
  exact ⟨ls, found, htext, hfeed, hdeclares, hfound.trans hperm⟩

theorem append (h : GoSection text ns) (h' : GoSection text' os) :
    GoSection (text ++ text') (ns ++ os) := by
  obtain ⟨ls, found, rfl, hfeed, hdeclares, hfound⟩ := h
  obtain ⟨ms, found', rfl, hfeed', hdeclares', hfound'⟩ := h'
  exact ⟨ls ++ ms, found ++ found', (Text.joinLines_append ls ms).symm,
    List.forall_mem_append.mpr ⟨hfeed, hfeed'⟩, hdeclares.append hdeclares',
    hfound.append hfound'⟩

theorem join {α : Type} {xs : List α} {part : α → String} {names : α → List String}
    (h : ∀ x ∈ xs, GoSection (part x).toList (names x)) :
    GoSection (String.join (xs.map part)).toList (xs.flatMap names) := by
  induction xs with
  | nil => exact nil
  | cons x xs ih =>
    obtain ⟨hx, hxs⟩ := List.forall_mem_cons.mp h
    rw [List.map_cons, String.join_cons, String.toList_append, List.flatMap_cons]
    exact hx.append (ih hxs)

theorem empty : GoSection ['\n'] [] := ofLines rfl (by simp) declares_empty

theorem comment {cs : List Char} (hfeed : '\n' ∉ cs) :
    GoSection ('/' :: '/' :: (cs ++ ['\n'])) [] := by
  refine ofLines ?_ ?_ (declares_comment cs)
  · rw [Text.joinLines_cons]
    rfl
  · simpa using hfeed

/-- A line of comment. -/
theorem note (text : String) (hfeed : '\n' ∉ text.toList) :
    GoSection ("//" ++ text ++ "\n").toList [] := by
  rw [String.toList_append, String.toList_append]
  exact comment hfeed

/-- A line that opens no block, and an empty one. -/
theorem line {l : String} (hfeed : '\n' ∉ l.toList) (hnames : declared? (code l.toList) = some ns)
    (hopened : opened? (code l.toList) = none) : GoSection (l ++ "\n\n").toList ns := by
  have hempty : "\n\n".toList = ['\n', '\n'] := by decide
  have hdeclares := (declares_line hnames hopened).append declares_empty
  rw [List.append_nil] at hdeclares
  refine ofLines ?_ ?_ hdeclares
  · rw [String.toList_append, hempty, List.singleton_append, Text.joinLines_cons]
    rfl
  · simpa using hfeed

/-- A block that is no group, and an empty line. -/
theorem block {heading : String} {ss : List String} (hfeed : '\n' ∉ heading.toList)
    (hnames : declared? (code heading.toList) = some ns)
    (hopened : opened? (code heading.toList) = some ⟨'\x7d', false⟩)
    (hss : ∀ s ∈ ss, IsEntry s) :
    GoSection (heading ++ "\n" ++ String.join ss ++ "\x7d\n\n").toList ns := by
  have hclose : "\x7d\n\n".toList = ['\x7d', '\n', '\n'] := by decide
  have hlines : ∀ l ∈ ss.map lineOf, l.head? = some '\t' :=
    List.forall_mem_map.mpr fun s hs => (hss s hs).head?
  refine ofLines ?_ (feed_not_mem_blockLines hfeed (by decide) hss)
    (declares_body hnames hopened rfl (by decide) hlines)
  rw [← toList_block heading '\x7d' hss]
  simp only [String.toList_append, hclose, List.append_assoc]
  rfl

/-- A text that is a section is read, and declares the names of the section. -/
theorem exists_declarations (h : GoSection text ns) :
    ∃ found, declarationsIn? text = some found ∧ found.Perm ns := by
  obtain ⟨ls, found, rfl, hfeed, hdeclares, hfound⟩ := h
  have hlines := Text.splitLines_joinLines [] hfeed
  have hread := hdeclares.append declares_empty
  rw [List.append_nil] at hlines hread
  refine ⟨found, ?_, hfound⟩
  rw [declarationsIn?, hlines]
  exact hread

end GoSection

end PacketGen.Generated
