import PacketGen.Text.Lines

/-!
# Texts written line by line

Generated code and packet sources are written as lines that each end in a line feed. A text put
together that way is cut at the same places again: `splitLines` undoes it, as long as no line holds
a line feed of its own.
-/

namespace PacketGen.Text

def joinLines (ls : List (List Char)) : List Char := ls.flatMap (· ++ ['\n'])

@[simp] theorem joinLines_nil : joinLines [] = [] := rfl

@[simp] theorem joinLines_cons (l : List Char) (ls : List (List Char)) :
    joinLines (l :: ls) = l ++ '\n' :: joinLines ls := by
  simp [joinLines]

@[simp] theorem joinLines_append (ks ls : List (List Char)) :
    joinLines (ks ++ ls) = joinLines ks ++ joinLines ls := by
  simp [joinLines]

theorem splitLines_append_feed {l : List Char} (rest : List Char) (h : '\n' ∉ l) :
    splitLines (l ++ '\n' :: rest) = l :: splitLines rest :=
  List.splitOn_append_cons_self_of_not_mem h _

theorem splitLines_joinLines {ls : List (List Char)} (rest : List Char)
    (h : ∀ l ∈ ls, '\n' ∉ l) : splitLines (joinLines ls ++ rest) = ls ++ splitLines rest := by
  induction ls with
  | nil => rfl
  | cons l ls ih =>
    rw [joinLines_cons, List.append_assoc, List.cons_append,
      splitLines_append_feed _ (h l List.mem_cons_self),
      ih fun m hm => h m (List.mem_cons_of_mem _ hm), List.cons_append]

end PacketGen.Text
