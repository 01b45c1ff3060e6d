import PacketGen.Proofs.PacketClass.CodeLines
import PacketGen.Proofs.PacketClass.Inversion
import PacketGen.Proofs.PacketClass.Search

/-!
# Class bodies and procedure bodies, found

The searches put together. A text that opens a class with its base class is found to have that
class body (`findBody_header`), whatever the class is called, and a procedure declared in it is
found with the code between its braces (`findProcedure_declared`).
-/

namespace PacketGen.PacketClass

open Text

/-! ## The class body -/

theorem not_mem_blank_append {W v : List Char} {c : Char} (hW : ∀ d ∈ W, isBlank d = true)
    (hc : isBlank c = false) (hv : c ∉ v) : c ∉ W ++ v := by
  intro h
  rcases List.mem_append.mp h with h | h
  · exact absurd (hW c h) (by simp [hc])
  · exact hv h

/-- What is behind the blank behind a keyword decides whether it opens a packet class. -/
theorem skipBlanks_keyword (b : List Char) {c : Char} (cs : List Char) (hc : isBlank c = false) :
    skipBlanks (b ++ "extends".toList ++ ' ' :: c :: cs) (b.length + "extends".toList.length) =
      (b ++ "extends".toList ++ [' ']).length := by
  have hgap : ∀ d ∈ [' '], isBlank d = true := List.forall_mem_singleton.mpr rfl
  have hskip := skipBlanks_split (b ++ "extends".toList) cs hgap hc
  have hsame : b ++ "extends".toList ++ [' '] ++ c :: cs =
      b ++ "extends".toList ++ ' ' :: c :: cs := by
    simp
  rw [hsame, List.length_append] at hskip
  rw [hskip, List.length_append, List.length_append]

/-- The text behind the name of a packet class. -/
def behindName (rest : List Char) : List Char :=
  ' ' :: ("extends".toList ++ ' ' :: ("DataPacket".toList ++ ' ' :: rest))

/-- In front of the keyword only the name of the class can be the same word. -/
theorem keyword_before {W C rest b a : List Char} (hW : ∀ c ∈ W, isBlank c = true) (hC : IsWord C)
    (hsplit : W ++ "class ".toList ++ C ++ behindName rest = b ++ "extends".toList ++ a)
    (halone : Alone b a) (hlt : b.length < (W ++ "class ".toList ++ C ++ [' ']).length) :
    a = behindName rest := by
  have hextends : IsWord "extends".toList := by decide
  have hclass : Alone (W ++ "class ".toList) (behindName rest) := by
    refine ⟨?_, rfl⟩
    rw [endsName_append_of_ne_nil W (by decide)]
    decide
  rcases alone_trichotomy hC hextends hsplit hclass halone with ⟨m, hm⟩ | ⟨-, -, ha⟩ | ⟨m, hm⟩
  · have hx : 'x' ∉ W ++ "class ".toList := not_mem_blank_append hW rfl (by decide)
    rw [hm] at hx
    exact absurd (List.mem_append_left m (List.mem_append_right b (by decide))) hx
  · exact ha
  · -- Behind the name there is a blank, so the place would have to be behind that one.
    have hlength := congrArg List.length hsplit
    have hbehind := congrArg List.length hm
    simp only [List.length_append, List.length_singleton] at hlength hbehind hlt
    have hempty : m = [] := List.eq_nil_of_length_eq_zero (by omega)
    rw [hempty] at hm
    exact absurd (List.cons.inj hm).1 (by decide)

/-- The base class is found behind the keyword, even in a class that is itself called like the
keyword. -/
theorem baseEnd?_header {W C : List Char} (rest : List Char) (hW : ∀ c ∈ W, isBlank c = true)
    (hC : IsWord C) :
    baseEnd? (W ++ "class ".toList ++ C ++ behindName rest) "DataPacket".toList =
      some ((W ++ "class ".toList ++ C ++ [' '] ++ "extends".toList ++ [' ']).length +
        "DataPacket".toList.length) := by
  generalize htext : W ++ "class ".toList ++ C ++ behindName rest = text
  have hextends : IsWord "extends".toList := by decide
  have hwhole : wordIndices text 0 text.length "extends".toList =
      wordIndices ([] ++ text ++ []) ([] : List Char).length (([] : List Char).length + text.length)
        "extends".toList := by simp
  have hkeyword : text = (W ++ "class ".toList ++ C ++ [' ']) ++ "extends".toList ++
      ' ' :: 'D' :: ("ataPacket".toList ++ ' ' :: rest) := by
    rw [← htext]
    simp [behindName]
  have hbase : text = (W ++ "class ".toList ++ C ++ [' '] ++ "extends".toList ++ [' ']) ++
      "DataPacket".toList ++ ' ' :: rest := by
    rw [← htext]
    simp [behindName]
  rw [baseEnd?, hwhole]
  refine findSome?_of_pairwise (pairwise_wordIndices _ _ _ _)
    ((mem_wordIndices hextends).mpr ⟨_, _, hkeyword, rfl, ?_, rfl⟩) ?_ fun j hj hlt => ?_
  · rw [List.nil_append, endsName_concat]
    rfl
  · have hword := (hasWordAt_split (W ++ "class ".toList ++ C ++ [' '] ++ "extends".toList ++ [' '])
      "DataPacket".toList (' ' :: rest)).mpr ⟨endsName_concat _ _, rfl⟩
    have hskip := skipBlanks_keyword (W ++ "class ".toList ++ C ++ [' '])
      ("ataPacket".toList ++ ' ' :: rest) (show isBlank 'D' = false from rfl)
    rw [← hkeyword] at hskip
    rw [← hbase] at hword
    simp only [List.length_nil, Nat.zero_add, hskip, hword, if_true]
  · -- The class itself is called like the keyword: behind that is the keyword, no base class.
    obtain ⟨b, a, hsplit, rfl, halone⟩ := (mem_wordIndices hextends).mp hj
    simp only [List.length_nil, Nat.zero_add, List.append_nil] at halone hlt ⊢
    rw [← htext] at hsplit
    have ha := keyword_before hW hC hsplit halone hlt
    have hagain : text = b ++ "extends".toList ++ ' ' :: 'e' :: ("xtends".toList ++ ' ' ::
        ("DataPacket".toList ++ ' ' :: rest)) := by
      rw [← htext, hsplit, ha]
      rfl
    have hskip := skipBlanks_keyword b ("xtends".toList ++ ' ' ::
      ("DataPacket".toList ++ ' ' :: rest)) (show isBlank 'e' = false from rfl)
    rw [← hagain] at hskip
    have hdrop : text.drop (b ++ "extends".toList ++ [' ']).length =
        'e' :: ("xtends".toList ++ ' ' :: ("DataPacket".toList ++ ' ' :: rest)) := by
      have hregroup : text = (b ++ "extends".toList ++ [' ']) ++ 'e' :: ("xtends".toList ++ ' ' ::
          ("DataPacket".toList ++ ' ' :: rest)) := by
        rw [hagain]
        simp
      rw [hregroup, List.drop_left]
    have hword : hasWordAt text (b ++ "extends".toList ++ [' ']).length "DataPacket".toList =
        false := by
      rw [hasWordAt, hdrop]
      rfl
    simp only [hskip, hword]
    rfl

/-- A class is found by its base class, and its body by the braces. -/
theorem findBody_header {W C B : List Char} (tail : List Char) (hW : ∀ c ∈ W, isBlank c = true)
    (hC : IsWord C) (hB : Brackets.braces.Balanced B) :
    let A := W ++ "class ".toList ++ C ++ " extends DataPacket \x7b".toList
    findBody (A ++ B ++ '\x7d' :: tail) ["DataPacket"] = .ok (A.length, A.length + B.length) := by
  intro A
  have hshape : A ++ B ++ '\x7d' :: tail =
      W ++ "class ".toList ++ C ++ behindName ('\x7b' :: (B ++ '\x7d' :: tail)) := by
    simp [A, behindName]
  have hbase := baseEnd?_header ('\x7b' :: (B ++ '\x7d' :: tail)) hW hC
  rw [← hshape, ← List.length_append] at hbase
  have hfirst : firstBaseEnd? (A ++ B ++ '\x7d' :: tail) ["DataPacket"] =
      some (W ++ "class ".toList ++ C ++ [' '] ++ "extends".toList ++ [' '] ++
        "DataPacket".toList).length := by
    rw [firstBaseEnd?, List.filterMap_cons, hbase]
    rfl
  have hblock := Brackets.findBlock_of_balanced Brackets.braces_ne hB
    (W ++ "class ".toList ++ C ++ [' '] ++ "extends".toList ++ [' '] ++ "DataPacket".toList)
    (show Brackets.braces.opening ∉ [' '] by decide) tail
  have hsame : W ++ "class ".toList ++ C ++ [' '] ++ "extends".toList ++ [' '] ++
      "DataPacket".toList ++ ([' '] ++ Brackets.braces.opening ::
        (B ++ Brackets.braces.closing :: tail)) = A ++ B ++ '\x7d' :: tail := by
    simp [A, Brackets.braces]
  rw [hsame] at hblock
  have hlength : (W ++ "class ".toList ++ C ++ [' '] ++ "extends".toList ++ [' '] ++
      "DataPacket".toList).length + [' '].length + 1 = A.length := by
    simp [A]
    omega
  rw [findBody, hfirst]
  dsimp only
  rw [hblock, hlength]

/-- A class that is found, with whatever is found in it, is extracted. -/
theorem extract_of_found {config : Config} {source : String} {text : List Char} {first last : Nat}
    {encode decode : Option Procedure} (htext : blankComments source.toList = text)
    (hbody : findBody text config.baseClasses = .ok (first, last))
    (hencode : findProcedure text first last config.encodeProcedure = .ok encode)
    (hdecode : findProcedure text first last config.decodeProcedure = .ok decode) :
    extract config source = .ok ⟨Text.byteSpan text first last,
      localConstants text first last config.reservedConstant, encode, decode⟩ := by
  simp only [extract, htext, hbody, hencode, hdecode, bind, Except.bind]
  rfl

/-! ## The body of a procedure -/

/-- A procedure that nothing before it calls is found with the code between its braces. -/
theorem findProcedure_declared {A X body Z D : List Char} {name : String}
    (hname : IsWord name.toList) (hX : endsName (A ++ X) = false)
    (hfunction : "function".toList.isSuffixOf (trimEnd X) = true)
    (hcalls : name.toList ∉ calls X) (hbody : Brackets.braces.Balanced body) :
    let B := X ++ name.toList ++ '(' :: ')' :: '\x7b' :: (body ++ '\x7d' :: Z)
    ∃ p, findProcedure (A ++ B ++ D) A.length (A.length + B.length) name = .ok (some p) ∧
      p.statements = (codeLines body).map String.ofList := by
  intro B
  generalize htext : A ++ B ++ D = text
  generalize hhead : A ++ X ++ name.toList = head
  have hdeclared : declaration? text A.length (A.length + B.length) name.toList =
      some (A.length + X.length) := by
    rw [← htext]
    exact declaration?_of_calls hname hX hfunction hcalls
  have hindex : A.length + X.length + name.toList.length = head.length := by
    rw [← hhead, List.length_append, List.length_append]
  have hshape : text = head ++ '(' :: ')' :: '\x7b' :: (body ++ '\x7d' :: (Z ++ D)) := by
    rw [← htext, ← hhead]
    simp [B]
  have hskip : skipBlanks text head.length = head.length := by
    have hempty : ∀ d ∈ ([] : List Char), isBlank d = true := by simp
    have h := skipBlanks_split head (')' :: '\x7b' :: (body ++ '\x7d' :: (Z ++ D))) hempty
      (show isBlank '(' = false from rfl)
    rw [List.append_nil, ← hshape] at h
    exact h
  have hparens : Brackets.parens.match? text head.length = some (head.length + 1) := by
    rw [hshape]
    exact Brackets.match?_of_balanced Brackets.parens_ne .nil head _
  have hopen : text = (head ++ ['(', ')']) ++ '\x7b' :: (body ++ '\x7d' :: (Z ++ D)) := by
    rw [hshape]
    simp
  have hmark : bodyMark? text (head.length + 1 + 1) (A.length + B.length) =
      some (head ++ ['(', ')']).length := by
    have hslice : slice text (head.length + 1 + 1) (A.length + B.length) =
        '\x7b' :: (body ++ '\x7d' :: Z) := by
      have hAB : A ++ B = (head ++ ['(', ')']) ++ '\x7b' :: (body ++ '\x7d' :: Z) := by
        rw [← hhead]
        simp [B]
      have hsize : head.length + 1 + 1 = (head ++ ['(', ')']).length := by simp
      rw [slice, ← htext, ← List.length_append, List.take_left, hAB, hsize, List.drop_left]
    rw [bodyMark?, hslice, List.findIdx?_cons, if_pos (by decide)]
    simp
  have hbrace : text[(head ++ ['(', ')']).length]? = some '\x7b' := by
    rw [hopen, List.getElem?_append_right (Nat.le_refl _), Nat.sub_self]
    rfl
  have hmatch : Brackets.braces.match? text (head ++ ['(', ')']).length =
      some ((head ++ ['(', ')']).length + 1 + body.length) := by
    rw [hopen]
    exact Brackets.match?_of_balanced Brackets.braces_ne hbody _ _
  have hslice : slice text ((head ++ ['(', ')']).length + 1)
      ((head ++ ['(', ')']).length + 1 + body.length) = body := by
    have hbehind : text = (head ++ ['(', ')'] ++ ['\x7b']) ++ body ++ '\x7d' :: (Z ++ D) := by
      rw [hopen]
      simp
    have hsize : (head ++ ['(', ')']).length + 1 = (head ++ ['(', ')'] ++ ['\x7b']).length := by
      simp
    rw [slice, hsize, hbehind, slice_middle]
  refine ⟨procedureBetween text (head ++ ['(', ')']).length
    ((head ++ ['(', ')']).length + 1 + body.length), ?_, ?_⟩
  · rw [findProcedure, hdeclared]
    dsimp only
    rw [hindex, hskip, hparens]
    dsimp only
    rw [hmark, Option.filter_some, hbrace, if_pos (by simp)]
    dsimp only
    rw [hmatch]
    rfl
  · rw [procedureBetween, hslice]
    rfl

theorem findProcedure_function {A X body Z D : List Char} {name : String}
    (hname : IsWord name.toList) (hX : Cut X) (hcalls : name.toList ∉ calls X)
    (hbody : Brackets.braces.Balanced body) :
    let B := X ++ ("public function ".toList ++ name.toList ++ "()\x7b".toList ++
      (body ++ '\x7d' :: Z))
    ∃ p, findProcedure (A ++ B ++ D) A.length (A.length + B.length) name = .ok (some p) ∧
      p.statements = (codeLines body).map String.ofList := by
  intro B
  have hshape : B = X ++ "public function ".toList ++ name.toList ++
      '(' :: ')' :: '\x7b' :: (body ++ '\x7d' :: Z) := by
    simp [B]
  have hends : endsName (A ++ (X ++ "public function ".toList)) = false := by
    rw [← List.append_assoc, endsName_append_of_ne_nil _ (by decide)]
    decide
  have hfunction :
      "function".toList.isSuffixOf (trimEnd (X ++ "public function ".toList)) = true := by
    have hblank : ∀ d ∈ [' '], isBlank d = true := List.forall_mem_singleton.mpr rfl
    exact function_isSuffixOf_iff.mpr ⟨X ++ "public ".toList, [' '], by simp, hblank⟩
  have hnone : calls "public function ".toList = [] := calls_of_not_mem (by decide)
  rw [hshape]
  refine findProcedure_declared hname hends hfunction ?_ hbody
  rw [calls_append hX, hnone, List.append_nil]
  exact hcalls

end PacketGen.PacketClass
