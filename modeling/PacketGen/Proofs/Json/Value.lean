import PacketGen.Json.Reader
import PacketGen.Proofs.Json.Reads

/-!
# Reading a value of any kind

The program reads JSON only as what it is needed for. A report is JSON for others, so a reader that
builds the value is defined here, from the same readers of words, strings and white space, and
along the same lines as `skipValue`. It knows all of JSON but numbers with a fraction or an
exponent, for which `Json` has no place.

Such a reader gives back what has been written (`parse_render`). The proof goes by the fuel, and
says of a value, of items and of members what their readers take of the text that is written for
them.
What is ahead matters in one place only: a number ends where something else than a number goes on.
Fuel is counted in characters, and there are always enough, since each level of nesting and each
item takes one at least.
-/

namespace PacketGen.Json

mutual

/-- Reads a value. -/
def readValue : (fuel : Nat) → Reader Json
  | 0 => Reader.fail .eofInValue
  | fuel + 1 => do
    match ← Reader.peekValue with
    | none => Reader.failAhead .eofInValue
    | some c =>
      if c.isDigit then return .number (Int.ofNat (← readWhole))
      else match c with
        | 'n' => do readWord "null".toList; return .null
        | 't' => do readWord "true".toList; return .bool true
        | 'f' => do readWord "false".toList; return .bool false
        | '-' => do Reader.take; return .number (-Int.ofNat (← readWhole))
        | '"' => do Reader.take; return .string (← readString)
        | '[' => do
          Reader.take
          match ← Reader.peekValue with
          | some ']' => do Reader.take; return .array []
          | _ => return .array (← readItems fuel)
        | '{' => do
          Reader.take
          match ← Reader.peekValue with
          | some '}' => do Reader.take; return .object []
          | _ => return .object (← readMembers fuel)
        | _ => Reader.failAhead .expectedValue

/-- Reads the items of a list from one item on, with the closing bracket. -/
def readItems : (fuel : Nat) → Reader (List Json)
  | 0 => Reader.fail .eofInList
  | fuel + 1 => do
    let item ← readValue fuel
    match ← Reader.peekValue with
    | some ',' => do Reader.take; return item :: (← readItems fuel)
    | some ']' => do Reader.take; return [item]
    | some _ => Reader.failAhead .expectedListEnd
    | none => Reader.failAhead .eofInList

/-- Reads the members of an object from one key on, with the closing bracket. -/
def readMembers : (fuel : Nat) → Reader (List (String × Json))
  | 0 => Reader.fail .eofInObject
  | fuel + 1 => do
    match ← Reader.peekValue with
    | some '"' => Reader.take
    | some _ => Reader.failAhead .keyNotString
    | none => Reader.failAhead .eofInObject
    let key ← readString
    colon
    let value ← readValue fuel
    match ← Reader.peekValue with
    | some ',' => do Reader.take; return (key, value) :: (← readMembers fuel)
    | some '}' => do Reader.take; return [(key, value)]
    | some _ => Reader.failAhead .expectedObjectEnd
    | none => Reader.failAhead .eofInObject

end

/-- The value that a text is the written form of. -/
def parse (source : String) : Except Misread Json :=
  readAll (fun c => readValue (c.rest.length + 1) c) source

/-! ## What is ahead -/

def Spaces (cs : List Char) : Prop := ∀ c ∈ cs, isSpace c = true

theorem spaces_nil : Spaces [] := fun _ h => nomatch h

theorem spaces_one : Spaces [' '] := by
  intro c hc
  rw [List.mem_singleton.mp hc]
  rfl

theorem spaces_newline (level : Nat) : Spaces (newline level) := by
  intro c hc
  rcases List.mem_cons.mp hc with rfl | hc
  · rfl
  · rw [List.eq_of_mem_replicate hc]
    rfl

theorem endsNumber_nil : EndsNumber [] := fun _ h => nomatch h

theorem endsNumber_comma (rest : List Char) : EndsNumber (',' :: rest) := by
  intro c hc
  cases hc
  decide

theorem endsNumber_newline (level : Nat) (rest : List Char) :
    EndsNumber (newline level ++ rest) := by
  intro c hc
  cases hc
  decide

/-- The written form of a number: its digits, behind a sign if it is negative. -/
theorem pretty_number (level : Nat) (n : Int) :
    (∃ k, n = Int.ofNat k ∧ (number n).pretty level = Nat.toDigits 10 k) ∨
      (∃ k, n = -Int.ofNat k ∧ (number n).pretty level = '-' :: Nat.toDigits 10 k) := by
  rw [pretty]
  cases n with
  | ofNat k => exact .inl ⟨k, rfl, Nat.toList_repr⟩
  | negSucc k =>
    refine .inr ⟨k + 1, rfl, ?_⟩
    show ("-" ++ Nat.repr (k + 1)).toList = _
    rw [String.toList_append, Nat.toList_repr]
    rfl

theorem exists_toDigits_cons (n : Nat) :
    ∃ d ds, Nat.toDigits 10 n = d :: ds ∧ d.isDigit = true := by
  obtain ⟨d, ds, hdigits⟩ := List.exists_cons_of_ne_nil (@Nat.toDigits_ne_nil n 10)
  have hmem : d ∈ Nat.toDigits 10 n := by
    rw [hdigits]
    exact List.mem_cons_self
  exact ⟨d, ds, hdigits, Nat.isDigit_of_mem_toDigits (by decide) (by decide) hmem⟩

theorem not_isSpace_of_isDigit {c : Char} (h : c.isDigit = true) :
    isSpace c = false ∧ c ≠ ']' := by
  constructor
  · cases hspace : isSpace c with
    | false => rfl
    | true =>
      simp only [isSpace, Bool.or_eq_true, beq_iff_eq] at hspace
      rcases hspace with ((rfl | rfl) | rfl) | rfl <;> cases h
  · rintro rfl
    cases h

/-- A value is told by its first character, which is no white space and closes no list. -/
theorem exists_pretty_cons (level : Nat) (j : Json) :
    ∃ c cs, j.pretty level = c :: cs ∧ isSpace c = false ∧ c ≠ ']' := by
  cases j with
  | null => exact ⟨_, _, rfl, by decide⟩
  | bool b => cases b <;> exact ⟨_, _, rfl, by decide⟩
  | number n =>
    rcases pretty_number level n with ⟨k, -, hk⟩ | ⟨k, -, hk⟩
    · obtain ⟨d, ds, hdigits, hd⟩ := exists_toDigits_cons k
      exact ⟨d, ds, hk.trans hdigits, not_isSpace_of_isDigit hd⟩
    · exact ⟨'-', _, hk, by decide⟩
  | string s => exact ⟨_, _, rfl, by decide⟩
  | array items => cases items <;> exact ⟨_, _, rfl, by decide⟩
  | object members => cases members <;> exact ⟨_, _, rfl, by decide⟩

theorem pretty_length_pos (level : Nat) (j : Json) : 0 < (j.pretty level).length := by
  obtain ⟨c, cs, hcons, -⟩ := exists_pretty_cons level j
  rw [hcons]
  exact Nat.succ_pos _

/-! ## Values, items, members -/

/-- Values are read with this much fuel. -/
def ReadsValues (fuel : Nat) : Prop :=
  ∀ (j : Json) (level : Nat) {spaces rest : List Char}, Spaces spaces → EndsNumber rest →
    (j.pretty level).length ≤ fuel → Reads (readValue fuel) (spaces ++ j.pretty level) j rest

/-- Items are read up to their bracket with this much fuel. -/
def ReadsItems (fuel : Nat) : Prop :=
  ∀ (item : Json) (items : List Json) (level outer : Nat) {spaces : List Char} (rest : List Char),
    Spaces spaces → (item.pretty level ++ prettyItems level items).length < fuel →
      Reads (readItems fuel)
        (spaces ++ (item.pretty level ++ (prettyItems level items ++ (newline outer ++ [']']))))
        (item :: items) rest

/-- Members are read up to their bracket with this much fuel. -/
def ReadsMembers (fuel : Nat) : Prop :=
  ∀ (key : String) (value : Json) (members : List (String × Json)) (level outer : Nat)
    {spaces : List Char} (rest : List Char), Spaces spaces →
      (value.pretty level ++ prettyMembers level members).length < fuel →
        Reads (readMembers fuel)
          (spaces ++ (quote key ++ ([':', ' '] ++ (value.pretty level ++
            (prettyMembers level members ++ (newline outer ++ ['\x7d']))))))
          ((key, value) :: members) rest

theorem readsItems_succ {fuel : Nat} (hvalues : ReadsValues fuel) (hitems : ReadsItems fuel) :
    ReadsItems (fuel + 1) := by
  intro item items level outer spaces rest hspaces hfuel
  rw [List.length_append] at hfuel
  rw [readItems, ← List.append_assoc]
  cases items with
  | nil =>
    have hends : EndsNumber (newline outer ++ [']'] ++ rest) := by
      rw [List.append_assoc]
      exact endsNumber_newline outer _
    refine (hvalues item level hspaces hends (by omega)).bind ?_
    refine (Reads.peekValue (spaces_newline outer) rfl rest).bind ?_
    exact (Reads.take ']' rest).done (Reads.pure _ rest)
  | cons next items =>
    have hitem := pretty_length_pos level item
    have hnext : Reads (readItems fuel) (newline level ++ (next.pretty level ++
        (prettyItems level items ++ (newline outer ++ [']'])))) (next :: items) rest := by
      refine hitems next items level outer rest (spaces_newline level) ?_
      rw [prettyItems] at hfuel
      simp only [List.length_append, List.length_cons] at hfuel ⊢
      omega
    have htext : prettyItems level (next :: items) ++ (newline outer ++ [']']) =
        [','] ++ (newline level ++ (next.pretty level ++
          (prettyItems level items ++ (newline outer ++ [']'])))) := by
      simp [prettyItems]
    rw [htext]
    refine (hvalues item level hspaces (endsNumber_comma _) (by omega)).bind ?_
    refine (Reads.peekValue spaces_nil rfl _).seen ?_
    refine (Reads.take ',' _).bind ?_
    exact hnext.done (Reads.pure _ rest)

theorem reads_colon {spaces : List Char} (hspaces : Spaces spaces) (rest : List Char) :
    Reads colon (spaces ++ [':']) () rest := by
  rw [colon]
  refine (Reads.peekValue hspaces rfl rest).bind ?_
  exact Reads.take ':' rest

theorem readsMembers_succ {fuel : Nat} (hvalues : ReadsValues fuel)
    (hmembers : ReadsMembers fuel) : ReadsMembers (fuel + 1) := by
  intro key value members level outer spaces rest hspaces hfuel
  rw [List.length_append] at hfuel
  have htext : quote key ++ ([':', ' '] ++ (value.pretty level ++ (prettyMembers level members ++
      (newline outer ++ ['\x7d'])))) =
      ['"'] ++ ((key.toList.flatMap escapeChar ++ ['"']) ++ ([':'] ++ ([' '] ++
        value.pretty level ++ (prettyMembers level members ++ (newline outer ++ ['\x7d']))))) := by
    simp [quote]
  rw [readMembers, htext]
  refine (Reads.peekValue hspaces rfl _).bind ?_
  refine (Reads.take '"' _).bind ?_
  refine (Reads.string key _).bind ?_
  refine (reads_colon spaces_nil _).bind ?_
  cases members with
  | nil =>
    have hends : EndsNumber (newline outer ++ ['\x7d'] ++ rest) := by
      rw [List.append_assoc]
      exact endsNumber_newline outer _
    refine (hvalues value level spaces_one hends (by omega)).bind ?_
    refine (Reads.peekValue (spaces_newline outer) rfl rest).bind ?_
    exact (Reads.take '\x7d' rest).done (Reads.pure _ rest)
  | cons next members =>
    obtain ⟨nextKey, nextValue⟩ := next
    have hvalue := pretty_length_pos level value
    have hnext : Reads (readMembers fuel) (newline level ++ (quote nextKey ++ ([':', ' '] ++
        (nextValue.pretty level ++ (prettyMembers level members ++ (newline outer ++ ['\x7d']))))))
        ((nextKey, nextValue) :: members) rest := by
      refine hmembers nextKey nextValue members level outer rest (spaces_newline level) ?_
      rw [prettyMembers] at hfuel
      simp only [List.length_append, List.length_cons] at hfuel ⊢
      omega
    have hmore : prettyMembers level ((nextKey, nextValue) :: members) ++
        (newline outer ++ ['\x7d']) =
        [','] ++ (newline level ++ (quote nextKey ++ ([':', ' '] ++ (nextValue.pretty level ++
          (prettyMembers level members ++ (newline outer ++ ['\x7d'])))))) := by
      simp [prettyMembers]
    rw [hmore]
    refine (hvalues value level spaces_one (endsNumber_comma _) (by omega)).bind ?_
    refine (Reads.peekValue spaces_nil rfl _).seen ?_
    refine (Reads.take ',' _).bind ?_
    exact hnext.done (Reads.pure _ rest)

theorem readsValues_succ {fuel : Nat} (hitems : ReadsItems fuel) (hmembers : ReadsMembers fuel) :
    ReadsValues (fuel + 1) := by
  intro j level spaces rest hspaces hrest hfuel
  rw [readValue]
  cases j with
  | null =>
    refine (Reads.peekValue hspaces rfl _).bind ?_
    exact (Reads.word "null".toList rest).done (Reads.pure _ rest)
  | bool b =>
    cases b with
    | true =>
      refine (Reads.peekValue hspaces rfl _).bind ?_
      exact (Reads.word "true".toList rest).done (Reads.pure _ rest)
    | false =>
      refine (Reads.peekValue hspaces rfl _).bind ?_
      exact (Reads.word "false".toList rest).done (Reads.pure _ rest)
  | number n =>
    rcases pretty_number level n with ⟨k, rfl, hk⟩ | ⟨k, rfl, hk⟩
    · obtain ⟨d, ds, hdigits, hd⟩ := exists_toDigits_cons k
      have hread := Reads.whole k hrest
      rw [hk, hdigits]
      rw [hdigits] at hread
      refine (Reads.peekValue hspaces (not_isSpace_of_isDigit hd).1 _).bind ?_
      dsimp only
      rw [if_pos hd]
      exact hread.done (Reads.pure _ rest)
    · rw [hk]
      refine (Reads.peekValue hspaces rfl _).bind ?_
      refine (Reads.take '-' _).bind ?_
      exact (Reads.whole k hrest).done (Reads.pure _ rest)
  | string s =>
    refine (Reads.peekValue hspaces rfl _).bind ?_
    refine (Reads.take '"' _).bind ?_
    exact (Reads.string s rest).done (Reads.pure _ rest)
  | array items =>
    cases items with
    | nil =>
      refine (Reads.peekValue hspaces rfl _).bind ?_
      refine (Reads.take '[' ([']'] ++ rest)).bind ?_
      refine (Reads.peekValue spaces_nil rfl rest).seen ?_
      exact (Reads.take ']' rest).done (Reads.pure _ rest)
    | cons item items =>
      have htext : (array (item :: items)).pretty level = ['['] ++ (newline (level + 1) ++
          (item.pretty (level + 1) ++ (prettyItems (level + 1) items ++
            (newline level ++ [']'])))) := by
        simp [pretty]
      obtain ⟨c, cs, hcons, hspace, hclose⟩ := exists_pretty_cons (level + 1) item
      have hread := hitems item items (level + 1) level rest spaces_nil (by
        rw [htext] at hfuel
        simp only [List.length_append, List.length_cons] at hfuel ⊢
        omega)
      rw [htext]
      rw [List.nil_append, hcons] at hread
      rw [hcons]
      refine (Reads.peekValue hspaces rfl _).bind ?_
      refine (Reads.take '[' _).bind ?_
      refine (Reads.peekValue (spaces_newline (level + 1)) hspace _).bind ?_
      split
      · next h => exact absurd (Option.some.inj h) hclose
      · exact hread.done (Reads.pure _ rest)
  | object members =>
    cases members with
    | nil =>
      refine (Reads.peekValue hspaces rfl _).bind ?_
      refine (Reads.take '\x7b' (['\x7d'] ++ rest)).bind ?_
      refine (Reads.peekValue spaces_nil rfl rest).seen ?_
      exact (Reads.take '\x7d' rest).done (Reads.pure _ rest)
    | cons member members =>
      obtain ⟨key, value⟩ := member
      have htext : (object ((key, value) :: members)).pretty level = ['\x7b'] ++
          (newline (level + 1) ++ (quote key ++ ([':', ' '] ++ (value.pretty (level + 1) ++
            (prettyMembers (level + 1) members ++ (newline level ++ ['\x7d'])))))) := by
        simp [pretty]
      have hread := hmembers key value members (level + 1) level rest spaces_nil (by
        rw [htext] at hfuel
        simp only [List.length_append, List.length_cons] at hfuel ⊢
        omega)
      rw [htext]
      refine (Reads.peekValue hspaces rfl _).bind ?_
      refine (Reads.take '\x7b' _).bind ?_
      refine (Reads.peekValue (spaces_newline (level + 1)) rfl _).bind ?_
      exact hread.done (Reads.pure _ rest)

/-- With enough fuel, everything that is written is read. -/
theorem readsAll (fuel : Nat) : ReadsValues fuel ∧ ReadsItems fuel ∧ ReadsMembers fuel := by
  induction fuel with
  | zero =>
    refine ⟨fun j level _ _ _ _ hfuel => ?_, fun _ _ _ _ _ _ _ hfuel => ?_,
      fun _ _ _ _ _ _ _ _ hfuel => ?_⟩
    · exact absurd (pretty_length_pos level j) (Nat.not_lt.mpr hfuel)
    · exact absurd hfuel (Nat.not_lt_zero _)
    · exact absurd hfuel (Nat.not_lt_zero _)
  | succ fuel ih =>
    obtain ⟨hvalues, hitems, hmembers⟩ := ih
    exact ⟨readsValues_succ hitems hmembers, readsItems_succ hvalues hitems,
      readsMembers_succ hvalues hmembers⟩

/-- **The written form of a value is read as that value.** -/
theorem parse_render (j : Json) : parse j.render = .ok j := by
  have hfuel : (j.pretty 0).length ≤ (j.pretty 0).length + 1 := Nat.le_succ _
  obtain ⟨offset, hread⟩ := (readsAll _).1 j 0 spaces_nil endsNumber_nil hfuel 0
  rw [List.nil_append, List.append_nil] at hread
  rw [parse, readAll, render, String.toList_ofList, Cursor.start, hread]
  rfl

end PacketGen.Json
