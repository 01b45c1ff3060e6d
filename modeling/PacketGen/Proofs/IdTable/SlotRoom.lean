import PacketGen.IdTable.SlotVector
import PacketGen.Proofs.Constant.Grammar
import PacketGen.Proofs.IdTable.SlotRange

/-!
# Which slots can be collected

Collecting the slots of a table asks a vector for room twice for every constant: for the slots in
front of it, and for the constant (`lengthsFrom`). How much room the vector has in the end is known
from these lengths alone, since it only grows (`roomFrom`); so the walk along the constants comes to
one comparison of that room with what a vector can count (`collectSlots_eq`).

The room is never less than the number of slots and, growth being a doubling, not even twice as
much. Between half the limit and the limit it depends on where the constants stand whether the slots
can be collected; below they always can, and above never.

The other thing that could go wrong does not: the values of declarations have 64 bits, and so has
the "value after the previous one" that a gap starts with, because another constant is to come.
-/

namespace PacketGen

namespace Constant

/-- A constant that is read has 64 bits. -/
theorem fits_of_parse? {line : List Char} {c : Constant} (h : parse? line = some c) :
    fits c.value = true := by
  obtain ⟨ts, -, hc⟩ := Option.bind_eq_some_iff.mp h
  obtain ⟨-, -, -, -, -, hfits⟩ := exists_of_ofTokens? hc
  exact hfits

end Constant

namespace SlotVector

/-! ## Room -/

/-- The room of a vector after it is asked for several lengths, one after the other. -/
def roomFrom (capacity : Nat) (lengths : List Nat) : Nat := lengths.foldl grown capacity

theorem le_grown (capacity length : Nat) : capacity ≤ grown capacity length := by
  rw [grown]
  split <;> omega

theorem length_le_grown (capacity length : Nat) : length ≤ grown capacity length := by
  rw [grown]
  split <;> omega

/-- A vector that has to grow had less room than is asked for, so it ends up with less than twice
that. -/
theorem grown_le (capacity length : Nat) :
    grown capacity length ≤ max capacity (max (2 * length - 2) 4) := by
  rw [grown]
  split <;> omega

theorem le_roomFrom (capacity : Nat) (lengths : List Nat) :
    capacity ≤ roomFrom capacity lengths := by
  induction lengths generalizing capacity with
  | nil => exact Nat.le_refl _
  | cons n ns ih => exact Nat.le_trans (le_grown capacity n) (ih _)

theorem length_le_roomFrom {capacity n : Nat} {lengths : List Nat} (hn : n ∈ lengths) :
    n ≤ roomFrom capacity lengths := by
  induction lengths generalizing capacity with
  | nil => cases hn
  | cons m ms ih =>
    rcases List.mem_cons.mp hn with rfl | hn
    · exact Nat.le_trans (length_le_grown capacity n) (le_roomFrom _ ms)
    · exact ih hn

theorem roomFrom_le {capacity n : Nat} {lengths : List Nat} (h : ∀ m ∈ lengths, m ≤ n) :
    roomFrom capacity lengths ≤ max capacity (max (2 * n - 2) 4) := by
  induction lengths generalizing capacity with
  | nil => exact Nat.le_max_left _ _
  | cons m ms ih =>
    obtain ⟨hm, hms⟩ := List.forall_mem_cons.mp h
    have hgrown := grown_le capacity m
    have hrest : roomFrom (grown capacity m) ms ≤ max (grown capacity m) (max (2 * n - 2) 4) :=
      ih hms
    rw [roomFrom, List.foldl_cons]
    rw [roomFrom] at hrest
    omega

theorem roomFrom_append (capacity : Nat) (ls ms : List Nat) :
    roomFrom capacity (ls ++ ms) = roomFrom (roomFrom capacity ls) ms :=
  List.foldl_append

end SlotVector

namespace IdTable

theorem fits_of_mem_ofLines {suffix : String} {lines : List SourceLine} {d : Declaration}
    (h : d ∈ Declaration.ofLines suffix lines) : Constant.fits d.value = true := by
  obtain ⟨line, -, hline⟩ := List.mem_filterMap.mp h
  obtain ⟨c, hc, hline⟩ := Option.bind_eq_some_iff.mp hline
  obtain ⟨stem, -, hline⟩ := Option.bind_eq_some_iff.mp hline
  cases hline
  exact Constant.fits_of_parse? hc

theorem fits_of_build {suffix : String} {lines : List SourceLine} {t : IdTable}
    (h : build suffix lines = .ok t) {e : Constant} (he : e ∈ t.canonical) :
    Constant.fits e.value = true := by
  obtain ⟨ds, rfl, -, hsublist⟩ := exists_tableOf h
  obtain ⟨d, hd, rfl⟩ := List.mem_map.mp he
  exact fits_of_mem_ofLines (hsublist.subset (mem_of_mem_firstBy hd))

/-- The lengths for which room is made on the way along constants, when the slots start at `low`:
up to every constant, and with it. -/
def lengthsFrom (low : Int) (es : List Constant) : List Nat :=
  es.flatMap fun e => [(e.value - low).toNat, (e.value - low).toNat + 1]

end IdTable

namespace SlotWalk

open IdTable SlotVector

/-! ## One constant -/

/-- Where a walk is behind some constants. -/
def behind (es : List Constant) (capacity : Nat) : SlotWalk :=
  ⟨es.getLast?.map (·.value), ⟨fillGaps es, capacity⟩⟩

/-- The gap in front of a constant that comes behind others. -/
def gap (es : List Constant) (next : Constant) : List Slot :=
  match es.getLast? with
  | none => []
  | some e => placeholders (e.value + 1) next.value

theorem gap_concat (es : List Constant) (e next : Constant) :
    gap (es ++ [e]) next = placeholders (e.value + 1) next.value := by
  rw [gap, List.getLast?_concat]

theorem fillGaps_concat (es : List Constant) (next : Constant) :
    fillGaps (es ++ [next]) = fillGaps es ++ gap es next ++ [.named next] := by
  rcases List.eq_nil_or_concat' es with rfl | ⟨es, e, rfl⟩
  · rfl
  rw [gap_concat]
  induction es with
  | nil => rfl
  | cons x es ih =>
    obtain ⟨y, ys, hys⟩ : ∃ y ys, es ++ [e] = y :: ys := List.exists_cons_of_ne_nil (by simp)
    rw [List.cons_append, List.cons_append]
    rw [hys] at ih ⊢
    rw [List.cons_append] at ih ⊢
    rw [fillGaps, ih, fillGaps]
    simp only [List.append_assoc, List.cons_append]

/-- A constant comes behind as many slots as it is above the lowest one. -/
theorem length_append_gap {es : List Constant} {next : Constant} {low : Int}
    (h : Consecutive low (fillGaps (es ++ [next]))) :
    (fillGaps es ++ gap es next).length = (next.value - low).toNat := by
  have hplace : (fillGaps (es ++ [next]))[(fillGaps es ++ gap es next).length]? =
      some (.named next) := by
    rw [fillGaps_concat, List.getElem?_append_right (Nat.le_refl _), Nat.sub_self]
    rfl
  have hvalue : next.value = low + (fillGaps es ++ gap es next).length :=
    h.value_getElem? hplace
  omega

/-- Filling the gap asks for room for the slots in front of the constant, and for nothing else. -/
theorem fill_behind {es : List Constant} {next : Constant} {low : Int} {capacity : Nat}
    (hlt : ∀ e ∈ es, e.value < next.value) (hfits : ∀ e ∈ es, Constant.fits e.value = true)
    (hnext : Constant.fits next.value = true) (hcapacity : capacity ≤ limit)
    (h : Consecutive low (fillGaps (es ++ [next]))) :
    (behind es capacity).fill next =
      if grown capacity (next.value - low).toNat ≤ limit then
        .ok ⟨fillGaps es ++ gap es next, grown capacity (next.value - low).toNat⟩
      else .error .capacityOverflow := by
  have hlength := length_append_gap h
  rcases List.eq_nil_or_concat' es with rfl | ⟨es, e, rfl⟩
  · have hgrown : grown capacity (next.value - low).toNat = capacity := by
      rw [← hlength]
      rfl
    rw [hgrown, if_pos hcapacity]
    rfl
  · have hmem : e ∈ es ++ [e] := by simp
    have hsuccessor : successor e.value = .ok (e.value + 1) := by
      have hbelow := hlt e hmem
      have hlow := Constant.fits_iff.mp (hfits e hmem)
      have hhigh := Constant.fits_iff.mp hnext
      rw [successor, if_pos (Constant.fits_iff.mpr (by omega))]
    have hneeded : (fillGaps (es ++ [e])).length + (next.value - (e.value + 1)).toNat =
        (next.value - low).toNat := by
      rw [← hlength, gap_concat, List.length_append, placeholders, List.length_map,
        List.length_range]
    rw [fill, behind, List.getLast?_concat, gap_concat]
    dsimp only [Option.map_some]
    rw [hsuccessor]
    change (do
      let v ← SlotVector.reserve ⟨fillGaps (es ++ [e]), capacity⟩ _
      return _) = _
    rw [reserve, hneeded]
    dsimp only
    split <;> rfl

/-- **One step**: the walk goes on behind the next constant, if there is room. -/
theorem enter_behind {es : List Constant} {next : Constant} {low : Int} {capacity : Nat}
    (hlt : ∀ e ∈ es, e.value < next.value) (hfits : ∀ e ∈ es, Constant.fits e.value = true)
    (hnext : Constant.fits next.value = true) (hcapacity : capacity ≤ limit)
    (h : Consecutive low (fillGaps (es ++ [next]))) :
    (behind es capacity).enter next =
      if roomFrom capacity (lengthsFrom low [next]) ≤ limit then
        .ok (behind (es ++ [next]) (roomFrom capacity (lengthsFrom low [next])))
      else .error .capacityOverflow := by
  have hroom : roomFrom capacity (lengthsFrom low [next]) =
      grown (grown capacity (next.value - low).toNat) ((next.value - low).toNat + 1) := rfl
  have hgrows := le_grown (grown capacity (next.value - low).toNat) ((next.value - low).toNat + 1)
  rw [enter, fill_behind hlt hfits hnext hcapacity h, hroom]
  by_cases hfilled : grown capacity (next.value - low).toNat ≤ limit
  · rw [if_pos hfilled]
    change (do
      return (⟨some next.value, ← SlotVector.push ⟨fillGaps es ++ gap es next, _⟩ (.named next)⟩ :
        SlotWalk)) = _
    rw [push, reserve, length_append_gap h, behind, List.getLast?_concat, fillGaps_concat]
    dsimp only
    split <;> rfl
  · rw [if_neg hfilled, if_neg (by omega)]
    rfl

/-! ## All constants -/

/-- **A walk** past any number of constants. -/
theorem foldlM_enter {es rest : List Constant} {low : Int} {capacity : Nat}
    (h : (es ++ rest).Pairwise (·.value < ·.value))
    (hfits : ∀ e ∈ es ++ rest, Constant.fits e.value = true) (hcapacity : capacity ≤ limit)
    (hlow : ∀ e ∈ (es ++ rest).head?, e.value = low) :
    rest.foldlM enter (behind es capacity) =
      if roomFrom capacity (lengthsFrom low rest) ≤ limit then
        .ok (behind (es ++ rest) (roomFrom capacity (lengthsFrom low rest)))
      else .error .capacityOverflow := by
  induction rest generalizing es capacity with
  | nil =>
    rw [List.append_nil]
    exact (if_pos hcapacity).symm
  | cons next rest ih =>
    have hsplit : es ++ next :: rest = es ++ [next] ++ rest := by simp
    have hlt : ∀ e ∈ es, e.value < next.value := fun e he =>
      (List.pairwise_append.mp h).2.2 e he next List.mem_cons_self
    have hconsecutive : Consecutive low (fillGaps (es ++ [next])) := by
      obtain ⟨e, es', hes⟩ : ∃ e es', es ++ [next] = e :: es' :=
        List.exists_cons_of_ne_nil (by simp)
      rw [hsplit, hes] at h hlow
      rw [hes, ← hlow e rfl]
      exact consecutive_fillGaps (List.pairwise_append.mp h).1
    have hstep := enter_behind hlt (fun e he => hfits e (List.mem_append_left _ he))
      (hfits next (by simp)) hcapacity hconsecutive
    have hlengths : lengthsFrom low (next :: rest) =
        lengthsFrom low [next] ++ lengthsFrom low rest := rfl
    rw [List.foldlM_cons, hstep, hlengths, roomFrom_append]
    by_cases hroom : roomFrom capacity (lengthsFrom low [next]) ≤ limit
    · rw [if_pos hroom]
      rw [hsplit] at h hfits hlow ⊢
      exact ih h hfits hroom hlow
    · have hgrows := le_roomFrom (roomFrom capacity (lengthsFrom low [next])) (lengthsFrom low rest)
      rw [if_neg hroom, if_neg (by omega)]
      rfl

end SlotWalk

namespace IdTable

open SlotVector (limit roomFrom)

/-- **Collecting the slots comes to one comparison**: they are those of the table if the vector has
room for all the lengths that it is asked for. -/
theorem collectSlots_eq {t : IdTable} {low : Int} (hvalues : (t.canonical.map (·.value)).Nodup)
    (hfits : ∀ e ∈ t.canonical, Constant.fits e.value = true)
    (hlow : IsLeast {v | ∃ e ∈ t.canonical, e.value = v} low) :
    t.collectSlots =
      if roomFrom 0 (lengthsFrom low t.sorted) ≤ limit then .ok t.slots
      else .error .capacityOverflow := by
  have hascending : ([] ++ t.sorted : List Constant).Pairwise (·.value < ·.value) :=
    ascending_sorted hvalues
  have hmem : ∀ e, e ∈ t.sorted ↔ e ∈ t.canonical := fun e => t.sorted_perm.mem_iff
  have hfirst : ∀ e ∈ ([] ++ t.sorted).head?, e.value = low := by
    intro e he
    obtain ⟨es, hes⟩ : ∃ es, t.sorted = e :: es := List.head?_eq_some_iff.mp he
    obtain ⟨⟨least, hleast, rfl⟩, hbelow⟩ := hlow
    have hlast := hbelow ⟨e, (hmem e).mp (hes ▸ List.mem_cons_self), rfl⟩
    rcases List.mem_cons.mp (hes ▸ (hmem least).mpr hleast) with rfl | hleast
    · rfl
    · have hlater := (List.pairwise_cons.mp (hes ▸ hascending)).1 least hleast
      omega
  have hrun := SlotWalk.foldlM_enter hascending (fun e he => hfits e ((hmem e).mp he))
    (Nat.zero_le _) hfirst
  change (do
    let w ← t.sorted.foldlM SlotWalk.enter (SlotWalk.behind [] 0)
    return w.vector.slots) = _
  rw [hrun]
  split <;> rfl

/-- The slots of a table are all asked for, and with them room for less than twice as many. -/
theorem roomFrom_bounds {t : IdTable} {high : Int} (low : Int)
    (hhigh : IsGreatest {v | ∃ e ∈ t.canonical, e.value = v} high) :
    (high - low).toNat + 1 ≤ roomFrom 0 (lengthsFrom low t.sorted) ∧
      roomFrom 0 (lengthsFrom low t.sorted) ≤ max (2 * (high - low).toNat) 4 := by
  obtain ⟨⟨last, hlast, rfl⟩, habove⟩ := hhigh
  constructor
  · refine SlotVector.length_le_roomFrom (List.mem_flatMap.mpr ⟨last, ?_, by simp⟩)
    exact t.sorted_perm.mem_iff.mpr hlast
  · have hlengths : ∀ m ∈ lengthsFrom low t.sorted, m ≤ (last.value - low).toNat + 1 := by
      intro m hm
      obtain ⟨e, he, hm⟩ := List.mem_flatMap.mp hm
      have hvalue : e.value ≤ last.value := habove ⟨e, t.sorted_perm.mem_iff.mp he, rfl⟩
      rcases List.mem_pair.mp hm with rfl | rfl <;> omega
    have hroom : roomFrom 0 (lengthsFrom low t.sorted) ≤
        max 0 (max (2 * ((last.value - low).toNat + 1) - 2) 4) := SlotVector.roomFrom_le hlengths
    omega

/-- The range of a table that is built, and what comes of collecting its slots. -/
theorem exists_range_of_build {suffix : String} {lines : List SourceLine} {t : IdTable}
    (h : build suffix lines = .ok t) :
    ∃ low high, IsLeast {v | ∃ e ∈ t.canonical, e.value = v} low ∧
      IsGreatest {v | ∃ e ∈ t.canonical, e.value = v} high ∧
      FullRange t.canonical low high t.slots ∧
      t.collectSlots =
        if roomFrom 0 (lengthsFrom low t.sorted) ≤ limit then .ok t.slots
        else .error .capacityOverflow := by
  have hwell := wellFormed_of_build h
  obtain ⟨low, high, hlow, hhigh, hrange⟩ := hwell.fullRange
  exact ⟨low, high, hlow, hhigh, hrange,
    collectSlots_eq hwell.distinct_values (fun e he => fits_of_build h he) hlow⟩

theorem limit_eq : limit = 576460752303423487 := rfl

/-- No two constants are farther apart than half of what a vector can count. -/
def Narrow (t : IdTable) : Prop :=
  ∀ c ∈ t.canonical, ∀ d ∈ t.canonical, 2 * (d.value - c.value) ≤ limit

instance (t : IdTable) : Decidable t.Narrow :=
  inferInstanceAs (Decidable (∀ c ∈ t.canonical, ∀ d ∈ t.canonical, _))

section

variable {suffix : String} {lines : List SourceLine} {t : IdTable} (h : build suffix lines = .ok t)
include h

/-- The program never gets other slots than those of the table. -/
theorem eq_slots_of_collect {slots : List Slot} (hslots : t.collectSlots = .ok slots) :
    slots = t.slots := by
  obtain ⟨low, high, -, -, -, hcollect⟩ := exists_range_of_build h
  rw [hcollect] at hslots
  split at hslots
  · exact (Except.ok.inj hslots).symm
  · cases hslots

theorem collectSlots_of_narrow (hnarrow : t.Narrow) : t.collectSlots = .ok t.slots := by
  obtain ⟨low, high, ⟨⟨c, hc, rfl⟩, -⟩, hhigh, -, hcollect⟩ := exists_range_of_build h
  have hroom := (roomFrom_bounds c.value hhigh).2
  obtain ⟨⟨d, hd, rfl⟩, -⟩ := hhigh
  have hdistance : 2 * (d.value - c.value) ≤ limit := hnarrow c hc d hd
  have hlimit := limit_eq
  rw [hcollect, if_pos (by omega)]

/-- Two constants are so far apart that no vector can count the slots from one to the other. -/
theorem collectSlots_of_wide {c d : Constant} (hc : c ∈ t.canonical) (hd : d ∈ t.canonical)
    (hwide : (limit : Int) ≤ d.value - c.value) : t.collectSlots = .error .capacityOverflow := by
  obtain ⟨low, high, hlow, hhigh, -, hcollect⟩ := exists_range_of_build h
  have hroom := (roomFrom_bounds low hhigh).1
  have hbelow : low ≤ c.value := hlow.2 ⟨c, hc, rfl⟩
  have habove : d.value ≤ high := hhigh.2 ⟨d, hd, rfl⟩
  rw [hcollect, if_neg (by omega)]

end

/-- **Which slots of a table can be collected.** If the program gets the slots at all, they are the
full range of values from the least canonical one to the greatest. It gets them exactly when the
vector has room for them on the way, which is so for every range up to half of what a vector can
count and for none above all of it. No sum on the way takes more than 64 bits. -/
theorem collectSlots_fullRange {suffix : String} {lines : List SourceLine} {t : IdTable}
    (h : build suffix lines = .ok t) :
    ∃ low high, IsLeast {v | ∃ e ∈ t.canonical, e.value = v} low ∧
      IsGreatest {v | ∃ e ∈ t.canonical, e.value = v} high ∧
      (∀ slots, t.collectSlots = .ok slots → FullRange t.canonical low high slots) ∧
      ((∃ slots, t.collectSlots = .ok slots) ↔
        roomFrom 0 (lengthsFrom low t.sorted) ≤ limit) ∧
      (2 * (high - low) ≤ limit → ∃ slots, t.collectSlots = .ok slots) ∧
      ((limit : Int) < high - low + 1 → t.collectSlots = .error .capacityOverflow) ∧
      ∀ p, t.collectSlots = .error p → p = .capacityOverflow := by
  obtain ⟨low, high, hlow, hhigh, hrange, hcollect⟩ := exists_range_of_build h
  obtain ⟨hleast, hmost⟩ := roomFrom_bounds low hhigh
  have hlimit := limit_eq
  refine ⟨low, high, hlow, hhigh, ?_⟩
  generalize roomFrom 0 (lengthsFrom low t.sorted) = room at hcollect hleast hmost ⊢
  by_cases hroom : room ≤ limit
  · rw [if_pos hroom] at hcollect
    rw [hcollect]
    refine ⟨?_, iff_of_true ⟨_, rfl⟩ hroom, fun _ => ⟨_, rfl⟩, fun hwide => ?_, nofun⟩
    · intro slots hslots
      exact Except.ok.inj hslots ▸ hrange
    · omega
  · rw [if_neg hroom] at hcollect
    rw [hcollect]
    refine ⟨nofun, iff_of_false nofun hroom, fun hnarrow => ?_, fun _ => rfl, ?_⟩
    · omega
    · intro p hp
      exact (Except.error.inj hp).symm

/-- The highest value of 64 bits with a gap below it, declared from high to low. -/
theorem collectSlots_fullRange_highest :
    let lines : List SourceLine :=
      [⟨0, "const LIMIT = 9223372036854775807".toList⟩,
        ⟨34, "const NEAR = 9223372036854775804".toList⟩]
    let table : IdTable :=
      ⟨[⟨"Limit", 9223372036854775807⟩, ⟨"Near", 9223372036854775804⟩], [],
        [⟨"Limit", 9223372036854775807, ⟨0, 33⟩⟩, ⟨"Near", 9223372036854775804, ⟨34, 66⟩⟩]⟩
    build "" lines = .ok table ∧
      ∃ slots, table.collectSlots = .ok slots ∧
        FullRange table.canonical 9223372036854775804 9223372036854775807 slots := by
  intro lines table
  have htable : build "" lines = .ok table := by decide +kernel
  obtain ⟨low, high, ⟨⟨e, he, rfl⟩, hleast⟩, ⟨⟨e', he', rfl⟩, hgreatest⟩, hrange, -, hnarrow, -⟩ :=
    collectSlots_fullRange htable
  have hlow : e.value ≤ 9223372036854775804 := hleast ⟨⟨"Near", _⟩, by simp [table], rfl⟩
  have hhigh : 9223372036854775807 ≤ e'.value := hgreatest ⟨⟨"Limit", _⟩, by simp [table], rfl⟩
  have he : e.value = 9223372036854775804 := by
    rcases List.mem_pair.mp he with rfl | rfl <;> simp_all
  have he' : e'.value = 9223372036854775807 := by
    rcases List.mem_pair.mp he' with rfl | rfl <;> simp_all
  have hlimit := limit_eq
  obtain ⟨slots, hslots⟩ := hnarrow (by omega)
  exact ⟨htable, slots, hslots, he ▸ he' ▸ hrange slots hslots⟩

/-- The slots from zero to the highest value of 64 bits cannot be collected. -/
theorem collectSlots_fullRange_wide :
    let lines : List SourceLine :=
      [⟨0, "const A = 0;".toList⟩, ⟨13, "const B = 9223372036854775807;".toList⟩]
    let table : IdTable :=
      ⟨[⟨"A", 0⟩, ⟨"B", 9223372036854775807⟩], [],
        [⟨"A", 0, ⟨0, 12⟩⟩, ⟨"B", 9223372036854775807, ⟨13, 43⟩⟩]⟩
    build "" lines = .ok table ∧ table.collectSlots = .error .capacityOverflow ∧
      ¬ ∃ slots, table.collectSlots = .ok slots ∧
        FullRange table.canonical 0 9223372036854775807 slots := by
  intro lines table
  have htable : build "" lines = .ok table := by decide +kernel
  have hstop : table.collectSlots = .error .capacityOverflow :=
    collectSlots_of_wide (c := ⟨"A", 0⟩) (d := ⟨"B", 9223372036854775807⟩) htable
      List.mem_cons_self (by simp [table]) (by decide)
  refine ⟨htable, hstop, ?_⟩
  rintro ⟨slots, hslots, -⟩
  cases hstop.symm.trans hslots

end IdTable

end PacketGen
