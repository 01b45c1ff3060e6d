import Mathlib.Data.List.Nodup
import Mathlib.Order.Bounds.Defs
import PacketGen.Proofs.IdTable.Slots

/-!
# The slots of a table are its whole range of values

From the lowest canonical value to the highest there is one slot for every integer, and where it
stands tells which one it is for (`FullRange`). Slots are consecutive, so what is left to see is
that they end with the highest value: the last slot is named, like the first.

Which of these lists can be collected in a vector is another matter
(`PacketGen.Proofs.IdTable.SlotRoom`).
-/

namespace PacketGen

namespace IdTable

/-! ## Slots by their places -/

theorem Consecutive.value_getElem? {v : Int} {ss : List Slot} (h : Consecutive v ss) {k : Nat}
    {s : Slot} (hs : ss[k]? = some s) : s.value = v + k := by
  induction ss generalizing v k with
  | nil => cases hs
  | cons u ss ih =>
    cases k with
    | zero =>
      cases hs
      simpa using h.1
    | succ k =>
      have hvalue := ih h.2 hs
      push_cast
      omega

theorem Consecutive.ascending {v : Int} {ss : List Slot} (h : Consecutive v ss) :
    ss.Pairwise (·.value < ·.value) := by
  induction ss generalizing v with
  | nil => exact .nil
  | cons s ss ih =>
    refine List.pairwise_cons.mpr ⟨fun u hu => ?_, ih h.2⟩
    have hlater := h.2.le u hu
    have hfirst := h.1
    omega

/-- A gap ends where the next constant begins, so the last slot is that of the last constant. -/
theorem getLast?_fillGaps (es : List Constant) :
    (fillGaps es).getLast? = es.getLast?.map .named := by
  induction es with
  | nil => rfl
  | cons e es ih =>
    cases es with
    | nil => rfl
    | cons next es =>
      obtain ⟨ss, hss⟩ := exists_fillGaps next es
      rw [fillGaps, hss, List.getLast?_append, ← hss, ih, List.getLast?_cons_cons]
      simp [List.getLast?_cons]

/-- The slots hold every value from `low` to `high`, each once and at its place: the canonical
constant that has the value, or else a placeholder. -/
structure FullRange (entries : List Constant) (low high : Int) (slots : List Slot) : Prop where
  length : (slots.length : Int) = high - low + 1
  named : ∀ (k : Nat), ∀ e ∈ entries, e.value = low + k → slots[k]? = some (.named e)
  placeholder : ∀ k < slots.length, (∀ e ∈ entries, e.value ≠ low + k) →
    slots[k]? = some (.placeholder (low + k))
  once : ∀ e ∈ entries, slots.count (.named e) = 1
  ascending : slots.Pairwise (·.value < ·.value)

theorem WellFormed.fullRange {t : IdTable} (h : WellFormed t) :
    ∃ low high, IsLeast {v | ∃ e ∈ t.canonical, e.value = v} low ∧
      IsGreatest {v | ∃ e ∈ t.canonical, e.value = v} high ∧
      FullRange t.canonical low high t.slots := by
  obtain ⟨first, ss, hslots, hconsecutive⟩ := exists_slots h.nonempty h.distinct_values
  -- The place of a constant among the slots is told by its value.
  have hplace : ∀ e ∈ t.canonical, ∃ k : Nat, t.slots[k]? = some (.named e) ∧
      e.value = first.value + k := by
    intro e he
    obtain ⟨k, hk⟩ := List.mem_iff_getElem?.mp (named_mem_slots_iff.mpr he)
    exact ⟨k, hk, hconsecutive.value_getElem? hk⟩
  have hcanonical : ∀ (k : Nat) (e : Constant), t.slots[k]? = some (.named e) →
      e ∈ t.canonical := fun k e hk => named_mem_slots_iff.mp (List.mem_of_getElem? hk)
  obtain ⟨last, hlast⟩ : ∃ last : Constant, t.slots.getLast? = some (.named last) := by
    rw [slots, getLast?_fillGaps]
    cases hsorted : t.sorted.getLast? with
    | some last => exact ⟨last, rfl⟩
    | none =>
      rw [slots, List.getLast?_eq_none_iff.mp hsorted] at hslots
      cases hslots
  have hfirst : t.slots[0]? = some (.named first) := by
    rw [hslots]
    rfl
  have hpos : 0 < t.slots.length := by
    rw [hslots]
    exact Nat.succ_pos _
  rw [List.getLast?_eq_getElem?] at hlast
  have hlastValue : last.value = first.value + ((t.slots.length - 1 : Nat) : Int) :=
    hconsecutive.value_getElem? hlast
  refine ⟨first.value, last.value, ⟨⟨first, hcanonical _ _ hfirst, rfl⟩, ?_⟩,
    ⟨⟨last, hcanonical _ _ hlast, rfl⟩, ?_⟩, ?_⟩
  · rintro _ ⟨e, he, rfl⟩
    obtain ⟨k, -, hvalue⟩ := hplace e he
    omega
  · rintro _ ⟨e, he, rfl⟩
    obtain ⟨k, hk, hvalue⟩ := hplace e he
    have hlt := (List.getElem?_eq_some_iff.mp hk).1
    omega
  · refine ⟨by omega, ?_, ?_, ?_, hconsecutive.ascending⟩
    · intro k e he hvalue
      obtain ⟨j, hj, hvalue'⟩ := hplace e he
      obtain rfl : j = k := by omega
      exact hj
    · intro k hk hfree
      have hslot := List.getElem?_eq_getElem hk
      have hvalue := hconsecutive.value_getElem? hslot
      cases hs : t.slots[k] with
      | named e =>
        rw [hs] at hslot hvalue
        exact absurd hvalue (hfree e (hcanonical _ _ hslot))
      | placeholder v =>
        rw [hs] at hslot hvalue
        obtain rfl : v = first.value + k := hvalue
        exact hslot
    · intro e he
      exact List.count_eq_one_of_mem hconsecutive.nodup.of_map (named_mem_slots_iff.mpr he)

end IdTable

end PacketGen
