import PacketGen.Proofs.IdTable.Names

/-!
# Slots and values of a table

The slots of a table are one value apart, each from the one before it (`Consecutive`). So a line of
the enumeration that only says "the next one" says enough, and a placeholder never has a declared
value: some other slot has it.

`WellFormed` is what a table that is built offers to those who read from it: names and values are
distinct, and every name leads to its value, an alias through its canonical name.
-/

namespace PacketGen

namespace Slot

/-- The constant in a slot. -/
def constant? : Slot → Option Constant
  | named entry => some entry
  | placeholder _ => none

end Slot

namespace IdTable

/-! ## Consecutive slots -/

/-- The slots have the values from `v` on, one after the other. -/
def Consecutive : Int → List Slot → Prop
  | _, [] => True
  | v, s :: ss => s.value = v ∧ Consecutive (v + 1) ss

theorem Consecutive.append {v : Int} {ss ts : List Slot} (hs : Consecutive v ss)
    (ht : Consecutive (v + ss.length) ts) : Consecutive v (ss ++ ts) := by
  induction ss generalizing v with
  | nil => simpa using ht
  | cons s ss ih =>
    refine ⟨hs.1, ih hs.2 ?_⟩
    have hnext : v + 1 + (ss.length : Int) = v + ((s :: ss).length : Int) := by
      rw [List.length_cons]
      omega
    rw [hnext]
    exact ht

theorem Consecutive.le {v : Int} {ss : List Slot} (h : Consecutive v ss) :
    ∀ s ∈ ss, v ≤ s.value := by
  induction ss generalizing v with
  | nil => simp
  | cons s ss ih =>
    intro u hu
    rcases List.mem_cons.mp hu with rfl | hu
    · exact Int.le_of_eq h.1.symm
    · have hlater := ih h.2 u hu
      omega

/-- No two slots have the same value. -/
theorem Consecutive.nodup {v : Int} {ss : List Slot} (h : Consecutive v ss) :
    (ss.map Slot.value).Nodup := by
  induction ss generalizing v with
  | nil => exact List.nodup_nil
  | cons s ss ih =>
    rw [List.map_cons, List.nodup_cons]
    refine ⟨?_, ih h.2⟩
    intro hmem
    obtain ⟨u, hu, hvalue⟩ := List.mem_map.mp hmem
    have hlater := h.2.le u hu
    have hfirst := h.1
    omega

theorem consecutive_placeholders (v : Int) (n : Nat) :
    Consecutive v ((List.range n).map fun (k : Nat) => .placeholder (v + k)) := by
  induction n with
  | zero => trivial
  | succ n ih =>
    rw [List.range_succ, List.map_append]
    refine ih.append ⟨?_, trivial⟩
    rw [List.length_map, List.length_range]
    rfl

theorem filterMap_constant?_placeholders (first stop : Int) :
    (placeholders first stop).filterMap Slot.constant? = [] := by
  rw [placeholders, List.filterMap_map, List.filterMap_eq_nil_iff]
  intro k _
  rfl

/-- Ascending constants with their gaps filled are consecutive from the first one on. -/
theorem consecutive_fillGaps {e : Constant} {es : List Constant}
    (h : (e :: es).Pairwise (·.value < ·.value)) : Consecutive e.value (fillGaps (e :: es)) := by
  induction es generalizing e with
  | nil => exact ⟨rfl, trivial⟩
  | cons next es ih =>
    obtain ⟨hfirst, hrest⟩ := List.pairwise_cons.mp h
    have hlt : e.value < next.value := hfirst next List.mem_cons_self
    have hlength : e.value + 1 + ((placeholders (e.value + 1) next.value).length : Int) =
        next.value := by
      rw [placeholders, List.length_map, List.length_range]
      omega
    -- The gap ends right below the next constant.
    refine ⟨rfl, (consecutive_placeholders _ _).append ?_⟩
    change Consecutive (e.value + 1 + ((placeholders (e.value + 1) next.value).length : Int)) _
    rw [hlength]
    exact ih hrest

theorem filterMap_constant?_fillGaps (es : List Constant) :
    (fillGaps es).filterMap Slot.constant? = es := by
  induction es with
  | nil => rfl
  | cons e es ih =>
    cases es with
    | nil => rfl
    | cons next es =>
      have hfirst : Slot.constant? (.named e) = some e := rfl
      rw [fillGaps, List.cons_append, List.filterMap_cons_some hfirst, List.filterMap_append,
        filterMap_constant?_placeholders, ih, List.nil_append]

theorem exists_fillGaps (e : Constant) (es : List Constant) :
    ∃ ss, fillGaps (e :: es) = .named e :: ss := by
  cases es with
  | nil => exact ⟨[], rfl⟩
  | cons next es => exact ⟨_, rfl⟩

/-! ## The slots of a table -/

theorem sorted_perm (t : IdTable) : t.sorted.Perm t.canonical := List.mergeSort_perm _ _

/-- The slots hold the canonical constants, each of them once. -/
theorem slots_perm (t : IdTable) : (t.slots.filterMap Slot.constant?).Perm t.canonical := by
  rw [slots, filterMap_constant?_fillGaps]
  exact t.sorted_perm

theorem named_mem_slots_iff {t : IdTable} {e : Constant} :
    .named e ∈ t.slots ↔ e ∈ t.canonical := by
  rw [← (slots_perm t).mem_iff, List.mem_filterMap]
  constructor
  · intro h
    exact ⟨.named e, h, rfl⟩
  · rintro ⟨s, hs, hentry⟩
    cases s with
    | named f =>
      cases hentry
      exact hs
    | placeholder v => cases hentry

/-- What is sorted and has no value twice ascends strictly. -/
theorem ascending_sorted {t : IdTable} (hvalues : (t.canonical.map (·.value)).Nodup) :
    t.sorted.Pairwise (·.value < ·.value) := by
  have hsorted : t.sorted.Pairwise fun a b => decide (a.value ≤ b.value) = true := by
    refine List.pairwise_mergeSort ?_ ?_ _
    · intro a b c hab hbc
      simp only [decide_eq_true_eq] at hab hbc ⊢
      exact Int.le_trans hab hbc
    · intro a b
      simp only [Bool.or_eq_true, decide_eq_true_eq]
      exact Int.le_total a.value b.value
  have hdistinct := List.pairwise_map.mp ((t.sorted_perm.map (·.value)).nodup_iff.mpr hvalues)
  refine (hsorted.and hdistinct).imp ?_
  rintro a b ⟨hle, hvalue⟩
  have := of_decide_eq_true hle
  omega

/-- The slots start with the lowest constant and go on without a break. -/
theorem exists_slots {t : IdTable} (hne : t.canonical ≠ [])
    (hvalues : (t.canonical.map (·.value)).Nodup) :
    ∃ e ss, t.slots = .named e :: ss ∧ Consecutive e.value t.slots := by
  have hperm := t.sorted_perm
  have hascending := ascending_sorted hvalues
  rw [slots]
  generalize t.sorted = es at hperm hascending ⊢
  cases es with
  | nil => exact absurd hperm.symm.eq_nil hne
  | cons e es =>
    obtain ⟨ss, hss⟩ := exists_fillGaps e es
    exact ⟨e, ss, hss, consecutive_fillGaps hascending⟩

/-! ## Values -/

/-- A table whose names all lead to their values. -/
structure WellFormed (t : IdTable) : Prop where
  /-- There is a constant. -/
  nonempty : t.canonical ≠ []
  distinct_names : (t.canonical.map (·.name) ++ t.aliases.map (·.name)).Nodup
  distinct_values : (t.canonical.map (·.value)).Nodup
  canonical : ∀ c ∈ t.canonical, t.value? c.name = some c.value
  aliases : ∀ a ∈ t.aliases, ∃ c ∈ t.canonical, c.name = a.canonical ∧
    t.value? a.name = some c.value
  /-- Every declared value has an owner. -/
  owned : ∀ name v, t.value? name = some v → ∃ c ∈ t.canonical, c.value = v

/-- Where no key is repeated, an element is the only one with its key. -/
theorem filter_eq_singleton {α κ : Type} [DecidableEq κ] {key : α → κ} {xs : List α}
    (h : (xs.map key).Nodup) {x : α} (hx : x ∈ xs) : xs.filter (key · = key x) = [x] := by
  induction xs with
  | nil => cases hx
  | cons y ys ih =>
    rw [List.map_cons, List.nodup_cons] at h
    rcases List.mem_cons.mp hx with rfl | hx
    · have hrest : ys.filter (key · = key x) = [] := by
        refine List.filter_eq_nil_iff.mpr ?_
        intro z hz hkey
        exact h.1 (of_decide_eq_true hkey ▸ List.mem_map_of_mem hz)
      rw [List.filter_cons_of_pos (by simp), hrest]
    · have hne : key y ≠ key x := by
        intro heq
        exact h.1 (heq ▸ List.mem_map_of_mem hx)
      rw [List.filter_cons_of_neg (by simpa using hne)]
      exact ih h.2 hx

theorem find?_eq_some_of_nodup {α κ : Type} [DecidableEq κ] {key : α → κ} {xs : List α}
    (h : (xs.map key).Nodup) {x : α} (hx : x ∈ xs) : xs.find? (key · = key x) = some x := by
  rw [← List.head?_filter, filter_eq_singleton h hx]
  rfl

theorem value?_tableOf {ds : List Declaration} (hnodup : (ds.map (·.name)).Nodup) {d : Declaration}
    (hd : d ∈ ds) : (tableOf ds).value? d.name = some d.value := by
  have hfind : (tableOf ds).declaration? d.name = some d :=
    (declaration?_eq_find? _ _).trans (find?_eq_some_of_nodup hnodup hd)
  rw [value?, hfind]
  rfl

theorem exists_owner_tableOf {ds : List Declaration} {d : Declaration} (hd : d ∈ ds) :
    ∃ c ∈ (tableOf ds).canonical, c.value = d.value := by
  have hmem : d.value ∈ (firstBy (·.value) ds).map (·.value) :=
    mem_map_firstBy.mpr (List.mem_map_of_mem hd)
  obtain ⟨owner, howner, hvalue⟩ := List.mem_map.mp hmem
  exact ⟨owner.constant, List.mem_map_of_mem howner, hvalue⟩

theorem wellFormed_tableOf {ds : List Declaration} (hnodup : (ds.map (·.name)).Nodup)
    (hne : (tableOf ds).canonical ≠ []) : WellFormed (tableOf ds) := by
  refine
    { nonempty := hne
      distinct_names := nodup_names_tableOf hnodup
      distinct_values := nodup_values_tableOf ds
      canonical := ?_
      aliases := ?_
      owned := ?_ }
  · intro c hc
    obtain ⟨d, hd, rfl⟩ := List.mem_map.mp hc
    exact value?_tableOf hnodup (mem_of_mem_firstBy hd)
  · intro a ha
    obtain ⟨d, hd, halias⟩ := List.mem_filterMap.mp ha
    obtain ⟨owner, howner, rfl⟩ := Option.map_eq_some_iff.mp halias
    have hvalue : owner.value = d.value := by simpa using List.find?_some howner
    have howned : (tableOf ds).owner? d.value = some owner.constant := by
      rw [owner?_tableOf, howner]
      rfl
    rw [owner?_eq_find?] at howned
    refine ⟨owner.constant, List.mem_of_find?_eq_some howned, rfl, ?_⟩
    rw [value?_tableOf hnodup (List.mem_of_mem_filter hd)]
    exact congrArg some hvalue.symm
  · intro name v hv
    obtain ⟨d, hd, rfl⟩ := Option.map_eq_some_iff.mp hv
    exact exists_owner_tableOf (List.mem_of_find?_eq_some hd)

/-- A table without a constant is never returned. -/
theorem canonical_ne_nil_of_ok {ds : List Declaration} {t : IdTable}
    (h : ofDeclarations ds = .ok t) : t.canonical ≠ [] := by
  intro hnil
  have ht := (table_of_ok h).1
  unfold ofDeclarations at h
  dsimp only at h
  split at h
  · next hfaults =>
    unfold Draft.faults at hfaults
    dsimp only at hfaults
    rw [← ht] at hfaults
    split at hfaults
    · cases hfaults
    · next hfound => exact hfound ⟨hfaults, hnil⟩
  · cases h

theorem wellFormed_of_build {suffix : String} {lines : List SourceLine} {t : IdTable}
    (h : build suffix lines = .ok t) : WellFormed t := by
  have hne := canonical_ne_nil_of_ok h
  obtain ⟨ds, rfl, hnodup, -⟩ := exists_tableOf h
  exact wellFormed_tableOf hnodup hne

theorem WellFormed.owner? {t : IdTable} (h : WellFormed t) {c : Constant} (hc : c ∈ t.canonical) :
    t.owner? c.value = some c := by
  rw [owner?_eq_find?]
  exact find?_eq_some_of_nodup h.distinct_values hc

end IdTable

end PacketGen
