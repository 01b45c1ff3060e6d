import Mathlib.Data.Finset.Basic
import Mathlib.Data.Finset.Lattice.Lemmas
import PacketGen.Proofs.Json.RecordText

/-!
# Objects that hold values by name

A record has keys, a name for each and a value for each, and an object may hold the values of some
of them (`Holds`): each once, in any order, with any members of other names in between. `Fills` is
what a record's reader owes: a setting for every key, which reads the key's value and moves the
state on to where that key has been read too. The states are told by the sets of keys that have been
read, so the order in which they come is forgotten where it should be, and nothing has to be proved
about pairs of settings.

Then the members of an object that holds the values of `S` are read, and lead to the state of `S`
(`Holds.changes`). An object that is written for some keys holds their values (`exists_holds`).
-/

namespace PacketGen.Json

variable {κ σ : Type}

section Holds

variable [DecidableEq κ]

/-- The members of an object are the values of just the keys in `S`, each once and in any order,
and members whose names are no keys. -/
structure Holds (name : κ → String) (value : κ → Json) (S : Finset κ)
    (members : List (String × List Char)) : Prop where
  once : ∀ k, (members.map Prod.fst).count (name k) = if k ∈ S then 1 else 0
  spelled : ∀ m ∈ members, ∀ k, m.1 = name k → Spells (value k) m.2
  wellFormed : ∀ m ∈ members, (∀ k, m.1 ≠ name k) → WellFormed m.2

/-- Settings read the values of keys, and each moves a state on by its key. -/
structure Fills (settings : List (Setting σ)) (name : κ → String) (value : κ → Json)
    (state : Finset κ → σ) : Prop where
  injective : Function.Injective name
  known : ∀ {k text}, Spells (value k) text → ∃ setting change,
    settings.find? (·.key == name k) = some setting ∧ ReadsValue setting.read text change ∧
      ∀ T, change (state T) = state (insert k T)
  unknown : ∀ {key}, (∀ k, key ≠ name k) → settings.find? (·.key == key) = none

namespace Holds

variable {name : κ → String} {value : κ → Json} {S : Finset κ}
  {members : List (String × List Char)}

theorem of_nil (h : Holds name value S []) : S = ∅ := by
  refine Finset.eq_empty_of_forall_notMem fun k hk => ?_
  have honce := h.once k
  rw [if_pos hk] at honce
  cases honce

theorem mem_of_cons {k : κ} {text : List Char}
    (h : Holds name value S ((name k, text) :: members)) : k ∈ S := by
  by_contra hk
  have honce := h.once k
  rw [if_neg hk, List.map_cons, List.count_cons_self] at honce
  cases honce

/-- Behind the value of a key, the values of the other keys follow. -/
theorem of_cons_known (hname : Function.Injective name) {k : κ} {text : List Char}
    (h : Holds name value S ((name k, text) :: members)) :
    Holds name value (S.erase k) members where
  once := by
    intro k'
    have honce := h.once k'
    rw [List.map_cons] at honce
    by_cases hk : k' = k
    · subst hk
      rw [if_pos h.mem_of_cons, List.count_cons_self] at honce
      rw [if_neg (Finset.notMem_erase k' S)]
      exact Nat.succ.inj honce
    · rw [List.count_cons_of_ne fun heq => hk (hname heq).symm] at honce
      simpa [Finset.mem_erase, hk] using honce
  spelled := fun m hm => h.spelled m (List.mem_cons_of_mem _ hm)
  wellFormed := fun m hm => h.wellFormed m (List.mem_cons_of_mem _ hm)

theorem of_cons_unknown {key : String} {text : List Char} (hkey : ∀ k, key ≠ name k)
    (h : Holds name value S ((key, text) :: members)) : Holds name value S members where
  once := by
    intro k
    have honce := h.once k
    rwa [List.map_cons, List.count_cons_of_ne (hkey k)] at honce
  spelled := fun m hm => h.spelled m (List.mem_cons_of_mem _ hm)
  wellFormed := fun m hm => h.wellFormed m (List.mem_cons_of_mem _ hm)

/-- **The values of `S` are read and nothing else is.** The induction is on the members; the keys of
`T` have been read before. -/
theorem changes {settings : List (Setting σ)} {state : Finset κ → σ} {T : Finset κ}
    {seen : List String} (h : Holds name value S members)
    (hfills : Fills settings name value state) (hseen : ∀ k ∈ S, name k ∉ seen) :
    Changes settings seen members (state T) (state (T ∪ S)) := by
  induction members generalizing S T seen with
  | nil =>
    rw [h.of_nil, Finset.union_empty]
    exact .done
  | cons m members ih =>
    obtain ⟨key, text⟩ := m
    by_cases hkey : ∃ k, key = name k
    · obtain ⟨k, rfl⟩ := hkey
      have hk : k ∈ S := h.mem_of_cons
      have hunion : insert k T ∪ S.erase k = T ∪ S := by
        rw [Finset.insert_union, ← Finset.union_insert, Finset.insert_erase hk]
      have hspelled : Spells (value k) text := h.spelled _ List.mem_cons_self k rfl
      obtain ⟨setting, change, hfind, hread, hchange⟩ := hfills.known hspelled
      refine .known hfind (hseen k hk) hread ?_
      rw [hchange, ← hunion]
      refine ih (h.of_cons_known hfills.injective) fun k' hk' hmem => ?_
      obtain ⟨hne, hk'⟩ := Finset.mem_erase.mp hk'
      rcases List.mem_cons.mp hmem with heq | hmem
      · exact hne (hfills.injective heq)
      · exact hseen k' hk' hmem
    · have hother : ∀ k, key ≠ name k := fun k heq => hkey ⟨k, heq⟩
      exact .unknown (hfills.unknown hother) (h.wellFormed _ List.mem_cons_self hother)
        (ih (h.of_cons_unknown hother) hseen)

end Holds

end Holds

/-- A name that belongs to no key is no setting. -/
theorem find?_eq_none_of_name {settings : List (Setting σ)} {keys : List κ} {name : κ → String}
    (h : settings.map Setting.key = keys.map name) {key : String} (hkey : ∀ k, key ≠ name k) :
    settings.find? (·.key == key) = none := by
  refine List.find?_eq_none.mpr fun setting hsetting heq => ?_
  have hmem : setting.key ∈ keys.map name := by
    rw [← h]
    exact List.mem_map_of_mem hsetting
  obtain ⟨k, -, hk⟩ := List.mem_map.mp hmem
  exact hkey k ((beq_iff_eq.mp heq).symm.trans hk.symm)

/-! ## Whole values -/

theorem spelled_of_mem {ordered : List (String × Json)} {values : List (String × List Char)}
    (hkeys : values.map Prod.fst = ordered.map Prod.fst)
    (hvalues : List.Forall₂ Spells (ordered.map Prod.snd) (values.map Prod.snd))
    {m : String × List Char} (hm : m ∈ values) : ∃ j, (m.1, j) ∈ ordered ∧ Spells j m.2 := by
  induction ordered generalizing values with
  | nil =>
    rw [List.map_nil, List.map_eq_nil_iff] at hkeys
    subst hkeys
    cases hm
  | cons o ordered ih =>
    cases values with
    | nil => cases hm
    | cons v values =>
      obtain ⟨hkey, hkeys⟩ := List.cons.inj hkeys
      obtain ⟨hvalue, hvalues⟩ := List.forall₂_cons.mp hvalues
      rcases List.mem_cons.mp hm with rfl | hm
      · refine ⟨o.2, ?_, hvalue⟩
        rw [hkey]
        exact List.mem_cons_self
      · obtain ⟨j, hj, hspells⟩ := ih hkeys hvalues hm
        exact ⟨j, List.mem_cons_of_mem _ hj, hspells⟩

/-- An object that stands for the values of some keys, in whatever order they are listed, holds
them. -/
theorem exists_holds [DecidableEq κ] {name : κ → String} {value : κ → Json} {keys : List κ}
    {text : List Char} (hname : Function.Injective name) (hnodup : keys.Nodup)
    (h : Spells (.object (keys.map fun k => (name k, value k))) text) :
    ∃ members, Holds name value keys.toFinset members ∧ ObjectText members text := by
  cases h with
  | @object _ ordered values _ horder hkeys hvalues htext =>
    have hmember : ∀ m ∈ values, ∃ k, m.1 = name k ∧ Spells (value k) m.2 := by
      intro m hm
      obtain ⟨j, hj, hspells⟩ := spelled_of_mem hkeys hvalues hm
      obtain ⟨k, -, hk⟩ := List.mem_map.mp (horder.mem_iff.mp hj)
      obtain ⟨hkey, rfl⟩ := Prod.mk.inj hk
      exact ⟨k, hkey.symm, hspells⟩
    have hnames : (values.map Prod.fst).Perm (keys.map name) := by
      rw [hkeys]
      refine (horder.map Prod.fst).trans ?_
      rw [List.map_map]
      exact .refl _
    refine ⟨values, ⟨fun k => ?_, fun m hm k hk => ?_, fun m hm hother => ?_⟩, htext⟩
    · rw [hnames.count_eq, (hnodup.map hname).count]
      simp only [List.mem_map_of_injective hname, List.mem_toFinset]
    · obtain ⟨k', hkey, hspells⟩ := hmember m hm
      rwa [hname (hk.symm.trans hkey)]
    · obtain ⟨k, hkey, -⟩ := hmember m hm
      exact absurd hkey (hother k)

end PacketGen.Json
