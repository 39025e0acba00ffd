import PeakUsage.Proofs.Json.Reading

/-! What is read from a text: its integers fit in 64 bits. -/
namespace PeakUsage.Json

/-- Whether a value, but for the values inside it, is no integer beyond 64 bits. -/
def InRange : Json → Prop
  | .integer n => minSigned ≤ n ∧ n ≤ maxUnsigned
  | _ => True

/-- The values without integers beyond 64 bits. -/
abbrev Bounded : Json → Prop := Throughout InRange

theorem bounded_value (n : Numeral) : Bounded n.value := by
  have hsigned : minSigned ≤ 0 := by decide
  have hunsigned : 0 ≤ maxUnsigned := by decide
  unfold Numeral.value
  dsimp only
  split
  · next h => exact .leaf ⟨hsigned.trans (Int.natCast_nonneg _), h.2.2⟩ rfl
  · split
    · next h =>
      have hnonpos := Int.neg_nonpos_of_nonneg (Int.natCast_nonneg n.mantissa)
      exact .leaf ⟨h.2.2.2, hnonpos.trans hunsigned⟩ rfl
    · exact .leaf trivial rfl

section
variable {cs rest : List Char} {j : Json}

theorem bounded_unsigned? {b : Bool} (h : unsigned? b cs = some (j, rest)) : Bounded j := by
  rw [unsigned?] at h
  simp only [Option.bind_eq_bind, Option.bind_eq_some_iff, Option.pure_def, Option.some.injEq,
    Prod.mk.injEq] at h
  obtain ⟨_, -, _, -, _, -, rfl, -⟩ := h
  exact bounded_value _

theorem bounded_numeral? (h : numeral? cs = some (j, rest)) : Bounded j := by
  unfold numeral? at h
  split at h <;> exact bounded_unsigned? h

theorem bounded_array {items : List Json} (h : ∀ k ∈ items, Bounded k) : Bounded (.array items) :=
  ⟨trivial, h⟩

theorem bounded_object {members : List (String × Json)} (h : ∀ m ∈ members, Bounded m.2) :
    Bounded (.object members) :=
  ⟨trivial, List.forall_mem_map.mpr h⟩

/-- What is read with some fuel is bounded: a value, items and members. -/
structure ReadsBounded (fuel : Nat) : Prop where
  value : ∀ {cs j rest}, value? fuel cs = some (j, rest) → Bounded j
  items : ∀ {cs items rest}, items? fuel cs = some (items, rest) → ∀ k ∈ items, Bounded k
  members : ∀ {cs members rest}, members? fuel cs = some (members, rest) →
    ∀ m ∈ members, Bounded m.2

theorem ReadsBounded.value_succ {fuel : Nat} (ih : ReadsBounded fuel)
    (h : value? (fuel + 1) cs = some (j, rest)) : Bounded j := by
  rw [value?] at h
  split at h
  · obtain ⟨rfl, -⟩ := Prod.mk.inj (Option.some.inj h)
    exact .leaf trivial rfl
  · obtain ⟨rfl, -⟩ := Prod.mk.inj (Option.some.inj h)
    exact .leaf trivial rfl
  · obtain ⟨rfl, -⟩ := Prod.mk.inj (Option.some.inj h)
    exact .leaf trivial rfl
  · obtain ⟨⟨s, _⟩, -, h⟩ := Option.bind_eq_some_iff.mp h
    obtain ⟨rfl, -⟩ := Prod.mk.inj (Option.some.inj h)
    cases s <;> exact .leaf trivial rfl
  · split at h
    · obtain ⟨rfl, -⟩ := Prod.mk.inj (Option.some.inj h)
      exact bounded_array (List.forall_mem_nil _)
    · obtain ⟨⟨items, _⟩, hitems, h⟩ := Option.bind_eq_some_iff.mp h
      obtain ⟨rfl, -⟩ := Prod.mk.inj (Option.some.inj h)
      exact bounded_array (ih.items hitems)
  · split at h
    · obtain ⟨rfl, -⟩ := Prod.mk.inj (Option.some.inj h)
      exact bounded_object (List.forall_mem_nil _)
    · obtain ⟨⟨members, _⟩, hmembers, h⟩ := Option.bind_eq_some_iff.mp h
      obtain ⟨rfl, -⟩ := Prod.mk.inj (Option.some.inj h)
      exact bounded_object (ih.members hmembers)
  · exact bounded_numeral? h

theorem ReadsBounded.items_succ {fuel : Nat} (ih : ReadsBounded fuel) {items : List Json}
    (h : items? (fuel + 1) cs = some (items, rest)) : ∀ k ∈ items, Bounded k := by
  rw [items?] at h
  obtain ⟨⟨item, _⟩, hitem, h⟩ := Option.bind_eq_some_iff.mp h
  dsimp only at h
  split at h
  · obtain ⟨rfl, -⟩ := Prod.mk.inj (Option.some.inj h)
    exact List.forall_mem_singleton.mpr (ih.value hitem)
  · obtain ⟨⟨items, _⟩, hitems, h⟩ := Option.bind_eq_some_iff.mp h
    obtain ⟨rfl, -⟩ := Prod.mk.inj (Option.some.inj h)
    exact List.forall_mem_cons.mpr ⟨ih.value hitem, ih.items hitems⟩
  · cases h

theorem ReadsBounded.members_succ {fuel : Nat} (ih : ReadsBounded fuel)
    {members : List (String × Json)} (h : members? (fuel + 1) cs = some (members, rest)) :
    ∀ m ∈ members, Bounded m.2 := by
  rw [members?] at h
  split at h
  · obtain ⟨⟨name, _⟩, -, h⟩ := Option.bind_eq_some_iff.mp h
    obtain ⟨name, -, h⟩ := Option.bind_eq_some_iff.mp h
    dsimp only at h
    split at h
    · obtain ⟨⟨item, _⟩, hitem, h⟩ := Option.bind_eq_some_iff.mp h
      dsimp only at h
      split at h
      · obtain ⟨rfl, -⟩ := Prod.mk.inj (Option.some.inj h)
        exact List.forall_mem_singleton.mpr (ih.value hitem)
      · obtain ⟨⟨members, _⟩, hmembers, h⟩ := Option.bind_eq_some_iff.mp h
        obtain ⟨rfl, -⟩ := Prod.mk.inj (Option.some.inj h)
        exact List.forall_mem_cons.mpr ⟨ih.value hitem, ih.members hmembers⟩
      · cases h
    · cases h
  · cases h

theorem readsBounded (fuel : Nat) : ReadsBounded fuel := by
  induction fuel with
  | zero => exact ⟨nofun, nofun, nofun⟩
  | succ fuel ih => exact ⟨ih.value_succ, ih.items_succ, ih.members_succ⟩

/-- What a text is read as has no integers beyond 64 bits. -/
theorem bounded_parse? {s : String} (h : parse? s = some j) : Bounded j := by
  rw [parse?] at h
  obtain ⟨⟨k, rest⟩, hread, h⟩ := Option.bind_eq_some_iff.mp h
  dsimp only at h
  split at h
  · obtain rfl := Option.some.inj h
    exact (readsBounded _).value hread
  · cases h

end

end PeakUsage.Json
