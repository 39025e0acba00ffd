import PeakUsage.Proofs.Json.Mirrors

/-! Decoders of records that undo their encoders, field by field. -/
namespace PeakUsage.Json

/-- The values of the fields of a record. -/
abbrev Fields := String → Option Json

/-- The fields of an object, the first of a name. -/
def fieldsOf (members : List (String × Json)) : Fields := fun n => members.lookup n

/-- The fields that hold no integers beyond 64 bits. -/
def Fields.InRange (r : Fields) : Prop := ∀ {n j}, r n = some j → Bounded j

theorem mem_of_lookup {members : List (String × Json)} {n : String} {j : Json}
    (h : members.lookup n = some j) : (n, j) ∈ members := by
  obtain ⟨before, behind, rfl, -⟩ := List.lookup_eq_some_iff.mp h
  exact List.mem_append_right _ List.mem_cons_self

theorem asRecord_object {fields : List String} {members : List (String × Json)} (spare : Nat)
    (h : repeated? ((members.map (·.1)).filter fields.contains) = none) :
    asRecord fields spare (.object members) = .ok (fieldsOf members) := by
  rw [asRecord, h]
  rfl

theorem inRange_of_asRecord {fields : List String} {spare : Nat} {j : Json} {r : Fields}
    (hj : Bounded j) (h : asRecord fields spare j = .ok r) : r.InRange := by
  intro n k hk
  cases j with
  | object members =>
    rw [asRecord] at h
    split at h
    · cases h
    · obtain rfl := Except.ok.inj h
      exact hj.inside k (List.mem_map_of_mem (mem_of_lookup hk))
  | array items =>
    rw [asRecord] at h
    split at h
    · obtain rfl := Except.ok.inj h
      exact hj.inside k (List.of_mem_zip (mem_of_lookup hk)).2
    · cases h
  | _ => cases h

section
variable {α β : Type} {d : Decoder α} {e : α → Json} {r : Fields} {n : String}

/-! ### A field read once -/

section
variable {f : α → Except JsonFault β} {g : Option α → Except JsonFault β} {b : β}

theorem Mirrors.required (h : Mirrors d e) (hr : r.InRange)
    (hread : (Json.required r n d >>= f) = .ok b) : ∃ a, Restores d e a ∧ f a = .ok b := by
  obtain ⟨a, ha, hread⟩ := exists_of_bind_ok hread
  unfold Json.required at ha
  split at ha
  · next hj => exact ⟨a, h (hr hj) ha, hread⟩
  · cases ha

theorem Mirrors.optional (h : Mirrors d e) (hne : ∀ a, e a ≠ .null) (hr : r.InRange)
    (hread : (Json.optional r n d >>= g) = .ok b) :
    ∃ o, Restores (orNull d) (ofOption e) o ∧ g o = .ok b := by
  obtain ⟨o, ho, hread⟩ := exists_of_bind_ok hread
  unfold Json.optional at ho
  split at ho
  · next hj => exact ⟨o, mirrors_orNull h hne (hr hj) ho, hread⟩
  · obtain rfl := Except.ok.inj ho
    exact ⟨none, ⟨printable_null, rfl⟩, hread⟩

theorem Mirrors.defaulted (h : Mirrors d e) {fallback : α} (hfallback : Restores d e fallback)
    (hr : r.InRange) (hread : (Json.defaulted r n d fallback >>= f) = .ok b) :
    ∃ a, Restores d e a ∧ f a = .ok b := by
  obtain ⟨a, ha, hread⟩ := exists_of_bind_ok hread
  unfold Json.defaulted at ha
  split at ha
  · next hj => exact ⟨a, h (hr hj) ha, hread⟩
  · obtain rfl := Except.ok.inj ha
    exact ⟨fallback, hfallback, hread⟩

end

/-! ### A field read again -/

theorem Restores.required {a : α} (h : Restores d e a) (hr : r n = some (e a)) :
    Json.required r n d = .ok a := by
  rw [Json.required, hr]
  exact h.decoded

theorem Restores.optional {o : Option α} (h : Restores (orNull d) (ofOption e) o)
    (hr : r n = some (ofOption e o)) : Json.optional r n d = .ok o := by
  rw [Json.optional, hr]
  exact h.decoded

/-- A field that was left out stands for no value. -/
theorem Restores.omitted {o : Option α} (h : Restores (orNull d) (ofOption e) o)
    (hr : r n = o.map e) : Json.optional r n d = .ok o := by
  cases o with
  | none => rw [Json.optional, hr, Option.map_none]
  | some a => exact h.optional hr

theorem Restores.defaulted {fallback a : α} (h : Restores d e a) (hr : r n = some (e a)) :
    Json.defaulted r n d fallback = .ok a := by
  rw [Json.defaulted, hr]
  exact h.decoded

theorem Restores.present {o : Option α} (h : Restores (orNull d) (ofOption e) o) :
    ∀ m ∈ Json.present n e o, Printable m.2 := by
  cases o with
  | none => exact nofun
  | some a => exact List.forall_mem_singleton.mpr h.printable

/-! ### Records -/

/-- A record is restored when its members name no field twice and each of them has a text and is
read again as what it was. -/
theorem Mirrors.record {fields : List String} {spare : Nat} {build : Fields → Except JsonFault α}
    {members : α → List (String × Json)}
    (hnames : ∀ a, repeated? (((members a).map (·.1)).filter fields.contains) = none)
    (h : ∀ {r a}, Fields.InRange r → build r = .ok a →
      (∀ m ∈ members a, Printable m.2) ∧ build (fieldsOf (members a)) = .ok a) :
    Mirrors (fun j => asRecord fields spare j >>= build) fun a => .object (members a) := by
  intro j a hj hread
  obtain ⟨r, hr, hbuild⟩ := exists_of_bind_ok hread
  obtain ⟨hprintable, hagain⟩ := h (inRange_of_asRecord hj hr) hbuild
  have hrecord := asRecord_object spare (hnames a)
  exact ⟨printable_object hprintable, (congrArg (· >>= build) hrecord).trans hagain⟩

end

/-! ### Periods -/

/-- The period of a record of seconds and nanoseconds. -/
def periodOf (r : Fields) : Except JsonFault Nat := do
  let secs ← required r "secs" (asNatural UInt64.size)
  let nanos ← required r "nanos" (asNatural UInt32.size)
  let p := Nanos.ofSeconds secs + nanos
  if Nanos.seconds p < UInt64.size then pure p else throw .outOfRange

theorem asPeriod_object {members : List (String × Json)}
    (hsurplus : members.find? (fun m => m.1 ≠ "secs" ∧ m.1 ≠ "nanos") = none)
    (hnames : repeated? ((members.map (·.1)).filter ["secs", "nanos"].contains) = none) :
    asPeriod (.object members) = periodOf (fieldsOf members) := by
  unfold asPeriod
  dsimp only
  rw [hsurplus, asRecord_object 0 hnames]
  rfl

/-- The record a period is written as. -/
theorem asPeriod_ofPeriod (p : Nat) : asPeriod (ofPeriod p) = periodOf (fieldsOf
    [("secs", ofNat (Nanos.seconds p)), ("nanos", ofNat (Nanos.subsecond p))]) := by
  have hsurplus (secs nanos : Json) : [("secs", secs), ("nanos", nanos)].find?
      (fun m => m.1 ≠ "secs" ∧ m.1 ≠ "nanos") = none := rfl
  have hnames (secs nanos : Json) : repeated? (([("secs", secs), ("nanos", nanos)].map
      (·.1)).filter ["secs", "nanos"].contains) = none := rfl
  rw [ofPeriod]
  exact asPeriod_object (hsurplus _ _) (hnames _ _)

theorem exists_of_asPeriod {j : Json} {p : Nat} (h : asPeriod j = .ok p) :
    ∃ r, periodOf r = .ok p := by
  have hrecord (x : Except JsonFault Fields) (h : (x >>= periodOf) = .ok p) :
      ∃ r, periodOf r = .ok p := by
    obtain ⟨r, -, hr⟩ := exists_of_bind_ok h
    exact ⟨r, hr⟩
  unfold asPeriod at h
  dsimp only at h
  split at h
  · split at h
    · cases h
    · exact hrecord _ h
  · exact hrecord _ h

theorem seconds_lt_of_periodOf {r : Fields} {p : Nat} (h : periodOf r = .ok p) :
    Nanos.seconds p < UInt64.size := by
  obtain ⟨secs, -, h⟩ := exists_of_bind_ok h
  obtain ⟨nanos, -, h⟩ := exists_of_bind_ok h
  dsimp only at h
  split at h
  · next hlt =>
    obtain rfl := Except.ok.inj h
    exact hlt
  · cases h

theorem periodOf_eq {r : Fields} {p : Nat}
    (hsecs : required r "secs" (asNatural UInt64.size) = .ok (Nanos.seconds p))
    (hnanos : required r "nanos" (asNatural UInt32.size) = .ok (Nanos.subsecond p))
    (hlt : Nanos.seconds p < UInt64.size) : periodOf r = .ok p := by
  have hsum : Nanos.ofSeconds (Nanos.seconds p) + Nanos.subsecond p = p :=
    Nanos.seconds_add_subsecond p
  rw [periodOf, bind_of_ok hsecs, bind_of_ok hnanos, hsum]
  exact if_pos hlt

/-- A period is written with its nanoseconds carried to the seconds. -/
theorem mirrors_asPeriod : Mirrors asPeriod ofPeriod := by
  intro j p _ h
  obtain ⟨r, hr⟩ := exists_of_asPeriod h
  have hlt : Nanos.seconds p < UInt64.size := seconds_lt_of_periodOf hr
  have hsecs : Restores (asNatural UInt64.size) ofNat (Nanos.seconds p) :=
    restores_ofNat hlt (by decide)
  have hnanos : Restores (asNatural UInt32.size) ofNat (Nanos.subsecond p) :=
    restores_ofNat ((Nat.mod_lt p (by decide)).trans (by decide)) (by decide)
  refine ⟨printable_object ?_, ?_⟩
  · exact List.forall_mem_cons.mpr
      ⟨hsecs.printable, List.forall_mem_singleton.mpr hnanos.printable⟩
  · rw [asPeriod_ofPeriod]
    exact periodOf_eq (hsecs.required rfl) (hnanos.required rfl) hlt

end PeakUsage.Json
