import PeakUsage.Json.Reader
import PeakUsage.Json.Writer
import PeakUsage.Proofs.Number.Shortest
import PeakUsage.Proofs.Text.Digits

/-! Numerals read back as they were written. -/
namespace PeakUsage.Json
open Text Number

/-- What may follow a value. -/
def Ends (rest : List Char) : Prop := ∀ c ∈ rest.head?, c = ',' ∨ c = ']' ∨ c = '\x7d'

/-- The digits before a point: a zero stands alone. -/
structure Whole (ds : List Char) : Prop where
  digits : Digits ds
  ne_nil : ds ≠ []
  leading : ∀ {rest}, ds = '0' :: rest → rest = []

section
variable {ds es rest : List Char} {n : Nat}

theorem Ends.noDigit (h : Ends rest) : NoDigit rest := by
  intro c hc
  rcases h c hc with rfl | rfl | rfl <;> rfl

theorem toDigits_ne_cons (hn : 0 < n) : Nat.toDigits 10 n ≠ '0' :: rest := by
  intro h
  obtain ⟨-, hlow, -⟩ := length_toDigits_bounds hn
  have hdigits : Digits rest := fun c hc => digits_toDigits n c (h ▸ List.mem_cons_of_mem _ hc)
  have hvalue : n = ofDigits rest := by
    have hsplit := ofDigits_append ['0'] rest
    have hzero : ofDigits ['0'] = 0 := rfl
    rw [hzero, Nat.mul_zero, Nat.zero_add, List.singleton_append, ← h, ofDigits_toDigits] at hsplit
    exact hsplit
  rw [h, List.length_cons, Nat.add_sub_cancel] at hlow
  exact absurd (ofDigits_lt hdigits) (Nat.not_lt.mpr (hvalue ▸ hlow))

theorem whole_zero : Whole ['0'] where
  digits := digits_replicate 1
  ne_nil := nofun
  leading := fun h => (List.cons.inj h).2.symm

theorem whole_append (hn : 0 < n) (hd : Digits ds) : Whole (Nat.toDigits 10 n ++ ds) where
  digits := (digits_toDigits n).append hd
  ne_nil := List.append_ne_nil_of_left_ne_nil Nat.toDigits_ne_nil _
  leading := by
    intro rest h
    rcases List.append_eq_cons_iff.mp h with ⟨hnil, -⟩ | ⟨cs, hcs, -⟩
    · exact absurd hnil Nat.toDigits_ne_nil
    · exact absurd hcs (toDigits_ne_cons hn)

theorem whole_toDigits (n : Nat) : Whole (Nat.toDigits 10 n) := by
  rcases Nat.eq_zero_or_pos n with rfl | hn
  · exact whole_zero
  · have h : Whole (Nat.toDigits 10 n ++ []) := whole_append hn nofun
    rwa [List.append_nil] at h

theorem whole_take (hn : 0 < n) {k : Nat} (hk : 0 < k) : Whole ((Nat.toDigits 10 n).take k) where
  digits := fun c hc => digits_toDigits n c (List.mem_of_mem_take hc)
  ne_nil := by
    intro h
    rcases List.take_eq_nil_iff.mp h with hzero | hnil
    · exact Nat.ne_of_gt hk hzero
    · exact Nat.toDigits_ne_nil hnil
  leading := by
    intro rest h
    have hwhole : Nat.toDigits 10 n = '0' :: (rest ++ (Nat.toDigits 10 n).drop k) := by
      rw [← List.cons_append, ← h, List.take_append_drop]
    exact absurd hwhole (toDigits_ne_cons hn)

/-! ### The reader, part by part -/

theorem run?_append (hd : Digits ds) (hne : ds ≠ []) (hrest : NoDigit rest) :
    run? (ds ++ rest) = some (ds, rest) := by
  rw [run?, hd.takeWhile_append hrest]
  cases ds with
  | nil => exact absurd rfl hne
  | cons d ds => simp only [List.drop_left]

theorem whole?_append (h : Whole ds) (hrest : NoDigit rest) :
    whole? (ds ++ rest) = some (ds, rest) := by
  cases ds with
  | nil => exact absurd rfl h.ne_nil
  | cons d ds =>
    by_cases hd : d = '0'
    · subst hd
      obtain rfl : ds = [] := h.leading rfl
      have hempty : Digits [] := nofun
      have hnone : rest.takeWhile isDigit = [] := hempty.takeWhile_append hrest
      change (if (rest.takeWhile isDigit).isEmpty then some (['0'], rest) else none) = _
      rw [hnone]
      rfl
    · rw [← run?_append h.digits h.ne_nil hrest, List.cons_append, whole?]
      rintro rest' heq
      exact absurd (List.cons.inj heq).1 hd

theorem fraction?_of_ends (h : Ends rest) : fraction? rest = some ([], rest) := by
  cases rest with
  | nil => rfl
  | cons c rest => rcases h c rfl with rfl | rfl | rfl <;> rfl

theorem power?_of_ends (h : Ends rest) : power? rest = some (none, rest) := by
  cases rest with
  | nil => rfl
  | cons c rest => rcases h c rfl with rfl | rfl | rfl <;> rfl

theorem unsigned?_whole (b : Bool) (h : Whole ds) (hrest : Ends rest) :
    unsigned? b (ds ++ rest) =
      some ((⟨b, ofDigits ds, 0, true⟩ : Numeral).value, rest) := by
  rw [unsigned?, whole?_append h hrest.noDigit]
  simp only [Option.bind_eq_bind, Option.bind_some, fraction?_of_ends hrest,
    power?_of_ends hrest, List.append_nil]
  rfl

theorem unsigned?_pointed (b : Bool) (h : Whole ds) (he : Digits es) (hne : es ≠ [])
    (hrest : Ends rest) :
    unsigned? b (ds ++ '.' :: es ++ rest) =
      some ((⟨b, ofDigits (ds ++ es), -es.length, false⟩ : Numeral).value, rest) := by
  have hfraction : fraction? ('.' :: (es ++ rest)) = some (es, rest) :=
    run?_append he hne hrest.noDigit
  have hes : es.isEmpty = false := by
    cases es with
    | nil => exact absurd rfl hne
    | cons e es => rfl
  rw [unsigned?, List.append_assoc, List.cons_append, whole?_append h (noDigit_cons rfl)]
  simp only [Option.bind_eq_bind, Option.bind_some, hfraction, power?_of_ends hrest, hes,
    Option.getD_none, Bool.false_and, Int.zero_sub]
  rfl

/-- A numeral without a sign starts with a digit. -/
theorem numeral?_append (h : Whole ds) (rest : List Char) :
    numeral? (ds ++ rest) = unsigned? false (ds ++ rest) := by
  cases ds with
  | nil => exact absurd rfl h.ne_nil
  | cons d ds =>
    rw [List.cons_append, numeral?]
    rintro cs heq
    exact absurd (List.cons.inj heq).1 (ne_of_isDigit (h.digits d List.mem_cons_self) rfl)

/-! ### Integers -/

theorem value_of_natural (hn : (n : Int) ≤ maxUnsigned) :
    (⟨false, n, 0, true⟩ : Numeral).value = .integer n := by
  have hfits : true = true ∧ ¬ false = true ∧ (n : Int) ≤ maxUnsigned := ⟨rfl, nofun, hn⟩
  rw [Numeral.value, if_pos hfits]

theorem value_of_negative (hn : minSigned ≤ Int.negSucc n) :
    (⟨true, n + 1, 0, true⟩ : Numeral).value = .integer (Int.negSucc n) := by
  have hsigned : ¬ (true = true ∧ ¬ true = true ∧ ((n + 1 : Nat) : Int) ≤ maxUnsigned) :=
    fun h => h.2.1 rfl
  have hfits : true = true ∧ true = true ∧ ((n + 1 : Nat) : Int) ≠ 0 ∧
      minSigned ≤ -((n + 1 : Nat) : Int) := ⟨rfl, rfl, by omega, hn⟩
  rw [Numeral.value, if_neg hsigned, if_pos hfits]
  rfl

/-- An integer of 64 bits is read back from its digits. -/
theorem numeral?_integer {n : Int} (hlow : minSigned ≤ n) (hhigh : n ≤ maxUnsigned)
    (hrest : Ends rest) : numeral? ((toString n).toList ++ rest) = some (.integer n, rest) := by
  cases n with
  | ofNat m =>
    have htext : (toString (Int.ofNat m)).toList = Nat.toDigits 10 m := Nat.toList_repr
    rw [htext, numeral?_append (whole_toDigits m), unsigned?_whole false (whole_toDigits m) hrest,
      ofDigits_toDigits, value_of_natural hhigh]
    rfl
  | negSucc m =>
    have htext : (toString (Int.negSucc m)).toList = '-' :: Nat.toDigits 10 (m + 1) := by
      change ("-" ++ (m + 1).repr).toList = _
      rw [String.toList_append, Nat.toList_repr]
      rfl
    rw [htext, List.cons_append, numeral?, unsigned?_whole true (whole_toDigits _) hrest,
      ofDigits_toDigits, value_of_negative hlow]

end

end PeakUsage.Json
