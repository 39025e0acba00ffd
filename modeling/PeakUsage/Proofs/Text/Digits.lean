import PeakUsage.Proofs.Number.Packing
import PeakUsage.Text.Digits

/-! Runs of decimal digits, and the numbers that are read from them. -/
namespace PeakUsage.Text

/-- Only digits. -/
def Digits (cs : List Char) : Prop := ∀ c ∈ cs, isDigit c = true

/-- What does not go on with a digit. -/
def NoDigit (cs : List Char) : Prop := ∀ c ∈ cs.head?, isDigit c = false

section
variable {ds es rest : List Char} {c : Char} {n width : Nat}

theorem isDigit_eq (c : Char) : isDigit c = c.isDigit := by
  simp only [isDigit, Char.isDigit, Char.le_def, ge_iff_le]

theorem noDigit_nil : NoDigit [] := nofun

theorem noDigit_cons (hc : isDigit c = false) : NoDigit (c :: rest) := by
  intro d hd
  obtain rfl : c = d := Option.some.inj hd
  exact hc

theorem Digits.append (hd : Digits ds) (he : Digits es) : Digits (ds ++ es) := fun c hc =>
  (List.mem_append.mp hc).elim (hd c) (he c)

theorem digits_toDigits (n : Nat) : Digits (Nat.toDigits 10 n) := by
  intro c hc
  rw [isDigit_eq]
  exact Nat.isDigit_of_mem_toDigits (by decide) (by decide) hc

theorem digits_replicate (n : Nat) : Digits (List.replicate n '0') := by
  intro c hc
  rw [List.eq_of_mem_replicate hc]
  rfl

theorem ne_of_isDigit {d : Char} (hc : isDigit c = true) (hd : isDigit d = false) : c ≠ d := by
  rintro rfl
  rw [hc] at hd
  cases hd

/-- A run of digits ends where no digit follows. -/
theorem Digits.takeWhile_append (hd : Digits ds) (hrest : NoDigit rest) :
    (ds ++ rest).takeWhile isDigit = ds := by
  rw [List.takeWhile_append_of_pos hd]
  cases rest with
  | nil => exact List.append_nil ds
  | cons c cs =>
    have hc : isDigit c = false := hrest c rfl
    rw [List.takeWhile_cons_of_neg (by rw [hc]; decide), List.append_nil]

/-! ### Values -/

theorem ofDigits_toDigits (n : Nat) : ofDigits (Nat.toDigits 10 n) = n :=
  Nat.ofDigitChars_ten_toDigits

theorem ofDigits_append (ds es : List Char) :
    ofDigits (ds ++ es) = 10 ^ es.length * ofDigits ds + ofDigits es := by
  change Nat.ofDigitChars 10 (ds ++ es) 0 = _
  rw [Nat.ofDigitChars_append, Nat.ofDigitChars_eq_ofDigitChars_zero]
  rfl

theorem ofDigits_replicate (n : Nat) : ofDigits (List.replicate n '0') = 0 := by
  change Nat.ofDigitChars 10 _ 0 = 0
  rw [Nat.ofDigitChars_replicate_zero, Nat.mul_zero]

theorem ofDigits_lt (hd : Digits ds) : ofDigits ds < 10 ^ ds.length := by
  induction ds using List.reverseRecOn with
  | nil => decide
  | append_singleton ds c ih =>
    have hlt := ih fun d hd' => hd d (List.mem_append_left _ hd')
    have hc : isDigit c = true := hd c (List.mem_append_right _ List.mem_cons_self)
    have hdigit : ofDigits [c] < 10 := by
      simp only [isDigit, Bool.and_eq_true, decide_eq_true_eq, Char.le_def, UInt32.le_iff_toNat_le] at hc
      change 10 * 0 + (c.val.toNat - 48) < 10
      have hnine : ('9' : Char).val.toNat = 57 := rfl
      omega
    rw [ofDigits_append, List.length_append, List.length_singleton, pow_one, pow_succ]
    omega

/-! ### Numbers filled up with zeros -/

theorem toList_padded (width n : Nat) : (padded width n).toList =
    List.replicate (width - (Nat.toDigits 10 n).length) '0' ++ Nat.toDigits 10 n :=
  String.toList_ofList

theorem digits_padded (width n : Nat) : Digits (padded width n).toList := by
  rw [toList_padded]
  exact (digits_replicate _).append (digits_toDigits n)

theorem padded_ne_nil (width n : Nat) : (padded width n).toList ≠ [] := by
  rw [toList_padded]
  exact List.append_ne_nil_of_right_ne_nil _ Nat.toDigits_ne_nil

theorem ofDigits_padded (width n : Nat) : ofDigits (padded width n).toList = n := by
  rw [toList_padded, ofDigits_append, ofDigits_replicate, Nat.mul_zero, Nat.zero_add,
    ofDigits_toDigits]

theorem length_padded (hwidth : 0 < width) (hn : n < 10 ^ width) :
    (padded width n).toList.length = width := by
  have hle := (Nat.length_toDigits_le_iff (by decide) hwidth).mpr hn
  rw [toList_padded, List.length_append, List.length_replicate]
  omega

/-- A run of digits within the width is read as its number. -/
theorem number?_of_length_le (hd : Digits ds) (hne : ds ≠ []) (hle : ds.length ≤ width)
    (hrest : ds.length = width ∨ NoDigit rest) :
    number? width (ds ++ rest) = some (ofDigits ds, rest) := by
  have htake : ((ds ++ rest).take width).takeWhile isDigit = ds := by
    rw [List.take_append, List.take_of_length_le hle]
    refine hd.takeWhile_append ?_
    rcases hrest with heq | hrest
    · rw [heq, Nat.sub_self, List.take_zero]
      exact noDigit_nil
    · intro c hc
      refine hrest c ?_
      cases hk : width - ds.length with
      | zero => simp [hk] at hc
      | succ k =>
        rw [hk] at hc
        cases rest with
        | nil => exact hc
        | cons d rest => exact hc
  rw [number?, htake]
  cases ds with
  | nil => exact absurd rfl hne
  | cons d ds => simp only [List.drop_left]

/-- A number of a fixed width is read whatever follows it. -/
theorem number?_padded (hwidth : 0 < width) (hn : n < 10 ^ width) (rest : List Char) :
    number? width ((padded width n).toList ++ rest) = some (n, rest) := by
  have hlength := length_padded hwidth hn
  rw [number?_of_length_le (digits_padded width n) (padded_ne_nil width n) (Nat.le_of_eq hlength)
    (.inl hlength), ofDigits_padded]

/-- A number that is read has no more digits than were taken for it. -/
theorem exists_of_number? {cs : List Char} (h : number? width cs = some (n, rest)) :
    ∃ k ≤ width, cs.length = k + rest.length ∧ n < 10 ^ k := by
  unfold number? at h
  split at h
  · cases h
  · obtain ⟨rfl, rfl⟩ := Prod.mk.inj (Option.some.inj h)
    have hprefix : ((cs.take width).takeWhile isDigit).length ≤ (cs.take width).length :=
      (List.takeWhile_prefix isDigit).length_le
    rw [List.length_take] at hprefix
    refine ⟨((cs.take width).takeWhile isDigit).length, hprefix.trans (Nat.min_le_left _ _), ?_,
      ofDigits_lt fun c hc => List.mem_takeWhile_imp hc⟩
    rw [List.length_drop]
    omega

end

end PeakUsage.Text
