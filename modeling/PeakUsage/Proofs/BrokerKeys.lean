import PeakUsage.Resource

/-! Keys of brokers: what follows the last dash is the broker's number. -/
namespace PeakUsage

theorem Text.notMem_decimal {c : Char} (hc : c.isDigit = false) (n : Nat) :
    c ∉ (Text.decimal n).toList := by
  intro h
  rw [Text.decimal, String.toList_ofList] at h
  have hdigit := Nat.isDigit_of_mem_toDigits (by decide) (by decide) h
  exact absurd (hc.symm.trans hdigit) nofun

/-- Read from its end, a key is the digits of the number up to the last dash. -/
theorem reverse_brokerKey (cluster : String) (id : Nat) :
    (brokerKey cluster id).toList.reverse =
      (Text.decimal id).toList.reverse ++ '-' :: cluster.toList.reverse := by
  simp [brokerKey]

theorem Text.ne_dash_of_mem_decimal (n : Nat) :
    ∀ c ∈ (Text.decimal n).toList.reverse, decide (c ≠ '-') = true := by
  intro c hc
  have hdash : '-' ∉ (Text.decimal n).toList := Text.notMem_decimal rfl n
  have hne : c ≠ '-' := fun h => hdash (h ▸ List.mem_reverse.mp hc)
  exact decide_eq_true hne

theorem brokerOfKey_brokerKey (cluster : String) (id : Nat) :
    brokerOfKey (brokerKey cluster id) = Text.decimal id := by
  rw [brokerOfKey, reverse_brokerKey,
    List.takeWhile_append_of_pos (Text.ne_dash_of_mem_decimal id)]
  simp

theorem Text.decimal_injective : Function.Injective Text.decimal := by
  intro m n h
  have hdigits : Nat.toDigits 10 m = Nat.toDigits 10 n := String.ofList_injective h
  rw [← Nat.ofDigitChars_ten_toDigits (n := m), hdigits, Nat.ofDigitChars_ten_toDigits]

/-- Keys of different brokers of a cluster differ. -/
theorem brokerKey_injective (cluster : String) : Function.Injective (brokerKey cluster) := by
  intro id number h
  apply Text.decimal_injective
  rw [← brokerOfKey_brokerKey cluster id, h, brokerOfKey_brokerKey]

/-- Keys of brokers of different clusters differ. -/
theorem cluster_eq_of_brokerKey {cluster other : String} {id number : Nat}
    (h : brokerKey cluster id = brokerKey other number) : cluster = other := by
  have hdrop : ∀ (s : String) (n : Nat), (brokerKey s n).toList.reverse.dropWhile (· ≠ '-') =
      '-' :: s.toList.reverse := by
    intro s n
    rw [reverse_brokerKey, List.dropWhile_append_of_pos (Text.ne_dash_of_mem_decimal n)]
    simp
  have hsame := (hdrop cluster id).symm.trans ((by rw [h]) : _ = _)
  rw [hdrop other number] at hsame
  have hlist := List.reverse_inj.mp (List.cons.inj hsame).2
  exact String.toList_inj.mp hlist

/-- Two clusters, or two brokers of one, have no key in common. -/
theorem brokerKey_eq_iff {cluster other : String} {id number : Nat} :
    brokerKey cluster id = brokerKey other number ↔ cluster = other ∧ id = number := by
  constructor
  · intro h
    obtain rfl := cluster_eq_of_brokerKey h
    exact ⟨rfl, brokerKey_injective cluster h⟩
  · rintro ⟨rfl, rfl⟩
    rfl

end PeakUsage
