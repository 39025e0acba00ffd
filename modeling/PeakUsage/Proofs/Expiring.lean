import PeakUsage.Expiring

/-! What is served from an expiring cache after writes and looks. -/
namespace PeakUsage.Expiring
variable {κ ν : Type} [Ord κ] [Std.TransOrd κ]

/-- Writes a key with a given deadline, which is also that of the whole cache. -/
def put (c : Expiring κ ν) (k : κ) (v : ν) (deadline : Nat) : Expiring κ ν :=
  ⟨c.entries.insert k ⟨v, deadline⟩, some deadline⟩

theorem set_eq (c : Expiring κ ν) (now : Nat) (k : κ) (v : ν) (ttl : Nat) :
    c.set now k v ttl =
      if now + ttl < Nanos.horizon then .ok (c.put k v (now + ttl)) else .error .pastHorizon := by
  unfold set PeakUsage.deadline
  split <;> rfl

@[simp] theorem deadline_touch (c : Expiring κ ν) (now : Nat) (k : κ) :
    (c.touch now k).deadline = c.deadline := by
  unfold touch
  split <;> rfl

@[simp] theorem deadline_touchAll (c : Expiring κ ν) (now : Nat) (ks : List κ) :
    (c.touchAll now ks).deadline = c.deadline := by
  induction ks generalizing c with
  | nil => rfl
  | cons k ks ih => exact (ih (c.touch now k)).trans (deadline_touch c now k)

theorem isExpired_eq_false_iff {c : Expiring κ ν} {now : Nat} :
    c.isExpired now = false ↔ ∃ g, c.deadline = some g ∧ now ≤ g := by
  unfold isExpired
  split <;> simp_all

/-- A key is served as long as neither deadline has passed. -/
theorem get?_eq_some_iff {c : Expiring κ ν} {now : Nat} {k : κ} {v : ν} :
    c.get? now k = some v ↔
      ∃ d g, c.entries[k]? = some ⟨v, d⟩ ∧ c.deadline = some g ∧ now ≤ d ∧ now ≤ g := by
  unfold get?
  split
  · next e he =>
    constructor
    · intro h
      split at h
      · exact absurd h nofun
      · next hlive =>
        simp only [Bool.or_eq_true, decide_eq_true_eq, not_or, Nat.not_lt,
          Bool.not_eq_true] at hlive
        obtain ⟨g, hg, hle⟩ := isExpired_eq_false_iff.mp hlive.1
        obtain rfl := Option.some.inj h
        exact ⟨e.deadline, g, he, hg, hlive.2, hle⟩
    · rintro ⟨d, g, hd, hg, hnow, hle⟩
      obtain rfl := Option.some.inj (he.symm.trans hd)
      have hlive : c.isExpired now = false := isExpired_eq_false_iff.mpr ⟨g, hg, hle⟩
      simp [hlive, Nat.not_lt.mpr hnow]
  · next he =>
    constructor
    · exact nofun
    · rintro ⟨d, g, hd, -⟩
      rw [he] at hd
      exact absurd hd nofun

theorem getElem?_put (c : Expiring κ ν) (k j : κ) (v : ν) (d : Nat) :
    (c.put k v d).entries[j]? = if compare k j = .eq then some ⟨v, d⟩ else c.entries[j]? :=
  Std.ExtTreeMap.getElem?_insert

theorem getElem?_of_isEmpty {c : Expiring κ ν} (h : c.isEmpty = true) (k : κ) :
    c.entries[k]? = none := by
  have hnil : c.entries = ∅ := Std.ExtTreeMap.isEmpty_iff.mp h
  rw [hnil, Std.ExtTreeMap.getElem?_empty]

theorem isEmpty_eq_false {c : Expiring κ ν} {k : κ} {e : Entry ν} (h : c.entries[k]? = some e) :
    c.isEmpty = false := by
  rw [← Bool.not_eq_true]
  intro hempty
  exact Option.some_ne_none e (h.symm.trans (getElem?_of_isEmpty hempty k))

theorem getElem?_touch_of_some {c : Expiring κ ν} {now : Nat} {k j : κ} {e : Entry ν}
    (h : (c.touch now k).entries[j]? = some e) : c.entries[j]? = some e := by
  unfold touch at h
  split at h
  · exact h
  · rw [Std.ExtTreeMap.getElem?_erase] at h
    split at h
    · exact absurd h nofun
    · exact h

theorem getElem?_touchAll_of_some {c : Expiring κ ν} {now : Nat} {ks : List κ} {j : κ}
    {e : Entry ν} (h : (c.touchAll now ks).entries[j]? = some e) : c.entries[j]? = some e := by
  induction ks generalizing c with
  | nil => exact h
  | cons k ks ih => exact getElem?_touch_of_some (ih h)

/-- What was not served once is not served later. -/
theorem get?_eq_none_of_le {c : Expiring κ ν} {now later : Nat} {k : κ}
    (h : c.get? now k = none) (hle : now ≤ later) : c.get? later k = none := by
  cases hl : c.get? later k with
  | none => rfl
  | some v =>
    obtain ⟨d, g, hd, hg, hdl, hgl⟩ := get?_eq_some_iff.mp hl
    have hs := get?_eq_some_iff.mpr ⟨d, g, hd, hg, Nat.le_trans hle hdl, Nat.le_trans hle hgl⟩
    exact absurd (h.symm.trans hs) nofun

/-- A look at keys that are served changes nothing. -/
theorem touchAll_of_served {c : Expiring κ ν} {now : Nat} {ks : List κ}
    (h : ∀ k ∈ ks, (c.get? now k).isSome = true) : c.touchAll now ks = c := by
  induction ks with
  | nil => rfl
  | cons k ks ih =>
    have hk : c.touch now k = c := if_pos (h k List.mem_cons_self)
    have hks := ih fun j hj => h j (List.mem_cons_of_mem k hj)
    rw [touchAll, List.foldl_cons, hk]
    exact hks

/-! ### One deadline for all -/

/-- No entry outlives the cache as a whole, and the cache does not outlive `limit`. -/
structure Bounded (c : Expiring κ ν) (limit : Nat) : Prop where
  entry_le : ∀ (k : κ) (e : Entry ν), c.entries[k]? = some e →
    ∃ g, c.deadline = some g ∧ e.deadline ≤ g
  deadline_le : ∀ g, c.deadline = some g → g ≤ limit

theorem bounded_empty (limit : Nat) : (empty : Expiring κ ν).Bounded limit where
  entry_le := fun k e he => absurd he (by simp [empty])
  deadline_le := nofun

namespace Bounded
variable {c : Expiring κ ν} {limit : Nat}

theorem mono (h : c.Bounded limit) {more : Nat} (hle : limit ≤ more) : c.Bounded more where
  entry_le := h.entry_le
  deadline_le := fun g hg => Nat.le_trans (h.deadline_le g hg) hle

theorem put (h : c.Bounded limit) (k : κ) (v : ν) : (c.put k v limit).Bounded limit where
  entry_le := by
    intro j e he
    rw [getElem?_put] at he
    split at he
    · obtain rfl := Option.some.inj he
      exact ⟨limit, rfl, Nat.le_refl limit⟩
    · obtain ⟨g, hg, hle⟩ := h.entry_le j e he
      exact ⟨limit, rfl, Nat.le_trans hle (h.deadline_le g hg)⟩
  deadline_le := fun g hg => Nat.le_of_eq (Option.some.inj hg).symm

theorem touchAll (h : c.Bounded limit) (now : Nat) (ks : List κ) :
    (c.touchAll now ks).Bounded limit where
  entry_le := by
    intro k e he
    rw [deadline_touchAll]
    exact h.entry_le k e (getElem?_touchAll_of_some he)
  deadline_le := by
    rw [deadline_touchAll]
    exact h.deadline_le

/-- Then an entry is served exactly until its own deadline. -/
theorem get?_eq_some_iff (h : c.Bounded limit) {now : Nat} {k : κ} {v : ν} :
    c.get? now k = some v ↔ ∃ d, c.entries[k]? = some ⟨v, d⟩ ∧ now ≤ d := by
  rw [Expiring.get?_eq_some_iff]
  constructor
  · rintro ⟨d, g, hd, -, hnow, -⟩
    exact ⟨d, hd, hnow⟩
  · rintro ⟨d, hd, hnow⟩
    obtain ⟨g, hg, hle⟩ := h.entry_le k _ hd
    exact ⟨d, g, hd, hg, hnow, Nat.le_trans hnow hle⟩

/-- Nothing is left to serve when the cache as a whole has expired. -/
theorem deadline_lt_of_isExpired (h : c.Bounded limit) {now : Nat}
    (hexpired : c.isExpired now = true) {k : κ} {e : Entry ν} (he : c.entries[k]? = some e) :
    e.deadline < now := by
  obtain ⟨g, hg, hle⟩ := h.entry_le k e he
  simp only [isExpired, hg, decide_eq_true_eq] at hexpired
  omega

end Bounded

variable [Std.LawfulEqOrd κ]

theorem getElem?_put_self (c : Expiring κ ν) (k : κ) (v : ν) (d : Nat) :
    (c.put k v d).entries[k]? = some ⟨v, d⟩ := by
  rw [getElem?_put, if_pos Std.ReflOrd.compare_self]

theorem getElem?_put_of_ne (c : Expiring κ ν) {k j : κ} (h : k ≠ j) (v : ν) (d : Nat) :
    (c.put k v d).entries[j]? = c.entries[j]? := by
  have hne : ¬ compare k j = .eq := fun heq => h (Std.LawfulEqOrd.eq_of_compare heq)
  rw [getElem?_put, if_neg hne]

theorem get?_put_self (c : Expiring κ ν) (k : κ) (v : ν) {now d : Nat} (h : now ≤ d) :
    (c.put k v d).get? now k = some v :=
  get?_eq_some_iff.mpr ⟨d, d, getElem?_put_self c k v d, rfl, h, h⟩

/-- A write under another key lets what is served be served up to its own deadline. -/
theorem get?_put_of_some {c : Expiring κ ν} {now : Nat} {j : κ} {u : ν}
    (h : c.get? now j = some u) {k : κ} (hne : k ≠ j) (v : ν) {d : Nat} (hle : now ≤ d) :
    (c.put k v d).get? now j = some u := by
  obtain ⟨e, g, he, -, hnow, -⟩ := get?_eq_some_iff.mp h
  have hentry := (getElem?_put_of_ne c hne v d).trans he
  exact get?_eq_some_iff.mpr ⟨e, d, hentry, rfl, hnow, hle⟩

/-- A look at a key changes nothing that is served from then on. -/
theorem get?_touch (c : Expiring κ ν) {now later : Nat} (hle : now ≤ later) (k j : κ) :
    (c.touch now k).get? later j = c.get? later j := by
  unfold touch
  split
  · rfl
  · next hserved =>
    have hnone : c.get? now k = none := by simpa using hserved
    by_cases hkj : compare k j = .eq
    · obtain rfl := Std.LawfulEqOrd.eq_of_compare hkj
      rw [get?_eq_none_of_le hnone hle]
      unfold get?
      simp
    · unfold get? isExpired
      simp [Std.ExtTreeMap.getElem?_erase, hkj]

theorem get?_touchAll (c : Expiring κ ν) {now later : Nat} (hle : now ≤ later) (ks : List κ)
    (j : κ) : (c.touchAll now ks).get? later j = c.get? later j := by
  induction ks generalizing c with
  | nil => rfl
  | cons k ks ih => exact (ih (c.touch now k)).trans (get?_touch c hle k j)

theorem getElem?_touch_iff {c : Expiring κ ν} {now : Nat} {k j : κ} {e : Entry ν} :
    (c.touch now k).entries[j]? = some e ↔
      c.entries[j]? = some e ∧ (k = j → (c.get? now j).isSome = true) := by
  unfold touch
  split
  · next hserved =>
    refine ⟨fun he => ⟨he, ?_⟩, fun h => h.1⟩
    rintro rfl
    exact hserved
  · next hserved =>
    rw [Std.ExtTreeMap.getElem?_erase]
    by_cases hkj : k = j
    · subst hkj
      have hself : compare k k = .eq := Std.ReflOrd.compare_self
      rw [if_pos hself]
      exact ⟨nofun, fun h => absurd (h.2 rfl) hserved⟩
    · have hne : ¬ compare k j = .eq := fun h => hkj (Std.LawfulEqOrd.eq_of_compare h)
      rw [if_neg hne]
      exact ⟨fun he => ⟨he, fun h => absurd h hkj⟩, fun h => h.1⟩

/-- A look at several keys removes the entries under them that are not served. -/
theorem getElem?_touchAll_iff {c : Expiring κ ν} {now : Nat} {ks : List κ} {j : κ}
    {e : Entry ν} :
    (c.touchAll now ks).entries[j]? = some e ↔
      c.entries[j]? = some e ∧ (j ∈ ks → (c.get? now j).isSome = true) := by
  induction ks generalizing c with
  | nil => simp [touchAll]
  | cons k ks ih =>
    have hnext := ih (c := c.touch now k)
    rw [get?_touch c (Nat.le_refl now), getElem?_touch_iff] at hnext
    refine hnext.trans ⟨?_, ?_⟩
    · rintro ⟨⟨he, hk⟩, hks⟩
      refine ⟨he, fun hj => ?_⟩
      rcases List.mem_cons.mp hj with h | h
      · exact hk h.symm
      · exact hks h
    · rintro ⟨he, hks⟩
      exact ⟨⟨he, fun h => hks (h ▸ List.mem_cons_self)⟩,
        fun h => hks (List.mem_cons_of_mem k h)⟩

theorem mem_keys_of_some {c : Expiring κ ν} {k : κ} {e : Entry ν} (h : c.entries[k]? = some e) :
    k ∈ c.keys := by
  rw [keys, Std.ExtTreeMap.mem_keys]
  exact Std.ExtTreeMap.mem_iff_isSome_getElem?.mpr (by rw [h]; rfl)

/-- A look at all keys leaves the entries that are served. -/
theorem getElem?_touchAll_keys_iff {c : Expiring κ ν} {now : Nat} {j : κ} {e : Entry ν} :
    (c.touchAll now c.keys).entries[j]? = some e ↔
      c.entries[j]? = some e ∧ (c.get? now j).isSome = true := by
  rw [getElem?_touchAll_iff]
  exact and_congr_right fun he => ⟨fun h => h (mem_keys_of_some he), fun h _ => h⟩

theorem Bounded.getElem?_touchAll_keys_iff {c : Expiring κ ν} {limit : Nat} (h : c.Bounded limit)
    {now : Nat} {j : κ} {e : Entry ν} :
    (c.touchAll now c.keys).entries[j]? = some e ↔ c.entries[j]? = some e ∧ now ≤ e.deadline := by
  rw [Expiring.getElem?_touchAll_keys_iff, Option.isSome_iff_exists]
  refine and_congr_right fun he => ?_
  constructor
  · rintro ⟨v, hv⟩
    obtain ⟨d, hd, hnow⟩ := h.get?_eq_some_iff.mp hv
    obtain rfl := Option.some.inj (he.symm.trans hd)
    exact hnow
  · intro hnow
    exact ⟨e.value, h.get?_eq_some_iff.mpr ⟨e.deadline, he, hnow⟩⟩

/-- Looking at keys one after another finds what is served under each. -/
theorem collect_eq (c : Expiring κ ν) (now : Nat) (ks : List κ) :
    c.collect now ks = ks.filterMap (c.get? now) := by
  induction ks generalizing c with
  | nil => rfl
  | cons k ks ih =>
    have htouch : (c.touch now k).get? now = c.get? now :=
      funext fun j => get?_touch c (Nat.le_refl now) k j
    rw [collect, ih, htouch, List.filterMap_cons]
    cases c.get? now k <;> rfl

end PeakUsage.Expiring
