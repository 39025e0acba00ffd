import PeakUsage.Proofs.Expiring.Histories

/-! A cache whose writes all use one time to live serves each key as a plain table would: until the
deadline of its own entry, whatever is done with the other keys. -/
namespace PeakUsage.Expiring

/-- Accesses in the order of time, none of them after now, whose writes use one time to live. -/
structure Uniform {κ ν : Type} (ttl now : Nat) (h : List (Access κ ν)) : Prop where
  ordered : h.Pairwise fun a b => a.time ≤ b.time
  past : ∀ a ∈ h, a.time ≤ now
  ttl_eq : ∀ a ∈ h, ∀ k v t, a.call = .set k v t → t = ttl

theorem Access.deadline_of_written {κ ν : Type} {a : Access κ ν} {k : κ} {e : Entry ν} {ttl : Nat}
    (hwritten : a.written? = some (k, e)) (httl : ∀ k v t, a.call = .set k v t → t = ttl) :
    e.deadline = a.time + ttl := by
  unfold Access.written? at hwritten
  split at hwritten
  · next j v t hcall =>
    obtain ⟨d, hd, heq⟩ := Option.map_eq_some_iff.mp hwritten
    obtain ⟨-, rfl⟩ := Prod.mk.inj heq
    rw [← httl j v t hcall]
    cases hfits : PeakUsage.deadline a.time t with
    | error f => rw [hfits] at hd; exact absurd hd nofun
    | ok d' =>
      rw [hfits] at hd
      obtain rfl := Option.some.inj hd
      exact (deadline_eq_ok_iff.mp hfits).2
  · exact absurd hwritten nofun

namespace Uniform
variable {κ ν : Type} {ttl now : Nat} {h : List (Access κ ν)} {a : Access κ ν}

theorem of_concat (hu : Uniform ttl now (h ++ [a])) :
    Uniform ttl a.time h ∧ a.time ≤ now ∧
      ∀ k e, a.written? = some (k, e) → e.deadline = a.time + ttl := by
  have hordered := List.pairwise_append.mp hu.ordered
  have ha : a ∈ h ++ [a] := List.mem_append_right _ List.mem_cons_self
  refine ⟨⟨hordered.1, fun b hb => hordered.2.2 b hb a List.mem_cons_self, fun b hb => ?_⟩,
    hu.past a ha, fun k e hwritten => Access.deadline_of_written hwritten (hu.ttl_eq a ha)⟩
  exact hu.ttl_eq b (List.mem_append_left _ hb)

theorem filter (hu : Uniform ttl now h) (f : Access κ ν → Bool) :
    Uniform ttl now (h.filter f) where
  ordered := hu.ordered.filter f
  past := fun a ha => hu.past a (List.mem_filter.mp ha).1
  ttl_eq := fun a ha => hu.ttl_eq a (List.mem_filter.mp ha).1

end Uniform

/-- Whether an access is a write of a key. -/
def Access.sets {κ ν : Type} [Ord κ] (k : κ) (a : Access κ ν) : Bool :=
  match a.call with
  | .set j _ _ => compare j k == .eq
  | _ => false

theorem Access.sets_of_written {κ ν : Type} [Ord κ] {a : Access κ ν} (k : κ) {j : κ} {e : Entry ν}
    (h : a.written? = some (j, e)) : a.sets k = (compare j k == .eq) := by
  obtain ⟨time, call⟩ := a
  cases call with
  | set i v ttl =>
    obtain ⟨d, -, hd⟩ := Option.map_eq_some_iff.mp h
    rw [← (Prod.mk.inj hd).1]
    rfl
  | get i => exact absurd h nofun
  | keys => exact absurd h nofun
  | size => exact absurd h nofun
  | isExpired => exact absurd h nofun

/-- A table with a deadline for each key and none for the whole. -/
abbrev Plain (κ ν : Type) [Ord κ] : Type := Std.ExtTreeMap κ (Entry ν)

variable {κ ν : Type} [Ord κ] [Std.TransOrd κ]

namespace Plain

def get? (m : Plain κ ν) (now : Nat) (k : κ) : Option ν :=
  match m[k]? with
  | some e => if e.deadline < now then none else some e.value
  | none => none

/-- What an access leaves. Only writes change a plain table. -/
def leave (m : Plain κ ν) (a : Access κ ν) : Plain κ ν :=
  match a.written? with
  | some (k, e) => m.insert k e
  | none => m

/-- The table after a history of accesses to an empty one. -/
def after (h : List (Access κ ν)) : Plain κ ν := h.foldl leave ∅

@[simp] theorem after_concat (h : List (Access κ ν)) (a : Access κ ν) :
    after (h ++ [a]) = (after h).leave a := by
  simp [after]

theorem leave_of_some {a : Access κ ν} {k : κ} {e : Entry ν} (h : a.written? = some (k, e))
    (m : Plain κ ν) : m.leave a = m.insert k e := by
  rw [leave, h]

theorem leave_of_none {a : Access κ ν} (h : a.written? = none) (m : Plain κ ν) :
    m.leave a = m := by
  rw [leave, h]

theorem get?_eq_some_iff {m : Plain κ ν} {now : Nat} {k : κ} {v : ν} :
    m.get? now k = some v ↔ ∃ d, m[k]? = some ⟨v, d⟩ ∧ now ≤ d := by
  unfold get?
  split
  · next e he =>
    rw [he]
    constructor
    · intro h
      split at h
      · exact absurd h nofun
      · next hlive =>
        obtain rfl := Option.some.inj h
        exact ⟨e.deadline, rfl, Nat.not_lt.mp hlive⟩
    · rintro ⟨d, hd, hnow⟩
      obtain rfl := Option.some.inj hd
      exact if_neg (Nat.not_lt.mpr hnow)
  · next he => simp [he]

/-- Writes of other keys make no difference. -/
theorem getElem?_after_filter (h : List (Access κ ν)) (k : κ) :
    (after (h.filter (·.sets k)))[k]? = (after h)[k]? := by
  induction h using List.reverseRecOn with
  | nil => rfl
  | append_singleton h a ih =>
    rw [List.filter_append, after_concat]
    cases hwritten : a.written? with
    | none =>
      rw [leave_of_none hwritten]
      cases hsets : a.sets k with
      | false => simp [hsets, ih]
      | true => simp [hsets, leave_of_none hwritten, ih]
    | some x =>
      obtain ⟨j, e⟩ := x
      have hsets := Access.sets_of_written k hwritten
      rw [leave_of_some hwritten, Std.ExtTreeMap.getElem?_insert]
      by_cases hjk : compare j k = .eq
      · have hmine : [a].filter (·.sets k) = [a] := by simp [hsets, hjk]
        rw [hmine, after_concat, leave_of_some hwritten, Std.ExtTreeMap.getElem?_insert,
          if_pos hjk, if_pos hjk]
      · have hother : [a].filter (·.sets k) = [] := by simp [hsets, hjk]
        rw [hother, List.append_nil, ih, if_neg hjk]

end Plain

/-! ### The two tables side by side -/

/-- The cache has the entries of a plain table up to some whose deadline has passed, and no entry
outlives the cache. -/
structure Mirrors (ttl now : Nat) (c : Expiring κ ν) (m : Plain κ ν) : Prop where
  bounded : c.Bounded (now + ttl)
  plain : ∀ (k : κ) (e : Entry ν), c.entries[k]? = some e → m[k]? = some e
  stored : ∀ (k : κ) (e : Entry ν), m[k]? = some e → now ≤ e.deadline → c.entries[k]? = some e

namespace Mirrors
variable {ttl now : Nat} {c : Expiring κ ν} {m : Plain κ ν}

theorem later (h : Mirrors ttl now c m) {later : Nat} (hle : now ≤ later) :
    Mirrors ttl later c m where
  bounded := h.bounded.mono (Nat.add_le_add_right hle ttl)
  plain := h.plain
  stored := fun k e he hlive => h.stored k e he (Nat.le_trans hle hlive)

theorem get?_eq (h : Mirrors ttl now c m) (k : κ) : c.get? now k = m.get? now k := by
  ext v
  rw [h.bounded.get?_eq_some_iff, Plain.get?_eq_some_iff]
  constructor
  · rintro ⟨d, hd, hnow⟩
    exact ⟨d, h.plain k _ hd, hnow⟩
  · rintro ⟨d, hd, hnow⟩
    exact ⟨d, h.stored k _ hd hnow, hnow⟩

variable [Std.LawfulEqOrd κ]

/-- An access at the time of the tables leaves them side by side. -/
theorem leave {a : Access κ ν} (h : Mirrors ttl a.time c m)
    (hdeadline : ∀ k e, a.written? = some (k, e) → e.deadline = a.time + ttl) :
    Mirrors ttl a.time (c.leave a) (m.leave a) := by
  cases left_leave c a with
  | wrote k e hwritten hcall hleave =>
    have hentry : ∀ j, (c.put k e.value e.deadline).entries[j]? =
        if compare k j = .eq then some e else c.entries[j]? :=
      fun j => getElem?_put c k j e.value e.deadline
    have hplain : ∀ j, (m.insert k e)[j]? = if compare k j = .eq then some e else m[j]? :=
      fun j => Std.ExtTreeMap.getElem?_insert
    rw [hleave, Plain.leave_of_some hwritten]
    refine ⟨?_, fun j f hf => ?_, fun j f hf hlive => ?_⟩
    · rw [hdeadline k e hwritten]
      exact h.bounded.put k e.value
    · rw [hentry] at hf
      rw [hplain]
      split at hf
      · next hkj => rwa [if_pos hkj]
      · next hkj => rw [if_neg hkj, h.plain j f hf]
    · rw [hplain] at hf
      rw [hentry]
      split at hf
      · next hkj => rwa [if_pos hkj]
      · next hkj => rw [if_neg hkj, h.stored j f hf hlive]
  | looked k hwritten hcall hleave =>
    rw [hleave, Plain.leave_of_none hwritten]
    refine ⟨h.bounded.touchAll a.time [k], fun j e he => ?_, fun j e he hlive => ?_⟩
    · exact h.plain j e (getElem?_touch_of_some he)
    · -- an entry that may be served is served, so the look does not remove it
      have hentry := h.stored j e he hlive
      have hserved := h.bounded.get?_eq_some_iff.mpr ⟨e.deadline, hentry, hlive⟩
      exact getElem?_touch_iff.mpr ⟨hentry, fun _ => by rw [hserved]; rfl⟩
  | same hwritten hcall hleave =>
    rw [hleave, Plain.leave_of_none hwritten]
    exact h

end Mirrors

variable [Std.LawfulEqOrd κ] {ttl now : Nat} {h : List (Access κ ν)}

theorem mirrors_after (hu : Uniform ttl now h) : Mirrors ttl now (after h) (Plain.after h) := by
  induction h using List.reverseRecOn generalizing now with
  | nil => exact ⟨bounded_empty _, fun k e he => by simp [after, empty] at he,
      fun k e he => by simp [Plain.after] at he⟩
  | append_singleton h a ih =>
    obtain ⟨hbefore, hle, hdeadline⟩ := hu.of_concat
    rw [after_concat, Plain.after_concat]
    exact ((ih hbefore).leave hdeadline).later hle

omit [Std.LawfulEqOrd κ] in
/-- The entry written last is in the plain table. -/
theorem getElem?_plain_of_lastWrite {k : κ} {e : Entry ν} (hlast : lastWrite h = some (k, e)) :
    (Plain.after h)[k]? = some e := by
  induction h using List.reverseRecOn with
  | nil => exact absurd hlast nofun
  | append_singleton h a ih =>
    rw [Plain.after_concat]
    cases hwritten : a.written? with
    | none =>
      rw [lastWrite_concat_of_none hwritten] at hlast
      rw [Plain.leave_of_none hwritten]
      exact ih hlast
    | some x =>
      rw [lastWrite_concat_of_some hwritten] at hlast
      obtain rfl := Option.some.inj hlast
      rw [Plain.leave_of_some hwritten, Std.ExtTreeMap.getElem?_insert_self]

/-- As long as the cache has not expired it holds the entry written last. -/
theorem exists_lastWrite_of_not_expired (hu : Uniform ttl now h)
    (hlive : (after h).isExpired now = false) :
    ∃ (k : κ) (e : Entry ν), lastWrite h = some (k, e) ∧ (after h).entries[k]? = some e := by
  obtain ⟨g, hg, hle⟩ := isExpired_eq_false_iff.mp hlive
  rw [deadline_after] at hg
  obtain ⟨⟨k, e⟩, hlast, rfl⟩ := Option.map_eq_some_iff.mp hg
  exact ⟨k, e, hlast, (mirrors_after hu).stored k e (getElem?_plain_of_lastWrite hlast) hle⟩

/-- With one time to live the deadline of the whole cache never shows: no entry outlives it, the
cache has expired once it is empty and holds the entry written last before, and a look finds what it
finds in a plain table, which only depends on the writes of its key. -/
theorem get?_after_eq_plain (hu : Uniform ttl now h) :
    (∀ (k : κ) (e : Entry ν), (after h).entries[k]? = some e →
      ∃ g, (after h).deadline = some g ∧ e.deadline ≤ g) ∧
    ((after h).isExpired now = false →
      ∃ (k : κ) (e : Entry ν), lastWrite h = some (k, e) ∧ (after h).entries[k]? = some e) ∧
    ((after h).isEmpty = true → (after h).isExpired now = true) ∧
    ∀ k, (after h).get? now k = (Plain.after h).get? now k ∧
      (after h).get? now k = (after (h.filter (·.sets k))).get? now k := by
  have hmirrors := mirrors_after hu
  refine ⟨hmirrors.bounded.entry_le, exists_lastWrite_of_not_expired hu, fun hempty => ?_,
    fun k => ⟨hmirrors.get?_eq k, ?_⟩⟩
  · by_contra hlive
    obtain ⟨k, e, -, he⟩ :=
      exists_lastWrite_of_not_expired hu (Bool.eq_false_iff.mpr hlive)
    exact Bool.eq_false_iff.mp (isEmpty_eq_false he) hempty
  · rw [hmirrors.get?_eq, (mirrors_after (hu.filter _)).get?_eq, Plain.get?, Plain.get?,
      Plain.getElem?_after_filter]

/-! ### A key that is written again behind another -/

def twoKeys : List (Access String Nat) :=
  [⟨0, .set "a" 1 10⟩, ⟨4, .set "b" 2 10⟩, ⟨12, .get "a"⟩, ⟨13, .set "a" 3 10⟩]

theorem uniform_twoKeys : Uniform 10 14 twoKeys where
  ordered := by decide
  past := by decide
  ttl_eq := by
    intro a ha k v t hcall
    simp only [twoKeys, List.mem_cons, List.not_mem_nil, or_false] at ha
    rcases ha with rfl | rfl | rfl | rfl
    · exact (Call.set.inj hcall).2.2.symm
    · exact (Call.set.inj hcall).2.2.symm
    · exact absurd hcall nofun
    · exact (Call.set.inj hcall).2.2.symm

theorem get?_after_eq_plain_twoKeys :
    (after twoKeys).get? 14 "b" = some 2 ∧ (after [⟨4, .set "b" 2 10⟩]).get? 14 "b" = some 2 := by
  obtain ⟨-, -, -, hget⟩ := get?_after_eq_plain uniform_twoKeys
  have hplain : (Plain.after twoKeys).get? 14 "b" = some 2 := by decide +kernel
  have hfilter : twoKeys.filter (·.sets "b") = [⟨4, .set "b" 2 10⟩] := rfl
  have hb := hget "b"
  rw [hfilter] at hb
  exact ⟨hb.1.trans hplain, hb.2.symm.trans (hb.1.trans hplain)⟩

end PeakUsage.Expiring
