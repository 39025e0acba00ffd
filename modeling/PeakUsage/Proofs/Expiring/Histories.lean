import Mathlib.Data.List.Induction
import PeakUsage.Proofs.Expiring

/-! Histories of a cache: what a look finds is settled by the writes and the looks made before it. -/
namespace PeakUsage.Expiring

inductive Call (κ ν : Type) where
  | set (k : κ) (v : ν) (ttl : Nat)
  | get (k : κ)
  | keys
  | size
  | isExpired

/-- A call and when it is made. The clock stands still while it is served. -/
structure Access (κ ν : Type) where
  time : Nat
  call : Call κ ν

/-- The key and the entry an access writes; there is no entry whose deadline cannot be shown. -/
def Access.written? {κ ν : Type} (a : Access κ ν) : Option (κ × Entry ν) :=
  match a.call with
  | .set k v ttl => (PeakUsage.deadline a.time ttl).toOption.map fun d => (k, ⟨v, d⟩)
  | _ => none

variable {κ ν : Type} [Ord κ] [Std.TransOrd κ]

/-- What an access leaves. A write that fails leaves the cache as it is. -/
def leave (c : Expiring κ ν) (a : Access κ ν) : Expiring κ ν :=
  match a.call with
  | .set k v ttl => (c.set a.time k v ttl).toOption.getD c
  | .get k => c.touch a.time k
  | .keys | .size | .isExpired => c

/-- The cache after a history of accesses to a new one. -/
def after (h : List (Access κ ν)) : Expiring κ ν := h.foldl leave empty

@[simp] theorem after_concat (h : List (Access κ ν)) (a : Access κ ν) :
    after (h ++ [a]) = (after h).leave a := by
  simp [after]

/-- What an access does: it writes an entry, looks at a key, or nothing. -/
inductive Left (c : Expiring κ ν) (a : Access κ ν) : Prop
  | wrote (k : κ) (e : Entry ν) (hwritten : a.written? = some (k, e))
      (hcall : ∀ j, a.call ≠ .get j) (hleave : c.leave a = c.put k e.value e.deadline)
  | looked (k : κ) (hwritten : a.written? = none) (hcall : a.call = .get k)
      (hleave : c.leave a = c.touch a.time k)
  | same (hwritten : a.written? = none) (hcall : ∀ j, a.call ≠ .get j) (hleave : c.leave a = c)

theorem left_leave (c : Expiring κ ν) (a : Access κ ν) : Left c a := by
  obtain ⟨time, call⟩ := a
  cases call with
  | set k v ttl =>
    by_cases hfits : time + ttl < Nanos.horizon
    · refine .wrote k ⟨v, time + ttl⟩ ?_ nofun ?_
      · simp [Access.written?, PeakUsage.deadline, hfits, Except.toOption]
      · simp [leave, set_eq, hfits, Except.toOption]
    · refine .same ?_ nofun ?_
      · simp [Access.written?, PeakUsage.deadline, hfits, Except.toOption]
      · simp [leave, set_eq, hfits, Except.toOption]
  | get k => exact .looked k rfl rfl rfl
  | keys => exact .same rfl nofun rfl
  | size => exact .same rfl nofun rfl
  | isExpired => exact .same rfl nofun rfl

/-! ### The latest write -/

section
variable {κ ν : Type} {h : List (Access κ ν)} {a : Access κ ν}

/-- The last write of any key. -/
def lastWrite (h : List (Access κ ν)) : Option (κ × Entry ν) :=
  (h.filterMap Access.written?).getLast?

/-- The deadline the last write left the whole cache with. -/
def lastDeadline (h : List (Access κ ν)) : Option Nat := (lastWrite h).map (·.2.deadline)

theorem lastWrite_concat_of_some {x : κ × Entry ν} (hw : a.written? = some x) :
    lastWrite (h ++ [a]) = some x := by
  simp [lastWrite, List.filterMap_append, hw]

theorem lastWrite_concat_of_none (hw : a.written? = none) :
    lastWrite (h ++ [a]) = lastWrite h := by
  simp [lastWrite, List.filterMap_append, hw]

end

theorem deadline_after (h : List (Access κ ν)) : (after h).deadline = lastDeadline h := by
  induction h using List.reverseRecOn with
  | nil => rfl
  | append_singleton h a ih =>
    rw [after_concat, lastDeadline]
    cases left_leave (after h) a with
    | wrote k e hwritten hcall hleave =>
      rw [hleave, lastWrite_concat_of_some hwritten]
      rfl
    | looked k hwritten hcall hleave =>
      rw [hleave, lastWrite_concat_of_none hwritten, deadline_touch]
      exact ih
    | same hwritten hcall hleave =>
      rw [hleave, lastWrite_concat_of_none hwritten]
      exact ih

/-! ### What is stored -/

section
variable {κ ν : Type}

/-- A look at a time when neither the entry nor the cache has met its deadline. -/
def InTime (h : List (Access κ ν)) (e : Entry ν) (now : Nat) : Prop :=
  now ≤ e.deadline ∧ ∃ g, lastDeadline h = some g ∧ now ≤ g

/-- The last write of a key wrote an entry, and no look at the key since then came too late. -/
def Survives (h : List (Access κ ν)) (k : κ) (e : Entry ν) : Prop :=
  ∃ before a since, h = before ++ a :: since ∧ a.written? = some (k, e) ∧
    (∀ b ∈ since, ∀ f, b.written? ≠ some (k, f)) ∧
    ∀ early b late, since = early ++ b :: late → b.call = .get k →
      InTime (before ++ a :: early) e b.time

theorem forall_split_concat {α : Type} {P : List α → α → Prop} {l : List α} {x : α} :
    (∀ early b late, l ++ [x] = early ++ b :: late → P early b) ↔
      (∀ early b late, l = early ++ b :: late → P early b) ∧ P l x := by
  constructor
  · intro h
    refine ⟨fun early b late hl => h early b (late ++ [x]) (by simp [hl]), h l x [] rfl⟩
  · rintro ⟨h, hx⟩ early b late hl
    cases late using List.reverseRecOn with
    | nil =>
      obtain ⟨rfl, hb⟩ := List.append_inj' hl rfl
      obtain rfl := List.singleton_inj.mp hb
      exact hx
    | append_singleton late y =>
      rw [← List.cons_append, ← List.append_assoc] at hl
      exact h early b late (List.append_inj' hl rfl).1

variable {h : List (Access κ ν)} {a : Access κ ν} {k : κ} {e : Entry ν}

theorem not_survives_nil : ¬ Survives ([] : List (Access κ ν)) k e := by
  rintro ⟨before, a, since, heq, -⟩
  simp at heq

theorem survives_concat_of_written {f : Entry ν} (hwritten : a.written? = some (k, f)) :
    Survives (h ++ [a]) k e ↔ f = e := by
  constructor
  · rintro ⟨before, b, since, heq, hb, hsince, -⟩
    cases since using List.reverseRecOn with
    | nil =>
      obtain ⟨-, hab⟩ := List.append_inj' heq rfl
      obtain rfl := List.singleton_inj.mp hab
      exact (Prod.mk.inj (Option.some.inj (hwritten.symm.trans hb))).2
    | append_singleton since c =>
      rw [← List.cons_append, ← List.append_assoc] at heq
      obtain rfl := List.singleton_inj.mp (List.append_inj' heq rfl).2
      exact absurd hwritten (hsince a (by simp) f)
  · rintro rfl
    exact ⟨h, a, [], rfl, hwritten, by simp, by simp⟩

/-- An access that does not write the key ends an entry only by a look that comes too late. -/
theorem survives_concat (hwritten : ∀ f, a.written? ≠ some (k, f)) :
    Survives (h ++ [a]) k e ↔ Survives h k e ∧ (a.call = .get k → InTime h e a.time) := by
  constructor
  · rintro ⟨before, b, since, heq, hb, hsince, hlooks⟩
    cases since using List.reverseRecOn with
    | nil =>
      obtain ⟨-, hab⟩ := List.append_inj' heq rfl
      obtain rfl := List.singleton_inj.mp hab
      exact absurd hb (hwritten e)
    | append_singleton since c =>
      rw [← List.cons_append, ← List.append_assoc] at heq
      obtain ⟨rfl, hac⟩ := List.append_inj' heq rfl
      obtain rfl := List.singleton_inj.mp hac
      obtain ⟨hearly, hlast⟩ := forall_split_concat.mp hlooks
      exact ⟨⟨before, b, since, rfl, hb, fun x hx => hsince x (List.mem_append_left _ hx), hearly⟩,
        hlast⟩
  · rintro ⟨⟨before, b, since, rfl, hb, hsince, hlooks⟩, hlast⟩
    refine ⟨before, b, since ++ [a], by simp, hb, fun x hx => ?_,
      forall_split_concat.mpr ⟨hlooks, hlast⟩⟩
    rcases List.mem_append.mp hx with hx | hx
    · exact hsince x hx
    · obtain rfl := List.mem_singleton.mp hx
      exact hwritten

end

variable [Std.LawfulEqOrd κ]

/-- The cache stores the entries that survive its history. -/
theorem getElem?_after_iff {h : List (Access κ ν)} {k : κ} {e : Entry ν} :
    (after h).entries[k]? = some e ↔ Survives h k e := by
  induction h using List.reverseRecOn with
  | nil => exact ⟨fun he => absurd he (by simp [after, empty]), fun he => absurd he not_survives_nil⟩
  | append_singleton h a ih =>
    rw [after_concat]
    cases left_leave (after h) a with
    | wrote j f hwritten hcall hleave =>
      rw [hleave]
      by_cases hjk : j = k
      · subst hjk
        rw [getElem?_put_self, survives_concat_of_written hwritten, Option.some.injEq]
      · have hother : ∀ f, a.written? ≠ some (k, f) := by
          intro f hf
          exact hjk (Prod.mk.inj (Option.some.inj (hwritten.symm.trans hf))).1
        rw [getElem?_put_of_ne _ hjk, ih, survives_concat hother]
        exact ⟨fun hs => ⟨hs, fun hget => absurd hget (hcall k)⟩, fun hs => hs.1⟩
    | looked j hwritten hcall hleave =>
      rw [hleave, getElem?_touch_iff, survives_concat (by simp [hwritten]), ih]
      refine and_congr_right fun hs => ?_
      have hserved : ((after h).get? a.time k).isSome = true ↔ InTime h e a.time := by
        rw [Option.isSome_iff_exists, InTime, ← deadline_after]
        constructor
        · rintro ⟨v, hv⟩
          obtain ⟨d, g, he, hg, hd, hle⟩ := get?_eq_some_iff.mp hv
          obtain rfl := Option.some.inj ((ih.mpr hs).symm.trans he)
          exact ⟨hd, g, hg, hle⟩
        · rintro ⟨hd, g, hg, hle⟩
          exact ⟨e.value, get?_eq_some_iff.mpr ⟨e.deadline, g, ih.mpr hs, hg, hd, hle⟩⟩
      rw [hserved, hcall, Call.get.injEq]
    | same hwritten hcall hleave =>
      rw [hleave, survives_concat (by simp [hwritten]), ih]
      exact ⟨fun hs => ⟨hs, fun hget => absurd hget (hcall k)⟩, fun hs => hs.1⟩

/-! ### What an access changes -/

/-- A look that finds what it is for, or for which nothing is stored, changes nothing. -/
theorem leave_get_of_not_missed {c : Expiring κ ν} {now : Nat} {k : κ}
    (h : c.get? now k ≠ none ∨ c.entries[k]? = none) : c.leave ⟨now, .get k⟩ = c := by
  change c.touch now k = c
  unfold touch
  split
  · rfl
  · next hmissed =>
    have hnone : c.entries[k]? = none := by
      rcases h with h | h
      · exact absurd (Option.isSome_iff_ne_none.mpr h) hmissed
      · exact h
    have herase : c.entries.erase k = c.entries := by
      refine Std.ExtTreeMap.ext_getElem? fun j => ?_
      rw [Std.ExtTreeMap.getElem?_erase]
      split
      · next hkj => rw [← Std.LawfulEqOrd.eq_of_compare hkj, hnone]
      · rfl
    rw [herase]

/-- A look that misses removes what is stored under its key, and changes nothing else. -/
theorem leave_get_of_missed {c : Expiring κ ν} {now : Nat} {k : κ} (h : c.get? now k = none) :
    (c.leave ⟨now, .get k⟩).deadline = c.deadline ∧
      (c.leave ⟨now, .get k⟩).entries[k]? = none ∧
      ∀ j, j ≠ k → (c.leave ⟨now, .get k⟩).entries[j]? = c.entries[j]? := by
  have hleave : c.leave ⟨now, .get k⟩ = ⟨c.entries.erase k, c.deadline⟩ := by
    change c.touch now k = _
    simp [touch, h]
  rw [hleave]
  refine ⟨rfl, by simp, fun j hj => ?_⟩
  have hne : ¬ compare k j = .eq := fun hkj => hj (Std.LawfulEqOrd.eq_of_compare hkj).symm
  rw [Std.ExtTreeMap.getElem?_erase, if_neg hne]

/-- A write changes its own entry and the deadline of the whole cache. -/
theorem leave_set_of_fits (c : Expiring κ ν) {now ttl : Nat} (k : κ) (v : ν)
    (h : now + ttl < Nanos.horizon) :
    (c.leave ⟨now, .set k v ttl⟩).deadline = some (now + ttl) ∧
      (c.leave ⟨now, .set k v ttl⟩).entries[k]? = some ⟨v, now + ttl⟩ ∧
      ∀ j, j ≠ k → (c.leave ⟨now, .set k v ttl⟩).entries[j]? = c.entries[j]? := by
  have hleave : c.leave ⟨now, .set k v ttl⟩ = c.put k v (now + ttl) := by
    simp [leave, set_eq, h, Except.toOption]
  rw [hleave]
  exact ⟨rfl, getElem?_put_self .., fun j hj => getElem?_put_of_ne c hj.symm v _⟩

omit [Std.LawfulEqOrd κ] in
theorem leave_set_of_overflow (c : Expiring κ ν) {now ttl : Nat} (k : κ) (v : ν)
    (h : Nanos.horizon ≤ now + ttl) : c.leave ⟨now, .set k v ttl⟩ = c := by
  simp [leave, set_eq, Nat.not_lt.mpr h, Except.toOption]

/-! ### What a look finds -/

/-- A look finds what the last write of its key wrote, if no look at the key since then came too
late and this one does not either. A look changes nothing but that a miss removes what is stored
under the key, and a write nothing but its entry and the deadline of the whole cache. -/
theorem get?_after_iff (h : List (Access κ ν)) :
    (∀ now k v, (after h).get? now k = some v ↔
      ∃ e, e.value = v ∧ Survives h k e ∧ InTime h e now) ∧
    ∀ (c : Expiring κ ν) now k,
      (c.get? now k ≠ none ∨ c.entries[k]? = none → c.leave ⟨now, .get k⟩ = c) ∧
      (c.get? now k = none →
        (c.leave ⟨now, .get k⟩).deadline = c.deadline ∧
          (c.leave ⟨now, .get k⟩).entries[k]? = none ∧
          ∀ j, j ≠ k → (c.leave ⟨now, .get k⟩).entries[j]? = c.entries[j]?) ∧
      ∀ v ttl,
        (now + ttl < Nanos.horizon →
          (c.leave ⟨now, .set k v ttl⟩).deadline = some (now + ttl) ∧
            (c.leave ⟨now, .set k v ttl⟩).entries[k]? = some ⟨v, now + ttl⟩ ∧
            ∀ j, j ≠ k → (c.leave ⟨now, .set k v ttl⟩).entries[j]? = c.entries[j]?) ∧
        (Nanos.horizon ≤ now + ttl → c.leave ⟨now, .set k v ttl⟩ = c) := by
  constructor
  · intro now k v
    rw [get?_eq_some_iff]
    constructor
    · rintro ⟨d, g, he, hg, hd, hle⟩
      exact ⟨⟨v, d⟩, rfl, getElem?_after_iff.mp he, hd, g, (deadline_after h) ▸ hg, hle⟩
    · rintro ⟨e, rfl, hsurvives, hd, g, hg, hle⟩
      exact ⟨e.deadline, g, getElem?_after_iff.mpr hsurvives, (deadline_after h).trans hg, hd, hle⟩
  · intro c now k
    exact ⟨leave_get_of_not_missed, leave_get_of_missed, fun v ttl =>
      ⟨leave_set_of_fits c k v, leave_set_of_overflow c k v⟩⟩

/-! ### An entry behind a short-lived one -/

/-- The entry of `a` is hidden by that of `b` from 11 on, until `c` is written at 15. -/
def hiddenThenBack : List (Access String Nat) :=
  [⟨0, .set "a" 1 100⟩, ⟨0, .set "b" 2 10⟩, ⟨15, .set "c" 3 100⟩]

/-- The same with a look at `a` while it is hidden. -/
def lookedWhileHidden : List (Access String Nat) :=
  [⟨0, .set "a" 1 100⟩, ⟨0, .set "b" 2 10⟩, ⟨12, .get "a"⟩, ⟨15, .set "c" 3 100⟩]

theorem survives_hiddenThenBack : Survives hiddenThenBack "a" ⟨1, 100⟩ := by
  have hsince : ∀ b ∈ hiddenThenBack.tail,
      b.written?.map Prod.fst ≠ some "a" ∧ b.call ≠ .get "a" := by
    refine List.forall_mem_cons.mpr ⟨⟨by decide, nofun⟩, ?_⟩
    exact List.forall_mem_singleton.mpr ⟨by decide, nofun⟩
  refine ⟨[], _, hiddenThenBack.tail, rfl, rfl, fun b hb f hf => ?_, fun early b late heq hget => ?_⟩
  · exact (hsince b hb).1 (congrArg (Option.map Prod.fst) hf)
  · have hb : b ∈ hiddenThenBack.tail := heq ▸ List.mem_append_right _ List.mem_cons_self
    exact absurd hget (hsince b hb).2

theorem not_survives_lookedWhileHidden (e : Entry Nat) : ¬ Survives lookedWhileHidden "a" e := by
  intro hsurvives
  have hentry := getElem?_after_iff.mpr hsurvives
  exact absurd (show none = some e from hentry) nofun

/-- The entry is back as long as nobody has looked at it in between. -/
theorem get?_after_iff_hidden :
    (after hiddenThenBack).get? 20 "a" = some 1 ∧
      ∀ v, (after lookedWhileHidden).get? 20 "a" ≠ some v := by
  constructor
  · have hintime : InTime hiddenThenBack (⟨1, 100⟩ : Entry Nat) 20 := ⟨by decide, 115, rfl, by decide⟩
    exact ((get?_after_iff hiddenThenBack).1 20 "a" 1).mpr
      ⟨⟨1, 100⟩, rfl, survives_hiddenThenBack, hintime⟩
  · intro v hv
    obtain ⟨e, -, hsurvives, -⟩ := ((get?_after_iff lookedWhileHidden).1 20 "a" v).mp hv
    exact not_survives_lookedWhileHidden e hsurvives

end PeakUsage.Expiring
