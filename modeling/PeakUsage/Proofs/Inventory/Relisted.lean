import Mathlib.Data.List.Sort
import PeakUsage.Proofs.Inventory.Listing

/-! What was listed is listed again by later looks, without a call and without a change, as long as
every listed row is still served. -/
namespace PeakUsage.Inventory
open Program

variable {π : Type} {p : Provider π} {now : Nat} {s : Inventory} {rs : List Resource}

/-- A look does not change what it lists. -/
theorem served_swept (hs : s.Keyed) (now : Nat) : (s.swept now).served now = s.served now := by
  refine List.Pairwise.eq_of_mem_iff (served_pairwise_lt (hs.swept now) now)
    (served_pairwise_lt hs now) fun r => ?_
  rw [mem_served (hs.swept now), mem_served hs, get?_swept (Nat.le_refl now)]

/-- An inventory whose last refresh is complete, as a look leaves it that listed some resources. -/
structure Listed (rs : List Resource) (now : Nat) (s : Inventory) : Prop where
  dated : Dated now s
  complete : s.incomplete = false
  served_eq : s.served now = rs

theorem listed_swept (hdated : Dated now s) (hkeyed : s.Keyed) (hcomplete : s.incomplete = false) :
    Listed (s.served now) now (s.swept now) :=
  ⟨hdated.step (.sweep s), hcomplete, served_swept hkeyed now⟩

theorem listed_resources {w : Moment π Inventory} (hdated : Dated w.clock.now w.state)
    (hkeyed : w.state.Keyed) (h : (resources.runFrom p w).result = .ok (.ok rs)) :
    Listed rs (resources.runFrom p w).clock.now (resources.runFrom p w).state := by
  cases hstale : w.state.needsRefresh w.clock.now with
  | false =>
    have hcomplete : w.state.incomplete = false := by
      simp only [needsRefresh, Bool.or_eq_false_iff] at hstale
      exact hstale.2
    rw [runFrom_resources_of_fresh p hstale] at h ⊢
    obtain rfl := Except.ok.inj (Except.ok.inj h)
    exact listed_swept hdated hkeyed hcomplete
  | true =>
    rw [runFrom_resources_of_stale p hstale] at h ⊢
    obtain ⟨x, hx, hrs⟩ := Outcome.exists_of_andThen_ok h
    rw [Outcome.andThen_eq_of_ok hx]
    cases x with
    | error e => exact absurd (Except.ok.inj hrs) nofun
    | ok n =>
      obtain rfl := Except.ok.inj (Except.ok.inj hrs)
      have hcomplete : (refresh.runFrom p w).state.incomplete = false := by
        rw [runFrom_refresh hx]
        rfl
      exact listed_swept (Steps.runFrom lasting_dated (fun _ _ _ => Dated.step) p
        (refresh_steps _ _) hdated) ((refresh_keeps stable_keyed).runFrom p hkeyed) hcomplete

namespace Listed

/-- Until the deadline of any row every row is served. -/
theorem get?_eq (h : Listed rs now s) {key : String} {e : Expiring.Entry Resource}
    (he : s.rows.entries[key]? = some e) {later : Nat} (hle : later ≤ e.deadline) :
    s.rows.get? later key = some e.value :=
  h.dated.get?_eq_some_iff.mpr ⟨e.deadline, he, hle⟩

theorem exists_entry (h : Listed rs now s) (hne : rs ≠ []) :
    ∃ (key : String) (e : Expiring.Entry Resource), s.rows.entries[key]? = some e := by
  obtain ⟨r, rest, hrs⟩ := List.exists_cons_of_ne_nil hne
  have hr : r ∈ s.served now := by
    rw [h.served_eq, hrs]
    exact List.mem_cons_self
  obtain ⟨key, -, hget⟩ := List.mem_filterMap.mp hr
  obtain ⟨d, g, hd, -⟩ := Expiring.get?_eq_some_iff.mp hget
  exact ⟨key, _, hd⟩

section
variable (h : Listed rs now s) {later : Nat} (hnow : now ≤ later)
  (hdue : ∀ (key : String) (e : Expiring.Entry Resource),
    s.rows.entries[key]? = some e → later ≤ e.deadline)
include h hdue

theorem needsRefresh_eq_false (hne : rs ≠ []) : s.needsRefresh later = false := by
  obtain ⟨key, e, he⟩ := h.exists_entry hne
  have hempty : s.rows.isEmpty = false := Expiring.isEmpty_eq_false he
  have hexpired : s.rows.isExpired later = false := by
    rw [← Bool.not_eq_true]
    intro hexpired
    have hpast := h.dated.deadline_lt_of_isExpired hexpired he
    have hle := hdue key e he
    omega
  simp [needsRefresh, hempty, hexpired, h.complete]

theorem exists_get?_of_mem_keys {key : String} (hkey : key ∈ s.rows.keys) :
    ∃ e : Expiring.Entry Resource,
      s.rows.entries[key]? = some e ∧ s.rows.get? later key = some e.value := by
  rw [Expiring.keys, Std.ExtTreeMap.mem_keys, Std.ExtTreeMap.mem_iff_isSome_getElem?] at hkey
  obtain ⟨e, he⟩ := Option.isSome_iff_exists.mp hkey
  exact ⟨e, he, h.get?_eq he (hdue key e he)⟩

theorem swept_eq : s.swept later = s := by
  have hrows : s.rows.touchAll later s.rows.keys = s.rows := by
    refine Expiring.touchAll_of_served fun key hkey => ?_
    obtain ⟨e, -, hget⟩ := h.exists_get?_of_mem_keys hdue hkey
    rw [hget]
    rfl
  rw [swept, hrows]

include hnow in
theorem served_later : s.served later = rs := by
  rw [← h.served_eq]
  refine List.filterMap_congr fun key hkey => ?_
  obtain ⟨e, he, hget⟩ := h.exists_get?_of_mem_keys hdue hkey
  exact hget.trans (h.get?_eq he (Nat.le_trans hnow (hdue key e he))).symm

end

/-- Then a look lists the same resources, asks for nothing and changes nothing. -/
theorem runFrom_resources {w : Moment π Inventory} (h : Listed rs now w.state)
    (hne : rs ≠ []) (hnow : now ≤ w.clock.now)
    (hdue : ∀ (key : String) (e : Expiring.Entry Resource),
      w.state.rows.entries[key]? = some e → w.clock.now ≤ e.deadline) :
    w.state.needsRefresh w.clock.now = false ∧ resources.runFrom p w = stay w (.ok rs) := by
  have hfresh := h.needsRefresh_eq_false hdue hne
  refine ⟨hfresh, ?_⟩
  rw [runFrom_resources_of_fresh p hfresh, h.served_later hnow hdue, h.swept_eq hdue]
  rfl

end Listed

end PeakUsage.Inventory
