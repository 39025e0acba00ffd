import PeakUsage.Proofs.Expiring
import PeakUsage.Proofs.Inventory.Placements
import PeakUsage.Proofs.Runs

/-! The resources an inventory serves, and the key each of them is kept under. -/
namespace PeakUsage.Inventory
open Program

/-- The resources still served, in the order of their keys. -/
def served (s : Inventory) (now : Nat) : List Resource :=
  s.rows.keys.filterMap (s.rows.get? now)

/-- The inventory once the rows not served any more are removed. -/
def swept (s : Inventory) (now : Nat) : Inventory :=
  { s with rows := s.rows.touchAll now s.rows.keys }

/-- Every row is kept under the usage key of its resource. -/
def Keyed (s : Inventory) : Prop :=
  ∀ key (e : Expiring.Entry Resource), s.rows.entries[key]? = some e → e.value.usageKey = key

variable {s : Inventory} {now : Nat}

theorem get?_swept {later : Nat} (hle : now ≤ later) (key : String) :
    (s.swept now).rows.get? later key = s.rows.get? later key :=
  s.rows.get?_touchAll hle _ key

theorem keyed_new (filter : Filter) (ttl : Nat) : (new filter ttl).Keyed := by
  intro key e he
  exact absurd he (by simp [new, Expiring.empty])

theorem Keyed.swept (hs : s.Keyed) (now : Nat) : (s.swept now).Keyed :=
  fun key e he => hs key e (Expiring.getElem?_touchAll_of_some he)

theorem Keyed.put (hs : s.Keyed) {x : Placement} (hx : FromRow x) (d : Nat) :
    Keyed { s with rows := s.rows.put x.key x.resource d } := by
  intro key e he
  change (s.rows.put x.key x.resource d).entries[key]? = some e at he
  rw [Expiring.getElem?_put] at he
  split at he
  · next hkey =>
    obtain rfl := Option.some.inj he
    exact hx.usageKey_eq.trans (Std.LawfulEqOrd.eq_of_compare hkey)
  · exact hs key e he

theorem mem_served (hs : s.Keyed) {r : Resource} :
    r ∈ s.served now ↔ s.rows.get? now r.usageKey = some r := by
  rw [served, List.mem_filterMap]
  constructor
  · rintro ⟨key, -, hr⟩
    obtain ⟨d, g, he, -⟩ := Expiring.get?_eq_some_iff.mp hr
    rwa [show r.usageKey = key from hs key _ he]
  · intro hr
    obtain ⟨d, g, he, -⟩ := Expiring.get?_eq_some_iff.mp hr
    exact ⟨r.usageKey, Expiring.mem_keys_of_some he, hr⟩

theorem served_pairwise_lt (hs : s.Keyed) (now : Nat) :
    (s.served now).Pairwise fun a b => a.usageKey < b.usageKey := by
  rw [served, List.pairwise_filterMap]
  refine (Std.ExtTreeMap.ordered_keys (t := s.rows.entries)).imp ?_
  intro j k hjk a ha b hb
  obtain ⟨d, g, hea, -⟩ := Expiring.get?_eq_some_iff.mp ha
  obtain ⟨d', g', heb, -⟩ := Expiring.get?_eq_some_iff.mp hb
  rw [hs j _ hea, hs k _ heb]
  exact compareOfLessAndEq_eq_lt.mp hjk

variable {π : Type} (p : Provider π) {w : Moment π Inventory}

theorem runFrom_snapshot (w : Moment π Inventory) :
    snapshot.runFrom p w =
      ⟨.ok (w.state.served w.clock.now), w.state.swept w.clock.now, w.clock, w.memory, []⟩ := by
  rw [served, ← Expiring.collect_eq]
  rfl

/-- Without a refresh nothing is asked, and what is not served any more is removed. -/
theorem runFrom_resources_of_fresh (h : w.state.needsRefresh w.clock.now = false) :
    resources.runFrom p w =
      ⟨.ok (.ok (w.state.served w.clock.now)), w.state.swept w.clock.now, w.clock, w.memory,
        []⟩ := by
  rw [resources, runFrom_clock_bind, runFrom_state_bind, h]
  simp only [Bool.false_eq_true, if_false, runFrom_bind, runFrom_snapshot]
  rfl

/-- A refresh that goes through is followed by a look at what is served. -/
theorem runFrom_resources_of_stale (h : w.state.needsRefresh w.clock.now = true) :
    resources.runFrom p w = (refresh.runFrom p w).andThen fun x v =>
      match x with
      | .error e => ⟨.ok (.error e), v.state, v.clock, v.memory, []⟩
      | .ok _ =>
        ⟨.ok (.ok (v.state.served v.clock.now)), v.state.swept v.clock.now, v.clock, v.memory,
          []⟩ := by
  rw [resources, runFrom_clock_bind, runFrom_state_bind, h]
  simp only [if_true, runFrom_bind]
  congr 1
  funext x v
  cases x with
  | error e => rfl
  | ok n =>
    simp only [runFrom_bind, runFrom_snapshot]
    rfl

theorem runFrom_resources_of_refresh {n : Nat} (hstale : w.state.needsRefresh w.clock.now = true)
    (hok : (refresh.runFrom p w).result = .ok (.ok n)) :
    let v := (refresh.runFrom p w).moment
    resources.runFrom p w = Outcome.after
      ⟨.ok (.ok (v.state.served v.clock.now)), v.state.swept v.clock.now, v.clock, v.memory, []⟩
      (refresh.runFrom p w).trace := by
  rw [runFrom_resources_of_stale p hstale, Outcome.andThen_eq_of_ok hok]

/-! ### What becomes of an inventory -/

/-- The changes of an inventory: a resource of some row is written, what is not served is removed,
or the end of a refresh is noted. -/
inductive Step (now : Nat) : Inventory → Inventory → Prop
  | put (s : Inventory) (x : Placement) (hx : FromRow x) :
    Step now s { s with rows := s.rows.put x.key x.resource (now + s.ttl) }
  | sweep (s : Inventory) : Step now s (s.swept now)
  | flag (s : Inventory) (b : Bool) : Step now s { s with incomplete := b }

section
variable {R : Nat → Inventory → Inventory → Prop}
  (hput : ∀ now s (x : Placement), FromRow x →
    R now s { s with rows := s.rows.put x.key x.resource (now + s.ttl) })
include hput

theorem insert_steps {x : Placement} (hx : FromRow x) (now : Nat) (s : Inventory) :
    (insert x.key x.resource).Steps R now s := by
  intro c s
  simp only [Expiring.set_eq]
  by_cases h : c.now + s.ttl < Nanos.horizon
  · simp only [h, if_true]
    exact ⟨hput c.now s x hx, trivial⟩
  · simp only [h, if_false]
    exact trivial

theorem insertAll_steps {xs : List Placement} (hxs : ∀ x ∈ xs, FromRow x) (now : Nat)
    (s : Inventory) : (insertAll xs).Steps R now s := by
  induction xs generalizing now s with
  | nil => exact trivial
  | cons x rest ih =>
    obtain ⟨hx, hrest⟩ := List.forall_mem_cons.mp hxs
    exact (insert_steps hput hx now s).bind fun _ => ih hrest

/-- A listing does nothing but write resources of rows. -/
theorem listFrom_steps (time : Timestamp) (families : List Family) (now : Nat) (s : Inventory) :
    (listFrom time families).Steps R now s := by
  induction families generalizing time now s with
  | nil => exact trivial
  | cons family rest ih =>
    intro reply _ _ c _
    cases reply with
    | error e => exact trivial
    | ok rows =>
      intro _ s
      refine (insertAll_steps hput (fun _ => fromRow_of_mem_included) _ _).bind fun _ now s => ?_
      exact (ih _ now s).bind fun _ _ _ => trivial

end

theorem refresh_steps (now : Nat) (s : Inventory) : refresh.Steps Step now s := by
  intro c s
  refine (listFrom_steps (fun _ s x hx => .put s x hx) c.wall Family.all c.now s).bind
    fun written _ _ _ s => ?_
  exact ⟨.flag s (!written.isOk), trivial⟩

theorem snapshot_steps (now : Nat) (s : Inventory) : snapshot.Steps Step now s :=
  fun _ s => ⟨.sweep s, trivial⟩

theorem resources_steps (now : Nat) (s : Inventory) : resources.Steps Step now s := by
  intro c _ _ s
  change (if s.needsRefresh c.now then _ else _ : Program Inventory _).Steps Step _ s
  split
  · refine (refresh_steps _ s).bind fun x now s => ?_
    cases x with
    | error e => exact trivial
    | ok n => exact (snapshot_steps now s).bind fun _ _ _ => trivial
  · exact (snapshot_steps _ s).bind fun _ _ _ => trivial

/-- A property that every change of an inventory keeps. -/
structure Stable (I : Inventory → Prop) : Prop where
  put : ∀ s (x : Placement) d, FromRow x → I s → I { s with rows := s.rows.put x.key x.resource d }
  swept : ∀ s now, I s → I (s.swept now)
  flag : ∀ s b, I s → I { s with incomplete := b }

theorem stable_keyed : Stable Keyed where
  put := fun _ _ d hx hs => hs.put hx d
  swept := fun _ now hs => hs.swept now
  flag := fun _ _ hs => hs

theorem stable_ttl (ttl : Nat) : Stable (·.ttl = ttl) where
  put := fun _ _ _ _ hs => hs
  swept := fun _ _ hs => hs
  flag := fun _ _ hs => hs

section
variable {I : Inventory → Prop} (hI : Stable I)
include hI

theorem Stable.step {now : Nat} {s t : Inventory} (h : Step now s t) (hs : I s) : I t := by
  cases h with
  | put x hx => exact hI.put s x _ hx hs
  | sweep => exact hI.swept s now hs
  | flag b => exact hI.flag s b hs

theorem refresh_keeps : refresh.Keeps I :=
  fun c s hs => Steps.keeps (refresh_steps 0 s c s) (fun _ _ _ => hI.step) hs

theorem resources_keeps : resources.Keeps I :=
  fun c s hs => Steps.keeps (resources_steps 0 s c s) (fun _ _ _ => hI.step) hs

end

/-- What a look at the resources lists is served by an inventory that has what a refresh keeps. -/
theorem exists_served_of_resources {I : Inventory → Prop} {p : Provider π} {w : Moment π Inventory}
    (hrefresh : I (refresh.runFrom p w).state) (hw : I w.state) {rs : List Resource}
    (h : (resources.runFrom p w).result = .ok (.ok rs)) :
    ∃ (s : Inventory) (now : Nat), I s ∧ s.served now = rs := by
  cases hstale : w.state.needsRefresh w.clock.now with
  | false =>
    rw [runFrom_resources_of_fresh p hstale] at h
    exact ⟨_, _, hw, Except.ok.inj (Except.ok.inj h)⟩
  | true =>
    rw [runFrom_resources_of_stale p hstale] at h
    obtain ⟨x, -, hx⟩ := Outcome.exists_of_andThen_ok h
    cases x with
    | error e => exact absurd (Except.ok.inj hx) nofun
    | ok n => exact ⟨_, _, hrefresh, Except.ok.inj (Except.ok.inj hx)⟩

/-- Resources are listed in the order of their keys, each key once. -/
theorem pairwise_of_runFrom_resources {p : Provider π} {w : Moment π Inventory}
    {rs : List Resource} (hw : w.state.Keyed)
    (h : (resources.runFrom p w).result = .ok (.ok rs)) :
    rs.Pairwise fun a b => a.usageKey < b.usageKey := by
  obtain ⟨s, now, hs, rfl⟩ :=
    exists_served_of_resources ((refresh_keeps stable_keyed).runFrom p hw) hw h
  exact served_pairwise_lt hs now

end PeakUsage.Inventory
