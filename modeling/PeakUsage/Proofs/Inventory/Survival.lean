import PeakUsage.Proofs.Inventory.Refresh
import PeakUsage.Proofs.Inventory.Served
import PeakUsage.Proofs.Sequences

/-! How long the rows of a refresh are listed: each until its own deadline, which may pass before
the next refresh is due. -/
namespace PeakUsage.Inventory
open Program

/-- A session of looks at the resources of a new inventory, split at one of them. -/
structure History (π : Type) where
  filter : Filter
  ttl : Nat
  start : Nat
  before : List (Turn π Unit)
  turn : Turn π Unit
  later : List (Turn π Unit)

namespace History
variable {π : Type} (h : History π) (p : Provider π)

def look (_ : Unit) : Program Inventory (Except Failure (List Resource)) := resources

/-- Where the look the session is split at starts. -/
def opening : Moment π Inventory :=
  let e := ending p look h.start (new h.filter h.ttl) h.before
  ⟨h.turn.memory, ⟨e.1 + h.turn.pause, h.turn.wall⟩, e.2⟩

def outcome : Outcome π Inventory (Except Failure (List Resource)) :=
  resources.runFrom p (h.opening p)

/-- The reading of the clock and the inventory at the end of the session. -/
def closing : Nat × Inventory :=
  ending p look (h.outcome p).clock.now (h.outcome p).state h.later

/-- The session is split at its last refresh, and that went through. -/
structure LastRefresh : Prop where
  stale : (h.opening p).state.needsRefresh (h.opening p).clock.now = true
  through : ∃ rs, (h.outcome p).result = .ok (.ok rs)
  fresh : ∀ l ∈ play p look (h.outcome p).clock.now (h.outcome p).state h.later,
    l.start.state.needsRefresh l.start.clock.now = false

end History

variable {π : Type} {p : Provider π}

/-- Looks that do not refresh leave what is served from then on. -/
theorem ending_of_fresh {now : Nat} {s : Inventory} {turns : List (Turn π Unit)}
    (hfresh : ∀ l ∈ play p History.look now s turns,
      l.start.state.needsRefresh l.start.clock.now = false) :
    let e := ending p History.look now s turns
    now ≤ e.1 ∧ e.2.rows.deadline = s.rows.deadline ∧
      ∀ later key, e.1 ≤ later → e.2.rows.get? later key = s.rows.get? later key := by
  induction turns generalizing now s with
  | nil => exact ⟨Nat.le_refl _, rfl, fun _ _ _ => rfl⟩
  | cons t rest ih =>
    let w : Moment π Inventory := ⟨t.memory, ⟨now + t.pause, t.wall⟩, s⟩
    have hw : w.state.needsRefresh w.clock.now = false := hfresh ⟨t.op, w⟩ List.mem_cons_self
    have ho := runFrom_resources_of_fresh p hw
    have hrest : ∀ l ∈ play p History.look (now + t.pause) (s.swept (now + t.pause)) rest,
        l.start.state.needsRefresh l.start.clock.now = false := by
      intro l hl
      refine hfresh l (List.mem_cons_of_mem _ ?_)
      change l ∈ play p History.look (resources.runFrom p w).clock.now
        (resources.runFrom p w).state rest
      rw [ho]
      exact hl
    obtain ⟨hnow, hdeadline, hget⟩ := ih hrest
    have hending : ending p History.look now s (t :: rest) =
        ending p History.look (now + t.pause) (s.swept (now + t.pause)) rest := by
      change ending p History.look (resources.runFrom p w).clock.now
        (resources.runFrom p w).state rest = _
      rw [ho]
    rw [hending]
    refine ⟨by omega, hdeadline.trans (Expiring.deadline_touchAll ..), fun later key hle => ?_⟩
    exact (hget later key hle).trans (get?_swept (by omega) key)

/-- A refresh that went through leaves its writes in the table, apart from what is not served. -/
theorem runFrom_resources_of_refreshed {w : Moment π Inventory} {rs : List Resource}
    (hstale : w.state.needsRefresh w.clock.now = true)
    (hok : (resources.runFrom p w).result = .ok (.ok rs)) :
    let o := resources.runFrom p w
    let refreshed := { w.state.recordAll (refreshWrites p w) with incomplete := false }
    o.state = refreshed.swept o.clock.now := by
  rw [runFrom_resources_of_stale p hstale] at hok ⊢
  obtain ⟨x, hx, hrs⟩ := Outcome.exists_of_andThen_ok hok
  rw [Outcome.andThen_eq_of_ok hx]
  cases x with
  | error e => exact absurd hrs nofun
  | ok n =>
    have hstate := runFrom_refresh hx
    change swept (refresh.runFrom p w).state _ = _
    rw [hstate]
    rfl

namespace History
variable (h : History π) (v : Moment π Inventory)

theorem ttl_opening (p : Provider π) : (h.opening p).state.ttl = h.ttl :=
  ending_keeps p look (I := (·.ttl = h.ttl))
    (fun _ _ => (resources_keeps (stable_ttl h.ttl)).runFrom p) _ _ _ rfl

theorem keyed_closing (p : Provider π) : (h.closing p).2.Keyed := by
  have hlook : ∀ (b : Unit) (w : Moment π Inventory), w.state.Keyed →
      ((look b).runFrom p w).state.Keyed := fun _ _ => (resources_keeps stable_keyed).runFrom p
  have hopening : (h.opening p).state.Keyed :=
    ending_keeps p look hlook _ _ _ (keyed_new h.filter h.ttl)
  exact ending_keeps p look hlook _ _ _ (hlook () _ hopening)

/-- At the end of the session the table serves what the last refresh left. -/
theorem get?_closing (hlast : h.LastRefresh p) {later : Nat} (hlater : (h.closing p).1 ≤ later)
    (key : String) :
    (h.closing p).2.rows.get? later key =
      ((h.opening p).state.recordAll (refreshWrites p (h.opening p))).rows.get? later key := by
  obtain ⟨rs, hrs⟩ := hlast.through
  obtain ⟨hnow, -, hget⟩ := ending_of_fresh hlast.fresh
  have hstate := runFrom_resources_of_refreshed hlast.stale hrs
  refine (hget later key hlater).trans ?_
  rw [show (h.outcome p).state = _ from hstate]
  exact get?_swept (Nat.le_trans hnow hlater) key

theorem deadline_closing (hlast : h.LastRefresh p) :
    (h.closing p).2.rows.deadline =
      ((h.opening p).state.recordAll (refreshWrites p (h.opening p))).rows.deadline := by
  obtain ⟨rs, hrs⟩ := hlast.through
  obtain ⟨-, hdeadline, -⟩ := ending_of_fresh hlast.fresh
  refine hdeadline.trans ?_
  rw [show (h.outcome p).state = _ from runFrom_resources_of_refreshed hlast.stale hrs]
  exact Expiring.deadline_touchAll ..

/-- While no refresh is due, some row of the last one has not met its deadline. -/
theorem exists_deadline_of_fresh (hlast : h.LastRefresh p) {key : String} {x : Write}
    (hx : lastWrite key (refreshWrites p (h.opening p)) = some x) {now : Nat}
    (hfresh : (h.closing p).2.needsRefresh now = false) :
    ∃ y ∈ refreshWrites p (h.opening p), now ≤ y.time + h.ttl := by
  simp only [needsRefresh, Bool.or_eq_false_iff] at hfresh
  obtain ⟨d, hd, hle⟩ := Expiring.isExpired_eq_false_iff.mp hfresh.1.2
  rw [h.deadline_closing hlast] at hd
  have hne := List.ne_nil_of_mem (mem_of_lastWrite _ hx)
  obtain ⟨init, y, hy⟩ : ∃ init y, refreshWrites p (h.opening p) = init ++ [y] :=
    ⟨_, _, (List.dropLast_concat_getLast hne).symm⟩
  rw [hy, deadline_recordAll_concat, h.ttl_opening] at hd
  obtain rfl := Option.some.inj hd
  exact ⟨y, by simp [hy], hle⟩

/-- The last row a refresh wrote under a key is listed until its own deadline. A refresh is due
again after the deadline of the last row of all, so rows written earlier may go before that. -/
theorem mem_snapshot_iff (hlast : h.LastRefresh p) (hstate : v.state = (h.closing p).2)
    (hnow : (h.closing p).1 ≤ v.clock.now) :
    ∃ rs, (snapshot.runFrom p v).result = .ok rs ∧
      ∀ key x, lastWrite key (refreshWrites p (h.opening p)) = some x →
        (x.resource ∈ rs ↔ v.clock.now ≤ x.time + h.ttl) ∧
        (v.state.needsRefresh v.clock.now = false →
          (∀ y ∈ refreshWrites p (h.opening p), y.time ≤ x.time) → x.resource ∈ rs) := by
  have hkeyed : v.state.Keyed := by
    rw [hstate]
    exact h.keyed_closing p
  have hws : (refreshWrites p (h.opening p)).Pairwise fun x y => x.time ≤ y.time :=
    writes_pairwise_time ..
  refine ⟨v.state.served v.clock.now, by rw [runFrom_snapshot], fun key x hx => ?_⟩
  have hlisted : x.resource ∈ v.state.served v.clock.now ↔ v.clock.now ≤ x.time + h.ttl := by
    rw [mem_served hkeyed, usageKey_of_lastWrite _ hx, hstate, h.get?_closing hlast hnow,
      get?_recordAll_iff hws hx, h.ttl_opening]
  refine ⟨hlisted, fun hfresh hlatest => hlisted.mpr ?_⟩
  obtain ⟨y, hy, hdue⟩ := h.exists_deadline_of_fresh hlast hx (hstate ▸ hfresh)
  exact Nat.le_trans hdue (Nat.add_le_add_right (hlatest y hy) _)

end History

/-! ### A refresh that takes longer than its first rows last -/

/-- Takes five seconds over each family, and lists one database and one cache. -/
def slowProvider : Provider Unit := .steady (Nanos.ofSeconds 5) fun
  | .list .documentInstance => .ok [⟨"dev-orders", "db.r6g.large", "docdb", ∅⟩]
  | .list .keyValueCache => .ok [⟨"dev-sessions", "cache.t4g.small", "redis"⟩]
  | .list _ => .ok []
  | .statistics _ => .ok []

def oneLook : History Unit where
  filter := ⟨∅, "dev"⟩
  ttl := Nanos.ofSeconds 20
  start := 0
  before := []
  turn := ⟨(), 0, ⟨0, 0⟩, ()⟩
  later := []

def tenSecondsLater : Moment Unit Inventory where
  memory := ()
  clock := ⟨Nanos.ofSeconds 40, ⟨40, 0⟩⟩
  state := (oneLook.closing slowProvider).2

def databaseWrite : Write where
  time := Nanos.ofSeconds 15
  resource :=
    { identifier := "dev-orders", instanceClass := "db.r6g.large", engine := .docdb, level := .node,
      dimension := "DBInstanceIdentifier", brokerId := none, brokerCount := 0,
      collectedAt := ⟨15, 0⟩ }

def cacheWrite : Write where
  time := Nanos.ofSeconds 25
  resource :=
    { identifier := "dev-sessions", instanceClass := "cache.t4g.small", engine := .redis,
      level := .cluster, dimension := "CacheClusterId", brokerId := none, brokerCount := 0,
      collectedAt := ⟨25, 0⟩ }

theorem lastRefresh_oneLook : oneLook.LastRefresh slowProvider where
  stale := rfl
  through := ⟨[databaseWrite.resource, cacheWrite.resource], rfl⟩
  fresh := fun _ hl => absurd hl List.not_mem_nil

theorem state_tenSecondsLater : tenSecondsLater.state = (oneLook.closing slowProvider).2 := by
  dsimp only [tenSecondsLater]

theorem closing_le_tenSecondsLater :
    (oneLook.closing slowProvider).1 ≤ tenSecondsLater.clock.now := by decide

theorem fresh_tenSecondsLater :
    tenSecondsLater.state.needsRefresh tenSecondsLater.clock.now = false := rfl

theorem lastWrite_database :
    lastWrite "dev-orders" (refreshWrites slowProvider (oneLook.opening slowProvider)) =
      some databaseWrite := rfl

theorem lastWrite_cache :
    lastWrite "dev-sessions" (refreshWrites slowProvider (oneLook.opening slowProvider)) =
      some cacheWrite := rfl

theorem snapshot_tenSecondsLater :
    (snapshot.runFrom slowProvider tenSecondsLater).result = .ok [cacheWrite.resource] := rfl

/-- The cache is still listed while the database is not. -/
theorem mem_snapshot_slow :
    oneLook.LastRefresh slowProvider ∧
      tenSecondsLater.state = (oneLook.closing slowProvider).2 ∧
      (oneLook.closing slowProvider).1 ≤ tenSecondsLater.clock.now ∧
      ∃ rs, (snapshot.runFrom slowProvider tenSecondsLater).result = .ok rs ∧
        databaseWrite.resource ∉ rs ∧ cacheWrite.resource ∈ rs := by
  obtain ⟨rs, hrs, hlisted⟩ := oneLook.mem_snapshot_iff tenSecondsLater lastRefresh_oneLook
    state_tenSecondsLater closing_le_tenSecondsLater
  refine ⟨lastRefresh_oneLook, state_tenSecondsLater, closing_le_tenSecondsLater, rs, hrs, ?_, ?_⟩
  · rw [(hlisted _ _ lastWrite_database).1]
    decide
  · rw [(hlisted _ _ lastWrite_cache).1]
    decide

/-- Not every row of the last refresh is listed until the next is due. -/
theorem exists_dropped_before_refresh :
    ¬ ∀ (h : History Unit) (p : Provider Unit) (v : Moment Unit Inventory), h.LastRefresh p →
      v.state = (h.closing p).2 → (h.closing p).1 ≤ v.clock.now →
      v.state.needsRefresh v.clock.now = false →
      ∀ key x, lastWrite key (refreshWrites p (h.opening p)) = some x →
        ∃ rs, (snapshot.runFrom p v).result = .ok rs ∧ x.resource ∈ rs := by
  intro hall
  obtain ⟨rs, hrs, hmem⟩ := hall oneLook slowProvider tenSecondsLater lastRefresh_oneLook
    state_tenSecondsLater closing_le_tenSecondsLater fresh_tenSecondsLater _ _ lastWrite_database
  obtain rfl := Except.ok.inj (snapshot_tenSecondsLater.symm.trans hrs)
  exact absurd hmem (by decide)

end PeakUsage.Inventory
