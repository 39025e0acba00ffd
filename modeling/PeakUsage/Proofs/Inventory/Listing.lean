import PeakUsage.Proofs.Chains
import PeakUsage.Proofs.Inventory.Refresh
import PeakUsage.Proofs.Inventory.Served

/-! What a look at the resources lists once it has refreshed the table: the rows that were there
before and those just written, each until its own deadline. -/
namespace PeakUsage.Inventory
open Program

/-! ### What operations lead to -/

inductive Operation where
  | resources
  | refresh
  | snapshot

def Operation.program : Operation → Program Inventory Unit
  | .resources => do
    let _ ← Inventory.resources
    pure ()
  | .refresh => do
    let _ ← Inventory.refresh
    pure ()
  | .snapshot => do
    let _ ← Inventory.snapshot
    pure ()

theorem operation_steps (op : Operation) (now : Nat) (s : Inventory) :
    op.program.Steps Step now s := by
  cases op with
  | resources => exact (resources_steps now s).bind fun _ _ _ => trivial
  | refresh => exact (refresh_steps now s).bind fun _ _ _ => trivial
  | snapshot => exact (snapshot_steps now s).bind fun _ _ _ => trivial

theorem operation_keeps {I : Inventory → Prop} (hI : Stable I) (op : Operation) {s : Inventory}
    (hs : I s) : op.program.Keeps I :=
  (operation_steps op 0 s).keeps (fun _ _ _ => hI.step) hs

variable {π : Type}

/-- Operations on a new inventory led to this one, by that time. -/
def Reachable (p : Provider π) (now : Nat) (s : Inventory) : Prop :=
  ∃ filter ttl start turns,
    let e := ending p Operation.program start (new filter ttl) turns
    e.1 ≤ now ∧ e.2 = s

/-- What a new inventory has and no change ends is there after any operations. -/
theorem Reachable.invariant {p : Provider π} {now : Nat} {s : Inventory} (h : Reachable p now s)
    {I : Nat → Inventory → Prop} (hlasting : Lasting I)
    (hstep : ∀ now s t, Step now s t → I now s → I now t)
    (hnew : ∀ filter ttl now, I now (new filter ttl)) : I now s := by
  obtain ⟨filter, ttl, start, turns, hnow, rfl⟩ := h
  have hchain := chain_play p Operation.program start (new filter ttl) turns
  have hend := hchain.keeps hlasting
    (fun l _ => Steps.runFrom hlasting hstep p (operation_steps l.item _ _)) (hnew filter ttl start)
  exact hlasting _ _ _ hnow hend

/-- No row outlives the table, and none was written after now. -/
def Dated (now : Nat) (s : Inventory) : Prop := s.rows.Bounded (now + s.ttl)

theorem lasting_dated : Lasting Dated :=
  fun _ _ _ hle hs => hs.mono (Nat.add_le_add_right hle _)

theorem Dated.step {now : Nat} {s t : Inventory} (h : Step now s t) (hs : Dated now s) :
    Dated now t := by
  cases h with
  | put x => exact hs.put x.key x.resource
  | sweep => exact hs.touchAll now s.rows.keys
  | flag b => exact hs

section
variable {p : Provider π} {now : Nat} {s : Inventory}

theorem Reachable.dated (h : Reachable p now s) : Dated now s :=
  h.invariant lasting_dated (fun _ _ _ => Dated.step) fun _ _ _ => Expiring.bounded_empty _

/-- What no change ends whenever it is made. -/
theorem Reachable.stable {I : Inventory → Prop} (h : Reachable p now s) (hI : Stable I)
    (hnew : ∀ filter ttl, I (new filter ttl)) : I s :=
  h.invariant (I := fun _ => I) (fun _ _ _ _ hs => hs) (fun _ _ _ => hI.step)
    fun filter ttl _ => hnew filter ttl

theorem Reachable.keyed (h : Reachable p now s) : s.Keyed := h.stable stable_keyed keyed_new

end

/-- A row is listed under its key as long as its own deadline has not passed. -/
theorem mem_served_iff {s : Inventory} {written now : Nat} (hdated : Dated written s)
    (hkeyed : s.Keyed) {key : String} {r : Resource} :
    r ∈ s.served now ∧ r.usageKey = key ↔
      ∃ d, s.rows.entries[key]? = some ⟨r, d⟩ ∧ now ≤ d := by
  rw [mem_served hkeyed, hdated.get?_eq_some_iff]
  constructor
  · rintro ⟨hr, rfl⟩
    exact hr
  · rintro ⟨d, he, hnow⟩
    have hkey : r.usageKey = key := hkeyed key _ he
    rw [hkey]
    exact ⟨⟨d, he, hnow⟩, rfl⟩

/-! ### The table after a refresh -/

theorem entries_runFrom_refresh {p : Provider π} {w : Moment π Inventory} {x : Except Failure Nat}
    (h : (refresh.runFrom p w).result = .ok x) (key : String) :
    (refresh.runFrom p w).state.rows.entries[key]? =
      w.state.overwritten (refreshWrites p w) key := by
  rw [runFrom_refresh h]
  exact getElem?_recordAll_eq w.state (refreshWrites p w) key

/-- From a table that is empty or has expired nothing is left to serve. -/
theorem mem_writes_of_overwritten {s : Inventory} {now later : Nat} (hdated : Dated now s)
    (hgone : s.rows.isEmpty = true ∨ s.rows.isExpired now = true) {ws : List Write} {key : String}
    {e : Expiring.Entry Resource} (he : s.overwritten ws key = some e) (hnow : now ≤ later)
    (hlive : later ≤ e.deadline) : ∃ x ∈ ws, x.resource = e.value := by
  unfold overwritten at he
  split at he
  · next x hx =>
    obtain rfl := Option.some.inj he
    exact ⟨x, mem_of_lastWrite ws hx, rfl⟩
  · exfalso
    rcases hgone with hempty | hexpired
    · exact Bool.eq_false_iff.mp (Expiring.isEmpty_eq_false he) hempty
    · have hpast := hdated.deadline_lt_of_isExpired hexpired he
      omega

/-- A look that refreshes lists the rows written before or just now whose own deadline has not
passed, in the order of their keys, and removes all others. When no row could be served before,
it lists rows of this refresh only. -/
theorem resources_eq_live {p : Provider π} {w : Moment π Inventory}
    (hreach : Reachable p w.clock.now w.state)
    (hstale : w.state.needsRefresh w.clock.now = true) {n : Nat}
    (hok : (refresh.runFrom p w).result = .ok (.ok n)) :
    let ws := refreshWrites p w
    let o := resources.runFrom p w
    ∃ rs, o.result = .ok (.ok rs) ∧
      rs.Pairwise (fun a b => a.usageKey < b.usageKey) ∧
      (∀ key r, r ∈ rs ∧ r.usageKey = key ↔
        ∃ d, w.state.overwritten ws key = some ⟨r, d⟩ ∧ o.clock.now ≤ d) ∧
      (∀ key (e : Expiring.Entry Resource), o.state.rows.entries[key]? = some e ↔
        w.state.overwritten ws key = some e ∧ o.clock.now ≤ e.deadline) ∧
      (w.state.rows.isEmpty = true ∨ w.state.rows.isExpired w.clock.now = true →
        ∀ r ∈ rs, ∃ x ∈ ws, x.resource = r) := by
  intro ws o
  let v := (refresh.runFrom p w).moment
  have hdated : Dated v.clock.now v.state :=
    Steps.runFrom lasting_dated (fun _ _ _ => Dated.step) p (refresh_steps _ _) hreach.dated
  have hkeyed : v.state.Keyed := (refresh_keeps stable_keyed).runFrom p hreach.keyed
  have hentries : ∀ key, v.state.rows.entries[key]? = w.state.overwritten ws key :=
    entries_runFrom_refresh hok
  have ho : o = Outcome.after
      ⟨.ok (.ok (v.state.served v.clock.now)), v.state.swept v.clock.now, v.clock, v.memory, []⟩
      (refresh.runFrom p w).trace := runFrom_resources_of_refresh p hstale hok
  have hlisted : ∀ key r, r ∈ v.state.served v.clock.now ∧ r.usageKey = key ↔
      ∃ d, w.state.overwritten ws key = some ⟨r, d⟩ ∧ v.clock.now ≤ d := by
    intro key r
    rw [mem_served_iff hdated hkeyed, hentries]
  rw [ho]
  refine ⟨_, rfl, served_pairwise_lt hkeyed _, hlisted, fun key e => ?_, fun hgone r hr => ?_⟩
  · rw [← hentries]
    exact hdated.getElem?_touchAll_keys_iff
  · obtain ⟨d, hd, hnow⟩ := (hlisted r.usageKey r).mp ⟨hr, rfl⟩
    exact mem_writes_of_overwritten hreach.dated hgone hd (now_le_runFrom p w refresh) hnow

/-! ### A database that is gone after a refresh that failed -/

/-- Lists a cache. At first it lists a database, too, and fails at the clusters of databases; its
memory says whether the database is gone. -/
def changingProvider : Provider Bool where
  latency := fun _ _ _ => Nanos.ofSeconds 1
  answer := fun gone _ r =>
    let reply : Reply r := match r with
      | .list .documentInstance =>
        .ok (if gone then [] else [⟨"dev-orders", "db.r6g.large", "docdb", ∅⟩])
      | .list .documentCluster => if gone then .ok [] else .error ⟨some 503, "busy"⟩
      | .list .keyValueCache => .ok [⟨"dev-sessions", "cache.t4g.small", "redis"⟩]
      | .list _ => .ok []
      | .statistics _ => .ok []
    (reply, gone)

def failedLook : Turn Bool Operation := ⟨.resources, 0, ⟨0, 0⟩, false⟩

def afterFailedLook : Nat × Inventory :=
  ending changingProvider Operation.program 0 (new ⟨∅, "dev"⟩ (Nanos.ofSeconds 20)) [failedLook]

def sixSecondsLater : Moment Bool Inventory :=
  ⟨true, ⟨Nanos.ofSeconds 10, ⟨10, 0⟩⟩, afterFailedLook.2⟩

def goneDatabase : Resource where
  identifier := "dev-orders"
  instanceClass := "db.r6g.large"
  engine := .docdb
  level := .node
  dimension := "DBInstanceIdentifier"
  brokerId := none
  brokerCount := 0
  collectedAt := ⟨3, 0⟩

theorem afterFailedLook_le_sixSecondsLater : afterFailedLook.1 ≤ sixSecondsLater.clock.now := by
  decide

theorem reachable_sixSecondsLater :
    Reachable changingProvider sixSecondsLater.clock.now sixSecondsLater.state := by
  refine ⟨⟨∅, "dev"⟩, Nanos.ofSeconds 20, 0, [failedLook], ?_, ?_⟩
  · exact afterFailedLook_le_sixSecondsLater
  · dsimp only [sixSecondsLater, afterFailedLook]

theorem stale_sixSecondsLater :
    sixSecondsLater.state.needsRefresh sixSecondsLater.clock.now = true := rfl

theorem refresh_sixSecondsLater :
    (refresh.runFrom changingProvider sixSecondsLater).result = .ok (.ok 1) := rfl

/-- The database is listed until its own deadline although the refresh did not find it. -/
theorem resources_eq_live_gone :
    Reachable changingProvider sixSecondsLater.clock.now sixSecondsLater.state ∧
      sixSecondsLater.state.needsRefresh sixSecondsLater.clock.now = true ∧
      (refresh.runFrom changingProvider sixSecondsLater).result = .ok (.ok 1) ∧
      ∃ rs, (resources.runFrom changingProvider sixSecondsLater).result = .ok (.ok rs) ∧
        goneDatabase ∈ rs := by
  obtain ⟨rs, hrs, -, hlisted, -⟩ := resources_eq_live reachable_sixSecondsLater
    stale_sixSecondsLater refresh_sixSecondsLater
  have hentry : ∃ d, sixSecondsLater.state.overwritten
      (refreshWrites changingProvider sixSecondsLater) "dev-orders" = some ⟨goneDatabase, d⟩ ∧
        (resources.runFrom changingProvider sixSecondsLater).clock.now ≤ d :=
    ⟨Nanos.ofSeconds 23, rfl, by decide⟩
  exact ⟨reachable_sixSecondsLater, stale_sixSecondsLater, refresh_sixSecondsLater, rs, hrs,
    ((hlisted "dev-orders" goneDatabase).mpr hentry).1⟩

end PeakUsage.Inventory
