import PeakUsage.Proofs.Chains
import PeakUsage.Proofs.Inventory.Listing
import PeakUsage.Proofs.Inventory.Survival
import PeakUsage.Proofs.Rejection

/-! When looks at the resources ask the provider: once the deadline of the row written last has
passed, and always after a refresh that failed. -/
namespace PeakUsage.Inventory
open Program

variable {π : Type} {p : Provider π} {w : Moment π Inventory}

/-- Some family is listed. -/
def Asks (trace : List Happening) : Prop := ∃ family, .asked (.list family) ∈ trace

theorem asks_refresh (p : Provider π) (w : Moment π Inventory) :
    Asks (refresh.runFrom p w).trace := by
  refine ⟨.relationalInstance, ?_⟩
  rw [refresh, runFrom_clock_bind, runFrom_bind]
  refine Outcome.mem_andThen ?_
  rw [Family.all, runFrom_listFrom_cons]
  dsimp only
  split
  · exact List.mem_cons_self
  · exact List.mem_cons_self

theorem asks_of_stale (h : w.state.needsRefresh w.clock.now = true) :
    Asks (resources.runFrom p w).trace := by
  obtain ⟨family, hfamily⟩ := asks_refresh p w
  rw [runFrom_resources_of_stale p h]
  exact ⟨family, Outcome.mem_andThen hfamily⟩

theorem silent_of_fresh (h : w.state.needsRefresh w.clock.now = false) :
    Silent (resources.runFrom p w).trace := by
  rw [runFrom_resources_of_fresh p h]
  exact silent_nil

/-! ### After a refresh that went through -/

/-- The last refresh is complete, and until the table expires it has a row that lasts as long. -/
structure Settled (due now : Nat) (s : Inventory) : Prop where
  deadline : s.rows.deadline = some due
  complete : s.incomplete = false
  lasts : now ≤ due → ∃ (key : String) (e : Expiring.Entry Resource),
    s.rows.entries[key]? = some e ∧ due ≤ e.deadline

theorem lasting_settled (due : Nat) : Lasting (Settled due) :=
  fun _ _ _ hle hs => ⟨hs.deadline, hs.complete, fun h => hs.lasts (Nat.le_trans hle h)⟩

namespace Settled
variable {due now : Nat} {s : Inventory}

theorem needsRefresh_iff (h : Settled due now s) : s.needsRefresh now = true ↔ due < now := by
  have hexpired : s.rows.isExpired now = decide (due < now) := by
    rw [Expiring.isExpired, h.deadline]
  constructor
  · intro hneeds
    by_contra hle
    obtain ⟨key, e, he, -⟩ := h.lasts (Nat.not_lt.mp hle)
    have hfull : s.rows.isEmpty = false := Expiring.isEmpty_eq_false he
    simp [needsRefresh, hfull, hexpired, h.complete, hle] at hneeds
  · intro hlt
    simp [needsRefresh, hexpired, hlt]

/-- A look does not remove the row that lasts longest. -/
theorem swept (h : Settled due now s) : Settled due now (s.swept now) where
  deadline := (Expiring.deadline_touchAll s.rows now s.rows.keys).trans h.deadline
  complete := h.complete
  lasts := by
    intro hnow
    obtain ⟨key, e, he, hdue⟩ := h.lasts hnow
    have hserved : s.rows.get? now key = some e.value :=
      Expiring.get?_eq_some_iff.mpr
        ⟨e.deadline, due, he, h.deadline, Nat.le_trans hnow hdue, hnow⟩
    have hkept : (s.swept now).rows.entries[key]? = some e :=
      Expiring.getElem?_touchAll_keys_iff.mpr ⟨he, by rw [hserved]; rfl⟩
    exact ⟨key, e, hkept, hdue⟩

end Settled

/-- A refresh that writes some row settles the table until the deadline of the last one. -/
theorem settled_resources (hstale : w.state.needsRefresh w.clock.now = true) {n : Nat}
    (hok : (refresh.runFrom p w).result = .ok (.ok n)) {x : Write}
    (hx : (refreshWrites p w).getLast? = some x) :
    Settled (x.time + w.state.ttl) (resources.runFrom p w).clock.now
      (resources.runFrom p w).state := by
  let v := (refresh.runFrom p w).moment
  obtain ⟨init, hinit⟩ := List.getLast?_eq_some_iff.mp hx
  have hstate : v.state =
      { w.state.recordAll (refreshWrites p w) with incomplete := false } := runFrom_refresh hok
  have hentry : v.state.rows.entries[x.resource.usageKey]? =
      some ⟨x.resource, x.time + w.state.ttl⟩ := by
    have hwritten := entries_runFrom_refresh hok x.resource.usageKey
    rw [overwritten, hinit, lastWrite_concat, if_pos rfl] at hwritten
    exact hwritten
  have hsettled : Settled (x.time + w.state.ttl) v.clock.now v.state := by
    refine ⟨?_, by rw [hstate], fun _ => ⟨_, _, hentry, Nat.le_refl _⟩⟩
    rw [hstate, hinit]
    exact deadline_recordAll_concat w.state init x
  rw [runFrom_resources_of_refresh p hstale hok]
  exact hsettled.swept

/-! ### After a refresh that failed -/

theorem incomplete_listFrom (p : Provider π) (time : Timestamp) (families : List Family)
    (w : Moment π Inventory) :
    ((listFrom time families).runFrom p w).state.incomplete = w.state.incomplete :=
  Steps.runFrom (R := fun _ (s t : Inventory) => t.incomplete = s.incomplete)
    (I := fun _ (s : Inventory) => s.incomplete = w.state.incomplete) (fun _ _ _ _ hs => hs)
    (fun _ _ _ hst hs => hst.trans hs) p (listFrom_steps (fun _ _ _ _ => rfl) time families _ _) rfl

/-- A refresh that does not go through leaves a table that was incomplete before incomplete, also
when it halts. -/
theorem incomplete_refresh (hw : w.state.incomplete = true)
    (hfailed : ∀ n, (refresh.runFrom p w).result ≠ .ok (.ok n)) :
    (refresh.runFrom p w).state.incomplete = true := by
  cases h : (refresh.runFrom p w).result with
  | ok x =>
    rw [runFrom_refresh h]
    cases x with
    | ok n => exact absurd h (hfailed n)
    | error e => rfl
  | error f =>
    have hlist := incomplete_listFrom p w.clock.wall Family.all w
    rw [refresh, runFrom_clock_bind] at h ⊢
    cases hx : ((listFrom w.clock.wall Family.all).runFrom p w).result with
    | ok x =>
      rw [runFrom_bind_ok hx] at h
      cases h
    | error f =>
      rw [runFrom_bind_error hx]
      exact hlist.trans hw

theorem incomplete_resources (hw : w.state.incomplete = true)
    (hfailed : ∀ rs, (resources.runFrom p w).result ≠ .ok (.ok rs)) :
    (resources.runFrom p w).state.incomplete = true := by
  have hstale : w.state.needsRefresh w.clock.now = true := by simp [needsRefresh, hw]
  have hrefresh : ∀ n, (refresh.runFrom p w).result ≠ .ok (.ok n) := by
    intro n hok
    have hrun := runFrom_resources_of_refresh p hstale hok
    exact hfailed _ (congrArg Outcome.result hrun)
  have hincomplete := incomplete_refresh hw hrefresh
  rw [runFrom_resources_of_stale p hstale]
  cases h : (refresh.runFrom p w).result with
  | error f =>
    rw [Outcome.andThen, h]
    exact hincomplete
  | ok x =>
    rw [Outcome.andThen_eq_of_ok h]
    cases x with
    | ok n => exact absurd h (hrefresh n)
    | error e => exact hincomplete

theorem incomplete_of_failed (hstale : w.state.needsRefresh w.clock.now = true) {e : Failure}
    (h : (refresh.runFrom p w).result = .ok (.error e)) :
    (resources.runFrom p w).state.incomplete = true := by
  rw [runFrom_resources_of_stale p hstale, Outcome.andThen_eq_of_ok h, Outcome.after_state]
  change (refresh.runFrom p w).state.incomplete = true
  rw [runFrom_refresh h]
  rfl

/-! ### Sessions -/

namespace History
variable (h : History π) (p : Provider π)

/-- The looks after the one the session is split at. -/
def following : List (Leg π Inventory Unit) :=
  play p look (h.outcome p).clock.now (h.outcome p).state h.later

theorem chain_following :
    Chain p look (h.outcome p).clock.now (h.outcome p).state (h.following p)
      (h.closing p).1 (h.closing p).2 := chain_play p look _ _ _

variable {h p}

/-- Looks up to the deadline keep the table settled. -/
theorem settled_following {due : Nat}
    (hsettled : Settled due (h.outcome p).clock.now (h.outcome p).state)
    {before after : List (Leg π Inventory Unit)} {l : Leg π Inventory Unit}
    (hsplit : h.following p = before ++ l :: after)
    (hbefore : ∀ m ∈ before, m.start.clock.now ≤ due) :
    Settled due l.start.clock.now l.start.state := by
  have hchain := h.chain_following p
  rw [hsplit] at hchain
  refine hchain.start_keeps (lasting_settled due) (fun m hm hstart => ?_) hsettled
  have hfresh : m.start.state.needsRefresh m.start.clock.now = false := by
    have hle := hbefore m hm
    rw [← Bool.not_eq_true, hstart.needsRefresh_iff]
    omega
  rw [show legOutcome p look m = _ from runFrom_resources_of_fresh p hfresh]
  exact hstart.swept

/-- After a refresh that wrote some row no look asks the provider up to the deadline of the last
one, and the first look past it does. After a refresh that failed, every look refreshes again until
one goes through, whatever deadline the table was left with. -/
theorem asks_when_due (h : History π) (p : Provider π)
    (hstale : (h.opening p).state.needsRefresh (h.opening p).clock.now = true) :
    (∀ n, (refresh.runFrom p (h.opening p)).result = .ok (.ok n) → 1 ≤ n →
      ∃ x, (refreshWrites p (h.opening p)).getLast? = some x ∧
        (∀ l ∈ h.following p, l.start.clock.now ≤ x.time + h.ttl →
          Silent (legOutcome p look l).trace) ∧
        ∀ before l after, h.following p = before ++ l :: after →
          (∀ m ∈ before, m.start.clock.now ≤ x.time + h.ttl) →
          x.time + h.ttl < l.start.clock.now → Asks (legOutcome p look l).trace) ∧
    ∀ e, (refresh.runFrom p (h.opening p)).result = .ok (.error e) →
      ∀ before l after, h.following p = before ++ l :: after →
        (∀ m ∈ before, ∀ rs, (legOutcome p look m).result ≠ .ok (.ok rs)) →
        l.start.state.needsRefresh l.start.clock.now = true ∧
          Asks (legOutcome p look l).trace := by
  constructor
  · intro n hok hn
    obtain ⟨x, hx⟩ := exists_last_refreshWrite hok hn
    have hsettled : Settled (x.time + h.ttl) (h.outcome p).clock.now (h.outcome p).state := by
      rw [← h.ttl_opening p]
      exact settled_resources hstale hok hx
    refine ⟨x, hx, fun l hl hle => ?_, fun before l after hsplit hbefore hlt => ?_⟩
    · obtain ⟨before, after, hsplit⟩ := List.append_of_mem hl
      -- the looks before an early one were early, too
      have hpast : ∀ m ∈ before, m.start.clock.now ≤ x.time + h.ttl := by
        have hchain := h.chain_following p
        rw [hsplit] at hchain
        exact fun m hm => Nat.le_trans (hchain.now_le_of_split m hm) hle
      have hl := settled_following hsettled hsplit hpast
      refine silent_of_fresh ?_
      rw [← Bool.not_eq_true, hl.needsRefresh_iff]
      omega
    · have hl := settled_following hsettled hsplit hbefore
      exact asks_of_stale (hl.needsRefresh_iff.mpr hlt)
  · intro e hfailed before l after hsplit hbefore
    have hchain := h.chain_following p
    rw [hsplit] at hchain
    have hkeeps : ∀ m ∈ before, m.start.state.incomplete = true →
        (legOutcome p look m).state.incomplete = true :=
      fun m hm hstart => incomplete_resources hstart (hbefore m hm)
    have hincomplete : l.start.state.incomplete = true :=
      hchain.start_keeps (I := fun _ (s : Inventory) => s.incomplete = true) (fun _ _ _ _ hs => hs)
        hkeeps (incomplete_of_failed hstale hfailed)
    have hneeds : l.start.state.needsRefresh l.start.clock.now = true := by
      simp [needsRefresh, hincomplete]
    exact ⟨hneeds, asks_of_stale hneeds⟩

end History

/-! ### A refresh that fails behind rows that are good for another while -/

/-- The first look fails at the clusters of databases, after it has written a database. -/
def retriedLook : History Bool where
  filter := ⟨∅, "dev"⟩
  ttl := Nanos.ofSeconds 20
  start := 0
  before := []
  turn := ⟨(), 0, ⟨0, 0⟩, false⟩
  later := [⟨(), Nanos.ofSeconds 6, ⟨10, 0⟩, true⟩]

theorem stale_opening_retriedLook : (retriedLook.opening changingProvider).state.needsRefresh
    (retriedLook.opening changingProvider).clock.now = true := rfl

theorem refresh_opening_retriedLook :
    (refresh.runFrom changingProvider (retriedLook.opening changingProvider)).result =
      .ok (.error (.listing .documentCluster ⟨some 503, "busy"⟩)) := rfl

def secondLook : Leg Bool Inventory Unit :=
  ⟨(), ⟨true, ⟨Nanos.ofSeconds 10, ⟨10, 0⟩⟩, (retriedLook.outcome changingProvider).state⟩⟩

theorem following_retriedLook : retriedLook.following changingProvider = [secondLook] := by
  dsimp only [secondLook]
  rfl

theorem served_secondLook : secondLook.start.state.rows.isEmpty = false ∧
    secondLook.start.state.rows.isExpired secondLook.start.clock.now = false := ⟨rfl, rfl⟩

/-- The next look asks although the table could be served. -/
theorem asks_when_due_retried :
    (retriedLook.opening changingProvider).state.needsRefresh
        (retriedLook.opening changingProvider).clock.now = true ∧
      retriedLook.following changingProvider = [secondLook] ∧
      (secondLook.start.state.rows.isEmpty = false ∧
        secondLook.start.state.rows.isExpired secondLook.start.clock.now = false) ∧
      Asks (legOutcome changingProvider History.look secondLook).trace := by
  obtain ⟨-, hretried⟩ := retriedLook.asks_when_due changingProvider stale_opening_retriedLook
  have hasks := hretried _ refresh_opening_retriedLook [] secondLook [] following_retriedLook
    (fun _ hm => absurd hm List.not_mem_nil)
  exact ⟨stale_opening_retriedLook, following_retriedLook, served_secondLook, hasks.2⟩

end PeakUsage.Inventory
