import PeakUsage.Proofs.Peaks.Lookups

/-! How often a figure is asked for: not again while it is kept, and always once its deadline has
passed, whatever else is looked up in between. -/
namespace PeakUsage.Peaks
open Program

variable {π : Type}

/-! ### Figures that are kept -/

/-- Up to `due` a figure is served, and no write made from now on can end that. -/
structure Kept (key : FigureKey) (v : Float) (due now : Nat) (s : Peaks) : Prop where
  due_le : due ≤ now + s.ttl
  served : ∀ later, now ≤ later → later ≤ due → s.cache.get? later key = some v

theorem lasting_kept (key : FigureKey) (v : Float) (due : Nat) : Lasting (Kept key v due) := by
  intro now later s hle hs
  have hdue := hs.due_le
  constructor
  · omega
  · exact fun moment hmoment => hs.served moment (Nat.le_trans hle hmoment)

namespace Kept
variable {p : Provider π} {w : Moment π Peaks} {key : FigureKey} {v : Float} {due : Nat}

theorem removed (h : Kept key v due w.clock.now w.state) (other : FigureKey) {later : Nat}
    (hle : w.clock.now ≤ later) : Kept key v due later (w.state.removed w.clock.now other) := by
  have hdue := h.due_le
  constructor
  · change due ≤ later + w.state.ttl
    omega
  · intro moment hmoment hlast
    have hserved := h.served moment (Nat.le_trans hle hmoment) hlast
    exact (Expiring.get?_touch _ (Nat.le_trans hle hmoment) other key).trans hserved

/-- A lookup, of whichever key, leaves a kept figure as it is. -/
theorem runFrom (h : Kept key v due w.clock.now w.state) (other : FigureKey)
    (plan : Nat → List MetricQuery) :
    Kept key v due ((lookup other plan).runFrom p w).clock.now
      ((lookup other plan).runFrom p w).state := by
  have hnow := now_le_runFrom p w (lookup other plan)
  cases looked_lookup p other plan w with
  | kept u hget ho =>
    rw [ho]
    exact h
  | missing hget hresult hstate =>
    rw [hstate]
    exact h.removed other hnow
  | fetched u hget hresult hstate =>
    have hremoved := h.removed other hnow
    rw [hstate]
    refine ⟨hremoved.due_le, fun later hle hlast => ?_⟩
    -- the lookup found nothing, while `key` is served at least up to `later`
    have hne : other ≠ key := by
      rintro rfl
      have hserved := h.served w.clock.now (Nat.le_refl _) (by omega)
      exact absurd (hget.symm.trans hserved) nofun
    have hdue := hremoved.due_le
    exact Expiring.get?_put_of_some (hremoved.served later hle hlast) hne u
      (Nat.le_trans hlast hdue)

end Kept

section
variable {p : Provider π}

/-! ### Sessions -/

/-- A lookup that got its figure from the provider. -/
def Fetched (p : Provider π) (l : Leg π Peaks Lookup) (v : Float) : Prop :=
  (legOutcome p Lookup.program l).result = .ok (.ok v) ∧
    ¬ Silent (legOutcome p Lookup.program l).trace

/-- A figure is kept from the lookup on that fetched it. -/
theorem Fetched.kept {l : Leg π Peaks Lookup} {v : Float} (h : Fetched p l v) :
    let o := legOutcome p Lookup.program l
    Kept l.item.key v (o.clock.now + l.start.state.ttl) o.clock.now o.state := by
  intro o
  obtain ⟨hresult, hasked⟩ := h
  cases looked_lookup p l.item.key l.item.plan l.start with
  | kept u hget ho =>
    have htrace : o.trace = [] := congrArg Outcome.trace ho
    rw [htrace] at hasked
    exact absurd silent_nil hasked
  | missing hget hfailed hstate => exact absurd hresult (hfailed v)
  | fetched u hget hfound hstate =>
    obtain rfl := Except.ok.inj (Except.ok.inj (hresult.symm.trans hfound))
    have ho : o.state = _ := hstate
    rw [ho]
    exact ⟨Nat.le_refl _, fun later hle hlast => Expiring.get?_put_self _ _ _ hlast⟩

/-- Every figure in the cache is that of a fetch, and lasts from the end of it on. -/
structure Sourced (p : Provider π) (ttl lookback : Nat) (legs : List (Leg π Peaks Lookup))
    (s : Peaks) : Prop where
  ttl_eq : s.ttl = ttl
  lookback_eq : s.lookback = lookback
  fetch : ∀ key (e : Expiring.Entry Float), s.cache.entries[key]? = some e →
    ∃ m ∈ legs, m.item.key = key ∧ Fetched p m e.value ∧
      e.deadline = (legOutcome p Lookup.program m).clock.now + ttl

theorem sourced_new (p : Provider π) (ttl lookback : Nat) (legs : List (Leg π Peaks Lookup)) :
    Sourced p ttl lookback legs (new ttl lookback) :=
  ⟨rfl, rfl, fun key e he => absurd he (by simp [new, Expiring.empty])⟩

namespace Sourced
variable {ttl lookback : Nat} {legs : List (Leg π Peaks Lookup)}

theorem removed {s : Peaks} (h : Sourced p ttl lookback legs s) (now : Nat) (key : FigureKey) :
    Sourced p ttl lookback legs (s.removed now key) :=
  ⟨h.ttl_eq, h.lookback_eq, fun other e he => h.fetch other e (Expiring.getElem?_touch_of_some he)⟩

theorem runFrom {l : Leg π Peaks Lookup} (hl : l ∈ legs)
    (h : Sourced p ttl lookback legs l.start.state) :
    Sourced p ttl lookback legs (legOutcome p Lookup.program l).state := by
  have hremoved := h.removed l.start.clock.now l.item.key
  have hlooked := looked_lookup p l.item.key l.item.plan l.start
  change Looked _ _ (legOutcome p Lookup.program l) at hlooked
  cases hlooked with
  | kept v hget ho =>
    rw [ho]
    exact h
  | missing hget hresult hstate =>
    rw [hstate]
    exact hremoved
  | fetched v hget hresult hstate =>
    rw [hstate]
    refine ⟨h.ttl_eq, h.lookback_eq, fun key e he => ?_⟩
    by_cases hkey : l.item.key = key
    · subst hkey
      have hasked := not_silent_lookup_of_none p hget (l.item.plan_ne_nil _)
      have hentry := (Expiring.getElem?_put_self ..).symm.trans he
      obtain rfl := Option.some.inj hentry
      exact ⟨l, hl, rfl, ⟨hresult, hasked⟩, by rw [h.ttl_eq]⟩
    · have hentry := (Expiring.getElem?_put_of_ne _ hkey _ _).symm.trans he
      exact hremoved.fetch key e hentry

end Sourced

/-- What the cache serves when a lookup starts was fetched by an earlier one. -/
theorem exists_fetched_of_chain {ttl lookback now later : Nat} {s : Peaks}
    {before after : List (Leg π Peaks Lookup)} {l : Leg π Peaks Lookup}
    (h : Chain p Lookup.program now (new ttl lookback) (before ++ l :: after) later s) :
    l.start.state.lookback = lookback ∧
      ∀ key v, l.start.state.cache.get? l.start.clock.now key = some v →
        ∃ m ∈ before, m.item.key = key ∧ Fetched p m v ∧
          l.start.clock.now ≤ (legOutcome p Lookup.program m).clock.now + ttl := by
  have hsteps : ∀ m ∈ before, Sourced p ttl lookback before m.start.state →
      Sourced p ttl lookback before (legOutcome p Lookup.program m).state :=
    fun m hm hstart => hstart.runFrom hm
  have hsourced : Sourced p ttl lookback before l.start.state :=
    h.start_keeps (I := fun _ => Sourced p ttl lookback before) (fun _ _ _ _ hs => hs) hsteps
      (sourced_new p ttl lookback before)
  refine ⟨hsourced.lookback_eq, fun key v hget => ?_⟩
  obtain ⟨d, g, hentry, -, hnow, -⟩ := Expiring.get?_eq_some_iff.mp hget
  obtain ⟨m, hm, hkey, hfetched, hdeadline⟩ := hsourced.fetch key _ hentry
  exact ⟨m, hm, hkey, hfetched, Nat.le_trans hnow (Nat.le_of_eq hdeadline)⟩

/-- The lookups of a session of calls. -/
def sessionLookups (p : Provider π) (ttl lookback now : Nat) (turns : List (Turn π Call)) :
    List (Leg π Peaks Lookup) :=
  (play p Call.program now (new ttl lookback) turns).flatMap (lookupLegs p)

section
variable {ttl lookback now : Nat} {turns : List (Turn π Call)}

theorem chain_sessionLookups (p : Provider π) (ttl lookback now : Nat)
    (turns : List (Turn π Call)) :
    ∃ later s, Chain p Lookup.program now (new ttl lookback)
      (sessionLookups p ttl lookback now turns) later s :=
  ⟨_, _, (chain_play p Call.program now (new ttl lookback) turns).flatMap (chain_lookupLegs p)⟩

/-- A figure that was fetched is kept when a later lookup starts. -/
theorem kept_pairwise (p : Provider π) (ttl lookback now : Nat) (turns : List (Turn π Call)) :
    (sessionLookups p ttl lookback now turns).Pairwise fun a b =>
      ∀ v, Fetched p a v → Kept a.item.key v ((legOutcome p Lookup.program a).clock.now + ttl)
        b.start.clock.now b.start.state := by
  obtain ⟨later, s, hchain⟩ := chain_sessionLookups p ttl lookback now turns
  have httl := hchain.forall_start_keeps (I := fun _ (s : Peaks) => s.ttl = ttl)
    (fun _ _ _ _ hs => hs)
    (fun q w hs => lookup_keeps (I := (·.ttl = ttl)) (fun _ _ hs => hs) hs q.key q.plan) rfl
  refine hchain.pairwise (I := fun l now s => ∀ v, Fetched p l v →
    Kept l.item.key v ((legOutcome p Lookup.program l).clock.now + ttl) now s) ?_ ?_ ?_
  · exact fun l now later s hle hs v hv => lasting_kept _ _ _ now later s hle (hs v hv)
  · intro l hl v hv
    rw [← httl l hl]
    exact hv.kept
  · exact fun l m _ hm v hv => (hm v hv).runFrom m.item.key m.item.plan

theorem exists_fetched_of_get? {before after : List (Leg π Peaks Lookup)} {l : Leg π Peaks Lookup}
    (hsplit : sessionLookups p ttl lookback now turns = before ++ l :: after) :
    l.start.state.lookback = lookback ∧
      ∀ key v, l.start.state.cache.get? l.start.clock.now key = some v →
        ∃ m ∈ before, m.item.key = key ∧ Fetched p m v ∧
          l.start.clock.now ≤ (legOutcome p Lookup.program m).clock.now + ttl := by
  obtain ⟨later, s, hchain⟩ := chain_sessionLookups p ttl lookback now turns
  rw [hsplit] at hchain
  exact exists_fetched_of_chain hchain

end

/-- A figure that was fetched is served by every lookup of its key that starts before its deadline,
without a call. A lookup asks for its figure if no earlier one fetched it, or if the deadline of
all that did has passed. What the calls of a session do is what these lookups do. -/
theorem fetched_once (p : Provider π) (ttl lookback now : Nat) (turns : List (Turn π Call)) :
    let calls := play p Call.program now (new ttl lookback) turns
    let lookups := sessionLookups p ttl lookback now turns
    (∀ c ∈ calls, Consists p c.start (lookupLegs p c) (legOutcome p Call.program c) ∧
      (¬ c.item.FansOut → ∀ l ∈ lookupLegs p c,
        legOutcome p Call.program c = legOutcome p Lookup.program l)) ∧
    (lookups.Pairwise fun a b => (legOutcome p Lookup.program a).clock.now ≤ b.start.clock.now) ∧
    (lookups.Pairwise fun a b => ∀ v, Fetched p a v → b.item.key = a.item.key →
      b.start.clock.now ≤ (legOutcome p Lookup.program a).clock.now + ttl →
        (legOutcome p Lookup.program b).trace = [] ∧
          (legOutcome p Lookup.program b).result = .ok (.ok v)) ∧
    ∀ before l after, lookups = before ++ l :: after →
      (∀ m ∈ before, ∀ v, Fetched p m v → m.item.key = l.item.key →
        (legOutcome p Lookup.program m).clock.now + ttl < l.start.clock.now) →
      ∃ q ∈ l.item.plan lookback,
        .asked (.statistics q) ∈ (legOutcome p Lookup.program l).trace := by
  intro calls lookups
  obtain ⟨later, s, hchain⟩ := chain_sessionLookups p ttl lookback now turns
  refine ⟨fun c _ => ⟨consists_call p c, fun hfans l => legOutcome_of_not_fansOut hfans⟩,
    hchain.pairwise_now_le, ?_, fun before l after hsplit hpast => ?_⟩
  -- the figure is still kept when the later lookup starts
  · refine (kept_pairwise p ttl lookback now turns).imp ?_
    intro a b hkept v hv hkey hle
    have hserved := (hkept v hv).served _ (Nat.le_refl _) hle
    rw [← hkey] at hserved
    have ho := runFrom_lookup_of_some p hserved b.item.plan
    exact ⟨congrArg Outcome.trace ho, congrArg Outcome.result ho⟩
  -- a figure that is served would come from a fetch whose deadline has not passed
  · obtain ⟨hlookback, hfetch⟩ := exists_fetched_of_get? hsplit
    have hnone : l.start.state.cache.get? l.start.clock.now l.item.key = none := by
      cases hget : l.start.state.cache.get? l.start.clock.now l.item.key with
      | none => rfl
      | some v =>
        obtain ⟨m, hm, hkey, hfetched, hle⟩ := hfetch _ _ hget
        have hlt := hpast m hm v hfetched hkey
        omega
    have hasked := asked_lookup_of_none p hnone (l.item.plan_ne_nil _)
    rw [hlookback] at hasked
    exact hasked

end

/-! ### A broker whose figure was fetched for its cluster -/

/-- The broker is asked for ten seconds after the cluster. -/
def clusterThenBroker : List (Turn Unit Call) :=
  [⟨.cpu "events-1" threeBrokers, 0, ⟨0, 0⟩, ()⟩,
    ⟨.cpu "events-1-1" (asBroker threeBrokers (some 1)), 10, ⟨10, 0⟩, ()⟩]

def clusterThenBrokerLookups : List (Leg Unit Peaks Lookup) :=
  sessionLookups secondBrokerDown 60 60 0 clusterThenBroker

theorem fetched_once_broker :
    let a := clusterThenBrokerLookups.get ⟨0, by decide⟩
    let b := clusterThenBrokerLookups.get ⟨3, by decide⟩
    Fetched secondBrokerDown a 8.0 ∧ b.item.key = a.item.key ∧
      (legOutcome secondBrokerDown Lookup.program b).trace = [] ∧
      (legOutcome secondBrokerDown Lookup.program b).result = .ok (.ok 8.0) := by
  intro a b
  have hkey : b.item.key = a.item.key := rfl
  have hfetched : Fetched secondBrokerDown a 8.0 := by
    refine ⟨rfl, fun hsilent => ?_⟩
    exact absurd (hsilent _ List.mem_cons_self) nofun
  have hle : b.start.clock.now ≤ (legOutcome secondBrokerDown Lookup.program a).clock.now + 60 := by
    decide
  obtain ⟨-, -, hserved, -⟩ := fetched_once secondBrokerDown 60 60 0 clusterThenBroker
  have hpair := List.pairwise_iff_getElem.mp hserved 0 3 (by decide) (by decide) (by decide)
  exact ⟨hfetched, hkey, hpair 8.0 hfetched hkey hle⟩

end PeakUsage.Peaks
