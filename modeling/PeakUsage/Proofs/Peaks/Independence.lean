import PeakUsage.Proofs.Peaks.Hits
import PeakUsage.Proofs.Peaks.Misses
import PeakUsage.Proofs.SideBySide

/-! Lookups of different keys do not get in each other's way. Each write moves the deadline of the
whole cache, but no entry outlives that one, so what is found under a key only depends on the
lookups of this key. -/
namespace PeakUsage.Peaks
open Program

/-! ### Caches that agree on some keys -/

/-- The same entries under all keys of a set. -/
structure Agree (X : FigureKey → Bool) (now : Nat) (s t : Peaks) : Prop where
  ttl_eq : t.ttl = s.ttl
  lookback_eq : t.lookback = s.lookback
  dated_left : Dated now s
  dated_right : Dated now t
  entry_eq : ∀ key, X key = true → t.cache.entries[key]? = s.cache.entries[key]?

theorem lasting_agree (X : FigureKey → Bool) (t : Peaks) : Lasting fun now s => Agree X now s t :=
  fun now later s hle h => ⟨h.ttl_eq, h.lookback_eq, lasting_dated now later s hle h.dated_left,
    lasting_dated now later t hle h.dated_right, h.entry_eq⟩

namespace Agree
variable {X : FigureKey → Bool} {now : Nat} {s t : Peaks} {key : FigureKey}

theorem refl (hs : Dated now s) : Agree X now s s := ⟨rfl, rfl, hs, hs, fun _ _ => rfl⟩

/-- What is found under such a key is the same, whatever the deadlines of the caches are. -/
theorem get?_eq (h : Agree X now s t) (hkey : X key = true) (moment : Nat) :
    t.cache.get? moment key = s.cache.get? moment key := by
  apply Option.ext
  intro v
  rw [h.dated_right.get?_eq_some_iff, h.dated_left.get?_eq_some_iff, h.entry_eq key hkey]

theorem removed (h : Agree X now s t) (hkey : X key = true)
    (hnone : s.cache.get? now key = none) :
    Agree X now (s.removed now key) (t.removed now key) := by
  have hnone' : t.cache.get? now key = none := (h.get?_eq hkey now).trans hnone
  refine ⟨h.ttl_eq, h.lookback_eq, h.dated_left.removed key, h.dated_right.removed key, ?_⟩
  intro j hj
  rw [(differs_removed hnone).entry_eq, (differs_removed hnone').entry_eq, h.entry_eq j hj]

theorem written (h : Agree X now s t) (v : Float) :
    Agree X now (s.written key v (now + s.ttl)) (t.written key v (now + s.ttl)) := by
  have hright : t.cache.Bounded (now + s.ttl) := h.ttl_eq ▸ h.dated_right
  refine ⟨h.ttl_eq, h.lookback_eq, h.dated_left.put key v, ?_, fun j hj => ?_⟩
  · rw [Dated]
    exact h.ttl_eq ▸ hright.put key v
  · rw [Peaks.written, Peaks.written, Expiring.getElem?_put, Expiring.getElem?_put, h.entry_eq j hj]

end Agree

/-! ### Lookups of these keys -/

variable {π : Type} {p : Provider π} {X : FigureKey → Bool} {key : FigureKey}

theorem respects_total (key : FigureKey) (plan : List MetricQuery) (sum : Float) :
    (total key plan sum).Respects p (Agree X) := by
  induction plan generalizing sum with
  | nil => exact respects_pure _
  | cons q rest ih =>
    refine (respects_request (lasting_agree X) (.statistics q)).bind fun reply => ?_
    cases reply with
    | error e => exact respects_pure _
    | ok points => exact ih _

theorem respects_keep (key : FigureKey) (v : Float) : (keep key v).Respects p (Agree X) := by
  intro w u h
  rw [runFrom_keep, runFrom_keep, h.clock_eq, h.state.ttl_eq]
  split
  · exact ⟨rfl, rfl, h.memory_eq, rfl, h.state.written v⟩
  · exact ⟨rfl, rfl, h.memory_eq, rfl, h.state⟩

theorem respects_settle (key : FigureKey) (x : Except Failure Float) :
    (settle key x).Respects p (Agree X) := by
  cases x with
  | error e => exact respects_pure _
  | ok v => exact (respects_keep key v).bind fun _ => respects_pure _

theorem respects_lookup (q : Lookup) (hkey : X q.key = true) :
    q.program.Respects p (Agree X) := by
  intro w u h
  have hsame : u.state.cache.get? u.clock.now q.key = w.state.cache.get? w.clock.now q.key := by
    rw [h.clock_eq, h.state.get?_eq hkey]
  cases hget : w.state.cache.get? w.clock.now q.key with
  | some v =>
    rw [Lookup.program, runFrom_lookup_of_some p hget, runFrom_lookup_of_some p (hsame.trans hget)]
    exact ⟨rfl, rfl, h⟩
  | none =>
    rw [Lookup.program, runFrom_lookup_of_none p hget,
      runFrom_lookup_of_none p (hsame.trans hget), h.state.lookback_eq]
    refine ((respects_total q.key _ 0.0).bind (respects_settle q.key)) _ _ ?_
    refine ⟨h.memory_eq, h.clock_eq, ?_⟩
    rw [h.clock_eq]
    exact h.state.removed hkey hget

theorem respects_call {c : Call} (h : ∀ q ∈ c.lookups, X q.key = true) :
    c.program.Respects p (Agree X) := by
  by_cases hfans : c.FansOut
  · obtain ⟨key, r, rfl, hlookups, hprogram⟩ := Call.of_fansOut hfans
    have hbrokers : (each (brokerLookup r) (List.range' 1 r.brokerCount)).Respects p (Agree X) := by
      refine respects_each fun id hid => respects_lookup (brokerPart r id) (h _ ?_)
      rw [hlookups]
      exact List.mem_map_of_mem hid
    rw [hprogram]
    exact hbrokers.bind fun outcomes => respects_pure (combine r outcomes)
  · rcases Call.of_not_fansOut hfans with ⟨q, hlookups, hprogram⟩ | ⟨-, e, hprogram⟩
    · rw [hprogram]
      exact respects_lookup q (h q (hlookups ▸ List.mem_singleton_self q))
    · rw [hprogram]
      exact respects_pure _

/-! ### Lookups of other keys -/

/-- A call that looks up none of the keys changes nothing under them. -/
theorem agree_of_other_keys {c : Leg π Peaks Call} (h : ∀ q ∈ c.item.lookups, X q.key = false)
    {t : Peaks} (ht : Agree X c.start.clock.now c.start.state t) :
    Agree X (legOutcome p Call.program c).clock.now (legOutcome p Call.program c).state t := by
  have hnow : c.start.clock.now ≤ (legOutcome p Call.program c).clock.now :=
    now_le_runFrom p c.start _
  have hsettings : Steady p fun _ s => t.ttl = s.ttl ∧ t.lookback = s.lookback :=
    steady_settings p (I := fun s => t.ttl = s.ttl ∧ t.lookback = s.lookback) fun _ _ hs => hs
  obtain ⟨httl, hlookback⟩ := hsettings.call ⟨ht.ttl_eq, ht.lookback_eq⟩
  refine ⟨httl, hlookback, (steady_dated p).call ht.dated_left,
    lasting_dated _ _ t hnow ht.dated_right, fun key hkey => ?_⟩
  have hleft : (legOutcome p Call.program c).state.cache.entries[key]? =
      c.start.state.cache.entries[key]? := by
    refine getElem?_chain_of_ne (chain_lookupLegs p c) fun l hl => ?_
    rintro rfl
    have hother := h l.item (item_mem_of_mem_relay p Lookup.program hl)
    exact absurd (hkey.symm.trans hother) nofun
  exact (ht.entry_eq key hkey).trans hleft.symm

/-! ### Sessions -/

namespace Call

/-- Whether a call looks up one of the keys. -/
def touches (X : FigureKey → Bool) (c : Call) : Bool := c.lookups.any fun q => X q.key

/-- The keys a call looks up are all in the set, or none of them is. -/
def OneSided (X : FigureKey → Bool) (c : Call) : Prop :=
  (∀ q ∈ c.lookups, X q.key = true) ∨ ∀ q ∈ c.lookups, X q.key = false

instance (X : FigureKey → Bool) (c : Call) : Decidable (c.OneSided X) :=
  inferInstanceAs (Decidable (_ ∨ _))

def figure : Call → Figure
  | .cpu _ _ => .cpu
  | .memory _ _ => .memory

theorem figure_of_mem_lookups {c : Call} {q : Lookup} (hq : q ∈ c.lookups) :
    q.key.figure = c.figure := by
  cases c with
  | cpu key r =>
    rw [lookups] at hq
    split at hq
    · obtain ⟨id, -, rfl⟩ := List.mem_map.mp hq
      rfl
    · obtain rfl := List.mem_singleton.mp hq
      rfl
  | memory key r =>
    obtain ⟨metric, -, rfl⟩ := Option.map_eq_some_iff.mp (Option.mem_toList.mp hq)
    rfl

theorem oneSided_figure (figure : Figure) (c : Call) :
    c.OneSided fun key => key.figure = figure := by
  by_cases h : c.figure = figure
  · exact .inl fun q hq => decide_eq_true ((figure_of_mem_lookups hq).trans h)
  · refine .inr fun q hq => decide_eq_false fun hkey => h ?_
    exact (figure_of_mem_lookups hq).symm.trans hkey

variable {c : Call}

theorem OneSided.of_touches (h : c.OneSided X) (htouches : c.touches X = true) :
    ∀ q ∈ c.lookups, X q.key = true := by
  obtain ⟨q, hq, hkey⟩ := List.any_eq_true.mp htouches
  exact h.resolve_right fun hother => absurd (hkey.symm.trans (hother q hq)) nofun

theorem other_keys_of_touches (htouches : c.touches X = false) :
    ∀ q ∈ c.lookups, X q.key = false := by
  intro q hq
  exact Bool.eq_false_iff.mpr (List.any_eq_false.mp htouches q hq)

end Call

/-- When all calls that look up none of the keys are taken out of a session, the others find, ask
for and leave under these keys what they did. -/
def Independent (p : Provider Unit) (ttl lookback now : Nat) (turns : List (Turn Unit Call))
    (X : FigureKey → Bool) : Prop :=
  let last := ending p Call.program now (new ttl lookback) turns
  let kept := (play p Call.program now (new ttl lookback) turns).filter fun c => c.item.touches X
  let alone := rerun p Call.program (new ttl lookback) kept
  List.Forall₂ (Twins p Call.program (Agree X)) kept alone ∧
    ∃ s, Chain p Call.program now (new ttl lookback) alone last.1 s ∧ Agree X last.1 last.2 s

theorem independent_of_oneSided (p : Provider Unit) (ttl lookback now : Nat)
    {turns : List (Turn Unit Call)} (h : ∀ turn ∈ turns, turn.op.OneSided X) :
    Independent p ttl lookback now turns X := by
  have hcalls : ∀ c ∈ play p Call.program now (new ttl lookback) turns, c.item.OneSided X := by
    intro c hc
    have hop : c.item ∈ turns.map (·.op) := by
      rw [← play_items p Call.program now (new ttl lookback)]
      exact List.mem_map_of_mem hc
    obtain ⟨turn, hturn, hitem⟩ := List.mem_map.mp hop
    exact hitem ▸ h turn hturn
  have hchain := chain_play p Call.program now (new ttl lookback) turns
  exact hchain.rerun_filter (lasting_agree X)
    (fun c hc htouches => respects_call ((hcalls c hc).of_touches htouches))
    (fun c _ htouches t ht => agree_of_other_keys (Call.other_keys_of_touches htouches) ht)
    (new ttl lookback) (.refl (dated_new ttl lookback now))

/-- With a provider whose answers and latencies depend on the call and the time only, calls that
look up keys of a set do not depend on those that look up other keys. In particular, CPU figures and
memory figures do not depend on each other, not even those with the same text for a key. -/
theorem calls_independent (p : Provider Unit) (ttl lookback now : Nat)
    (turns : List (Turn Unit Call)) :
    (∀ X, (∀ turn ∈ turns, turn.op.OneSided X) → Independent p ttl lookback now turns X) ∧
      ∀ figure, Independent p ttl lookback now turns fun key => key.figure = figure :=
  ⟨fun _ h => independent_of_oneSided p ttl lookback now h,
    fun figure => independent_of_oneSided p ttl lookback now fun turn _ =>
      turn.op.oneSided_figure figure⟩

/-! ### A memory figure with the key of a broker -/

def cacheLikeBroker : Resource where
  identifier := "events-1-1"
  instanceClass := "cache.t4g.small"
  engine := .redis
  level := .cluster
  dimension := "CacheClusterId"
  brokerId := none
  brokerCount := 0
  collectedAt := ⟨0, 0⟩

/-- The cluster, the cache, and one of the brokers, which is still kept. -/
def cacheBetween : List (Turn Unit Call) :=
  [⟨.cpu "events-1" threeBrokers, 0, ⟨0, 0⟩, ()⟩,
    ⟨.memory "events-1-1" cacheLikeBroker, 10, ⟨10, 0⟩, ()⟩,
    ⟨.cpu "events-1-1" (asBroker threeBrokers (some 1)), 10, ⟨20, 0⟩, ()⟩]

def eventsKeys (key : FigureKey) : Bool :=
  key ∈ ["events-1-1", "events-1-2", "events-1-3"].map (FigureKey.mk .cpu)

def cacheBetweenCalls : List (Leg Unit Peaks Call) :=
  play secondBrokerDown Call.program 0 (new 60 60) cacheBetween

/-- Without the lookup of the cache the broker is found as before. -/
theorem calls_independent_broker :
    (∀ turn ∈ cacheBetween, turn.op.OneSided eventsKeys) ∧
      ∃ cluster broker,
        rerun secondBrokerDown Call.program (new 60 60)
          (cacheBetweenCalls.filter fun c => c.item.touches eventsKeys) = [cluster, broker] ∧
        (legOutcome secondBrokerDown Call.program broker).trace = [] ∧
        (legOutcome secondBrokerDown Call.program broker).result = .ok (.ok 8.0) := by
  have honeSided : ∀ turn ∈ cacheBetween, turn.op.OneSided eventsKeys := by decide +kernel
  obtain ⟨hall, -⟩ := (calls_independent secondBrokerDown 60 60 0 cacheBetween).1 _ honeSided
  have hkept : cacheBetweenCalls.filter (fun c => c.item.touches eventsKeys) =
      [cacheBetweenCalls.get ⟨0, by decide⟩, cacheBetweenCalls.get ⟨2, by decide⟩] := rfl
  change List.Forall₂ _ (cacheBetweenCalls.filter _)
    (rerun _ _ _ (cacheBetweenCalls.filter _)) at hall
  rw [hkept] at hall ⊢
  generalize rerun secondBrokerDown Call.program (new 60 60) _ = alone at hall ⊢
  cases hall with
  | cons hcluster hrest =>
    cases hrest with
    | cons hbroker hnil =>
      cases hnil
      have htrace := hbroker.outcome.trace_eq
      have hresult := hbroker.outcome.result_eq
      exact ⟨honeSided, _, _, rfl, htrace, hresult⟩

end PeakUsage.Peaks
