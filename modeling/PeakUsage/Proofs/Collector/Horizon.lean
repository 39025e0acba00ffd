import PeakUsage.Proofs.Collector.Parts
import PeakUsage.Proofs.Halting
import PeakUsage.Settings

/-! How long a collector can run. The settings are checked for an interval of zero, but not for one
whose deadlines the clock cannot show. -/
namespace PeakUsage

/-! ### The interval of accepted settings -/

namespace Settings

theorem numeral?_lt {s : String} {n : Nat} (h : numeral? s = some n) : n < UInt64.size := by
  simp only [numeral?, Option.ite_none_right_eq_some] at h
  obtain ⟨-, hlt⟩ := Option.filter_eq_some_iff.mp h.2
  exact of_decide_eq_true hlt

theorem naturalOfText?_lt {s : String} {n : Nat} (h : naturalOfText? s = some n) :
    n < UInt64.size := by
  unfold naturalOfText? at h
  dsimp only at h
  split at h
  · obtain rfl := Option.some.inj h
    decide
  · split at h
    · obtain rfl := Option.some.inj h
      decide
    · exact numeral?_lt h

theorem natural?_lt {j : Json} {n : Nat} (h : natural? j = some n) : n < UInt64.size := by
  cases j with
  | integer i =>
    simp only [natural?] at h
    split at h
    · obtain rfl := Option.some.inj h
      omega
    · exact absurd h nofun
  | string s => exact naturalOfText?_lt h
  | bool b =>
    obtain rfl := Option.some.inj h
    cases b <;> decide
  | real x =>
    obtain rfl := Option.some.inj h
    exact UInt64.toNat_lt _
  | _ => exact absurd h nofun

theorem read_lt {values : List (String × Json)} {key : String} {fallback n : Nat}
    (hfallback : fallback < UInt64.size) (h : read values key natural? fallback = .ok n) :
    n < UInt64.size := by
  unfold read at h
  split at h
  · obtain rfl := Except.ok.inj h
    exact hfallback
  · split at h
    · next hreading =>
      obtain rfl := Except.ok.inj h
      exact natural?_lt hreading
    · exact absurd h nofun

/-- Accepted settings have an interval of one second at least and of 64 bits at most. -/
theorem scrapeInterval_of_ofValues {values : List (String × Json)} {s : Settings}
    (h : ofValues values = .ok s) :
    0 < s.scrapeIntervalSecs ∧ s.scrapeIntervalSecs < UInt64.size := by
  unfold ofValues at h
  obtain ⟨customer, -, h⟩ := exists_of_bind_ok h
  obtain ⟨project, -, h⟩ := exists_of_bind_ok h
  obtain ⟨environment, -, h⟩ := exists_of_bind_ok h
  obtain ⟨interval, hinterval, h⟩ := exists_of_bind_ok h
  obtain ⟨lookback, -, h⟩ := exists_of_bind_ok h
  obtain ⟨tick, -, h⟩ := exists_of_bind_ok h
  obtain ⟨port, -, h⟩ := exists_of_bind_ok h
  have hlt := read_lt (by decide) hinterval
  dsimp only at h
  split at h
  · exact absurd h nofun
  · next hinterval =>
    split at h
    · exact absurd h nofun
    · obtain rfl := Except.ok.inj h
      exact ⟨Nat.pos_of_ne_zero hinterval, hlt⟩

end Settings

/-! ### The interval of a session -/

namespace Collector
open Program

variable {π : Type} {p : Provider π} {w : Moment π Collector}

/-- Rows and figures are kept for the same time. -/
def KeepsFor (ttl : Nat) (s : Collector) : Prop := s.inventory.ttl = ttl ∧ s.peaks.ttl = ttl

theorem keepsFor_operation {ttl : Nat} (hw : KeepsFor ttl w.state) (op : Operation) :
    KeepsFor ttl (op.program.runFrom p w).state := by
  refine operation_of_questions (I := fun _ => KeepsFor ttl) (fun _ _ _ _ hs => hs) ?_ ?_ hw op
  · intro v hv
    constructor
    · exact resources_inventory (I := fun s => s.ttl = ttl)
        (fun _ => (Inventory.resources_keeps (Inventory.stable_ttl ttl)).runFrom p) hv.1
    · rw [resources_peaks]
      exact hv.2
  · intro q v hv
    constructor
    · rw [lookup_inventory]
      exact hv.1
    · exact lookup_peaks (Peaks.steady_ttl p ttl) q hv.2

/-- An operation of a session that halts ends at a time whose deadlines the clock cannot show. -/
theorem late_of_halted {settings : CollectorSettings} {environment : String} {now : Nat}
    {turns : List (Turn π Operation)} {l : Leg π Collector Operation}
    (hl : l ∈ play p Operation.program now (new settings environment) turns) {e : ClockFault}
    (h : (legOutcome p Operation.program l).result = .error e) :
    Nanos.horizon ≤ (legOutcome p Operation.program l).clock.now + settings.scrapeInterval := by
  have hstart : KeepsFor settings.scrapeInterval l.start.state :=
    play_start_keeps p Operation.program (fun op _ hv => keepsFor_operation hv op) now _ turns
      ⟨rfl, rfl⟩ l hl
  obtain ⟨hinventory, hpeaks⟩ := keepsFor_operation (p := p) hstart l.item
  have hout : OutOfTime (legOutcome p Operation.program l).clock.now
      (legOutcome p Operation.program l).state :=
    (operation_haltsOnly l.item _ _).runFrom h
  rcases hout with hrow | hfigure
  · unfold Inventory.OutOfTime at hrow
    change (legOutcome p Operation.program l).state.inventory.ttl = _ at hinventory
    omega
  · unfold Peaks.OutOfTime at hfigure
    change (legOutcome p Operation.program l).state.peaks.ttl = _ at hpeaks
    omega

/-! ### A row that is always there -/

/-- With a provider that answers at once no time passes. -/
theorem now_runFrom_of_instant {σ α : Type} (hp : ∀ m c r, p.latency m c r = 0)
    (q : Program σ α) (v : Moment π σ) : (q.runFrom p v).clock.now = v.clock.now := by
  induction q generalizing v with
  | done a => rfl
  | halt e => rfl
  | look k ih => exact ih _ _ v
  | save t k ih => exact ih { v with state := t }
  | log e k ih => exact ih v
  | ask r k ih =>
    have harrival : (v.answered p r).clock.now = v.clock.now := by
      change v.clock.now + p.latency v.memory v.clock r = v.clock.now
      rw [hp, Nat.add_zero]
    exact (ih _ (v.answered p r)).trans harrival

/-- Answers at once, and lists a cache of the given name. -/
def cacheProvider (name : String) : Provider Unit :=
  .steady 0 fun r => match r with
    | .list .keyValueCache => .ok [⟨name, "cache.t4g.small", "redis"⟩]
    | .list _ => .ok []
    | .statistics _ => .ok []

/-- A refresh finds the cache if its name is that of the environment. -/
theorem exists_write_cacheProvider (w : Moment Unit Inventory) :
    ∃ x ∈ Inventory.refreshWrites (cacheProvider w.state.filter.environmentName) w,
      x.time = w.clock.now := by
  have hcontains : Text.contains w.state.filter.environmentName
      w.state.filter.environmentName = true := Text.contains_iff.mpr List.infix_rfl
  simp [Inventory.refreshWrites, Inventory.writes, Family.all, Moment.reply, Moment.answered,
    Moment.arrival, cacheProvider, Provider.steady, Family.deployed, Family.included,
    Family.admits, Family.placements, hcontains]

/-- It halts at any time whose deadlines the clock cannot show. -/
theorem not_ok_of_late {w : Moment Unit Collector} (hunset : w.state.latch.isSet = false)
    (hstale : w.state.inventory.needsRefresh w.clock.now = true)
    (hlate : Nanos.horizon ≤ w.clock.now + w.state.inventory.ttl)
    (x : Except Failure (List Resource)) :
    (resources.runFrom (cacheProvider w.state.inventory.filter.environmentName) w).result ≠
      .ok x := by
  intro h
  rw [resources, runFrom_guarded_of_unset hunset] at h
  obtain ⟨y, hy, -⟩ := Outcome.exists_of_andThen_ok h
  rw [runFrom_clock_bind, runFrom_state_bind, runFrom_bind] at hy
  obtain ⟨z, hz, -⟩ := Outcome.exists_of_andThen_ok hy
  rw [inInventory, runFrom_within isPart_inventory] at hz
  have hinventory : (Inventory.resources.runFrom _ (w.map (·.inventory))).result = .ok z := hz
  rw [Inventory.runFrom_resources_of_stale _ hstale] at hinventory
  obtain ⟨count, hcount, -⟩ := Outcome.exists_of_andThen_ok hinventory
  obtain ⟨row, hrow, htime⟩ := exists_write_cacheProvider (w.map (·.inventory))
  have hfits := Inventory.fits_of_refresh hcount row hrow
  rw [htime] at hfits
  exact Nat.not_lt.mpr hlate hfits

/-- The first listing of a collector. -/
def firstListing (s : Settings) (environment : String) (now : Nat) :
    Leg Unit Collector Operation :=
  ⟨.resources, ⟨(), ⟨now, ⟨0, 0⟩⟩, new s.collector environment⟩⟩

theorem mem_play_firstListing (p : Provider Unit) (s : Settings) (environment : String)
    (now : Nat) :
    firstListing s environment now ∈ play p Operation.program now (new s.collector environment)
      [⟨.resources, 0, ⟨0, 0⟩, ()⟩] :=
  List.mem_cons_self

theorem firstListing_not_ok {s : Settings} {now : Nat}
    (hlate : Nanos.horizon ≤ now + Nanos.ofSeconds s.scrapeIntervalSecs) (environment : String)
    (a : Answer) :
    (legOutcome (cacheProvider s.environmentLabel) Operation.program
      (firstListing s environment now)).result ≠ .ok a := by
  intro ha
  rw [legOutcome, firstListing, Operation.program, runFrom_bind] at ha
  obtain ⟨x, hx, -⟩ := Outcome.exists_of_andThen_ok ha
  let start : Moment Unit Collector := ⟨(), ⟨now, ⟨0, 0⟩⟩, new s.collector environment⟩
  have httl : start.state.inventory.ttl = Nanos.ofSeconds s.scrapeIntervalSecs := rfl
  have hstart : Nanos.horizon ≤ start.clock.now + start.state.inventory.ttl := by
    rw [httl]
    exact hlate
  exact not_ok_of_late rfl rfl hstart x hx

/-! ### Sessions -/

/-- No session halts up to a time if and only if the clock can show the deadlines asked for at that
time. Only an interval of zero is not accepted, so that is not so for every accepted interval. -/
theorem session_ok_iff {values : List (String × Json)} {s : Settings}
    (hs : Settings.ofValues values = .ok s) (environment : String) (limit : Nat) :
    (0 < s.scrapeIntervalSecs ∧ s.scrapeIntervalSecs < UInt64.size) ∧
      ((∀ (π : Type) (p : Provider π) (now : Nat) (turns : List (Turn π Operation)),
        ∀ l ∈ play p Operation.program now (new s.collector environment) turns,
          (legOutcome p Operation.program l).clock.now ≤ limit →
            ∃ a, (legOutcome p Operation.program l).result = .ok a) ↔
        limit + Nanos.ofSeconds s.scrapeIntervalSecs < Nanos.horizon) := by
  refine ⟨Settings.scrapeInterval_of_ofValues hs, ?_, ?_⟩
  · intro hok
    by_contra hlate
    let provider := cacheProvider s.environmentLabel
    let l := firstListing s environment limit
    have hinstant : ∀ m c r, provider.latency m c r = 0 := fun _ _ _ => rfl
    have hnow : (legOutcome provider Operation.program l).clock.now ≤ limit := by
      rw [legOutcome, now_runFrom_of_instant hinstant]
      exact Nat.le_refl limit
    have hl := mem_play_firstListing provider s environment limit
    obtain ⟨a, ha⟩ := hok Unit provider limit _ l hl hnow
    exact firstListing_not_ok (Nat.not_lt.mp hlate) environment a ha
  · intro hfits π p now turns l hl hlimit
    cases h : (legOutcome p Operation.program l).result with
    | ok a => exact ⟨a, rfl⟩
    | error e =>
      have hlate := late_of_halted hl h
      have httl : s.collector.scrapeInterval = Nanos.ofSeconds s.scrapeIntervalSecs := rfl
      omega

def tenMinutes : Settings := { Settings.default with scrapeIntervalSecs := 600 }

theorem ofValues_tenMinutes :
    Settings.ofValues [("scrape_interval_secs", .string "600")] = .ok tenMinutes := by
  decide +kernel

/-- With rows and figures that are kept for ten minutes no operation halts for a thousand years. -/
theorem session_ok_tenMinutes :
    Settings.ofValues [("scrape_interval_secs", .string "600")] = .ok tenMinutes ∧
      ∀ (π : Type) (p : Provider π) (now : Nat) (turns : List (Turn π Operation)),
        ∀ l ∈ play p Operation.program now (new tenMinutes.collector "dev") turns,
          (legOutcome p Operation.program l).clock.now ≤ Nanos.ofSeconds 31557600000 →
            ∃ a, (legOutcome p Operation.program l).result = .ok a := by
  obtain ⟨-, hiff⟩ := session_ok_iff ofValues_tenMinutes "dev" (Nanos.ofSeconds 31557600000)
  have hfits : Nanos.ofSeconds 31557600000 + Nanos.ofSeconds tenMinutes.scrapeIntervalSecs <
      Nanos.horizon := by decide
  exact ⟨ofValues_tenMinutes, hiff.mpr hfits⟩

/-! ### The longest interval -/

def longestValues : List (String × Json) :=
  [("customer_name", .string "acme"), ("project_name", .string "justice"),
    ("environment_name", .string "dev"), ("scrape_interval_secs", .string "18446744073709551615")]

def longest : Settings :=
  { Settings.default with
    customerName := "acme"
    projectName := "justice"
    environmentName := "dev"
    scrapeIntervalSecs := 18446744073709551615 }

theorem ofValues_longest : Settings.ofValues longestValues = .ok longest := by decide +kernel

/-- The settings are accepted, and the first row halts. -/
theorem exists_halt_of_accepted :
    ¬ ∀ (values : List (String × Json)) (s : Settings), Settings.ofValues values = .ok s →
      ∀ (environment : String) (p : Provider Unit) (now : Nat) (turns : List (Turn Unit Operation)),
        ∀ l ∈ play p Operation.program now (new s.collector environment) turns,
          ∃ a, (legOutcome p Operation.program l).result = .ok a := by
  intro h
  have hl := mem_play_firstListing (cacheProvider longest.environmentLabel) longest "dev" 0
  obtain ⟨a, ha⟩ := h longestValues longest ofValues_longest "dev" _ 0 _ _ hl
  have hlate : Nanos.horizon ≤ 0 + Nanos.ofSeconds longest.scrapeIntervalSecs := by decide
  exact firstListing_not_ok hlate "dev" a ha

end Collector
end PeakUsage
