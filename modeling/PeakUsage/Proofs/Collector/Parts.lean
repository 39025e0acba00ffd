import PeakUsage.Proofs.Collector.Refusals
import PeakUsage.Proofs.Inventory.Listing
import PeakUsage.Proofs.Peaks.Hits

/-! What operations of a collector do to its parts: a listing runs the inventory and leaves the
figures alone, a lookup the other way round. -/
namespace PeakUsage.Collector
open Program

variable {π α : Type}

/-! ### Single operations -/

section
variable (p : Provider π) (w : Moment π Collector)

/-- A guarded program is refused, or it leaves what it leaves by itself, apart from the latch. -/
theorem moment_guarded (q : Program Collector (Except Failure α)) :
    let o := (guarded q).runFrom p w
    (w.state.latch.isSet = true ∧ o.moment = w) ∨ (w.state.latch.isSet = false ∧
      ∃ latch, o.moment = (q.runFrom p w).moment.map fun s => { s with latch := latch }) := by
  intro o
  cases hset : w.state.latch.isSet with
  | true => exact .inl ⟨rfl, congrArg Outcome.moment (runFrom_guarded_of_set hset)⟩
  | false =>
    refine .inr ⟨rfl, ?_⟩
    rw [show o = _ from runFrom_guarded_of_unset hset]
    cases hx : (q.runFrom p w).result with
    | error f =>
      rw [Outcome.andThen, hx]
      exact ⟨_, rfl⟩
    | ok x =>
      rw [Outcome.andThen_eq_of_ok hx]
      cases x with
      | ok a => exact ⟨_, rfl⟩
      | error e => exact ⟨_, rfl⟩

/-- A listing is refused, or it runs the inventory. -/
theorem moment_resources :
    let o := Inventory.resources.runFrom p (w.map (·.inventory))
    (w.state.latch.isSet = true ∧ (resources.runFrom p w).moment = w) ∨
      (w.state.latch.isSet = false ∧ ∃ latch, (resources.runFrom p w).moment =
        ⟨o.memory, o.clock, { w.state with inventory := o.state, latch := latch }⟩) := by
  intro o
  rcases moment_guarded p w _ with h | ⟨hunset, latch, h⟩
  · exact .inl h
  · refine .inr ⟨hunset, latch, h.trans ?_⟩
    rw [runFrom_clock_bind, runFrom_state_bind, runFrom_bind, inInventory,
      runFrom_within isPart_inventory]
    cases hx : (Inventory.resources.runFrom p (w.map (·.inventory))).result with
    | error f => rfl
    | ok x =>
      cases x with
      | error e => rfl
      | ok rs =>
        rw [Outcome.andThen_eq_of_ok rfl]
        dsimp only
        split <;> rfl

/-- The call a lookup makes to the figures. -/
def Lookup.call (q : Lookup) : Peaks.Call :=
  match q.figure with
  | .cpu => .cpu q.key q.resource
  | .memory => .memory q.key q.resource

theorem Lookup.program_eq (q : Lookup) : q.program = guarded (inPeaks q.call.program) := by
  obtain ⟨figure, key, r⟩ := q
  cases figure <;> rfl

theorem Lookup.logs (q : Lookup) {S : LogEntry → Prop} : q.call.program.Logs S := by
  obtain ⟨figure, key, r⟩ := q
  cases figure with
  | cpu => exact Peaks.cpu_logs key r
  | memory => exact Peaks.memory_logs key r

theorem moment_inPeaks (q : Program Peaks α) :
    let o := q.runFrom p (w.map (·.peaks))
    ((inPeaks q).runFrom p w).moment = ⟨o.memory, o.clock, { w.state with peaks := o.state }⟩ := by
  rw [inPeaks, runFrom_within isPart_peaks]
  rfl

/-- A lookup is refused, or it runs the figures. -/
theorem moment_lookup (q : Lookup) :
    let o := q.call.program.runFrom p (w.map (·.peaks))
    (w.state.latch.isSet = true ∧ (q.program.runFrom p w).moment = w) ∨
      (w.state.latch.isSet = false ∧ ∃ latch, (q.program.runFrom p w).moment =
        ⟨o.memory, o.clock, { w.state with peaks := o.state, latch := latch }⟩) := by
  intro o
  rw [Lookup.program_eq]
  rcases moment_guarded p w (inPeaks q.call.program) with h | ⟨hunset, latch, h⟩
  · exact .inl h
  · refine .inr ⟨hunset, latch, h.trans ?_⟩
    rw [moment_inPeaks]
    rfl

end

/-! ### What every operation keeps -/

variable {p : Provider π} {w : Moment π Collector}

/-- A lookup keeps what all lookups of figures keep. -/
theorem lookup_peaks {I : Nat → Peaks → Prop} (hI : Peaks.Steady p I) (q : Lookup)
    (hw : I w.clock.now w.state.peaks) :
    I (q.program.runFrom p w).clock.now (q.program.runFrom p w).state.peaks := by
  change I (q.program.runFrom p w).moment.clock.now (q.program.runFrom p w).moment.state.peaks
  rcases moment_lookup p w q with ⟨-, h⟩ | ⟨-, latch, h⟩ <;> rw [h]
  · exact hw
  · exact hI.call (c := ⟨q.call, w.map fun s : Collector => s.peaks⟩) hw

/-- It leaves the inventory alone. -/
theorem lookup_inventory (p : Provider π) (w : Moment π Collector) (q : Lookup) :
    (q.program.runFrom p w).state.inventory = w.state.inventory := by
  change (q.program.runFrom p w).moment.state.inventory = _
  rcases moment_lookup p w q with ⟨-, h⟩ | ⟨-, latch, h⟩ <;> rw [h]

/-- What listings and lookups keep is kept by every operation. -/
theorem operation_of_questions {I : Nat → Collector → Prop} (hlasting : Lasting I)
    (hresources : ∀ v : Moment π Collector, I v.clock.now v.state →
      I (resources.runFrom p v).clock.now (resources.runFrom p v).state)
    (hlookup : ∀ (q : Lookup) (v : Moment π Collector), I v.clock.now v.state →
      I (q.program.runFrom p v).clock.now (q.program.runFrom p v).state)
    (hw : I w.clock.now w.state) (op : Operation) :
    I (op.program.runFrom p w).clock.now (op.program.runFrom p w).state := by
  refine (chain_gets p ⟨op, w⟩).keeps hlasting (fun m hm hstart => ?_) hw
  obtain ⟨get, v⟩ := m
  rw [legOutcome]
  cases get with
  | resources =>
    rw [Operation.program, runFrom_bind_pure]
    exact hresources v hstart
  | lookup q =>
    rw [Operation.program, runFrom_bind_pure]
    exact hlookup q v hstart
  | scrape => exact (isGet_of_mem_gets hm).elim

/-- A listing keeps what a look at the resources keeps. -/
theorem resources_inventory {I : Inventory → Prop}
    (hI : ∀ v : Moment π Inventory, I v.state → I (Inventory.resources.runFrom p v).state)
    (hw : I w.state.inventory) : I (resources.runFrom p w).state.inventory := by
  change I (resources.runFrom p w).moment.state.inventory
  rcases moment_resources p w with ⟨-, h⟩ | ⟨-, latch, h⟩ <;> rw [h]
  · exact hw
  · exact hI (w.map fun s : Collector => s.inventory) hw

/-- It leaves the figures alone. -/
theorem resources_peaks (p : Provider π) (w : Moment π Collector) :
    (resources.runFrom p w).state.peaks = w.state.peaks := by
  change (resources.runFrom p w).moment.state.peaks = _
  rcases moment_resources p w with ⟨-, h⟩ | ⟨-, latch, h⟩ <;> rw [h]

/-- What looks at the resources keep is there when any operation of a session starts. -/
theorem inventory_of_play {I : Inventory → Prop}
    (hI : ∀ v : Moment π Inventory, I v.state → I (Inventory.resources.runFrom p v).state)
    {now : Nat} {s : Collector} {turns : List (Turn π Operation)} (hs : I s.inventory) :
    ∀ l ∈ play p Operation.program now s turns, I l.start.state.inventory := by
  refine play_start_keeps p Operation.program (I := fun s : Collector => I s.inventory)
    (fun op v hv => ?_) now s turns hs
  refine operation_of_questions (I := fun _ s => I s.inventory) (fun _ _ _ _ hs => hs) ?_ ?_ hv op
  · exact fun u hu => resources_inventory hI hu
  · intro q u hu
    rw [lookup_inventory]
    exact hu

/-- Inventory and figures are dated, and every row is kept under its own key. -/
structure Dated (now : Nat) (s : Collector) : Prop where
  rows : Inventory.Dated now s.inventory
  keyed : s.inventory.Keyed
  figures : Peaks.Dated now s.peaks

theorem dated_new (settings : CollectorSettings) (environment : String) (now : Nat) :
    Dated now (new settings environment) :=
  ⟨Expiring.bounded_empty _, Inventory.keyed_new _ _, Peaks.dated_new _ _ _⟩

theorem lasting_dated : Lasting Dated := fun _ _ _ hle hs =>
  ⟨Inventory.lasting_dated _ _ _ hle hs.rows, hs.keyed, Peaks.lasting_dated _ _ _ hle hs.figures⟩

namespace Dated

theorem resources (hw : Dated w.clock.now w.state) :
    Dated (resources.runFrom p w).clock.now (resources.runFrom p w).state := by
  have hnow := now_le_runFrom p (w.map (·.inventory)) Inventory.resources
  change Dated (Collector.resources.runFrom p w).moment.clock.now
    (Collector.resources.runFrom p w).moment.state
  rcases moment_resources p w with ⟨-, h⟩ | ⟨-, latch, h⟩ <;> rw [h]
  · exact hw
  · have hlater := lasting_dated _ _ _ hnow hw
    refine ⟨?_, ?_, hlater.figures⟩
    · exact Steps.runFrom Inventory.lasting_dated (fun _ _ _ => Inventory.Dated.step) p
        (Inventory.resources_steps _ _) hw.rows
    · exact (Inventory.resources_keeps Inventory.stable_keyed).runFrom p hw.keyed

theorem lookup (hw : Dated w.clock.now w.state) (q : Lookup) :
    Dated (q.program.runFrom p w).clock.now (q.program.runFrom p w).state := by
  have hlater := lasting_dated _ _ _ (now_le_runFrom p w q.program) hw
  refine ⟨?_, ?_, lookup_peaks (Peaks.steady_dated p) q hw.figures⟩
  · rw [lookup_inventory]
    exact hlater.rows
  · rw [lookup_inventory]
    exact hw.keyed

theorem operation (hw : Dated w.clock.now w.state) (op : Operation) :
    Dated (op.program.runFrom p w).clock.now (op.program.runFrom p w).state :=
  operation_of_questions lasting_dated (fun _ hv => hv.resources) (fun q _ hv => hv.lookup q) hw op

end Dated

/-- Whatever was done with a collector before, it is dated. -/
theorem dated_ending (settings : CollectorSettings) (environment : String) (p : Provider π)
    (now : Nat) (turns : List (Turn π Operation)) :
    let e := ending p Operation.program now (new settings environment) turns
    Dated e.1 e.2 :=
  (chain_play p Operation.program now (new settings environment) turns).keeps lasting_dated
    (fun l _ hl => Dated.operation hl l.item) (dated_new settings environment now)

end PeakUsage.Collector
