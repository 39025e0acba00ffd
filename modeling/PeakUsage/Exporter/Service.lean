import PeakUsage.Exporter

/-! The exporter's loop: one scrape per tick, until it is told to stop. -/
namespace PeakUsage

namespace Schedule

/-- How late a tick may be served and still count as on time. -/
def grace : Nat := 5000000

/-- When the tick after the one that was due at `due` and served at `now` is due. A late one moves
all those after it, so that none is made up for. -/
def next (s : Schedule) (due now : Nat) : Nat :=
  if due + grace < now then now + s.tick else due + s.tick

theorem lt_next (s : Schedule) (due now : Nat) : due < s.next due now := by
  have := s.tick_pos
  unfold next
  split <;> omega

end Schedule

/-- How far the loop is. -/
inductive Service.Phase where
  /-- Set up and not handed over yet. -/
  | built
  /-- Handed over, with no time given to it yet. -/
  | starting
  /-- Waiting for the tick that is due. -/
  | waiting (due : Nat)
  /-- In the middle of a scrape; the next tick is due at `due`. -/
  | scraping (due : Nat) (progress : Program.Progress Exporter Report)
  /-- Given up for good. -/
  | broken
  | stopped

namespace Service

structure Run (π : Type) where
  phase : Phase
  exporter : Exporter
  clock : Clock
  memory : π
  trace : List Program.Happening

/-- The version told to the log. -/
def version : String := "0.1.0"

/-- Logs the start, and registers the components. -/
def opening : Program Exporter Unit := do
  Exporter.note (.started version)
  let c ← Program.clock
  Program.modify fun s =>
    let h := [Health.inventory, Health.metricSource, Health.fetchLatch].foldl
      (fun h name => h.setHealthy c.wall.second name) s.outlets.health
    { s with outlets := { s.outlets with health := h } }

def closing : Program Exporter Unit := Exporter.note (.shutdown "shutdown signal received")

/-- The clock at `t`, if it is not past it. -/
def moveTo (c : Clock) (t : Nat) : Clock := c.advance (t - c.now)

def Run.after {π : Type} (r : Run π) (trace : List Program.Happening) : Run π :=
  { r with trace := trace ++ r.trace }

variable {π : Type}

/-- Serves every tick that is due by `limit`. -/
def serve (p : Provider π) (s : Schedule) (limit : Nat) (due : Nat) (m : π) (c : Clock)
    (x : Exporter) : Run π :=
  if _h : due ≤ limit then
    let c := moveTo c due
    let due' := s.next due c.now
    let g := Program.runUntil p limit Exporter.cycle m c x
    match g.progress with
    | .finished _ => (serve p s limit due' g.memory g.clock g.state).after g.trace
    | .halted _ => ⟨.broken, g.state, g.clock, g.memory, g.trace⟩
    | .waiting .. => ⟨.scraping due' g.progress, g.state, g.clock, g.memory, g.trace⟩
  else ⟨.waiting due, x, c, m, []⟩
termination_by limit + 1 - due
decreasing_by exact Nat.sub_lt_sub_left (Nat.lt_succ_of_le _h) (s.lt_next due _)

/-- Lets the loop run up to `limit`. -/
def advance (p : Provider π) (s : Schedule) (limit : Nat) (phase : Phase) (m : π) (c : Clock)
    (x : Exporter) : Run π :=
  let r : Run π :=
    match phase with
    | .starting =>
      let o := Program.run p opening m c x
      (serve p s limit o.clock.now o.memory o.clock o.state).after o.trace
    | .waiting due => serve p s limit due m c x
    | .scraping due progress =>
      let g := progress.resume p limit m c x
      match g.progress with
      | .finished _ => (serve p s limit due g.memory g.clock g.state).after g.trace
      | .halted _ => ⟨.broken, g.state, g.clock, g.memory, g.trace⟩
      | .waiting .. => ⟨.scraping due g.progress, g.state, g.clock, g.memory, g.trace⟩
    | phase => ⟨phase, x, c, m, []⟩
  { r with clock := moveTo r.clock limit }

/-- Ends a running loop: a scrape that is under way is finished first. -/
def stop (p : Provider π) (phase : Phase) (m : π) (c : Clock) (x : Exporter) : Run π :=
  let close (o : Program.Outcome π Exporter Unit) : Run π :=
    ⟨.stopped, o.state, o.clock, o.memory, o.trace⟩
  match phase with
  | .starting => close (Program.run p (do opening; closing) m c x)
  | .waiting _ => close (Program.run p closing m c x)
  | .scraping _ (.waiting due r k) =>
    let c := moveTo c due
    let (reply, m) := p.answer m c r
    let o := Program.run p (do let _ ← k reply; closing) m c x
    (close o).after [.answered r reply]
  | _ => ⟨.stopped, x, c, m, []⟩

/-- Whether the loop was handed over and has not been told to stop. -/
def Phase.isRunning : Phase → Bool
  | .starting | .waiting _ | .scraping .. | .broken => true
  | .built | .stopped => false

end Service
end PeakUsage
