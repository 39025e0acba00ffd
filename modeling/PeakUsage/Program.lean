import PeakUsage.Event
import PeakUsage.Provider

/-! Programs over a state that read the clock, write to the log and wait for a provider. -/
namespace PeakUsage

/-- A program over the state `σ` with result `α`. While it waits for an answer the state belongs to
whoever else runs. -/
inductive Program (σ α : Type) where
  | done (a : α)
  /-- Stops for good; what was saved before stays. -/
  | halt (f : ClockFault)
  | look (next : Clock → σ → Program σ α)
  | save (s : σ) (next : Program σ α)
  | log (e : LogEntry) (next : Program σ α)
  | ask (r : Request) (next : Reply r → Program σ α)

namespace Program
variable {σ τ α β π : Type}

protected def bind : Program σ α → (α → Program σ β) → Program σ β
  | done a, f => f a
  | halt e, _ => halt e
  | look k, f => look fun c s => (k c s).bind f
  | save s k, f => save s (k.bind f)
  | log e k, f => log e (k.bind f)
  | ask r k, f => ask r fun x => (k x).bind f

instance : Monad (Program σ) where
  pure := done
  bind := Program.bind

def state : Program σ σ := look fun _ s => done s

def modify (f : σ → σ) : Program σ Unit := look fun _ s => save (f s) (done ())

def clock : Program σ Clock := look fun c _ => done c

def emit (e : LogEntry) : Program σ Unit := log e (done ())

/-- Waits for the provider's answer. -/
def request (r : Request) : Program σ (Reply r) := ask r done

/-- Runs one program per item, in order. -/
def each (f : α → Program σ β) : List α → Program σ (List β)
  | [] => done []
  | a :: rest => do
    let b ← f a
    let bs ← each f rest
    pure (b :: bs)

/-- A program over a part of the state. -/
def within (get : σ → τ) (put : τ → σ → σ) : Program τ α → Program σ α
  | done a => done a
  | halt e => halt e
  | look k => look fun c s => within get put (k c (get s))
  | save t k => look fun _ s => save (put t s) (within get put k)
  | log e k => log e (within get put k)
  | ask r k => ask r fun x => within get put (k x)

/-! ### Running to the end -/

/-- One thing the rest of the world sees of a run. -/
inductive Happening where
  | asked (r : Request)
  | answered (r : Request) (reply : Reply r)
  | logged (e : LogEntry)

structure Outcome (π σ α : Type) where
  result : Except ClockFault α
  state : σ
  clock : Clock
  memory : π
  trace : List Happening

/-- Runs a program against a provider. The clock moves while an answer is awaited, and only then. -/
def run (p : Provider π) : Program σ α → π → Clock → σ → Outcome π σ α
  | done a, m, c, s => ⟨.ok a, s, c, m, []⟩
  | halt e, m, c, s => ⟨.error e, s, c, m, []⟩
  | look k, m, c, s => run p (k c s) m c s
  | save s k, m, c, _ => run p k m c s
  | log e k, m, c, s =>
    let o := run p k m c s
    { o with trace := .logged e :: o.trace }
  | ask r k, m, c, s =>
    let c := c.advance (p.latency m c r)
    let (reply, m) := p.answer m c r
    let o := run p (k reply) m c s
    { o with trace := .asked r :: .answered r reply :: o.trace }

/-! ### Running for a time -/

/-- How far a program got. -/
inductive Progress (σ α : Type) where
  | finished (a : α)
  | halted (f : ClockFault)
  /-- The answer to `r` arrives at `due`. -/
  | waiting (due : Nat) (r : Request) (next : Reply r → Program σ α)

structure Stretch (π σ α : Type) where
  progress : Progress σ α
  state : σ
  clock : Clock
  memory : π
  trace : List Happening

/-- Runs a program up to its end or to an answer that arrives after `limit`. -/
def runUntil (p : Provider π) (limit : Nat) :
    Program σ α → π → Clock → σ → Stretch π σ α
  | done a, m, c, s => ⟨.finished a, s, c, m, []⟩
  | halt e, m, c, s => ⟨.halted e, s, c, m, []⟩
  | look k, m, c, s => runUntil p limit (k c s) m c s
  | save s k, m, c, _ => runUntil p limit k m c s
  | log e k, m, c, s =>
    let o := runUntil p limit k m c s
    { o with trace := .logged e :: o.trace }
  | ask r k, m, c, s =>
    let d := p.latency m c r
    if c.now + d ≤ limit then
      let c := c.advance d
      let (reply, m) := p.answer m c r
      let o := runUntil p limit (k reply) m c s
      { o with trace := .asked r :: .answered r reply :: o.trace }
    else ⟨.waiting (c.now + d) r k, s, c, m, [.asked r]⟩

/-- Goes on with a program that was waiting, if its answer arrives by `limit`. -/
def Progress.resume (p : Provider π) (limit : Nat) (g : Progress σ α) (m : π) (c : Clock)
    (s : σ) : Stretch π σ α :=
  match g with
  | .finished a => ⟨.finished a, s, c, m, []⟩
  | .halted e => ⟨.halted e, s, c, m, []⟩
  | .waiting due r k =>
    if due ≤ limit then
      let c := c.advance (due - c.now)
      let (reply, m) := p.answer m c r
      let o := runUntil p limit (k reply) m c s
      { o with trace := .answered r reply :: o.trace }
    else ⟨.waiting due r k, s, c, m, []⟩

end Program
end PeakUsage
