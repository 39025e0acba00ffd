import Mathlib.Data.List.Forall2
import PeakUsage.Proofs.Chains

/-! Two runs side by side. Programs that make no difference between states that are alike do the
same on both, and go on doing so when programs that leave the states alike are taken out of one
run. -/
namespace PeakUsage
variable {π σ α β : Type}

/-- Moments of which only the states differ, and these are alike. -/
structure Moment.Alike (E : Nat → σ → σ → Prop) (w v : Moment π σ) : Prop where
  memory_eq : v.memory = w.memory
  clock_eq : v.clock = w.clock
  state : E w.clock.now w.state v.state

namespace Program
variable {p : Provider π} {E : Nat → σ → σ → Prop}

/-! ### One program -/

/-- Runs with the same result, the same to see from outside, that leave moments which are alike. -/
structure Outcome.Alike (E : Nat → σ → σ → Prop) (o u : Outcome π σ α) : Prop where
  result_eq : u.result = o.result
  trace_eq : u.trace = o.trace
  moment : o.moment.Alike E u.moment

/-- From moments that are alike the program runs alike. -/
def Respects (p : Provider π) (E : Nat → σ → σ → Prop) (q : Program σ α) : Prop :=
  ∀ w v : Moment π σ, w.Alike E v → (q.runFrom p w).Alike E (q.runFrom p v)

theorem Outcome.Alike.andThen {o u : Outcome π σ α} (h : o.Alike E u)
    {next : α → Moment π σ → Outcome π σ β}
    (hnext : ∀ a w v, w.Alike E v → (next a w).Alike E (next a v)) :
    (o.andThen next).Alike E (u.andThen next) := by
  cases hr : o.result with
  | error f =>
    have hu : u.result = .error f := h.result_eq.trans hr
    rw [Outcome.andThen, Outcome.andThen, hr, hu]
    exact ⟨rfl, h.trace_eq, h.moment⟩
  | ok a =>
    have hu : u.result = .ok a := h.result_eq.trans hr
    have hrest := hnext a _ _ h.moment
    rw [Outcome.andThen_eq_of_ok hr, Outcome.andThen_eq_of_ok hu]
    refine ⟨hrest.result_eq, ?_, hrest.moment⟩
    rw [Outcome.after_trace, Outcome.after_trace, h.trace_eq, hrest.trace_eq]

theorem Respects.bind {q : Program σ α} {f : α → Program σ β} (hq : q.Respects p E)
    (hf : ∀ a, (f a).Respects p E) : (q >>= f).Respects p E := by
  intro w v h
  rw [runFrom_bind, runFrom_bind]
  exact (hq w v h).andThen fun a => hf a

theorem respects_pure (a : α) : (pure a : Program σ α).Respects p E :=
  fun _ _ h => ⟨rfl, rfl, h⟩

theorem respects_request (hE : ∀ t, Lasting fun now s => E now s t) (r : Request) :
    (request r : Program σ (Reply r)).Respects p E := by
  rintro ⟨m, c, s⟩ ⟨m', c', t⟩ ⟨hmemory, hclock, hst⟩
  obtain rfl : m' = m := hmemory
  obtain rfl : c' = c := hclock
  exact ⟨rfl, rfl, rfl, rfl, hE t _ _ s (Nat.le_add_right ..) hst⟩

theorem respects_each {f : β → Program σ α} {bs : List β}
    (h : ∀ b ∈ bs, (f b).Respects p E) : (each f bs).Respects p E := by
  induction bs with
  | nil => exact respects_pure []
  | cons b rest ih =>
    have hrest := ih fun c hc => h c (List.mem_cons_of_mem b hc)
    exact (h b List.mem_cons_self).bind fun _ => hrest.bind fun _ => respects_pure _

/-! ### Sessions -/

variable {f : β → Program σ α}

/-- The same programs, each at its own time and with the provider as it was then, but on the states
that they leave one another. -/
def rerun (p : Provider π) (f : β → Program σ α) : σ → List (Leg π σ β) → List (Leg π σ β)
  | _, [] => []
  | s, l :: rest =>
    let m : Leg π σ β := ⟨l.item, { l.start with state := s }⟩
    m :: rerun p f (legOutcome p f m).state rest

/-- Two runs of one program from moments that are alike, which run alike. -/
structure Twins (p : Provider π) (f : β → Program σ α) (E : Nat → σ → σ → Prop)
    (l m : Leg π σ β) : Prop where
  item_eq : m.item = l.item
  start : l.start.Alike E m.start
  outcome : (legOutcome p f l).Alike E (legOutcome p f m)

/-- When the programs that leave the states alike are taken out of a chain of runs, the others run
as they did. -/
theorem Chain.rerun_filter (hE : ∀ t, Lasting fun now s => E now s t) {keep : β → Bool}
    {now later : Nat} {s s' : σ} {legs : List (Leg π σ β)}
    (hkept : ∀ l ∈ legs, keep l.item = true → (f l.item).Respects p E)
    (hskipped : ∀ l ∈ legs, keep l.item = false → ∀ t, E l.start.clock.now l.start.state t →
      E (legOutcome p f l).clock.now (legOutcome p f l).state t)
    (h : Chain p f now s legs later s') (t : σ) (hst : E now s t) :
    let kept := legs.filter fun l => keep l.item
    List.Forall₂ (Twins p f E) kept (rerun p f t kept) ∧
      ∃ t', Chain p f now t (rerun p f t kept) later t' ∧ E later s' t' := by
  induction h generalizing t with
  | nil h => exact ⟨.nil, t, .nil h, hE t _ _ _ h hst⟩
  | @cons now later s' l rest h hrest ih =>
    have hstart : E l.start.clock.now l.start.state t := hE t _ _ _ h hst
    have hmem : l ∈ l :: rest := List.mem_cons_self
    have hnext := ih (fun m hm => hkept m (List.mem_cons_of_mem l hm))
      fun m hm => hskipped m (List.mem_cons_of_mem l hm)
    cases hkeep : keep l.item with
    | false =>
      -- only the longer chain moves, and what it moves to is still like `t`
      rw [List.filter_cons_of_neg (by simp [hkeep])]
      obtain ⟨hall, t', hchain, hend⟩ := hnext t (hskipped l hmem hkeep t hstart)
      exact ⟨hall, t', hchain.earlier (Nat.le_trans h (now_le_runFrom p l.start _)), hend⟩
    | true =>
      -- both move together, so they come out at the same time
      let m : Leg π σ β := ⟨l.item, { l.start with state := t }⟩
      have hmoment : l.start.Alike E m.start := ⟨rfl, rfl, hstart⟩
      have hpair : (legOutcome p f l).Alike E (legOutcome p f m) :=
        hkept l hmem hkeep l.start m.start hmoment
      obtain ⟨hall, t', hchain, hend⟩ := hnext _ hpair.moment.state
      have hclock : (legOutcome p f m).clock = (legOutcome p f l).clock := hpair.moment.clock_eq
      rw [← hclock] at hchain
      rw [List.filter_cons_of_pos (p := fun l : Leg π σ β => keep l.item) hkeep]
      exact ⟨.cons ⟨rfl, hmoment, hpair⟩ hall, t', .cons (l := m) h hchain, hend⟩

end Program
end PeakUsage
