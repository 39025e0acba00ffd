import PeakUsage.Proofs.Collector.Parts

/-! The setting of the latch is logged when it happens, and at no other time: the number of such lines
and the latch at the start add up to the latch at the end. -/
namespace PeakUsage.Collector
open Program

variable {π α β : Type} {p : Provider π}

theorem eq_fetchLatched_of_name {e : Event} (h : e.name = "fetch_disabled") :
    ∃ cause, e = .fetchLatched cause := by
  cases e <;> simp [Event.name] at h ⊢

/-- The latch is set where the log says so, and nowhere else. -/
def Balanced (p : Provider π) (q : Program Collector α) : Prop :=
  ∀ w : Moment π Collector,
    (named "fetch_disabled" (events (q.runFrom p w).trace)).length + w.state.latch.isSet.toNat =
      (q.runFrom p w).state.latch.isSet.toNat

theorem balanced_done (p : Provider π) (a : α) : Balanced p (done a) := fun _ => Nat.zero_add _

theorem balanced_look {k : Clock → Collector → Program Collector α}
    (h : ∀ c s, Balanced p (k c s)) : Balanced p (look k) := fun w => h _ _ w

theorem Balanced.bind {q : Program Collector α} {f : α → Program Collector β}
    (hq : Balanced p q) (hf : ∀ a, Balanced p (f a)) : Balanced p (q >>= f) := by
  intro w
  have hfirst := hq w
  rw [runFrom_bind]
  cases hx : (q.runFrom p w).result with
  | error e =>
    rw [Outcome.andThen, hx]
    exact hfirst
  | ok a =>
    have hrest := hf a (q.runFrom p w).moment
    rw [Outcome.moment_state] at hrest
    rw [Outcome.andThen_eq_of_ok hx, Outcome.after_trace, Outcome.after_state, events_append,
      named_append, List.length_append]
    omega

theorem Plain.balanced {q : Program Collector α} (hq : Plain q) : Balanced p q := by
  intro w
  have hnone : named "fetch_disabled" (events (q.runFrom p w).trace) = [] := by
    refine named_eq_nil fun e he hname => ?_
    obtain ⟨entry, hentry, rfl⟩ := exists_of_mem_events he
    obtain ⟨cause, hcause⟩ := eq_fetchLatched_of_name hname
    exact hq.logs.runFrom p w entry hentry cause hcause
  rw [hnone, (hq.latch_eq p w).1]
  exact Nat.zero_add _

theorem balanced_note {e : Event} (he : e.name ≠ "fetch_disabled") : Balanced p (note e) := by
  intro w
  have hnone : named "fetch_disabled" (events ((note e).runFrom p w).trace) = [] :=
    named_eq_nil fun x hx => by rwa [List.mem_singleton.mp hx]
  rw [hnone]
  exact Nat.zero_add _

theorem balanced_observe (p : Provider π) (e : Failure) : Balanced p (observe e) := by
  intro w
  rw [runFrom_observe]
  cases hset : w.state.latch.isSet <;> cases hauth : e.isAuth <;>
    simp only [Latch.trips, watched, Latch.after, hset, hauth] <;> rfl

theorem balanced_guarded {q : Program Collector (Except Failure α)} (hq : Balanced p q) :
    Balanced p (guarded q) := by
  refine balanced_look fun _ s => ?_
  change Balanced p (if s.latch.isSet then _ else _)
  split
  · exact (balanced_note (by simp [Event.name])).bind fun _ => balanced_done p _
  · refine hq.bind fun x => ?_
    cases x with
    | ok a => exact balanced_done p _
    | error e => exact (balanced_observe p e).bind fun _ => balanced_done p _

theorem balanced_resources (p : Provider π) : Balanced p resources :=
  balanced_guarded plain_listing.balanced

theorem balanced_lookup (p : Provider π) (q : Lookup) : Balanced p q.program := by
  rw [Lookup.program_eq]
  exact balanced_guarded (plain_inPeaks fun _ => q.logs).balanced

theorem balanced_record (p : Provider π) (rep : Report) (r : Resource) (figure : Figure)
    (x : Except Failure Float) : Balanced p (record rep r figure x) := by
  cases x with
  | ok v => exact balanced_done p _
  | error e =>
    cases h : e.partialPeak with
    | some v =>
      simp only [record, h]
      exact (balanced_note (by simp [Event.name])).bind fun _ => balanced_done p _
    | none =>
      simp only [record, h]
      split
      · exact (balanced_note (by simp [Event.name])).bind fun _ => balanced_done p _
      · exact balanced_done p _

theorem balanced_visit (p : Provider π) (rep : Report) (r : Resource) :
    Balanced p (visit rep r) := by
  rw [visit_eq]
  refine ((balanced_lookup p _).bind fun x => balanced_record p rep r .cpu x).bind fun x => ?_
  rw [visitMemory]
  split
  · exact ((balanced_lookup p _).bind fun y => balanced_record p x.1 r .memory y).bind fun _ =>
      balanced_done p _
  · exact balanced_done p _

theorem balanced_visitAll (p : Provider π) (rep : Report) (rs : List Resource) :
    Balanced p (visitAll rep rs) := by
  induction rs generalizing rep with
  | nil => exact balanced_done p _
  | cons r rest ih =>
    refine balanced_look fun _ s => ?_
    change Balanced p (if s.latch.isSet then _ else _)
    split
    · exact balanced_done p _
    · exact (balanced_visit p rep r).bind fun rep => ih rep

theorem balanced_scrape (p : Provider π) : Balanced p scrape := by
  refine balanced_look fun _ _ => (balanced_resources p).bind fun x => ?_
  cases x with
  | error e =>
    dsimp only
    split
    · exact (balanced_note (by simp [Event.name])).bind fun _ =>
        balanced_look fun _ _ => balanced_look fun _ _ => balanced_done p _
    · exact balanced_look fun _ _ => balanced_look fun _ _ => balanced_done p _
  | ok rs =>
    exact (balanced_visitAll p _ rs).bind fun _ => balanced_look fun _ _ => balanced_look fun _ _ =>
      (balanced_note (by simp [Event.name])).bind fun _ => balanced_done p _

theorem balanced_operation (p : Provider π) (op : Operation) : Balanced p op.program := by
  cases op with
  | resources => exact (balanced_resources p).bind fun _ => balanced_done p _
  | lookup q => exact (balanced_lookup p q).bind fun _ => balanced_done p _
  | scrape => exact (balanced_scrape p).bind fun _ => balanced_done p _

/-! ### Sessions -/

/-- The events of a session. -/
def sessionEvents (p : Provider π) (legs : List (Leg π Collector Operation)) : List Event :=
  legs.flatMap fun l => events (legOutcome p Operation.program l).trace

theorem balanced_session (p : Provider π) (now : Nat) (s : Collector)
    (turns : List (Turn π Operation)) :
    (named "fetch_disabled" (sessionEvents p (play p Operation.program now s turns))).length +
      s.latch.isSet.toNat = (ending p Operation.program now s turns).2.latch.isSet.toNat := by
  induction turns generalizing now s with
  | nil => exact Nat.zero_add _
  | cons turn rest ih =>
    let w : Moment π Collector := ⟨turn.memory, ⟨now + turn.pause, turn.wall⟩, s⟩
    let o := turn.op.program.runFrom p w
    have hfirst : _ + s.latch.isSet.toNat = o.state.latch.isSet.toNat :=
      balanced_operation p turn.op w
    have hrest := ih o.clock.now o.state
    change (named "fetch_disabled" (sessionEvents p (⟨turn.op, w⟩ ::
      play p Operation.program o.clock.now o.state rest))).length + _ =
        (ending p Operation.program o.clock.now o.state rest).2.latch.isSet.toNat
    rw [sessionEvents, List.flatMap_cons, named_append, List.length_append, ← hrest, ← hfirst]
    exact (Nat.add_assoc _ _ _).trans (Nat.add_left_comm _ _ _)

/-- The latch is set at the end if it was set by then. -/
theorem isSet_ending_iff (p : Provider π) (now : Nat) (s : Collector)
    (turns : List (Turn π Operation)) :
    (ending p Operation.program now s turns).2.latch.isSet = true ↔
      s.latch.isSet = true ∨ ∃ l ∈ play p Operation.program now s turns,
        (legOutcome p Operation.program l).state.latch.isSet = true := by
  induction turns generalizing now s with
  | nil => simp [ending, play]
  | cons turn rest ih =>
    let w : Moment π Collector := ⟨turn.memory, ⟨now + turn.pause, turn.wall⟩, s⟩
    have hkept : s.latch.isSet = true → (turn.op.program.runFrom p w).state.latch.isSet = true :=
      (operation_keeps stable_latched turn.op).runFrom p (w := w)
    rw [ending, ih, play]
    simp only [List.mem_cons, or_and_right, exists_or, exists_eq_left]
    exact ⟨.inr, fun h => h.elim (fun hs => .inl (hkept hs)) id⟩

end PeakUsage.Collector
