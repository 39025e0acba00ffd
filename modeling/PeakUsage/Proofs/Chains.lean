import PeakUsage.Proofs.Sequences

/-! Runs that take over from one another: the operations of a session, and what they consist of. -/
namespace PeakUsage.Program
variable {π σ α β γ δ : Type}

/-- Runs of which each starts with the state the one before it left, at that time or later. -/
inductive Chain (p : Provider π) (f : β → Program σ α) :
    Nat → σ → List (Leg π σ β) → Nat → σ → Prop
  | nil {now later : Nat} {s : σ} (h : now ≤ later) : Chain p f now s [] later s
  | cons {now later : Nat} {s : σ} {l : Leg π σ β} {rest : List (Leg π σ β)}
      (h : now ≤ l.start.clock.now)
      (hrest : Chain p f (legOutcome p f l).clock.now (legOutcome p f l).state rest later s) :
      Chain p f now l.start.state (l :: rest) later s

variable {p : Provider π} {f : β → Program σ α} {now later : Nat} {s t : σ}
  {legs more : List (Leg π σ β)}

namespace Chain

theorem earlier (h : Chain p f now s legs later t) {before : Nat} (hle : before ≤ now) :
    Chain p f before s legs later t := by
  cases h with
  | nil h => exact .nil (Nat.le_trans hle h)
  | cons h hrest => exact .cons (Nat.le_trans hle h) hrest

theorem append {end' : Nat} {u : σ} (h : Chain p f now s legs later t)
    (hmore : Chain p f later t more end' u) : Chain p f now s (legs ++ more) end' u := by
  induction h with
  | nil h => exact hmore.earlier h
  | cons h hrest ih => exact .cons h (ih hmore)

theorem split (h : Chain p f now s (legs ++ more) later t) :
    ∃ middle u, Chain p f now s legs middle u ∧ Chain p f middle u more later t := by
  induction legs generalizing now s with
  | nil => exact ⟨now, s, .nil (Nat.le_refl now), h⟩
  | cons l rest ih =>
    cases h with
    | cons h hrest =>
      obtain ⟨middle, u, hlegs, hmore⟩ := ih hrest
      exact ⟨middle, u, .cons h hlegs, hmore⟩

/-- What every run of a chain keeps is there at its end. -/
theorem keeps {I : Nat → σ → Prop} (hlasting : Lasting I)
    (hI : ∀ l ∈ legs, I l.start.clock.now l.start.state →
      I (legOutcome p f l).clock.now (legOutcome p f l).state)
    (h : Chain p f now s legs later t) (hs : I now s) : I later t := by
  induction h with
  | nil h => exact hlasting _ _ _ h hs
  | @cons now later t l rest h hrest ih =>
    have hstart : I l.start.clock.now l.start.state := hlasting _ _ _ h hs
    have hout := hI l List.mem_cons_self hstart
    exact ih (fun m hm => hI m (List.mem_cons_of_mem _ hm)) hout

theorem now_le (h : Chain p f now s legs later t) : now ≤ later :=
  h.keeps (I := fun moment _ => now ≤ moment) (fun _ _ _ hle hn => Nat.le_trans hn hle)
    (fun l _ hn => Nat.le_trans hn (now_le_runFrom p l.start _)) (Nat.le_refl now)

/-- What the runs before one of them keep is there when that one starts. -/
theorem start_keeps {I : Nat → σ → Prop} (hlasting : Lasting I) {before after : List (Leg π σ β)}
    {l : Leg π σ β} (hI : ∀ m ∈ before, I m.start.clock.now m.start.state →
      I (legOutcome p f m).clock.now (legOutcome p f m).state)
    (h : Chain p f now s (before ++ l :: after) later t) (hs : I now s) :
    I l.start.clock.now l.start.state := by
  obtain ⟨middle, u, hbefore, hl⟩ := h.split
  have hu : I middle u := hbefore.keeps hlasting hI hs
  cases hl with
  | cons h hrest => exact hlasting _ _ _ h hu

/-- What one of the runs brings about and the runs after it keep is there at the end. -/
theorem end_keeps {I : Nat → σ → Prop} (hlasting : Lasting I) {before after : List (Leg π σ β)}
    {l : Leg π σ β} (hI : ∀ m ∈ after, I m.start.clock.now m.start.state →
      I (legOutcome p f m).clock.now (legOutcome p f m).state)
    (h : Chain p f now s (before ++ l :: after) later t)
    (hl : I (legOutcome p f l).clock.now (legOutcome p f l).state) : I later t := by
  obtain ⟨middle, u, -, hrest⟩ := h.split
  cases hrest with
  | cons _ hafter => exact hafter.keeps hlasting hI hl

/-- What every program keeps is there whenever one of the runs starts. -/
theorem forall_start_keeps {I : Nat → σ → Prop} (hlasting : Lasting I)
    (hI : ∀ b w, I w.clock.now w.state →
      I ((f b).runFrom p w).clock.now ((f b).runFrom p w).state)
    (h : Chain p f now s legs later t) (hs : I now s) :
    ∀ l ∈ legs, I l.start.clock.now l.start.state := by
  intro l hl
  obtain ⟨before, after, rfl⟩ := List.append_of_mem hl
  exact h.start_keeps hlasting (fun m _ => hI m.item m.start) hs

/-- What a run brings about and all later ones keep is there when any of these starts. -/
theorem pairwise {I : Leg π σ β → Nat → σ → Prop} (hlasting : ∀ l, Lasting (I l))
    (hend : ∀ l ∈ legs, I l (legOutcome p f l).clock.now (legOutcome p f l).state)
    (hI : ∀ l, ∀ m ∈ legs, I l m.start.clock.now m.start.state →
      I l (legOutcome p f m).clock.now (legOutcome p f m).state)
    (h : Chain p f now s legs later t) :
    legs.Pairwise fun l m => I l m.start.clock.now m.start.state := by
  induction h with
  | nil h => exact List.Pairwise.nil
  | @cons now later t l rest h hrest ih =>
    refine List.Pairwise.cons (fun m hm => ?_) (ih ?_ ?_)
    · obtain ⟨before, after, rfl⟩ := List.append_of_mem hm
      refine hrest.start_keeps (hlasting l) (fun k hk => ?_) (hend l List.mem_cons_self)
      exact hI l k (List.mem_cons_of_mem _ (List.mem_append_left _ hk))
    · exact fun m hm => hend m (List.mem_cons_of_mem _ hm)
    · exact fun l m hm => hI l m (List.mem_cons_of_mem _ hm)

/-- The runs are in the order of time. -/
theorem pairwise_now_le (h : Chain p f now s legs later t) :
    legs.Pairwise fun l m => (legOutcome p f l).clock.now ≤ m.start.clock.now :=
  h.pairwise (I := fun l now _ => (legOutcome p f l).clock.now ≤ now)
    (fun _ _ _ _ hle hl => Nat.le_trans hl hle) (fun _ _ => Nat.le_refl _)
    (fun _ m _ hl => Nat.le_trans hl (now_le_runFrom p m.start _))

theorem now_le_of_split {before after : List (Leg π σ β)} {l : Leg π σ β}
    (h : Chain p f now s (before ++ l :: after) later t) :
    ∀ m ∈ before, m.start.clock.now ≤ l.start.clock.now := by
  intro m hm
  have hordered := h.pairwise_now_le
  rw [List.pairwise_append] at hordered
  have hle := hordered.2.2 m hm l List.mem_cons_self
  exact Nat.le_trans (now_le_runFrom p m.start _) hle

/-- Programs that leave the same make the same chain. -/
theorem map (g : γ → Program σ δ) (k : β → γ)
    (hk : ∀ b w, ((g (k b)).runFrom p w).moment = ((f b).runFrom p w).moment)
    (h : Chain p f now s legs later t) :
    Chain p g now s (legs.map fun l => ⟨k l.item, l.start⟩) later t := by
  induction h with
  | nil h => exact .nil h
  | @cons now later t l rest h hrest ih =>
    have hmoment := hk l.item l.start
    have hclock : ((g (k l.item)).runFrom p l.start).clock = (legOutcome p f l).clock :=
      congrArg Moment.clock hmoment
    have hstate : ((g (k l.item)).runFrom p l.start).state = (legOutcome p f l).state :=
      congrArg Moment.state hmoment
    rw [← hclock, ← hstate] at ih
    exact .cons (l := ⟨k l.item, l.start⟩) h ih

/-- Runs over a part of the state that the runs of a chain consist of make one, too. -/
theorem project {τ : Type} {k : σ → τ} {g : γ → Program τ δ}
    {parts : Leg π σ β → List (Leg π τ γ)}
    (hparts : ∀ l ∈ legs, Chain p g l.start.clock.now (k l.start.state) (parts l)
      (legOutcome p f l).clock.now (k (legOutcome p f l).state))
    (h : Chain p f now s legs later t) :
    Chain p g now (k s) (legs.flatMap parts) later (k t) := by
  induction h with
  | nil h => exact .nil h
  | @cons now later t l rest h hrest ih =>
    have hl := (hparts l List.mem_cons_self).earlier h
    exact hl.append (ih fun m hm => hparts m (List.mem_cons_of_mem _ hm))

/-- The parts of runs that make a chain make one, too. -/
theorem flatMap {g : γ → Program σ δ} {parts : Leg π σ β → List (Leg π σ γ)}
    (hparts : ∀ l, Chain p g l.start.clock.now l.start.state (parts l)
      (legOutcome p f l).clock.now (legOutcome p f l).state)
    (h : Chain p f now s legs later t) : Chain p g now s (legs.flatMap parts) later t :=
  h.project (k := id) fun l _ => hparts l

end Chain

theorem chain_play (p : Provider π) (f : β → Program σ α) (now : Nat) (s : σ)
    (turns : List (Turn π β)) :
    Chain p f now s (play p f now s turns) (ending p f now s turns).1
      (ending p f now s turns).2 := by
  induction turns generalizing now s with
  | nil => exact .nil (Nat.le_refl now)
  | cons turn rest ih =>
    let l : Leg π σ β := ⟨turn.op, ⟨turn.memory, ⟨now + turn.pause, turn.wall⟩, s⟩⟩
    exact .cons (l := l) (Nat.le_add_right now turn.pause) (ih _ _)

theorem chain_relay (p : Provider π) (f : β → Program σ α) (bs : List β) (w : Moment π σ) :
    Chain p f w.clock.now w.state (relay p f bs w) (finish p f (relay p f bs w) w).clock.now
      (finish p f (relay p f bs w) w).state := by
  induction bs generalizing w with
  | nil => exact .nil (Nat.le_refl _)
  | cons b rest ih =>
    cases h : ((f b).runFrom p w).result with
    | error e =>
      rw [relay_cons_error p f h]
      exact .cons (l := ⟨b, w⟩) (Nat.le_refl _) (.nil (Nat.le_refl _))
    | ok a =>
      rw [relay_cons_ok p f h]
      exact .cons (l := ⟨b, w⟩) (Nat.le_refl _) (ih ((f b).runFrom p w).moment)

end PeakUsage.Program
