import PeakUsage.Proofs.Sequences

/-! What programs save and what they come to, also when any number of them share one state and take
their steps in any order. -/
namespace PeakUsage.Program
variable {π σ τ α β : Type}

/-- Every state a program saves has a property, and so has its result, if the states it finds have
theirs. -/
def Delivers (I : σ → Prop) (P : α → Prop) : Program σ α → Prop
  | done a => P a
  | halt _ => True
  | look k => ∀ c s, I s → (k c s).Delivers I P
  | save s k => I s ∧ k.Delivers I P
  | log _ k => k.Delivers I P
  | ask _ k => ∀ x, (k x).Delivers I P

namespace Delivers
variable {I : σ → Prop} {P : α → Prop} {Q : β → Prop}

theorem keeps {q : Program σ α} (hq : q.Delivers I P) : q.Keeps I := by
  induction q with
  | done a => exact trivial
  | halt e => exact trivial
  | look k ih => exact fun c s hs => ih c s (hq c s hs)
  | save s k ih => exact ⟨hq.1, ih hq.2⟩
  | log e k ih => exact ih hq
  | ask r k ih => exact fun x => ih x (hq x)

theorem of_keeps {q : Program σ α} (hq : q.Keeps I) : q.Delivers I fun _ => True := by
  induction q with
  | done a => exact trivial
  | halt e => exact trivial
  | look k ih => exact fun c s hs => ih c s (hq c s hs)
  | save s k ih => exact ⟨hq.1, ih hq.2⟩
  | log e k ih => exact ih hq
  | ask r k ih => exact fun x => ih x (hq x)

theorem bind {q : Program σ α} {f : α → Program σ β} (hq : q.Delivers I P)
    (hf : ∀ a, P a → (f a).Delivers I Q) : (q >>= f).Delivers I Q := by
  change (q.bind f).Delivers I Q
  induction q with
  | done a => exact hf a hq
  | halt e => exact trivial
  | look k ih => exact fun c s hs => ih c s (hq c s hs)
  | save s k ih => exact ⟨hq.1, ih hq.2⟩
  | log e k ih => exact ih hq
  | ask r k ih => exact fun x => ih x (hq x)

theorem each {f : β → Program σ α} {bs : List β} (hf : ∀ b ∈ bs, (f b).Delivers I P) :
    (each f bs).Delivers I fun as => ∀ a ∈ as, P a := by
  induction bs with
  | nil => exact fun a ha => absurd ha List.not_mem_nil
  | cons b rest ih =>
    refine (hf b List.mem_cons_self).bind fun a ha => ?_
    refine (ih fun c hc => hf c (List.mem_cons_of_mem b hc)).bind fun as has => ?_
    exact List.forall_mem_cons.mpr ⟨ha, has⟩

/-- What a program over a part delivers, if what it saves of the part leaves the whole in order. -/
theorem within {get : σ → τ} {put : τ → σ → σ} {J : τ → Prop} (hget : ∀ s, I s → J (get s))
    (hput : ∀ t s, J t → I s → I (put t s)) {q : Program τ α} (hq : q.Delivers J P) :
    (within get put q).Delivers I P := by
  induction q with
  | done a => exact hq
  | halt e => exact trivial
  | look k ih => exact fun c s hs => ih c (get s) (hq c (get s) (hget s hs))
  | save t k ih => exact fun c s hs => ⟨hput t s hq.1 hs, ih hq.2⟩
  | log e k ih => exact ih hq
  | ask r k ih => exact fun x => ih x (hq x)

/-- What a run to the end comes to. -/
theorem result {q : Program σ α} (hq : q.Delivers I P) (p : Provider π) {w : Moment π σ}
    (hw : I w.state) {a : α} (ha : (q.runFrom p w).result = .ok a) : P a := by
  induction q generalizing w with
  | done b =>
    obtain rfl := Except.ok.inj ha
    exact hq
  | halt e => exact absurd ha (error_ne_ok e a)
  | look k ih => exact ih _ _ (hq _ _ hw) hw ha
  | save s k ih => exact ih hq.2 (w := { w with state := s }) hq.1 ha
  | log e k ih => exact ih hq hw ha
  | ask r k ih => exact ih _ (hq _) (w := w.answered p r) hw ha

end Delivers

/-! ### Tasks that share a state -/

/-- One step of a program: the state it finds, the state it leaves and what remains to be done. The
clock may show anything, and a call may be answered in any way. -/
inductive Advances : σ → Program σ α → σ → Program σ α → Prop
  | look (s : σ) (c : Clock) (k : Clock → σ → Program σ α) : Advances s (look k) s (k c s)
  | save (s t : σ) (k : Program σ α) : Advances s (save t k) t k
  | log (s : σ) (e : LogEntry) (k : Program σ α) : Advances s (log e k) s k
  | ask (s : σ) (r : Request) (x : Reply r) (k : Reply r → Program σ α) :
    Advances s (ask r k) s (k x)

/-- Tasks under way in one state; one that has come to its end stays as its result. -/
structure Shared (σ α : Type) where
  state : σ
  tasks : List (Program σ α)

/-- What can happen next: some task starts, or one of those under way takes a step. -/
inductive Moves (f : β → Program σ α) : Shared σ α → Shared σ α → Prop
  | start (s : σ) (tasks : List (Program σ α)) (b : β) : Moves f ⟨s, tasks⟩ ⟨s, f b :: tasks⟩
  | step {s t : σ} {q r : Program σ α} (before after : List (Program σ α)) (h : Advances s q t r) :
    Moves f ⟨s, before ++ q :: after⟩ ⟨t, before ++ r :: after⟩

/-- What tasks can get to that start in a state. -/
inductive Reached (f : β → Program σ α) (s : σ) : Shared σ α → Prop
  | initial : Reached f s ⟨s, []⟩
  | move {x y : Shared σ α} (hx : Reached f s x) (h : Moves f x y) : Reached f s y

section
variable {f : β → Program σ α} {I : σ → Prop} {P : α → Prop}

theorem Advances.delivers {s t : σ} {q r : Program σ α} (h : Advances s q t r) (hs : I s)
    (hq : q.Delivers I P) : I t ∧ r.Delivers I P := by
  cases h with
  | look c k => exact ⟨hs, hq c s hs⟩
  | save t k => exact hq
  | log e k => exact ⟨hs, hq⟩
  | ask r x k => exact ⟨hs, hq x⟩

/-- What the state has and what all tasks have is kept by a move, if no step of a task ends it. -/
theorem Moves.forall_tasks {R : Program σ α → Prop} (hf : ∀ b, R (f b))
    (hstep : ∀ {s t q r}, Advances s q t r → I s → R q → I t ∧ R r) {x y : Shared σ α}
    (h : Moves f x y) (hx : I x.state ∧ ∀ q ∈ x.tasks, R q) :
    I y.state ∧ ∀ q ∈ y.tasks, R q := by
  obtain ⟨hs, htasks⟩ := hx
  cases h with
  | start s tasks b => exact ⟨hs, List.forall_mem_cons.mpr ⟨hf b, htasks⟩⟩
  | step before after h =>
    rw [List.forall_mem_append, List.forall_mem_cons] at htasks
    obtain ⟨hbefore, hq, hafter⟩ := htasks
    obtain ⟨ht, hr⟩ := hstep h hs hq
    exact ⟨ht, List.forall_mem_append.mpr ⟨hbefore, List.forall_mem_cons.mpr ⟨hr, hafter⟩⟩⟩

theorem Reached.forall_tasks {R : Program σ α → Prop} (hf : ∀ b, R (f b))
    (hstep : ∀ {s t q r}, Advances s q t r → I s → R q → I t ∧ R r) {s : σ} (hs : I s)
    {x : Shared σ α} (hx : Reached f s x) : I x.state ∧ ∀ q ∈ x.tasks, R q := by
  induction hx with
  | initial => exact ⟨hs, fun q hq => absurd hq List.not_mem_nil⟩
  | move _ h ih => exact h.forall_tasks hf hstep ih

/-- Whatever tasks get to, the state has what they keep, and the results have what they deliver. -/
theorem Reached.delivers (hf : ∀ b, (f b).Delivers I P) {s : σ} (hs : I s) {x : Shared σ α}
    (hx : Reached f s x) : I x.state ∧ ∀ a, done a ∈ x.tasks → P a := by
  obtain ⟨hstate, htasks⟩ := hx.forall_tasks hf Advances.delivers hs
  exact ⟨hstate, fun a ha => htasks (done a) ha⟩

/-- A task can run as far as it gets without the others. -/
theorem Reached.runFrom (p : Provider π) {s : σ} {q : Program σ α} {w : Moment π σ}
    {tasks : List (Program σ α)} (hx : Reached f s ⟨w.state, q :: tasks⟩) :
    ∃ r, Reached f s ⟨(q.runFrom p w).state, r :: tasks⟩ ∧
      ∀ a, (q.runFrom p w).result = .ok a → r = done a := by
  induction q generalizing w with
  | done b => exact ⟨done b, hx, fun a ha => congrArg done (Except.ok.inj ha)⟩
  | halt e => exact ⟨halt e, hx, fun a ha => absurd ha (error_ne_ok e a)⟩
  | look k ih => exact ih _ _ (hx.move (.step [] tasks (.look ..)))
  | save t k ih => exact ih (w := { w with state := t }) (hx.move (.step [] tasks (.save ..)))
  | log e k ih => exact ih (hx.move (.step [] tasks (.log ..)))
  | ask r k ih =>
    exact ih _ (w := w.answered p r) (hx.move (.step [] tasks (.ask _ r (w.reply p r) k)))

/-- Tasks can get to every state and every result of a session, in which they run one by one. -/
theorem Reached.play (p : Provider π) {s t : σ} {tasks : List (Program σ α)}
    (ht : Reached f s ⟨t, tasks⟩) (now : Nat) (turns : List (Turn π β)) :
    ∀ l ∈ play p f now t turns,
      ∃ r tasks', Reached f s ⟨l.start.state, tasks'⟩ ∧
        Reached f s ⟨(legOutcome p f l).state, r :: tasks'⟩ ∧
        ∀ a, (legOutcome p f l).result = .ok a → r = done a := by
  induction turns generalizing now t tasks with
  | nil => exact fun l hl => absurd hl List.not_mem_nil
  | cons turn rest ih =>
    let w : Moment π σ := ⟨turn.memory, ⟨now + turn.pause, turn.wall⟩, t⟩
    obtain ⟨r, hr, hresult⟩ := Reached.runFrom p (w := w) (ht.move (.start _ _ turn.op))
    intro l hl
    rcases List.mem_cons.mp hl with rfl | hl
    · exact ⟨r, tasks, ht, hr, hresult⟩
    · exact ih hr _ l hl

end

end PeakUsage.Program
