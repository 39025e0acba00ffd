import Mathlib.Data.List.Induction
import PeakUsage.Proofs.Health

/-! What the registry answers after any commands, in whichever order it goes through its components:
the worst of what they reported last, and that it is ready as long as none of them is unhealthy. -/
namespace PeakUsage

namespace Status

theorem foldl_worse (s : Status) (ss : List Status) :
    ss.foldl worse s =
      if .unhealthy ∈ s :: ss then .unhealthy
      else if .degraded ∈ s :: ss then .degraded
      else .healthy := by
  induction ss generalizing s with
  | nil => cases s <;> rfl
  | cons t rest ih =>
    rw [List.foldl_cons, ih]
    cases s <;> cases t <;> simp [worse]

theorem worst_eq (ss : List Status) :
    worst ss =
      if .unhealthy ∈ ss then .unhealthy else if .degraded ∈ ss then .degraded else .healthy := by
  rw [worst, foldl_worse]
  simp only [List.mem_cons, reduceCtorEq, false_or]

theorem worst_eq_unhealthy_iff {ss : List Status} : worst ss = .unhealthy ↔ .unhealthy ∈ ss := by
  rw [worst_eq]
  split
  · simp [*]
  · split <;> simp [*]

theorem worst_eq_degraded_iff {ss : List Status} :
    worst ss = .degraded ↔ .unhealthy ∉ ss ∧ .degraded ∈ ss := by
  rw [worst_eq]
  split
  · simp [*]
  · split <;> simp [*]

theorem isOperational_eq_false_iff {s : Status} : s.isOperational = false ↔ s = .unhealthy := by
  cases s <;> decide

end Status

namespace Health

/-! ### Going through the components in some order -/

section
variable {ready : Bool} {order : List (String × ComponentHealth)} {h : Health}

theorem mem_map_status_iff (horder : order.Perm h.components.toList) {s : Status} :
    s ∈ order.map (·.2.status) ↔ ∃ name, h.Shows name s := by
  simp only [List.mem_map, horder.mem_iff, Prod.exists, Shows,
    Std.ExtTreeMap.mem_toList_iff_getElem?_eq_some]

theorem statusIn_eq_unhealthy_iff (horder : order.Perm h.components.toList) :
    statusIn order = .unhealthy ↔ ∃ name, h.Shows name .unhealthy := by
  rw [statusIn, Status.worst_eq_unhealthy_iff, mem_map_status_iff horder]

theorem statusIn_eq_degraded_iff (horder : order.Perm h.components.toList) :
    statusIn order = .degraded ↔
      (¬ ∃ name, h.Shows name .unhealthy) ∧ ∃ name, h.Shows name .degraded := by
  rw [statusIn, Status.worst_eq_degraded_iff, mem_map_status_iff horder, mem_map_status_iff horder]

theorem statusIn_eq_healthy_iff (horder : order.Perm h.components.toList) :
    statusIn order = .healthy ↔
      (¬ ∃ name, h.Shows name .unhealthy) ∧ ¬ ∃ name, h.Shows name .degraded := by
  have hdegraded := statusIn_eq_degraded_iff horder
  rw [← statusIn_eq_unhealthy_iff horder] at hdegraded ⊢
  cases hstatus : statusIn order <;> simp_all

theorem mem_failingIn_iff (horder : order.Perm h.components.toList) {name : String} :
    name ∈ failingIn order ↔ h.Shows name .unhealthy := by
  simp only [failingIn, List.mem_map, List.mem_filter, horder.mem_iff, Bool.not_eq_true',
    Status.isOperational_eq_false_iff, Prod.exists, Std.ExtTreeMap.mem_toList_iff_getElem?_eq_some,
    exists_and_right, exists_eq_right, Shows]

theorem nodup_failingIn (horder : order.Perm h.components.toList) : (failingIn order).Nodup := by
  have hkeys : (h.components.toList.map (·.1)).Nodup := by
    rw [Std.ExtTreeMap.map_fst_toList_eq_keys]
    exact Std.ExtTreeMap.nodup_keys
  have hnames : (order.map (·.1)).Nodup := (horder.map _).nodup_iff.mpr hkeys
  exact hnames.sublist (List.filter_sublist.map _)

theorem ready_readinessIn_iff (horder : order.Perm h.components.toList) :
    (readinessIn order ready).ready = true ↔
      ready = true ∧ ¬ ∃ name, h.Shows name .unhealthy := by
  rw [ready_readinessIn, ← statusIn_eq_unhealthy_iff horder, ← Status.isOperational_eq_false_iff]
  cases ready <;> cases (statusIn order).isOperational <;> simp

theorem isSome_reason_readinessIn :
    (readinessIn order ready).reason.isSome = !(readinessIn order ready).ready := by
  simp only [readinessIn, Option.not_isNone]

/-- With the flag set, only unhealthy components are a reason not to be ready. -/
theorem reason_readinessIn (hnot : (readinessIn order true).ready = false) :
    (readinessIn order true).reason =
      some ("Unhealthy components: " ++ ", ".intercalate (failingIn order)) := by
  rw [ready_readinessIn, Bool.true_and] at hnot
  simp only [readinessIn, reasonIn, hnot, Bool.not_true, Bool.not_false, Bool.false_eq_true,
    if_false, if_true]

end

theorem healthz_ok_iff (o : Outlets) :
    (Http.respond o "GET" "/healthz").status = 200 ↔ o.health.report.status ≠ .unhealthy := by
  rw [status_healthz, Ne, ← Status.isOperational_eq_false_iff]
  change _ ↔ ¬ o.health.overall.isOperational = false
  cases o.health.overall.isOperational <;> decide

theorem readyz_ok_iff (o : Outlets) :
    (Http.respond o "GET" "/readyz").status = 200 ↔ o.health.readiness.ready = true := by
  rw [status_readyz, ready_readiness]
  cases o.health.ready && o.health.overall.isOperational <;> decide

/-! ### Commands to the registry -/

/-- A change that is asked of the registry, at the time that is noted with it. -/
inductive Command where
  /-- A component joins, and is healthy. -/
  | register (time : Int) (name : String)
  | setHealthy (time : Int) (name : String)
  | setDegraded (time : Int) (name message : String)
  | setUnhealthy (time : Int) (name message : String)
  | update (name : String) (c : ComponentHealth)
  | setReady (ready : Bool)

namespace Command

def apply (h : Health) : Command → Health
  | register time name => h.setHealthy time name
  | setHealthy time name => h.setHealthy time name
  | setDegraded time name message => h.setDegraded time name message
  | setUnhealthy time name message => h.setUnhealthy time name message
  | update name c => h.update name c
  | setReady ready => h.setReady ready

/-- What a command says of a component. -/
def report? : Command → Option (String × ComponentHealth)
  | register time name => some (name, ⟨.healthy, none, time⟩)
  | setHealthy time name => some (name, ⟨.healthy, none, time⟩)
  | setDegraded time name message => some (name, ⟨.degraded, some message, time⟩)
  | setUnhealthy time name message => some (name, ⟨.unhealthy, some message, time⟩)
  | update name c => some (name, c)
  | setReady _ => none

/-- What a command says of the component with this name. -/
def reportOf? (name : String) (c : Command) : Option ComponentHealth :=
  c.report?.bind fun r => if r.1 = name then some r.2 else none

def flag? : Command → Option Bool
  | setReady ready => some ready
  | _ => none

theorem components_apply (h : Health) (c : Command) :
    (c.apply h).components =
      match c.report? with
      | some r => h.components.insert r.1 r.2
      | none => h.components := by
  cases c <;> rfl

theorem getElem?_apply (h : Health) (c : Command) (name : String) :
    (c.apply h).components[name]? = (c.reportOf? name).or h.components[name]? := by
  rw [components_apply, reportOf?]
  cases c.report? with
  | none => rfl
  | some r =>
    rw [Std.ExtTreeMap.getElem?_insert]
    by_cases hname : r.1 = name <;> simp [hname]

theorem ready_apply (h : Health) (c : Command) : (c.apply h).ready = c.flag?.getD h.ready := by
  cases c <;> rfl

end Command

/-- The registry that commands leave of a new one. -/
def after (cs : List Command) : Health := cs.foldl Command.apply .empty

/-- What the last of the commands says that says anything. -/
def last? {α : Type} (tells : Command → Option α) (cs : List Command) : Option α :=
  cs.reverse.findSome? tells

/-- The status that the commands give a component last. -/
def lastStatus? (cs : List Command) (name : String) : Option Status :=
  (last? (·.reportOf? name) cs).map (·.status)

/-- What the commands set the flag to last. -/
def lastFlag? (cs : List Command) : Option Bool := last? Command.flag? cs

section
variable (cs : List Command)

theorem last?_concat {α : Type} (tells : Command → Option α) (c : Command) :
    last? tells (cs ++ [c]) = (tells c).or (last? tells cs) := by
  simp only [last?, List.reverse_append, List.reverse_singleton, List.singleton_append,
    List.findSome?_cons]
  cases tells c <;> rfl

theorem getElem?_after (name : String) :
    (after cs).components[name]? = last? (·.reportOf? name) cs := by
  induction cs using List.reverseRecOn with
  | nil => exact Std.ExtTreeMap.getElem?_empty
  | append_singleton cs c ih =>
    rw [after, List.foldl_append, last?_concat, ← ih]
    exact c.getElem?_apply (after cs) name

theorem ready_after : (after cs).ready = (lastFlag? cs).getD false := by
  induction cs using List.reverseRecOn with
  | nil => rfl
  | append_singleton cs c ih =>
    rw [after, List.foldl_append, lastFlag?, last?_concat]
    change (c.apply (after cs)).ready = _
    rw [c.ready_apply, ih]
    cases c.flag? <;> rfl

variable {cs}

/-- The registry shows of each component what was said of it last. -/
theorem shows_after_iff {name : String} {s : Status} :
    (after cs).Shows name s ↔ lastStatus? cs name = some s := by
  rw [Shows, getElem?_after, lastStatus?, Option.map_eq_some_iff]

theorem ready_after_iff : (after cs).ready = true ↔ lastFlag? cs = some true := by
  rw [ready_after]
  cases lastFlag? cs <;> simp

end

/-- Some component reported last that it is unhealthy. -/
def Fails (cs : List Command) : Prop := ∃ name, lastStatus? cs name = some .unhealthy

theorem fails_iff {cs : List Command} : Fails cs ↔ ∃ name, (after cs).Shows name .unhealthy := by
  simp only [Fails, shows_after_iff]

/-- What a registry that has seen the commands answers: the worst of what its components reported
last, and that it is ready if the flag was last set and none of them is unhealthy. A reason is given
exactly when it is not ready; with the flag set, that lists the unhealthy components, each once, and
otherwise it is that there was no scrape yet. -/
structure Reflects (cs : List Command) (status : Status) (answer : Readiness) : Prop where
  unhealthy_iff : status = .unhealthy ↔ Fails cs
  degraded_iff : status = .degraded ↔
    ¬ Fails cs ∧ ∃ name, lastStatus? cs name = some .degraded
  healthy_iff : status = .healthy ↔
    ¬ Fails cs ∧ ¬ ∃ name, lastStatus? cs name = some .degraded
  ready_iff : answer.ready = true ↔ lastFlag? cs = some true ∧ ¬ Fails cs
  isSome_reason_iff : answer.reason.isSome = true ↔ answer.ready = false
  reason_of_unset : lastFlag? cs ≠ some true → answer.reason = some "No scrape completed yet"
  exists_names : lastFlag? cs = some true → answer.ready = false →
    ∃ names, answer.reason = some ("Unhealthy components: " ++ ", ".intercalate names) ∧
      names.Nodup ∧ ∀ name, name ∈ names ↔ lastStatus? cs name = some .unhealthy

theorem reflects_after {cs : List Command} {order : List (String × ComponentHealth)}
    (horder : order.Perm (after cs).components.toList) :
    Reflects cs (statusIn order) (readinessIn order (after cs).ready) where
  unhealthy_iff := by rw [statusIn_eq_unhealthy_iff horder, fails_iff]
  degraded_iff := by
    rw [statusIn_eq_degraded_iff horder, fails_iff]
    simp only [shows_after_iff]
  healthy_iff := by
    rw [statusIn_eq_healthy_iff horder, fails_iff]
    simp only [shows_after_iff]
  ready_iff := by rw [ready_readinessIn_iff horder, ready_after_iff, fails_iff]
  isSome_reason_iff := by rw [isSome_reason_readinessIn, Bool.not_eq_true']
  reason_of_unset := by
    intro hflag
    have hunset : (after cs).ready = false := Bool.eq_false_iff.mpr (mt ready_after_iff.mp hflag)
    rw [hunset]
    rfl
  exists_names := by
    intro hflag hnot
    rw [ready_after_iff.mpr hflag] at hnot ⊢
    refine ⟨failingIn order, reason_readinessIn hnot, nodup_failingIn horder, fun name => ?_⟩
    rw [mem_failingIn_iff horder, shows_after_iff]

/-- Whatever commands a registry has seen, its status and readiness reflect them, in whichever order
it goes through its components. So a registry that says it is ready is not unhealthy. -/
theorem answers_of_commands (cs : List Command) :
    let h := after cs
    Reflects cs h.report.status h.readiness ∧
      (∀ order, order.Perm h.components.toList →
        Reflects cs (statusIn order) (readinessIn order h.ready)) ∧
      ∀ o : Outlets, o.health = h →
        ((Http.respond o "GET" "/healthz").status = 200 ↔ h.report.status ≠ .unhealthy) ∧
          ((Http.respond o "GET" "/readyz").status = 200 ↔ h.readiness.ready = true) ∧
          ((Http.respond o "GET" "/readyz").status = 200 →
            (Http.respond o "GET" "/healthz").status = 200) := by
  intro h
  have hreflects : Reflects cs h.report.status h.readiness := reflects_after (List.Perm.refl _)
  refine ⟨hreflects, fun order horder => reflects_after horder, fun o ho => ?_⟩
  rw [healthz_ok_iff, readyz_ok_iff, ho]
  refine ⟨Iff.rfl, Iff.rfl, fun hready hfails => ?_⟩
  exact (hreflects.ready_iff.mp hready).2 (hreflects.unhealthy_iff.mp hfails)

/-- Two components that failed and one that has recovered, also when they are gone through in
reverse. -/
theorem answers_of_commands_reversed :
    let cs : List Command :=
      [.register 5 "inventory", .setUnhealthy 6 "fetch_latch" "stopped", .setReady true,
        .setUnhealthy 7 "disk" "full", .setDegraded 8 "inventory" "slow",
        .setUnhealthy 8 "metric_source" "down", .setHealthy 9 "metric_source"]
    let order := (after cs).components.toList.reverse
    order.Perm (after cs).components.toList ∧ statusIn order = .unhealthy ∧
      (after cs).report.status = .unhealthy ∧ (after cs).readiness.ready = false ∧
      (∃ names, (after cs).readiness.reason =
          some ("Unhealthy components: " ++ ", ".intercalate names) ∧
        names.Nodup ∧ "disk" ∈ names ∧ "fetch_latch" ∈ names ∧ "metric_source" ∉ names) ∧
      (readinessIn order (after cs).ready).reason.isSome = true := by
  intro cs order
  have horder : order.Perm (after cs).components.toList := List.reverse_perm _
  obtain ⟨hown, hreflects, -⟩ := answers_of_commands cs
  have hfails : Fails cs := ⟨"disk", by decide⟩
  have hreversed := hreflects order horder
  have hnot : (after cs).readiness.ready = false :=
    Bool.eq_false_iff.mpr fun h => (hown.ready_iff.mp h).2 hfails
  have hnotReversed : (readinessIn order (after cs).ready).ready = false :=
    Bool.eq_false_iff.mpr fun h => (hreversed.ready_iff.mp h).2 hfails
  obtain ⟨names, htext, hnodup, hnames⟩ := hown.exists_names (by decide) hnot
  refine ⟨horder, hreversed.unhealthy_iff.mpr hfails, hown.unhealthy_iff.mpr hfails, hnot,
    ⟨names, htext, hnodup, ?_, ?_, ?_⟩, hreversed.isSome_reason_iff.mpr hnotReversed⟩
  · exact (hnames _).mpr (by decide)
  · exact (hnames _).mpr (by decide)
  · exact mt (hnames _).mp (by decide)

end Health
end PeakUsage
