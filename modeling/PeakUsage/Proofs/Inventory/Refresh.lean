import Mathlib.Data.List.Induction
import PeakUsage.Proofs.Expiring
import PeakUsage.Proofs.Inventory.Placements
import PeakUsage.Proofs.Runs

/-! What a refresh of the inventory writes, and what the table holds afterwards. -/
namespace PeakUsage.Inventory
open Program

/-- A row written into the table: when, and which resource. -/
structure Write where
  time : Nat
  resource : Resource

variable {π : Type}

/-- The rows a listing of the families writes, in order: those of the deployment in the provider's
answers, up to the first family that cannot be listed. -/
def writes (p : Provider π) (filter : Filter) :
    Timestamp → List Family → Moment π Unit → List Write
  | _, [], _ => []
  | time, family :: rest, w =>
    let v := w.answered p (.list family)
    let time := if family.opensGroup then v.clock.wall else time
    match w.reply p (.list family) with
    | .error _ => []
    | .ok rows =>
      (family.deployed filter time rows).map (⟨v.clock.now, ·⟩) ++ writes p filter time rest v

def record (ttl : Nat) (rows : Expiring String Resource) (x : Write) : Expiring String Resource :=
  rows.put x.resource.usageKey x.resource (x.time + ttl)

/-- The inventory after writes. -/
def recordAll (s : Inventory) (ws : List Write) : Inventory :=
  { s with rows := ws.foldl (record s.ttl) s.rows }

/-- The last of the writes under a key. -/
def lastWrite (key : String) (ws : List Write) : Option Write :=
  ws.reverse.find? (·.resource.usageKey = key)

/-- What the table has under a key after writes: the last row written, or else the row that was
there before. -/
def overwritten (s : Inventory) (ws : List Write) (key : String) :
    Option (Expiring.Entry Resource) :=
  match lastWrite key ws with
  | some x => some ⟨x.resource, x.time + s.ttl⟩
  | none => s.rows.entries[key]?

/-! ### The table after writes -/

section
variable (s : Inventory) (ws : List Write)

theorem recordAll_append (more : List Write) :
    s.recordAll (ws ++ more) = (s.recordAll ws).recordAll more := by
  simp [recordAll, List.foldl_append]

theorem lastWrite_concat (key : String) (x : Write) :
    lastWrite key (ws ++ [x]) =
      if x.resource.usageKey = key then some x else lastWrite key ws := by
  by_cases h : x.resource.usageKey = key <;> simp [lastWrite, h]

theorem mem_of_lastWrite {key : String} {x : Write} (h : lastWrite key ws = some x) : x ∈ ws :=
  List.mem_reverse.mp (List.mem_of_find?_eq_some h)

theorem usageKey_of_lastWrite {key : String} {x : Write} (h : lastWrite key ws = some x) :
    x.resource.usageKey = key := by
  simpa using List.find?_some h

theorem getElem?_recordAll_eq (key : String) :
    (s.recordAll ws).rows.entries[key]? = s.overwritten ws key := by
  induction ws using List.reverseRecOn with
  | nil => rfl
  | append_singleton ws x ih =>
    rw [recordAll_append, overwritten, lastWrite_concat]
    by_cases hkey : x.resource.usageKey = key
    · rw [if_pos hkey, ← hkey]
      exact Expiring.getElem?_put_self ..
    · rw [if_neg hkey]
      exact (Expiring.getElem?_put_of_ne _ hkey _ _).trans ih

theorem getElem?_recordAll {key : String} {x : Write} (h : lastWrite key ws = some x) :
    (s.recordAll ws).rows.entries[key]? = some ⟨x.resource, x.time + s.ttl⟩ := by
  rw [getElem?_recordAll_eq, overwritten, h]

theorem deadline_recordAll_concat (x : Write) :
    (s.recordAll (ws ++ [x])).rows.deadline = some (x.time + s.ttl) := by
  rw [recordAll_append]
  rfl

end

/-! ### Writing -/

/-- What writing resources now leaves. Either all of them have a deadline or the first has none. -/
def written (w : Moment π Inventory) (rs : List Resource) : Outcome π Inventory Unit :=
  if rs = [] ∨ w.clock.now + w.state.ttl < Nanos.horizon then
    ⟨.ok (), w.state.recordAll (rs.map (Write.mk w.clock.now)), w.clock, w.memory, []⟩
  else ⟨.error .pastHorizon, w.state, w.clock, w.memory, []⟩

theorem written_eq_of_ok {w : Moment π Inventory} {rs : List Resource} {u : Unit}
    (h : (written w rs).result = .ok u) :
    written w rs =
      ⟨.ok (), w.state.recordAll (rs.map (Write.mk w.clock.now)), w.clock, w.memory, []⟩ := by
  unfold written at h ⊢
  split
  · rfl
  · next hfit =>
    rw [if_neg hfit] at h
    exact absurd h nofun

theorem fits_of_written {w : Moment π Inventory} {rs : List Resource} {u : Unit}
    (h : (written w rs).result = .ok u) :
    ∀ r ∈ rs, w.clock.now + w.state.ttl < Nanos.horizon := by
  intro r hr
  by_contra hlate
  have hne : rs ≠ [] := List.ne_nil_of_mem hr
  unfold written at h
  rw [if_neg (by simp [hne, hlate])] at h
  exact absurd h (error_ne_ok _ _)

section
variable (p : Provider π) (w : Moment π Inventory)

theorem runFrom_insert (r : Resource) :
    (insert r.usageKey r).runFrom p w = written w [r] := by
  unfold insert written
  rw [runFrom_look, Expiring.set_eq]
  by_cases h : w.clock.now + w.state.ttl < Nanos.horizon
  · simp only [h, if_true, or_true]
    rfl
  · simp only [h, if_false, or_false, List.cons_ne_self]
    rfl

theorem runFrom_insertAll {xs : List Placement} (hxs : ∀ x ∈ xs, FromRow x) :
    (insertAll xs).runFrom p w = written w (xs.map (·.resource)) := by
  induction xs generalizing w with
  | nil => rfl
  | cons x rest ih =>
    obtain ⟨hx, hrest⟩ := List.forall_mem_cons.mp hxs
    have hr := runFrom_insert p w x.resource
    rw [hx.usageKey_eq] at hr
    rw [insertAll]
    by_cases h : w.clock.now + w.state.ttl < Nanos.horizon
    · simp only [written, h, or_true, if_true] at hr
      have hok : ((insert x.key x.resource).runFrom p w).result = .ok () := by rw [hr]
      rw [runFrom_bind_ok hok, ih _ hrest, hr]
      simp [written, Outcome.moment, Outcome.after, recordAll, h]
    · simp only [written, h, or_false, List.cons_ne_self, if_false] at hr
      have herror : ((insert x.key x.resource).runFrom p w).result = .error .pastHorizon := by
        rw [hr]
      rw [runFrom_bind_error herror, hr]
      simp [written, h]

/-- A listing of one family and others: a failure ends it, otherwise the rows are written and the
others follow. -/
theorem runFrom_listFrom_cons (time : Timestamp) (family : Family) (rest : List Family) :
    (listFrom time (family :: rest)).runFrom p w =
      let v := w.answered p (.list family)
      let time := if family.opensGroup then v.clock.wall else time
      let seen := [.asked (.list family), .answered (.list family) (w.reply p (.list family))]
      match w.reply p (.list family) with
      | .error e => ⟨.ok (.error (.listing family e)), v.state, v.clock, v.memory, seen⟩
      | .ok rows =>
        let rs := family.deployed w.state.filter time rows
        ((written v rs).andThen fun _ u =>
          ((listFrom time rest).runFrom p u).andThen fun count u' =>
            ⟨.ok (count.map (rs.length + ·)), u'.state, u'.clock, u'.memory, []⟩).after
          seen := by
  rw [listFrom, runFrom_request_bind, runFrom_clock_bind]
  cases w.reply p (.list family) with
  | error e => rfl
  | ok rows =>
    simp only [runFrom_bind, runFrom_insertAll _ _ fun _ => fromRow_of_mem_included,
      Family.deployed, List.length_map]
    rfl

end

/-- A listing that does not halt leaves the table with its writes made, also when a family could
not be listed, and counts them when all could. -/
theorem runFrom_listFrom {p : Provider π} {time : Timestamp} {families : List Family}
    {w : Moment π Inventory} {x : Except Failure Nat}
    (h : ((listFrom time families).runFrom p w).result = .ok x) :
    let ws := writes p w.state.filter time families w.outside
    ((listFrom time families).runFrom p w).state = w.state.recordAll ws ∧
      ∀ n, x = .ok n → n = ws.length := by
  induction families generalizing time w x with
  | nil =>
    obtain rfl := Except.ok.inj h
    exact ⟨rfl, fun n hn => (Except.ok.inj hn).symm⟩
  | cons family rest ih =>
    rw [runFrom_listFrom_cons] at h ⊢
    simp only [writes, Moment.reply_outside, Moment.answered_outside, Moment.outside_clock]
    cases hr : w.reply p (.list family) with
    | error e =>
      simp only [hr] at h
      obtain rfl := Except.ok.inj h
      exact ⟨rfl, nofun⟩
    | ok rows =>
      simp only [hr, Outcome.after_result, Outcome.after_state] at h ⊢
      generalize (if family.opensGroup then _ else time) = t at h ⊢
      generalize family.deployed w.state.filter t rows = rs at h ⊢
      obtain ⟨u, hwritten, hrest⟩ := Outcome.exists_of_andThen_ok h
      rw [Outcome.andThen_eq_of_ok hwritten]
      rw [written_eq_of_ok hwritten] at hrest ⊢
      obtain ⟨count, hcount, hx⟩ := Outcome.exists_of_andThen_ok hrest
      obtain ⟨hstate, hlength⟩ := ih hcount
      rw [Outcome.andThen_eq_of_ok hcount]
      obtain rfl := Except.ok.inj hx
      refine ⟨hstate.trans (recordAll_append ..).symm, fun n hn => ?_⟩
      cases count with
      | error e => exact absurd hn nofun
      | ok m =>
        obtain rfl := Except.ok.inj hn
        rw [List.length_append, List.length_map, hlength m rfl]
        rfl

/-- A listing that fails says so of a family. -/
theorem listing_of_listFrom {p : Provider π} {time : Timestamp} {families : List Family}
    {w : Moment π Inventory} {e : Failure}
    (h : ((listFrom time families).runFrom p w).result = .ok (.error e)) :
    ∃ family cause, e = .listing family cause := by
  induction families generalizing time w with
  | nil => exact absurd (Except.ok.inj h).symm (error_ne_ok e 0)
  | cons family rest ih =>
    rw [runFrom_listFrom_cons] at h
    cases hr : w.reply p (.list family) with
    | error cause =>
      simp only [hr] at h
      exact ⟨family, cause, (Except.error.inj (Except.ok.inj h)).symm⟩
    | ok rows =>
      simp only [hr, Outcome.after_result] at h
      obtain ⟨u, -, hrest⟩ := Outcome.exists_of_andThen_ok h
      obtain ⟨count, hcount, hx⟩ := Outcome.exists_of_andThen_ok hrest
      cases count with
      | error e' =>
        obtain rfl := Except.error.inj (Except.ok.inj hx)
        exact ih hcount
      | ok n => exact absurd (Except.ok.inj hx).symm (error_ne_ok e _)

/-- A listing that does not halt writes nothing whose deadline the clock cannot show. -/
theorem fits_of_listFrom {p : Provider π} {time : Timestamp} {families : List Family}
    {w : Moment π Inventory} {x : Except Failure Nat}
    (h : ((listFrom time families).runFrom p w).result = .ok x) :
    ∀ y ∈ writes p w.state.filter time families w.outside,
      y.time + w.state.ttl < Nanos.horizon := by
  induction families generalizing time w x with
  | nil => exact fun y hy => absurd hy List.not_mem_nil
  | cons family rest ih =>
    intro y hy
    rw [runFrom_listFrom_cons] at h
    simp only [writes, Moment.reply_outside, Moment.answered_outside, Moment.outside_clock] at hy
    cases hr : w.reply p (.list family) with
    | error e =>
      simp only [hr] at hy
      exact absurd hy List.not_mem_nil
    | ok rows =>
      simp only [hr, Outcome.after_result] at h hy
      generalize (if family.opensGroup then _ else time) = t at h hy
      generalize family.deployed w.state.filter t rows = rs at h hy
      obtain ⟨u, hwritten, hrest⟩ := Outcome.exists_of_andThen_ok h
      rcases List.mem_append.mp hy with hy | hy
      · obtain ⟨r, hmem, rfl⟩ := List.mem_map.mp hy
        exact fits_of_written hwritten r hmem
      · rw [written_eq_of_ok hwritten] at hrest
        obtain ⟨count, hcount, -⟩ := Outcome.exists_of_andThen_ok hrest
        exact ih hcount y hy

/-! ### Times -/

theorem now_le_of_mem_writes {p : Provider π} {filter : Filter} {time : Timestamp}
    {families : List Family} {w : Moment π Unit} {x : Write}
    (hx : x ∈ writes p filter time families w) : w.clock.now ≤ x.time := by
  induction families generalizing time w with
  | nil => exact absurd hx List.not_mem_nil
  | cons family rest ih =>
    have hnow := w.now_le_answered p (.list family)
    rw [writes] at hx
    cases hr : w.reply p (.list family) with
    | error e =>
      simp only [hr] at hx
      exact absurd hx List.not_mem_nil
    | ok rows =>
      simp only [hr] at hx
      rcases List.mem_append.mp hx with h | h
      · obtain ⟨r, -, rfl⟩ := List.mem_map.mp h
        exact hnow
      · exact Nat.le_trans hnow (ih h)

/-- Later rows are not written earlier. -/
theorem writes_pairwise_time (p : Provider π) (filter : Filter) (time : Timestamp)
    (families : List Family) (w : Moment π Unit) :
    (writes p filter time families w).Pairwise fun x y => x.time ≤ y.time := by
  induction families generalizing time w with
  | nil => exact List.Pairwise.nil
  | cons family rest ih =>
    rw [writes]
    cases w.reply p (.list family) with
    | error e => exact List.Pairwise.nil
    | ok rows =>
      refine List.pairwise_append.mpr ⟨?_, ih _ _, ?_⟩
      · exact List.pairwise_map.mpr (List.pairwise_of_forall fun _ _ => Nat.le_refl _)
      · intro x hx y hy
        obtain ⟨r, -, rfl⟩ := List.mem_map.mp hx
        exact now_le_of_mem_writes hy

/-! ### A whole refresh -/

def refreshWrites (p : Provider π) (w : Moment π Inventory) : List Write :=
  writes p w.state.filter w.clock.wall Family.all w.outside

theorem runFrom_refresh {p : Provider π} {w : Moment π Inventory} {x : Except Failure Nat}
    (h : (refresh.runFrom p w).result = .ok x) :
    (refresh.runFrom p w).state =
      { w.state.recordAll (refreshWrites p w) with incomplete := !x.isOk } := by
  rw [refresh, runFrom_clock_bind, runFrom_bind] at h ⊢
  obtain ⟨count, hcount, hx⟩ := Outcome.exists_of_andThen_ok h
  obtain ⟨hstate, -⟩ := runFrom_listFrom hcount
  obtain rfl := Except.ok.inj hx
  rw [Outcome.andThen_eq_of_ok hcount, runFrom_modify_bind, Outcome.moment_state, hstate]
  rfl

theorem fits_of_refresh {p : Provider π} {w : Moment π Inventory} {x : Except Failure Nat}
    (h : (refresh.runFrom p w).result = .ok x) :
    ∀ y ∈ refreshWrites p w, y.time + w.state.ttl < Nanos.horizon := by
  rw [refresh, runFrom_clock_bind, runFrom_bind] at h
  obtain ⟨count, hcount, -⟩ := Outcome.exists_of_andThen_ok h
  exact fits_of_listFrom hcount

/-- A refresh that goes through counts the rows it writes. -/
theorem length_refreshWrites {p : Provider π} {w : Moment π Inventory} {n : Nat}
    (h : (refresh.runFrom p w).result = .ok (.ok n)) : (refreshWrites p w).length = n := by
  rw [refresh, runFrom_clock_bind, runFrom_bind] at h
  obtain ⟨count, hcount, hx⟩ := Outcome.exists_of_andThen_ok h
  obtain ⟨-, hlength⟩ := runFrom_listFrom hcount
  obtain rfl := Except.ok.inj hx
  exact (hlength n rfl).symm

theorem exists_last_refreshWrite {p : Provider π} {w : Moment π Inventory} {n : Nat}
    (h : (refresh.runFrom p w).result = .ok (.ok n)) (hn : 1 ≤ n) :
    ∃ x, (refreshWrites p w).getLast? = some x := by
  have hlength := length_refreshWrites h
  cases hlast : (refreshWrites p w).getLast? with
  | some x => exact ⟨x, rfl⟩
  | none =>
    rw [List.getLast?_eq_none_iff.mp hlast, List.length_nil] at hlength
    omega

/-- The last row written under a key is served exactly until its own deadline: no other row moved
the deadline of the table to an earlier moment. -/
theorem get?_recordAll_iff {s : Inventory} {ws : List Write}
    (hws : ws.Pairwise fun x y => x.time ≤ y.time) {key : String} {x : Write}
    (hx : lastWrite key ws = some x) {now : Nat} :
    (s.recordAll ws).rows.get? now key = some x.resource ↔ now ≤ x.time + s.ttl := by
  have hentry := getElem?_recordAll s ws hx
  have hmem := mem_of_lastWrite ws hx
  obtain ⟨init, y, rfl⟩ : ∃ init y, ws = init ++ [y] :=
    ⟨_, _, (List.dropLast_concat_getLast (List.ne_nil_of_mem hmem)).symm⟩
  have hdeadline := deadline_recordAll_concat s init y
  have hle : x.time ≤ y.time := by
    rcases List.mem_append.mp hmem with h | h
    · exact (List.pairwise_append.mp hws).2.2 x h y List.mem_cons_self
    · exact Nat.le_of_eq (congrArg Write.time (List.mem_singleton.mp h))
  rw [Expiring.get?_eq_some_iff]
  constructor
  · rintro ⟨d, g, hd, -, hnow, -⟩
    obtain ⟨-, rfl⟩ := (Expiring.Entry.mk.injEq ..).mp (Option.some.inj (hentry.symm.trans hd))
    exact hnow
  · intro hnow
    exact ⟨x.time + s.ttl, y.time + s.ttl, hentry, hdeadline, hnow, by omega⟩

end PeakUsage.Inventory
