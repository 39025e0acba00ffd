import Mathlib.Algebra.GroupWithZero.Nat
import PeakUsage.Proofs.Inventory.Refresh
import PeakUsage.Proofs.Sequences

/-! A refresh family by family. The families are listed in order up to the first that cannot be
listed, and the rows of those before it are written. -/
namespace PeakUsage

/-! ### Rows of the deployment -/

/-- Exactly three tags are expected, and each of them is carried with the same value. -/
def Inventory.Filter.Tagged (f : Inventory.Filter) (tags : Tags) : Prop :=
  f.expectedTags.size = 3 ∧
    ∀ name value : String, f.expectedTags[name]? = some value → tags[name]? = some value

/-- The name of the environment stands in the identifier. -/
def Inventory.Filter.Named (f : Inventory.Filter) (identifier : String) : Prop :=
  f.environmentName.toList <:+: identifier.toList

theorem Tags.matches_iff {f : Inventory.Filter} {tags : Tags} :
    Tags.matches f.expectedTags tags = true ↔ f.Tagged tags := by
  have hall : (f.expectedTags.toList.all fun x => tags[x.1]? = some x.2) = true ↔
      ∀ name value : String, f.expectedTags[name]? = some value → tags[name]? = some value := by
    simp [List.all_eq_true, Std.ExtTreeMap.mem_toList_iff_getElem?_eq_some]
  simp only [Tags.matches, Inventory.Filter.Tagged, expectedTagCount, Bool.and_eq_true, hall]
  constructor
  · rintro ⟨⟨-, hsize⟩, htags⟩
    exact ⟨of_decide_eq_true hsize, htags⟩
  · rintro ⟨hsize, htags⟩
    refine ⟨⟨?_, decide_eq_true hsize⟩, htags⟩
    -- The target has some tag, because one of the three is found in it.
    have hpos : 0 < f.expectedTags.toList.length := by
      rw [Std.ExtTreeMap.length_toList, hsize]
      omega
    obtain ⟨⟨name, value⟩, hmem⟩ := List.exists_mem_of_length_pos hpos
    have htarget := htags name value (Std.ExtTreeMap.mem_toList_iff_getElem?_eq_some.mp hmem)
    rw [Bool.not_eq_true', ← Bool.not_eq_true]
    intro hempty
    rw [Std.ExtTreeMap.isEmpty_iff.mp hempty] at htarget
    simp at htarget

namespace Family

/-- Whether a row is one of the deployment. -/
def Belongs (f : Inventory.Filter) : (family : Family) → family.Row → Prop
  | .relationalInstance, row => f.Tagged row.tags
  | .relationalCluster, row => f.Tagged row.tags
  | .documentInstance, row => f.Named row.identifier
  | .documentCluster, row => f.Named row.identifier
  | .keyValueCache, row => f.Named row.identifier
  | .streaming, row => f.Named row.name

theorem admits_iff {f : Inventory.Filter} {family : Family} {row : family.Row} :
    family.admits f row = true ↔ family.Belongs f row := by
  cases family with
  | relationalInstance => exact Tags.matches_iff
  | relationalCluster => exact Tags.matches_iff
  | documentInstance => exact Text.contains_iff
  | documentCluster => exact Text.contains_iff
  | keyValueCache => exact Text.contains_iff
  | streaming => exact Text.contains_iff

instance (f : Inventory.Filter) (family : Family) : DecidablePred (family.Belongs f) :=
  fun _ => decidable_of_iff _ admits_iff

theorem deployed_eq (f : Inventory.Filter) (time : Timestamp) (family : Family)
    (rows : List family.Row) :
    family.deployed f time rows =
      (rows.filter (family.Belongs f ·)).flatMap (family.resources time) := by
  have hfilter : rows.filter (family.admits f) = rows.filter (family.Belongs f ·) := by
    refine List.filter_congr fun row _ => ?_
    rw [Bool.eq_iff_iff, decide_eq_true_iff]
    exact admits_iff
  rw [deployed, included, hfilter, List.map_flatMap]
  rfl

/-- How many resources a row stands for. -/
def weight : (family : Family) → family.Row → Nat
  | .streaming, row => 1 + row.brokerCount
  | _, _ => 1

theorem length_resources (time : Timestamp) (family : Family) (row : family.Row) :
    (family.resources time row).length = family.weight row := by
  cases family with
  | streaming =>
    change ((StreamingRow.placements row time).map (·.resource)).length = 1 + row.brokerCount
    rw [StreamingRow.placements, List.length_map, List.length_cons, List.length_map,
      List.length_range', Nat.add_comm]
  | _ => rfl

/-- The family whose answer dates the rows of a family. -/
def opener : Family → Family
  | .relationalCluster => .relationalInstance
  | .documentCluster => .documentInstance
  | family => family

theorem opener_opener (family : Family) : family.opener.opener = family.opener := by
  cases family <;> rfl

theorem opener_of_opensGroup {family : Family} (h : family.opensGroup = true) :
    family.opener = family := by
  cases family with
  | relationalCluster => cases h
  | documentCluster => cases h
  | _ => rfl

/-- The families listed before a family. -/
def earlier (family : Family) : List Family := all.takeWhile (· ≠ family)

theorem earlier_of_split {family : Family} {before after : List Family}
    (h : all = before ++ family :: after) : family.earlier = before := by
  have hnodup : all.Nodup := by decide
  rw [h, List.nodup_append] at hnodup
  have hne : ∀ f ∈ before, decide (f ≠ family) = true := fun f hf =>
    decide_eq_true (hnodup.2.2 f hf family List.mem_cons_self)
  rw [earlier, h, List.takeWhile_append_of_pos hne]
  simp

/-- A family that shares a time shares that of the family right before it. -/
theorem opener_of_not_opensGroup {family : Family} (h : family.opensGroup = false) :
    family.earlier.getLast? = some family.opener := by
  cases family with
  | relationalCluster => rfl
  | documentCluster => rfl
  | _ => cases h

end Family

namespace Inventory
open Program
variable {π : Type}

/-! ### What a refresh hears of a family -/

section
variable (p : Provider π) (filter : Filter) (w : Moment π Unit) (family : Family)

/-- Where a family is listed if all families before it could be. -/
def callOf : Moment π Unit := family.earlier.foldl (fun v f => v.answered p (.list f)) w

def replyTo : Reply (.list family) := (callOf p w family).reply p (.list family)

/-- The clocks right after the answer about a family. -/
def arrivalOf : Clock := (callOf p w family).arrival p (.list family)

def heard : List Happening :=
  [.asked (.list family), .answered (.list family) (replyTo p w family)]

/-- The rows of the deployment in the answer about a family. -/
def belonging : List family.Row :=
  match replyTo p w family with
  | .error _ => []
  | .ok rows => rows.filter (family.Belongs filter ·)

/-- What is written of a family: under the time of its group, when its own answer has arrived. -/
def rowsOf : List Write :=
  ((belonging p filter w family).flatMap
    (family.resources (arrivalOf p w family.opener).wall)).map (Write.mk (arrivalOf p w family).now)

/-- How many resources the rows of a family stand for. -/
def countOf : Nat := ((belonging p filter w family).map family.weight).sum

theorem length_rowsOf : (rowsOf p filter w family).length = countOf p filter w family := by
  rw [rowsOf, List.length_map, List.length_flatMap, countOf]
  congr 1
  exact List.map_congr_left fun row _ => family.length_resources _ row

variable {p filter w family}

theorem collectedAt_of_mem_rowsOf {x : Write} (hx : x ∈ rowsOf p filter w family) :
    x.resource.collectedAt = (arrivalOf p w family.opener).wall := by
  obtain ⟨r, hr, rfl⟩ := List.mem_map.mp hx
  obtain ⟨row, -, hrow⟩ := List.mem_flatMap.mp hr
  exact Family.collectedAt_of_mem_resources hrow

theorem rowsOf_of_ok {rows : List family.Row} (h : replyTo p w family = .ok rows) :
    rowsOf p filter w family =
      (family.deployed filter (arrivalOf p w family.opener).wall rows).map
        (Write.mk (arrivalOf p w family).now) := by
  rw [Family.deployed_eq, rowsOf, belonging, h]

end

/-! ### A prefix of the families -/

section
variable (p : Provider π) (w : Moment π Inventory) (before : List Family)

/-- Where a refresh has got to when the families of a prefix are listed. -/
def afterListing : Moment π Inventory :=
  let v := before.foldl (fun v f => v.answered p (.list f)) w.outside
  ⟨v.memory, v.clock, w.state.recordAll (before.flatMap (rowsOf p w.state.filter w.outside))⟩

/-- The time that the next family gets if it opens no group. -/
def groupTime : Timestamp :=
  match before.getLast? with
  | some family => (arrivalOf p w.outside family.opener).wall
  | none => w.clock.wall

theorem groupTime_concat (family : Family) :
    groupTime p w (before ++ [family]) = (arrivalOf p w.outside family.opener).wall := by
  rw [groupTime, List.getLast?_concat]

variable {before} {family : Family} {rest : List Family}

theorem reply_afterListing (hsplit : Family.all = before ++ family :: rest) :
    (afterListing p w before).reply p (.list family) = replyTo p w.outside family := by
  unfold replyTo callOf
  rw [Family.earlier_of_split hsplit]
  rfl

theorem arrival_afterListing (hsplit : Family.all = before ++ family :: rest) :
    (afterListing p w before).arrival p (.list family) = arrivalOf p w.outside family := by
  unfold arrivalOf callOf
  rw [Family.earlier_of_split hsplit]
  rfl

/-- The time of a family's rows is that of its group. -/
theorem time_afterListing (hsplit : Family.all = before ++ family :: rest) :
    (if family.opensGroup then ((afterListing p w before).arrival p (.list family)).wall
      else groupTime p w before) = groupTime p w (before ++ [family]) := by
  rw [groupTime_concat, arrival_afterListing p w hsplit]
  cases hopens : family.opensGroup with
  | true => rw [if_pos rfl, Family.opener_of_opensGroup hopens]
  | false =>
    have hlast := Family.opener_of_not_opensGroup hopens
    rw [Family.earlier_of_split hsplit] at hlast
    rw [if_neg Bool.false_ne_true, groupTime, hlast]
    exact congrArg (fun f => (arrivalOf p w.outside f).wall) family.opener_opener

theorem runFrom_listFrom_failed (hsplit : Family.all = before ++ family :: rest) {e : Refusal}
    (hreply : replyTo p w.outside family = .error e) :
    let v := (afterListing p w before).answered p (.list family)
    (listFrom (groupTime p w before) (family :: rest)).runFrom p (afterListing p w before) =
      ⟨.ok (.error (.listing family e)), (afterListing p w before).state, v.clock, v.memory,
        heard p w.outside family⟩ := by
  simp only [runFrom_listFrom_cons, reply_afterListing p w hsplit, heard, hreply]
  rfl

/-- What the rows of one more family make of the table. -/
theorem afterListing_concat (hsplit : Family.all = before ++ family :: rest)
    {rows : List family.Row} (hreply : replyTo p w.outside family = .ok rows) :
    let v := (afterListing p w before).answered p (.list family)
    let rs := family.deployed w.state.filter (groupTime p w (before ++ [family])) rows
    (⟨v.memory, v.clock, v.state.recordAll (rs.map (Write.mk v.clock.now))⟩ :
      Moment π Inventory) = afterListing p w (before ++ [family]) := by
  intro v rs
  have hclock : v.clock = arrivalOf p w.outside family := arrival_afterListing p w hsplit
  have hrows : rs.map (Write.mk v.clock.now) =
      rowsOf p w.state.filter w.outside family := by
    rw [rowsOf_of_ok hreply, ← groupTime_concat p w before, hclock]
  have hstate : v.state.recordAll (rs.map (Write.mk v.clock.now)) =
      w.state.recordAll ((before ++ [family]).flatMap (rowsOf p w.state.filter w.outside)) := by
    rw [hrows, List.flatMap_append, List.flatMap_singleton, recordAll_append]
    rfl
  rw [hstate, afterListing, List.foldl_append]
  rfl

theorem runFrom_listFrom_listed (hsplit : Family.all = before ++ family :: rest)
    {rows : List family.Row} (hreply : replyTo p w.outside family = .ok rows)
    (h : ((listFrom (groupTime p w before) (family :: rest)).runFrom p
      (afterListing p w before)).result ≠ .error .pastHorizon) :
    let o := (listFrom (groupTime p w (before ++ [family])) rest).runFrom p
      (afterListing p w (before ++ [family]))
    let count := countOf p w.state.filter w.outside family
    (listFrom (groupTime p w before) (family :: rest)).runFrom p (afterListing p w before) =
      (o.map (Except.map (count + ·))).after (heard p w.outside family) := by
  intro o count
  obtain ⟨x, hx⟩ := exists_ok_of_ne_pastHorizon h
  have hnext := afterListing_concat p w hsplit hreply
  have hcount : (family.deployed w.state.filter (groupTime p w (before ++ [family])) rows).length =
      countOf p w.state.filter w.outside family := by
    rw [← length_rowsOf, rowsOf_of_ok hreply, List.length_map, groupTime_concat]
  have hfilter : (afterListing p w before).state.filter = w.state.filter := rfl
  have htime := time_afterListing p w hsplit
  change (if family.opensGroup then
    ((afterListing p w before).answered p (.list family)).clock.wall else _) = _ at htime
  simp only [runFrom_listFrom_cons, reply_afterListing p w hsplit, hreply, hfilter, htime] at hx ⊢
  obtain ⟨u, hwritten, hrest⟩ := Outcome.exists_of_andThen_ok hx
  rw [Outcome.andThen_eq_of_ok hwritten, written_eq_of_ok hwritten, heard, hreply]
  simp only [hcount, Outcome.moment, hnext]
  exact congrArg (Outcome.after · _) (Outcome.andThen_pure o _)

variable (before)

/-- A listing goes on behind the families that could be listed. -/
theorem runFrom_listFrom_append (hsplit : Family.all = before ++ rest)
    (hok : ∀ f ∈ before, (replyTo p w.outside f).isOk = true)
    (h : ((listFrom w.clock.wall Family.all).runFrom p w).result ≠ .error .pastHorizon) :
    let o := (listFrom (groupTime p w before) rest).runFrom p (afterListing p w before)
    let count := (before.map (countOf p w.state.filter w.outside)).sum
    (listFrom w.clock.wall Family.all).runFrom p w =
      (o.map (Except.map (count + ·))).after (before.flatMap (heard p w.outside)) := by
  induction before using List.reverseRecOn generalizing rest with
  | nil =>
    have hid : (Except.map (0 + ·) : Except Failure Nat → Except Failure Nat) = id := by
      simp only [Nat.zero_add]
      exact Except.map_id
    change _ = (Outcome.map (Except.map (0 + ·)) _).after []
    rw [hid, Outcome.map_id, hsplit]
    rfl
  | append_singleton before family ih =>
    have hsplit' : Family.all = before ++ family :: rest := by
      rw [hsplit, List.append_assoc, List.singleton_append]
    have hbefore := ih hsplit' fun f hf => hok f (List.mem_append_left _ hf)
    have hfamily := hok family (List.mem_append_right _ List.mem_cons_self)
    cases hreply : replyTo p w.outside family with
    | error e =>
      rw [hreply] at hfamily
      cases hfamily
    | ok rows =>
      have hfits : ((listFrom (groupTime p w before) (family :: rest)).runFrom p
          (afterListing p w before)).result ≠ .error .pastHorizon := by
        intro hhalt
        rw [hbefore] at h
        exact h (by rw [Outcome.after_result, Outcome.map, hhalt]; rfl)
      have hcount : ∀ m n : Nat, (Except.map (m + ·) : Except Failure Nat → _) ∘
          Except.map (n + ·) = Except.map ((m + n) + ·) := by
        intro m n
        funext x
        cases x with
        | error e => rfl
        | ok k => exact congrArg Except.ok (Nat.add_assoc m n k).symm
      rw [hbefore, runFrom_listFrom_listed p w hsplit' hreply hfits]
      simp only [Outcome.map_after, Outcome.map_map, Outcome.after_after, hcount,
        List.flatMap_append, List.flatMap_singleton, List.map_append, List.sum_append,
        List.map_singleton, List.sum_singleton]

end

/-! ### A whole refresh -/

section
variable {p : Provider π} {w : Moment π Inventory}

theorem runFrom_refresh_of_listFrom {x : Except Failure Nat}
    (hx : ((listFrom w.clock.wall Family.all).runFrom p w).result = .ok x) :
    let o := (listFrom w.clock.wall Family.all).runFrom p w
    refresh.runFrom p w =
      ⟨.ok x, { o.state with incomplete := !x.isOk }, o.clock, o.memory, o.trace⟩ := by
  intro o
  rw [refresh, runFrom_clock_bind, runFrom_bind_ok hx, runFrom_modify_bind, runFrom_pure]
  unfold Outcome.after
  rw [List.append_nil]
  rfl

theorem listFrom_of_refresh (h : (refresh.runFrom p w).result ≠ .error .pastHorizon) :
    ((listFrom w.clock.wall Family.all).runFrom p w).result ≠ .error .pastHorizon := by
  intro hhalt
  apply h
  rw [refresh, runFrom_clock_bind, runFrom_bind_error hhalt]

/-- A refresh lists the families in order up to the first that fails, writes the rows of those
before it, and remembers whether it went through. -/
theorem refresh_families (h : (refresh.runFrom p w).result ≠ .error .pastHorizon) :
    let o := refresh.runFrom p w
    let rows := rowsOf p w.state.filter w.outside
    (∀ before family after e, Family.all = before ++ family :: after →
      (∀ f ∈ before, (replyTo p w.outside f).isOk = true) →
      replyTo p w.outside family = .error e →
      o.result = .ok (.error (.listing family e)) ∧
        o.trace = (before ++ [family]).flatMap (heard p w.outside) ∧
        o.state = { w.state.recordAll (before.flatMap rows) with incomplete := true }) ∧
    ((∀ f ∈ Family.all, (replyTo p w.outside f).isOk = true) →
      o.result = .ok (.ok (Family.all.map (countOf p w.state.filter w.outside)).sum) ∧
        o.trace = Family.all.flatMap (heard p w.outside) ∧
        o.state = { w.state.recordAll (Family.all.flatMap rows) with incomplete := false }) ∧
    ∀ family, ∀ x ∈ rows family,
      x.resource.collectedAt = (arrivalOf p w.outside family.opener).wall := by
  intro o rows
  have hlist := listFrom_of_refresh h
  refine ⟨?_, ?_, fun family x hx => collectedAt_of_mem_rowsOf hx⟩
  · intro before family after e hsplit hbefore hfailed
    have hrun := runFrom_listFrom_append p w before hsplit hbefore hlist
    rw [runFrom_listFrom_failed p w hsplit hfailed] at hrun
    have hresult : ((listFrom w.clock.wall Family.all).runFrom p w).result =
        .ok (.error (.listing family e)) := by rw [hrun]; rfl
    have hrefresh := runFrom_refresh_of_listFrom hresult
    rw [hrun] at hrefresh
    refine ⟨?_, ?_, ?_⟩
    · exact congrArg Outcome.result hrefresh
    · rw [List.flatMap_append, List.flatMap_singleton]
      exact congrArg Outcome.trace hrefresh
    · exact congrArg Outcome.state hrefresh
  · intro hall
    have hsplit : Family.all = Family.all ++ [] := (List.append_nil _).symm
    have hrun := runFrom_listFrom_append p w Family.all hsplit hall hlist
    have hresult : ((listFrom w.clock.wall Family.all).runFrom p w).result =
        .ok (.ok (Family.all.map (countOf p w.state.filter w.outside)).sum) := by rw [hrun]; rfl
    have hrefresh := runFrom_refresh_of_listFrom hresult
    rw [hrun] at hrefresh
    refine ⟨congrArg Outcome.result hrefresh, ?_, congrArg Outcome.state hrefresh⟩
    exact (congrArg Outcome.trace hrefresh).trans (List.append_nil _)

end

/-! ### A refresh that stops at the clusters of document databases -/

def shopTags : Tags := .ofList [("team", "acme"), ("service", "shop"), ("stage", "dev")]

/-- Lists a tagged instance and cluster, and a document database of the environment; each answer
takes a second. -/
def shopProvider : Provider Unit :=
  .steady (Nanos.ofSeconds 1) fun r => match r with
    | .list .relationalInstance =>
      .ok [⟨"shop", "db.r6g.large", "postgres", shopTags⟩, ⟨"other", "db.r6g.large", "mysql", ∅⟩]
    | .list .relationalCluster => .ok [⟨"shop-all", none, "postgres", shopTags⟩]
    | .list .documentInstance => .ok [⟨"acme-dev-carts", "db.r6g.large", "docdb", ∅⟩]
    | .list .documentCluster => .error ⟨some 503, "busy"⟩
    | .list _ => .ok []
    | .statistics _ => .ok []

def shopStart : Moment Unit Inventory :=
  ⟨(), ⟨0, ⟨0, 0⟩⟩, new ⟨shopTags, "dev"⟩ (Nanos.ofSeconds 600)⟩

theorem refresh_shopStart : (refresh.runFrom shopProvider shopStart).result =
    .ok (.error (.listing .documentCluster ⟨some 503, "busy"⟩)) := rfl

def shopWrites : List Write :=
  [⟨Nanos.ofSeconds 1, InstanceRow.toResource ⟨"shop", "db.r6g.large", "postgres", ∅⟩ ⟨1, 0⟩⟩,
    ⟨Nanos.ofSeconds 2, ClusterRow.toResource ⟨"shop-all", none, "postgres", ∅⟩ "" ⟨1, 0⟩⟩,
    ⟨Nanos.ofSeconds 3,
      InstanceRow.toResource ⟨"acme-dev-carts", "db.r6g.large", "docdb", ∅⟩ ⟨3, 0⟩⟩]

/-- The cluster carries the time of the instances, and the database is kept although its group
fails at the clusters. -/
theorem refresh_families_stopped :
    (refresh.runFrom shopProvider shopStart).result ≠ .error .pastHorizon ∧
      (refresh.runFrom shopProvider shopStart).state =
        { shopStart.state.recordAll shopWrites with incomplete := true } := by
  have hfits : (refresh.runFrom shopProvider shopStart).result ≠ .error .pastHorizon := by
    rw [refresh_shopStart]
    exact nofun
  obtain ⟨hstopped, -, -⟩ := refresh_families hfits
  have hlisted : ∀ f ∈ [Family.relationalInstance, .relationalCluster, .documentInstance],
      (replyTo shopProvider shopStart.outside f).isOk = true := by decide
  obtain ⟨-, -, hstate⟩ := hstopped _ .documentCluster [.keyValueCache, .streaming]
    ⟨some 503, "busy"⟩ rfl hlisted rfl
  have hrows : [Family.relationalInstance, .relationalCluster, .documentInstance].flatMap
      (rowsOf shopProvider shopStart.state.filter shopStart.outside) = shopWrites := rfl
  rw [hrows] at hstate
  exact ⟨hfits, hstate⟩

end Inventory
end PeakUsage
