import PeakUsage.Proofs.Json.Records

/-! The values of the domain, read back from their JSON forms. A record is taken apart field by
field in the order in which it is read; what that says of each field puts its members together
again. -/
namespace PeakUsage
open Json

/-! ### Names -/

namespace Engine

theorem ofJson?_string (name : String) : ofJson? (.string name) = .ok (ofName name) := rfl

theorem mirrors : Mirrors ofJson? toJson := by
  intro j e _ h
  cases j with
  | string name =>
    obtain rfl := Except.ok.inj h
    have hname : (ofName name).toJson = .string name := congrArg Json.string (name_ofName name)
    refine ⟨?_, ?_⟩
    · rw [hname]
      exact printable_string name
    · rw [hname, ofJson?_string]
  | _ => cases h

end Engine

theorem Level.mirrors : Mirrors Level.ofJson? Level.toJson := mirrors_asChoice (by decide)

theorem Figure.mirrors : Mirrors Figure.ofJson? Figure.toJson := mirrors_asChoice (by decide)

theorem Statistic.mirrors : Mirrors Statistic.ofJson? Statistic.toJson :=
  mirrors_asChoice (by decide)

theorem Status.mirrors : Mirrors Status.ofJson? Status.toJson := mirrors_asChoice (by decide)

/-! ### Inventory -/

theorem Json.mirrors_count : Mirrors (asNatural UInt32.size) ofNat := mirrors_asNatural (by decide)

theorem Resource.mirrors : Mirrors Resource.ofJson? Resource.toJson := by
  refine Mirrors.record (fun _ => rfl) fun hr h => ?_
  obtain ⟨identifier, hidentifier, h⟩ := mirrors_asText.required hr h
  obtain ⟨instanceClass, hclass, h⟩ := mirrors_asText.required hr h
  obtain ⟨engine, hengine, h⟩ := Engine.mirrors.required hr h
  obtain ⟨level, hlevel, h⟩ := Level.mirrors.required hr h
  obtain ⟨dimension, hdimension, h⟩ := mirrors_asText.required hr h
  obtain ⟨brokerId, hid, h⟩ := mirrors_count.optional nofun hr h
  obtain ⟨brokerCount, hcount, h⟩ := mirrors_count.required hr h
  obtain ⟨collectedAt, htime, h⟩ := mirrors_asTime.required hr h
  obtain rfl := Except.ok.inj h
  refine ⟨by simp [hidentifier.printable, hclass.printable, hengine.printable, hlevel.printable,
    hdimension.printable, hid.printable, hcount.printable, htime.printable], ?_⟩
  rw [hidentifier.required (n := "identifier") rfl, hclass.required (n := "instance_class") rfl,
    hengine.required (n := "engine") rfl, hlevel.required (n := "level") rfl,
    hdimension.required (n := "identifier_field_name") rfl, hid.optional (n := "broker_id") rfl,
    hcount.required (n := "broker_count") rfl, htime.required (n := "collected_time") rfl]
  rfl

/-! ### Metrics -/

theorem Dimension.mirrors : Mirrors Dimension.ofJson? Dimension.toJson := by
  refine Mirrors.record (fun _ => rfl) fun hr h => ?_
  obtain ⟨name, hname, h⟩ := mirrors_asText.required hr h
  obtain ⟨value, hvalue, h⟩ := mirrors_asText.required hr h
  obtain rfl := Except.ok.inj h
  refine ⟨by simp [hname.printable, hvalue.printable], ?_⟩
  rw [hname.required (n := "name") rfl, hvalue.required (n := "value") rfl]
  rfl

theorem MetricQuery.mirrors : Mirrors MetricQuery.ofJson? MetricQuery.toJson := by
  refine Mirrors.record (fun _ => rfl) fun hr h => ?_
  obtain ⟨metricNamespace, hnamespace, h⟩ := mirrors_asText.required hr h
  obtain ⟨metric, hmetric, h⟩ := mirrors_asText.required hr h
  obtain ⟨dimensions, hdimensions, h⟩ := (mirrors_asList Dimension.mirrors).required hr h
  obtain ⟨start, hstart, h⟩ := mirrors_asTime.required hr h
  obtain ⟨stop, hstop, h⟩ := mirrors_asTime.required hr h
  obtain ⟨period, hperiod, h⟩ := mirrors_asPeriod.required hr h
  obtain ⟨statistic, hstatistic, h⟩ := Statistic.mirrors.required hr h
  obtain rfl := Except.ok.inj h
  refine ⟨by simp [hnamespace.printable, hmetric.printable, hdimensions.printable,
    hstart.printable, hstop.printable, hperiod.printable, hstatistic.printable], ?_⟩
  rw [hnamespace.required (n := "namespace") rfl, hmetric.required (n := "metric_name") rfl,
    hdimensions.required (n := "dimensions") rfl, hstart.required (n := "start") rfl,
    hstop.required (n := "end") rfl, hperiod.required (n := "period") rfl,
    hstatistic.required (n := "statistic") rfl]
  rfl

theorem Datapoint.mirrors : Mirrors Datapoint.ofJson? Datapoint.toJson := by
  refine Mirrors.record (fun _ => rfl) fun hr h => ?_
  obtain ⟨timestamp, htime, h⟩ := mirrors_asTime.required hr h
  obtain ⟨maximum, hmaximum, h⟩ := mirrors_asReal.optional nofun hr h
  obtain rfl := Except.ok.inj h
  refine ⟨by simp [htime.printable, hmaximum.printable], ?_⟩
  rw [htime.required (n := "timestamp") rfl, hmaximum.optional (n := "maximum") rfl]
  rfl

/-! ### Listings -/

section
variable (order : TableOrder)

theorem Json.mirrors_tags : Mirrors (asTable asText) (ofTableIn order .string) :=
  mirrors_asTable order mirrors_asText

theorem Json.restores_noTags : Restores (asTable asText) (ofTableIn order .string) ∅ := by
  have hwritten : ofTableIn order .string (∅ : Tags) = .object [] :=
    congrArg Json.object (order.perm []).eq_nil
  refine ⟨?_, ?_⟩
  · rw [hwritten]
    exact printable_object (List.forall_mem_nil _)
  · rw [hwritten]
    exact congrArg Except.ok Std.ExtTreeMap.ofList_nil

theorem InstanceRow.mirrors :
    Mirrors InstanceRow.ofJson? (InstanceRow.toJsonIn order) := by
  refine Mirrors.record (fun _ => rfl) fun hr h => ?_
  obtain ⟨identifier, hidentifier, h⟩ := mirrors_asText.required hr h
  obtain ⟨instanceClass, hclass, h⟩ := mirrors_asText.required hr h
  obtain ⟨engine, hengine, h⟩ := mirrors_asText.required hr h
  obtain ⟨tags, htags, h⟩ := (mirrors_tags order).defaulted (restores_noTags order) hr h
  obtain rfl := Except.ok.inj h
  refine ⟨by simp [hidentifier.printable, hclass.printable, hengine.printable, htags.printable], ?_⟩
  rw [hidentifier.required (n := "identifier") rfl, hclass.required (n := "instance_class") rfl,
    hengine.required (n := "engine") rfl, htags.defaulted (n := "tags") rfl]
  rfl

theorem ClusterRow.mirrors : Mirrors ClusterRow.ofJson? (ClusterRow.toJsonIn order) := by
  refine Mirrors.record (fun _ => rfl) fun hr h => ?_
  obtain ⟨identifier, hidentifier, h⟩ := mirrors_asText.required hr h
  obtain ⟨instanceClass, hclass, h⟩ := mirrors_asText.optional nofun hr h
  obtain ⟨engine, hengine, h⟩ := mirrors_asText.required hr h
  obtain ⟨tags, htags, h⟩ := (mirrors_tags order).defaulted (restores_noTags order) hr h
  obtain rfl := Except.ok.inj h
  refine ⟨by simp [hidentifier.printable, hclass.printable, hengine.printable, htags.printable], ?_⟩
  rw [hidentifier.required (n := "identifier") rfl, hclass.optional (n := "instance_class") rfl,
    hengine.required (n := "engine") rfl, htags.defaulted (n := "tags") rfl]
  rfl

end

theorem CacheRow.mirrors : Mirrors CacheRow.ofJson? CacheRow.toJson := by
  refine Mirrors.record (fun _ => rfl) fun hr h => ?_
  obtain ⟨identifier, hidentifier, h⟩ := mirrors_asText.required hr h
  obtain ⟨nodeType, htype, h⟩ := mirrors_asText.required hr h
  obtain ⟨engine, hengine, h⟩ := mirrors_asText.required hr h
  obtain rfl := Except.ok.inj h
  refine ⟨by simp [hidentifier.printable, htype.printable, hengine.printable], ?_⟩
  rw [hidentifier.required (n := "identifier") rfl, htype.required (n := "node_type") rfl,
    hengine.required (n := "engine") rfl]
  rfl

theorem StreamingRow.mirrors : Mirrors StreamingRow.ofJson? StreamingRow.toJson := by
  refine Mirrors.record (fun _ => rfl) fun hr h => ?_
  obtain ⟨name, hname, h⟩ := mirrors_asText.required hr h
  obtain ⟨instanceType, htype, h⟩ := mirrors_asText.required hr h
  obtain ⟨brokerCount, hcount, h⟩ := mirrors_count.required hr h
  obtain rfl := Except.ok.inj h
  refine ⟨by simp [hname.printable, htype.printable, hcount.printable], ?_⟩
  rw [hname.required (n := "name") rfl, htype.required (n := "instance_type") rfl,
    hcount.required (n := "broker_count") rfl]
  rfl

/-! ### Health -/

theorem Json.mirrors_seconds : Mirrors (asInteger minSigned maxSigned) .integer :=
  mirrors_asInteger (le_refl minSigned) (by decide)

theorem ComponentHealth.mirrors : Mirrors ComponentHealth.ofJson? ComponentHealth.toJson := by
  refine Mirrors.record ?_ fun hr h => ?_
  · rintro ⟨_, message, _⟩
    cases message <;> rfl
  obtain ⟨status, hstatus, h⟩ := Status.mirrors.required hr h
  obtain ⟨message, hmessage, h⟩ := mirrors_asText.optional nofun hr h
  obtain ⟨checkedAt, htime, h⟩ := mirrors_seconds.required hr h
  obtain rfl := Except.ok.inj h
  refine ⟨?_, ?_⟩
  · simp only [List.forall_mem_append, List.forall_mem_singleton]
    exact ⟨⟨hstatus.printable, hmessage.present⟩, htime.printable⟩
  rw [hstatus.required (n := "status") rfl, hmessage.omitted (n := "message") ?_,
    htime.required (n := "last_check_timestamp") ?_]
  · rfl
  · cases message <;> rfl
  · cases message <;> rfl

theorem HealthReport.mirrors (order : TableOrder) :
    Mirrors HealthReport.ofJson? (HealthReport.toJsonIn order) := by
  refine Mirrors.record (fun _ => rfl) fun hr h => ?_
  obtain ⟨status, hstatus, h⟩ := Status.mirrors.required hr h
  obtain ⟨components, hcomponents, h⟩ :=
    (mirrors_asTable order ComponentHealth.mirrors).required hr h
  obtain rfl := Except.ok.inj h
  refine ⟨by simp [hstatus.printable, hcomponents.printable], ?_⟩
  rw [hstatus.required (n := "status") rfl, hcomponents.required (n := "components") rfl]
  rfl

theorem Readiness.mirrors : Mirrors Readiness.ofJson? Readiness.toJson := by
  refine Mirrors.record ?_ fun hr h => ?_
  · rintro ⟨_, reason⟩
    cases reason <;> rfl
  obtain ⟨ready, hready, h⟩ := mirrors_asBool.required hr h
  obtain ⟨reason, hreason, h⟩ := mirrors_asText.optional nofun hr h
  obtain rfl := Except.ok.inj h
  refine ⟨List.forall_mem_cons.mpr ⟨hready.printable, hreason.present⟩, ?_⟩
  rw [hready.required (n := "ready") rfl, hreason.omitted (n := "reason") ?_]
  · rfl
  · cases reason <;> rfl

/-! ### Forms -/

/-- The kinds of values that have a JSON form in both directions. -/
inductive Form where
  | engine
  | level
  | resource
  | figure
  | dimension
  | statistic
  | metricQuery
  | datapoint
  | instanceRow
  | clusterRow
  | cacheRow
  | streamingRow
  | status
  | componentHealth
  | healthReport
  | readiness

namespace Form

/-- The values of a kind. -/
abbrev Value : Form → Type
  | engine => Engine
  | level => Level
  | resource => Resource
  | figure => Figure
  | dimension => Dimension
  | statistic => Statistic
  | metricQuery => MetricQuery
  | datapoint => Datapoint
  | instanceRow => InstanceRow
  | clusterRow => ClusterRow
  | cacheRow => CacheRow
  | streamingRow => StreamingRow
  | status => Status
  | componentHealth => ComponentHealth
  | healthReport => HealthReport
  | readiness => Readiness

def encode : (f : Form) → f.Value → Json
  | engine => Engine.toJson
  | level => Level.toJson
  | resource => Resource.toJson
  | figure => Figure.toJson
  | dimension => Dimension.toJson
  | statistic => Statistic.toJson
  | metricQuery => MetricQuery.toJson
  | datapoint => Datapoint.toJson
  | instanceRow => InstanceRow.toJson
  | clusterRow => ClusterRow.toJson
  | cacheRow => CacheRow.toJson
  | streamingRow => StreamingRow.toJson
  | status => Status.toJson
  | componentHealth => ComponentHealth.toJson
  | healthReport => HealthReport.toJson
  | readiness => Readiness.toJson

/-- The tables of a value written in any order. -/
def encodeIn (order : TableOrder) : (f : Form) → f.Value → Json
  | instanceRow => InstanceRow.toJsonIn order
  | clusterRow => ClusterRow.toJsonIn order
  | healthReport => HealthReport.toJsonIn order
  | f => f.encode

theorem encodeIn_byName (f : Form) : f.encodeIn .byName = f.encode := by
  cases f <;> rfl

def decode : (f : Form) → Decoder f.Value
  | engine => Engine.ofJson?
  | level => Level.ofJson?
  | resource => Resource.ofJson?
  | figure => Figure.ofJson?
  | dimension => Dimension.ofJson?
  | statistic => Statistic.ofJson?
  | metricQuery => MetricQuery.ofJson?
  | datapoint => Datapoint.ofJson?
  | instanceRow => InstanceRow.ofJson?
  | clusterRow => ClusterRow.ofJson?
  | cacheRow => CacheRow.ofJson?
  | streamingRow => StreamingRow.ofJson?
  | status => Status.ofJson?
  | componentHealth => ComponentHealth.ofJson?
  | healthReport => HealthReport.ofJson?
  | readiness => Readiness.ofJson?

/-- What a text is accepted as. -/
def read (f : Form) (s : String) : Except JsonFault f.Value :=
  match parse? s with
  | some j => f.decode j
  | none => .error .malformed

/-- The text a value is written as. -/
def write (f : Form) (v : f.Value) : String := text (f.encode v)

theorem mirrors (order : TableOrder) (f : Form) : Mirrors f.decode (f.encodeIn order) := by
  cases f with
  | engine => exact Engine.mirrors
  | level => exact Level.mirrors
  | resource => exact Resource.mirrors
  | figure => exact Figure.mirrors
  | dimension => exact Dimension.mirrors
  | statistic => exact Statistic.mirrors
  | metricQuery => exact MetricQuery.mirrors
  | datapoint => exact Datapoint.mirrors
  | instanceRow => exact InstanceRow.mirrors order
  | clusterRow => exact ClusterRow.mirrors order
  | cacheRow => exact CacheRow.mirrors
  | streamingRow => exact StreamingRow.mirrors
  | status => exact Status.mirrors
  | componentHealth => exact ComponentHealth.mirrors
  | healthReport => exact HealthReport.mirrors order
  | readiness => exact Readiness.mirrors

theorem restores_of_read {f : Form} {s : String} {v : f.Value} (h : f.read s = .ok v)
    (order : TableOrder) : Restores f.decode (f.encodeIn order) v := by
  unfold read at h
  split at h
  · next hj => exact f.mirrors order (bounded_parse? hj) h
  · cases h

theorem read_of_parse? {f : Form} {s : String} {j : Json} (h : parse? s = some j) :
    f.read s = f.decode j := by
  rw [read, h]

/-- What was read is written as a text of the same value, whatever order tables are written in. -/
theorem read_text_encodeIn {f : Form} {s : String} {v : f.Value} (h : f.read s = .ok v)
    (order : TableOrder) :
    parse? (text (f.encodeIn order v)) = some (f.encodeIn order v) ∧
      f.read (text (f.encodeIn order v)) = .ok v := by
  obtain ⟨hprintable, hdecoded⟩ := restores_of_read h order
  have hparse := parse?_text hprintable
  exact ⟨hparse, (read_of_parse? hparse).trans hdecoded⟩

/-- Reading undoes writing: a value that some text is accepted as is written as the text of its
form, which is accepted as the value again, also when its tables are written in another order; and a
name that is read as an engine is written as it was. -/
theorem read_write :
    (∀ (f : Form) (s : String) (v : f.Value), f.read s = .ok v →
      parse? (f.write v) = some (f.encode v) ∧ f.read (f.write v) = .ok v ∧
      ∀ order : TableOrder,
        parse? (text (f.encodeIn order v)) = some (f.encodeIn order v) ∧
          f.read (text (f.encodeIn order v)) = .ok v) ∧
    ∀ name : String, ∃ e, engine.decode (.string name) = .ok e ∧
      engine.encode e = .string name := by
  refine ⟨fun f s v h => ?_, fun name => ?_⟩
  · have hbyName := read_text_encodeIn h .byName
    rw [encodeIn_byName] at hbyName
    exact ⟨hbyName.1, hbyName.2, read_text_encodeIn h⟩
  · exact ⟨Engine.ofName name, Engine.ofJson?_string name,
      congrArg Json.string (Engine.name_ofName name)⟩

/-- A row given as an array. -/
theorem read_write_array :
    streamingRow.read "[\"mq-1\", \"kafka.t3.small\", 3]" = .ok ⟨"mq-1", "kafka.t3.small", 3⟩ ∧
      parse? (streamingRow.write ⟨"mq-1", "kafka.t3.small", 3⟩) =
        some (streamingRow.encode ⟨"mq-1", "kafka.t3.small", 3⟩) ∧
      streamingRow.read (streamingRow.write ⟨"mq-1", "kafka.t3.small", 3⟩) =
        .ok ⟨"mq-1", "kafka.t3.small", 3⟩ := by
  have hread : streamingRow.read "[\"mq-1\", \"kafka.t3.small\", 3]" =
      .ok ⟨"mq-1", "kafka.t3.small", 3⟩ := by decide +kernel
  obtain ⟨hparse, hagain, -⟩ := read_write.1 streamingRow _ _ hread
  exact ⟨hread, hparse, hagain⟩

end Form

end PeakUsage
