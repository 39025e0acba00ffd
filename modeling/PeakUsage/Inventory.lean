import PeakUsage.Expiring
import PeakUsage.Program
import PeakUsage.Text.Infix

/-! The inventory: an expiring table of the resources of one deployment. -/
namespace PeakUsage

/-- Which rows of the provider belong to the deployment. -/
structure Inventory.Filter where
  /-- The tags of every relational row. -/
  expectedTags : Tags
  /-- The text that identifiers of the other families contain. -/
  environmentName : String

structure Inventory where
  filter : Inventory.Filter
  /-- How long a row is kept. -/
  ttl : Nat
  rows : Expiring String Resource
  /-- Whether the last refresh stopped at a family that could not be listed. -/
  incomplete : Bool

/-! ### From rows to resources -/

/-- Whether the family is listed at a time of its own; the others share that of the one before. -/
def Family.opensGroup : Family → Bool
  | .relationalInstance | .documentInstance | .keyValueCache | .streaming => true
  | .relationalCluster | .documentCluster => false

def Family.admits (f : Inventory.Filter) : (family : Family) → family.Row → Bool
  | .relationalInstance, row => Tags.matches f.expectedTags row.tags
  | .relationalCluster, row => Tags.matches f.expectedTags row.tags
  | .documentInstance, row => Text.contains row.identifier f.environmentName
  | .documentCluster, row => Text.contains row.identifier f.environmentName
  | .keyValueCache, row => Text.contains row.identifier f.environmentName
  | .streaming, row => Text.contains row.name f.environmentName

def InstanceRow.toResource (row : InstanceRow) (time : Timestamp) : Resource where
  identifier := row.identifier
  instanceClass := row.instanceClass
  engine := .ofName row.engine
  level := .node
  dimension := "DBInstanceIdentifier"
  brokerId := none
  brokerCount := 0
  collectedAt := time

/-- The resource of a database cluster under the given class. -/
def ClusterRow.toResource (row : ClusterRow) (instanceClass : String) (time : Timestamp) :
    Resource where
  identifier := row.identifier
  instanceClass := instanceClass
  engine := .ofName row.engine
  level := .cluster
  dimension := "DBClusterIdentifier"
  brokerId := none
  brokerCount := 0
  collectedAt := time

def CacheRow.toResource (row : CacheRow) (time : Timestamp) : Resource where
  identifier := row.identifier
  instanceClass := row.nodeType
  engine := .ofName row.engine
  level := .cluster
  dimension := "CacheClusterId"
  brokerId := none
  brokerCount := 0
  collectedAt := time

/-- The resource of a streaming cluster, or of a broker of it. -/
def StreamingRow.toResource (row : StreamingRow) (level : Level) (broker : Option Nat)
    (time : Timestamp) : Resource where
  identifier := row.name
  instanceClass := row.instanceType
  engine := .kafka
  level := level
  dimension := "Cluster Name"
  brokerId := broker
  brokerCount := row.brokerCount
  collectedAt := time

/-- A resource and the key it is written under. -/
structure Placement where
  key : String
  resource : Resource

/-- A streaming cluster followed by its brokers, which are numbered from 1. -/
def StreamingRow.placements (row : StreamingRow) (time : Timestamp) : List Placement :=
  ⟨row.name, row.toResource .cluster none time⟩ ::
    (List.range' 1 row.brokerCount).map fun id =>
      ⟨brokerKey row.name id, row.toResource .broker (some id) time⟩

/-- What is written of a row: the resources it stands for. A document cluster has no class to
report. -/
def Family.placements (time : Timestamp) : (family : Family) → family.Row → List Placement
  | .relationalInstance, row => [⟨row.identifier, row.toResource time⟩]
  | .relationalCluster, row =>
    [⟨row.identifier, row.toResource (row.instanceClass.getD "") time⟩]
  | .documentInstance, row => [⟨row.identifier, row.toResource time⟩]
  | .documentCluster, row => [⟨row.identifier, row.toResource "N/A" time⟩]
  | .keyValueCache, row => [⟨row.identifier, row.toResource time⟩]
  | .streaming, row => row.placements time

/-- What is written of a listing: the resources of the deployment. -/
def Family.included (f : Inventory.Filter) (time : Timestamp) (family : Family)
    (rows : List family.Row) : List Placement :=
  (rows.filter (family.admits f)).flatMap (family.placements time)

namespace Inventory
open Program

def new (filter : Filter) (ttl : Nat) : Inventory := ⟨filter, ttl, .empty, false⟩

/-- Whether the next look at the resources asks the provider. -/
def needsRefresh (s : Inventory) (now : Nat) : Bool :=
  s.rows.isEmpty || s.rows.isExpired now || s.incomplete

def insert (key : String) (r : Resource) : Program Inventory Unit :=
  look fun c s =>
    match s.rows.set c.now key r s.ttl with
    | .ok rows => save { s with rows := rows } (done ())
    | .error e => halt e

def insertAll : List Placement → Program Inventory Unit
  | [] => done ()
  | x :: rest => do
    insert x.key x.resource
    insertAll rest

/-- Lists the families in order up to the first that fails; the rows of those before it are kept.
The result counts the rows written. -/
def listFrom (time : Timestamp) : List Family → Program Inventory (Except Failure Nat)
  | [] => done (.ok 0)
  | family :: rest => do
    let reply ← request (.list family)
    let c ← clock
    let time := if family.opensGroup then c.wall else time
    match reply with
    | .error e => pure (.error (.listing family e))
    | .ok rows =>
      let s ← state
      let included := family.included s.filter time rows
      insertAll included
      let written ← listFrom time rest
      pure (written.map (included.length + ·))

/-- Lists every family, and remembers whether that went through. -/
def refresh : Program Inventory (Except Failure Nat) := do
  let c ← clock
  let written ← listFrom c.wall Family.all
  modify fun s => { s with incomplete := !written.isOk }
  pure written

/-- The rows still served, in the order of their keys; the others are removed. -/
def snapshot : Program Inventory (List Resource) :=
  look fun c s =>
    save { s with rows := s.rows.touchAll c.now s.rows.keys }
      (done (s.rows.collect c.now s.rows.keys))

/-- The resources of the deployment, listed anew when they have to be. -/
def resources : Program Inventory (Except Failure (List Resource)) := do
  let c ← clock
  let s ← state
  if s.needsRefresh c.now then
    match ← refresh with
    | .error e => pure (.error e)
    | .ok _ => do
      let rs ← snapshot
      pure (.ok rs)
  else do
    let rs ← snapshot
    pure (.ok rs)

end Inventory
end PeakUsage
