import PeakUsage.Figure
import PeakUsage.Text.Digits
import PeakUsage.Text.Infix

/-! What can go wrong between the provider and a usage figure. -/
namespace PeakUsage

inductive Family where
  | relationalInstance
  | relationalCluster
  | documentInstance
  | documentCluster
  | keyValueCache
  | streaming
deriving DecidableEq

namespace Family

def name : Family → String
  | .relationalInstance => "rds instance"
  | .relationalCluster => "rds cluster"
  | .documentInstance => "docdb instance"
  | .documentCluster => "docdb cluster"
  | .keyValueCache => "elasticache cluster"
  | .streaming => "kafka cluster"

/-- Every family, in the order they are listed. -/
def all : List Family :=
  [.relationalInstance, .relationalCluster, .documentInstance, .documentCluster, .keyValueCache,
    .streaming]

end Family

structure Refusal where
  status : Option Nat
  message : String
deriving DecidableEq

namespace Refusal

/-- What a text says that was made from an error with a status for rejected credentials. -/
def unauthorizedMarkers : List String := ["StatusCode: 401", "StatusCode: 403"]

/-- Whether the credentials were rejected: by the status, or by what the message says. -/
def isUnauthorized (r : Refusal) : Bool :=
  r.status = some 401 || r.status = some 403 || unauthorizedMarkers.any (Text.contains r.message)

def text (r : Refusal) : String :=
  match r.status with
  | some code => "StatusCode: " ++ Text.decimal code ++ ", " ++ r.message
  | none => r.message

end Refusal

inductive Failure where
  | listing (family : Family) (cause : Refusal)
  | metric (key metric : String) (cause : Refusal)
  /-- Some brokers of a streaming cluster failed; `peak` is the greatest of the others. -/
  | brokers (cluster : String) (brokerCount : Nat) (peak : Float) (failures : List Failure)
  | unsupported (figure : Figure) (engine : String)
  /-- No provider call is made any more. -/
  | disabled

namespace Failure

mutual

def text : Failure → String
  | .listing family cause => "failed to scrape " ++ family.name ++ " inventory: " ++ cause.text
  | .metric key name cause => "failed to fetch " ++ name ++ " for " ++ key ++ ": " ++ cause.text
  | .brokers cluster brokerCount _ failures =>
    Text.decimal failures.length ++ " of " ++ Text.decimal brokerCount ++ " brokers failed for " ++
      cluster ++ ": " ++ "; ".intercalate (texts failures)
  | .unsupported figure engine =>
    figure.name ++ " usage is not reported for engine " ++ engine
  | .disabled => "fetching disabled after an authorization failure, restart required"

def texts : List Failure → List String
  | [] => []
  | e :: rest => text e :: texts rest

end

mutual

/-- Whether some provider call behind the failure had its credentials rejected. -/
def isAuth : Failure → Bool
  | .listing _ cause => cause.isUnauthorized
  | .metric _ _ cause => cause.isUnauthorized
  | .brokers _ _ _ failures => anyAuth failures
  | .unsupported _ _ => false
  | .disabled => false

def anyAuth : List Failure → Bool
  | [] => false
  | e :: rest => isAuth e || anyAuth rest

end

/-- The figure a failure still carries. -/
def partialPeak : Failure → Option Float
  | .brokers _ _ peak _ => some peak
  | _ => none

/-- The provider's error when the failure is of a single call. -/
def cause? : Failure → Option Refusal
  | .listing _ cause => some cause
  | .metric _ _ cause => some cause
  | _ => none

def isDisabled : Failure → Bool
  | .disabled => true
  | _ => false

theorem texts_eq_map (es : List Failure) : texts es = es.map text := by
  induction es with
  | nil => simp [texts]
  | cons e es ih => simp [texts, ih]

theorem anyAuth_eq_any (es : List Failure) : anyAuth es = es.any isAuth := by
  induction es with
  | nil => simp [anyAuth]
  | cons e es ih => simp [anyAuth, ih]

end Failure
end PeakUsage
