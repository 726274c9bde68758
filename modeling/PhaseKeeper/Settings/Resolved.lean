import PhaseKeeper.Json.Record
import PhaseKeeper.Number.Decimal
import PhaseKeeper.Text.Upper
/-!
The settings of the database, the bus and the worker, as the environment determines them. Under a profile
`P`, a setting `KEY` is looked up as `P_KEY` first. A variable that is set to the empty text counts as
unset.
-/
namespace PhaseKeeper

abbrev Environment := List (String × String)

namespace Environment

def filled? (env : Environment) (name : String) : Option String :=
  (env.lookup name).filter (· ≠ "")

def ofProfile (profile key : String) : String := profile ++ "_" ++ key

def profiled? (env : Environment) (profile key : String) : Option String :=
  if profile = "" then env.filled? key
  else (env.filled? (ofProfile profile key)).or (env.filled? key)

def text (env : Environment) (profile key default : String) : String :=
  (env.profiled? profile key).getD default

/-- A number less than `bound`. A text that is no such number leaves the default in place. -/
def number (env : Environment) (profile key : String) (bound default : Nat) : Nat :=
  ((env.profiled? profile key).bind fun s => Decimal.below? bound s.toList).getD default

end Environment

structure DatabaseSettings where
  host : String
  port : UInt16
  database : String
  username : Option String
  password : Option String
  sslMode : String
  maxConnections : UInt32
deriving DecidableEq, Repr

namespace DatabaseSettings

def ofProfile (env : Environment) (p : String) : DatabaseSettings where
  host := env.text p "PG_HOST" "localhost"
  port := .ofNat (env.number p "PG_PORT" UInt16.size 5432)
  database := env.text p "PG_DATABASE" "matchflow"
  username := env.profiled? p "PG_USERNAME"
  password := env.profiled? p "PG_PASSWORD"
  sslMode := env.text p "PG_SSL_MODE" "prefer"
  maxConnections := .ofNat (env.number p "PG_MAX_CONNECTIONS" UInt32.size 10)

def user (s : DatabaseSettings) : String := s.username.getD "postgres"
def secret (s : DatabaseSettings) : String := s.password.getD ""

def isConfigured (s : DatabaseSettings) : Bool := s.username.isSome

def connectionString (s : DatabaseSettings) : String :=
  "postgres://" ++ s.user ++ ":" ++ s.secret ++ "@" ++ s.host ++ ":" ++ toString s.port.toNat ++
    "/" ++ s.database ++ "?sslmode=" ++ s.sslMode

def optionalText : Option String → Json
  | some s => .text s
  | none => .null

def toJson (s : DatabaseSettings) : Json :=
  .object [("database", .text s.database), ("host", .text s.host),
    ("max_connections", .int s.maxConnections.toNat), ("password", optionalText s.password),
    ("port", .int s.port.toNat), ("ssl_mode", .text s.sslMode),
    ("username", optionalText s.username)]

def record : Json.Record :=
  ⟨"PostgresConfig", [Json.field "host" Json.asText, Json.field "port" Json.asUInt16,
    Json.field "database" Json.asText, Json.field "username" (Json.asOption Json.asText),
    Json.field "password" (Json.asOption Json.asText), Json.field "ssl_mode" Json.asText,
    Json.field "max_connections" Json.asUInt32], 7⟩

def ofJson : Json.Reader DatabaseSettings :=
  record.read fun ms => do
    return {
      host := ← ms.need "host" Json.asText
      port := ← ms.need "port" Json.asUInt16
      database := ← ms.need "database" Json.asText
      username := ← ms.want "username" Json.asText
      password := ← ms.want "password" Json.asText
      sslMode := ← ms.need "ssl_mode" Json.asText
      maxConnections := ← ms.need "max_connections" Json.asUInt32 }

end DatabaseSettings

structure BusSettings where
  frontend : String
  backend : String
deriving DecidableEq, Repr

namespace BusSettings

def ofProfile (env : Environment) (p : String) : BusSettings where
  frontend := env.text p "BUS_FRONTEND" "tcp://127.0.0.1:5555"
  backend := env.text p "BUS_BACKEND" "tcp://127.0.0.1:5556"

def toJson (s : BusSettings) : Json :=
  .object [("backend", .text s.backend), ("frontend", .text s.frontend)]

def record : Json.Record :=
  ⟨"BusConfig", [Json.field "frontend" Json.asText, Json.field "backend" Json.asText], 2⟩

def ofJson : Json.Reader BusSettings :=
  record.read fun ms => do
    return ⟨← ms.need "frontend" Json.asText, ← ms.need "backend" Json.asText⟩

end BusSettings

structure WorkerSettings where
  workerName : String
  cacheCapacity : UInt64
  maxInFlight : UInt64
  healthIntervalSecs : UInt64
  shutdownTimeoutSecs : UInt64
deriving DecidableEq, Repr

namespace WorkerSettings

def default : WorkerSettings := ⟨"phase-orchestrator", 10000, 64, 30, 10⟩

/-- The two capacities and the interval are at least 1. -/
def ofProfile (env : Environment) (p : String) : WorkerSettings where
  workerName := env.text p "WORKER_NAME" default.workerName
  cacheCapacity := .ofNat (max 1 (env.number p "DEDUP_CACHE_CAPACITY" UInt32.size 10000))
  maxInFlight := .ofNat (max 1 (env.number p "MAX_IN_FLIGHT" UInt32.size 64))
  healthIntervalSecs := .ofNat (max 1 (env.number p "HEALTH_INTERVAL_SECS" UInt64.size 30))
  shutdownTimeoutSecs := .ofNat (env.number p "SHUTDOWN_TIMEOUT_SECS" UInt64.size 10)

def toJson (s : WorkerSettings) : Json :=
  .object [("dedup_cache_capacity", .int s.cacheCapacity.toNat),
    ("health_interval_secs", .int s.healthIntervalSecs.toNat),
    ("max_in_flight", .int s.maxInFlight.toNat),
    ("shutdown_timeout_secs", .int s.shutdownTimeoutSecs.toNat),
    ("worker_name", .text s.workerName)]

def record : Json.Record :=
  ⟨"OrchestratorConfig", [Json.field "worker_name" Json.asText,
    Json.field "dedup_cache_capacity" (Json.asUInt64 "usize"),
    Json.field "max_in_flight" (Json.asUInt64 "usize"),
    Json.field "health_interval_secs" (Json.asUInt64 "u64"),
    Json.field "shutdown_timeout_secs" (Json.asUInt64 "u64")], 5⟩

def ofJson : Json.Reader WorkerSettings :=
  record.read fun ms => do
    return {
      workerName := ← ms.need "worker_name" Json.asText
      cacheCapacity := ← ms.need "dedup_cache_capacity" (Json.asUInt64 "usize")
      maxInFlight := ← ms.need "max_in_flight" (Json.asUInt64 "usize")
      healthIntervalSecs := ← ms.need "health_interval_secs" (Json.asUInt64 "u64")
      shutdownTimeoutSecs := ← ms.need "shutdown_timeout_secs" (Json.asUInt64 "u64") }

end WorkerSettings

structure Settings where
  profile : String
  database : DatabaseSettings
  bus : BusSettings
  worker : WorkerSettings
deriving DecidableEq, Repr

namespace Settings

/-- The settings under a profile, whose name counts in upper case. -/
def ofProfile (env : Environment) (profile : String) : Settings :=
  let p := Text.upper profile
  ⟨p, .ofProfile env p, .ofProfile env p, .ofProfile env p⟩

def ofEnvironment (env : Environment) : Settings :=
  ofProfile env (Text.upper ((env.lookup "MATCHFLOW_PROFILE").getD ""))

def label (s : Settings) : String := if s.profile = "" then "default" else s.profile

def toJson (s : Settings) : Json :=
  .object [("bus", s.bus.toJson), ("orchestrator", s.worker.toJson),
    ("postgres", s.database.toJson), ("profile", .text s.profile)]

def summary (s : Settings) : List String :=
  ["Config loaded (profile: " ++ s.label ++ "):",
    "  postgres:     host=" ++ s.database.host ++ ", db=" ++ s.database.database,
    "  bus:          frontend=" ++ s.bus.frontend ++ ", backend=" ++ s.bus.backend,
    "  orchestrator: worker=" ++ s.worker.workerName ++ ", dedup_cache=" ++
      toString s.worker.cacheCapacity.toNat ++ ", max_in_flight=" ++
      toString s.worker.maxInFlight.toNat]

end Settings
end PhaseKeeper
