import CardCatalog.Json.Basic
import CardCatalog.Page

/-!
# Settings

The settings of a running catalog: its name, the address it answers at, the database it
keeps its rows in, and the bounds of a page. Everything has a default. Texts come out of an
environment or out of JSON, and are wide texts.

The database is named by one address, or by the parts of one.
-/

namespace CardCatalog

open Text (Wide)

/-- Where and to whom requests are answered. -/
structure ApiSettings where
  host : Wide := "0.0.0.0"
  port : Int := 8000
  basePath : Wide := "/api"
  allowedOrigins : List Wide := ["http://localhost:5173"]
  allowedMethods : List Wide := ["GET", "POST", "PUT", "PATCH", "DELETE", "OPTIONS"]
  allowedHeaders : List Wide := ["*"]
  allowsCredentials : Bool := false
  deriving DecidableEq, Repr

/-- Where the rows are kept. -/
structure DatabaseSettings where
  driver : Wide := "postgresql+psycopg"
  host : Wide := "localhost"
  port : Int := 5432
  name : Wide := "luna"
  user : Wide := "luna"
  password : Wide := "luna"
  schemaName : Wide := "public"
  echo : Bool := false
  poolSize : Int := 10
  maxOverflow : Int := 20
  poolPrePing : Bool := true
  poolRecycle : Int := 1800
  url? : Option Wide := none
  deriving DecidableEq, Repr

/-- The bounds of a page; both are positive. -/
structure PaginationSettings where
  defaultLimit : { n : Int // 1 ≤ n } := ⟨20, by decide⟩
  maxLimit : { n : Int // 1 ≤ n } := ⟨1000, by decide⟩
  deriving DecidableEq, Repr

/-- All settings. -/
structure Settings where
  appName : Wide := "luna"
  appEnv : Wide := "development"
  logLevel : Wide := "INFO"
  timeZone : Wide := "UTC"
  api : ApiSettings := {}
  database : DatabaseSettings := {}
  pagination : PaginationSettings := {}
  scriptLocation : Wide := "luna/database/alembic"
  versionTableSchema : Wide := "public"
  usesTestContainers : Bool := false
  testDatabaseImage : Wide := "postgres:15-alpine"
  testDatabaseUrl : Wide := "sqlite+pysqlite:///:memory:"
  deriving DecidableEq, Repr

namespace DatabaseSettings

/-- The address made of the parts. -/
def assembledUrl (d : DatabaseSettings) : Wide :=
  d.driver ++ "://" ++ d.user ++ ":" ++ d.password ++ "@" ++ d.host ++ ":"
    ++ toString d.port ++ "/" ++ d.name

/-- The address of the database: the one that is given, or else the one made of the
parts. -/
def effectiveUrl (d : DatabaseSettings) : Wide :=
  match d.url? with
  | some url => if url = "" then d.assembledUrl else url
  | none => d.assembledUrl

end DatabaseSettings

namespace Settings

/-- The address of the database. -/
def databaseUrl (s : Settings) : Wide :=
  s.database.effectiveUrl

/-- The schema that the tables are in. -/
def databaseSchema (s : Settings) : Wide :=
  s.database.schemaName

/-- The page that a listing takes for a limit and an offset. -/
def pageRequest (s : Settings) (limit? offset? : Option Int) : PageRequest :=
  ⟨limit?, offset?, s.pagination.defaultLimit⟩

end Settings

section Presentation

/-- A list of texts. -/
def Json.ofTexts (ws : List Wide) : Json :=
  .list (ws.map .text)

/-- The settings of answering. -/
def ApiSettings.toJson (a : ApiSettings) : Json :=
  .object
    [("host", .text a.host), ("port", .int a.port), ("prefix", .text a.basePath),
     ("cors_allow_origins", .ofTexts a.allowedOrigins),
     ("cors_allow_methods", .ofTexts a.allowedMethods),
     ("cors_allow_headers", .ofTexts a.allowedHeaders),
     ("cors_allow_credentials", .bool a.allowsCredentials)]

/-- The settings of the database, with its address. -/
def DatabaseSettings.toJson (d : DatabaseSettings) : Json :=
  .object
    [("driver", .text d.driver), ("host", .text d.host), ("port", .int d.port),
     ("name", .text d.name), ("user", .text d.user), ("password", .text d.password),
     ("schema_name", .text d.schemaName), ("echo", .bool d.echo),
     ("pool_size", .int d.poolSize), ("max_overflow", .int d.maxOverflow),
     ("pool_pre_ping", .bool d.poolPrePing), ("pool_recycle", .int d.poolRecycle),
     ("url", (d.url?.map Json.text).getD .null), ("effective_url", .text d.effectiveUrl)]

/-- The bounds of a page. -/
def PaginationSettings.toJson (p : PaginationSettings) : Json :=
  .object
    [("default_limit", .int p.defaultLimit.val), ("max_limit", .int p.maxLimit.val)]

/-- All settings. -/
def Settings.toJson (s : Settings) : Json :=
  .object
    [("app_name", .text s.appName), ("app_env", .text s.appEnv),
     ("log_level", .text s.logLevel), ("tz", .text s.timeZone),
     ("api", s.api.toJson), ("db", s.database.toJson),
     ("pagination", s.pagination.toJson),
     ("alembic_script_location", .text s.scriptLocation),
     ("alembic_version_table_schema", .text s.versionTableSchema),
     ("use_testcontainers", .bool s.usesTestContainers),
     ("test_db_image", .text s.testDatabaseImage),
     ("test_database_url", .text s.testDatabaseUrl),
     ("database_url", .text s.databaseUrl), ("db_schema", .text s.databaseSchema)]

end Presentation

end CardCatalog
