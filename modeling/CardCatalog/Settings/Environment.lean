import CardCatalog.Json.Reader
import CardCatalog.Settings.Basic
import CardCatalog.Text.Bytes
import CardCatalog.Validation.Rule

/-!
# Settings from an environment

Input: variables, each a name and a text.
An environment keeps them as bytes, so they are found again as `Wide.ofBytes` has them; a
variable that it cannot keep is a failure.

The case of names does not matter; of two names that differ in case alone the later one
counts. A single setting is a variable of its own name. A group of settings is one
variable that holds a JSON object, or one variable for each field, with two underscores
between the names of the group and the field; where both are given, single fields go over
those of the object. Lists are JSON in single variables, and may be comma-separated texts
inside JSON.

The environment is the only source: a file `.env`, whose variables would count less than those
of the environment, is left out.

Migrations take the address of their database from the settings, unless a variable gives it
under its own name.

Unknown names are ignored. What is wrong is told in this order: a variable that cannot be
kept, a variable that must be JSON and is not, a list that holds something other than text,
and then all values that are not valid.
-/

namespace CardCatalog

open Text (Code Wide)
open Validation (Checked Issue IssueKind Rule)

/-- Variables by name. -/
abbrev Environment := List (Wide × Wide)

namespace Settings

/-- Why settings are not read. -/
inductive Failure where
  /-- The name or the text of a variable has no bytes. -/
  | unkeepable (text : Wide)
  /-- The name or the text of a variable holds a NUL. -/
  | zeroByte
  /-- The name of a variable holds an equals sign. -/
  | equalsInName
  /-- The name of a variable is empty. -/
  | emptyName
  /-- A variable of a group should be JSON and is not. -/
  | unparsable (group : String)
  /-- The JSON of a variable is nested too deep. -/
  | deepNesting (container : Json.Container)
  /-- An entry of a list of texts is no text. -/
  | notText (entry : Json.NotText)
  /-- Some values are not valid. -/
  | invalid (issues : List Issue)

/-- The word for a container in messages. -/
def containerWord : Json.Container → String
  | .list => "array"
  | .object => "object"

/-- The wording of a failure; values that are not valid have none. -/
def Failure.message? : Failure → Option String
  | unkeepable w => some (Fault.refusedHalvesMessage (fun c => c.bytes?.isNone) w)
  | zeroByte => some "embedded null byte"
  | equalsInName => some "illegal environment variable name"
  | emptyName => some "[Errno 22] Invalid argument"
  | unparsable group =>
    some ("error parsing value for field \"" ++ group
      ++ "\" from source \"EnvSettingsSource\"")
  | deepNesting container =>
    some ("maximum recursion depth exceeded while decoding a JSON "
      ++ containerWord container ++ " from a unicode string")
  | notText entry => some (Fault.notText entry).message
  | invalid _ => none

/-- The failure of a variable of a group that is not read as JSON. -/
def Failure.ofUnread (group : String) : Json.Unread → Failure
  | .deepNesting container => .deepNesting container
  | _ => .unparsable group

/-- A group of settings: its name, the names of its fields, and which of them are
lists. -/
structure Group where
  name : String
  fields : List String
  lists : List String

section Groups

/-- The lists among the settings of answering. -/
def originLists : List String :=
  ["cors_allow_origins", "cors_allow_methods", "cors_allow_headers"]

/-- The settings of answering. -/
def apiGroup : Group where
  name := "api"
  fields := ["host", "port", "prefix"] ++ originLists ++ ["cors_allow_credentials"]
  lists := originLists

/-- The settings of the database. Schema and address go by names of their own. -/
def databaseGroup : Group where
  name := "db"
  fields :=
    ["driver", "host", "port", "name", "user", "password", "DB_SCHEMA", "echo",
     "pool_size", "max_overflow", "pool_pre_ping", "pool_recycle", "DATABASE_URL"]
  lists := []

/-- The bounds of a page. -/
def paginationGroup : Group where
  name := "pagination"
  fields := ["default_limit", "max_limit"]
  lists := []

end Groups

section Names

/-- A text as it is found again in an environment. -/
def recalled (w : Wide) : Except Failure Wide :=
  match w.bytes? with
  | some bytes => .ok (.ofBytes bytes)
  | none => .error (.unkeepable w)

/-- Puts a variable into an environment. -/
def keep (env : Environment) (v : Wide × Wide) : Except Failure Environment := do
  let name ← recalled v.1
  let value ← recalled v.2
  if (name ++ value).codes.contains (.char '\x00') then .error .zeroByte
  else if name.codes.contains (.char '=') then .error .equalsInName
  else if name = "" then .error .emptyName
  else .ok (Json.put env name value)

/-- The variables under names in lower case. -/
def lowerNames (env : Environment) : Environment :=
  env.foldl (fun found v => Json.put found v.1.lower v.2) []

/-- The variables of an environment as they are found: as they are kept, under names in lower
case. -/
def variablesOf (env : Environment) : Except Failure Environment :=
  (env.foldlM keep []).map lowerNames

/-- Cuts a name at every pair of underscores. -/
def nameParts : List Code → List Code × List (List Code)
  | .char '_' :: .char '_' :: cs =>
    let (part, parts) := nameParts cs
    ([], part :: parts)
  | c :: cs =>
    let (part, parts) := nameParts cs
    (c :: part, parts)
  | [] => ([], [])

/-- The path of a variable inside a group: the parts of its name behind the name of the
group, if it is one of the group's. -/
def pathIn? (group : String) (name : Wide) : Option (List Wide) :=
  let start := group ++ "__"
  if name.startsWith start then
    let (part, parts) := nameParts (name.codes.drop start.length)
    some ((part :: parts).map Wide.mk)
  else none

end Names

section Merging

/-- Puts a value at the end of a path of objects. A value on the way that is no object
stays, and nothing is put. -/
def putAt (fields : List (Wide × Json)) (value : Json) :
    List Wide → List (Wide × Json)
  | [] => fields
  | [last] => Json.put fields last value
  | name :: path =>
    match Json.get? fields name with
    | none => Json.put fields name (.object (putAt [] value path))
    | some (.object inner) => Json.put fields name (.object (putAt inner value path))
    | some _ => fields

mutual

/-- Lays a value over another one; objects are merged field by field. -/
def overlay (under : Json) : Json → Json
  | .object upper =>
    match under with
    | .object fields => .object (overlayFields fields upper)
    | _ => .object upper
  | upper => upper

/-- Lays fields over an object. -/
def overlayFields (fields : List (Wide × Json)) :
    List (Wide × Json) → List (Wide × Json)
  | [] => fields
  | (name, upper) :: rest =>
    let value :=
      match Json.get? fields name with
      | some under => overlay under upper
      | none => upper
    overlayFields (Json.put fields name value) rest

end

end Merging

section Reading

/-- How many lists and objects of a setting may lie in one another. It stands for what is left of
a stack of a thousand calls where settings are read, early in the life of the program. -/
def deepestSetting : Nat := 984

/-- The value of one variable of a group: lists are JSON, unless they are empty. -/
def variableValue (g : Group) (path : List Wide) (value : Wide) : Except Failure Json :=
  match path with
  | [field] =>
    if (g.lists.any fun name => field = (name : Wide)) && value ≠ "" then
      (Json.read value deepestSetting).mapError (.ofUnread g.name)
    else .ok (.text value)
  | _ => .ok (.text value)

/-- The fields of a group that have variables of their own. -/
def singleFields (g : Group) (env : Environment) : Except Failure (List (Wide × Json)) :=
  env.foldlM
    (fun fields v =>
      match pathIn? g.name v.1 with
      | none => .ok fields
      | some path => do
        let j ← variableValue g path v.2
        .ok (putAt fields j path))
    []

/-- The name of a field of a group, whatever the case it is given in. -/
def fieldName (g : Group) (name : Wide) : Wide :=
  let isMeant (f : String) : Bool := (f : Wide).lower = name.lower
  ((g.fields.find? isMeant).map Wide.ofText).getD name

/-- Names the fields of an object as the group does. -/
def nameFields (g : Group) (fields : List (Wide × Json)) : List (Wide × Json) :=
  fields.foldl (fun found f => Json.put found (fieldName g f.1) f.2) []

/-- What the environment gives for a group: a value that may be no object, or nothing. -/
def groupValue (g : Group) (env : Environment) : Except Failure (Option Json) := do
  match Json.get? env (g.name : Wide) with
  | none =>
    let fields ← singleFields g env
    .ok (if fields.isEmpty then none else some (.object (nameFields g fields)))
  | some whole =>
    match Json.read whole deepestSetting with
    | .error e => .error (.ofUnread g.name e)
    | .ok .null => .ok none
    | .ok (.object fields) =>
      let upper ← singleFields g env
      .ok (some (.object (nameFields g (overlayFields fields upper))))
    | .ok j => .ok (some j)

/-- Cuts the lists of a group into entries. -/
def cutLists (g : Group) : Option Json → Except Failure (Option Json)
  | some (.object fields) => do
    let cut (fields : List (Wide × Json)) (name : String) :
        Except Failure (List (Wide × Json)) :=
      match Json.get? fields name with
      | none => .ok fields
      | some j =>
        match j.entries with
        | .ok entries => .ok (Json.put fields name (.ofTexts entries))
        | .error e => .error (.notText e)
    let fields ← g.lists.foldlM cut fields
    .ok (some (.object fields))
  | found => .ok found

end Reading

section Rules

open Validation.Rule (object wideText truth integer atLeast list)

/-- The settings of answering. -/
def apiRule : Rule ApiSettings :=
  object .modelType fun f =>
    let d : ApiSettings := {}
    ApiSettings.mk <$> f.withDefault "host" d.host wideText
      <*> f.withDefault "port" d.port integer
      <*> f.withDefault "prefix" d.basePath wideText
      <*> f.withDefault "cors_allow_origins" d.allowedOrigins (list wideText)
      <*> f.withDefault "cors_allow_methods" d.allowedMethods (list wideText)
      <*> f.withDefault "cors_allow_headers" d.allowedHeaders (list wideText)
      <*> f.withDefault "cors_allow_credentials" d.allowsCredentials truth

/-- The settings of the database. -/
def databaseRule : Rule DatabaseSettings :=
  object .modelType fun f =>
    let d : DatabaseSettings := {}
    DatabaseSettings.mk <$> f.withDefault "driver" d.driver wideText
      <*> f.withDefault "host" d.host wideText
      <*> f.withDefault "port" d.port integer
      <*> f.withDefault "name" d.name wideText
      <*> f.withDefault "user" d.user wideText
      <*> f.withDefault "password" d.password wideText
      <*> f.withDefault "DB_SCHEMA" d.schemaName wideText
      <*> f.withDefault "echo" d.echo truth
      <*> f.withDefault "pool_size" d.poolSize integer
      <*> f.withDefault "max_overflow" d.maxOverflow integer
      <*> f.withDefault "pool_pre_ping" d.poolPrePing truth
      <*> f.withDefault "pool_recycle" d.poolRecycle integer
      <*> f.optional "DATABASE_URL" wideText

/-- The bounds of a page. -/
def paginationRule : Rule PaginationSettings :=
  object .modelType fun f =>
    let d : PaginationSettings := {}
    PaginationSettings.mk <$> f.withDefault "default_limit" d.defaultLimit (atLeast 1)
      <*> f.withDefault "max_limit" d.maxLimit (atLeast 1)

end Rules

/-- Checks what was found for a group. -/
def checkGroup {α : Type} (g : Group) (rule : Rule α) (default : α) :
    Option Json → Checked α
  | none => .valid default
  | some j => rule [.field g.name] j

/-- The settings made of those of the groups and of single variables. -/
def assembled (found : Environment) (api : ApiSettings) (database : DatabaseSettings)
    (pagination : PaginationSettings) : Settings :=
  let d : Settings := {}
  let single (name : String) (default : Wide) : Wide :=
    (Json.get? found (name : Wide)).getD default
  { appName := single "app_name" d.appName
    appEnv := single "app_env" d.appEnv
    logLevel := single "log_level" d.logLevel
    timeZone := single "tz" d.timeZone
    api
    database
    pagination
    scriptLocation := single "alembic_script_location" d.scriptLocation
    versionTableSchema := single "alembic_version_table_schema" d.versionTableSchema
    usesTestContainers :=
      ((Json.get? found (Wide.ofText "use_testcontainers")).map fun w =>
        (Json.text w).saysYes false).getD d.usesTestContainers
    testDatabaseImage := single "test_db_image" d.testDatabaseImage
    testDatabaseUrl := single "test_database_url" d.testDatabaseUrl }

/-- The settings that variables give, whose names are in lower case. -/
def ofVariables (found : Environment) : Except Failure Settings := do
  let api? ← groupValue apiGroup found
  let database? ← groupValue databaseGroup found
  let pagination? ← groupValue paginationGroup found
  let api? ← cutLists apiGroup api?
  let d : Settings := {}
  let checked := assembled found <$> checkGroup apiGroup apiRule d.api api?
    <*> checkGroup databaseGroup databaseRule d.database database?
    <*> checkGroup paginationGroup paginationRule d.pagination pagination?
  match checked with
  | .valid s => .ok s
  | .invalid first rest => .error (.invalid (first :: rest))

/-- The settings that an environment gives, where no file `.env` gives any. -/
def ofEnvironment (env : Environment) : Except Failure Settings := do
  let found ← variablesOf env
  ofVariables found

/-- The address of the database that migrations take: a variable of this very name goes over the
settings, even if it is empty. -/
def migrationUrl (env : Environment) : Except Failure Wide := do
  let s ← ofEnvironment env
  let kept ← env.foldlM keep []
  .ok ((Json.get? kept (Wide.ofText "DATABASE_URL")).getD s.databaseUrl)

end Settings
end CardCatalog
