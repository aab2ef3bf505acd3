import CardCatalog.Schema.Layout
import CardCatalog.Store.Basic

/-!
# Migration

A database is empty or holds all tables at the one revision there is. Upgrading an empty
database makes the tables and seeds them; downgrading takes them away. The revision is
kept in a table of its own, which every command leaves behind.

Results: a table is found by its name, upgrading twice is upgrading once, and downgrading
undoes it.
-/

namespace CardCatalog
namespace Schema

/-- The revision of the tables. -/
def revision : String := "3f1c9a2e7b10"

/-- The table that keeps the revision. -/
def revisionTable : String := "alembic_version"

/-- The layout of the table that keeps the revision. -/
def revisionLayout : TableLayout where
  columns := [⟨"version_num", .characters 32, none⟩]
  primaryKey := ["version_num"]

/-- The layout of the table of a name. Of the revision only migrated tables keep a record. -/
def layoutNamed? (source : Source) (name : String) : Option TableLayout :=
  match TableName.ofText? name with
  | some t => some (layout source t)
  | none => if source = .migrated ∧ name = revisionTable then some revisionLayout else none

/-- A database: the rows of its tables, if it has been upgraded. -/
abbrev Database := Option Store

/-- A change of revision. -/
inductive Command where
  | upgrade
  | downgrade
  deriving DecidableEq, Repr

/-- The database after a command. -/
def Command.run : Command → Database → Database
  | upgrade, none => some .seeded
  | upgrade, some s => some s
  | downgrade, _ => none

/-- The revisions that a database is at: one or none. -/
def revisions (db : Database) : List String :=
  if db.isSome then [revision] else []

/-- The names of the tables of a database, in alphabetical order. -/
def tableNames (db : Database) : List String :=
  let names := if db.isSome then TableName.all.map TableName.text else []
  (revisionTable :: names).mergeSort fun a b => a ≤ b

/-- The databases after each of several commands. -/
def history (db : Database) : List Command → List Database
  | [] => []
  | c :: cs => c.run db :: history (c.run db) cs

/-- A table has the layout that is found by its name. -/
@[simp] theorem layoutNamed?_text (source : Source) (t : TableName) :
    layoutNamed? source t.text = some (layout source t) := by
  simp [layoutNamed?]

/-- A second upgrade changes nothing. -/
@[simp] theorem run_upgrade_upgrade (db : Database) :
    Command.upgrade.run (Command.upgrade.run db) = Command.upgrade.run db := by
  cases db <;> rfl

/-- A downgrade leaves nothing of an upgrade. -/
@[simp] theorem run_downgrade_upgrade (db : Database) :
    Command.downgrade.run (Command.upgrade.run db) = none := rfl

end Schema
end CardCatalog
