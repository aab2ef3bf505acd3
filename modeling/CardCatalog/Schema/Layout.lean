import CardCatalog.TableName

/-!
# Layout of the tables

Every table has an id as its primary key, and no column may be null. References from
records fall back to the unknown row when their row is deleted; all other references take
their row along.

There are two layouts, one as the tables are declared and one as they are migrated. They
differ in the order of the columns of one table.

Results: the two layouts have the same columns (`columns_perm`).
-/

namespace CardCatalog
namespace Schema

/-- The type of a column. -/
inductive ColumnType where
  | integer
  | bigInteger
  | boolean
  | date
  | text
  | characters (most : Nat)
  | numeric (digits places : Nat)
  deriving DecidableEq, Repr

/-- A column; none may be null. -/
structure Column where
  name : String
  type : ColumnType
  default? : Option String := none
  deriving DecidableEq, Repr

/-- What happens to a row when the row it refers to is deleted. -/
inductive OnDelete where
  | cascade
  | setDefault
  deriving DecidableEq, Repr

/-- A column that refers to the ids of a table. -/
structure Reference where
  column : String
  table : TableName
  onDelete : OnDelete
  deriving DecidableEq, Repr

/-- Columns under a name of their own: an index or a uniqueness constraint. -/
structure Named where
  name : String
  columns : List String
  deriving DecidableEq, Repr

/-- The layout of a table. -/
structure TableLayout where
  columns : List Column
  primaryKey : List String := ["id"]
  references : List Reference := []
  uniques : List Named := []
  indexes : List Named := []
  deriving DecidableEq, Repr

/-- Whether tables are laid out as declared or as migrated. -/
inductive Source where
  | declared
  | migrated
  deriving DecidableEq, Repr

section Texts

/-- The name of a column type. -/
def ColumnType.toText : ColumnType → String
  | integer => "INTEGER"
  | bigInteger => "BIGINT"
  | boolean => "BOOLEAN"
  | date => "DATE"
  | text => "TEXT"
  | characters most => "VARCHAR(" ++ toString most ++ ")"
  | numeric digits places => "NUMERIC(" ++ toString digits ++ ", " ++ toString places ++ ")"

/-- The name of a rule for deletion. -/
def OnDelete.toText : OnDelete → String
  | cascade => "CASCADE"
  | setDefault => "SET DEFAULT"

end Texts

section Columns

/-- The column of generated ids. -/
def idColumn : Column := ⟨"id", .integer, none⟩

/-- A truth value that is false by default. -/
def flag (name : String) : Column := ⟨name, .boolean, some "false"⟩

/-- A date that is the first day of the epoch by default. -/
def epochDate : Column := ⟨"date", .date, some "'1970-01-01'"⟩

/-- A text that is empty by default. -/
def linkColumn : Column := ⟨"link", .text, some "''"⟩

/-- The column that refers to a record. -/
def recordColumn : Column := ⟨"record_id", .characters 255, none⟩

/-- The index over a column of a table. -/
def indexOn (t : TableName) (column : String) : Named :=
  ⟨"ix_" ++ t.text ++ "_" ++ column, [column]⟩

end Columns

section Tables

/-- A table of reference rows. -/
def lookupLayout (k : Kind) : TableLayout where
  columns := [idColumn, ⟨"name", .characters 255, none⟩, linkColumn, flag "manual"]
  indexes := [indexOn (.lookup k) "name"]

/-- The table of records. -/
def recordLayout : TableLayout where
  columns :=
    [⟨"id", .characters 255, none⟩, ⟨"title", .characters 1024, some "'Untitled'"⟩,
     epochDate, ⟨"duration", .integer, some "0"⟩]
      ++ DirectKind.all.map (fun k => ⟨(Kind.direct k).column, .bigInteger, some "1"⟩)
      ++ [flag "has_links", ⟨"permission", .integer, some "3"⟩,
          ⟨"local_img_count", .integer, some "-1"⟩,
          ⟨"create_time", .date, some "CURRENT_DATE"⟩,
          ⟨"update_time", .date, some "CURRENT_DATE"⟩,
          ⟨"creator", .characters 255, some "'admin'"⟩,
          ⟨"modified_by", .characters 255, some "'admin'"⟩]
  references := DirectKind.all.map fun k =>
    ⟨(Kind.direct k).column, .lookup (.direct k), .setDefault⟩
  indexes := DirectKind.all.map fun k => indexOn .record (Kind.direct k).column

/-- A table of attachments. As declared, the reference to the idol comes first. -/
def attachmentLayout (source : Source) (k : AttachedKind) : TableLayout :=
  let target : Column := ⟨(Kind.attached k).column, .bigInteger, none⟩
  let table := TableName.attachment k
  { columns :=
      match source, k with
      | .declared, .idol => [idColumn, target, recordColumn, flag "manual"]
      | _, _ => [idColumn, recordColumn, target, flag "manual"]
    references :=
      [⟨target.name, .lookup (.attached k), .cascade⟩, ⟨"record_id", .record, .cascade⟩]
    uniques := [⟨"uq_" ++ table.text ++ "_record_" ++ k.name, ["record_id", target.name]⟩]
    indexes := [indexOn table target.name] }

/-- The table of links. -/
def linksLayout : TableLayout where
  columns :=
    [idColumn, recordColumn, ⟨"name", .characters 255, none⟩,
     ⟨"size", .numeric 10 2, some "-1"⟩, epochDate, linkColumn, flag "star"]
  references := [⟨"record_id", .record, .cascade⟩]
  indexes := [indexOn .links "record_id"]

/-- The layout of a table. -/
def layout (source : Source) : TableName → TableLayout
  | .lookup k => lookupLayout k
  | .record => recordLayout
  | .attachment k => attachmentLayout source k
  | .links => linksLayout

end Tables

/-- As declared and as migrated, a table has the same columns. -/
theorem columns_perm (t : TableName) :
    (layout .declared t).columns.Perm (layout .migrated t).columns := by
  rcases t with k | _ | k | _
  · exact List.Perm.refl _
  · exact List.Perm.refl _
  · cases k with
    | genre => exact List.Perm.refl _
    | idol => exact List.Perm.cons _ (List.Perm.swap _ _ _)
  · exact List.Perm.refl _

end Schema
end CardCatalog
