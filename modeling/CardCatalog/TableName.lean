import CardCatalog.Kind

/-!
# Names of the stored tables

The catalog is stored in one table for each kind of reference row, one table of records,
one table for each kind of attachment, and one table of links.
-/

namespace CardCatalog

/-- A stored table. -/
inductive TableName where
  | lookup (kind : Kind)
  | record
  | attachment (kind : AttachedKind)
  | links
  deriving DecidableEq, Repr

namespace TableName

/-- The tables, each after those that it refers to. -/
def all : List TableName :=
  Kind.all.map lookup ++ record :: AttachedKind.all.map attachment ++ [links]

/-- The name of a table. -/
def text : TableName → String
  | lookup k => k.name
  | record => "record"
  | attachment .genre => "record_genre"
  | attachment .idol => "idol_participation"
  | links => "links"

/-- The table of a name. -/
def ofText? (s : String) : Option TableName :=
  all.find? fun t => t.text = s

/-- A table is found by its name. -/
@[simp] theorem ofText?_text (t : TableName) : ofText? t.text = some t := by
  rcases t with (k | k) | _ | k | _
  · cases k <;> rfl
  · cases k <;> rfl
  · rfl
  · cases k <;> rfl
  · rfl

end TableName

/-- The column by which a record or an attachment refers to a row of a kind. -/
def Kind.column (k : Kind) : String :=
  k.name ++ "_id"

end CardCatalog
