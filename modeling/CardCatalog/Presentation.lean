import CardCatalog.Json.Writer
import CardCatalog.Operation

/-!
# What is read back, as JSON

Rows, records and pages are presented as objects with fixed fields. Dates and sizes are
texts. A missing row or page is null.
-/

namespace CardCatalog

open Text (Wide)

namespace Json

/-- A value that may be missing. -/
def ofOption {α : Type} (f : α → Json) : Option α → Json
  | none => .null
  | some a => f a

end Json

/-- A date as its text. -/
def Calendar.Date.toJson (d : Calendar.Date) : Json :=
  .text d.toText

/-- A size as its text. -/
def Size.toJson (s : Size) : Json :=
  .text s.toText

/-- A key as a list of its parts. -/
def NaturalKey.toJson (k : NaturalKey Wide) : Json :=
  .list [.text k.name, .text k.link, .bool k.manual]

/-- A reference row. -/
def Lookup.toJson (l : Lookup) : Json :=
  .object
    [("id", .int l.id), ("name", .text l.key.name), ("link", .text l.key.link),
     ("manual", .bool l.key.manual)]

/-- A reference row with its uses. -/
def RecordCount.toJson (c : RecordCount) : Json :=
  .object [("id", .int c.id), ("name", .text c.name), ("count", .int c.count)]

/-- A link to a neighbouring page. -/
def PageLink.toJson (l : PageLink) : Json :=
  .text l.toText

/-- A page of rows. -/
def Page.toJson {α : Type} (f : α → Json) (p : Page α) : Json :=
  .object
    [("count", .int p.count), ("next", .ofOption PageLink.toJson p.next?),
     ("previous", .ofOption PageLink.toJson p.previous?),
     ("results", .list (p.results.map f))]

/-- A link of a record. -/
def LinkRow.toJson (id : Int) (l : LinkRow) : Json :=
  .object
    [("id", .int id), ("record_id", .text l.record), ("name", .text l.name),
     ("size", l.size.toJson), ("date", l.date.toJson), ("link", .text l.url),
     ("star", .bool l.star)]

/-- An attachment of a record, with the row under the name of its kind. -/
def AttachedRow.toJson (k : AttachedKind) (a : AttachedRow) : Json :=
  .object [(k.name, a.row.toJson), ("manual", .bool a.manual)]

namespace Aggregate

/-- The rows that are attached to a record. -/
def attachedJson (a : Aggregate) (k : AttachedKind) : Json :=
  .list ((a.attached.get k).map (AttachedRow.toJson k))

/-- The ids of the rows that are attached to a record. -/
def attachedIds (a : Aggregate) (k : AttachedKind) : List Int :=
  (a.attached.get k).map fun x => x.row.id

/-- The fields in front of the direct references of a record. -/
def firstFields (a : Aggregate) : List (Wide × Json) :=
  [("id", .text a.id), ("title", .text a.details.title), ("date", a.details.date.toJson),
   ("duration", .int a.details.duration)]

/-- The direct references of a record. -/
def refFields (a : Aggregate) : List (Wide × Json) :=
  DirectKind.all.map fun k => (k.name, (a.refs.get k).toJson)

/-- The fields behind the direct references of a record. -/
def lastFields (a : Aggregate) : List (Wide × Json) :=
  [("genres", a.attachedJson .genre), ("idols", a.attachedJson .idol),
   ("has_links", .bool a.details.hasLinks),
   ("links", .list (a.links.map fun l => l.2.toJson l.1)),
   ("permission", .int a.details.permission),
   ("local_img_count", .int a.details.localImageCount),
   ("create_time", a.created.toJson), ("update_time", a.updated.toJson),
   ("creator", .text a.creator), ("modified_by", .text a.modifiedBy)]

/-- The fields of a record. -/
def fields (a : Aggregate) : List (Wide × Json) :=
  a.firstFields ++ a.refFields ++ a.lastFields

/-- A record. -/
def toJson (a : Aggregate) : Json :=
  .object a.fields

/-- A record with the ids of its attached rows. -/
def toJsonWithIds (a : Aggregate) : Json :=
  let ids (k : AttachedKind) : Wide × Json :=
    (k.name ++ "_ids", .list ((a.attachedIds k).map .int))
  .object (a.fields ++ AttachedKind.all.map ids)

end Aggregate

end CardCatalog
