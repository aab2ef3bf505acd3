import CardCatalog.Calendar.Date
import CardCatalog.FirstOccurrence
import CardCatalog.Lookup
import CardCatalog.Size

/-!
# Records

A record holds details, points at one row of every direct kind, and owns attachments and
links. Drafts and revisions are what is submitted, in wide text; rows are what is stored, in
text; an aggregate is a record as it is read back, with every row it points at.

Results: the references kept of a list carry distinct ids, and every id of the list is
kept (`pairwise_uniqueRefs`, `mem_map_uniqueRefs`).
-/

namespace CardCatalog

open Calendar (Date)
open Text (Wide)

/-- The title of a record that is given none. -/
def untitled : String := "Untitled"

/-- The one who writes a record if nobody else is told. -/
def defaultEditor : String := "admin"

/-- The fields of a record that stand on their own, over a type of texts. -/
structure Details (τ : Type) where
  title : τ
  date : Date := .epoch
  duration : Int := 0
  hasLinks : Bool := false
  permission : Int := 3
  localImageCount : Int := -1
  deriving DecidableEq

namespace Details

variable {τ : Type}

/-- The integers among the details. -/
def integers (d : Details τ) : List Int :=
  [d.duration, d.permission, d.localImageCount]

/-- The details with another title. -/
def withTitle {υ : Type} (d : Details τ) (title : υ) : Details υ :=
  { title, date := d.date, duration := d.duration, hasLinks := d.hasLinks,
    permission := d.permission, localImageCount := d.localImageCount }

end Details

/-- The id of the row of each direct kind that stands for an unknown one. -/
def unknownId : Int := 1

/-- References to the unknown rows. -/
def unknownRefs : PerDirect Int :=
  ⟨unknownId, unknownId, unknownId, unknownId⟩

/-- A reference to an attached row, with the mark of the attachment. -/
structure AttachedRef where
  id : Int
  manual : Bool := false
  deriving DecidableEq, Repr

/-- The first reference to each row. -/
def uniqueRefs (refs : List AttachedRef) : List AttachedRef :=
  firstBy AttachedRef.id refs

/-- Kept references carry distinct ids. -/
theorem pairwise_uniqueRefs (refs : List AttachedRef) :
    (uniqueRefs refs).Pairwise fun a b => a.id ≠ b.id :=
  pairwise_freshBy AttachedRef.id refs []

/-- Kept references stand in the list. -/
theorem mem_of_mem_uniqueRefs {refs : List AttachedRef} {r : AttachedRef}
    (h : r ∈ uniqueRefs refs) : r ∈ refs :=
  (freshBy_sublist AttachedRef.id refs []).subset h

/-- Every id of the list is kept. -/
theorem mem_map_uniqueRefs {refs : List AttachedRef} {r : AttachedRef} (h : r ∈ refs) :
    r.id ∈ (uniqueRefs refs).map AttachedRef.id :=
  (mark_mem_or_mem_freshBy AttachedRef.id refs [] h).resolve_left (by simp)

/-- A link as submitted. -/
structure LinkDraft where
  name : Wide
  size? : Option Number.Decimal := none
  date? : Option Date := none
  url? : Option Wide := none
  star? : Option Bool := none
  deriving DecidableEq

/-- The address of a submitted link; a missing one is empty. -/
def LinkDraft.url (l : LinkDraft) : Wide :=
  l.url?.getD ""

/-- What a record is created with. -/
structure RecordDraft where
  details : Details Wide := { title := untitled }
  refs : PerDirect Int := unknownRefs
  attached : PerAttached (List AttachedRef) := ⟨[], []⟩
  links : List LinkDraft := []
  creator : Wide := defaultEditor
  modifiedBy : Wide := defaultEditor
  deriving DecidableEq

/-- New contents of a record; attachments that are not given stay. -/
structure RecordRevision where
  details : Details Wide
  refs : PerDirect Int
  attached : PerAttached (Option (List AttachedRef)) := ⟨none, none⟩
  modifiedBy : Wide
  deriving DecidableEq

/-- The criteria by which records are listed. -/
structure RecordFilter where
  id? : Option Wide := none
  title? : Option Wide := none
  refs : PerDirect (Option Int) := ⟨none, none, none, none⟩
  deriving DecidableEq, Repr

/-- A stored record. -/
structure RecordRow where
  details : Details String
  refs : PerDirect Int
  created : Date
  updated : Date
  creator : String
  modifiedBy : String
  deriving DecidableEq

/-- A stored attachment. -/
structure Attachment where
  record : String
  target : Int
  manual : Bool
  deriving DecidableEq, Repr

/-- A stored link. -/
structure LinkRow where
  record : String
  name : String
  size : Size
  date : Date
  url : String
  star : Bool
  deriving DecidableEq

/-- An attachment as it is read back. -/
structure AttachedRow where
  row : Lookup
  manual : Bool
  deriving DecidableEq, Repr

/-- A record as it is read back. -/
structure Aggregate where
  id : String
  details : Details String
  refs : PerDirect Lookup
  attached : PerAttached (List AttachedRow)
  links : List (Int × LinkRow)
  created : Date
  updated : Date
  creator : String
  modifiedBy : String
  deriving DecidableEq

/-- The size of a submitted link; one that is no number is none. -/
def LinkDraft.storedSize? (l : LinkDraft) : Option Size :=
  match l.size? with
  | none => some Size.unknown
  | some d => Size.ofDecimal? d

/-- The link that is stored for a submitted one. A size that signals is told first, and one
that is no number after the texts. -/
def LinkDraft.toStorable (record : String) (l : LinkDraft) : Storable LinkRow :=
  if l.size? = some (.nan true) then .error .signalingSize
  else do
    let name ← l.name.toStorable
    let url ← l.url.toStorable
    match l.storedSize? with
    | none => .error .missingSize
    | some size =>
      .ok { record, name, size, date := l.date?.getD .epoch, url, star := l.star?.getD false }

/-- Whether a stored record meets all criteria. -/
def RecordFilter.accepts (f : RecordFilter) (id : String) (row : RecordRow) : Bool :=
  meetsPart f.id? id && meetsPart f.title? row.details.title
    && DirectKind.all.all fun k => meetsId (f.refs.get k) (row.refs.get k)

/-- How often a reference row is pointed at. -/
structure RecordCount where
  id : Int
  name : String
  count : Nat
  deriving DecidableEq, Repr

end CardCatalog
