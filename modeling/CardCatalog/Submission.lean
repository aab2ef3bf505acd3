import CardCatalog.Store.Records

/-!
# Submissions

A submission describes a record whole: the rows it refers to are given by value, not by
id. Writing one enrols those rows first, in the order director, studio, label, series,
genres, idols, and then writes the record with their ids. A direct kind that is not given
falls back to the unknown row.

The rows have to be storable, which is found out before any of them is enrolled: nothing else
can stop an enrolment. A submission for a record that exists already enrols nothing.
-/

namespace CardCatalog

open Calendar (Date)
open Text (Wide)

/-- A row to attach, by value, with the mark of the attachment. -/
structure AttachedCandidate (τ : Type) where
  row : Candidate τ
  manual : Bool := false
  deriving DecidableEq, Repr

/-- A record by value. -/
structure Submission where
  details : Details Wide := { title := untitled }
  direct : PerDirect (Option (Candidate Wide)) := ⟨none, none, none, none⟩
  attached : PerAttached (List (AttachedCandidate Wide)) := ⟨[], []⟩
  links : List LinkDraft := []
  creator : Wide := defaultEditor
  modifiedBy : Wide := defaultEditor
  deriving DecidableEq

/-- New contents of a record by value; attachments that are not given stay. -/
structure Resubmission where
  details : Details Wide
  direct : PerDirect (Option (Candidate Wide)) := ⟨none, none, none, none⟩
  attached : PerAttached (Option (List (AttachedCandidate Wide))) := ⟨none, none⟩
  modifiedBy : Wide := defaultEditor
  deriving DecidableEq

section Storing

/-- A row to attach, to be stored. -/
def AttachedCandidate.toStorable (a : AttachedCandidate Wide) :
    Storable (AttachedCandidate String) :=
  a.row.toStorable.map fun row => ⟨row, a.manual⟩

/-- The direct rows of a record, to be stored. -/
def storableDirect (direct : PerDirect (Option (Candidate Wide))) :
    Storable (PerDirect (Option (Candidate String))) := do
  let one (k : DirectKind) : Storable (Option (Candidate String)) :=
    (direct.get k).mapM Candidate.toStorable
  return ⟨← one .director, ← one .studio, ← one .label, ← one .series⟩

/-- Rows to attach, to be stored. -/
def storableRows (rows : List (AttachedCandidate Wide)) :
    Storable (List (AttachedCandidate String)) :=
  rows.mapM AttachedCandidate.toStorable

end Storing

namespace Store

/-- The id of a direct row given by value, or of the unknown row. -/
def enrolDirect (s : Store) (k : DirectKind) (c? : Option (Candidate String)) : Int × Store :=
  match c? with
  | none => (unknownId, s)
  | some c => s.enrol (.direct k) c

/-- The ids of the direct rows of a record. -/
def enrolRefs (s : Store) (direct : PerDirect (Option (Candidate String))) :
    PerDirect Int × Store :=
  let (director, s) := s.enrolDirect .director direct.director
  let (studio, s) := s.enrolDirect .studio direct.studio
  let (label, s) := s.enrolDirect .label direct.label
  let (series, s) := s.enrolDirect .series direct.series
  (⟨director, studio, label, series⟩, s)

/-- The ids of rows to attach. -/
def enrolAttached (s : Store) (k : AttachedKind) :
    List (AttachedCandidate String) → List AttachedRef × Store
  | [] => ([], s)
  | a :: rest =>
    let (id, s) := s.enrol (.attached k) a.row
    let (refs, s) := enrolAttached s k rest
    (⟨id, a.manual⟩ :: refs, s)

/-- The ids of rows to attach, if any are given. -/
def enrolAttached? (s : Store) (k : AttachedKind) :
    Option (List (AttachedCandidate String)) → Option (List AttachedRef) × Store
  | none => (none, s)
  | some given =>
    let (refs, s) := s.enrolAttached k given
    (some refs, s)

/-- Creates a record by value, and answers it as it is read back; a record that exists is
answered as it is. -/
def submit (s : Store) (today : Date) (id : String) (sub : Submission) :
    Except Fault (Option Aggregate × Store) := do
  if s.records.contains id then
    let found ← s.loadRecord id
    .ok (found, s)
  else
    let direct ← storableDirect sub.direct
    let genres ← storableRows sub.attached.genre
    let idols ← storableRows sub.attached.idol
    let (refs, s) := s.enrolRefs direct
    let (genres, s) := s.enrolAttached .genre genres
    let (idols, s) := s.enrolAttached .idol idols
    let s ← s.createRecord today id
      { details := sub.details
        refs
        attached := ⟨genres, idols⟩
        links := sub.links
        creator := sub.creator
        modifiedBy := sub.modifiedBy }
    let found ← s.loadRecord id
    .ok (found, s)

/-- Replaces the contents of a record by value, and answers the record as it is then. -/
def resubmit (s : Store) (today : Date) (id : String) (sub : Resubmission) :
    Except Fault (Option Aggregate × Store) :=
  if s.records.contains id then do
    let direct ← storableDirect sub.direct
    let genres? ← sub.attached.genre.mapM storableRows
    let idols? ← sub.attached.idol.mapM storableRows
    let (refs, s) := s.enrolRefs direct
    let (genres, s) := s.enrolAttached? .genre genres?
    let (idols, s) := s.enrolAttached? .idol idols?
    s.reviseRecord today id
      { details := sub.details
        refs
        attached := ⟨genres, idols⟩
        modifiedBy := sub.modifiedBy }
  else .ok (none, s)

end Store
end CardCatalog
