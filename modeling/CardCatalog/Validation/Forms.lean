import CardCatalog.Submission
import CardCatalog.Validation.Rule

/-!
# Forms

The objects that clients fill in: candidates and patches of reference rows, links,
submissions of new records and resubmissions of records that exist. Fields are checked in
the order in which they stand here. `otherwise` is the issue to report where an object
was expected and something else was found.

Names, ids and titles have to be texts. Links and the names of editors may be wide texts,
so a valid form may still hold what cannot be stored.
-/

namespace CardCatalog

open Text (Wide)

namespace Validation

/-- The most characters of a name or an id. -/
def longestName : Nat := 255

/-- The most characters of a title. -/
def longestTitle : Nat := 1024

namespace Rule

section Forms

variable (otherwise : IssueKind)

/-- A text whose number of characters lies between two bounds, as wide text. -/
def wideTextWithin (least most : Nat) : Rule Wide := fun place j =>
  Wide.ofText <$> textWithin least most place j

/-- A name: from one character to `longestName`. -/
def name : Rule Wide :=
  wideTextWithin 1 longestName

/-- A title: no more characters than `longestTitle`. -/
def title : Rule Wide :=
  wideTextWithin 0 longestTitle

/-- A reference row by value. -/
def candidate : Rule (Candidate Wide) :=
  object otherwise fun f =>
    Candidate.mk <$> f.required "name" name <*> f.optional "link" wideText
      <*> f.optional "manual" truth

/-- A change of a reference row. -/
def patch : Rule (Patch Wide) :=
  object otherwise fun f =>
    Patch.mk <$> f.optional "name" name <*> f.optional "link" wideText
      <*> f.optional "manual" truth

/-- A link. -/
def link : Rule LinkDraft :=
  object otherwise fun f =>
    LinkDraft.mk <$> f.required "name" name <*> f.optional "size" decimal
      <*> f.optional "date" date <*> f.optional "link" wideText
      <*> f.optional "star" truth

/-- Links. -/
def links : Rule (List LinkDraft) :=
  list (link otherwise)

/-- A row to attach, under the name of its kind. -/
def attachedCandidate (k : AttachedKind) : Rule (AttachedCandidate Wide) :=
  object otherwise fun f =>
    AttachedCandidate.mk <$> f.required k.name (candidate otherwise)
      <*> f.withDefault "manual" false truth

/-- Rows to attach. -/
def attachedCandidates (k : AttachedKind) : Rule (List (AttachedCandidate Wide)) :=
  list (attachedCandidate otherwise k)

/-- The rows of the direct kinds. -/
def directCandidates (f : Fields) : Checked (PerDirect (Option (Candidate Wide))) :=
  let row (k : DirectKind) := f.optional k.name (candidate otherwise)
  PerDirect.mk <$> row .director <*> row .studio <*> row .label <*> row .series

/-- The details of a new record: a field that is missing takes its default. -/
def newDetails (f : Fields) : Checked (Details Wide) :=
  let d : Details Wide := { title := untitled }
  Details.mk <$> f.withDefault "title" d.title title
    <*> f.withDefault "date" d.date date
    <*> f.withDefault "duration" d.duration integer
    <*> f.withDefault "has_links" d.hasLinks truth
    <*> f.withDefault "permission" d.permission integer
    <*> f.withDefault "local_img_count" d.localImageCount integer

/-- The details of a record that exists: every field must be there. -/
def allDetails (f : Fields) : Checked (Details Wide) :=
  Details.mk <$> f.required "title" title
    <*> f.required "date" date
    <*> f.required "duration" integer
    <*> f.required "has_links" truth
    <*> f.required "permission" integer
    <*> f.required "local_img_count" integer

/-- A new record and its id. -/
def submission : Rule (Wide × Submission) :=
  object otherwise fun f =>
    (fun details id direct genres idols links creator modifiedBy =>
        (id, { details, direct, attached := ⟨genres, idols⟩, links, creator, modifiedBy }))
      <$> newDetails f
      <*> f.required "id" name
      <*> directCandidates otherwise f
      <*> f.withDefault "genres" [] (attachedCandidates otherwise .genre)
      <*> f.withDefault "idols" [] (attachedCandidates otherwise .idol)
      <*> f.withDefault "links" [] (links otherwise)
      <*> f.withDefault "creator" defaultEditor wideText
      <*> f.withDefault "modified_by" defaultEditor wideText

/-- New contents of a record. -/
def resubmission : Rule Resubmission :=
  object otherwise fun f =>
    (fun details direct genres idols modifiedBy =>
        { details, direct, attached := ⟨genres, idols⟩, modifiedBy })
      <$> allDetails f
      <*> directCandidates otherwise f
      <*> f.optional "genres" (attachedCandidates otherwise .genre)
      <*> f.optional "idols" (attachedCandidates otherwise .idol)
      <*> f.withDefault "modified_by" defaultEditor wideText

end Forms

end Rule
end Validation
end CardCatalog
