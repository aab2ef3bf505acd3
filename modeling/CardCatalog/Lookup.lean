import CardCatalog.Fault
import CardCatalog.Text.Blank
import CardCatalog.Text.Part

/-!
# Reference rows

A reference row is an id and a natural key: name, link and the manual mark. Two rows
describe the same thing if their natural keys are equal. A candidate is a row without an
id as a client submits it, and a patch changes some parts of a key.

Keys, candidates and patches are given over a type of texts: wide text as long as they are
only submitted, text once they can be stored.

Results: an empty patch changes nothing, and a patch does nothing on a key it has already
changed.
-/

namespace CardCatalog

open Text (Wide)

/-- What a reference row describes. -/
structure NaturalKey (τ : Type) where
  name : τ
  link : τ
  manual : Bool
  deriving DecidableEq, Repr

/-- A reference row. -/
structure Lookup where
  id : Int
  key : NaturalKey String
  deriving DecidableEq, Repr

/-- A reference row as submitted. -/
structure Candidate (τ : Type) where
  name : τ
  link? : Option τ := none
  manual? : Option Bool := none
  deriving DecidableEq, Repr

/-- A change of a natural key. -/
structure Patch (τ : Type) where
  name? : Option τ := none
  link? : Option τ := none
  manual? : Option Bool := none
  deriving DecidableEq, Repr

/-- The criteria by which reference rows are listed. -/
structure LookupFilter where
  id? : Option Int := none
  name? : Option Wide := none
  link? : Option Wide := none
  deriving DecidableEq, Repr

/-- The key of a candidate; a missing link is the empty text, which is the default of its
type, and a missing mark is false. -/
def Candidate.key {τ : Type} [Inhabited τ] (c : Candidate τ) : NaturalKey τ :=
  ⟨c.name, c.link?.getD default, c.manual?.getD false⟩

/-- A candidate to be stored. -/
def Candidate.toStorable (c : Candidate Wide) : Storable (Candidate String) := do
  return ⟨← c.name.toStorable, ← c.link?.mapM Wide.toStorable, c.manual?⟩

namespace Patch

/-- A patch to be stored. -/
def toStorable (p : Patch Wide) : Storable (Patch String) := do
  return ⟨← p.name?.mapM Wide.toStorable, ← p.link?.mapM Wide.toStorable, p.manual?⟩

section Keys

variable {τ : Type}

/-- The key after a change. -/
def apply (p : Patch τ) (k : NaturalKey τ) : NaturalKey τ :=
  ⟨p.name?.getD k.name, p.link?.getD k.link, p.manual?.getD k.manual⟩

/-- A patch without parts changes nothing. -/
@[simp] theorem apply_empty (k : NaturalKey τ) : apply {} k = k := rfl

/-- A patch that has been applied changes nothing more. -/
@[simp] theorem apply_apply (p : Patch τ) (k : NaturalKey τ) :
    p.apply (p.apply k) = p.apply k := by
  rcases p with ⟨n, l, m⟩
  cases n <;> cases l <;> cases m <;> rfl

end Keys

end Patch

/-- The part that a criterion asks for, if it is not blank. -/
def wantedPart? (criterion? : Option Wide) : Option Wide :=
  criterion?.filter fun w => !w.isBlank

/-- Whether a text meets a criterion: it holds the part that is asked for, if any is. -/
def meetsPart (criterion? : Option Wide) (s : String) : Bool :=
  match wantedPart? criterion? with
  | none => true
  | some part => Text.hasPart s part

/-- Whether an integer meets a criterion; a missing one is met by every integer. -/
def meetsId (wanted? : Option Int) (n : Int) : Bool :=
  match wanted? with
  | none => true
  | some wanted => n = wanted

/-- Whether a row meets all criteria. -/
def LookupFilter.accepts (f : LookupFilter) (row : Lookup) : Bool :=
  meetsId f.id? row.id && meetsPart f.name? row.key.name && meetsPart f.link? row.key.link

end CardCatalog
