import CardCatalog.Store.Lookups

/-!
# Records as they are read back

A record row is assembled with the rows that it points at. A direct reference to a row
that does not exist is a fault, reported for the first such kind; an attachment to a row
that does not exist is left out.

Results: assembly succeeds exactly if every direct reference finds its row
(`isOk_assemble_iff`).
-/

namespace CardCatalog
namespace Store

variable (s : Store)

/-- The row of a direct kind that a record points at. -/
def resolve (id : String) (row : RecordRow) (k : DirectKind) : Except Fault Lookup :=
  match s.lookup? (.direct k) (row.refs.get k) with
  | some found => .ok found
  | none => .error (.brokenReference id k (row.refs.get k))

/-- The rows of an attached kind that a record has, in order of attachment. -/
def attachedRows (id : String) (k : AttachedKind) : List AttachedRow :=
  (s.attachments.get k).rows.filterMap fun e =>
    if e.2.record = id then
      (s.lookup? (.attached k) e.2.target).map fun row => ⟨row, e.2.manual⟩
    else none

/-- The links of a record. -/
def linksOf (id : String) : List (Int × LinkRow) :=
  s.links.rows.filter fun e => e.2.record = id

/-- The aggregate of a record row. -/
def assemble (id : String) (row : RecordRow) : Except Fault Aggregate := do
  let director ← s.resolve id row .director
  let studio ← s.resolve id row .studio
  let label ← s.resolve id row .label
  let series ← s.resolve id row .series
  .ok
    { id
      details := row.details
      refs := ⟨director, studio, label, series⟩
      attached := PerAttached.ofFn fun k => s.attachedRows id k
      links := s.linksOf id
      created := row.created
      updated := row.updated
      creator := row.creator
      modifiedBy := row.modifiedBy }

/-- The aggregate of a record, if there is one. -/
def loadRecord (id : String) : Except Fault (Option Aggregate) :=
  match s.records.get? id with
  | none => .ok none
  | some row => (s.assemble id row).map some

/-- Whether every direct reference finds its row. -/
def Resolves (refs : PerDirect Int) : Prop :=
  ∀ k ∈ DirectKind.all, (s.keys (.direct k)).contains (refs.get k) = true

instance (refs : PerDirect Int) : Decidable (s.Resolves refs) :=
  inferInstanceAs (Decidable (∀ k ∈ DirectKind.all, _))

/-- A reference resolves exactly if its row exists. -/
theorem isOk_resolve_iff (id : String) (row : RecordRow) (k : DirectKind) :
    (∃ found, s.resolve id row k = .ok found)
      ↔ (s.keys (.direct k)).contains (row.refs.get k) = true := by
  unfold resolve lookup? Table.contains
  cases (s.keys (.direct k)).get? (row.refs.get k) <;> simp

/-- A record is assembled exactly if all its references resolve. -/
theorem isOk_assemble_iff (id : String) (row : RecordRow) :
    (∃ a, s.assemble id row = .ok a) ↔ s.Resolves row.refs := by
  have hR : s.Resolves row.refs
      ↔ ∀ k ∈ DirectKind.all, ∃ found, s.resolve id row k = .ok found := by
    simp only [isOk_resolve_iff]
    rfl
  rw [hR]
  unfold assemble
  constructor
  · rintro ⟨a, h⟩ k hk
    cases h₁ : s.resolve id row .director <;> simp [h₁, bind, Except.bind] at h
    cases h₂ : s.resolve id row .studio <;> simp [h₂] at h
    cases h₃ : s.resolve id row .label <;> simp [h₃] at h
    cases h₄ : s.resolve id row .series <;> simp [h₄] at h
    cases k <;> exact ⟨_, by assumption⟩
  · intro h
    obtain ⟨_, h₁⟩ := h .director (by simp [DirectKind.all])
    obtain ⟨_, h₂⟩ := h .studio (by simp [DirectKind.all])
    obtain ⟨_, h₃⟩ := h .label (by simp [DirectKind.all])
    obtain ⟨_, h₄⟩ := h .series (by simp [DirectKind.all])
    simp [h₁, h₂, h₃, h₄, bind, Except.bind]

end Store
end CardCatalog
