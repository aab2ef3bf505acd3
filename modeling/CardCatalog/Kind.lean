import CardCatalog.Text.Lower
import CardCatalog.Text.Blank

/-!
# Kinds of reference rows

A record points at one director, one studio, one label and one series (direct kinds), and
any number of genres and idols are attached to it (attached kinds). `PerDirect`,
`PerAttached` and `PerKind` hold one value for each kind.

Results: a kind is found again by its name (`ofName?_name`), and setting the value of a
kind changes the value of no other kind.
-/

namespace CardCatalog

/-- The kinds of which a record has exactly one. -/
inductive DirectKind where
  | director
  | studio
  | label
  | series
  deriving DecidableEq, Repr

/-- The kinds of which a record has any number. -/
inductive AttachedKind where
  | genre
  | idol
  deriving DecidableEq, Repr

/-- The kinds of reference rows. -/
inductive Kind where
  | direct (kind : DirectKind)
  | attached (kind : AttachedKind)
  deriving DecidableEq, Repr

namespace DirectKind

/-- The direct kinds in the order in which references are resolved. -/
def all : List DirectKind := [director, studio, label, series]

theorem mem_all (k : DirectKind) : k ∈ all := by
  cases k <;> simp [all]

/-- The name of a direct kind. -/
def name : DirectKind → String
  | director => "director"
  | studio => "studio"
  | label => "label"
  | series => "series"

/-- The name of a direct kind at the start of a sentence. -/
def displayName : DirectKind → String
  | director => "Director"
  | studio => "Studio"
  | label => "Label"
  | series => "Series"

end DirectKind

namespace AttachedKind

/-- The attached kinds. -/
def all : List AttachedKind := [genre, idol]

theorem mem_all (k : AttachedKind) : k ∈ all := by
  cases k <;> simp [all]

/-- The name of an attached kind. -/
def name : AttachedKind → String
  | genre => "genre"
  | idol => "idol"

/-- The name of an attached kind at the start of a sentence. -/
def displayName : AttachedKind → String
  | genre => "Genre"
  | idol => "Idol"

end AttachedKind

namespace Kind

/-- All kinds, the direct ones first. -/
def all : List Kind :=
  DirectKind.all.map direct ++ AttachedKind.all.map attached

theorem mem_all (k : Kind) : k ∈ all := by
  cases k with
  | direct k => exact List.mem_append_left _ (List.mem_map_of_mem k.mem_all)
  | attached k => exact List.mem_append_right _ (List.mem_map_of_mem k.mem_all)

/-- What can be decided of each kind can be decided of all. -/
instance (P : Kind → Prop) [DecidablePred P] : Decidable (∀ k, P k) :=
  decidable_of_iff (∀ k ∈ all, P k) ⟨fun h k => h k k.mem_all, fun h k _ => h k⟩

/-- The name of a kind. -/
def name : Kind → String
  | direct k => k.name
  | attached k => k.name

/-- The name of a kind at the start of a sentence. -/
def displayName : Kind → String
  | direct k => k.displayName
  | attached k => k.displayName

/-- Whether rows of the kind are attached to records. -/
def isAttached : Kind → Bool
  | direct _ => false
  | attached _ => true

/-- The kind of exactly this name. -/
def ofName? (s : String) : Option Kind :=
  all.find? fun k => k.name = s

/-- The kind whose name the text is, up to outer blanks and the case of letters. -/
def ofText? (w : Text.Wide) : Option Kind :=
  w.trim.lower.text?.bind ofName?

/-- A kind is found by its name. -/
@[simp] theorem ofName?_name (k : Kind) : ofName? k.name = some k := by
  rcases k with k | k <;> cases k <;> rfl

end Kind

/-- One value for each direct kind. -/
structure PerDirect (α : Type) where
  director : α
  studio : α
  label : α
  series : α
  deriving DecidableEq, Repr

/-- One value for each attached kind. -/
structure PerAttached (α : Type) where
  genre : α
  idol : α
  deriving DecidableEq, Repr

/-- One value for each kind. -/
structure PerKind (α : Type) where
  direct : PerDirect α
  attached : PerAttached α
  deriving DecidableEq, Repr

namespace PerDirect

variable {α β : Type}

/-- The value for a kind. -/
def get (p : PerDirect α) : DirectKind → α
  | .director => p.director
  | .studio => p.studio
  | .label => p.label
  | .series => p.series

/-- Replaces the value for a kind. -/
def set (p : PerDirect α) (k : DirectKind) (a : α) : PerDirect α :=
  match k with
  | .director => { p with director := a }
  | .studio => { p with studio := a }
  | .label => { p with label := a }
  | .series => { p with series := a }

/-- The values given by a function of the kind. -/
def ofFn (f : DirectKind → α) : PerDirect α :=
  ⟨f .director, f .studio, f .label, f .series⟩

@[simp] theorem get_set (p : PerDirect α) (k k' : DirectKind) (a : α) :
    (p.set k a).get k' = if k' = k then a else p.get k' := by
  cases k <;> cases k' <;> rfl

@[simp] theorem get_ofFn (f : DirectKind → α) (k : DirectKind) :
    (ofFn f).get k = f k := by
  cases k <;> rfl

/-- Two families are equal if they agree on every kind. -/
theorem ext_get {p q : PerDirect α} (h : ∀ k, p.get k = q.get k) : p = q := by
  cases p
  cases q
  have h₁ := h .director
  have h₂ := h .studio
  have h₃ := h .label
  have h₄ := h .series
  simp_all [get]

end PerDirect

namespace PerAttached

variable {α β : Type}

/-- The value for a kind. -/
def get (p : PerAttached α) : AttachedKind → α
  | .genre => p.genre
  | .idol => p.idol

/-- Replaces the value for a kind. -/
def set (p : PerAttached α) (k : AttachedKind) (a : α) : PerAttached α :=
  match k with
  | .genre => { p with genre := a }
  | .idol => { p with idol := a }

/-- The values given by a function of the kind. -/
def ofFn (f : AttachedKind → α) : PerAttached α :=
  ⟨f .genre, f .idol⟩

@[simp] theorem get_set (p : PerAttached α) (k k' : AttachedKind) (a : α) :
    (p.set k a).get k' = if k' = k then a else p.get k' := by
  cases k <;> cases k' <;> rfl

@[simp] theorem get_ofFn (f : AttachedKind → α) (k : AttachedKind) :
    (ofFn f).get k = f k := by
  cases k <;> rfl

/-- Two families are equal if they agree on every kind. -/
theorem ext_get {p q : PerAttached α} (h : ∀ k, p.get k = q.get k) : p = q := by
  cases p
  cases q
  have h₁ := h .genre
  have h₂ := h .idol
  simp_all [get]

end PerAttached

namespace PerKind

variable {α β : Type}

/-- The value for a kind. -/
def get (p : PerKind α) : Kind → α
  | .direct k => p.direct.get k
  | .attached k => p.attached.get k

/-- Replaces the value for a kind. -/
def set (p : PerKind α) (k : Kind) (a : α) : PerKind α :=
  match k with
  | .direct k => { p with direct := p.direct.set k a }
  | .attached k => { p with attached := p.attached.set k a }

@[simp] theorem get_set (p : PerKind α) (k k' : Kind) (a : α) :
    (p.set k a).get k' = if k' = k then a else p.get k' := by
  rcases k with k | k <;> rcases k' with k' | k' <;> simp [get, set]

/-- Two families are equal if they agree on every kind. -/
theorem ext_get {p q : PerKind α} (h : ∀ k, p.get k = q.get k) : p = q := by
  cases p
  cases q
  have h₁ := PerDirect.ext_get fun k => h (.direct k)
  have h₂ := PerAttached.ext_get fun k => h (.attached k)
  simp_all

end PerKind

end CardCatalog
