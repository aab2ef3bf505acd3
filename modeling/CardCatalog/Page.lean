import CardCatalog.Fault

/-!
# Pages of a listing

Input: a limit and an offset, as far as the client gave them.
A request without a positive limit takes the default limit, and one without a natural
offset starts at zero. Pages are made in two ways. In memory, a page starts exactly at the
offset. From a store, the rows are cut into pages of the limit's size, and the page is the
one into which the offset falls; its rows are fetched only if it starts before the end.

Results: a window starts at a multiple of its limit (`rowOffset_eq`).
-/

namespace CardCatalog

/-- A limit and an offset as asked for. -/
structure PageRequest where
  limit? : Option Int := none
  offset? : Option Int := none
  defaultLimit : Int := 20
  deriving DecidableEq, Repr

/-- The request for a neighbouring page. -/
structure PageLink where
  limit : Int
  offset : Int
  deriving DecidableEq, Repr

/-- One page: the number of all rows, the neighbouring pages, and its own rows. -/
structure Page (α : Type) where
  count : Int
  next? : Option PageLink
  previous? : Option PageLink
  results : List α
  deriving DecidableEq, Repr

/-- The place of a page among pages of equal size. -/
structure Window where
  limit : Int
  index : Int
  rowOffset : Int
  deriving DecidableEq, Repr

namespace PageLink

/-- The query text that asks for the page. -/
def toText (l : PageLink) : String :=
  "?limit=" ++ toString l.limit ++ "&offset=" ++ toString l.offset

/-- The request that the link stands for. -/
def request (l : PageLink) (defaultLimit : Int) : PageRequest :=
  ⟨some l.limit, some l.offset, defaultLimit⟩

end PageLink

section Slices

variable {α : Type}

/-- A place in a list of the given length; negative places count from the end. -/
def placeIn (length : Nat) (i : Int) : Nat :=
  if i < 0 then (i + length).toNat else min i.toNat length

/-- The elements between two places. -/
def slice (start stop : Int) (xs : List α) : List α :=
  let i := placeIn xs.length start
  (xs.drop i).take (placeIn xs.length stop - i)

/-- The elements that a store answers for an offset and a limit: a negative offset counts
as zero, and a negative limit as none. -/
def fetched (offset limit : Int) (xs : List α) : List α :=
  let rest := xs.drop offset.toNat
  if limit < 0 then rest else rest.take limit.toNat

end Slices

namespace PageRequest

variable {α : Type}

/-- The limit in force. -/
def effectiveLimit (q : PageRequest) : Int :=
  match q.limit? with
  | some l => if l ≤ 0 then q.defaultLimit else l
  | none => q.defaultLimit

/-- The offset in force. -/
def effectiveOffset (q : PageRequest) : Int :=
  match q.offset? with
  | some o => if o < 0 then 0 else o
  | none => 0

/-- The offset in force is natural. -/
theorem effectiveOffset_nonneg (q : PageRequest) : 0 ≤ q.effectiveOffset := by
  unfold effectiveOffset
  split
  · split <;> omega
  · exact Int.le_refl 0

/-- The page of equal size into which the offset falls. -/
def window (q : PageRequest) : Except Fault Window :=
  let limit := q.effectiveLimit
  if limit = 0 then .error .zeroLimit
  else
    let index := q.effectiveOffset.fdiv limit
    .ok ⟨limit, index, index * limit⟩

end PageRequest

namespace Window

variable {α : Type}

/-- Whether any rows have to be fetched. -/
def isBefore (w : Window) (total : Int) : Bool :=
  w.rowOffset < total

/-- The page with the given rows. -/
def page (w : Window) (total : Int) (results : List α) : Page α where
  count := total
  next? :=
    if (w.index + 1) * w.limit < total then some ⟨w.limit, (w.index + 1) * w.limit⟩
    else none
  previous? :=
    if w.index > 0 then some ⟨w.limit, (w.index - 1) * w.limit⟩ else none
  results := results

end Window

namespace Page

variable {α β : Type}

/-- The page of a list that is at hand. -/
def inMemory (xs : List α) (q : PageRequest) : Page α :=
  let limit := q.effectiveLimit
  let offset := q.effectiveOffset
  let total : Int := xs.length
  { count := total
    next? := if offset + limit < total then some ⟨limit, offset + limit⟩ else none
    previous? := if offset > 0 then some ⟨limit, max 0 (offset - limit)⟩ else none
    results := slice offset (offset + limit) xs }

/-- The page of fetched rows. -/
def build (q : PageRequest) (total : Int) (results : List α) : Except Fault (Page α) :=
  q.window.map fun w => w.page total results

/-- The page of rows that `fetch` finds for an offset and a limit, out of as many as
`count` finds. -/
def query (q : PageRequest) (count : Except Fault Int)
    (fetch : Int → Int → Except Fault (List α)) : Except Fault (Page α) := do
  let w ← q.window
  let total ← count
  let rows ← if w.isBefore total then fetch w.rowOffset w.limit else .ok []
  .ok (w.page total rows)

/-- The calls of `fetch` that `query` makes. -/
def fetches (q : PageRequest) (total : Int) : Except Fault (List (Int × Int)) :=
  q.window.map fun w => if w.isBefore total then [(w.rowOffset, w.limit)] else []

/-- Changes the rows of a page. -/
def map (f : α → β) (p : Page α) : Page β :=
  ⟨p.count, p.next?, p.previous?, p.results.map f⟩

/-- Changes the rows of a page, up to the first fault. -/
def mapM (f : α → Except Fault β) (p : Page α) : Except Fault (Page β) :=
  (p.results.mapM f).map fun results => ⟨p.count, p.next?, p.previous?, results⟩

end Page

/-- A window starts at a multiple of its limit. -/
theorem PageRequest.rowOffset_eq {q : PageRequest} {w : Window} (h : q.window = .ok w) :
    w.rowOffset = w.index * w.limit := by
  unfold PageRequest.window at h
  simp only at h
  split at h
  · cases h
  · cases h
    rfl

end CardCatalog
