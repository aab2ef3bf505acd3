import CardCatalog.Proofs.Pages

/-!
# Pages that are fetched

A page that is cut by windows fetches its rows, and only once it knows where they begin.  Which rows
it fetches is told by the same steps if they are taken with a record of the calls.  An offset that
is no multiple of the limit falls amid a window, and the page is that of the whole list from the
first row of the window on; behind the end it has no rows, and none are fetched.

Results: where a window begins (`PageRequest.rowOffset_le_and_lt`), which calls are made
(`run_queryIn_recorded`), and the page and the calls of a list (`query_from_window`).
-/

namespace CardCatalog

section Recording

variable {α : Type}

namespace Page

/-- The steps of `query`, over counts and fetches with effects of any kind. -/
def queryIn {m : Type → Type} [Monad m] [MonadExcept Fault m]
    (q : PageRequest) (count : m Int) (fetch : Int → Int → m (List α)) : m (Page α) := do
  let w ← MonadExcept.ofExcept q.window
  let total ← count
  let rows ← if w.isBefore total then fetch w.rowOffset w.limit else pure []
  pure (w.page total rows)

theorem query_eq_queryIn
    (q : PageRequest) (count : Except Fault Int) (fetch : Int → Int → Except Fault (List α)) :
    query q count fetch = queryIn q count fetch := by
  unfold query queryIn
  cases q.window <;> rfl

/-- A computation with a record of the calls that it made, by their arguments. -/
abbrev Recording := StateT (List (Int × Int)) (Except Fault)

/-- A fetch that puts each call on record before it answers. -/
def recorded
    (fetch : Int → Int → Except Fault (List α)) (offset limit : Int) : Recording (List α) := do
  modify fun calls => calls ++ [(offset, limit)]
  fetch offset limit

/-- A page is the same with a record of its calls, and the calls on record are `fetches`. -/
theorem run_queryIn_recorded
    (q : PageRequest) (total : Int) (fetch : Int → Int → Except Fault (List α))
    (calls : List (Int × Int)) :
    (queryIn q (pure total) (recorded fetch)).run calls
      = (query q (.ok total) fetch).bind fun page =>
          (fetches q total).map fun made => (page, calls ++ made) := by
  unfold queryIn query fetches recorded
  cases q.window with
  | error e => rfl
  | ok w =>
      show StateT.run (m := Except Fault) (do
          let rows ← if w.isBefore total then do
              modify fun calls => calls ++ [(w.rowOffset, w.limit)]
              fetch w.rowOffset w.limit
            else pure []
          pure (w.page total rows)) calls
        = Except.bind (do
            let rows ← if w.isBefore total then fetch w.rowOffset w.limit else .ok []
            .ok (w.page total rows)) fun page =>
          .ok (page, calls ++ if w.isBefore total then [(w.rowOffset, w.limit)] else [])
      cases w.isBefore total with
      | false => exact congrArg (fun c => Except.ok (w.page total [], c)) (List.append_nil calls).symm
      | true => cases fetch w.rowOffset w.limit <;> rfl

end Page

/-- A window begins at or before the offset that falls into it, and ends behind it. -/
theorem PageRequest.rowOffset_le_and_lt
    {q : PageRequest}
    (positive : 1 ≤ q.effectiveLimit) :
    q.effectiveOffset.fdiv q.effectiveLimit * q.effectiveLimit ≤ q.effectiveOffset ∧
      q.effectiveOffset
        < q.effectiveOffset.fdiv q.effectiveLimit * q.effectiveLimit + q.effectiveLimit := by
  have hpos : 0 < q.effectiveLimit := by omega
  rw [Int.fdiv_eq_ediv_of_nonneg _ (by omega)]
  refine ⟨Int.ediv_mul_le _ (by omega), ?_⟩
  have hlast := Int.lt_ediv_add_one_mul_self q.effectiveOffset hpos
  rwa [Int.add_mul, Int.one_mul] at hlast

end Recording

section Lists

variable {α : Type} {q : PageRequest}

/-- With a positive limit, an offset falls into a window that begins at a multiple of the limit.  The
page that is cut out of a list by windows is that of the whole list from the first row of the window
on.  The rows are fetched by one call, for the window, if it begins before the end of the list, and
else by none. -/
theorem query_from_window
    (xs : List α)
    (positive : 1 ≤ q.effectiveLimit) :
    ∃ w, q.window = .ok w ∧ w.limit = q.effectiveLimit ∧
      (q.effectiveLimit ∣ w.rowOffset ∧ w.rowOffset ≤ q.effectiveOffset ∧
        q.effectiveOffset < w.rowOffset + q.effectiveLimit) ∧
      let fetch := fun offset limit => .ok (slice offset (offset + limit) xs)
      let page := Page.inMemory xs { q with offset? := some w.rowOffset }
      let calls := if w.rowOffset < xs.length then [(w.rowOffset, q.effectiveLimit)] else []
      Page.query q (.ok xs.length) fetch = .ok page ∧
        Page.fetches q xs.length = .ok calls ∧
        (Page.queryIn q (pure xs.length) (Page.recorded fetch)).run [] = .ok (page, calls) := by
  have hwindow := PageRequest.window_eq positive
  obtain ⟨hfirst, hlast⟩ := PageRequest.rowOffset_le_and_lt positive
  refine ⟨_, hwindow, rfl, ⟨Int.dvd_mul_left _ _, hfirst, hlast⟩, ?_⟩
  intro fetch page calls
  have hpage : Page.query q (.ok xs.length) fetch = .ok page := query_slice_eq xs positive
  have hcalls : Page.fetches q xs.length = .ok calls := by
    unfold Page.fetches
    rw [hwindow]
    simp [Except.map, Window.isBefore, calls]
  refine ⟨hpage, hcalls, ?_⟩
  rw [Page.run_queryIn_recorded, hpage, hcalls]
  rfl

/-- Out of five rows, two a page, an offset of three has the page of the third and the fourth row,
which one call fetches; the page of an offset far behind the end is empty, and nothing is fetched. -/
theorem query_from_window_amid :
    let xs := [10, 20, 30, 40, 50]
    let fetch : Int → Int → Except Fault (List Nat) :=
      fun offset limit => .ok (slice offset (offset + limit) xs)
    let amid : PageRequest := { limit? := some 2, offset? := some 3 }
    let far : PageRequest := { offset? := some (2 ^ 70 + 1), defaultLimit := 2 }
    1 ≤ amid.effectiveLimit ∧ 1 ≤ far.effectiveLimit ∧
      Page.query amid (.ok 5) fetch = .ok ⟨5, some ⟨2, 4⟩, some ⟨2, 0⟩, [30, 40]⟩ ∧
      Page.fetches amid 5 = .ok [(2, 2)] ∧
      Page.query far (.ok 5) fetch = .ok ⟨5, none, some ⟨2, 2 ^ 70 - 2⟩, []⟩ ∧
      Page.fetches far 5 = .ok [] := by
  intro xs fetch amid far
  have hamid : 1 ≤ amid.effectiveLimit := by decide
  have hfar : 1 ≤ far.effectiveLimit := by decide
  obtain ⟨w, hw, _, _, hpage, hcalls, _⟩ := query_from_window xs hamid
  obtain ⟨v, hv, _, _, hpage', hcalls', _⟩ := query_from_window xs hfar
  cases hw
  cases hv
  exact ⟨hamid, hfar, hpage, hcalls, hpage', hcalls'⟩

end Lists

end CardCatalog
