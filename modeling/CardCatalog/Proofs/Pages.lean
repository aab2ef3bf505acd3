import CardCatalog.Page
import CardCatalog.Proofs.Stopping
import Mathlib.Algebra.Order.Ring.Int

/-!
# Pages

A page of a list that is at hand has the rows behind its offset, up to its limit.  What is said of
places in the list comes to this as soon as the limit is positive.  A page that is cut by windows
is the same one if its offset is a multiple of its limit; else it is the page from the multiple
before its offset.

Results: what a page has (`inMemory_eq`), also if it is cut by windows (`query_eq`), where such a
page starts (`PageRequest.window_eq`, `query_atStart`, `query_slice_eq`), the page of what becomes of its rows
(`mapM_inMemory_eq`), and the pages of a list together (`flatMap_results_ofIndex`).
-/

namespace CardCatalog

namespace PageRequest

variable {α β : Type}

theorem effectiveLimit_pos (q : PageRequest) (positive : 1 ≤ q.defaultLimit) :
    1 ≤ q.effectiveLimit := by
  unfold effectiveLimit
  split
  · split <;> omega
  · exact positive

/-- The rows of a list that a page is asked for. -/
def cut (q : PageRequest) (xs : List α) : List α :=
  (xs.drop q.effectiveOffset.toNat).take q.effectiveLimit.toNat

/-- The page of given rows, out of so many: its neighbours begin one limit further on, and one
limit back. -/
def pageOf (q : PageRequest) (total : Int) (results : List β) : Page β where
  count := total
  next? :=
    if q.effectiveOffset + q.effectiveLimit < total then
      some ⟨q.effectiveLimit, q.effectiveOffset + q.effectiveLimit⟩
    else none
  previous? :=
    if 0 < q.effectiveOffset then
      some ⟨q.effectiveLimit, max 0 (q.effectiveOffset - q.effectiveLimit)⟩
    else none
  results := results

/-- The request for the page of an index, among pages of a given limit. -/
def ofIndex (limit index : Nat) (defaultLimit : Int) : PageRequest :=
  ⟨some limit, some (index * limit : Nat), defaultLimit⟩

variable {limit : Nat}

theorem effectiveLimit_natural
    (offset? : Option Int) (defaultLimit : Int) (positive : 0 < limit) :
    (PageRequest.mk (some (limit : Int)) offset? defaultLimit).effectiveLimit = limit := by
  have hpos : ¬ (limit : Int) ≤ 0 := by omega
  simp only [effectiveLimit, hpos, if_false]

theorem effectiveOffset_natural
    (limit? : Option Int) (offset? : Option Nat) (defaultLimit : Int) :
    (PageRequest.mk limit? (offset?.map Int.ofNat) defaultLimit).effectiveOffset
      = (offset?.getD 0 : Nat) := by
  cases offset? with
  | none => rfl
  | some offset =>
      have hnat : ¬ Int.ofNat offset < 0 := Int.not_lt.2 (Int.natCast_nonneg offset)
      simp only [effectiveOffset, Option.map_some, hnat, if_false]
      rfl

theorem effectiveLimit_ofIndex (index : Nat) (defaultLimit : Int) (positive : 0 < limit) :
    (ofIndex limit index defaultLimit).effectiveLimit = limit :=
  effectiveLimit_natural _ defaultLimit positive

theorem effectiveOffset_ofIndex (limit index : Nat) (defaultLimit : Int) :
    (ofIndex limit index defaultLimit).effectiveOffset = (index * limit : Nat) :=
  effectiveOffset_natural (some (limit : Int)) (some (index * limit)) defaultLimit

end PageRequest

section InMemory

variable {α β : Type}

/-- A slice has the elements from one place on, up to a number. -/
theorem slice_eq
    (xs : List α) {offset limit : Int}
    (hoffset : 0 ≤ offset) (hlimit : 0 ≤ limit) :
    slice offset (offset + limit) xs = (xs.drop offset.toNat).take limit.toNat := by
  obtain ⟨start, rfl⟩ := Int.eq_ofNat_of_zero_le hoffset
  obtain ⟨size, rfl⟩ := Int.eq_ofNat_of_zero_le hlimit
  have hstart : placeIn xs.length (start : Int) = min start xs.length := by
    have hnat : ¬ (start : Int) < 0 := by omega
    simp only [placeIn, hnat, if_false, Int.toNat_natCast]
  have hstop : placeIn xs.length ((start : Int) + size) = min (start + size) xs.length := by
    have hnat : ¬ (start : Int) + size < 0 := by omega
    simp only [placeIn, hnat, if_false]
    omega
  unfold slice
  rw [hstart, hstop]
  simp only [Int.toNat_natCast]
  rcases Nat.le_total start xs.length with hle | hle
  · have hrest : min (start + size) xs.length - min start xs.length
        = min size (xs.drop start).length := by
      rw [List.length_drop]
      omega
    rw [hrest, Nat.min_eq_left hle, ← List.take_eq_take_min]
  · simp [List.drop_eq_nil_of_le hle, Nat.min_eq_right hle]

/-- A page of a list has the rows that are asked for. -/
theorem inMemory_eq
    (xs : List α) {q : PageRequest}
    (positive : 1 ≤ q.effectiveLimit) :
    Page.inMemory xs q = q.pageOf xs.length (q.cut xs) := by
  have hslice := slice_eq xs q.effectiveOffset_nonneg (by omega : 0 ≤ q.effectiveLimit)
  simp only [Page.inMemory, hslice]
  rfl

/-- A page of a list is told by the limit and the offset in force. -/
theorem inMemory_congr
    (xs : List α) {q q' : PageRequest}
    (limit : q'.effectiveLimit = q.effectiveLimit)
    (offset : q'.effectiveOffset = q.effectiveOffset) :
    Page.inMemory xs q' = Page.inMemory xs q := by
  simp only [Page.inMemory, limit, offset]

/-- A page of a list is answered as its rows are. -/
theorem mapM_inMemory_eq
    (f : α → Except Fault β) (xs : List α) {q : PageRequest}
    (positive : 1 ≤ q.effectiveLimit) :
    (Page.inMemory xs q).mapM f = ((q.cut xs).mapM f).map (q.pageOf xs.length) := by
  rw [inMemory_eq xs positive]
  rfl

/-- A page of rows that are all answered is the page of the answers. -/
theorem mapM_inMemory
    {f : α → Except Fault β} {xs : List α} {bs : List β}
    (h : xs.mapM f = .ok bs) (q : PageRequest) :
    (Page.inMemory xs q).mapM f = .ok (Page.inMemory bs q) := by
  have hall := mapM_eq_ok_iff.1 h
  have hlength := hall.length_eq
  have hresults : (Page.inMemory xs q).results.mapM f = .ok (Page.inMemory bs q).results := by
    refine mapM_eq_ok_iff.2 ?_
    simp only [Page.inMemory, slice, ← hlength]
    exact List.forall₂_take _ (List.forall₂_drop _ hall)
  unfold Page.mapM
  rw [hresults]
  simp only [Page.inMemory, Except.map, hlength]

/-- A page has the rows behind its offset, up to its limit. -/
theorem results_inMemory_ofIndex
    (xs : List α) {limit : Nat} (index : Nat) (defaultLimit : Int)
    (positive : 0 < limit) :
    (Page.inMemory xs (.ofIndex limit index defaultLimit)).results
      = (xs.drop (index * limit)).take limit := by
  have hlimit := PageRequest.effectiveLimit_ofIndex index defaultLimit positive
  rw [inMemory_eq xs (by omega)]
  show PageRequest.cut _ xs = _
  rw [PageRequest.cut, hlimit, PageRequest.effectiveOffset_ofIndex, Int.toNat_natCast,
    Int.toNat_natCast]

/-- Pages one after the other are the list that they are cut out of. -/
theorem flatMap_results_ofIndex
    (xs : List α) {limit : Nat} (count : Nat) (defaultLimit : Int)
    (positive : 0 < limit) :
    ((List.range count).flatMap fun i =>
        (Page.inMemory xs (.ofIndex limit i defaultLimit)).results)
      = xs.take (count * limit) := by
  induction count with
  | zero => simp
  | succ count ih =>
      rw [List.range_succ, List.flatMap_append, ih, List.flatMap_singleton,
        results_inMemory_ofIndex xs count defaultLimit positive, Nat.succ_mul, List.take_add]

end InMemory

section Windows

variable {α : Type}

/-- The window of a positive limit is the one of that size into which the offset falls. -/
theorem PageRequest.window_eq
    {q : PageRequest}
    (positive : 1 ≤ q.effectiveLimit) :
    q.window = .ok ⟨q.effectiveLimit, q.effectiveOffset.fdiv q.effectiveLimit,
      q.effectiveOffset.fdiv q.effectiveLimit * q.effectiveLimit⟩ := by
  have hzero : ¬ q.effectiveLimit = 0 := by omega
  rw [window]
  exact if_neg hzero

/-- A window that begins at the offset has the page of the request. -/
theorem page_window
    {q : PageRequest} {index : Int}
    (positive : 1 ≤ q.effectiveLimit)
    (hoffset : index * q.effectiveLimit = q.effectiveOffset)
    (total : Int) (rows : List α) :
    (Window.mk q.effectiveLimit index q.effectiveOffset).page total rows
      = q.pageOf total rows := by
  have hnext : (index + 1) * q.effectiveLimit = q.effectiveOffset + q.effectiveLimit := by
    rw [Int.add_mul, hoffset, Int.one_mul]
  have hprevious : (index - 1) * q.effectiveLimit = q.effectiveOffset - q.effectiveLimit := by
    rw [Int.sub_mul, hoffset, Int.one_mul]
  have hlater : index > 0 ↔ 0 < q.effectiveOffset := by
    rw [← hoffset]
    exact (mul_pos_iff_of_pos_right (by omega)).symm
  unfold Window.page PageRequest.pageOf
  dsimp only
  rw [hnext, hprevious]
  by_cases hfirst : index > 0
  · have hback : 0 ≤ q.effectiveOffset - q.effectiveLimit := by
      rw [← hprevious]
      exact Int.mul_nonneg (by omega) (by omega)
    rw [if_pos hfirst, if_pos (hlater.1 hfirst), Int.max_eq_right hback]
  · rw [if_neg hfirst, if_neg (fun h => hfirst (hlater.2 h))]

/-- A page that is cut by windows has what is fetched from its offset, if the offset is a multiple
of its limit; nothing is fetched from behind the end. -/
theorem query_eq_fetch
    {q : PageRequest}
    (positive : 1 ≤ q.effectiveLimit)
    (aligned : q.effectiveLimit ∣ q.effectiveOffset)
    (total : Int) (fetch : Int → Int → Except Fault (List α)) :
    Page.query q (.ok total) fetch
      = if q.effectiveOffset < total then
          (fetch q.effectiveOffset q.effectiveLimit).map (q.pageOf total)
        else .ok (q.pageOf total []) := by
  obtain ⟨index, hindex⟩ := aligned
  have hoffset : index * q.effectiveLimit = q.effectiveOffset := by
    rw [hindex, Int.mul_comm]
  have hwindow : q.window = .ok ⟨q.effectiveLimit, index, q.effectiveOffset⟩ := by
    have hdiv : q.effectiveOffset.fdiv q.effectiveLimit = index := by
      rw [hindex, Int.mul_fdiv_cancel_left index (by omega)]
    rw [PageRequest.window_eq positive, hdiv, hoffset]
  unfold Page.query
  rw [hwindow, ok_bind_eq, ok_bind_eq, Window.isBefore]
  simp only [decide_eq_true_eq]
  by_cases hbefore : q.effectiveOffset < total
  · rw [if_pos hbefore, if_pos hbefore]
    cases fetch q.effectiveOffset q.effectiveLimit with
    | error fault => rfl
    | ok rows =>
        rw [ok_bind_eq, page_window positive hoffset]
        rfl
  · rw [if_neg hbefore, if_neg hbefore, ok_bind_eq, page_window positive hoffset]

section Starts

variable {q : PageRequest}

/-- The request for the first row of the window into which the offset falls. -/
def PageRequest.atStart (q : PageRequest) : PageRequest :=
  { q with offset? := some (q.effectiveOffset.fdiv q.effectiveLimit * q.effectiveLimit) }

@[simp] theorem PageRequest.effectiveLimit_atStart (q : PageRequest) :
    q.atStart.effectiveLimit = q.effectiveLimit := rfl

theorem PageRequest.effectiveOffset_atStart
    (positive : 1 ≤ q.effectiveLimit) :
    q.atStart.effectiveOffset = q.effectiveOffset.fdiv q.effectiveLimit * q.effectiveLimit := by
  have hindex : 0 ≤ q.effectiveOffset.fdiv q.effectiveLimit :=
    Int.fdiv_nonneg q.effectiveOffset_nonneg (by omega)
  have hstart : ¬ q.effectiveOffset.fdiv q.effectiveLimit * q.effectiveLimit < 0 :=
    Int.not_lt.2 (Int.mul_nonneg hindex (by omega))
  show (if _ < (0 : Int) then (0 : Int) else _) = _
  rw [if_neg hstart]

theorem PageRequest.dvd_effectiveOffset_atStart
    (positive : 1 ≤ q.effectiveLimit) :
    q.atStart.effectiveLimit ∣ q.atStart.effectiveOffset := by
  rw [effectiveOffset_atStart positive]
  exact Int.dvd_mul_left _ _

/-- An offset falls into the window that it starts. -/
theorem PageRequest.window_atStart
    (positive : 1 ≤ q.effectiveLimit) :
    q.atStart.window = q.window := by
  have hpositive : 1 ≤ q.atStart.effectiveLimit := positive
  have hzero : q.effectiveLimit ≠ 0 := by omega
  rw [window_eq hpositive, window_eq positive, effectiveOffset_atStart positive,
    effectiveLimit_atStart, Int.mul_fdiv_cancel _ hzero]

/-- A page that is cut by windows is that of the request for its first row. -/
theorem query_atStart
    (positive : 1 ≤ q.effectiveLimit)
    (count : Except Fault Int) (fetch : Int → Int → Except Fault (List α)) :
    Page.query q.atStart count fetch = Page.query q count fetch := by
  unfold Page.query
  rw [PageRequest.window_atStart positive]

end Starts

theorem PageRequest.cut_eq_nil
    {xs : List α} {q : PageRequest}
    (h : ¬ q.effectiveOffset < xs.length) :
    q.cut xs = [] := by
  have hnatural := q.effectiveOffset_nonneg
  rw [PageRequest.cut, List.drop_eq_nil_of_le (by omega), List.take_nil]

/-- The page of a list that is cut by windows is that of the whole list, if its offset is a
multiple of its limit. -/
theorem query_eq
    (xs : List α) {q : PageRequest} {fetch : Int → Int → Except Fault (List α)}
    (positive : 1 ≤ q.effectiveLimit)
    (aligned : q.effectiveLimit ∣ q.effectiveOffset)
    (fetches : q.effectiveOffset < xs.length →
      fetch q.effectiveOffset q.effectiveLimit = .ok (q.cut xs)) :
    Page.query q (.ok xs.length) fetch = .ok (q.pageOf xs.length (q.cut xs)) := by
  rw [query_eq_fetch positive aligned]
  split
  · rename_i hbefore
    rw [fetches hbefore]
    rfl
  · rename_i hbefore
    rw [PageRequest.cut_eq_nil hbefore]

/-- A page that is cut by windows and answered is that of the whole list, if what is fetched is what
it asks for. -/
theorem page_of_query
    {xs : List α} {q : PageRequest} {fetch : Int → Int → Except Fault (List α)} {page : Page α}
    (positive : 1 ≤ q.effectiveLimit)
    (aligned : q.effectiveLimit ∣ q.effectiveOffset)
    (fetches : ∀ rows, fetch q.effectiveOffset q.effectiveLimit = .ok rows → rows = q.cut xs)
    (h : Page.query q (.ok xs.length) fetch = .ok page) :
    page = q.pageOf xs.length (q.cut xs) := by
  rw [query_eq_fetch positive aligned] at h
  split at h
  · obtain ⟨rows, hrows, h⟩ := map_eq_ok_iff.1 h
    rw [← h, fetches rows hrows]
  · rename_i hbefore
    rw [← Except.ok.inj h, PageRequest.cut_eq_nil hbefore]

/-- A page that is cut by windows out of a list is the page from the first row of the window on. -/
theorem query_slice_eq
    (xs : List α) {q : PageRequest}
    (positive : 1 ≤ q.effectiveLimit) :
    Page.query q (.ok xs.length) (fun offset limit => .ok (slice offset (offset + limit) xs))
      = .ok (Page.inMemory xs q.atStart) := by
  have hpositive : 1 ≤ q.atStart.effectiveLimit := positive
  rw [← query_atStart positive,
    query_eq xs hpositive (PageRequest.dvd_effectiveOffset_atStart positive) fun _ => ?_,
    inMemory_eq xs hpositive]
  rw [slice_eq xs q.atStart.effectiveOffset_nonneg (by omega)]
  rfl

end Windows

end CardCatalog
