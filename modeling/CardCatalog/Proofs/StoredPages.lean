import CardCatalog.Proofs.Listings

/-!
# Pages from the store

A page of reference rows is made of three answers: how many rows the filter finds, into which
window the offset falls, and the rows that are fetched from there on.  All three are about one
list in one order, so it is the page of that list as if all of it were at hand, from the first row
of the window on.  Nothing is fetched behind the end, so an offset may lie anywhere; only the place
of a row that is there has to be in the stored range, and it is if the rows can be counted.

Results: a search stops for no integer but the wanted id (`listLookups_ne_outOfRange`), and a page
from the store is a page of the listing (`pageLookups_refines_inMemory`).
-/

namespace CardCatalog

open Calendar (Date)

namespace Store

variable {s : Store} {k : Kind} {f : LookupFilter} {q : PageRequest}

/-- A search with an id in the stored range finds all integers in range. -/
theorem listLookups_ne_outOfRange
    (near : ∀ n ∈ f.id?, Number.InRange n) :
    s.listLookups k f ≠ .error .outOfRange := by
  have hrange : checkRange f.id?.toList = .ok () :=
    checkRange_eq_ok_iff.2 fun n hn => near n (Option.mem_toList.1 hn)
  have hstops : StopsWithin (· ≠ .outOfRange) (s.listLookups k f) := by
    unfold listLookups
    rw [hrange, ok_bind_eq]
    refine (stopsWithin_patternOf fun _ => nofun).bind fun _ _ => ?_
    refine (stopsWithin_patternOf fun _ => nofun).bind fun _ _ => ?_
    refine (stopsWithin_checkSearch nofun).bind fun _ _ => ?_
    exact (stopsWithin_checkSearch nofun).bind fun _ _ => stopsWithin_ok _
  exact fun h => hstops _ h rfl

theorem pageLookups_atStart
    (positive : 1 ≤ q.effectiveLimit) :
    s.pageLookups k f q.atStart = s.pageLookups k f q :=
  query_atStart positive _ _

/-- With a limit in the stored range, the request for the first row of a window can be fetched
with. -/
theorem isRegular_atStart
    (positive : 1 ≤ q.effectiveLimit)
    (bounded : q.effectiveLimit < 0x8000000000000000) :
    q.atStart.IsRegular where
  positive := positive
  aligned := PageRequest.dvd_effectiveOffset_atStart positive
  limit := ⟨by rw [PageRequest.effectiveLimit_atStart]; omega, bounded⟩

/-- A page is not looked for if its rows cannot be counted. -/
theorem pageLookups_of_error
    {e : Fault}
    (positive : 1 ≤ q.effectiveLimit)
    (h : s.listLookups k f = .error e) :
    s.pageLookups k f q = .error e := by
  unfold pageLookups Page.query
  rw [PageRequest.window_eq positive, ok_bind_eq, h]
  rfl

/-- If the rows of a kind can be counted, as in every database, a page of them from the store is the
page of all rows that the filter finds, from the first row of the window on into which the offset
falls.  It stops where the search for all rows stops, and for no integer if the wanted id is in the
stored range. -/
theorem pageLookups_refines_inMemory
    (s : Store) (k : Kind) (f : LookupFilter) {q q' : PageRequest}
    (positive : 1 ≤ q.defaultLimit)
    (bounded : q.effectiveLimit < 0x8000000000000000)
    (counted : Number.InRange (s.lookupRows k).length)
    (limit : q'.effectiveLimit = q.effectiveLimit)
    (offset : q'.effectiveOffset
      = q.effectiveOffset.fdiv q.effectiveLimit * q.effectiveLimit) :
    s.pageLookups k f q = (s.listLookups k f).map (fun rows => Page.inMemory rows q') ∧
      (f.IsSearchable → ∃ page, s.pageLookups k f q = .ok page) ∧
      ((∀ n ∈ f.id?, Number.InRange n) → s.pageLookups k f q ≠ .error .outOfRange) := by
  have hlimit := q.effectiveLimit_pos positive
  have hpage : s.pageLookups k f q
      = (s.listLookups k f).map (fun rows => Page.inMemory rows q') := by
    cases hlist : s.listLookups k f with
    | error e => exact pageLookups_of_error hlimit hlist
    | ok rows =>
        have hfew : rows.length ≤ (s.lookupRows k).length := by
          rw [eq_of_listLookups hlist]
          exact List.length_filter_le _ _
        have hregular := isRegular_atStart hlimit bounded
        have hatStart : s.pageLookups k f q.atStart = .ok (Page.inMemory rows q.atStart) := by
          rw [inMemory_eq rows hregular.positive]
          exact pageLookups_eq hlist hregular ⟨by omega, (Int.ofNat_le.2 hfew).trans_lt counted.2⟩
        rw [← PageRequest.effectiveOffset_atStart hlimit] at offset
        have hsame : Page.inMemory rows q' = Page.inMemory rows q.atStart :=
          inMemory_congr rows limit offset
        rw [← pageLookups_atStart hlimit, hatStart, ← hsame]
        rfl
  refine ⟨hpage, fun searchable => ?_, fun near => ?_⟩
  · rw [hpage, s.listLookups_eq k searchable]
    exact ⟨_, rfl⟩
  · rw [hpage, ne_eq, map_eq_error_iff]
    exact listLookups_ne_outOfRange near

/-- Without a usable limit, the default limit cuts the genres with the letter a into two windows, and
an offset amid the second one has the page from its first row on.  The page far behind the end has
no rows. -/
theorem pageLookups_refines_inMemory_amid_window :
    let genre : Kind := .attached .genre
    let steps : List (Date × Operation) :=
      ["a", "b", "ab", "ca"].map fun name => (.epoch, .enrol genre { name := name })
    let s := seeded.after steps
    let f : LookupFilter := { name? := some "a" }
    let amid : PageRequest := { limit? := some (-1), offset? := some 3, defaultLimit := 2 }
    let first : PageRequest := { limit? := some 2, offset? := some 2 }
    let far : PageRequest := { offset? := some (2 ^ 70), defaultLimit := 2 }
    1 ≤ amid.defaultLimit ∧ amid.effectiveLimit < 0x8000000000000000 ∧
      Number.InRange (s.lookupRows genre).length ∧
      first.effectiveLimit = amid.effectiveLimit ∧
      first.effectiveOffset
        = amid.effectiveOffset.fdiv amid.effectiveLimit * amid.effectiveLimit ∧
      s.pageLookups genre f amid
        = .ok ⟨3, none, some ⟨2, 0⟩, [⟨4, ⟨"ca", "", false⟩⟩]⟩ ∧
      s.pageLookups genre f far = .ok ⟨3, none, some ⟨2, 2 ^ 70 - 2⟩, []⟩ := by
  intro genre steps s f amid first far
  have counted : Number.InRange (s.lookupRows genre).length := by decide
  have limit : first.effectiveLimit = amid.effectiveLimit := by decide
  have offset : first.effectiveOffset
      = amid.effectiveOffset.fdiv amid.effectiveLimit * amid.effectiveLimit := by decide
  obtain ⟨hamid, _⟩ := pageLookups_refines_inMemory s genre f (by decide) (by decide) counted
    limit offset
  obtain ⟨hfar, _⟩ := pageLookups_refines_inMemory s genre f (q := far) (by decide) (by decide)
    counted rfl (by decide : far.effectiveOffset = _)
  have hlist : s.listLookups genre f
      = .ok [⟨1, ⟨"a", "", false⟩⟩, ⟨3, ⟨"ab", "", false⟩⟩, ⟨4, ⟨"ca", "", false⟩⟩] := by
    decide
  rw [hlist] at hamid hfar
  exact ⟨by decide, by decide, counted, limit, offset, hamid, hfar⟩

end Store
end CardCatalog
