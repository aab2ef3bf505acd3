import CardCatalog.Proofs.Listings
import CardCatalog.Proofs.Room
import Mathlib.Data.List.Nodup

/-!
# Walks while rows are added

A walk through the pages of reference rows takes a while, and rows may be enrolled meanwhile.  New
rows stand behind all others, so the rows that a filter accepts grow at their end only; a page that
was answered stays where it is, and what is added comes on later pages.

Results: a walk among insertions gives the rows in the order of their ids, each of them once, and
leaves out none that was there when it began; and there is such a walk if the filter can be searched
with (`walks_among_insertions`).  A row with a long name is on no page of a search for that name
(`long_name_never_walked`).
-/

namespace CardCatalog

open Calendar (Date)
open Text (Wide)

/-- Whether an operation adds rows or a record, and changes nothing that is there. -/
def Operation.isInsertion : Operation → Bool
  | .enrol .. | .createRecord .. | .submit .. => true
  | _ => false

/-- Whether all operations of a run are insertions. -/
def AreInsertions (steps : List (Date × Operation)) : Prop :=
  ∀ step ∈ steps, step.2.isInsertion = true

instance (steps : List (Date × Operation)) : Decidable (AreInsertions steps) :=
  inferInstanceAs (Decidable (∀ step ∈ steps, step.2.isInsertion = true))

namespace AreInsertions

variable {between : List (List (Date × Operation))}
variable (h : ∀ steps ∈ between, AreInsertions steps)

include h

theorem flatten :
    AreInsertions between.flatten := by
  intro step hstep
  obtain ⟨steps, hsteps, hstep⟩ := List.mem_flatten.1 hstep
  exact h steps hsteps step hstep

theorem headD :
    AreInsertions (between.headD []) := by
  cases between with
  | nil => exact List.forall_mem_nil _
  | cons steps between => exact h steps (List.mem_cons_self ..)

theorem tail :
    ∀ steps ∈ between.tail, AreInsertions steps :=
  fun steps hsteps => h steps (List.mem_of_mem_tail hsteps)

end AreInsertions

namespace Store

section Growth

variable {s : Store} {k : Kind}

theorem rows_prefix_enrolAll
    (t : Table Int (NaturalKey String)) (keys : List (NaturalKey String)) :
    t.rows <+: (t.enrolAll keys).rows := by
  obtain ⟨new, hrows, _⟩ := t.rows_enrolAll keys
  exact ⟨new, hrows.symm⟩

/-- An insertion adds reference rows behind the others. -/
theorem rows_prefix_store
    {op : Operation}
    (insertion : op.isInsertion = true) (today : Date) (s : Store) (k : Kind) :
    (s.keys k).rows <+: (((op.run today).store s).keys k).rows := by
  refine Action.store_cases (op.run today) s (fun _ _ hrun => ?_) fun _ _ => List.prefix_rfl
  cases ran_of_run hrun with
  | read => exact List.prefix_rfl
  | @enrol k' _ c _ =>
      rw [enrol_eq, keys_setKeys]
      split
      · rename_i hk
        subst hk
        exact rows_prefix_enrolAll (s.keys k) [c.key]
      · exact List.prefix_rfl
  | createRecord _ created =>
      have hkeys := keys_of_createRecord created k
      exact hkeys.symm ▸ List.prefix_rfl
  | submit _ submitted =>
      rcases enrolled_of_submit submitted with rfl | ⟨direct, attached, _, _, hkeys⟩
      · exact List.prefix_rfl
      · rw [hkeys]
        exact rows_prefix_enrolAll _ _
  | amend | remove | reviseRecord | addLinks | deleteRecord | resubmit => cases insertion

theorem rows_prefix_after
    {steps : List (Date × Operation)}
    (insertions : AreInsertions steps) (s : Store) (k : Kind) :
    (s.keys k).rows <+: ((s.after steps).keys k).rows := by
  induction steps generalizing s with
  | nil => exact List.prefix_rfl
  | cons step steps ih =>
      obtain ⟨hstep, hsteps⟩ := List.forall_mem_cons.1 insertions
      exact (rows_prefix_store hstep step.1 s k).trans (ih hsteps _)

/-- The reference rows that a filter accepts, by their ids. -/
def acceptedLookups (s : Store) (k : Kind) (f : LookupFilter) : List Lookup :=
  (s.lookupRows k).filter f.accepts

/-- Insertions add accepted rows behind the others. -/
theorem acceptedLookups_prefix_after
    {steps : List (Date × Operation)}
    (insertions : AreInsertions steps) (s : Store) (k : Kind) (f : LookupFilter) :
    s.acceptedLookups k f <+: (s.after steps).acceptedLookups k f :=
  ((rows_prefix_after insertions s k).map _).filter _

/-- The ids of accepted rows ascend. -/
theorem pairwise_id_acceptedLookups (s : Store) (k : Kind) (f : LookupFilter) :
    (s.acceptedLookups k f).Pairwise fun a b => a.id < b.id :=
  (s.ascending_lookupRows k).filter _

end Growth

section Pages

variable {s : Store} {k : Kind} {f : LookupFilter} {limit index : Nat} {defaultLimit : Int}

/-- A page that is answered is cut out of the rows that the filter accepts. -/
theorem page_of_pageLookups
    {page : Page Lookup}
    (positive : 1 ≤ limit)
    (h : s.pageLookups k f (.ofIndex limit index defaultLimit) = .ok page) :
    page = (PageRequest.ofIndex limit index defaultLimit).pageOf (s.acceptedLookups k f).length
      (((s.acceptedLookups k f).drop (index * limit)).take limit) := by
  have hlimit := PageRequest.effectiveLimit_ofIndex index defaultLimit positive
  have hoffset := PageRequest.effectiveOffset_ofIndex limit index defaultLimit
  unfold pageLookups at h
  cases hlist : s.listLookups k f with
  | error fault =>
      rw [hlist] at h
      obtain ⟨_, _, h⟩ := bind_eq_ok_iff.1 h
      obtain ⟨_, h, _⟩ := bind_eq_ok_iff.1 h
      cases h
  | ok rows =>
      cases eq_of_listLookups hlist
      rw [hlist] at h
      have haligned : (PageRequest.ofIndex limit index defaultLimit).effectiveLimit
          ∣ (PageRequest.ofIndex limit index defaultLimit).effectiveOffset := by
        rw [hlimit, hoffset]
        exact Int.natCast_dvd_natCast.2 (Nat.dvd_mul_left limit index)
      have hpage : page = (PageRequest.ofIndex limit index defaultLimit).pageOf
          (s.acceptedLookups k f).length
          ((PageRequest.ofIndex limit index defaultLimit).cut (s.acceptedLookups k f)) := by
        refine page_of_query (by omega) haligned (fun rows hrows => ?_) h
        obtain ⟨_, _, hrows⟩ := bind_eq_ok_iff.1 hrows
        cases hrows
        rw [fetched, if_neg (by omega)]
        rfl
      rw [hpage, PageRequest.cut, hlimit, hoffset, Int.toNat_natCast, Int.toNat_natCast]

/-- The link to the page of an index. -/
def linkTo (limit index : Nat) : PageLink :=
  ⟨limit, (index * limit : Nat)⟩

/-- The next page of a listing is that of the next index, if there are rows on it. -/
theorem next?_pageOf_ofIndex
    (positive : 1 ≤ limit) (total : Nat) (results : List Lookup) :
    ((PageRequest.ofIndex limit index defaultLimit).pageOf total results).next?
      = if (index + 1) * limit < total then some (linkTo limit (index + 1)) else none := by
  unfold PageRequest.pageOf linkTo
  dsimp only
  rw [PageRequest.effectiveLimit_ofIndex index defaultLimit positive,
    PageRequest.effectiveOffset_ofIndex]
  have hfurther : ((index * limit : Nat) : Int) + limit = ((index + 1) * limit : Nat) := by
    rw [Nat.succ_mul]
    rfl
  rw [hfurther]
  by_cases hnext : (index + 1) * limit < total
  · rw [if_pos hnext, if_pos (Int.ofNat_lt.2 hnext)]
  · rw [if_neg hnext, if_neg (fun h => hnext (Int.ofNat_lt.1 h))]

end Pages

section Walks

/-- A walk through the pages of reference rows, from a link on: the store that its last page is
answered from, and the rows on the way.  It ends with a page that has no next one; else the
operations are run that come between the pages, as long as there are any, and it goes on with the
next page. -/
inductive WalksAmong (k : Kind) (f : LookupFilter) (defaultLimit : Int) :
    Store → PageLink → List (List (Date × Operation)) → Store → List Lookup → Prop
  | last {s : Store} {link : PageLink} {between : List (List (Date × Operation))}
      {page : Page Lookup}
      (answered : s.pageLookups k f (link.request defaultLimit) = .ok page)
      (ended : page.next? = none) :
      WalksAmong k f defaultLimit s link between s page.results
  | next {s t : Store} {link further : PageLink} {between : List (List (Date × Operation))}
      {page : Page Lookup} {rest : List Lookup}
      (answered : s.pageLookups k f (link.request defaultLimit) = .ok page)
      (follows : page.next? = some further)
      (walk : WalksAmong k f defaultLimit (s.after (between.headD [])) further between.tail t rest) :
      WalksAmong k f defaultLimit s link between t (page.results ++ rest)

variable {s t : Store} {k : Kind} {f : LookupFilter} {limit index : Nat} {defaultLimit : Int}
variable {between : List (List (Date × Operation))} {link : PageLink} {rows : List Lookup}

/-- The rows that are accepted where a walk begins stand in front of those where it ends. -/
theorem WalksAmong.acceptedLookups_prefix
    (h : WalksAmong k f defaultLimit s link between t rows)
    (insertions : ∀ steps ∈ between, AreInsertions steps) :
    s.acceptedLookups k f <+: t.acceptedLookups k f := by
  induction h with
  | last => exact List.prefix_rfl
  | @next s t _ _ between _ _ _ _ _ ih =>
      exact (acceptedLookups_prefix_after (.headD insertions) s k f).trans
        (ih (AreInsertions.tail insertions))

/-- A walk that begins at a page gives what the filter accepts where it ends, from that page on. -/
theorem WalksAmong.rows_eq
    (h : WalksAmong k f defaultLimit s link between t rows)
    (positive : 1 ≤ limit)
    (insertions : ∀ steps ∈ between, AreInsertions steps)
    (at_page : link = linkTo limit index) :
    rows = (t.acceptedLookups k f).drop (index * limit) := by
  induction h generalizing index with
  | last answered ended =>
      subst at_page
      cases page_of_pageLookups positive answered
      rw [next?_pageOf_ofIndex positive] at ended
      refine List.take_of_length_le ?_
      split at ended
      · cases ended
      · rename_i hend
        rw [Nat.succ_mul] at hend
        rw [List.length_drop]
        omega
  | @next s t _ _ between _ rest answered follows walk ih =>
      subst at_page
      cases page_of_pageLookups positive answered
      rw [next?_pageOf_ofIndex positive] at follows
      have hnext : (index + 1) * limit < (s.acceptedLookups k f).length := by
        by_contra hend
        rw [if_neg hend] at follows
        cases follows
      rw [if_pos hnext] at follows
      have hrest := ih (AreInsertions.tail insertions) (Option.some.inj follows).symm
      -- the rows of the page stand where they stood
      obtain ⟨new, hnew⟩ := (acceptedLookups_prefix_after (.headD insertions) s k f).trans
        (walk.acceptedLookups_prefix (AreInsertions.tail insertions))
      rw [hrest, ← hnew, Nat.succ_mul, ← List.drop_drop]
      have hpage : ((s.acceptedLookups k f).drop (index * limit)).take limit
          = ((s.acceptedLookups k f ++ new).drop (index * limit)).take limit := by
        rw [Nat.succ_mul] at hnext
        rw [List.drop_append_of_le_length (by omega), List.take_append_of_le_length]
        rw [List.length_drop]
        omega
      show List.take _ _ ++ _ = _
      rw [hpage, List.take_append_drop]

/-- All runs are the one up to the next page, and those behind it. -/
theorem after_headD_tail (s : Store) (between : List (List (Date × Operation))) :
    (s.after (between.headD [])).after between.tail.flatten = s.after between.flatten := by
  rw [← after_append]
  cases between <;> simp

/-- If a filter can be searched with, a walk from any page on comes to an end, and every page of it is
answered. -/
theorem exists_walksAmong
    (positive : 1 ≤ limit) (range : Number.InRange limit)
    (searchable : f.IsSearchable)
    (insertions : ∀ steps ∈ between, AreInsertions steps)
    (few : Number.InRange ((s.after between.flatten).acceptedLookups k f).length) :
    ∃ t rows, WalksAmong k f defaultLimit s (linkTo limit index) between t rows := by
  -- every page leaves fewer of the rows to go that there are in the end
  induction hrest : ((s.after between.flatten).acceptedLookups k f).length - index * limit
    using Nat.strongRecOn generalizing s between index with
  | ind rest ih =>
      have hgrown := (acceptedLookups_prefix_after (.flatten insertions) s k f).length_le
      have hregular := PageRequest.IsRegular.of_natural
        (PageRequest.effectiveLimit_ofIndex index defaultLimit positive)
        (PageRequest.effectiveOffset_ofIndex limit index defaultLimit)
        positive range (Nat.dvd_mul_left limit index)
      have hpage := pageLookups_eq (s.listLookups_eq k searchable) hregular
        ⟨by omega, (Int.ofNat_le.2 hgrown).trans_lt few.2⟩
      by_cases hnext : (index + 1) * limit < (s.acceptedLookups k f).length
      · have hfinal := s.after_headD_tail between
        have hless : (index + 1) * limit = index * limit + limit := Nat.succ_mul index limit
        obtain ⟨t, rows, walk⟩ := ih
          (((s.after between.flatten).acceptedLookups k f).length - (index + 1) * limit) (by omega)
          (AreInsertions.tail insertions) (by rw [hfinal]; exact few) (by rw [hfinal])
        refine ⟨t, _, .next hpage ?_ walk⟩
        rw [next?_pageOf_ofIndex positive]
        exact if_pos hnext
      · refine ⟨s, _, .last hpage ?_⟩
        rw [next?_pageOf_ofIndex positive]
        exact if_neg hnext

/-- While operations only add rows and records, a walk through the pages of what a filter accepts
gives what it accepts when the last page is answered: the ids ascend, and every row that was
accepted at the beginning is there once.  If the filter can be searched with, there is such a walk,
as long as there are no more rows than the stored range has places. -/
theorem walks_among_insertions
    (s : Store) (k : Kind) (f : LookupFilter) (defaultLimit : Int)
    {limit : Nat} {between : List (List (Date × Operation))}
    (positive : 1 ≤ limit) (range : Number.InRange limit)
    (insertions : ∀ steps ∈ between, AreInsertions steps) :
    (∀ t rows, WalksAmong k f defaultLimit s ⟨limit, 0⟩ between t rows →
      rows = t.acceptedLookups k f ∧
        rows.Pairwise (fun a b => a.id < b.id) ∧
        ∀ row ∈ s.acceptedLookups k f, rows.count row = 1) ∧
    (f.IsSearchable → Number.InRange ((s.after between.flatten).acceptedLookups k f).length →
      ∃ t rows, WalksAmong k f defaultLimit s ⟨limit, 0⟩ between t rows) := by
  have hfirst : PageLink.mk limit 0 = linkTo limit 0 := by
    rw [linkTo, Nat.zero_mul]
    rfl
  rw [hfirst]
  refine ⟨fun t rows walk => ?_, fun searchable few =>
    exists_walksAmong positive range searchable insertions few⟩
  have hrows := walk.rows_eq positive insertions rfl
  rw [Nat.zero_mul, List.drop_zero] at hrows
  have hascending : rows.Pairwise fun a b => a.id < b.id := by
    rw [hrows]
    exact pairwise_id_acceptedLookups t k f
  refine ⟨hrows, hascending, fun row hrow => ?_⟩
  have hnodup : rows.Nodup := hascending.imp fun hlt heq => by
    rw [heq] at hlt
    exact Int.lt_irrefl _ hlt
  refine List.count_eq_one_of_mem hnodup ?_
  rw [hrows]
  exact (walk.acceptedLookups_prefix insertions).subset hrow

/-- The genres with the letter a are walked through one by one, while another one is enrolled, and
a record is submitted that has a further one. -/
theorem genres_walked_among_insertions :
    let genre := Kind.attached .genre
    let named (name : String) : Operation := .enrol genre { name := Wide.ofText name }
    let s := seeded.after [(.epoch, named "b"), (.epoch, named "a")]
    let between :=
      [ [(Date.epoch, named "ab")],
        [(.epoch, .submit "x" { attached := ⟨[{ row := { name := "ba" } }], []⟩ })] ]
    let f : LookupFilter := { name? := some "a" }
    1 ≤ 1 ∧ Number.InRange (1 : Nat) ∧ (∀ steps ∈ between, AreInsertions steps) ∧
      f.IsSearchable ∧ Number.InRange ((s.after between.flatten).acceptedLookups genre f).length ∧
      ∃ t rows, WalksAmong genre f 20 s ⟨1, 0⟩ between t rows ∧ rows = t.acceptedLookups genre f ∧
        rows.Pairwise (fun a b => a.id < b.id) ∧ rows.count ⟨2, ⟨"a", "", false⟩⟩ = 1 := by
  intro genre named s between f
  have hrange : Number.InRange (1 : Nat) := by decide
  have hinsertions : ∀ steps ∈ between, AreInsertions steps := by decide
  have hfew : Number.InRange ((s.after between.flatten).acceptedLookups genre f).length := by decide
  obtain ⟨hwalks, hsome⟩ :=
    walks_among_insertions s genre f 20 (Nat.le_refl 1) hrange hinsertions
  obtain ⟨t, rows, walk⟩ := hsome isSearchable_a hfew
  obtain ⟨hrows, hascending, hcount⟩ := hwalks t rows walk
  exact ⟨Nat.le_refl 1, hrange, hinsertions, isSearchable_a, hfew, t, rows, walk, hrows, hascending,
    hcount _ (by decide)⟩

/-- There is no walk through the pages of a listing that stops. -/
theorem not_walksAmong_of_error
    {fault : Fault}
    (positive : 1 ≤ link.limit)
    (stopped : s.listLookups k f = .error fault) :
    ¬ WalksAmong k f defaultLimit s link between t rows := by
  have hpage : s.pageLookups k f (link.request defaultLimit) = .error fault := by
    have hlimit : (link.request defaultLimit).effectiveLimit = link.limit := by
      have hpos : ¬ link.limit ≤ 0 := by omega
      simp only [PageLink.request, PageRequest.effectiveLimit, hpos, if_false]
    unfold pageLookups Page.query PageRequest.window
    dsimp only
    rw [hlimit, if_neg (by omega), ok_bind_eq, stopped]
    rfl
  intro walk
  cases walk with
  | last answered => cases hpage.symm.trans answered
  | next answered => cases hpage.symm.trans answered

theorem lookupRows_after_enrol_genre (name : String) :
    (seeded.after [(.epoch, .enrol (.attached .genre) { name := Wide.ofText name })]).lookupRows
        (.attached .genre)
      = [⟨1, ⟨name, "", false⟩⟩] := by
  have hrun : Operation.run .epoch (.enrol (.attached .genre) { name := Wide.ofText name }) seeded
      = .ok (.lookupId (seeded.enrol (.attached .genre) { name := name }).1,
          (seeded.enrol (.attached .genre) { name := name }).2) := by
    show Except.map _ (Candidate.toStorable { name := Wide.ofText name }) = _
    unfold Candidate.toStorable
    dsimp only
    rw [Wide.toStorable_ofText]
    rfl
  show ((Operation.run .epoch (.enrol (.attached .genre) { name := Wide.ofText name })).store
    seeded).lookupRows _ = _
  rw [Action.store_of_ok hrun]
  rfl

/-- A genre with a long name is accepted by a filter that asks for this name, but no walk gives it:
its pattern is too long.  Nor is there a walk for an id beyond the stored range, or for a part that
is no text. -/
theorem long_name_never_walked :
    let genre := Kind.attached .genre
    let name := String.ofList (List.replicate 49999 'a')
    let s := seeded.after [(.epoch, .enrol genre { name := Wide.ofText name })]
    (⟨1, ⟨name, "", false⟩⟩ ∈ s.acceptedLookups genre { name? := some (Wide.ofText name) } ∧
      ∀ between t rows,
        ¬ WalksAmong genre { name? := some (Wide.ofText name) } 20 s ⟨1, 0⟩ between t rows) ∧
      (∀ between t rows,
        ¬ WalksAmong genre { id? := some 0x8000000000000000 } 20 s ⟨1, 0⟩ between t rows) ∧
      ∀ between t rows,
        ¬ WalksAmong genre { name? := some ⟨[.half 0]⟩ } 20 s ⟨1, 0⟩ between t rows := by
  intro genre name s
  have hrows : s.lookupRows genre = [⟨1, ⟨name, "", false⟩⟩] := lookupRows_after_enrol_genre name
  have hlong : longestPattern < name.utf8ByteSize + 2 := by
    rw [utf8ByteSize_replicate]
    decide
  have hlist : s.listLookups genre { name? := some (Wide.ofText name) } = .error .longPattern :=
    s.listLookups_eq_error_of_long (isBlank_replicate _) (partPattern_replicate _) hlong genre
      (by rw [hrows]; exact List.cons_ne_nil _ _)
  -- these two stop in every store
  have hfar (t : Store) :
      t.listLookups genre { id? := some 0x8000000000000000 } = .error .outOfRange := rfl
  have hhalf (t : Store) :
      t.listLookups genre { name? := some ⟨[.half 0]⟩ } = .error (.unstorable ⟨[.half 0]⟩) := rfl
  refine ⟨⟨?_, fun _ _ _ => not_walksAmong_of_error (by decide) hlist⟩,
    fun _ _ _ => not_walksAmong_of_error (by decide) (hfar s),
    fun _ _ _ => not_walksAmong_of_error (by decide) (hhalf s)⟩
  refine List.mem_filter.2 ⟨by rw [hrows]; exact List.mem_singleton.2 rfl, ?_⟩
  show (true && meetsPart (some (Wide.ofText name)) name && true) = true
  rw [meetsPart_self]
  rfl

end Walks
end Store
end CardCatalog
