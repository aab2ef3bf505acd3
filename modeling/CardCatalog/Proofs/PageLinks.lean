import CardCatalog.Proofs.Listings

/-!
# Links between pages

A page tells how its neighbours are asked for, in fragments with a limit and an offset.  A list that
is at hand has pages that start at any offset, and its last link back is cut short so that it leads
to the first element.  Windows start at multiples of the limit, and an offset amid a window has the
page of the window.  Apart from where a page starts, the two ways of paging make the same pages and
links, so following links is the same walk in both: onward the rest of the list becomes shorter, and
backward what lies before the page does.

Results: what a fragment encodes (`encodes_toText_iff`), the pages of both ways (`Paging.page_eq`),
and where their links lead (`Paging.links_followed`).
-/

namespace CardCatalog

/-- Whether a fragment asks for a limit and an offset, and for nothing else. -/
def Encodes (fragment : String) (limit offset : Nat) : Prop :=
  ∃ fields, fragment = "?" ++ fields ∧
    Http.queryFields fields
      = [("limit", toString (limit : Int)), ("offset", toString (offset : Int))]

/-- A natural number is told by its digits. -/
theorem toString_natCast_inj {m n : Nat} :
    toString (m : Int) = toString (n : Int) ↔ m = n := by
  constructor
  · intro h
    have hdigits := congrArg String.toList h
    rw [toList_toString, toList_toString] at hdigits
    rw [← ofDigits_toDigits m, hdigits, ofDigits_toDigits]
  · rintro rfl
    rfl

/-- A fragment encodes one limit and one offset. -/
theorem Encodes.eq
    {fragment : String} {limit offset limit' offset' : Nat}
    (h : Encodes fragment limit offset)
    (h' : Encodes fragment limit' offset') :
    limit' = limit ∧ offset' = offset := by
  obtain ⟨fields, rfl, hfields⟩ := h
  obtain ⟨fields', heq, hfields'⟩ := h'
  cases (String.append_right_inj "?").1 heq
  rw [hfields] at hfields'
  simp only [List.cons.injEq, Prod.mk.injEq, toString_natCast_inj, true_and, and_true]
    at hfields'
  exact ⟨hfields'.1.symm, hfields'.2.symm⟩

/-- The text of a link encodes its limit and its offset. -/
theorem encodes_toText_iff
    {limit offset limit' offset' : Nat} :
    Encodes (PageLink.mk limit offset).toText limit' offset' ↔
      limit' = limit ∧ offset' = offset := by
  have hself : Encodes (PageLink.mk limit offset).toText limit offset :=
    ⟨_, Http.toText_eq _, Http.queryFields_pageFields limit offset⟩
  constructor
  · exact hself.eq
  · rintro ⟨rfl, rfl⟩
    exact hself

/-- The ways in which a list is cut into pages. -/
inductive Paging where
  /-- Pages start at the offset. -/
  | inMemory
  /-- Pages are windows, and start at multiples of the limit. -/
  | byWindows
  deriving DecidableEq

namespace Paging

section Pages

variable {α : Type}

/-- The page of a list for a limit and an offset. -/
def page (m : Paging) (xs : List α) (defaultLimit : Int) (limit offset : Nat) :
    Except Fault (Page α) :=
  let q := (PageLink.mk limit offset).request defaultLimit
  match m with
  | inMemory => .ok (Page.inMemory xs q)
  | byWindows =>
    Page.query q (.ok xs.length) fun offset limit => .ok (slice offset (offset + limit) xs)

/-- Where the page for a limit and an offset starts. -/
def start (m : Paging) (limit offset : Nat) : Nat :=
  match m with
  | inMemory => offset
  | byWindows => offset / limit * limit

/-- The page that starts at a place of a list. -/
def pageFrom (xs : List α) (limit place : Nat) : Page α where
  count := xs.length
  next? :=
    if place + limit < xs.length then some ⟨limit, (place + limit : Nat)⟩ else none
  previous? := if 0 < place then some ⟨limit, (place - limit : Nat)⟩ else none
  results := (xs.drop place).take limit

theorem pageOf_eq_pageFrom
    (xs : List α) {q : PageRequest} {limit place : Nat}
    (hlimit : q.effectiveLimit = limit) (hoffset : q.effectiveOffset = place) :
    q.pageOf xs.length (q.cut xs) = pageFrom xs limit place := by
  have hback : max 0 ((place : Int) - limit) = (place - limit : Nat) := by omega
  unfold PageRequest.pageOf PageRequest.cut pageFrom
  simp only [hlimit, hoffset, hback, Int.toNat_natCast, ← Int.natCast_add, Int.ofNat_lt,
    Int.natCast_pos]

/-- Both ways of paging make the same pages, apart from where they start. -/
theorem page_eq
    (m : Paging) (xs : List α) (defaultLimit : Int) {limit : Nat} (offset : Nat)
    (positive : 1 ≤ limit) :
    m.page xs defaultLimit limit offset = .ok (pageFrom xs limit (m.start limit offset)) := by
  generalize hq : (PageLink.mk limit offset).request defaultLimit = q
  have hlimit : q.effectiveLimit = limit := by
    rw [← hq]
    exact PageRequest.effectiveLimit_natural _ _ positive
  have hoffset : q.effectiveOffset = offset := by
    rw [← hq]
    exact PageRequest.effectiveOffset_natural (some (limit : Int)) (some offset) defaultLimit
  have hpositive : 1 ≤ q.effectiveLimit := by omega
  unfold page
  rw [hq]
  cases m with
  | inMemory =>
      show Except.ok (Page.inMemory xs q) = _
      rw [inMemory_eq xs hpositive, pageOf_eq_pageFrom xs hlimit hoffset]
      rfl
  | byWindows =>
      have hstart : q.atStart.effectiveOffset = (offset / limit * limit : Nat) := by
        rw [PageRequest.effectiveOffset_atStart hpositive, hlimit, hoffset,
          Int.fdiv_eq_ediv_of_nonneg _ (by omega)]
        rfl
      have hpositive' : 1 ≤ q.atStart.effectiveLimit := hpositive
      show Page.query q _ _ = _
      rw [query_slice_eq xs hpositive, inMemory_eq xs hpositive',
        pageOf_eq_pageFrom (q := q.atStart) xs hlimit hstart]
      rfl

@[simp] theorem start_zero (m : Paging) (limit : Nat) : m.start limit 0 = 0 := by
  cases m <;> simp [start]

/-- The page behind a page starts where the link to it leads. -/
theorem start_start_add
    (m : Paging) {limit : Nat} (offset : Nat)
    (positive : 1 ≤ limit) :
    m.start limit (m.start limit offset + limit) = m.start limit offset + limit := by
  cases m with
  | inMemory => rfl
  | byWindows =>
      unfold start
      dsimp only
      rw [Nat.add_div_right _ positive, Nat.mul_div_cancel _ positive, Nat.succ_mul]

/-- The page before a page starts where the link to it leads. -/
theorem start_start_sub
    (m : Paging) {limit : Nat} (offset : Nat)
    (positive : 1 ≤ limit) :
    m.start limit (m.start limit offset - limit) = m.start limit offset - limit := by
  cases m with
  | inMemory => rfl
  | byWindows =>
      have hback : offset / limit * limit - limit = (offset / limit - 1) * limit := by
        rw [Nat.sub_mul, Nat.one_mul]
      unfold start
      dsimp only
      rw [hback, Nat.mul_div_cancel _ positive]

end Pages

section Links

variable {α : Type}

/-- The pages that are met if a link of each one is followed until there is none. -/
inductive Follows
    (m : Paging) (xs : List α) (defaultLimit : Int) (link? : Page α → Option PageLink) :
    Nat → Nat → List (Page α) → Prop
  | last {limit offset : Nat} {p : Page α}
      (answered : m.page xs defaultLimit limit offset = .ok p)
      (ends : link? p = none) :
      Follows m xs defaultLimit link? limit offset [p]
  | onward {limit offset limit' offset' : Nat} {p : Page α} {link : PageLink}
      {rest : List (Page α)}
      (answered : m.page xs defaultLimit limit offset = .ok p)
      (linked : link? p = some link)
      (encoded : Encodes link.toText limit' offset')
      (further : Follows m xs defaultLimit link? limit' offset' rest) :
      Follows m xs defaultLimit link? limit offset (p :: rest)

variable {m : Paging} {xs : List α} {defaultLimit : Int} {limit : Nat}

/-- The pages that are met are told by where one begins. -/
theorem Follows.eq
    {link? : Page α → Option PageLink} {offset : Nat} {pages pages' : List (Page α)}
    (h : m.Follows xs defaultLimit link? limit offset pages)
    (h' : m.Follows xs defaultLimit link? limit offset pages') :
    pages' = pages := by
  induction h generalizing pages' with
  | last answered ends =>
      cases h' with
      | last answered' _ =>
          cases answered.symm.trans answered'
          rfl
      | onward answered' linked' _ _ =>
          cases answered.symm.trans answered'
          cases ends.symm.trans linked'
  | onward answered linked encoded _ ih =>
      cases h' with
      | last answered' ends' =>
          cases answered.symm.trans answered'
          cases linked.symm.trans ends'
      | onward answered' linked' encoded' further' =>
          cases answered.symm.trans answered'
          cases linked.symm.trans linked'
          obtain ⟨rfl, rfl⟩ := encoded.eq encoded'
          rw [ih further']

/-- The links to the next pages lead through all elements from the first page on. -/
theorem exists_follows_next
    (m : Paging) (xs : List α) (defaultLimit : Int) (offset : Nat)
    (positive : 1 ≤ limit) :
    ∃ pages,
      m.Follows xs defaultLimit Page.next? limit offset pages ∧
        pages.flatMap Page.results = xs.drop (m.start limit offset) := by
  -- every page leaves fewer elements to go
  induction hrest : xs.length - m.start limit offset using Nat.strongRecOn
    generalizing offset with
  | ind rest ih =>
      have hpage := m.page_eq xs defaultLimit offset positive
      by_cases hnext : m.start limit offset + limit < xs.length
      · have hstart := m.start_start_add offset positive
        obtain ⟨pages, hfollows, hresults⟩ := ih _ (by omega) (m.start limit offset + limit) rfl
        refine ⟨_, .onward hpage (if_pos hnext) (encodes_toText_iff.2 ⟨rfl, rfl⟩) hfollows, ?_⟩
        rw [List.flatMap_cons, hresults, hstart, ← List.drop_drop]
        exact List.take_append_drop limit _
      · refine ⟨_, .last hpage (if_neg hnext), ?_⟩
        rw [List.flatMap_singleton]
        exact List.take_of_length_le (by rw [List.length_drop]; omega)

/-- The links to the previous pages lead to the page that starts the list. -/
theorem exists_follows_previous
    (m : Paging) (xs : List α) (defaultLimit : Int) (offset : Nat)
    (positive : 1 ≤ limit) :
    ∃ pages,
      m.Follows xs defaultLimit Page.previous? limit offset pages ∧
        pages.getLast? = some (pageFrom xs limit 0) := by
  -- every page has fewer elements before it
  induction hbefore : m.start limit offset using Nat.strongRecOn generalizing offset with
  | ind before ih =>
      have hpage := m.page_eq xs defaultLimit offset positive
      rw [hbefore] at hpage
      by_cases hprevious : 0 < before
      · have hstart := m.start_start_sub offset positive
        rw [hbefore] at hstart
        obtain ⟨pages, hfollows, hlast⟩ := ih (before - limit) (by omega) _ hstart
        refine ⟨_, .onward hpage (if_pos hprevious) (encodes_toText_iff.2 ⟨rfl, rfl⟩) hfollows, ?_⟩
        rw [List.getLast?_cons, hlast]
        rfl
      · refine ⟨_, .last hpage (if_neg hprevious), ?_⟩
        rw [Nat.eq_zero_of_not_pos hprevious]
        rfl

/-- From any offset on, even behind the end, the links of the pages lead through the list.  Those to
the next pages come to an end, and the pages together have every element from the first page on, once
and in order.  A page that they lead to has a link back to where the page before it starts.  Those
to the previous pages come to an end at the page of the offset zero, which has none. -/
theorem links_followed
    (m : Paging) (xs : List α) (defaultLimit : Int) (offset : Nat)
    (positive : 1 ≤ limit) :
    (∃ pages,
      m.Follows xs defaultLimit Page.next? limit offset pages ∧
        (∀ pages', m.Follows xs defaultLimit Page.next? limit offset pages' → pages' = pages) ∧
        pages.flatMap Page.results = xs.drop (m.start limit offset) ∧
        (offset = 0 → pages.flatMap Page.results = xs)) ∧
      (∀ p link limit' offset',
        m.page xs defaultLimit limit offset = .ok p → p.next? = some link →
        Encodes link.toText limit' offset' →
          ∃ p' back,
            m.page xs defaultLimit limit' offset' = .ok p' ∧ p'.previous? = some back ∧
              ∀ l o, Encodes back.toText l o ↔ l = limit ∧ o = m.start limit offset) ∧
      ∃ pages last,
        m.Follows xs defaultLimit Page.previous? limit offset pages ∧
          (∀ pages', m.Follows xs defaultLimit Page.previous? limit offset pages' →
            pages' = pages) ∧
          pages.getLast? = some last ∧ m.page xs defaultLimit limit 0 = .ok last ∧
          last.previous? = none := by
  refine ⟨?_, ?_, ?_⟩
  · obtain ⟨pages, hfollows, hresults⟩ :=
      exists_follows_next m xs defaultLimit offset positive
    refine ⟨pages, hfollows, fun _ => hfollows.eq, hresults, ?_⟩
    rintro rfl
    rw [hresults, start_zero, List.drop_zero]
  · intro p link limit' offset' answered linked encoded
    rw [m.page_eq xs defaultLimit offset positive] at answered
    cases answered
    obtain ⟨_, hlink⟩ := Option.ite_none_right_eq_some.1 linked
    cases hlink
    obtain ⟨rfl, rfl⟩ := encodes_toText_iff.1 encoded
    have hpage := m.page_eq xs defaultLimit (m.start limit' offset + limit') positive
    rw [m.start_start_add offset positive] at hpage
    refine ⟨_, _, hpage, if_pos (by omega), fun l o => ?_⟩
    rw [Nat.add_sub_cancel]
    exact encodes_toText_iff
  · obtain ⟨pages, hfollows, hlast⟩ :=
      exists_follows_previous m xs defaultLimit offset positive
    have hfirst := m.page_eq xs defaultLimit 0 positive
    rw [start_zero] at hfirst
    exact ⟨pages, _, hfollows, fun _ => hfollows.eq, hlast, hfirst, rfl⟩

/-- Five letters are met by twos from the offset three on, and from the window of this offset on; and
back from behind the end. -/
theorem links_followed_by_twos :
    let letters := ['a', 'b', 'c', 'd', 'e']
    1 ≤ 2 ∧
      (∃ pages, inMemory.Follows letters 20 Page.next? 2 3 pages ∧
        pages.flatMap Page.results = ['d', 'e']) ∧
      (∃ pages, byWindows.Follows letters 20 Page.next? 2 3 pages ∧
        pages.flatMap Page.results = ['c', 'd', 'e']) ∧
      ∃ pages last, byWindows.Follows letters 20 Page.previous? 2 9 pages ∧
        pages.getLast? = some last ∧ last.results = ['a', 'b'] ∧ last.previous? = none := by
  intro letters
  have positive : 1 ≤ 2 := by decide
  obtain ⟨⟨ps, hps, _, hrest, _⟩, _, _⟩ := links_followed inMemory letters 20 3 positive
  obtain ⟨⟨qs, hqs, _, hwindows, _⟩, _, _⟩ := links_followed byWindows letters 20 3 positive
  obtain ⟨_, _, bs, last, hbs, _, hlast, hfirst, hnone⟩ :=
    links_followed byWindows letters 20 9 positive
  rw [page_eq _ _ _ _ positive] at hfirst
  cases hfirst
  exact ⟨positive, ⟨ps, hps, hrest⟩, ⟨qs, hqs, hwindows⟩, bs, _, hbs, hlast, rfl, hnone⟩

end Links

end Paging
end CardCatalog
