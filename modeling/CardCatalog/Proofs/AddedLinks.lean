import CardCatalog.Proofs.RecordWrites
import CardCatalog.Proofs.RoundTrip

/-!
# Links that are added

A record gets the links whose addresses it does not have yet, and of several links with one
address the first.  Which addresses it has is told by its own links alone, and grows with every
link that is added; so it makes no difference whether a list of links is added at once or in two
parts.

Results: once links are added, none of them is new to the record (`freshLinks_linked`).  It gains
one link for each new address (`gains_linked`), whatever other records have, and lists that are
added one after the other are added as one list (`links_added`).
-/

namespace CardCatalog

open Calendar (Date)
open Text (Wide)

namespace Store

/-- The addresses of the links that a record has. -/
def urlsOf (s : Store) (id : String) : List Wide :=
  (s.linksOf id).map fun l => Wide.ofText l.2.url

/-- What a record gains when links are added to it. -/
structure Gains
    (s : Store) (today : Date) (id : String) (old : RecordRow) (links : List LinkDraft)
    (rows : List LinkRow) (t : Store) : Prop where
  /-- The links of the record are those it had, and the new ones behind them. -/
  behind : ∃ new, t.linksOf id = s.linksOf id ++ new ∧ new.map Prod.snd = rows
  /-- The new ones are stored for the first submitted link of each address that it did not have. -/
  stored : ∃ kept, IsFirsts LinkDraft.url (s.urlsOf id) links kept ∧
    List.Forall₂ (LinkDraft.StoredAs id) kept rows
  urls : ∀ u, u ∈ t.urlsOf id ↔ u ∈ s.urlsOf id ∨ u ∈ links.map LinkDraft.url
  renewed : rows ≠ [] → t.records.get? id
    = some { old with details := { old.details with hasLinks := true }, updated := today }
  unchanged : rows = [] → t = s
  /-- Other records have the rows and the links that they had. -/
  others : ∀ r, r ≠ id → t.records.get? r = s.records.get? r ∧ t.linksOf r = s.linksOf r
  lookups : t.lookups = s.lookups
  attachments : t.attachments = s.attachments

section Linking

variable {s : Store} {today : Date} {id : String} {old : RecordRow} {rows : List LinkRow}

@[simp] theorem linked_nil
    (s : Store) (today : Date) (id : String) (old : RecordRow) :
    s.linked today id old [] = s := rfl

@[simp] theorem linked_cons
    (s : Store) (today : Date) (id : String) (old : RecordRow)
    (l : LinkRow) (rows : List LinkRow) :
    s.linked today id old (l :: rows)
      = { s with
          records := s.records.put id (linkedRow today old)
          links := s.links.pushAll (l :: rows) } := rfl

@[simp] theorem lookups_linked :
    (s.linked today id old rows).lookups = s.lookups := by
  cases rows <;> rfl

@[simp] theorem attachments_linked :
    (s.linked today id old rows).attachments = s.attachments := by
  cases rows <;> rfl

@[simp] theorem links_linked :
    (s.linked today id old rows).links = s.links.pushAll rows := by
  cases rows <;> rfl

/-- The row of the record is renewed exactly if it gets links. -/
theorem get?_records_linked
    (hold : s.records.get? id = some old) :
    (s.linked today id old rows).records.get? id
      = some (if rows.isEmpty then old else linkedRow today old) := by
  cases rows with
  | nil => exact hold
  | cons l rows => simp

theorem get?_records_linked_of_ne
    {r : String}
    (hne : r ≠ id) :
    (s.linked today id old rows).records.get? r = s.records.get? r := by
  cases rows with
  | nil => rfl
  | cons l rows => simp [hne]

/-- Links that are added one after the other are added as one list. -/
theorem linked_linked
    (xs ys : List LinkRow) :
    (s.linked today id old xs).linked today id
        (if xs.isEmpty then old else linkedRow today old) ys
      = s.linked today id old (xs ++ ys) := by
  cases xs with
  | nil => rfl
  | cons x xs =>
      cases ys with
      | nil => simp
      | cons y ys => simp [linkedRow, Table.pushAll]

/-- The addresses of stored links are those that they are submitted with. -/
theorem urls_of_links
    {drafts : List LinkDraft} {rows : List LinkRow}
    (h : drafts.mapM (LinkDraft.toStorable id) = .ok rows) :
    rows.map (fun l => Wide.ofText l.url) = drafts.map LinkDraft.url := by
  have hstored := storedAs_of_links h
  clear h
  induction hstored with
  | nil => rfl
  | cons hstored _ ih => simp [hstored.url, ih]

/-- Links that are added to a record stand behind those that it has. -/
theorem linksOf_pushAll
    (s : Store) {rows : List LinkRow}
    (owner : ∀ l ∈ rows, l.record = id) :
    ∃ new : List (Int × LinkRow),
      ({ s with links := s.links.pushAll rows } : Store).linksOf id = s.linksOf id ++ new ∧
        new.map Prod.snd = rows := by
  obtain ⟨new, hrows, hnew⟩ := s.links.rows_pushAll rows
  refine ⟨new, ?_, hnew⟩
  have hall : (new.filter fun e => decide (e.2.record = id)) = new :=
    List.filter_eq_self.2 fun e he =>
      decide_eq_true (owner e.2 (hnew ▸ List.mem_map.2 ⟨e, he, rfl⟩))
  unfold linksOf
  rw [hrows, List.filter_append, hall]

/-- The links of a record to which links are added are those before, and the added ones. -/
theorem exists_linksOf_linked
    (s : Store) (today : Date) (old : RecordRow)
    (owner : ∀ l ∈ rows, l.record = id) :
    ∃ new, (s.linked today id old rows).linksOf id = s.linksOf id ++ new ∧
      new.map Prod.snd = rows := by
  obtain ⟨new, hlinks, hnew⟩ := s.linksOf_pushAll owner
  refine ⟨new, ?_, hnew⟩
  rw [← hlinks]
  unfold linksOf
  rw [links_linked]

theorem linksOf_linked_of_ne
    {r : String}
    (owner : ∀ l ∈ rows, l.record = id)
    (hne : r ≠ id) :
    (s.linked today id old rows).linksOf r = s.linksOf r := by
  unfold linksOf
  rw [links_linked]
  refine Table.filter_rows_pushAll _ (p := fun l : LinkRow => decide (l.record = r)) fun l hl => ?_
  rw [owner l hl]
  exact decide_eq_false hne.symm

/-- The addresses of a record grow by those of the links that are added to it. -/
theorem urlsOf_linked
    (s : Store) (today : Date) (old : RecordRow)
    (owner : ∀ l ∈ rows, l.record = id) :
    (s.linked today id old rows).urlsOf id
      = s.urlsOf id ++ rows.map fun l => Wide.ofText l.url := by
  obtain ⟨new, hlinks, hnew⟩ := s.exists_linksOf_linked today old owner
  unfold urlsOf
  rw [hlinks, List.map_append, ← hnew, List.map_map]
  rfl

end Linking

section Adding

variable {s t : Store} {today : Date} {id : String} {old : RecordRow} {links : List LinkDraft}

/-- What is new to a record of two lists is what is new of the first one, and then what is new of
the second one. -/
theorem freshLinks_append
    (today : Date) (old : RecordRow)
    {xs : List LinkDraft} (ys : List LinkDraft) {rows : List LinkRow}
    (h : (s.freshLinks id xs).mapM (LinkDraft.toStorable id) = .ok rows) :
    s.freshLinks id (xs ++ ys)
      = s.freshLinks id xs ++ (s.linked today id old rows).freshLinks id ys := by
  have hurls := s.urlsOf_linked today old (owner_of_links h)
  rw [urls_of_links h] at hurls
  show freshBy LinkDraft.url (s.urlsOf id) (xs ++ ys)
    = freshBy LinkDraft.url (s.urlsOf id) xs
      ++ freshBy LinkDraft.url ((s.linked today id old rows).urlsOf id) ys
  rw [hurls, freshBy_append]
  rfl

/-- Once the links are added that are new to a record, none is new to it. -/
theorem freshLinks_linked
    (today : Date) (old : RecordRow) {rows : List LinkRow}
    (h : (s.freshLinks id links).mapM (LinkDraft.toStorable id) = .ok rows) :
    (s.linked today id old rows).freshLinks id links = [] := by
  have hurls := s.urlsOf_linked today old (owner_of_links h)
  rw [urls_of_links h] at hurls
  refine (freshBy_eq_nil_iff _ _ _).2 fun l hl => ?_
  show l.url ∈ (s.linked today id old rows).urlsOf id
  rw [hurls]
  exact List.mem_append.2 (mark_mem_or_mem_freshBy LinkDraft.url links _ hl)

/-- Two lists are added at once exactly if they are added one after the other. -/
theorem addLinks_append_eq_ok_iff
    {xs ys : List LinkDraft} {count? : Option Nat}
    (hold : s.records.get? id = some old) :
    s.addLinks today id (xs ++ ys) = .ok (count?, t) ↔
      ∃ m u k,
        s.addLinks today id xs = .ok (some m, u) ∧
        u.addLinks today id ys = .ok (some k, t) ∧ count? = some (m + k) := by
  constructor
  · intro h
    obtain ⟨all, hall, rfl, rfl⟩ := (addLinks_eq_ok_iff hold).1 h
    -- what is new of the first list is stored as it is when this list is added alone
    have hfirst : ∃ rows, (s.freshLinks id xs).mapM (LinkDraft.toStorable id) = .ok rows := by
      have hparts : s.freshLinks id (xs ++ ys) = s.freshLinks id xs ++ _ :=
        freshBy_append LinkDraft.url ys xs (s.urlsOf id)
      rw [hparts] at hall
      obtain ⟨rows, _, hrows, _⟩ := mapM_append_eq_ok_iff.1 hall
      exact ⟨rows, hrows⟩
    obtain ⟨rows, hrows⟩ := hfirst
    rw [freshLinks_append today old ys hrows] at hall
    obtain ⟨rows', more, hrows', hmore, rfl⟩ := mapM_append_eq_ok_iff.1 hall
    cases hrows.symm.trans hrows'
    refine ⟨rows.length, s.linked today id old rows, more.length, ?_, ?_, ?_⟩
    · exact (addLinks_eq_ok_iff hold).2 ⟨rows, hrows, rfl, rfl⟩
    · refine (addLinks_eq_ok_iff (get?_records_linked hold)).2 ⟨more, hmore, rfl, ?_⟩
      exact (linked_linked rows more).symm
    · rw [List.length_append]
  · rintro ⟨m, u, k, hxs, hys, rfl⟩
    obtain ⟨rows, hrows, hm, rfl⟩ := (addLinks_eq_ok_iff hold).1 hxs
    obtain ⟨more, hmore, hk, rfl⟩ := (addLinks_eq_ok_iff (get?_records_linked hold)).1 hys
    refine (addLinks_eq_ok_iff hold).2 ⟨rows ++ more, ?_, ?_, linked_linked rows more⟩
    · rw [freshLinks_append today old ys hrows]
      exact mapM_append_eq_ok_iff.2 ⟨rows, more, hrows, hmore, rfl⟩
    · rw [Option.some.inj hm, Option.some.inj hk, List.length_append]

/-- A record to which links are added has those of them that are new to it. -/
theorem gains_linked
    {rows : List LinkRow}
    (hold : s.records.get? id = some old)
    (hrows : (s.freshLinks id links).mapM (LinkDraft.toStorable id) = .ok rows) :
    s.Gains today id old links rows (s.linked today id old rows) where
  behind := s.exists_linksOf_linked today old (owner_of_links hrows)
  stored := ⟨s.freshLinks id links, isFirsts_freshBy _ _ _, storedAs_of_links hrows⟩
  urls u := by
    rw [s.urlsOf_linked today old (owner_of_links hrows), urls_of_links hrows, List.mem_append]
    exact mem_or_mem_map_freshBy_iff LinkDraft.url links (s.urlsOf id)
  renewed hne := by
    rw [get?_records_linked hold, if_neg (by simpa using hne)]
    rfl
  unchanged hnil := by
    rw [hnil, linked_nil]
  others r hne := ⟨get?_records_linked_of_ne hne, linksOf_linked_of_ne (owner_of_links hrows) hne⟩
  lookups := lookups_linked
  attachments := attachments_linked

/-- What is new to a record is told by the addresses that it has, whatever else a store holds. -/
theorem freshLinks_congr
    {s' : Store}
    (hurls : ∀ u, u ∈ s'.urlsOf id ↔ u ∈ s.urlsOf id) :
    s'.freshLinks id links = s.freshLinks id links :=
  freshBy_congr LinkDraft.url links hurls

theorem run_addLinks_ofText_eq_ok_iff
    {a : Answer} :
    Operation.run today (.addLinks (Wide.ofText id) links) s = .ok (a, t) ↔
      ∃ count?, s.addLinks today id links = .ok (count?, t) ∧ a = .added count? := by
  rw [run_addLinks, Wide.toStorable_ofText, ok_bind_eq, map_eq_ok_iff]
  constructor
  · rintro ⟨⟨count?, u⟩, hadd, h⟩
    cases h
    exact ⟨count?, hadd, rfl⟩
  · rintro ⟨count?, hadd, rfl⟩
    exact ⟨(count?, t), hadd, rfl⟩

end Adding

/-- Links that can be added to a record are added if they are new to it, each address once, and
their number is answered.  In any store in which the record has the same addresses, the same ones
are added, whatever links there are of other records.  To add a list is to add its parts one after
the other, and the numbers add up. -/
theorem links_added
    (s : Store) (today : Date) {w : Wide}
    (found : s.Holds w) :
    (∀ links a t, Operation.run today (.addLinks w links) s = .ok (a, t) →
      ∃ id old rows,
        w = Wide.ofText id ∧ s.records.get? id = some old ∧
        a = .added (some rows.length) ∧ s.Gains today id old links rows t ∧
        ∀ (s' : Store) (old' : RecordRow), s'.records.get? id = some old' →
          (∀ u, u ∈ s'.urlsOf id ↔ u ∈ s.urlsOf id) →
          ∃ t', Operation.run today (.addLinks w links) s' = .ok (a, t') ∧
            s'.Gains today id old' links rows t') ∧
    ∀ xs ys a t,
      Operation.run today (.addLinks w (xs ++ ys)) s = .ok (a, t) ↔
        ∃ m u k,
          Operation.run today (.addLinks w xs) s = .ok (.added (some m), u) ∧
          Operation.run today (.addLinks w ys) u = .ok (.added (some k), t) ∧
          a = .added (some (m + k)) := by
  obtain ⟨id, rfl, hid⟩ := found
  obtain ⟨old, hold⟩ := s.records.contains_iff.1 hid
  simp only [run_addLinks_ofText_eq_ok_iff]
  constructor
  · rintro links a t ⟨count?, hadd, rfl⟩
    obtain ⟨rows, hrows, rfl, rfl⟩ := (addLinks_eq_ok_iff hold).1 hadd
    refine ⟨id, old, rows, rfl, hold, rfl, gains_linked hold hrows, fun s' old' hold' hurls => ?_⟩
    rw [← freshLinks_congr hurls] at hrows
    refine ⟨s'.linked today id old' rows, ?_, gains_linked hold' hrows⟩
    exact ⟨_, (addLinks_eq_ok_iff hold').2 ⟨rows, hrows, rfl, rfl⟩, rfl⟩
  · intro xs ys a t
    constructor
    · rintro ⟨count?, hadd, rfl⟩
      obtain ⟨m, u, k, hxs, hys, rfl⟩ := (addLinks_append_eq_ok_iff hold).1 hadd
      exact ⟨m, u, k, ⟨_, hxs, rfl⟩, ⟨_, hys, rfl⟩, rfl⟩
    · rintro ⟨m, u, k, ⟨_, hxs, hm⟩, ⟨_, hys, hk⟩, rfl⟩
      cases hm
      cases hk
      exact ⟨_, (addLinks_append_eq_ok_iff hold).2 ⟨m, u, k, hxs, hys, rfl⟩, rfl⟩

/-- A record gets two of five links, one of which is at an address of another record; the others
are at an address that it has, or at one that comes twice. -/
theorem links_added_beside_another :
    let link (name url : Wide) : LinkDraft := { name, url? := some url }
    let s := seeded.after
      [ (.epoch, .submit "a" { links := [link "Cover" "u"] }),
        (.epoch, .submit "b" { links := [link "Cover" "v"] }) ]
    let xs := [link "Poster" "v", link "Again" "u"]
    let ys := [{ name := "Blank" }, link "Second" "v", link "Third" ""]
    let t := (Operation.run .epoch (.addLinks "a" (xs ++ ys))).store s
    s.Holds "a" ∧
      Operation.run .epoch (.addLinks "a" (xs ++ ys)) s = .ok (.added (some 2), t) ∧
      (∃ old rows, s.Gains .epoch "a" old (xs ++ ys) rows t ∧ rows.length = 2) ∧
      ∃ m u k,
        Operation.run .epoch (.addLinks "a" xs) s = .ok (.added (some m), u) ∧
        Operation.run .epoch (.addLinks "a" ys) u = .ok (.added (some k), t) ∧ 2 = m + k := by
  intro link s xs ys t
  have found : s.Holds "a" := ⟨"a", rfl, by decide⟩
  have hadd : Operation.run .epoch (.addLinks "a" (xs ++ ys)) s = .ok (.added (some 2), t) := by
    decide
  obtain ⟨hgains, hparts⟩ := links_added s .epoch found
  obtain ⟨id, old, rows, hid, _, hcount, hrows, _⟩ := hgains _ _ _ hadd
  cases Wide.ofText_inj.1 (hid : Wide.ofText "a" = Wide.ofText id)
  obtain ⟨m, u, k, hxs, hys, hsum⟩ := (hparts xs ys _ _).1 hadd
  have hlength : rows.length = 2 := by simpa using hcount.symm
  have hsum : 2 = m + k := by simpa using hsum
  exact ⟨found, hadd, ⟨old, rows, hrows, hlength⟩, m, u, k, hxs, hys, hsum⟩

end Store
end CardCatalog
