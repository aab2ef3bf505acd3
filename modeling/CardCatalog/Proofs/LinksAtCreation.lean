import CardCatalog.Proofs.AddedLinks

/-!
# Links at creation

A record gets its links in the draft that it is created with, or the draft has none and the links
are added afterwards.  The two ways write the row of the record differently: the draft tells
whether there are links, and their addition renews the row.  On one day both leave the same row,
and the links stand in the same order under the same ids, since a new record has no links that
an address could be compared with.

Results: what a draft of a new record needs besides rows that can be stored
(`Sound.createRecord_eq_ok_iff`), and that the two ways leave the same store, and stop at the same
drafts (`links_at_creation`).
-/

namespace CardCatalog

open Calendar (Date)
open Text (Wide)

/-- A draft without its links. -/
def RecordDraft.bare (d : RecordDraft) : RecordDraft :=
  { d with links := [] }

namespace Store

section Creating

variable {s t : Store} {today : Date} {id : String} {d : RecordDraft}

/-- Links do not matter to the rows that a draft refers to. -/
theorem admits_bare_iff :
    s.Admits d.bare ↔ s.Admits d := by
  constructor
  · rintro ⟨hrefs, hrange, htarget⟩
    exact ⟨hrefs, hrange, htarget⟩
  · rintro ⟨hrefs, hrange, htarget⟩
    exact ⟨hrefs, hrange, htarget⟩

/-- A new record is created exactly if it can be stored and the rows are there that it refers
to. -/
theorem Sound.createRecord_eq_ok_iff
    (h : s.Sound)
    (fresh : s.records.contains id = false) :
    s.createRecord today id d = .ok t ↔
      s.Admits d ∧
        ∃ row links,
          d.toStorable today = .ok row ∧
          d.links.mapM (LinkDraft.toStorable id) = .ok links ∧
          t = s.created id row d.attached links := by
  constructor
  · exact admitted_of_createRecord fresh
  · rintro ⟨hadmits, row, links, hrow, hlinks, rfl⟩
    rw [createRecord_eq h fresh hadmits, hrow, hlinks]
    rfl

/-- The row of a draft is that of the bare draft, as links renew it if there are any. -/
theorem toStorable_eq_bare
    (today : Date) (d : RecordDraft) :
    d.toStorable today
      = (d.bare.toStorable today).map fun row =>
          if d.links.isEmpty then row else linkedRow today row := by
  simp only [RecordDraft.toStorable, map_bind_eq]
  refine bind_congr fun title => bind_congr fun _ => bind_congr fun creator =>
    bind_congr fun modifiedBy => ?_
  cases d.links <;> simp [RecordDraft.bare, linkedRow, Except.map]

/-- Links that are added on the day on which a record is created stand as if the record had been
created with them. -/
theorem linked_created
    (s : Store) (today : Date) (id : String) (row : RecordRow)
    (attached : PerAttached (List AttachedRef)) (links : List LinkRow) :
    (s.created id row attached []).linked today id row links
      = s.created id (if links.isEmpty then row else linkedRow today row) attached links := by
  cases links with
  | nil => rfl
  | cons l links => simp [created, Table.pushAll]

/-- All links of distinct addresses are new to a record that is new. -/
theorem Sound.freshLinks_created
    (h : s.Sound)
    (fresh : s.records.contains id = false)
    (row : RecordRow) (attached : PerAttached (List AttachedRef))
    {links : List LinkDraft}
    (distinct : links.Pairwise fun l m => l.url ≠ m.url) :
    (s.created id row attached []).freshLinks id links = links := by
  have hnone : (s.created id row attached []).linksOf id = [] := by
    refine List.filter_eq_nil_iff.2 fun e he => ?_
    simpa using h.link_ne fresh e he
  refine freshBy_eq_self LinkDraft.url (fun l _ => ?_) distinct
  rw [hnone]
  exact List.not_mem_nil

theorem Sound.createRecord_bare_eq_ok_iff
    (h : s.Sound)
    (fresh : s.records.contains id = false) :
    s.createRecord today id d.bare = .ok t ↔
      s.Admits d ∧
        ∃ row, d.bare.toStorable today = .ok row ∧ t = s.created id row d.attached [] := by
  rw [h.createRecord_eq_ok_iff fresh, admits_bare_iff]
  constructor
  · rintro ⟨hadmits, row, links, hrow, hlinks, rfl⟩
    cases hlinks
    exact ⟨hadmits, row, hrow, rfl⟩
  · rintro ⟨hadmits, row, hrow, rfl⟩
    exact ⟨hadmits, row, [], hrow, rfl, rfl⟩

/-- Links of distinct addresses are added to a new record without links exactly if they can be
stored, and then it is the record that is created with them. -/
theorem Sound.addLinks_created_eq_ok_iff
    (h : s.Sound)
    (fresh : s.records.contains id = false)
    (row : RecordRow) (attached : PerAttached (List AttachedRef))
    {links : List LinkDraft} {count? : Option Nat}
    (distinct : links.Pairwise fun l m => l.url ≠ m.url) :
    (s.created id row attached []).addLinks today id links = .ok (count?, t) ↔
      ∃ rows,
        links.mapM (LinkDraft.toStorable id) = .ok rows ∧ count? = some links.length ∧
        t = s.created id (if links.isEmpty then row else linkedRow today row) attached rows := by
  have hold : (s.created id row attached []).records.get? id = some row := by
    simp [created]
  rw [addLinks_eq_ok_iff hold, h.freshLinks_created fresh row attached distinct]
  refine exists_congr fun rows => and_congr_right fun hrows => ?_
  have hlength := length_of_mapM_eq_ok hrows
  have hempty : links.isEmpty = rows.isEmpty := by
    cases links <;> cases rows <;> first | rfl | cases hlength
  rw [linked_created, hempty, hlength]

/-- A record is created with links exactly if it is created without them and they are added, and
the same store is left. -/
theorem Sound.createRecord_eq_ok_iff_addLinks
    (h : s.Sound)
    (fresh : s.records.contains id = false)
    (distinct : d.links.Pairwise fun l m => l.url ≠ m.url) :
    s.createRecord today id d = .ok t ↔
      ∃ u count?,
        s.createRecord today id d.bare = .ok u ∧
        u.addLinks today id d.links = .ok (count?, t) := by
  rw [h.createRecord_eq_ok_iff fresh, toStorable_eq_bare]
  constructor
  · rintro ⟨hadmits, row, links, hrow, hlinks, rfl⟩
    obtain ⟨bare, hbare, rfl⟩ := map_eq_ok_iff.1 hrow
    refine ⟨s.created id bare d.attached [], some d.links.length, ?_, ?_⟩
    · exact (h.createRecord_bare_eq_ok_iff fresh).2 ⟨hadmits, bare, hbare, rfl⟩
    · exact (h.addLinks_created_eq_ok_iff fresh bare d.attached distinct).2
        ⟨links, hlinks, rfl, rfl⟩
  · rintro ⟨u, count?, hcreate, hadd⟩
    obtain ⟨hadmits, bare, hbare, rfl⟩ := (h.createRecord_bare_eq_ok_iff fresh).1 hcreate
    obtain ⟨links, hlinks, _, rfl⟩ :=
      (h.addLinks_created_eq_ok_iff fresh bare d.attached distinct).1 hadd
    exact ⟨hadmits, _, links, map_eq_ok_iff.2 ⟨bare, hbare, rfl⟩, hlinks, rfl⟩

end Creating

section Requests

variable {s : Store} {today : Date}

theorem run_createRecord (w : Wide) (d : RecordDraft) :
    Operation.run today (.createRecord w d) s
      = (w.toStorable >>= fun id =>
          (s.createRecord today id d).map fun t => (.recordId id, t)) := by
  show (w.toStorable >>= fun id => s.createRecord today id d >>= fun t => _) = _
  refine bind_congr fun id => ?_
  cases s.createRecord today id d <;> rfl

theorem run_createRecord_ofText_eq_ok_iff
    {id : String} {d : RecordDraft} {a : Answer} {t : Store} :
    Operation.run today (.createRecord (Wide.ofText id) d) s = .ok (a, t) ↔
      s.createRecord today id d = .ok t ∧ a = .recordId id := by
  rw [run_createRecord, Wide.toStorable_ofText, ok_bind_eq, map_eq_ok_iff]
  constructor
  · rintro ⟨u, hcreate, hanswer⟩
    cases hanswer
    exact ⟨hcreate, rfl⟩
  · rintro ⟨hcreate, rfl⟩
    exact ⟨t, hcreate, rfl⟩

/-- A new record is written with links exactly if it can be written without them, and the links
be added to it then. -/
theorem Sound.run_createRecord_ofText_eq_ok_iff_parts
    {id : String} {d : RecordDraft} {a : Answer} {t : Store}
    (h : s.Sound)
    (fresh : s.records.contains id = false)
    (distinct : d.links.Pairwise fun l m => l.url ≠ m.url) :
    Operation.run today (.createRecord (Wide.ofText id) d) s = .ok (a, t) ↔
      ∃ b u,
        Operation.run today (.createRecord (Wide.ofText id) d.bare) s = .ok (a, u) ∧
        Operation.run today (.addLinks (Wide.ofText id) d.links) u = .ok (b, t) := by
  simp only [run_createRecord_ofText_eq_ok_iff, run_addLinks_ofText_eq_ok_iff,
    h.createRecord_eq_ok_iff_addLinks fresh distinct]
  constructor
  · rintro ⟨⟨u, count?, hcreate, hadd⟩, rfl⟩
    exact ⟨_, u, ⟨hcreate, rfl⟩, count?, hadd, rfl⟩
  · rintro ⟨b, u, ⟨hcreate, rfl⟩, count?, hadd, rfl⟩
    exact ⟨⟨u, count?, hcreate, hadd⟩, rfl⟩

/-- An action that does what two others do one after the other stops exactly if one of them
does. -/
theorem stops_iff_of_parts
    {α : Type} {whole first second : Action α}
    (parts : ∀ a t, whole s = .ok (a, t) ↔
      ∃ b u, first s = .ok (a, u) ∧ second u = .ok (b, t)) :
    (∃ e, whole s = .error e) ↔
      (∃ e, first s = .error e) ∨ ∃ e, second (first.store s) = .error e := by
  constructor
  · rintro ⟨e, hwhole⟩
    cases hfirst : first s with
    | error e' => exact Or.inl ⟨e', rfl⟩
    | ok out =>
        rw [Action.store_of_ok hfirst]
        cases hsecond : second out.2 with
        | error e' => exact Or.inr ⟨e', rfl⟩
        | ok last =>
            have hok := (parts out.1 last.2).2 ⟨last.1, out.2, hfirst, hsecond⟩
            rw [hwhole] at hok
            cases hok
  · intro hstops
    cases hwhole : whole s with
    | error e => exact ⟨e, rfl⟩
    | ok out =>
        obtain ⟨b, u, hfirst, hsecond⟩ := (parts out.1 out.2).1 hwhole
        rw [Action.store_of_ok hfirst, hfirst, hsecond] at hstops
        rcases hstops with ⟨_, h⟩ | ⟨_, h⟩ <;> cases h

/-- After any run, a new record with links of distinct addresses is created with its links exactly
if it can be created without them and the links can be added to it then.  Both ways leave the same
store, and one of them stops exactly if the other one does. -/
theorem links_at_creation
    (steps : List (Date × Operation)) (today : Date) {w : Wide} {d : RecordDraft}
    (fresh : ¬ (seeded.after steps).Holds w)
    (distinct : d.links.Pairwise fun l m => l.url ≠ m.url) :
    let s := seeded.after steps
    let whole := Operation.run today (.createRecord w d)
    let bare := Operation.run today (.createRecord w d.bare)
    let more := Operation.run today (.addLinks w d.links)
    (∀ a t, whole s = .ok (a, t) ↔ ∃ b u, bare s = .ok (a, u) ∧ more u = .ok (b, t)) ∧
      ((∃ e, whole s = .error e) ↔
        (∃ e, bare s = .error e) ∨ ∃ e, more (bare.store s) = .error e) := by
  intro s whole bare more
  suffices parts : ∀ a t, whole s = .ok (a, t) ↔
      ∃ b u, bare s = .ok (a, u) ∧ more u = .ok (b, t) from
    ⟨parts, stops_iff_of_parts parts⟩
  intro a t
  cases hw : w.toStorable with
  | error e =>
      have hstops (v : RecordDraft) : Operation.run today (.createRecord w v) s = .error e := by
        rw [run_createRecord, hw]
        rfl
      simp [whole, bare, hstops]
  | ok id =>
      cases toStorable_eq_ok_iff.1 hw
      have hfresh : s.records.contains id = false := by
        simpa [holds_ofText_iff] using fresh
      exact (sound_after steps).run_createRecord_ofText_eq_ok_iff_parts hfresh distinct

/-- A record gets a genre and two links, one of which is at an address of another record. -/
theorem links_at_creation_beside_another :
    let link (name url : Wide) : LinkDraft := { name, url? := some url }
    let steps : List (Date × Operation) :=
      [ (.epoch, .enrol (.attached .genre) ⟨"Noir", none, none⟩),
        (.epoch, .submit "a" { links := [link "Cover" "u"] }) ]
    let s := seeded.after steps
    let d : RecordDraft :=
      { attached := ⟨[⟨1, true⟩], []⟩, links := [link "Poster" "u", { name := "Blank" }] }
    let t := (Operation.run .epoch (.createRecord "b" d)).store s
    ¬ s.Holds "b" ∧ (d.links.Pairwise fun l m => l.url ≠ m.url) ∧
      Operation.run .epoch (.createRecord "b" d) s = .ok (.recordId "b", t) ∧
      ∃ b u,
        Operation.run .epoch (.createRecord "b" d.bare) s = .ok (.recordId "b", u) ∧
        Operation.run .epoch (.addLinks "b" d.links) u = .ok (b, t) ∧
        (t.linksOf "b").length = 2 := by
  intro link steps s d t
  have fresh : ¬ s.Holds "b" := fun found => absurd (holds_ofText_iff.1 found) (by decide)
  have distinct : d.links.Pairwise fun l m => l.url ≠ m.url := by decide
  have hwhole : Operation.run .epoch (.createRecord "b" d) s = .ok (.recordId "b", t) := by
    decide
  obtain ⟨hparts, _⟩ := links_at_creation steps .epoch fresh distinct
  obtain ⟨b, u, hbare, hmore⟩ := (hparts _ _).1 hwhole
  exact ⟨fresh, distinct, hwhole, b, u, hbare, hmore, by decide⟩

end Requests

end Store
end CardCatalog
