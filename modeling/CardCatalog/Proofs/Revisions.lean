import CardCatalog.Proofs.FaultReports
import CardCatalog.Proofs.Isolation
import CardCatalog.Proofs.RoundTrip

/-!
# What is revised is read back

A revision replaces the contents of a record as a whole, but its attachments only of the kinds
that are given: those are detached, and the new ones are attached in their order, each row once.
When the record was created, who created it and its links stay as they are.

A resubmission tells the rows by value.  They are enrolled first, a direct row that is not given
is the unknown one, and of several rows to attach with one key the first one is attached, since
rows have the same id then exactly if they have the same key.

Results: what a revision attaches (`map_refs_exchanged`), and that a revised record is read back
as it is answered, with what was submitted and what was kept, whatever else the store holds
(`revision_read_back`).
-/

namespace CardCatalog

open Calendar (Date)
open Text (Wide)

namespace Store

/-- A record is answered as it was revised, and is read back so. -/
structure RevisedAs
    (s : Store) (today : Date) (id : String) (old : RecordRow)
    (details : Details Wide) (modifiedBy : Wide) (a : Aggregate) (t : Store) : Prop where
  readBack : t.loadRecord id = .ok (some a)
  ofId : a.id = id
  title : Wide.ofText a.details.title = details.title
  details : a.details = details.withTitle a.details.title
  modifiedBy : Wide.ofText a.modifiedBy = modifiedBy
  updated : a.updated = today
  created : a.created = old.created
  creator : a.creator = old.creator
  links : a.links = s.linksOf id
  /-- Other records keep their rows, and all reference rows are kept. -/
  kept : s.KeptBut id t

/-- The row of a record after a revision has what the revision tells, and the rest of the old
one. -/
theorem record_of_revision
    {today : Date} {r : RecordRevision} {old row : RecordRow}
    (h : r.toStorable today old = .ok row) :
    Wide.ofText row.details.title = r.details.title ∧
      row.details = r.details.withTitle row.details.title ∧
      Wide.ofText row.modifiedBy = r.modifiedBy ∧
      row.updated = today ∧ row.created = old.created ∧ row.creator = old.creator := by
  obtain ⟨title, htitle, h⟩ := bind_eq_ok_iff.1 h
  obtain ⟨_, _, h⟩ := bind_eq_ok_iff.1 h
  obtain ⟨modifiedBy, hmodified, h⟩ := bind_eq_ok_iff.1 h
  cases h
  exact ⟨(toStorable_eq_ok_iff.1 htitle).symm, rfl, (toStorable_eq_ok_iff.1 hmodified).symm,
    rfl, rfl, rfl⟩

section Revising

variable {s t : Store} {today : Date} {id : String} {old : RecordRow} {r : RecordRevision}
  {a : Aggregate}

/-- Where the attachments of a record are exchanged, it shows the new ones, if their rows are
there. -/
theorem map_refs_exchanged
    (rows : Table Int Attachment) (id : String) {refs : List AttachedRef} {there : Int → Bool}
    (target : ∀ x ∈ uniqueRefs refs, there x.id = true) :
    (((exchanged rows id (some refs)).rows.filter fun e =>
        e.2.record = id ∧ there e.2.target = true).map fun e => (e.2.target, e.2.manual))
      = (uniqueRefs refs).map fun x => (x.id, x.manual) := by
  have hold : ∀ e ∈ (rows.filter fun _ x => x.record ≠ id).rows,
      decide (e.2.record = id ∧ there e.2.target = true) = false := by
    intro e he
    have hne : e.2.record ≠ id := of_decide_eq_true (List.mem_filter.1 he).2
    simp [hne]
  have hnew : ∀ x ∈ (uniqueRefs refs).map (fun r => (⟨id, r.id, r.manual⟩ : Attachment)),
      decide (x.record = id ∧ there x.target = true) = true := by
    intro x hx
    obtain ⟨r, hr, rfl⟩ := List.mem_map.1 hx
    simp [target r hr]
  have hown := Table.map_filter_rows_pushAll
    (p := fun x : Attachment => decide (x.record = id ∧ there x.target = true)) hold hnew
  have hrefs := congrArg (List.map fun x : Attachment => (x.target, x.manual)) hown
  rw [List.map_map, List.map_map] at hrefs
  exact hrefs

/-- Of what is given, a revised record has the first attachment to each row; of what is not, it has
what it had. -/
theorem attached_of_reviseRecord
    (hold : s.records.get? id = some old)
    (h : s.reviseRecord today id r = .ok (some a, t)) (k : AttachedKind) :
    (∀ x ∈ a.attached.get k, s.lookup? (.attached k) x.row.id = some x.row) ∧
      (r.attached.get k = none → a.attached.get k = s.attachedRows id k) ∧
      ∀ refs, r.attached.get k = some refs →
        (a.attached.get k).map (fun x => (x.row.id, x.manual))
          = (uniqueRefs refs).map fun x => (x.id, x.manual) := by
  obtain ⟨row, found, _, rfl, hfound, hanswer, htarget⟩ := assembled_of_reviseRecord hold h
  cases hanswer
  have hattachments : (s.revised id row r.attached).attachments.get k
      = exchanged (s.attachments.get k) id (r.attached.get k) := by
    simp [revised]
  refine ⟨(shows_of_assemble hfound).attachedRows k, ?_, ?_⟩
  · intro hnone
    rw [eq_of_assemble hfound, PerAttached.get_ofFn]
    unfold attachedRows
    rw [hattachments, hnone]
    rfl
  · intro refs hrefs
    rw [(shows_of_assemble hfound).attached k, hattachments, hrefs]
    refine map_refs_exchanged _ id fun x hx => ?_
    exact htarget k x (by rwa [hrefs])

/-- What is shown of a list of references, each id once, are the first ones of the list. -/
theorem isFirsts_of_map_refs
    {shown : List AttachedRow} {refs : List AttachedRef}
    (h : shown.map (fun x => (x.row.id, x.manual))
      = (uniqueRefs refs).map fun x => (x.id, x.manual)) :
    IsFirsts AttachedRef.id [] refs (shown.map fun x => ⟨x.row.id, x.manual⟩) := by
  have hrefs := congrArg (List.map fun x : Int × Bool => (⟨x.1, x.2⟩ : AttachedRef)) h
  rw [List.map_map, List.map_map] at hrefs
  have hsame : (shown.map fun x => (⟨x.row.id, x.manual⟩ : AttachedRef)) = uniqueRefs refs :=
    hrefs.trans (List.map_id _)
  rw [hsame]
  exact isFirsts_freshBy AttachedRef.id [] refs

/-- A record that could be revised is answered so.  The store may have gained reference rows
before. -/
theorem revisedAs_of_reviseRecord
    {u : Store}
    (hold : u.records.get? id = some old)
    (links : u.links = s.links)
    (kept : s.KeptBut id t)
    (h : u.reviseRecord today id r = .ok (some a, t)) :
    s.RevisedAs today id old r.details r.modifiedBy a t := by
  obtain ⟨row, found, hrow, rfl, hfound, hanswer, _⟩ := assembled_of_reviseRecord hold h
  cases hanswer
  obtain ⟨htitle, hdetails, hmodified, hupdated, hcreated, hcreator⟩ := record_of_revision hrow
  have hget : (u.revised id row r.attached).records.get? id = some row := by
    simp [revised]
  have hshows := shows_of_assemble hfound
  exact
    { readBack := by
        rw [loadRecord_of_some hget, hfound]
        rfl
      ofId := hshows.ofId
      title := by rw [hshows.details, htitle]
      details := by rw [hshows.details, ← hdetails]
      modifiedBy := by rw [hshows.modifiedBy, hmodified]
      updated := hshows.updated.trans hupdated
      created := hshows.created.trans hcreated
      creator := hshows.creator.trans hcreator
      links := by
        rw [hshows.links, linksOf, ← links]
        rfl
      kept := kept }

/-- A revised record points at the rows that the revision tells. -/
theorem refs_of_reviseRecord
    (hold : s.records.get? id = some old)
    (h : s.reviseRecord today id r = .ok (some a, t)) (d : DirectKind) :
    s.lookup? (.direct d) (r.refs.get d) = some (a.refs.get d) := by
  obtain ⟨row, found, hrow, rfl, hfound, hanswer, _⟩ := assembled_of_reviseRecord hold h
  cases hanswer
  rw [← refs_of_toStorable_revision hrow]
  exact refs_of_assemble hfound d

end Revising

section Resubmitting

variable {s t : Store} {today : Date} {id : String} {old : RecordRow} {sub : Resubmission}
  {a : Aggregate}

/-- Rows that are shown under the ids of keys have these keys. -/
theorem map_keys_of_map_ids
    {keys : Table Int (NaturalKey String)} {shown : List AttachedRow}
    {rows : List (AttachedCandidate String)}
    (found : ∀ x ∈ shown, keys.get? x.row.id = some x.row.key)
    (held : ∀ c ∈ rows, c.row.key ∈ keys.values)
    (ids : shown.map (fun x => (x.row.id, x.manual))
      = rows.map fun c => (keys.idFor c.row.key, c.manual)) :
    shown.map (fun x => (x.row.key, x.manual)) = rows.map fun c => (c.row.key, c.manual) := by
  induction rows generalizing shown with
  | nil =>
      rw [List.map_eq_nil_iff.1 ids]
      rfl
  | cons c rows ih =>
      obtain ⟨x, rest, rfl, hx, hrest⟩ := List.map_eq_cons_iff.1 ids
      obtain ⟨hid, hmanual⟩ := Prod.mk.inj hx
      have hkey := found x (by simp)
      rw [hid, Table.get?_idFor (held c (by simp))] at hkey
      rw [List.map_cons, List.map_cons, ← Option.some.inj hkey, hmanual,
        ih (fun y hy => found y (List.mem_cons_of_mem x hy))
          (fun d hd => held d (List.mem_cons_of_mem c hd)) hrest]

/-- A resubmitted record points at rows of the keys that are given, and at the unknown rows
otherwise. -/
theorem refs_of_resubmit
    (found : s.records.contains id = true)
    (h : s.resubmit today id sub = .ok (some a, t)) (d : DirectKind) :
    (sub.direct.get d = none → (a.refs.get d).id = unknownId) ∧
      ∀ c, sub.direct.get d = some c → (a.refs.get d).key.wide = c.key := by
  obtain ⟨old, hold⟩ := s.records.contains_iff.1 found
  obtain ⟨direct, attached, hdirect, _, hrevise⟩ := revised_of_resubmit found h
  have hrefs := refs_of_reviseRecord (s := s.enrolNamed _) hold hrevise d
  have hkey := key_of_storableDirect hdirect d
  simp only [Resubmission.revision, PerDirect.get_ofFn] at hrefs
  generalize hnamed :
    namedKeys direct ⟨attached.genre.getD [], attached.idol.getD []⟩ = named at hrefs
  obtain ⟨hget, hid⟩ := lookup?_eq_some_iff.1 hrefs
  constructor
  · intro hnone
    rw [hnone] at hkey
    have hnone' : direct.get d = none := by simpa using hkey.symm
    rw [hid, hnone']
    rfl
  · intro c hc
    rw [hc] at hkey
    cases hc' : direct.get d with
    | none =>
        rw [hc'] at hkey
        cases hkey
    | some c' =>
        have hmem : c'.key ∈ named (.direct d) := by
          rw [← hnamed]
          simp [namedKeys, hc']
        have hheld : c'.key ∈ ((s.enrolNamed named).keys (.direct d)).values := by
          rw [keys_enrolNamed]
          exact Table.mem_values_enrolAll.2 (Or.inr hmem)
        rw [hc'] at hget hkey
        rw [show namedId ((s.enrolNamed named).keys (.direct d)) (some c')
          = ((s.enrolNamed named).keys (.direct d)).idFor c'.key from rfl,
          Table.get?_idFor hheld] at hget
        rw [← Option.some.inj hget]
        exact (Option.some.inj hkey).symm

/-- Of what is given, a resubmitted record has the first attached row of each key; of what is not,
it has what it had. -/
theorem attached_of_resubmit
    (found : s.records.contains id = true)
    (h : s.resubmit today id sub = .ok (some a, t)) (k : AttachedKind) :
    (sub.attached.get k = none → a.attached.get k = s.attachedRows id k) ∧
      ∀ rows, sub.attached.get k = some rows →
        (a.attached.get k).map (fun x => (x.row.key.wide, x.manual))
          = (firstBy (fun x => x.row.key) rows).map fun x => (x.row.key, x.manual) := by
  obtain ⟨old, hold⟩ := s.records.contains_iff.1 found
  obtain ⟨direct, attached, _, hattached, hrevise⟩ := revised_of_resubmit found h
  have hstored := hattached k
  generalize hnamed :
    namedKeys direct ⟨attached.genre.getD [], attached.idol.getD []⟩ = named at hrevise
  obtain ⟨hrows, hkept, hgiven⟩ :=
    attached_of_reviseRecord (s := s.enrolNamed named) hold hrevise k
  simp only [Resubmission.revision, PerAttached.get_ofFn] at hkept hgiven
  have hmentioned : named (.attached k) = ((attached.get k).getD []).map fun x => x.row.key := by
    rw [← hnamed]
    cases k <;> rfl
  constructor
  · intro hnone
    rw [hnone] at hstored
    have hnone' : attached.get k = none := (Except.ok.inj hstored).symm
    have hkeys : (s.enrolNamed named).keys (.attached k) = s.keys (.attached k) := by
      rw [keys_enrolNamed, hmentioned, hnone']
      rfl
    rw [hkept (by rw [hnone']; rfl)]
    unfold attachedRows lookup?
    rw [hkeys]
    rfl
  · intro rows hsome
    rw [hsome] at hstored
    obtain ⟨rows', hrows', hsome'⟩ := map_eq_ok_iff.1 hstored
    rw [← hsome'] at hgiven hmentioned
    have hheld : ∀ c ∈ rows', c.row.key ∈ ((s.enrolNamed named).keys (.attached k)).values := by
      intro c hc
      rw [keys_enrolNamed, hmentioned]
      exact Table.mem_values_enrolAll.2 (Or.inr (List.mem_map.2 ⟨c, hc, rfl⟩))
    have hids := hgiven _ rfl
    rw [uniqueRefs_namedRefs hheld, namedRefs, List.map_map] at hids
    have hkeys := map_keys_of_map_ids
      (fun x hx => (lookup?_eq_some_iff.1 (hrows x hx)).1)
      (fun c hc => hheld c ((freshBy_sublist _ _ _).subset hc)) hids
    have hwide := congrArg (List.map fun x : NaturalKey String × Bool => (x.1.wide, x.2)) hkeys
    rw [List.map_map, List.map_map] at hwide
    rw [firstBy_of_storableRows hrows']
    exact hwide

end Resubmitting

/-- Whatever a store holds, a revision of a record that is answered is read back so: the record has
the contents that are told, with the day as its last change, and keeps when and by whom it was
created, its links, and the attachments of kinds that are not given; of those that are given, it has
the first one to each row.  So has a resubmission, by value: the record points at rows of the keys
that are given, and at the unknown rows otherwise, and has the first row of each key attached. -/
theorem revision_read_back (s : Store) (today : Date) (w : Wide) :
    (∀ r a t, Operation.run today (.reviseRecord w r) s = .ok (.record (some a), t) →
      ∃ id old,
        w = Wide.ofText id ∧ s.records.get? id = some old ∧
        s.RevisedAs today id old r.details r.modifiedBy a t ∧ t.lookups = s.lookups ∧
        (∀ d, (a.refs.get d).id = r.refs.get d) ∧
        ∀ k,
          (r.attached.get k = none → a.attached.get k = s.attachedRows id k) ∧
          ∀ refs, r.attached.get k = some refs →
            IsFirsts AttachedRef.id [] refs
              ((a.attached.get k).map fun x => ⟨x.row.id, x.manual⟩)) ∧
    ∀ sub a t, Operation.run today (.resubmit w sub) s = .ok (.record (some a), t) →
      ∃ id old,
        w = Wide.ofText id ∧ s.records.get? id = some old ∧
        s.RevisedAs today id old sub.details sub.modifiedBy a t ∧
        (∀ d,
          (sub.direct.get d = none → (a.refs.get d).id = unknownId) ∧
          ∀ c, sub.direct.get d = some c → (a.refs.get d).key.wide = c.key) ∧
        ∀ k,
          (sub.attached.get k = none → a.attached.get k = s.attachedRows id k) ∧
          ∀ rows, sub.attached.get k = some rows →
            ∃ kept, IsFirsts (fun x => x.row.key) [] rows kept ∧
              (a.attached.get k).map (fun x => (x.row.key.wide, x.manual))
                = kept.map fun x => (x.row.key, x.manual) := by
  constructor
  · intro r a t hrun
    obtain ⟨id, rfl, hstep⟩ := toStorable_bind_eq_ok_iff.1 hrun
    obtain ⟨⟨found?, u⟩, hrevise, hanswer⟩ := bind_eq_ok_iff.1 hstep
    cases hanswer
    cases hold : s.records.get? id with
    | none =>
        rw [reviseRecord_of_none hold] at hrevise
        cases hrevise
    | some old =>
        have found := s.records.contains_iff.2 ⟨old, hold⟩
        have htouched : s.Touched id t := touched_of_reviseRecord (fun _ => []) found hrevise
        obtain ⟨row, _, ht⟩ := revised_of_reviseRecord hold hrevise
        refine ⟨id, old, rfl, hold, revisedAs_of_reviseRecord hold rfl htouched.keptBut hrevise,
          by rw [ht]; rfl, fun d => ?_, fun k => ?_⟩
        · exact (lookup?_eq_some_iff.1 (refs_of_reviseRecord hold hrevise d)).2
        · obtain ⟨_, hkept, hgiven⟩ := attached_of_reviseRecord hold hrevise k
          exact ⟨hkept, fun refs hrefs => isFirsts_of_map_refs (hgiven refs hrefs)⟩
  · intro sub a t hrun
    rw [run_resubmit] at hrun
    obtain ⟨id, rfl, hstep⟩ := toStorable_bind_eq_ok_iff.1 hrun
    obtain ⟨⟨found?, u⟩, hresubmit, hanswer⟩ := map_eq_ok_iff.1 hstep
    cases hanswer
    cases found : s.records.contains id with
    | false =>
        rw [resubmit_of_not_contains found] at hresubmit
        cases hresubmit
    | true =>
        obtain ⟨old, hold⟩ := s.records.contains_iff.1 found
        have hkept := (touched_of_resubmit hresubmit).keptBut
        obtain ⟨direct, attached, _, _, hrevise⟩ := revised_of_resubmit found hresubmit
        refine ⟨id, old, rfl, hold,
          revisedAs_of_reviseRecord (u := s.enrolNamed _) hold (s.links_enrolNamed _) hkept hrevise,
          refs_of_resubmit found hresubmit, fun k => ?_⟩
        obtain ⟨hkept, hgiven⟩ := attached_of_resubmit found hresubmit k
        exact ⟨hkept, fun rows hrows => ⟨_, isFirsts_freshBy _ [] rows, hgiven rows hrows⟩⟩

/-- A record exchanges its genres for references that repeat, and then for one that is given by
value twice and is new; its links stay, and so do its idols. -/
theorem revisions_read_back_beside_another :
    let row (name : Wide) (manual : Bool) : AttachedCandidate Wide := ⟨{ name }, manual⟩
    let s := seeded.after
      [ (.epoch, .submit "a"
          { direct := ⟨some { name := "Ford" }, none, none, none⟩
            attached := ⟨[row "Drama" true, row "Noir" false], [row "Aki" true]⟩
            links := [{ name := "Cover" }] }),
        (.epoch, .submit "b" { attached := ⟨[row "Drama" true], []⟩ }) ]
    let refs : List AttachedRef := [⟨2, true⟩, ⟨1, false⟩, ⟨2, false⟩]
    let rows := [row "Crime" false, row "Drama" true, row "Crime" true]
    let revise : Operation := .reviseRecord "a"
      { details := { title := "Laura" }, refs := unknownRefs, attached := ⟨some refs, none⟩,
        modifiedBy := "editor" }
    let resubmit : Operation := .resubmit "a"
      { details := { title := "Laura" }, attached := ⟨some rows, none⟩, modifiedBy := "editor" }
    let after (op : Operation) : Store := (op.run .epoch).store s
    let attached (id : Int) (name : String) (manual : Bool) : AttachedRow :=
      ⟨⟨id, ⟨name, "", false⟩⟩, manual⟩
    let shown (genres : List AttachedRow) : Aggregate :=
      { id := "a"
        details := { title := "Laura" }
        refs := .ofFn fun d => ⟨unknownId, unknownKey d⟩
        attached := ⟨genres, [attached 1 "Aki" true]⟩
        links := [(1, ⟨"a", "Cover", .unknown, .epoch, "", false⟩)]
        created := .epoch
        updated := .epoch
        creator := defaultEditor
        modifiedBy := "editor" }
    let a := shown [attached 2 "Noir" true, attached 1 "Drama" false]
    let b := shown [attached 3 "Crime" false, attached 1 "Drama" true]
    (revise.run .epoch s = .ok (.record (some a), after revise) ∧
      (∃ old, s.RevisedAs .epoch "a" old { title := "Laura" } "editor" a (after revise)) ∧
      IsFirsts AttachedRef.id [] refs [⟨2, true⟩, ⟨1, false⟩]) ∧
      resubmit.run .epoch s = .ok (.record (some b), after resubmit) ∧
      ∃ old, s.RevisedAs .epoch "a" old { title := "Laura" } "editor" b (after resubmit) := by
  intro row s refs rows revise resubmit after attached shown a b
  have hrevise : revise.run .epoch s = .ok (.record (some a), after revise) :=
    Action.eq_ok_of_answer (by decide)
  have hresubmit : resubmit.run .epoch s = .ok (.record (some b), after resubmit) :=
    Action.eq_ok_of_answer (by decide)
  obtain ⟨hrevised, hresubmitted⟩ := revision_read_back s .epoch "a"
  obtain ⟨id, old, hid, _, has, _, _, hattached⟩ := hrevised _ _ _ hrevise
  cases Wide.ofText_inj.1 (hid : Wide.ofText "a" = Wide.ofText id)
  obtain ⟨id, old', hid, _, has', _⟩ := hresubmitted _ _ _ hresubmit
  cases Wide.ofText_inj.1 (hid : Wide.ofText "a" = Wide.ofText id)
  exact ⟨⟨hrevise, ⟨old, has⟩, (hattached .genre).2 refs rfl⟩, hresubmit, old', has'⟩

end Store
end CardCatalog
