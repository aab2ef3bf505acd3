import CardCatalog.Proofs.Rewriting

/-!
# What operations on a record leave

An operation on the record of an id does one of few things to the store, if it answers.  It leaves
the store as it is; it writes the row of the record and adds attachments and links to it; it
writes the row and exchanges attachments; or it deletes the record.  The rows that a submission
names are enrolled first.

Results: what the operations leave one by one (`admitted_of_createRecord`,
`revised_of_reviseRecord`, `created_of_submit`, `revised_of_resubmit`), and
what they leave all in all (`touched_of_run`).
-/

namespace CardCatalog

open Calendar (Date)
open Text (Wide)

namespace Store

section Attaching

variable {id : String} {a : AttachedKind}

/-- Rows that could be attached stand behind the others in their order. -/
theorem eq_of_attachAll
    {s t : Store} {refs : List AttachedRef}
    (h : refs.foldlM (fun s r => s.attachRow id a r) s = .ok t) :
    t = s.setAttachments a
      ((s.attachments.get a).pushAll (refs.map fun r => ⟨id, r.id, r.manual⟩)) := by
  induction refs generalizing s with
  | nil =>
      cases h
      exact (setAttachments_get t a).symm
  | cons r refs ih =>
      rw [List.foldlM_cons] at h
      obtain ⟨u, hrow, hrest⟩ := bind_eq_ok_iff.1 h
      obtain ⟨_, _, _, rfl⟩ := attachRow_eq_ok_iff.1 hrow
      rw [ih hrest]
      simp [Table.pushAll]

theorem eq_of_attach
    {s t : Store} {refs : List AttachedRef}
    (h : s.attach id a refs = .ok t) :
    t = s.setAttachments a
      ((s.attachments.get a).pushAll
        ((uniqueRefs refs).map fun r => ⟨id, r.id, r.manual⟩)) :=
  eq_of_attachAll h

/-- Rows that could be attached one after the other are there, under ids that can be stored. -/
theorem attachable_of_attachAll
    {s t : Store} {refs : List AttachedRef}
    (h : refs.foldlM (fun s r => s.attachRow id a r) s = .ok t) :
    ∀ r ∈ refs, Number.InRange r.id ∧ (s.keys (.attached a)).contains r.id = true := by
  induction refs generalizing s with
  | nil =>
      intro r hr
      cases hr
  | cons r refs ih =>
      rw [List.foldlM_cons] at h
      obtain ⟨u, hrow, hrest⟩ := bind_eq_ok_iff.1 h
      obtain ⟨hrange, _, hfound, rfl⟩ := attachRow_eq_ok_iff.1 hrow
      intro x hx
      rcases List.mem_cons.1 hx with rfl | hx
      · exact ⟨hrange, hfound⟩
      · exact ih hrest x hx

theorem attachable_of_attach
    {s t : Store} {refs : List AttachedRef}
    (h : s.attach id a refs = .ok t) :
    ∀ r ∈ refs, Number.InRange r.id ∧ (s.keys (.attached a)).contains r.id = true := by
  intro r hr
  obtain ⟨x, hx, hid⟩ := List.mem_map.1 (mem_map_uniqueRefs hr)
  rw [← hid]
  exact attachable_of_attachAll h x hx

end Attaching

section Records

variable {s t : Store} {id : String} {today : Date}

/-- A record that could be created finds the rows that it refers to, and has what it is drafted
with. -/
theorem admitted_of_createRecord
    {d : RecordDraft}
    (fresh : s.records.contains id = false)
    (h : s.createRecord today id d = .ok t) :
    s.Admits d ∧
      ∃ row links,
        d.toStorable today = .ok row ∧
        d.links.mapM (LinkDraft.toStorable id) = .ok links ∧
        t = s.created id row d.attached links := by
  rw [createRecord_of_not_contains fresh] at h
  obtain ⟨row, hrow, h⟩ := bind_eq_ok_iff.1 h
  obtain ⟨_, hresolves, h⟩ := bind_eq_ok_iff.1 h
  obtain ⟨t₁, h₁, h⟩ := bind_eq_ok_iff.1 h
  obtain ⟨t₂, h₂, h₃⟩ := bind_eq_ok_iff.1 h
  obtain ⟨links, hlinks, h₂⟩ := bind_eq_ok_iff.1 h₂
  cases h₂
  have hkeys : t₁.keys (.attached .genre) = s.keys (.attached .genre) :=
    keys_of_attach h₁ (.attached .genre)
  have hidols := attachable_of_attach h₁
  have hgenres := attachable_of_attach h₃
  have hattachable : ∀ a, ∀ r ∈ d.attached.get a,
      Number.InRange r.id ∧ (s.keys (.attached a)).contains r.id = true := by
    intro a
    cases a with
    | genre =>
        rw [← hkeys]
        exact hgenres
    | idol => exact hidols
  refine ⟨⟨fun k => ?_, fun a r hr => (hattachable a r hr).1,
    fun a r hr => (hattachable a r hr).2⟩, row, links, hrow, hlinks, ?_⟩
  · exact require_eq_ok_iff.1 hresolves k (DirectKind.mem_all k)
  · rw [eq_of_attach h₃, eq_of_attach h₁]
    rfl

theorem created_of_createRecord
    {d : RecordDraft}
    (fresh : s.records.contains id = false)
    (h : s.createRecord today id d = .ok t) :
    ∃ row links,
      d.toStorable today = .ok row ∧
      d.links.mapM (LinkDraft.toStorable id) = .ok links ∧
      t = s.created id row d.attached links :=
  (admitted_of_createRecord fresh h).2

/-- A record that could be revised has what the revision tells, with rows that are there, and is
answered as it is put together then. -/
theorem assembled_of_reviseRecord
    {r : RecordRevision} {old : RecordRow} {found? : Option Aggregate}
    (hold : s.records.get? id = some old)
    (h : s.reviseRecord today id r = .ok (found?, t)) :
    ∃ row found,
      r.toStorable today old = .ok row ∧ t = s.revised id row r.attached ∧
      t.assemble id row = .ok found ∧ found? = some found ∧
      ∀ a, ∀ x ∈ uniqueRefs ((r.attached.get a).getD []),
        (s.keys (.attached a)).contains x.id = true := by
  rw [reviseRecord_of_some hold] at h
  obtain ⟨row, hrow, h⟩ := bind_eq_ok_iff.1 h
  obtain ⟨_, _, h⟩ := bind_eq_ok_iff.1 h
  obtain ⟨t₁, h₁, h⟩ := bind_eq_ok_iff.1 h
  obtain ⟨t₂, h₂, h⟩ := bind_eq_ok_iff.1 h
  obtain ⟨found, hfound, h⟩ := bind_eq_ok_iff.1 h
  cases h
  have htarget : ∀ a, ∀ x ∈ uniqueRefs ((r.attached.get a).getD []),
      (s.keys (.attached a)).contains x.id = true := by
    intro a x hx
    rw [← s.keys_clearGiven id r.attached]
    cases a with
    | genre =>
        have hkeys := keys_of_attach h₁ (.attached .genre)
        exact hkeys ▸ (attachable_of_attach h₂ x (mem_of_mem_uniqueRefs hx)).2
    | idol => exact (attachable_of_attach h₁ x (mem_of_mem_uniqueRefs hx)).2
  refine ⟨row, found, hrow, ?_, hfound, rfl, htarget⟩
  have hexchanged (a : AttachedKind) :
      ((s.clearGiven id r.attached).attachments.get a).pushAll
          ((uniqueRefs ((r.attached.get a).getD [])).map fun x => ⟨id, x.id, x.manual⟩)
        = exchanged (s.attachments.get a) id (r.attached.get a) := by
    rw [attachments_clearGiven]
    cases r.attached.get a <;> rfl
  rw [eq_of_attach h₂, eq_of_attach h₁]
  refine ext_keys (fun k => ?_) ?_ ?_ ?_
  · exact s.keys_clearGiven id r.attached k
  · simp [revised]
  · refine PerAttached.ext_get fun a => ?_
    simp only [revised, PerAttached.get_ofFn, ← hexchanged]
    cases a <;> rfl
  · simp [revised]

theorem revised_of_reviseRecord
    {r : RecordRevision} {old : RecordRow} {found? : Option Aggregate}
    (hold : s.records.get? id = some old)
    (h : s.reviseRecord today id r = .ok (found?, t)) :
    ∃ row, r.toStorable today old = .ok row ∧ t = s.revised id row r.attached := by
  obtain ⟨row, _, hrow, ht, _⟩ := assembled_of_reviseRecord hold h
  exact ⟨row, hrow, ht⟩

end Records

section Submissions

variable {s t : Store} {id : String} {today : Date}

/-- A new record is created from a submission with the rows that are enrolled for it. -/
theorem created_of_submit
    {sub : Submission} {found? : Option Aggregate}
    (fresh : s.records.contains id = false)
    (h : s.submit today id sub = .ok (found?, t)) :
    ∃ direct attached,
      storableDirect sub.direct = .ok direct ∧
      (∀ a, storableRows (sub.attached.get a) = .ok (attached.get a)) ∧
      let u := s.enrolNamed (namedKeys direct attached)
      u.createRecord today id
          (sub.draft (.ofFn fun d => namedId (u.keys (.direct d)) (direct.get d))
            (.ofFn fun a => namedRefs (u.keys (.attached a)) (attached.get a)))
        = .ok t := by
  rw [submit_of_not_contains fresh] at h
  dsimp only at h
  obtain ⟨direct, hdirect, h⟩ := bind_eq_ok_iff.1 h
  obtain ⟨genres, hgenres, h⟩ := bind_eq_ok_iff.1 h
  obtain ⟨idols, hidols, h⟩ := bind_eq_ok_iff.1 h
  obtain ⟨t', hcreate, h⟩ := bind_eq_ok_iff.1 h
  obtain ⟨_, _, h⟩ := bind_eq_ok_iff.1 h
  cases h
  obtain ⟨hrefs, hgenreRefs, hidolRefs, hstore⟩ := s.enrolments_eq direct ⟨genres, idols⟩
  refine ⟨direct, ⟨genres, idols⟩, hdirect, fun a => ?_, ?_⟩
  · cases a
    · exact hgenres
    · exact hidols
  · simp only at hrefs hgenreRefs hidolRefs hstore
    rw [hstore, hrefs, hgenreRefs, hidolRefs] at hcreate
    exact hcreate

/-- If the rows of a resubmission can be stored, they are enrolled, and then the record is
revised. -/
theorem resubmit_eq_reviseRecord
    {sub : Resubmission} {direct : PerDirect (Option (Candidate String))}
    {attached : PerAttached (Option (List (AttachedCandidate String)))}
    (found : s.records.contains id = true)
    (hdirect : storableDirect sub.direct = .ok direct)
    (hattached : ∀ a, (sub.attached.get a).mapM storableRows = .ok (attached.get a)) :
    let u := s.enrolNamed
      (namedKeys direct ⟨attached.genre.getD [], attached.idol.getD []⟩)
    s.resubmit today id sub
      = u.reviseRecord today id
          (sub.revision (.ofFn fun d => namedId (u.keys (.direct d)) (direct.get d))
            (.ofFn fun a => (attached.get a).map (namedRefs (u.keys (.attached a))))) := by
  have hgenre : sub.attached.genre.mapM storableRows = .ok attached.genre := hattached .genre
  have hidol : sub.attached.idol.mapM storableRows = .ok attached.idol := hattached .idol
  obtain ⟨hrefs, hgenreRefs, hidolRefs, hstore⟩ :=
    s.enrolments_eq direct ⟨attached.genre.getD [], attached.idol.getD []⟩
  rw [resubmit_of_contains found, hdirect, ok_bind_eq, hgenre, ok_bind_eq, hidol, ok_bind_eq]
  simp only [enrolAttached?_eq] at hrefs hgenreRefs hidolRefs hstore ⊢
  rw [hstore, hrefs, hgenreRefs, hidolRefs, map_const_getD, map_const_getD]
  rfl

/-- A record is revised by a resubmission with the rows that are enrolled for it. -/
theorem revised_of_resubmit
    {sub : Resubmission} {found? : Option Aggregate}
    (found : s.records.contains id = true)
    (h : s.resubmit today id sub = .ok (found?, t)) :
    ∃ (direct : PerDirect (Option (Candidate String)))
      (attached : PerAttached (Option (List (AttachedCandidate String)))),
      storableDirect sub.direct = .ok direct ∧
      (∀ a, (sub.attached.get a).mapM storableRows = .ok (attached.get a)) ∧
      let u := s.enrolNamed
        (namedKeys direct ⟨attached.genre.getD [], attached.idol.getD []⟩)
      u.reviseRecord today id
          (sub.revision (.ofFn fun d => namedId (u.keys (.direct d)) (direct.get d))
            (.ofFn fun a => (attached.get a).map (namedRefs (u.keys (.attached a)))))
        = .ok (found?, t) := by
  have hsteps := h
  rw [resubmit_of_contains found] at hsteps
  obtain ⟨direct, hdirect, hsteps⟩ := bind_eq_ok_iff.1 hsteps
  obtain ⟨genres?, hgenres, hsteps⟩ := bind_eq_ok_iff.1 hsteps
  obtain ⟨idols?, hidols, _⟩ := bind_eq_ok_iff.1 hsteps
  have hattached : ∀ a,
      (sub.attached.get a).mapM storableRows = .ok (PerAttached.get ⟨genres?, idols?⟩ a) := by
    intro a
    cases a
    · exact hgenres
    · exact hidols
  rw [resubmit_eq_reviseRecord found hdirect hattached] at h
  exact ⟨direct, ⟨genres?, idols?⟩, hdirect, hattached, h⟩

end Submissions

/-- What becomes of a store by an operation on the record of an id. -/
inductive Touched (s : Store) (id : String) : Store → Prop
  | unchanged : Touched s id s
  /-- The row of the record is written, and attachments and links are added to it. -/
  | written
      (named : Kind → List (NaturalKey String)) (row : RecordRow)
      (attached : PerAttached (List AttachedRef)) {links : List LinkRow}
      (owner : ∀ l ∈ links, l.record = id) :
      Touched s id ((s.enrolNamed named).created id row attached links)
  /-- The row of the record is written, and its attachments are exchanged. -/
  | revised
      (named : Kind → List (NaturalKey String)) (row : RecordRow)
      (attached : PerAttached (Option (List AttachedRef))) :
      Touched s id ((s.enrolNamed named).revised id row attached)
  | deleted : Touched s id (s.deleteRecord id).2

end Store

/-- The id of the record that an operation changes, if it changes one. -/
def Operation.recordId? : Operation → Option Wide
  | .createRecord w _ | .reviseRecord w _ | .addLinks w _ | .deleteRecord w | .submit w _
  | .resubmit w _ => some w
  | _ => none

theorem Operation.recordId?_of_isReading
    {op : Operation}
    (h : op.isReading = true) :
    op.recordId? = none := by
  cases op <;> first | rfl | cases h

namespace Store

section Operations

variable {s t : Store} {id : String} {today : Date}

/-- Stored links are links of the record that they are stored for. -/
theorem owner_of_links
    {drafts : List LinkDraft} {links : List LinkRow}
    (h : drafts.mapM (LinkDraft.toStorable id) = .ok links) :
    ∀ l ∈ links, l.record = id := by
  intro l hl
  obtain ⟨_, _, hstored⟩ := mem_of_mapM_eq_ok h hl
  exact record_of_toStorable hstored

/-- Creating a record writes it after whatever is enrolled. -/
theorem touched_of_createRecord
    (named : Kind → List (NaturalKey String)) {d : RecordDraft}
    (fresh : s.records.contains id = false)
    (h : (s.enrolNamed named).createRecord today id d = .ok t) :
    s.Touched id t := by
  obtain ⟨row, links, _, hlinks, rfl⟩ :=
    created_of_createRecord (s := s.enrolNamed named) fresh h
  exact .written named row d.attached (owner_of_links hlinks)

theorem touched_of_submit
    {sub : Submission} {found? : Option Aggregate}
    (h : s.submit today id sub = .ok (found?, t)) :
    s.Touched id t := by
  cases hid : s.records.contains id with
  | true =>
      rw [submit_of_contains hid] at h
      obtain ⟨_, _, h⟩ := map_eq_ok_iff.1 h
      cases h
      exact .unchanged
  | false =>
      obtain ⟨direct, attached, _, _, h⟩ := created_of_submit hid h
      exact touched_of_createRecord (namedKeys direct attached) hid h

/-- Revising a record writes it after whatever is enrolled. -/
theorem touched_of_reviseRecord
    (named : Kind → List (NaturalKey String)) {r : RecordRevision} {found? : Option Aggregate}
    (found : s.records.contains id = true)
    (h : (s.enrolNamed named).reviseRecord today id r = .ok (found?, t)) :
    s.Touched id t := by
  obtain ⟨old, hold⟩ := s.records.contains_iff.1 found
  obtain ⟨row, _, rfl⟩ := revised_of_reviseRecord (s := s.enrolNamed named) hold h
  exact .revised named row r.attached

theorem touched_of_resubmit
    {sub : Resubmission} {found? : Option Aggregate}
    (h : s.resubmit today id sub = .ok (found?, t)) :
    s.Touched id t := by
  cases hid : s.records.contains id with
  | true =>
      obtain ⟨direct, attached, _, _, h⟩ := revised_of_resubmit hid h
      exact touched_of_reviseRecord _ hid h
  | false =>
      rw [resubmit_of_not_contains hid] at h
      cases h
      exact .unchanged

theorem touched_of_addLinks
    {links : List LinkDraft} {count? : Option Nat}
    (h : s.addLinks today id links = .ok (count?, t)) :
    s.Touched id t := by
  obtain ⟨_, _, rfl⟩ | ⟨old, rows, _, hrows, _, rfl⟩ := linked_of_addLinks h
  · exact .unchanged
  · cases rows with
    | nil => exact .unchanged
    | cons l rows =>
        exact .written (fun _ => []) (linkedRow today old) ⟨[], []⟩ (owner_of_links hrows)

/-- An operation that changes a record touches the store at its id, and nowhere else. -/
theorem touched_of_run
    {op : Operation} {w : Wide} {a : Answer}
    (hw : op.recordId? = some w)
    (h : op.run today s = .ok (a, t)) :
    ∃ id, w = Wide.ofText id ∧ s.Touched id t := by
  cases ran_of_run h with
  | read reading _ =>
      rw [Operation.recordId?_of_isReading reading] at hw
      cases hw
  | enrol _ | amend _ | remove _ => cases hw
  | @createRecord _ id _ _ stored created =>
      cases hw
      refine ⟨id, toStorable_eq_ok_iff.1 stored, ?_⟩
      cases hid : s.records.contains id with
      | true =>
          rw [createRecord_of_contains hid] at created
          cases created
          exact .unchanged
      | false => exact touched_of_createRecord (fun _ => []) hid created
  | @reviseRecord _ id _ _ _ stored revised =>
      cases hw
      refine ⟨id, toStorable_eq_ok_iff.1 stored, ?_⟩
      cases hid : s.records.get? id with
      | none =>
          rw [reviseRecord_of_none hid] at revised
          cases revised
          exact .unchanged
      | some old =>
          have found := s.records.contains_iff.2 ⟨old, hid⟩
          exact touched_of_reviseRecord (fun _ => []) found revised
  | addLinks stored added =>
      cases hw
      exact ⟨_, toStorable_eq_ok_iff.1 stored, touched_of_addLinks added⟩
  | deleteRecord stored =>
      cases hw
      exact ⟨_, toStorable_eq_ok_iff.1 stored, .deleted⟩
  | submit stored submitted =>
      cases hw
      exact ⟨_, toStorable_eq_ok_iff.1 stored, touched_of_submit submitted⟩
  | resubmit stored resubmitted =>
      cases hw
      exact ⟨_, toStorable_eq_ok_iff.1 stored, touched_of_resubmit resubmitted⟩

end Operations
end Store
end CardCatalog
