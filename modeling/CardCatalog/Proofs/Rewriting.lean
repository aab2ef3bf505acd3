import CardCatalog.Proofs.Writing

/-!
# Rewriting a record

A resubmission of a record that exists replaces its row, and its attachments of the kinds
that are given.  These are detached first, so what is attached then cannot be there already.
As with new records, in a sound store with room nothing but the resubmission itself can stop
it.

Results: what a revision of a record leaves (`reviseRecord_eq`), and a resubmission
(`resubmit_eq`).
-/

namespace CardCatalog

open Calendar (Date)
open Text (Wide)

section Rows

/-- The rows that are stored for a resubmission, with what they refer to by value. -/
structure ResubmissionRows where
  direct : PerDirect (Option (Candidate String))
  attached : PerAttached (Option (List (AttachedCandidate String)))
  record : RecordRow

/-- The rows of a resubmission, to be stored in place of an old row. -/
def Resubmission.toStorable
    (sub : Resubmission) (today : Date) (old : RecordRow) : Storable ResubmissionRows := do
  let direct ← storableDirect sub.direct
  let genres? ← sub.attached.genre.mapM storableRows
  let idols? ← sub.attached.idol.mapM storableRows
  let record ← (sub.revision unknownRefs ⟨none, none⟩).toStorable today old
  .ok { direct, attached := ⟨genres?, idols?⟩, record }

/-- The keys that the rows of a resubmission name. -/
def ResubmissionRows.named (rows : ResubmissionRows) : Kind → List (NaturalKey String) :=
  namedKeys rows.direct ⟨rows.attached.genre.getD [], rows.attached.idol.getD []⟩

theorem map_const_getD {α β : Type} (f : α → β) (x? : Option α) (a : α) :
    (x?.map fun _ => f (x?.getD a)) = x?.map f := by
  cases x? <;> rfl

/-- The references of a revision matter to its row only as they stand in it. -/
theorem toStorable_revision_eq
    (sub : Resubmission) (today : Date) (old : RecordRow) {refs : PerDirect Int}
    (attached : PerAttached (Option (List AttachedRef)))
    (range : ∀ d, Number.InRange (refs.get d)) :
    (sub.revision refs attached).toStorable today old
      = ((sub.revision unknownRefs ⟨none, none⟩).toStorable today old).map fun row =>
          { row with refs := refs } := by
  have hrefs : checkRange (sub.details.integers ++ DirectKind.all.map refs.get)
      = checkRange (sub.details.integers ++ DirectKind.all.map unknownRefs.get) :=
    checkRange_refs range
  simp only [RecordRevision.toStorable, Resubmission.revision, map_bind_eq, hrefs]
  rfl

end Rows

namespace Store

section Revising

variable {s : Store} {id : String} {today : Date}

/-- The attachments of a record are exchanged, if new ones are given. -/
def exchanged
    (rows : Table Int Attachment) (id : String) (given? : Option (List AttachedRef)) :
    Table Int Attachment :=
  match given? with
  | none => rows
  | some refs =>
    (rows.filter fun _ x => x.record ≠ id).pushAll
      ((uniqueRefs refs).map fun r => ⟨id, r.id, r.manual⟩)

/-- The store in which a record is revised. -/
def revised
    (s : Store) (id : String) (row : RecordRow)
    (attached : PerAttached (Option (List AttachedRef))) : Store :=
  { s with
    records := s.records.put id row
    attachments := .ofFn fun a => exchanged (s.attachments.get a) id (attached.get a) }

theorem attachments_clearGiven
    (s : Store) (id : String) (given : PerAttached (Option (List AttachedRef)))
    (a : AttachedKind) :
    (s.clearGiven id given).attachments.get a
      = if (given.get a).isSome then (s.attachments.get a).filter fun _ x => x.record ≠ id
        else s.attachments.get a := by
  by_cases hgenre : (given.get .genre).isSome = true <;>
    by_cases hidol : (given.get .idol).isSome = true <;>
    cases a <;> simp [clearGiven, hgenre, hidol, detach]

@[simp] theorem links_clearGiven
    (s : Store) (id : String) (given : PerAttached (Option (List AttachedRef))) :
    (s.clearGiven id given).links = s.links := by
  simp only [clearGiven]
  split <;> split <;> rfl

/-- Where the attachments of a record are cleared that are given, the new ones are attached. -/
theorem attach_clearGiven
    (s : Store) (given : PerAttached (Option (List AttachedRef)))
    {t : Store} {a : AttachedKind}
    (cleared : t.attachments.get a = (s.clearGiven id given).attachments.get a)
    (range : ∀ r ∈ (given.get a).getD [], Number.InRange r.id)
    (target : ∀ r ∈ (given.get a).getD [], (t.keys (.attached a)).contains r.id = true) :
    t.attach id a ((given.get a).getD [])
      = .ok (t.setAttachments a (exchanged (s.attachments.get a) id (given.get a))) := by
  rw [attachments_clearGiven] at cleared
  cases hgiven : given.get a with
  | none =>
      rw [hgiven, if_neg (by simp)] at cleared
      unfold exchanged
      rw [← cleared, setAttachments_get]
      rfl
  | some refs =>
      rw [hgiven] at cleared range target
      rw [if_pos (by simp)] at cleared
      have hfree : ∀ e ∈ (t.attachments.get a).rows, e.2.record ≠ id := by
        intro e he
        rw [cleared] at he
        exact of_decide_eq_true (List.mem_filter.1 he).2
      have hattach := attach_eq range target hfree
      rw [cleared] at hattach
      exact hattach

/-- Where the attachments of a record are cleared that are given, its row is written and the
new ones of both kinds are attached. -/
theorem attachGiven_eq
    (s : Store) (id : String) (row : RecordRow)
    {given : PerAttached (Option (List AttachedRef))}
    (range : ∀ a, ∀ x ∈ (given.get a).getD [], Number.InRange x.id)
    (target : ∀ a, ∀ x ∈ (given.get a).getD [], (s.keys (.attached a)).contains x.id = true) :
    let t := s.clearGiven id given
    (({ t with records := t.records.put id row } : Store).attach id .idol
        ((given.get .idol).getD []) >>= fun t => t.attach id .genre ((given.get .genre).getD []))
      = .ok (s.revised id row given) := by
  intro t
  generalize hwrite : ({ t with records := t.records.put id row } : Store) = u
  have hattachments : ∀ a, u.attachments.get a = t.attachments.get a := by
    intro a
    rw [← hwrite]
  have hkeys : ∀ k, u.keys k = s.keys k := by
    intro k
    rw [← hwrite, keys_records]
    exact s.keys_clearGiven id given k
  have htarget : ∀ a, ∀ x ∈ (given.get a).getD [],
      (u.keys (.attached a)).contains x.id = true := by
    intro a x hx
    rw [hkeys]
    exact target a x hx
  have hidols := attach_clearGiven s given (hattachments .idol) (range .idol) (htarget .idol)
  generalize hattach : u.setAttachments .idol
    (exchanged (s.attachments.get .idol) id (given.get .idol)) = v at hidols
  have hgenres := attach_clearGiven s given (t := v) (a := .genre)
    (by rw [← hattach, attachments_setAttachments, if_neg (by decide), hattachments])
    (range .genre)
    (by rw [← hattach]; exact htarget .genre)
  have hrevised : v.setAttachments .genre
      (exchanged (s.attachments.get .genre) id (given.get .genre)) = s.revised id row given := by
    refine ext_keys ?_ ?_ ?_ ?_
    · intro k
      rw [← hattach]
      exact hkeys k
    · rw [← hattach, ← hwrite]
      simp [t, revised]
    · refine PerAttached.ext_get fun a => ?_
      rw [← hattach]
      cases a <;> simp [revised]
    · rw [← hattach, ← hwrite]
      simp [t, revised]
  rw [hidols, ok_bind_eq, hgenres, hrevised]

/-- A record is revised as it is told, if this can be stored and the rows exist that it refers
to. -/
theorem reviseRecord_eq
    {r : RecordRevision} {old : RecordRow}
    (hold : s.records.get? id = some old)
    (refs : ∀ d, (s.keys (.direct d)).contains (r.refs.get d) = true)
    (range : ∀ a, ∀ x ∈ (r.attached.get a).getD [], Number.InRange x.id)
    (target : ∀ a, ∀ x ∈ (r.attached.get a).getD [],
      (s.keys (.attached a)).contains x.id = true) :
    s.reviseRecord today id r = (do
      let row ← r.toStorable today old
      let found? ← (s.revised id row r.attached).loadRecord id
      .ok (found?, s.revised id row r.attached)) := by
  have hresolves :
      require
        (∀ k ∈ DirectKind.all, r.refs.get k = old.refs.get k
          ∨ ((s.clearGiven id r.attached).keys (.direct k)).contains (r.refs.get k) = true)
        .missingParent = .ok () := by
    refine require_eq_ok_iff.2 fun k _ => Or.inr ?_
    rw [keys_clearGiven]
    exact refs k
  rw [reviseRecord_of_some hold]
  refine bind_congr fun row => ?_
  rw [hresolves, ok_bind_eq]
  have hattach := attachGiven_eq s id row range target
  -- what is revised is read back on both sides
  have hread := congrArg (· >>= fun t => t.assemble id row >>= fun found =>
    (Except.ok (some found, t) : Except Fault (Option Aggregate × Store))) hattach
  simp only [bind_assoc] at hread
  refine hread.trans ?_
  have hrow : (s.revised id row r.attached).records.get? id = some row := by
    simp [revised]
  rw [ok_bind_eq, loadRecord_of_some hrow]
  cases (s.revised id row r.attached).assemble id row <;> rfl

end Revising

section Resubmitting

variable {s : Store} {today : Date} {id : String}

/-- The store in which a record is written anew with the rows that it names. -/
def rewritten (s : Store) (id : String) (rows : ResubmissionRows) : Store :=
  let t := s.enrolNamed rows.named
  t.revised id
    { rows.record with
      refs := .ofFn fun d => namedId (t.keys (.direct d)) (rows.direct.get d) }
    (.ofFn fun a => (rows.attached.get a).map (namedRefs (t.keys (.attached a))))

/-- A revision of a record is written with the rows that it names, if all the rows can be
stored. -/
theorem reviseRecord_enrolNamed_eq
    (today : Date) (sub : Resubmission)
    {old : RecordRow} (direct : PerDirect (Option (Candidate String)))
    (attached : PerAttached (Option (List (AttachedCandidate String))))
    (h : s.Sound) (numbered : s.Numbered)
    (room : s.HasRoom fun k =>
      (namedKeys direct ⟨attached.genre.getD [], attached.idol.getD []⟩ k).length)
    (hold : s.records.get? id = some old) :
    let t := s.enrolNamed (namedKeys direct ⟨attached.genre.getD [], attached.idol.getD []⟩)
    t.reviseRecord today id
        (sub.revision (.ofFn fun d => namedId (t.keys (.direct d)) (direct.get d))
          (.ofFn fun a => (attached.get a).map (namedRefs (t.keys (.attached a)))))
      = (do
        let record ← (sub.revision unknownRefs ⟨none, none⟩).toStorable today old
        let found? ← (s.rewritten id ⟨direct, attached, record⟩).loadRecord id
        .ok (found?, s.rewritten id ⟨direct, attached, record⟩)) := by
  intro t
  have hdirect : ∀ d, (t.keys (.direct d)).contains
      (namedId (t.keys (.direct d)) (direct.get d)) = true :=
    fun d => contains_namedId h _ d
  have hattached : ∀ a,
      ∀ r ∈ ((attached.get a).map (namedRefs (t.keys (.attached a)))).getD [],
        (t.keys (.attached a)).contains r.id = true := by
    intro a r hr
    refine contains_namedRefs s direct a ?_
    cases a with
    | genre =>
        show r ∈ namedRefs (t.keys (.attached .genre)) (attached.genre.getD [])
        have hr : r ∈ (attached.genre.map (namedRefs (t.keys (.attached .genre)))).getD [] := hr
        cases hgiven : attached.genre <;> simp_all [namedRefs]
    | idol =>
        show r ∈ namedRefs (t.keys (.attached .idol)) (attached.idol.getD [])
        have hr : r ∈ (attached.idol.map (namedRefs (t.keys (.attached .idol)))).getD [] := hr
        cases hgiven : attached.idol <;> simp_all [namedRefs]
  rw [reviseRecord_eq (s := t) hold]
  · rw [toStorable_revision_eq]
    · cases (sub.revision unknownRefs ⟨none, none⟩).toStorable today old <;> rfl
    · intro d
      rw [PerDirect.get_ofFn]
      exact inRange_enrolNamed numbered room (hdirect d)
  · intro d
    show (t.keys (.direct d)).contains (PerDirect.get (.ofFn _) d) = true
    rw [PerDirect.get_ofFn]
    exact hdirect d
  · intro a r hr
    have hr : r ∈ (PerAttached.get (.ofFn _) a : Option (List AttachedRef)).getD [] := hr
    rw [PerAttached.get_ofFn] at hr
    exact inRange_enrolNamed numbered room (hattached a r hr)
  · intro a r hr
    have hr : r ∈ (PerAttached.get (.ofFn _) a : Option (List AttachedRef)).getD [] := hr
    rw [PerAttached.get_ofFn] at hr
    exact hattached a r hr

/-- A resubmission of a record that exists stops where its rows cannot be stored, and nowhere
else. -/
theorem resubmit_eq
    (sub : Resubmission) {old : RecordRow}
    (h : s.Sound) (numbered : s.Numbered)
    (room : s.HasRoom sub.mentions)
    (hold : s.records.get? id = some old) :
    s.resubmit today id sub = (do
      let rows ← sub.toStorable today old
      let found? ← (s.rewritten id rows).loadRecord id
      .ok (found?, s.rewritten id rows)) := by
  rw [resubmit_of_contains (s.records.contains_iff.2 ⟨old, hold⟩)]
  unfold Resubmission.toStorable
  simp only [bind_assoc]
  refine bind_congr_ok fun direct hdirect => ?_
  refine bind_congr_ok fun genres? hgenres => ?_
  refine bind_congr_ok fun idols? hidols => ?_
  have hattached : ∀ a,
      storableRows
          (PerAttached.get ⟨sub.attached.genre.getD [], sub.attached.idol.getD []⟩ a)
        = .ok (PerAttached.get ⟨genres?.getD [], idols?.getD []⟩ a) := by
    intro a
    cases a
    · exact storableRows_getD hgenres
    · exact storableRows_getD hidols
  have hroom : s.HasRoom fun k =>
      (namedKeys direct ⟨genres?.getD [], idols?.getD []⟩ k).length :=
    room.mono fun k => Nat.le_of_eq (length_namedKeys hdirect hattached k)
  obtain ⟨hrefs, hgenres, hidols, hstore⟩ :=
    s.enrolments_eq direct ⟨genres?.getD [], idols?.getD []⟩
  have hrevise := reviseRecord_enrolNamed_eq today sub direct ⟨genres?, idols?⟩
    h numbered hroom hold
  simp only [enrolAttached?_eq] at hrefs hgenres hidols hstore hrevise ⊢
  rw [hstore, hrefs, hgenres, hidols, map_const_getD, map_const_getD]
  exact hrevise

/-- A record that is written anew is read back. -/
theorem exists_loadRecord_rewritten
    (id : String) (h : s.Sound) (rows : ResubmissionRows) :
    ∃ a, (s.rewritten id rows).loadRecord id = .ok (some a) := by
  generalize hrow : ({ rows.record with
    refs := .ofFn fun d =>
      namedId ((s.enrolNamed rows.named).keys (.direct d)) (rows.direct.get d) } : RecordRow) = row
  have hfound : (s.rewritten id rows).records.get? id = some row := by
    rw [← hrow]
    simp [rewritten, revised]
  have hresolves : (s.rewritten id rows).Resolves row.refs := by
    intro d _
    rw [← hrow]
    show ((s.enrolNamed rows.named).keys (.direct d)).contains (PerDirect.get (.ofFn _) d) = true
    rw [PerDirect.get_ofFn]
    exact contains_namedId h _ d
  obtain ⟨a, ha⟩ := ((s.rewritten id rows).isOk_assemble_iff id row).2 hresolves
  refine ⟨a, ?_⟩
  rw [loadRecord_of_some hfound, ha]
  rfl

theorem run_resubmit (w : Wide) (sub : Resubmission) :
    Operation.run today (.resubmit w sub) s
      = (w.toStorable >>= fun id =>
          (s.resubmit today id sub).map fun a => (.record a.1, a.2)) := by
  show (w.toStorable >>= fun id => s.resubmit today id sub >>= fun a => _) = _
  refine bind_congr fun id => ?_
  cases s.resubmit today id sub <;> rfl

end Resubmitting

end Store
end CardCatalog
