import CardCatalog.Proofs.Room
import CardCatalog.Proofs.Soundness

/-!
# Writing a record

In a sound store, with room for the ids of new rows, nothing but the submission itself can
stop it: it is turned into rows first, and then these rows are written as they are.  Rows to
attach may be named more than once, and under several candidates of one key, but each is
attached once.

Results: what a draft of a new record leaves (`createRecord_eq`), and a submission
(`submit_eq`).
-/

namespace CardCatalog

open Calendar (Date)
open Text (Wide)

section Rows

/-- The rows that are stored for a submission, with what they refer to by value. -/
structure SubmissionRows where
  direct : PerDirect (Option (Candidate String))
  attached : PerAttached (List (AttachedCandidate String))
  record : RecordRow
  links : List LinkRow

/-- The rows of a submission, to be stored. -/
def Submission.toStorable
    (sub : Submission) (today : Date) (id : String) : Storable SubmissionRows := do
  let direct ← storableDirect sub.direct
  let genres ← storableRows sub.attached.genre
  let idols ← storableRows sub.attached.idol
  let record ← (sub.draft unknownRefs ⟨[], []⟩).toStorable today
  let links ← sub.links.mapM (LinkDraft.toStorable id)
  .ok { direct, attached := ⟨genres, idols⟩, record, links }

/-- The keys that the rows of a submission name. -/
def SubmissionRows.named (rows : SubmissionRows) : Kind → List (NaturalKey String) :=
  namedKeys rows.direct rows.attached

/-- References in the stored range are as good as those to the unknown rows. -/
theorem checkRange_refs
    {ns : List Int} {refs : PerDirect Int}
    (range : ∀ d, Number.InRange (refs.get d)) :
    checkRange (ns ++ DirectKind.all.map refs.get)
      = checkRange (ns ++ DirectKind.all.map unknownRefs.get) := by
  rw [checkRange_append_of_inRange, checkRange_append_of_inRange]
  · decide
  · intro n hn
    obtain ⟨d, _, rfl⟩ := List.mem_map.1 hn
    exact range d

/-- The references of a draft matter to its row only as they stand in it. -/
theorem toStorable_draft_eq
    (sub : Submission) (today : Date) {refs : PerDirect Int}
    (attached : PerAttached (List AttachedRef))
    (range : ∀ d, Number.InRange (refs.get d)) :
    (sub.draft refs attached).toStorable today
      = ((sub.draft unknownRefs ⟨[], []⟩).toStorable today).map fun row =>
          { row with refs := refs } := by
  have hrefs : checkRange (sub.details.integers ++ DirectKind.all.map refs.get)
      = checkRange (sub.details.integers ++ DirectKind.all.map unknownRefs.get) :=
    checkRange_refs range
  simp only [RecordDraft.toStorable, Submission.draft, map_bind_eq, hrefs]
  rfl

end Rows

namespace Store

section Attaching

variable {s : Store} {id : String} {a : AttachedKind}

@[simp] theorem setAttachments_get (s : Store) (a : AttachedKind) :
    s.setAttachments a (s.attachments.get a) = s := by
  have hset : s.attachments.set a (s.attachments.get a) = s.attachments := by
    cases a <;> rfl
  unfold setAttachments
  rw [hset]

@[simp] theorem setAttachments_setAttachments
    (s : Store) (a : AttachedKind) (t t' : Table Int Attachment) :
    (s.setAttachments a t).setAttachments a t' = s.setAttachments a t' := by
  have hset : (s.attachments.set a t).set a t' = s.attachments.set a t' := by
    cases a <;> rfl
  unfold setAttachments
  rw [hset]

/-- Distinct rows are attached in their order. -/
theorem attachAll_eq
    {refs : List AttachedRef}
    (distinct : refs.Pairwise fun x y => x.id ≠ y.id)
    (range : ∀ r ∈ refs, Number.InRange r.id)
    (target : ∀ r ∈ refs, (s.keys (.attached a)).contains r.id = true)
    (free : ∀ r ∈ refs, ∀ e ∈ (s.attachments.get a).rows,
      ¬ (e.2.record = id ∧ e.2.target = r.id)) :
    refs.foldlM (fun s r => s.attachRow id a r) s
      = .ok (s.setAttachments a
          ((s.attachments.get a).pushAll (refs.map fun r => ⟨id, r.id, r.manual⟩))) := by
  induction refs generalizing s with
  | nil =>
      rw [List.foldlM_nil]
      show Except.ok s = Except.ok (s.setAttachments a (s.attachments.get a))
      rw [setAttachments_get]
  | cons r refs ih =>
      rw [List.pairwise_cons] at distinct
      obtain ⟨hr, distinct⟩ := distinct
      have hrow := attachRow_eq_ok_iff.2
        ⟨range r (by simp), free r (by simp), target r (by simp), rfl⟩
      generalize hpush : s.setAttachments a
        ((s.attachments.get a).push ⟨id, r.id, r.manual⟩) = t at hrow
      have hfree : ∀ x ∈ refs, ∀ e ∈ (t.attachments.get a).rows,
          ¬ (e.2.record = id ∧ e.2.target = x.id) := by
        intro x hx e he
        simp only [← hpush, attachments_setAttachments, if_true, Table.rows_push,
          List.mem_append, List.mem_singleton] at he
        rcases he with he | rfl
        · exact free x (by simp [hx]) e he
        · exact fun h => hr x hx h.2
      have htarget : ∀ x ∈ refs, (t.keys (.attached a)).contains x.id = true := by
        intro x hx
        rw [← hpush]
        exact target x (by simp [hx])
      have hrest := ih distinct (fun x hx => range x (by simp [hx])) htarget hfree
      rw [List.foldlM_cons, hrow]
      refine hrest.trans ?_
      simp [← hpush, Table.pushAll]

/-- Rows are attached, each once, of which the record does not have attachments yet. -/
theorem attach_eq
    {refs : List AttachedRef}
    (range : ∀ r ∈ refs, Number.InRange r.id)
    (target : ∀ r ∈ refs, (s.keys (.attached a)).contains r.id = true)
    (free : ∀ e ∈ (s.attachments.get a).rows, e.2.record ≠ id) :
    s.attach id a refs
      = .ok (s.setAttachments a
          ((s.attachments.get a).pushAll
            ((uniqueRefs refs).map fun r => ⟨id, r.id, r.manual⟩))) :=
  attachAll_eq (pairwise_uniqueRefs refs)
    (fun r hr => range r (mem_of_mem_uniqueRefs hr))
    (fun r hr => target r (mem_of_mem_uniqueRefs hr))
    (fun _ _ e he h => free e he h.1)

end Attaching

section Creating

/-- The store in which a record is added with attachments, each once, and links. -/
def created
    (s : Store) (id : String) (row : RecordRow)
    (attached : PerAttached (List AttachedRef)) (links : List LinkRow) : Store :=
  { s with
    records := s.records.put id row
    attachments := .ofFn fun a =>
      (s.attachments.get a).pushAll
        ((uniqueRefs (attached.get a)).map fun r => ⟨id, r.id, r.manual⟩)
    links := s.links.pushAll links }

/-- Whether the rows that a draft refers to are there, under ids that can be stored. -/
structure Admits (s : Store) (d : RecordDraft) : Prop where
  refs : ∀ k, (s.keys (.direct k)).contains (d.refs.get k) = true
  range : ∀ a, ∀ r ∈ d.attached.get a, Number.InRange r.id
  target : ∀ a, ∀ r ∈ d.attached.get a, (s.keys (.attached a)).contains r.id = true

variable {s : Store} {today : Date} {id : String}

/-- A new record is created as it is drafted, if it can be stored and the rows exist that it
refers to. -/
theorem createRecord_eq
    {d : RecordDraft}
    (h : s.Sound)
    (fresh : s.records.contains id = false)
    (admits : s.Admits d) :
    s.createRecord today id d = (do
      let row ← d.toStorable today
      let links ← d.links.mapM (LinkDraft.toStorable id)
      .ok (s.created id row d.attached links)) := by
  have hfree := h.attachment_ne fresh
  have hresolves : require (s.Resolves d.refs) .missingParent = .ok () :=
    require_eq_ok_iff.2 fun k _ => admits.refs k
  rw [createRecord_of_not_contains fresh]
  refine bind_congr fun row => ?_
  rw [hresolves]
  have hidols := attach_eq (s := { s with records := s.records.put id row })
    (admits.range .idol) (admits.target .idol) (hfree .idol)
  show ({ s with records := s.records.put id row } : Store).attach id .idol (d.attached.get .idol)
      >>= (fun t => t.insertLinks id d.links >>= fun t => t.attach id .genre d.attached.genre) = _
  rw [hidols]
  refine (bind_assoc (m := Except Fault) _ _ _).trans (bind_congr fun links => ?_)
  exact attach_eq (admits.range .genre) (admits.target .genre) (hfree .genre)

end Creating

section Submitting

variable {s : Store} {today : Date} {id : String}

section Enrolled

variable
  {direct : PerDirect (Option (Candidate String))}
  {attached : PerAttached (List (AttachedCandidate String))}

/-- With room for the rows that are named, what is enrolled has ids in the stored range. -/
theorem inRange_enrolNamed
    (numbered : s.Numbered)
    (room : s.HasRoom fun k => (namedKeys direct attached k).length)
    {k : Kind} {i : Int}
    (found : ((s.enrolNamed (namedKeys direct attached)).keys k).contains i = true) :
    Number.InRange i := by
  have hnumbered := (s.edits_enrolNamed direct attached).invariant
    (fun _ _ => numbered_of_edit) numbered
  refine hnumbered.inRange ?_ found
  have hle := (s.keys k).nextId_enrolAll_le (namedKeys direct attached k)
  have hroom : (s.keys k).nextId + (namedKeys direct attached k).length ≤ 0x8000000000000000 :=
    room k
  rw [keys_enrolNamed]
  omega

theorem mem_values_enrolNamed
    {k : Kind} {key : NaturalKey String}
    (h : key ∈ namedKeys direct attached k) :
    key ∈ ((s.enrolNamed (namedKeys direct attached)).keys k).values := by
  rw [keys_enrolNamed]
  exact Table.mem_values_enrolAll.2 (Or.inr h)

/-- Once its rows are enrolled, the references of a record exist. -/
theorem contains_namedId
    (h : s.Sound) (attached : PerAttached (List (AttachedCandidate String))) (d : DirectKind) :
    ((s.enrolNamed (namedKeys direct attached)).keys (.direct d)).contains
      (namedId ((s.enrolNamed (namedKeys direct attached)).keys (.direct d)) (direct.get d))
        = true := by
  cases hc : direct.get d with
  | none => exact (h.of_edits (s.edits_enrolNamed direct attached)).unknown d
  | some c =>
      have hkey : c.key ∈ namedKeys direct attached (.direct d) :=
        List.mem_map.2 ⟨c, Option.mem_toList.2 hc, rfl⟩
      exact (Table.contains_iff _).2 ⟨_, Table.get?_idFor (mem_values_enrolNamed hkey)⟩

/-- Once its rows are enrolled, the rows exist that are attached to a record. -/
theorem contains_namedRefs
    (s : Store) (direct : PerDirect (Option (Candidate String)))
    (a : AttachedKind) {r : AttachedRef}
    (h : r ∈ namedRefs ((s.enrolNamed (namedKeys direct attached)).keys (.attached a))
      (attached.get a)) :
    ((s.enrolNamed (namedKeys direct attached)).keys (.attached a)).contains r.id = true := by
  obtain ⟨x, hx, rfl⟩ := List.mem_map.1 h
  have hkey : x.row.key ∈ namedKeys direct attached (.attached a) :=
    List.mem_map.2 ⟨x, hx, rfl⟩
  exact (Table.contains_iff _).2 ⟨_, Table.get?_idFor (mem_values_enrolNamed hkey)⟩

end Enrolled

/-- The store in which a new record is written with the rows that it names. -/
def written (s : Store) (id : String) (rows : SubmissionRows) : Store :=
  let t := s.enrolNamed rows.named
  t.created id
    { rows.record with
      refs := .ofFn fun d => namedId (t.keys (.direct d)) (rows.direct.get d) }
    (.ofFn fun a => namedRefs (t.keys (.attached a)) (rows.attached.get a))
    rows.links

/-- A draft of a new record is written with the rows that it names, if all the rows can be
stored. -/
theorem createRecord_enrolNamed_eq
    (today : Date) (sub : Submission)
    {direct : PerDirect (Option (Candidate String))}
    {attached : PerAttached (List (AttachedCandidate String))}
    (h : s.Sound) (numbered : s.Numbered)
    (room : s.HasRoom fun k => (namedKeys direct attached k).length)
    (fresh : s.records.contains id = false) :
    let t := s.enrolNamed (namedKeys direct attached)
    t.createRecord today id
        (sub.draft (.ofFn fun d => namedId (t.keys (.direct d)) (direct.get d))
          (.ofFn fun a => namedRefs (t.keys (.attached a)) (attached.get a)))
      = (do
        let record ← (sub.draft unknownRefs ⟨[], []⟩).toStorable today
        let links ← sub.links.mapM (LinkDraft.toStorable id)
        .ok (s.written id ⟨direct, attached, record, links⟩)) := by
  intro t
  have ht : t.Sound := h.of_edits (s.edits_enrolNamed direct attached)
  have hadmits : t.Admits
      (sub.draft (.ofFn fun d => namedId (t.keys (.direct d)) (direct.get d))
        (.ofFn fun a => namedRefs (t.keys (.attached a)) (attached.get a))) := by
    have htarget : ∀ a,
        ∀ r ∈ PerAttached.get
          (.ofFn fun a => namedRefs (t.keys (.attached a)) (attached.get a)) a,
        (t.keys (.attached a)).contains r.id = true := by
      intro a r hr
      rw [PerAttached.get_ofFn] at hr
      exact contains_namedRefs s direct a hr
    refine ⟨fun d => ?_, fun a r hr => ?_, htarget⟩
    · show (t.keys (.direct d)).contains (PerDirect.get (.ofFn _) d) = true
      rw [PerDirect.get_ofFn]
      exact contains_namedId h attached d
    · exact inRange_enrolNamed numbered room (htarget a r hr)
  rw [createRecord_eq ht fresh hadmits, toStorable_draft_eq]
  · cases (sub.draft unknownRefs ⟨[], []⟩).toStorable today <;> rfl
  · intro d
    rw [PerDirect.get_ofFn]
    exact inRange_enrolNamed numbered room (contains_namedId h attached d)

/-- A submission of a new record stops where its rows cannot be stored, and nowhere else. -/
theorem submit_eq
    (sub : Submission)
    (h : s.Sound) (numbered : s.Numbered)
    (room : s.HasRoom sub.mentions)
    (fresh : s.records.contains id = false) :
    s.submit today id sub = (do
      let rows ← sub.toStorable today id
      let found ← (s.written id rows).loadRecord id
      .ok (found, s.written id rows)) := by
  rw [submit_of_not_contains fresh]
  unfold Submission.toStorable
  simp only [bind_assoc]
  refine bind_congr_ok fun direct hdirect => ?_
  refine bind_congr_ok fun genres hgenres => ?_
  refine bind_congr_ok fun idols hidols => ?_
  have hattached : ∀ a,
      storableRows (sub.attached.get a) = .ok (PerAttached.get ⟨genres, idols⟩ a) := by
    intro a
    cases a
    · exact hgenres
    · exact hidols
  have hroom : s.HasRoom fun k => (namedKeys direct ⟨genres, idols⟩ k).length :=
    room.mono fun k => Nat.le_of_eq (length_namedKeys hdirect hattached k)
  obtain ⟨hrefs, hgenres, hidols, hstore⟩ := s.enrolments_eq direct ⟨genres, idols⟩
  have hcreate := createRecord_enrolNamed_eq today sub h numbered hroom fresh
  simp only at hrefs hgenres hidols hstore hcreate
  rw [hstore, hrefs, hgenres, hidols]
  -- what is created is read back on both sides
  have hread := congrArg (· >>= fun t => t.loadRecord id >>= fun found =>
    (Except.ok (found, t) : Except Fault (Option Aggregate × Store))) hcreate
  simp only [bind_assoc] at hread
  exact hread

/-- What is stored for a submission can be taken apart into what is stored for its parts. -/
theorem toStorable_submission_eq_ok_iff
    {sub : Submission} {rows : SubmissionRows} :
    sub.toStorable today id = .ok rows ↔
      storableDirect sub.direct = .ok rows.direct ∧
        (∀ a, storableRows (sub.attached.get a) = .ok (rows.attached.get a)) ∧
        (sub.draft unknownRefs ⟨[], []⟩).toStorable today = .ok rows.record ∧
        sub.links.mapM (LinkDraft.toStorable id) = .ok rows.links := by
  unfold Submission.toStorable
  simp only [bind_eq_ok_iff, Except.ok.injEq]
  constructor
  · rintro ⟨_, h₁, _, h₂, _, h₃, _, h₄, _, h₅, rfl⟩
    refine ⟨h₁, fun a => ?_, h₄, h₅⟩
    cases a
    · exact h₂
    · exact h₃
  · rintro ⟨h₁, h₂, h₃, h₄⟩
    exact ⟨_, h₁, _, h₂ .genre, _, h₂ .idol, _, h₃, _, h₄, rfl⟩

theorem links_of_toStorable
    {sub : Submission} {rows : SubmissionRows}
    (h : sub.toStorable today id = .ok rows) :
    ∀ l ∈ rows.links, l.record = id := by
  obtain ⟨_, _, _, hlinks⟩ := toStorable_submission_eq_ok_iff.1 h
  intro l hl
  obtain ⟨_, _, hstored⟩ := mem_of_mapM_eq_ok hlinks hl
  exact record_of_toStorable hstored

theorem length_named
    {sub : Submission} {rows : SubmissionRows}
    (h : sub.toStorable today id = .ok rows) (k : Kind) :
    (rows.named k).length = sub.mentions k := by
  obtain ⟨hdirect, hattached, _, _⟩ := toStorable_submission_eq_ok_iff.1 h
  exact length_namedKeys hdirect hattached k

/-- A new record is written by edits. -/
theorem edits_written
    {sub : Submission} {rows : SubmissionRows}
    (h : s.Sound) (numbered : s.Numbered)
    (room : s.HasRoom sub.mentions)
    (fresh : s.records.contains id = false)
    (stored : sub.toStorable today id = .ok rows) :
    Edits s (s.written id rows) := by
  obtain ⟨_, _, hrecord, hlinks⟩ := toStorable_submission_eq_ok_iff.1 stored
  have hroom : s.HasRoom fun k => (namedKeys rows.direct rows.attached k).length :=
    room.mono fun k => Nat.le_of_eq (length_named stored k)
  have hcreate := createRecord_enrolNamed_eq today sub h numbered hroom fresh
  simp only [hrecord, hlinks] at hcreate
  exact (s.edits_enrolNamed rows.direct rows.attached).trans (edits_of_createRecord hcreate)

theorem run_submit (w : Wide) (sub : Submission) :
    Operation.run today (.submit w sub) s
      = (w.toStorable >>= fun id => (s.submit today id sub).map fun a => (.record a.1, a.2)) := by
  show (w.toStorable >>= fun id => s.submit today id sub >>= fun a => _) = _
  refine bind_congr fun id => ?_
  cases s.submit today id sub <;> rfl

theorem run_loadRecord (s : Store) (today : Date) (id : String) :
    Operation.run today (.loadRecord id) s
      = (s.loadRecord id).map fun found? => (.record found?, s) := by
  show ((Wide.ofText id).toStorable >>= fun id => s.loadRecord id >>= fun found? => _) = _
  rw [Wide.toStorable_ofText, ok_bind_eq]
  cases s.loadRecord id <;> rfl

end Submitting

end Store
end CardCatalog
