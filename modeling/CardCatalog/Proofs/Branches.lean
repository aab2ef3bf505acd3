import CardCatalog.Operation
import CardCatalog.Proofs.Stopping

/-!
# Branches

What an operation does depends on what the store holds: whether there is a row or a record,
and whether another row holds the key already.  Each branch is said here once, as an equation
or as a case of an inductive predicate; later modules go by these.

Results: what a search found (`eq_of_listLookups`, `eq_of_matchingRecords`), what became of a row
that is amended (`amended_of_amend`) or removed (`removed_of_remove`), what records do that are
there or not, among it what became of one that got links (`linked_of_addLinks`), and what an
operation did that answers (`ran_of_run`).
-/

namespace CardCatalog

open Calendar (Date)
open Text (Wide)

/-- The draft of a submission, once its rows are enrolled. -/
def Submission.draft
    (sub : Submission) (refs : PerDirect Int) (attached : PerAttached (List AttachedRef)) :
    RecordDraft where
  details := sub.details
  refs := refs
  attached := attached
  links := sub.links
  creator := sub.creator
  modifiedBy := sub.modifiedBy

/-- The revision of a resubmission, once its rows are enrolled. -/
def Resubmission.revision
    (sub : Resubmission) (refs : PerDirect Int)
    (attached : PerAttached (Option (List AttachedRef))) :
    RecordRevision where
  details := sub.details
  refs := refs
  attached := attached
  modifiedBy := sub.modifiedBy

namespace Store

section Searches

/-- A search that is answered finds the reference rows that the filter accepts. -/
theorem eq_of_listLookups
    {s : Store} {k : Kind} {f : LookupFilter} {rows : List Lookup}
    (h : s.listLookups k f = .ok rows) :
    rows = (s.lookupRows k).filter f.accepts := by
  obtain ⟨_, _, h⟩ := bind_eq_ok_iff.1 h
  obtain ⟨_, _, h⟩ := bind_eq_ok_iff.1 h
  obtain ⟨_, _, h⟩ := bind_eq_ok_iff.1 h
  obtain ⟨_, _, h⟩ := bind_eq_ok_iff.1 h
  obtain ⟨_, _, h⟩ := bind_eq_ok_iff.1 h
  exact (Except.ok.inj h).symm

/-- A search that is answered finds the records that the filter accepts. -/
theorem eq_of_matchingRecords
    {s : Store} {f : RecordFilter} {rows : List (String × RecordRow)}
    (h : s.matchingRecords f = .ok rows) :
    rows = s.records.rows.filter fun e => f.accepts e.1 e.2 := by
  obtain ⟨_, _, h⟩ := bind_eq_ok_iff.1 h
  obtain ⟨_, _, h⟩ := bind_eq_ok_iff.1 h
  obtain ⟨_, _, h⟩ := bind_eq_ok_iff.1 h
  obtain ⟨_, _, h⟩ := bind_eq_ok_iff.1 h
  obtain ⟨_, _, h⟩ := bind_eq_ok_iff.1 h
  exact (Except.ok.inj h).symm

/-- Reference rows stand in the order of their ids. -/
theorem ascending_lookupRows (s : Store) (k : Kind) :
    (s.lookupRows k).Pairwise fun a b => a.id < b.id :=
  List.pairwise_map.2 ((s.keys k).ascending.imp Int.compare_eq_lt.1)

/-- Records stand in the order of their ids. -/
theorem ascending_records (s : Store) :
    s.records.rows.Pairwise fun a b => a.1 < b.1 :=
  s.records.ascending.imp compareOfLessAndEq_eq_lt.1

end Searches

section Lookups

variable {s s' : Store} {k : Kind} {id : Int} {p : Patch Wide}

/-- What became of a row that is amended: it was not there; it has the new key; or another
row held that key, and one of the two is gone. -/
inductive Amended (s : Store) (k : Kind) (id : Int) (p : Patch Wide) :
    Option Lookup → Store → Prop
  | absent
      (missing : s.lookup? k id = none) : Amended s k id p none s
  | renamed {row : Lookup} {p' : Patch String}
      (found : s.lookup? k id = some row)
      (stored : p.toStorable = .ok p')
      (free : s.holder? k (p'.apply row.key) (some id) = none) :
      Amended s k id p (some ⟨id, p'.apply row.key⟩)
        (s.setKeys k ((s.keys k).put id (p'.apply row.key)))
  | absorbed {row other : Lookup} {p' : Patch String} {t : Store}
      (found : s.lookup? k id = some row)
      (stored : p.toStorable = .ok p')
      (held : s.holder? k (p'.apply row.key) (some id) = some other)
      (safe : isProtected k id = true)
      (dropped : s.dropLookup k other.id = .ok t) :
      Amended s k id p (some ⟨id, p'.apply row.key⟩)
        (t.setKeys k ((t.keys k).put id (p'.apply row.key)))
  | yielded {row other : Lookup} {p' : Patch String} {t : Store}
      (found : s.lookup? k id = some row)
      (stored : p.toStorable = .ok p')
      (held : s.holder? k (p'.apply row.key) (some id) = some other)
      (exposed : isProtected k id = false)
      (dropped : s.dropLookup k id = .ok t) :
      Amended s k id p (some other) t

theorem amended_of_amend
    {row? : Option Lookup}
    (h : s.amend k id p = .ok (row?, s')) :
    s.Amended k id p row? s' := by
  obtain ⟨_, _, h⟩ := bind_eq_ok_iff.1 h
  split at h
  · rename_i hrow
    cases h
    exact .absent hrow
  rename_i row hrow
  obtain ⟨p', hp, h⟩ := bind_eq_ok_iff.1 h
  dsimp only at h
  split at h
  · rename_i hfree
    cases h
    exact .renamed hrow hp hfree
  rename_i other hheld
  split at h
  · rename_i hsafe
    obtain ⟨t, ht, h⟩ := bind_eq_ok_iff.1 h
    cases h
    exact .absorbed hrow hp hheld hsafe ht
  · rename_i hsafe
    obtain ⟨t, ht, h⟩ := bind_eq_ok_iff.1 h
    cases h
    exact .yielded hrow hp hheld (Bool.eq_false_iff.2 hsafe) ht

/-- What became of a row that is removed: it was not there, or it is gone. -/
inductive Removed (s : Store) (k : Kind) (id : Int) : Bool → Store → Prop
  | absent
      (missing : s.lookup? k id = none) : Removed s k id false s
  | gone {row : Lookup} {t : Store}
      (found : s.lookup? k id = some row)
      (exposed : isProtected k id = false)
      (dropped : s.dropLookup k id = .ok t) : Removed s k id true t

theorem removed_of_remove
    {b : Bool}
    (h : s.remove k id = .ok (b, s')) :
    s.Removed k id b s' := by
  obtain ⟨_, _, h⟩ := bind_eq_ok_iff.1 h
  split at h
  · rename_i hrow
    cases h
    exact .absent hrow
  · rename_i hrow
    obtain ⟨_, hne, h⟩ := bind_eq_ok_iff.1 h
    obtain ⟨t, ht, h⟩ := bind_eq_ok_iff.1 h
    cases h
    exact .gone hrow (decide_eq_false (require_eq_ok_iff.1 hne)) ht
  · rename_i hrow
    obtain ⟨t, ht, h⟩ := bind_eq_ok_iff.1 h
    cases h
    exact .gone hrow rfl ht

end Lookups

section Records

variable {s : Store} {id : String} {today : Date}

theorem loadRecord_of_none
    (h : s.records.get? id = none) :
    s.loadRecord id = .ok none := by
  rw [loadRecord, h]

theorem loadRecord_of_some
    {row : RecordRow}
    (h : s.records.get? id = some row) :
    s.loadRecord id = (s.assemble id row).map some := by
  rw [loadRecord, h]

/-- A row is attached if its id can be stored, the record does not have it yet, and it is
there. -/
theorem attachRow_eq_ok_iff
    {a : AttachedKind} {r : AttachedRef} {t : Store} :
    s.attachRow id a r = .ok t ↔
      Number.InRange r.id ∧
        (∀ e ∈ (s.attachments.get a).rows, ¬ (e.2.record = id ∧ e.2.target = r.id)) ∧
        (s.keys (.attached a)).contains r.id = true ∧
        t = s.setAttachments a ((s.attachments.get a).push ⟨id, r.id, r.manual⟩) := by
  unfold attachRow putAttachment
  simp only [bind_eq_ok_iff, checkRange_eq_ok_iff, require_eq_ok_iff, List.mem_singleton,
    forall_eq, Except.ok.injEq]
  constructor
  · rintro ⟨_, ⟨_, hrange, _, hfree, rfl⟩, _, htarget, rfl⟩
    exact ⟨hrange, hfree, htarget, rfl⟩
  · rintro ⟨hrange, hfree, htarget, rfl⟩
    exact ⟨_, ⟨(), hrange, (), hfree, rfl⟩, (), htarget, rfl⟩

theorem createRecord_of_contains
    {d : RecordDraft}
    (h : s.records.contains id = true) :
    s.createRecord today id d = .ok s := by
  rw [createRecord, if_pos h]

/-- A record that is not there yet is written first, and then its rows are attached. -/
theorem createRecord_of_not_contains
    {d : RecordDraft}
    (h : s.records.contains id = false) :
    s.createRecord today id d = (do
      let row ← d.toStorable today
      require (s.Resolves d.refs) .missingParent
      let t : Store := { s with records := s.records.put id row }
      let t ← t.attach id .idol d.attached.idol
      let t ← t.insertLinks id d.links
      t.attach id .genre d.attached.genre) := by
  rw [createRecord, if_neg (by simp [h])]

/-- The store in which a record has lost the attachments of the kinds that are given. -/
def clearGiven (s : Store) (id : String) (given : PerAttached (Option (List AttachedRef))) :
    Store :=
  let clear (a : AttachedKind) (s : Store) : Store :=
    if (given.get a).isSome then s.detach id a else s
  clear .idol (clear .genre s)

variable {r : RecordRevision}

theorem reviseRecord_of_none
    (h : s.records.get? id = none) :
    s.reviseRecord today id r = .ok (none, s) := by
  simp only [reviseRecord, h]

/-- Revising a record writes its row and its attachments where the given kinds are
cleared. -/
theorem reviseRecord_of_some
    {old : RecordRow}
    (h : s.records.get? id = some old) :
    s.reviseRecord today id r = (do
      let t := s.clearGiven id r.attached
      let row ← r.toStorable today old
      require
        (∀ k ∈ DirectKind.all, r.refs.get k = old.refs.get k
          ∨ (t.keys (.direct k)).contains (r.refs.get k) = true)
        .missingParent
      let t : Store := { t with records := t.records.put id row }
      let t ← t.attach id .idol (r.attached.idol.getD [])
      let t ← t.attach id .genre (r.attached.genre.getD [])
      let found ← t.assemble id row
      .ok (some found, t)) := by
  simp only [reviseRecord, h]
  rfl

/-- The links of which a record does not have the address yet. -/
def freshLinks (s : Store) (id : String) (links : List LinkDraft) : List LinkDraft :=
  freshBy LinkDraft.url ((s.linksOf id).map fun l => Wide.ofText l.2.url) links

variable {links : List LinkDraft}

theorem addLinks_of_none
    (h : s.records.get? id = none) :
    s.addLinks today id links = .ok (none, s) := by
  simp only [addLinks, h]

/-- Links are added that are new to the record, if there are any. -/
theorem addLinks_of_some
    {row : RecordRow}
    (h : s.records.get? id = some row) :
    s.addLinks today id links =
      if (s.freshLinks id links).isEmpty then .ok (some 0, s)
      else
        let row := { row with details := { row.details with hasLinks := true }, updated := today }
        let t : Store := { s with records := s.records.put id row }
        (t.insertLinks id (s.freshLinks id links)).map fun t =>
          (some (s.freshLinks id links).length, t) := by
  simp only [addLinks, h]
  rfl

/-- The row of a record that gets links. -/
def linkedRow (today : Date) (row : RecordRow) : RecordRow :=
  { row with details := { row.details with hasLinks := true }, updated := today }

/-- The store in which a record has further links.  Its row is renewed if there are any. -/
def linked
    (s : Store) (today : Date) (id : String) (old : RecordRow) (rows : List LinkRow) : Store :=
  if rows.isEmpty then s
  else { s with
    records := s.records.put id (linkedRow today old)
    links := s.links.pushAll rows }

/-- Links are added to a record exactly if those of them can be stored that are new to it. -/
theorem addLinks_eq_ok_iff
    {old : RecordRow} {count? : Option Nat} {t : Store}
    (hold : s.records.get? id = some old) :
    s.addLinks today id links = .ok (count?, t) ↔
      ∃ rows,
        (s.freshLinks id links).mapM (LinkDraft.toStorable id) = .ok rows ∧
        count? = some rows.length ∧ t = s.linked today id old rows := by
  rw [addLinks_of_some hold]
  generalize s.freshLinks id links = fresh
  cases fresh with
  | nil =>
      simp only [List.isEmpty_nil, if_true, Except.ok.injEq, Prod.mk.injEq, List.mapM_nil]
      constructor
      · rintro ⟨rfl, rfl⟩
        exact ⟨[], rfl, rfl, rfl⟩
      · rintro ⟨rows, hrows, rfl, rfl⟩
        cases hrows
        exact ⟨rfl, rfl⟩
  | cons l fresh =>
      simp only [List.isEmpty_cons, Bool.false_eq_true, if_false]
      rw [map_eq_ok_iff]
      constructor
      · rintro ⟨u, hinsert, hu⟩
        obtain ⟨rows, hrows, hinsert⟩ := bind_eq_ok_iff.1 hinsert
        cases hinsert
        cases hu
        obtain ⟨row, rest, _, _, rfl⟩ := mapM_eq_ok_cons_iff.1 hrows
        refine ⟨row :: rest, hrows, ?_, rfl⟩
        rw [length_of_mapM_eq_ok hrows]
      · rintro ⟨rows, hrows, rfl, rfl⟩
        rw [length_of_mapM_eq_ok hrows]
        obtain ⟨row, rest, _, _, rfl⟩ := mapM_eq_ok_cons_iff.1 hrows
        exact ⟨_, bind_eq_ok_iff.2 ⟨_, hrows, rfl⟩, rfl⟩

/-- What became of a store by an addition of links that was answered. -/
theorem linked_of_addLinks
    {count? : Option Nat} {t : Store}
    (h : s.addLinks today id links = .ok (count?, t)) :
    (s.records.get? id = none ∧ count? = none ∧ t = s) ∨
      ∃ old rows,
        s.records.get? id = some old ∧
        (s.freshLinks id links).mapM (LinkDraft.toStorable id) = .ok rows ∧
        count? = some rows.length ∧ t = s.linked today id old rows := by
  cases hold : s.records.get? id with
  | none =>
      rw [addLinks_of_none hold] at h
      cases h
      exact Or.inl ⟨rfl, rfl, rfl⟩
  | some old =>
      obtain ⟨rows, hrows, hcount, ht⟩ := (addLinks_eq_ok_iff hold).1 h
      exact Or.inr ⟨old, rows, rfl, hrows, hcount, ht⟩

end Records

section Submissions

variable {s : Store} {id : String} {today : Date}

/-- A submission for a record that exists is answered with it. -/
theorem submit_of_contains
    {sub : Submission}
    (h : s.records.contains id = true) :
    s.submit today id sub = (s.loadRecord id).map fun found? => (found?, s) := by
  rw [submit, if_pos h]
  rfl

/-- The rows of a new record are enrolled, then it is created and read back. -/
theorem submit_of_not_contains
    {sub : Submission}
    (h : s.records.contains id = false) :
    s.submit today id sub = (do
      let direct ← storableDirect sub.direct
      let genres ← storableRows sub.attached.genre
      let idols ← storableRows sub.attached.idol
      let (refs, t) := s.enrolRefs direct
      let (genres, t) := t.enrolAttached .genre genres
      let (idols, t) := t.enrolAttached .idol idols
      let t ← t.createRecord today id (sub.draft refs ⟨genres, idols⟩)
      let found? ← t.loadRecord id
      .ok (found?, t)) := by
  rw [submit, if_neg (by simp [h])]
  rfl

/-- The rows of a record that exists are enrolled, then it is revised. -/
theorem resubmit_of_contains
    {sub : Resubmission}
    (h : s.records.contains id = true) :
    s.resubmit today id sub = (do
      let direct ← storableDirect sub.direct
      let genres? ← sub.attached.genre.mapM storableRows
      let idols? ← sub.attached.idol.mapM storableRows
      let (refs, t) := s.enrolRefs direct
      let (genres?, t) := t.enrolAttached? .genre genres?
      let (idols?, t) := t.enrolAttached? .idol idols?
      t.reviseRecord today id (sub.revision refs ⟨genres?, idols?⟩)) := by
  rw [resubmit, if_pos h]
  rfl

/-- Where there is no record, a resubmission does nothing. -/
theorem resubmit_of_not_contains
    {sub : Resubmission}
    (h : s.records.contains id = false) :
    s.resubmit today id sub = .ok (none, s) := by
  rw [resubmit, if_neg (by simp [h])]

end Submissions

end Store

section Runs

/-- Whether an operation only reads. -/
def Operation.isReading : Operation → Bool
  | .enrol .. | .amend .. | .remove .. | .createRecord .. | .reviseRecord .. | .addLinks ..
  | .deleteRecord .. | .submit .. | .resubmit .. => false
  | _ => true

/-- What an operation did that answers: it only read, or it made the change of the store that it
is named for, with an id that is a text. -/
inductive Ran (today : Date) (s : Store) : Operation → Answer → Store → Prop
  | read {op : Operation} {a : Answer}
      (reading : op.isReading = true)
      (answered : op.run today s = .ok (a, s)) : Ran today s op a s
  | enrol {k : Kind} {c : Candidate Wide} {c' : Candidate String}
      (stored : c.toStorable = .ok c') :
      Ran today s (.enrol k c) (.lookupId (s.enrol k c').1) (s.enrol k c').2
  | amend {k : Kind} {id : Int} {p : Patch Wide} {row? : Option Lookup} {t : Store}
      (amended : s.amend k id p = .ok (row?, t)) :
      Ran today s (.amend k id p) (.lookup row?) t
  | remove {k : Kind} {id : Int} {b : Bool} {t : Store}
      (removed : s.remove k id = .ok (b, t)) : Ran today s (.remove k id) (.flag b) t
  | createRecord {w : Wide} {id : String} {d : RecordDraft} {t : Store}
      (stored : w.toStorable = .ok id)
      (created : s.createRecord today id d = .ok t) :
      Ran today s (.createRecord w d) (.recordId id) t
  | reviseRecord {w : Wide} {id : String} {r : RecordRevision} {found? : Option Aggregate}
      {t : Store}
      (stored : w.toStorable = .ok id)
      (revised : s.reviseRecord today id r = .ok (found?, t)) :
      Ran today s (.reviseRecord w r) (.record found?) t
  | addLinks {w : Wide} {id : String} {links : List LinkDraft} {count? : Option Nat} {t : Store}
      (stored : w.toStorable = .ok id)
      (added : s.addLinks today id links = .ok (count?, t)) :
      Ran today s (.addLinks w links) (.added count?) t
  | deleteRecord {w : Wide} {id : String}
      (stored : w.toStorable = .ok id) :
      Ran today s (.deleteRecord w) (.flag (s.deleteRecord id).1) (s.deleteRecord id).2
  | submit {w : Wide} {id : String} {sub : Submission} {found? : Option Aggregate} {t : Store}
      (stored : w.toStorable = .ok id)
      (submitted : s.submit today id sub = .ok (found?, t)) :
      Ran today s (.submit w sub) (.record found?) t
  | resubmit {w : Wide} {id : String} {sub : Resubmission} {found? : Option Aggregate} {t : Store}
      (stored : w.toStorable = .ok id)
      (resubmitted : s.resubmit today id sub = .ok (found?, t)) :
      Ran today s (.resubmit w sub) (.record found?) t

theorem ran_of_run
    {today : Date} {op : Operation} {s s' : Store} {a : Answer}
    (h : op.run today s = .ok (a, s')) :
    Ran today s op a s' := by
  cases op with
  | findLookup | listLookups | pageLookups | listRecords | pageRecords | recordsBy | hasRecord =>
      have answered := h
      obtain ⟨_, _, h⟩ := map_eq_ok_iff.1 h
      cases h
      exact .read rfl answered
  | allLookups | recordCounts | recordIds =>
      have answered := h
      cases h
      exact .read rfl answered
  | loadRecord =>
      have answered := h
      obtain ⟨_, _, h⟩ := bind_eq_ok_iff.1 h
      obtain ⟨_, _, h⟩ := bind_eq_ok_iff.1 h
      cases h
      exact .read rfl answered
  | enrol =>
      obtain ⟨_, stored, h⟩ := map_eq_ok_iff.1 h
      cases h
      exact .enrol stored
  | amend =>
      obtain ⟨⟨_, _⟩, amended, h⟩ := map_eq_ok_iff.1 h
      cases h
      exact .amend amended
  | remove =>
      obtain ⟨⟨_, _⟩, removed, h⟩ := map_eq_ok_iff.1 h
      cases h
      exact .remove removed
  | createRecord =>
      obtain ⟨_, stored, h⟩ := bind_eq_ok_iff.1 h
      obtain ⟨_, created, h⟩ := bind_eq_ok_iff.1 h
      cases h
      exact .createRecord stored created
  | reviseRecord =>
      obtain ⟨_, stored, h⟩ := bind_eq_ok_iff.1 h
      obtain ⟨⟨_, _⟩, revised, h⟩ := bind_eq_ok_iff.1 h
      cases h
      exact .reviseRecord stored revised
  | addLinks =>
      obtain ⟨_, stored, h⟩ := bind_eq_ok_iff.1 h
      obtain ⟨⟨_, _⟩, added, h⟩ := bind_eq_ok_iff.1 h
      cases h
      exact .addLinks stored added
  | deleteRecord =>
      obtain ⟨_, stored, h⟩ := map_eq_ok_iff.1 h
      cases h
      exact .deleteRecord stored
  | submit =>
      obtain ⟨_, stored, h⟩ := bind_eq_ok_iff.1 h
      obtain ⟨⟨_, _⟩, submitted, h⟩ := bind_eq_ok_iff.1 h
      cases h
      exact .submit stored submitted
  | resubmit =>
      obtain ⟨_, stored, h⟩ := bind_eq_ok_iff.1 h
      obtain ⟨⟨_, _⟩, resubmitted, h⟩ := bind_eq_ok_iff.1 h
      cases h
      exact .resubmit stored resubmitted

end Runs

end CardCatalog
