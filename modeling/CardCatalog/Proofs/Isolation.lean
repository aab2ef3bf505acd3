import CardCatalog.Proofs.Portrait
import CardCatalog.Proofs.RecordWrites

/-!
# Records apart

Records share the reference rows, the tables that their attachments and links stand in, and the
counters of all ids.  An operation that changes one record still leaves the others alone: rows are
added behind those that are there, and taken away only if they belong to the record.

That another record is read back as before takes more than that its own rows are kept.  A
reference row that is added would show in another record if that one had an attachment to its id
already; in a sound store nothing dangles, so there is no such attachment.

Results: what is kept of a store that is touched at one record (`Touched.keptBut`), and that
records are isolated from each other after every run (`records_isolated`).
-/

namespace CardCatalog

open Calendar (Date)
open Text (Wide)

namespace Store

/-- The attachments of a record. -/
def attachmentsOf (s : Store) (id : String) (a : AttachedKind) : List (Int × Attachment) :=
  (s.attachments.get a).rows.filter fun e => e.2.record = id

/-- Everything is kept but what belongs to one record; more reference rows may be there. -/
structure KeptBut (s : Store) (id : String) (t : Store) : Prop where
  keys : ∀ k i key, (s.keys k).get? i = some key → (t.keys k).get? i = some key
  records : ∀ r, r ≠ id → t.records.get? r = s.records.get? r
  attachments : ∀ r, r ≠ id → ∀ a, t.attachmentsOf r a = s.attachmentsOf r a
  links : ∀ r, r ≠ id → t.linksOf r = s.linksOf r

section Touching

variable {s t : Store} {id r : String}

/-- Attachments of one record may be added without another one noticing. -/
theorem filter_pushAll_attachments
    (rows : Table Int Attachment) (refs : List AttachedRef)
    (hne : r ≠ id) :
    ((rows.pushAll (refs.map fun x => ⟨id, x.id, x.manual⟩)).rows.filter
        fun e => e.2.record = r)
      = rows.rows.filter fun e => e.2.record = r := by
  refine rows.filter_rows_pushAll (p := fun x => decide (x.record = r)) fun x hx => ?_
  obtain ⟨_, _, rfl⟩ := List.mem_map.1 hx
  exact decide_eq_false hne.symm

/-- Rows of one record may be taken away without another one noticing. -/
theorem filter_filter_ne
    {α : Type} (owner : α → String) (rows : List (Int × α))
    (hne : r ≠ id) :
    ((rows.filter fun e => owner e.2 ≠ id).filter fun e => owner e.2 = r)
      = rows.filter fun e => owner e.2 = r := by
  rw [List.filter_filter]
  refine List.filter_congr fun e _ => ?_
  by_cases he : owner e.2 = r
  · simp [he, hne]
  · simp [he]

theorem filter_exchanged
    (rows : Table Int Attachment) (given? : Option (List AttachedRef))
    (hne : r ≠ id) :
    ((exchanged rows id given?).rows.filter fun e => e.2.record = r)
      = rows.rows.filter fun e => e.2.record = r := by
  cases given? with
  | none => rfl
  | some refs =>
      exact (filter_pushAll_attachments _ _ hne).trans
        (filter_filter_ne Attachment.record rows.rows hne)

theorem attachmentsOf_detach
    (s : Store) (a : AttachedKind)
    (hne : r ≠ id) (a' : AttachedKind) :
    (s.detach id a).attachmentsOf r a' = s.attachmentsOf r a' := by
  unfold attachmentsOf detach
  rw [attachments_setAttachments]
  split
  · rename_i ha
    subst ha
    exact filter_filter_ne Attachment.record _ hne
  · rfl

/-- A store that is touched at one record is kept but for it. -/
theorem Touched.keptBut
    (h : s.Touched id t) :
    s.KeptBut id t := by
  have henrol (named : Kind → List (NaturalKey String)) (k : Kind) (i : Int)
      (key : NaturalKey String) (hkey : (s.keys k).get? i = some key) :
      ((s.enrolNamed named).keys k).get? i = some key := by
    rw [keys_enrolNamed]
    exact Table.get?_enrolAll_of_some _ hkey
  cases h with
  | unchanged =>
      exact ⟨fun _ _ _ h => h, fun _ _ => rfl, fun _ _ _ => rfl, fun _ _ => rfl⟩
  | @written named row attached links owner =>
      refine ⟨henrol named, fun r hne => ?_, fun r hne a => ?_, fun r hne => ?_⟩
      · exact (Table.get?_put ..).trans (if_neg hne)
      · unfold attachmentsOf created
        rw [PerAttached.get_ofFn, attachments_enrolNamed]
        exact filter_pushAll_attachments _ _ hne
      · refine Table.filter_rows_pushAll _ (p := fun l : LinkRow => decide (l.record = r)) fun l hl => ?_
        rw [owner l hl]
        exact decide_eq_false hne.symm
  | revised named row attached =>
      refine ⟨henrol named, fun r hne => ?_, fun r hne a => ?_, fun _ _ => rfl⟩
      · exact (Table.get?_put ..).trans (if_neg hne)
      · unfold attachmentsOf Store.revised
        rw [PerAttached.get_ofFn, attachments_enrolNamed]
        exact filter_exchanged _ _ hne
  | deleted =>
      unfold deleteRecord
      split
      · refine ⟨fun _ _ _ h => h, fun r hne => ?_, fun r hne a => ?_, fun r hne => ?_⟩
        · show (s.records.erase id).get? r = _
          rw [Table.erase, Table.get?_filter]
          cases s.records.get? r <;> simp [Option.filter, hne]
        · show ((s.detach id .genre).detach id .idol).attachmentsOf r a = _
          rw [attachmentsOf_detach _ _ hne, attachmentsOf_detach _ _ hne]
        · exact filter_filter_ne LinkRow.record s.links.rows hne
      · exact ⟨fun _ _ _ h => h, fun _ _ => rfl, fun _ _ _ => rfl, fun _ _ => rfl⟩

/-- What is kept of a sound store is read back as before. -/
theorem KeptBut.loadRecord_eq
    (h : s.KeptBut id t)
    (sound : s.Sound)
    (hne : r ≠ id) :
    t.loadRecord r = s.loadRecord r := by
  refine loadRecord_congr sound h.keys (h.records r hne) (fun a => ?_) (h.links r hne)
  rw [List.filter_map, List.filter_map]
  exact congrArg (List.map Prod.snd) (h.attachments r hne a)

end Touching

/-- What a reading of a record answers depends on the store only by that record. -/
theorem answer_loadRecord_eq
    (day : Date) (w : Wide) (s : Store) :
    (Operation.run day (.loadRecord w)).answer s
      = (w.toStorable >>= fun id => (s.loadRecord id).map Answer.record) := by
  unfold Action.answer
  show (w.toStorable >>= fun id => s.loadRecord id >>= fun found? => _).map Prod.fst = _
  rw [map_bind_eq]
  refine bind_congr fun id => ?_
  cases s.loadRecord id <;> rfl

/-- After every run on a fresh store, an operation that changes a record, whether it answers or
stops, leaves the other records to be read back as before, with the same rows of attachments and
links, and leaves all reference rows. -/
theorem records_isolated
    (steps : List (Date × Operation)) (today : Date)
    {op : Operation} {w : Wide}
    (hw : op.recordId? = some w) :
    let s := seeded.after steps
    let t := (op.run today).store s
    (∀ w', w' ≠ w → ∀ day,
      (Operation.run day (.loadRecord w')).answer t
        = (Operation.run day (.loadRecord w')).answer s) ∧
      (∀ k i key, (s.keys k).get? i = some key → (t.keys k).get? i = some key) ∧
      ∀ r, Wide.ofText r ≠ w →
        (∀ a, t.attachmentsOf r a = s.attachmentsOf r a) ∧ t.linksOf r = s.linksOf r := by
  intro s t
  cases hrun : op.run today s with
  | error e =>
      have hsame : t = s := Action.store_of_error hrun
      rw [hsame]
      exact ⟨fun _ _ _ => rfl, fun _ _ _ h => h, fun _ _ => ⟨fun _ => rfl, rfl⟩⟩
  | ok out =>
      obtain ⟨a, s'⟩ := out
      have ht : t = s' := Action.store_of_ok hrun
      rw [ht]
      obtain ⟨id, rfl, htouched⟩ := touched_of_run hw hrun
      have hkept := htouched.keptBut
      have hother {r : String} (hr : Wide.ofText r ≠ Wide.ofText id) : r ≠ id :=
        fun e => hr (congrArg Wide.ofText e)
      refine ⟨fun w' hw' day => ?_, hkept.keys, fun r hr => ?_⟩
      · rw [answer_loadRecord_eq, answer_loadRecord_eq]
        refine bind_congr_ok fun r hr => ?_
        cases toStorable_eq_ok_iff.1 hr
        rw [hkept.loadRecord_eq (sound_after steps) (hother hw')]
      · exact ⟨hkept.attachments r (hother hr), hkept.links r (hother hr)⟩

/-- Of two records that share a genre, one may be deleted without the other one noticing. -/
theorem deletion_isolated :
    let drama : List (AttachedCandidate Wide) := [⟨{ name := "Drama" }, true⟩]
    let s := seeded.after
      [ (.epoch, .submit "a" { attached := ⟨drama, []⟩, links := [{ name := "Cover" }] }),
        (.epoch, .submit "b" { attached := ⟨drama, []⟩ }) ]
    let t := (Operation.run .epoch (.deleteRecord "a")).store s
    (Operation.deleteRecord "a").recordId? = some "a" ∧
      s.records.contains "a" = true ∧ t.records.contains "a" = false ∧
      Wide.ofText "b" ≠ "a" ∧
      (∀ a, t.attachmentsOf "b" a = s.attachmentsOf "b" a) ∧ t.linksOf "b" = s.linksOf "b" := by
  intro drama s t
  have hw : (Operation.deleteRecord "a").recordId? = some "a" := rfl
  have hne : Wide.ofText "b" ≠ "a" := by decide
  obtain ⟨_, _, hrows⟩ := records_isolated
    [ (.epoch, .submit "a" { attached := ⟨drama, []⟩, links := [{ name := "Cover" }] }),
      (.epoch, .submit "b" { attached := ⟨drama, []⟩ }) ] .epoch hw
  exact ⟨hw, by decide, by decide, hne, hrows "b" hne⟩

end Store
end CardCatalog
