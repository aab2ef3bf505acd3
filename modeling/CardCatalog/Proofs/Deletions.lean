import CardCatalog.Proofs.Isolation
import CardCatalog.Proofs.References
import CardCatalog.Proofs.ServiceFaults

/-!
# Records that are deleted

A record takes its attachments and its links with it, and nothing else: the reference rows stay,
and so does all that belongs to other records.

A record that is deleted as soon as it is created leaves no trace.  This takes a sound store:
attachments or links under the id of a record that is not there would go with the record that is
put over them.

Results: what is left without a record (`deleted_withoutRecord`), also in the reports of the kinds
(`Sound.uses_withoutRecord`), and that a deletion undoes a creation (`deletion_undoes_creation`).
-/

namespace CardCatalog

open Calendar (Date)
open Text (Wide)

namespace Table

section Keys

variable {κ α : Type} [Ord κ] [Std.TransOrd κ] [Std.LawfulEqOrd κ] [DecidableEq κ]

/-- A row under a new key is taken away as if it had never been put in. -/
theorem erase_put_of_not_contains
    {t : Table κ α} {k : κ} (a : α)
    (fresh : t.contains k = false) :
    (t.put k a).erase k = t := by
  have hnone := t.contains_eq_false_iff.1 fresh
  refine ext_get? fun k' => ?_
  rw [erase, get?_filter, get?_put]
  by_cases hk : k' = k
  · simp [hk, hnone, Option.filter]
  · cases h : t.get? k' <;> simp [hk, Option.filter]

end Keys

/-- Of rows that pass a test and added ones that fail it, the former are left. -/
theorem filter_pushAll_eq_self
    {α : Type} {t : Table Int α} {as : List α} {p : α → Bool}
    (pass : ∀ e ∈ t.rows, p e.2 = true)
    (fail : ∀ a ∈ as, p a = false) :
    ((t.pushAll as).filter fun _ a => p a) = t := by
  refine ext_rows ?_
  show ((t.pushAll as).rows.filter fun e => p e.2) = t.rows
  rw [t.filter_rows_pushAll fail]
  exact List.filter_eq_self.2 pass

end Table

namespace Store

/-- The store without a record, its attachments and its links. -/
def withoutRecord (s : Store) (id : String) : Store :=
  { s with
    records := s.records.erase id
    attachments := .ofFn fun a => (s.attachments.get a).filter fun _ x => x.record ≠ id
    links := s.links.filter fun _ l => l.record ≠ id }

section Deleting

variable {s : Store} {id : String}

theorem deleteRecord_of_contains
    (found : s.records.contains id = true) :
    s.deleteRecord id = (true, s.withoutRecord id) := by
  unfold deleteRecord
  rw [if_pos found]
  refine congrArg (Prod.mk true) (ext_keys (fun _ => rfl) rfl ?_ rfl)
  refine PerAttached.ext_get fun a => ?_
  cases a <;> rfl

theorem deleteRecord_of_not_contains
    (absent : s.records.contains id = false) :
    s.deleteRecord id = (false, s) := by
  unfold deleteRecord
  rw [if_neg (by simp [absent])]

theorem run_deleteRecord_eq_ok_iff
    {today : Date} {w : Wide} {t : Store} :
    Operation.run today (.deleteRecord w) s = .ok (.flag true, t) ↔
      ∃ id, w = Wide.ofText id ∧ s.records.contains id = true ∧ t = s.withoutRecord id := by
  show (w.toStorable.map fun id => _) = _ ↔ _
  rw [map_eq_ok_iff]
  simp only [toStorable_eq_ok_iff]
  refine exists_congr fun id => and_congr_right fun _ => ?_
  cases found : s.records.contains id with
  | true => simp [deleteRecord_of_contains found, eq_comm]
  | false => simp [deleteRecord_of_not_contains found]

/-- Without a record that was not there before, a store is as it was before it was created. -/
theorem Sound.withoutRecord_created
    (h : s.Sound)
    (fresh : s.records.contains id = false)
    (row : RecordRow) (attached : PerAttached (List AttachedRef)) {links : List LinkRow}
    (owner : ∀ l ∈ links, l.record = id) :
    (s.created id row attached links).withoutRecord id = s := by
  refine ext_keys (fun _ => rfl) ?_ ?_ ?_
  · exact Table.erase_put_of_not_contains row fresh
  · refine PerAttached.ext_get fun a => ?_
    simp only [withoutRecord, created, PerAttached.get_ofFn]
    refine Table.filter_pushAll_eq_self (p := fun x : Attachment => decide (x.record ≠ id)) ?_ ?_
    · exact fun e he => decide_eq_true (h.attachment_ne fresh a e he)
    · intro x hx
      obtain ⟨_, _, rfl⟩ := List.mem_map.1 hx
      simp
  · refine Table.filter_pushAll_eq_self (p := fun l : LinkRow => decide (l.record ≠ id)) ?_ ?_
    · exact fun e he => decide_eq_true (h.link_ne fresh e he)
    · intro l hl
      simp [owner l hl]

end Deleting

/-- What is left where a record is deleted. -/
structure Deleted (s : Store) (id : String) (row : RecordRow) (t : Store) : Prop where
  absent : t.loadRecord id = .ok none
  attachments : ∀ a, t.attachmentsOf id a = []
  links : t.linksOf id = []
  lookups : t.lookups = s.lookups
  /-- A row that the record referred to is counted once less, and other rows as often as before. -/
  counted : ∀ k i n,
    t.Counts k i n ↔ s.Counts k i (n + if s.Refers k i id row then 1 else 0)
  kept : s.KeptBut id t

section Counting

variable {s : Store} {id : String} {row : RecordRow}

/-- Without a record, a row that it refers to is used once less. -/
theorem Sound.uses_withoutRecord
    (h : s.Sound)
    (hrow : s.records.get? id = some row) (k : Kind) (i : Int) :
    (s.withoutRecord id).uses k i + (if s.Refers k i id row then 1 else 0) = s.uses k i := by
  cases k with
  | direct d =>
      have hcount := Table.countP_rows_erase (fun e => decide (e.2.refs.get d = i)) hrow
      simp only [List.countP_singleton, decide_eq_true_eq] at hcount
      exact hcount
  | attached a =>
      -- the attachments to the row are those of other records, and one of this record at most
      have hown : (s.attachments.get a).rows.countP
          (fun e => e.2.record = id ∧ e.2.target = i)
            = if s.Refers (.attached a) i id row then 1 else 0 := by
        have hjoin := congrArg List.length (h.map_attachments_eq a i (id, row))
        rw [List.length_map] at hjoin
        rw [List.countP_eq_length_filter, hjoin]
        split <;> rfl
      have hsplit := List.countP_eq_countP_filter_add (s.attachments.get a).rows
        (fun e => decide (e.2.target = i)) (fun e => decide (e.2.record ≠ id))
      have hkept : (s.withoutRecord id).uses (.attached a) i
          = ((s.attachments.get a).rows.filter fun e => decide (e.2.record ≠ id)).countP
              fun e => decide (e.2.target = i) := by
        simp only [withoutRecord, uses, PerAttached.get_ofFn]
        rfl
      rw [← hown, hkept]
      refine Eq.trans ?_ hsplit.symm
      rw [Nat.add_right_inj, List.countP_filter]
      refine List.countP_congr fun e _ => ?_
      simp [and_comm]

theorem Sound.counts_withoutRecord_iff
    (h : s.Sound)
    (hrow : s.records.get? id = some row) (k : Kind) (i : Int) (n : Nat) :
    (s.withoutRecord id).Counts k i n ↔
      s.Counts k i (n + if s.Refers k i id row then 1 else 0) := by
  have huses := h.uses_withoutRecord hrow k i
  rw [counts_iff, counts_iff, ← huses, Nat.add_left_inj]
  exact Iff.rfl

/-- Where a record is deleted, it is gone with all that belongs to it, and nothing else. -/
theorem deleted_withoutRecord
    (h : s.Sound)
    (hrow : s.records.get? id = some row) :
    s.Deleted id row (s.withoutRecord id) where
  absent := by
    have hnone : (s.withoutRecord id).records.get? id = none := by
      refine (Table.contains_eq_false_iff _).1 ?_
      simp [withoutRecord]
    exact loadRecord_of_none hnone
  attachments a := by
    simp only [attachmentsOf, withoutRecord, PerAttached.get_ofFn]
    refine List.filter_eq_nil_iff.2 fun e he => ?_
    simpa using (List.mem_filter.1 he).2
  links := by
    refine List.filter_eq_nil_iff.2 fun e he => ?_
    simpa using (List.mem_filter.1 he).2
  lookups := rfl
  counted := h.counts_withoutRecord_iff hrow
  kept := by
    have hfound := s.records.contains_iff.2 ⟨row, hrow⟩
    have htouched : s.Touched id (s.deleteRecord id).2 := .deleted
    rw [deleteRecord_of_contains hfound] at htouched
    exact htouched.keptBut

end Counting

/-- After every run on a fresh store, a record that is deleted as soon as it is created leaves the
store as it was, so that the run goes on as if there had been no such record; and whatever record
is deleted, it goes with its attachments and its links, it is missing in the counts of the rows
that it referred to, and everything else stays. -/
theorem deletion_undoes_creation (steps : List (Date × Operation)) :
    let s := seeded.after steps
    (∀ today day w d a t, s.Lacks w →
      Operation.run today (.createRecord w d) s = .ok (a, t) →
        Operation.run day (.deleteRecord w) t = .ok (.flag true, s) ∧
          ∀ later, s.after ((today, .createRecord w d) :: (day, .deleteRecord w) :: later)
            = s.after later) ∧
      ∀ today w t, Operation.run today (.deleteRecord w) s = .ok (.flag true, t) →
        ∃ id row,
          w = Wide.ofText id ∧ s.records.get? id = some row ∧ s.Deleted id row t := by
  intro s
  have h : s.Sound := sound_after steps
  constructor
  · rintro today day w d a t ⟨id, rfl, fresh⟩ hcreate
    obtain ⟨_, hid, hrun⟩ := toStorable_bind_eq_ok_iff.1 hcreate
    cases Wide.ofText_inj.1 hid
    obtain ⟨_, hcreated, hanswer⟩ := bind_eq_ok_iff.1 hrun
    cases hanswer
    obtain ⟨row, links, _, hlinks, rfl⟩ := created_of_createRecord fresh hcreated
    have hdelete :
        Operation.run day (.deleteRecord (Wide.ofText id)) (s.created id row d.attached links)
          = .ok (.flag true, s) := by
      refine run_deleteRecord_eq_ok_iff.2 ⟨id, rfl, by simp [created], ?_⟩
      exact (h.withoutRecord_created fresh row d.attached (owner_of_links hlinks)).symm
    refine ⟨hdelete, fun later => ?_⟩
    show Store.after ((Operation.run day (.deleteRecord (Wide.ofText id))).store
      ((Operation.run today (.createRecord (Wide.ofText id) d)).store s)) later = _
    rw [Action.store_of_ok hcreate, Action.store_of_ok hdelete]
  · intro today w t hdelete
    obtain ⟨id, rfl, found, rfl⟩ := run_deleteRecord_eq_ok_iff.1 hdelete
    obtain ⟨row, hrow⟩ := s.records.contains_iff.1 found
    exact ⟨id, row, rfl, hrow, deleted_withoutRecord h hrow⟩

/-- A record that gets a genre twice and a link leaves no trace when it is deleted at once; of two
other records that share the genre, one is deleted, and the genre is counted once less. -/
theorem deletions_beside_another :
    let drama : List (AttachedCandidate Wide) := [⟨{ name := "Drama" }, true⟩]
    let s := seeded.after
      [ (.epoch, .submit "a" { attached := ⟨drama, []⟩, links := [{ name := "Cover" }] }),
        (.epoch, .submit "b" { attached := ⟨drama, []⟩ }) ]
    let create : Operation := .createRecord "c"
      { attached := ⟨[⟨1, false⟩, ⟨1, true⟩], []⟩, links := [{ name := "Poster" }] }
    let after (op : Operation) : Store := (op.run .epoch).store s
    s.Lacks "c" ∧
      create.run .epoch s = .ok (.recordId "c", after create) ∧
      Operation.run .epoch (.deleteRecord "c") (after create) = .ok (.flag true, s) ∧
      Operation.run .epoch (.deleteRecord "a") s = .ok (.flag true, after (.deleteRecord "a")) ∧
      s.Counts (.attached .genre) 1 2 ∧
      (after (.deleteRecord "a")).Counts (.attached .genre) 1 1 := by
  intro drama s create after
  have lacks : s.Lacks "c" := ⟨"c", rfl, by decide⟩
  have hcreate : create.run .epoch s = .ok (.recordId "c", after create) := by decide
  have hdelete : Operation.run .epoch (.deleteRecord "a") s
      = .ok (.flag true, after (.deleteRecord "a")) := by decide
  have hcounts : s.Counts (.attached .genre) 1 2 := counts_iff.2 (by decide)
  obtain ⟨hundo, hgone⟩ := deletion_undoes_creation
    [ (.epoch, .submit "a" { attached := ⟨drama, []⟩, links := [{ name := "Cover" }] }),
      (.epoch, .submit "b" { attached := ⟨drama, []⟩ }) ]
  obtain ⟨id, row, hid, _, hdeleted⟩ := hgone _ _ _ hdelete
  cases Wide.ofText_inj.1 (hid : Wide.ofText "a" = Wide.ofText id)
  have hrefers : ∃ e ∈ (s.attachments.get .genre).rows,
      e.2.record = "a" ∧ e.2.target = 1 := by decide
  refine ⟨lacks, hcreate, (hundo _ .epoch _ _ _ _ lacks hcreate).1, hdelete, hcounts, ?_⟩
  refine (hdeleted.counted _ _ _).2 ?_
  rw [if_pos (show s.Refers (.attached .genre) 1 "a" row from hrefers)]
  exact hcounts

end Store
end CardCatalog
