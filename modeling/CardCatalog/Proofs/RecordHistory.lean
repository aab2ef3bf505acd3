import CardCatalog.Proofs.Isolation
import CardCatalog.Proofs.NoTrace
import CardCatalog.Proofs.Soundness
import Mathlib.Data.List.Induction

/-!
# What a record tells of its history

A record has the dates of its creation and of its last renewal, and a mark that says whether it has
links.  A step inserts the record with these, renews them, deletes the record, or leaves them.  It
renews them by a revision that finds the record, and by adding links to it; a creation that finds
the record, links that it has already, a step that stops, and a reference row that is taken away
from it do not count.

Results: what becomes of a record by one step (`fate_of_step`).  After every run, the dates are
those of the step that inserted the record and of the last one that renewed it since
(`dates_tell_history`); and the mark of a record that has links is what the last renewal sent, or set
if there was none (`mark_tells_last_renewal`).
-/

namespace CardCatalog

open Calendar (Date)
open Text (Wide)

section Renewals

/-- Whether an operation that answers has renewed the record of an id: it found the record and has
revised it, or added links to it. -/
def Operation.renews (id : String) : Operation → Answer → Bool
  | .reviseRecord w _, .record found? | .resubmit w _, .record found? =>
    w = Wide.ofText id && found?.isSome
  | .addLinks w _, .added count? => w = Wide.ofText id && 0 < count?.getD 0
  | _, _ => false

/-- The mark of links with which an operation renews a record: what a revision sends, and set if
links are added. -/
def Operation.mark : Operation → Bool
  | .reviseRecord _ r => r.details.hasLinks
  | .resubmit _ sub => sub.details.hasLinks
  | _ => true

/-- Whether a step renews the record of an id. -/
def Store.isRenewedBy (s : Store) (id : String) (step : Date × Operation) : Bool :=
  match (step.2.run step.1).answer s with
  | .ok a => step.2.renews id a
  | .error _ => false

variable {s t : Store} {id : String} {step : Date × Operation}

theorem Store.isRenewedBy_of_ok
    {a : Answer}
    (h : step.2.run step.1 s = .ok (a, t)) :
    s.isRenewedBy id step = step.2.renews id a := by
  unfold isRenewedBy Action.answer
  rw [h]
  rfl

theorem Store.isRenewedBy_of_error
    {fault : Fault}
    (h : step.2.run step.1 s = .error fault) :
    s.isRenewedBy id step = false := by
  unfold isRenewedBy Action.answer
  rw [h]
  rfl

/-- An operation renews no record but the one that it is about. -/
theorem Operation.renews_eq_false
    {op : Operation}
    (other : op.recordId? ≠ some (Wide.ofText id)) (a : Answer) :
    op.renews id a = false := by
  cases op <;> cases a <;> simp_all [Operation.renews, Operation.recordId?]

/-- An operation that does not find its record does not renew it. -/
theorem Operation.renews_of_isNotFound
    {op : Operation} {a : Answer}
    (missing : a.isNotFound = true) :
    op.renews id a = false := by
  cases a with
  | lookup row? | flag yes => cases op <;> rfl
  | record found? =>
      cases found? with
      | none => cases op <;> simp [Operation.renews]
      | some found => cases missing
  | added count? =>
      cases count? with
      | none => cases op <;> simp [Operation.renews]
      | some count => cases missing
  | lookups | lookupPage | lookupId | counts | records | recordPage | recordId | recordIds =>
      cases missing

theorem isSome_of_isNotFound
    {found? : Option Aggregate}
    (h : (Answer.record found?).isNotFound = false) :
    found?.isSome = true := by
  cases found? with
  | none => cases h
  | some found => rfl

end Renewals

section Rows

variable {today : Date} {row : RecordRow}

/-- A draft is stored with the day as both its dates, and with its links it has the mark of them. -/
theorem history_of_toStorable_draft
    {d : RecordDraft}
    (h : d.toStorable today = .ok row) :
    row.created = today ∧ row.updated = today ∧
      row.details.hasLinks = (d.details.hasLinks || !d.links.isEmpty) := by
  unfold RecordDraft.toStorable at h
  obtain ⟨_, _, h⟩ := bind_eq_ok_iff.1 h
  obtain ⟨_, _, h⟩ := bind_eq_ok_iff.1 h
  obtain ⟨_, _, h⟩ := bind_eq_ok_iff.1 h
  obtain ⟨_, _, h⟩ := bind_eq_ok_iff.1 h
  cases h
  exact ⟨rfl, rfl, rfl⟩

/-- A revision keeps the first date, has the day as its second, and the mark that it sends. -/
theorem history_of_toStorable_revision
    {r : RecordRevision} {old : RecordRow}
    (h : r.toStorable today old = .ok row) :
    row.created = old.created ∧ row.updated = today ∧
      row.details.hasLinks = r.details.hasLinks := by
  unfold RecordRevision.toStorable at h
  obtain ⟨_, _, h⟩ := bind_eq_ok_iff.1 h
  obtain ⟨_, _, h⟩ := bind_eq_ok_iff.1 h
  obtain ⟨_, _, h⟩ := bind_eq_ok_iff.1 h
  cases h
  exact ⟨rfl, rfl, rfl⟩

end Rows

namespace Store

/-- Whether two rows tell the same of their history. -/
structure SameHistory (old row : RecordRow) : Prop where
  created : row.created = old.created
  updated : row.updated = old.updated
  mark : row.details.hasLinks = old.details.hasLinks

theorem sameHistory_without (row : RecordRow) (k : Kind) (i : Int) :
    SameHistory row (row.without k i) := by
  cases k with
  | direct d =>
      unfold RecordRow.without
      dsimp only
      split <;> exact ⟨rfl, rfl, rfl⟩
  | attached a => exact ⟨rfl, rfl, rfl⟩

/-- What becomes of the record of an id by a step. -/
inductive Fate (s : Store) (id : String) (step : Date × Operation) (t : Store) : Prop
  | absent
      (missing : t.records.get? id = none)
  | inserted {row : RecordRow}
      (missing : s.records.get? id = none)
      (found : t.records.get? id = some row)
      (created : row.created = step.1)
      (updated : row.updated = step.1)
      (mark : row.details.hasLinks = true ∨ t.linksOf id = s.linksOf id)
  | kept {old row : RecordRow}
      (plain : s.isRenewedBy id step = false)
      (before : s.records.get? id = some old)
      (found : t.records.get? id = some row)
      (same : SameHistory old row)
      (links : t.linksOf id = s.linksOf id)
  | renewed {old row : RecordRow}
      (renewing : s.isRenewedBy id step = true)
      (before : s.records.get? id = some old)
      (found : t.records.get? id = some row)
      (created : row.created = old.created)
      (updated : row.updated = step.1)
      (mark : row.details.hasLinks = step.2.mark)

section Steps

variable {s t : Store} {id : String} {today : Date} {op : Operation} {a : Answer}

/-- A step that changes the row of a record at most in what it points at leaves its history. -/
theorem fate_of_map
    {step : Date × Operation}
    (f : RecordRow → RecordRow)
    (same : ∀ row, SameHistory row (f row))
    (plain : s.isRenewedBy id step = false)
    (records : t.records.get? id = (s.records.get? id).map f)
    (links : t.linksOf id = s.linksOf id) :
    s.Fate id step t := by
  cases hrow : s.records.get? id with
  | none =>
      rw [hrow] at records
      exact .absent records
  | some row =>
      rw [hrow] at records
      exact .kept plain hrow records (same row) links

theorem fate_of_same
    {step : Date × Operation}
    (plain : s.isRenewedBy id step = false)
    (records : t.records.get? id = s.records.get? id)
    (links : t.linksOf id = s.linksOf id) :
    s.Fate id step t := by
  refine fate_of_map (fun row => row) (fun row => ⟨rfl, rfl, rfl⟩) plain ?_ links
  rw [records, Option.map_id']

/-- Taking a reference row away leaves the history of all records. -/
theorem fate_of_without
    {step : Date × Operation} {k : Kind} {i : Int}
    (plain : s.isRenewedBy id step = false)
    (records : t.records = (s.without k i).records)
    (links : t.links = s.links) :
    s.Fate id step t := by
  refine fate_of_map (fun row => row.without k i) (fun row => sameHistory_without row k i) plain
    ?_ ?_
  · rw [records, get?_records_without]
  · unfold linksOf
    rw [links]

theorem fate_of_dropLookup
    {step : Date × Operation} {k : Kind} {i : Int}
    (plain : s.isRenewedBy id step = false)
    (h : s.dropLookup k i = .ok t) :
    s.Fate id step t := by
  obtain ⟨_, rfl⟩ := (s.dropLookup_eq_ok_iff k i).1 h
  exact fate_of_without plain rfl (s.links_without k i)

/-- Amending a reference row leaves the history of all records, whether a row is lost or not. -/
theorem fate_of_amend
    {step : Date × Operation} {k : Kind} {i : Int} {p : Patch Wide} {row? : Option Lookup}
    (plain : s.isRenewedBy id step = false)
    (h : s.amend k i p = .ok (row?, t)) :
    s.Fate id step t := by
  cases amended_of_amend h with
  | absent | renamed => exact fate_of_same plain rfl rfl
  | @absorbed _ other _ _ _ _ _ _ dropped =>
      obtain ⟨_, rfl⟩ := (s.dropLookup_eq_ok_iff k other.id).1 dropped
      exact fate_of_without plain rfl (s.links_without k other.id)
  | yielded _ _ _ _ dropped => exact fate_of_dropLookup plain dropped

/-- Creating a record inserts it, whatever is enrolled before. -/
theorem fate_of_createRecord
    (named : Kind → List (NaturalKey String)) {d : RecordDraft}
    (missing : s.records.get? id = none)
    (h : (s.enrolNamed named).createRecord today id d = .ok t) :
    s.Fate id (today, op) t := by
  have fresh := s.records.contains_eq_false_iff.2 missing
  obtain ⟨row, links, hrow, hlinks, rfl⟩ :=
    created_of_createRecord (s := s.enrolNamed named) fresh h
  obtain ⟨hcreated, hupdated, hmark⟩ := history_of_toStorable_draft hrow
  have hfound : ((s.enrolNamed named).created id row d.attached links).records.get? id = some row :=
    (Table.get?_put ..).trans (if_pos rfl)
  refine .inserted missing hfound hcreated hupdated ?_
  cases hdrafts : d.links with
  | nil =>
      rw [hdrafts] at hlinks
      cases hlinks
      exact Or.inr rfl
  | cons l ls =>
      rw [hmark, hdrafts]
      exact Or.inl (Bool.or_true _)

/-- Revising a record renews it, whatever is enrolled before. -/
theorem fate_of_reviseRecord
    (named : Kind → List (NaturalKey String)) {r : RecordRevision} {found? : Option Aggregate}
    {old : RecordRow}
    (renewing : s.isRenewedBy id (today, op) = true)
    (mark : op.mark = r.details.hasLinks)
    (before : s.records.get? id = some old)
    (h : (s.enrolNamed named).reviseRecord today id r = .ok (found?, t)) :
    s.Fate id (today, op) t := by
  obtain ⟨row, hrow, rfl⟩ := revised_of_reviseRecord (s := s.enrolNamed named) before h
  obtain ⟨hcreated, hupdated, hmark⟩ := history_of_toStorable_revision hrow
  exact .renewed renewing before ((Table.get?_put ..).trans (if_pos rfl)) hcreated hupdated
    (hmark.trans mark.symm)

/-- Links that are added renew a record, if any are new to it. -/
theorem fate_of_addLinks
    {links : List LinkDraft} {count? : Option Nat} {old : RecordRow}
    (renewed : s.isRenewedBy id (today, .addLinks (Wide.ofText id) links)
      = decide (0 < count?.getD 0))
    (before : s.records.get? id = some old)
    (h : s.addLinks today id links = .ok (count?, t)) :
    s.Fate id (today, .addLinks (Wide.ofText id) links) t := by
  obtain ⟨rows, _, rfl, rfl⟩ := (addLinks_eq_ok_iff before).1 h
  cases rows with
  | nil => exact fate_of_same renewed rfl rfl
  | cons l rows =>
      exact .renewed renewed before ((Table.get?_put ..).trans (if_pos rfl)) rfl rfl rfl

/-- A record that is deleted is gone. -/
theorem get?_records_deleteRecord (s : Store) (id : String) :
    (s.deleteRecord id).2.records.get? id = none := by
  unfold deleteRecord
  split
  · show (s.records.erase id).get? id = none
    rw [Table.erase, Table.get?_filter]
    cases s.records.get? id <;> simp [Option.filter]
  · rename_i hid
    exact s.records.contains_eq_false_iff.1 (eq_false_of_ne_true hid)

/-- What becomes of a record by an operation that is about it, and finds it or needs not. -/
theorem fate_of_own
    (own : op.recordId? = some (Wide.ofText id))
    (found : a.isNotFound = false)
    (h : op.run today s = .ok (a, t)) :
    s.Fate id (today, op) t := by
  have hrenewed : s.isRenewedBy id (today, op) = op.renews id a := isRenewedBy_of_ok h
  -- the id that is stored is the one that the operation is about
  have hid {w : Wide} {i : String} (hw : some w = some (Wide.ofText id))
      (stored : w.toStorable = .ok i) : w = Wide.ofText id ∧ i = id := by
    have hw := Option.some.inj hw
    rw [toStorable_eq_ok_iff.1 stored] at hw
    exact ⟨(toStorable_eq_ok_iff.1 stored).trans hw, Wide.ofText_inj.1 hw⟩
  cases ran_of_run h with
  | read reading _ =>
      rw [Operation.recordId?_of_isReading reading] at own
      cases own
  | enrol | amend | remove => cases own
  | createRecord stored created =>
      obtain ⟨rfl, rfl⟩ := hid own stored
      cases hrow : s.records.get? _ with
      | none => exact fate_of_createRecord (fun _ => []) hrow created
      | some row =>
          rw [createRecord_of_contains (s.records.contains_iff.2 ⟨row, hrow⟩)] at created
          cases created
          exact fate_of_same hrenewed rfl rfl
  | submit stored submitted =>
      obtain ⟨rfl, rfl⟩ := hid own stored
      cases hcontains : s.records.contains _ with
      | false =>
          obtain ⟨direct, attached, _, _, hcreate⟩ := created_of_submit hcontains submitted
          exact fate_of_createRecord (namedKeys direct attached)
            (s.records.contains_eq_false_iff.1 hcontains) hcreate
      | true =>
          rw [submit_of_contains hcontains] at submitted
          obtain ⟨_, _, hsame⟩ := map_eq_ok_iff.1 submitted
          cases hsame
          exact fate_of_same hrenewed rfl rfl
  | @reviseRecord _ _ _ found? _ stored revised =>
      obtain ⟨rfl, rfl⟩ := hid own stored
      cases hrow : s.records.get? _ with
      | none =>
          rw [reviseRecord_of_none hrow] at revised
          cases revised
          cases found
      | some row =>
          have hsome := isSome_of_isNotFound found
          have renewing : s.isRenewedBy _ _ = true :=
            hrenewed.trans (by simp [Operation.renews, hsome])
          exact fate_of_reviseRecord (fun _ => []) renewing rfl hrow revised
  | @resubmit _ _ sub found? _ stored resubmitted =>
      obtain ⟨rfl, rfl⟩ := hid own stored
      cases hcontains : s.records.contains _ with
      | false =>
          rw [resubmit_of_not_contains hcontains] at resubmitted
          cases resubmitted
          cases found
      | true =>
          have hsome := isSome_of_isNotFound found
          obtain ⟨row, hrow⟩ := s.records.contains_iff.1 hcontains
          obtain ⟨direct, attached, _, _, hrevise⟩ := revised_of_resubmit hcontains resubmitted
          have renewing : s.isRenewedBy _ _ = true :=
            hrenewed.trans (by simp [Operation.renews, hsome])
          exact fate_of_reviseRecord _ renewing rfl hrow hrevise
  | @addLinks _ _ links count? _ stored added =>
      obtain ⟨rfl, rfl⟩ := hid own stored
      cases hrow : s.records.get? _ with
      | none =>
          rw [addLinks_of_none hrow] at added
          cases added
          cases found
      | some row =>
          exact fate_of_addLinks (hrenewed.trans (by simp [Operation.renews])) hrow added
  | deleteRecord stored =>
      obtain ⟨rfl, rfl⟩ := hid own stored
      exact .absent (s.get?_records_deleteRecord _)

/-- What becomes of a record by an operation that is about something else. -/
theorem fate_of_other
    (other : op.recordId? ≠ some (Wide.ofText id))
    (h : op.run today s = .ok (a, t)) :
    s.Fate id (today, op) t := by
  have plain : s.isRenewedBy id (today, op) = false :=
    (isRenewedBy_of_ok h).trans (Operation.renews_eq_false other a)
  cases hrecord : op.recordId? with
  | some w =>
      obtain ⟨id', rfl, touched⟩ := touched_of_run hrecord h
      have hne : id ≠ id' := by
        rintro rfl
        exact other hrecord
      exact fate_of_same plain (touched.keptBut.records id hne) (touched.keptBut.links id hne)
  | none =>
      cases ran_of_run h with
      | read => exact fate_of_same plain rfl rfl
      | @enrol k c _ _ =>
          rw [enrol_eq]
          exact fate_of_same plain rfl rfl
      | amend amended => exact fate_of_amend plain amended
      | remove removed =>
          cases removed_of_remove removed with
          | absent => exact fate_of_same plain rfl rfl
          | gone _ _ dropped => exact fate_of_dropLookup plain dropped
      | createRecord | reviseRecord | addLinks | deleteRecord | submit | resubmit => cases hrecord

/-- What becomes of a record by a step. -/
theorem fate_of_step (s : Store) (id : String) (step : Date × Operation) :
    s.Fate id step ((step.2.run step.1).store s) := by
  refine Action.store_cases (step.2.run step.1) s (fun a t hrun => ?_) fun _ hrun => ?_
  · by_cases own : step.2.recordId? = some (Wide.ofText id)
    · cases hmissing : a.isNotFound with
      | true =>
          rw [eq_of_isNotFound hrun hmissing]
          exact fate_of_same
            ((isRenewedBy_of_ok hrun).trans (Operation.renews_of_isNotFound hmissing)) rfl rfl
      | false => exact fate_of_own own hmissing hrun
    · exact fate_of_other own hrun
  · exact fate_of_same (isRenewedBy_of_error hrun) rfl rfl

end Steps
section Runs

/-- The steps of a run that renew the record of an id. -/
def renewals (s : Store) (id : String) : List (Date × Operation) → List (Date × Operation)
  | [] => []
  | step :: steps =>
    let later := ((step.2.run step.1).store s).renewals id steps
    if s.isRenewedBy id step then step :: later else later

theorem renewals_append
    (s : Store) (id : String) (steps later : List (Date × Operation)) :
    s.renewals id (steps ++ later)
      = s.renewals id steps ++ (s.after steps).renewals id later := by
  induction steps generalizing s with
  | nil => rfl
  | cons step steps ih =>
      have hlater := ih ((step.2.run step.1).store s)
      simp only [List.cons_append, renewals, hlater]
      split <;> rfl

theorem renewals_sublist (s : Store) (id : String) (steps : List (Date × Operation)) :
    (s.renewals id steps).Sublist steps := by
  induction steps generalizing s with
  | nil => exact List.Sublist.slnil
  | cons step steps ih =>
      have hlater := ih ((step.2.run step.1).store s)
      unfold renewals
      dsimp only
      split
      · exact hlater.cons_cons step
      · exact hlater.cons step

/-- The life of a record in a run: it was not there, a step inserted it, and it has been there
since. -/
structure IsLife
    (s : Store) (id : String) (steps before : List (Date × Operation)) (first : Date × Operation)
    (later : List (Date × Operation)) : Prop where
  split : steps = before ++ first :: later
  absent : (s.after before).records.get? id = none
  present : ∀ begun, begun <+: later →
    (s.after (before ++ first :: begun)).records.contains id = true

/-- The steps that have renewed a record in its life. -/
def renewedBy
    (s : Store) (id : String) (before : List (Date × Operation)) (first : Date × Operation)
    (later : List (Date × Operation)) : List (Date × Operation) :=
  (s.after (before ++ [first])).renewals id later

variable {s : Store} {id : String} {steps before later : List (Date × Operation)}
variable {first step : Date × Operation}

/-- A life goes on with a step after which the record is there. -/
theorem IsLife.concat
    (h : s.IsLife id steps before first later)
    (found : (s.after (steps ++ [step])).records.contains id = true) :
    s.IsLife id (steps ++ [step]) before first (later ++ [step]) := by
  obtain ⟨rfl, absent, present⟩ := h
  refine ⟨by simp, absent, fun begun hbegun => ?_⟩
  rcases List.prefix_concat_iff.1 hbegun with rfl | hbegun
  · simpa using found
  · exact present begun hbegun

theorem renewedBy_concat
    (h : s.IsLife id steps before first later) :
    s.renewedBy id before first (later ++ [step])
      = s.renewedBy id before first later
          ++ if (s.after steps).isRenewedBy id step then [step] else [] := by
  have hsteps : (s.after (before ++ [first])).after later = s.after steps := by
    rw [← after_append, h.split]
    simp
  unfold renewedBy
  rw [renewals_append, hsteps]
  rfl

/-- The steps that insert a record and renew it come in the order of the run. -/
theorem IsLife.cons_renewedBy_sublist
    (h : s.IsLife id steps before first later) :
    (first :: s.renewedBy id before first later).Sublist steps := by
  rw [h.split]
  exact ((renewals_sublist ..).cons_cons first).trans (List.sublist_append_right ..)

/-- What the row of a record tells of its life: when it began, when it was renewed last, and, if the
record has links, the mark of the last renewal, or that it is set if there was none. -/
structure TellsLife
    (t : Store) (id : String) (first : Date × Operation) (renewals : List (Date × Operation))
    (row : RecordRow) : Prop where
  created : row.created = first.1
  updated : row.updated = (renewals.map Prod.fst).getLastD first.1
  mark : t.linksOf id ≠ [] →
    row.details.hasLinks = (renewals.map fun step => step.2.mark).getLastD true

/-- Every record that is there after a run on a fresh store has a life in it, and its row tells
it. -/
theorem exists_isLife
    {row : RecordRow}
    (found : (seeded.after steps).records.get? id = some row) :
    ∃ before first later,
      seeded.IsLife id steps before first later ∧
      (seeded.after steps).TellsLife id first (seeded.renewedBy id before first later) row := by
  -- the last step decides: it begins the life, or lets it go on
  induction steps using List.reverseRecOn generalizing row with
  | nil => cases found
  | append_singleton steps step ih =>
      have hafter : seeded.after (steps ++ [step])
          = (step.2.run step.1).store (seeded.after steps) := after_append ..
      have hcontains : (seeded.after (steps ++ [step])).records.contains id = true :=
        (Table.contains_iff _).2 ⟨row, found⟩
      have hfate := (seeded.after steps).fate_of_step id step
      rw [← hafter] at hfate
      cases hfate with
      | absent missing =>
          rw [missing] at found
          cases found
      | inserted missing found' created updated mark =>
          cases found.symm.trans found'
          refine ⟨steps, step, [], ⟨rfl, missing, fun begun hbegun => ?_⟩, created, updated,
            fun hlinks => ?_⟩
          · rw [List.prefix_nil.1 hbegun]
            exact hcontains
          · -- before it was inserted, there were no links of it
            refine mark.resolve_right fun hsame => hlinks (hsame.trans ?_)
            have habsent := (Table.contains_eq_false_iff _).2 missing
            refine List.filter_eq_nil_iff.2 fun e he howner => ?_
            exact (sound_after steps).link_ne habsent e he (of_decide_eq_true howner)
      | kept plain before found' same links =>
          cases found.symm.trans found'
          obtain ⟨begin, first, later, life, tells⟩ := ih before
          refine ⟨begin, first, later ++ [step], life.concat hcontains, ?_⟩
          rw [renewedBy_concat life, plain, if_neg Bool.false_ne_true, List.append_nil]
          refine ⟨same.created.trans tells.created, same.updated.trans tells.updated,
            fun hlinks => same.mark.trans (tells.mark ?_)⟩
          rw [← links]
          exact hlinks
      | renewed renewing before found' created updated mark =>
          cases found.symm.trans found'
          obtain ⟨begin, first, later, life, tells⟩ := ih before
          refine ⟨begin, first, later ++ [step], life.concat hcontains, ?_⟩
          rw [renewedBy_concat life, renewing, if_pos rfl]
          refine ⟨created.trans tells.created, ?_, fun _ => ?_⟩
          · rw [List.map_append, List.map_singleton, List.getLastD_concat]
            exact updated
          · rw [List.map_append, List.map_singleton, List.getLastD_concat]
            exact mark

/-- Of dates that never go back, the last one is the latest. -/
theorem le_getLastD
    {first : Date} {dates : List Date}
    (clock : (first :: dates).Pairwise (· ≤ ·)) :
    ∀ day ∈ first :: dates, day ≤ dates.getLastD first := by
  induction dates generalizing first with
  | nil =>
      intro day hday
      rw [List.mem_singleton.1 hday]
      exact Nat.le_refl first.rank
  | cons next dates ih =>
      obtain ⟨hfirst, hrest⟩ := List.pairwise_cons.1 clock
      have hnext := List.mem_cons_self (a := next) (l := dates)
      intro day hday
      rw [List.getLastD_cons]
      rcases List.mem_cons.1 hday with rfl | hday
      · exact Nat.le_trans (hfirst next hnext) (ih hrest next hnext)
      · exact ih hrest day hday

/-- After every run on a fresh store in which the days never go back, the dates of a record are that
of the step that inserted it and that of the last step that renewed it since, which is the latest
of them; so the second is not before the first, and no day on which all steps are past is before
the second.  A further step that does not renew the record moves neither. -/
theorem dates_tell_history
    {row : RecordRow}
    (clock : steps.Pairwise fun earlier later => earlier.1 ≤ later.1)
    (found : (seeded.after steps).records.get? id = some row) :
    (∃ before first later,
      seeded.IsLife id steps before first later ∧
      row.created = first.1 ∧
      row.updated
        = ((seeded.renewedBy id before first later).map Prod.fst).getLastD first.1 ∧
      ∀ renewal ∈ first :: seeded.renewedBy id before first later, renewal.1 ≤ row.updated) ∧
    row.created ≤ row.updated ∧
    (∀ today : Date, (∀ step ∈ steps, step.1 ≤ today) → row.updated ≤ today) ∧
    ∀ step row', (seeded.after steps).isRenewedBy id step = false →
      (seeded.after (steps ++ [step])).records.get? id = some row' →
        row'.created = row.created ∧ row'.updated = row.updated := by
  obtain ⟨before, first, later, life, tells⟩ := exists_isLife found
  have hlife := life.cons_renewedBy_sublist
  have hdates := (clock.sublist hlife).map Prod.fst fun _ _ hle => hle
  have hlatest : ∀ renewal ∈ first :: seeded.renewedBy id before first later,
      renewal.1 ≤ row.updated := by
    intro renewal hrenewal
    rw [tells.updated]
    exact le_getLastD hdates renewal.1 (List.mem_map_of_mem hrenewal)
  refine ⟨⟨before, first, later, life, tells.created, tells.updated, hlatest⟩, ?_, ?_, ?_⟩
  · rw [tells.created]
    exact hlatest first (List.mem_cons_self ..)
  · intro today htoday
    have hmem : row.updated ∈ (first :: seeded.renewedBy id before first later).map Prod.fst := by
      rw [tells.updated]
      exact List.getLastD_mem_cons ..
    obtain ⟨step, hstep, hday⟩ := List.mem_map.1 hmem
    rw [← hday]
    exact htoday step (hlife.subset hstep)
  · intro step row' plain found'
    have hfate := (seeded.after steps).fate_of_step id step
    rw [after_append] at found'
    cases hfate with
    | absent missing => cases missing.symm.trans found'
    | inserted missing => cases missing.symm.trans found
    | kept _ before' after' same =>
        cases before'.symm.trans found
        cases after'.symm.trans found'
        exact ⟨same.created, same.updated⟩
    | renewed renewing => cases renewing.symm.trans plain

/-- A record that is submitted on the first day gets a further link on the third one; a link that it
has already, its submission again, and the loss of its director move neither date. -/
theorem dates_of_a_linked_record :
    let day (n : Nat) (h : Calendar.IsDay 2024 1 n) : Date := ⟨2024, 1, n, by decide, h⟩
    let link (url : Wide) : LinkDraft := { name := "Trailer", url? := some url }
    let ford : PerDirect (Option (Candidate Wide)) := ⟨some { name := "Ford" }, none, none, none⟩
    let steps :=
      [ (day 1 (by decide), Operation.submit "x" { direct := ford, links := [link "u"] }),
        (day 2 (by decide), .addLinks "x" [link "u"]),
        (day 3 (by decide), .addLinks "x" [link "v"]),
        (day 4 (by decide), .submit "x" {}),
        (day 5 (by decide), .remove (.direct .director) 2) ]
    steps.Pairwise (fun earlier later => earlier.1 ≤ later.1) ∧
      ∃ row, (seeded.after steps).records.get? "x" = some row ∧
        row.created = day 1 (by decide) ∧ row.updated = day 3 (by decide) ∧
        (∃ before first later, seeded.IsLife "x" steps before first later ∧
          row.created = first.1 ∧
          row.updated
            = ((seeded.renewedBy "x" before first later).map Prod.fst).getLastD first.1) ∧
        row.created ≤ row.updated := by
  intro day link ford steps
  have clock : steps.Pairwise fun earlier later => earlier.1 ≤ later.1 := by decide
  have hdates : ((seeded.after steps).records.get? "x").map (fun row => (row.created, row.updated))
      = some (day 1 (by decide), day 3 (by decide)) := by decide
  obtain ⟨row, found, hrow⟩ := Option.map_eq_some_iff.1 hdates
  obtain ⟨hcreated, hupdated⟩ := Prod.mk.inj hrow
  obtain ⟨⟨before, first, later, life, created, updated, _⟩, ordered, _⟩ :=
    dates_tell_history clock found
  exact ⟨clock, row, found, hcreated, hupdated, ⟨before, first, later, life, created, updated⟩,
    ordered⟩

/-- After every run on a fresh store, the mark of a record that has links is unset exactly if the
last step that renewed the record in its life was a revision that sent it so.  In a run in which no
revision does, it is set. -/
theorem mark_tells_last_renewal
    {row : RecordRow}
    (found : (seeded.after steps).records.get? id = some row)
    (links : (seeded.after steps).linksOf id ≠ []) :
    (∃ before first later,
      seeded.IsLife id steps before first later ∧
      (row.details.hasLinks = false ↔
        ∃ step, (seeded.renewedBy id before first later).getLast? = some step ∧
          step.2.mark = false)) ∧
    ((∀ step ∈ steps, step.2.mark = true) → row.details.hasLinks = true) := by
  obtain ⟨before, first, later, life, tells⟩ := exists_isLife found
  have hmark := tells.mark links
  rw [List.getLastD_eq_getLast?, List.getLast?_map] at hmark
  refine ⟨⟨before, first, later, life, ?_⟩, fun unsent => ?_⟩
  · rw [hmark]
    cases (seeded.renewedBy id before first later).getLast? <;> simp
  · rw [hmark]
    cases hlast : (seeded.renewedBy id before first later).getLast? with
    | none => rfl
    | some step =>
        have hmem := List.mem_cons_of_mem first (List.mem_of_getLast? hlast)
        exact unsent step (life.cons_renewedBy_sublist.subset hmem)

/-- A record that was submitted with a link is revised with its mark unset, and revised again with
the mark set. -/
theorem marks_of_a_revised_record :
    let revision (hasLinks : Bool) : Operation :=
      .reviseRecord "x"
        { details := { title := "Trailers", hasLinks }, refs := unknownRefs, modifiedBy := "admin" }
    let steps :=
      [ (Date.epoch, Operation.submit "x" { links := [{ name := "Trailer" }] }),
        (.epoch, revision false) ]
    (∃ row, (seeded.after steps).records.get? "x" = some row ∧
      (seeded.after steps).linksOf "x" ≠ [] ∧
      ∃ before first later, seeded.IsLife "x" steps before first later ∧
        (row.details.hasLinks = false ↔
          ∃ step, (seeded.renewedBy "x" before first later).getLast? = some step ∧
            step.2.mark = false)) ∧
      ∃ row, (seeded.after [steps.head (by decide)]).records.get? "x" = some row ∧
        row.details.hasLinks = true := by
  intro revision steps
  obtain ⟨row, found⟩ : ∃ row, (seeded.after steps).records.get? "x" = some row := ⟨_, rfl⟩
  obtain ⟨row', found'⟩ : ∃ row,
      (seeded.after [steps.head (by decide)]).records.get? "x" = some row := ⟨_, rfl⟩
  have links : (seeded.after steps).linksOf "x" ≠ [] := by decide
  have links' : (seeded.after [steps.head (by decide)]).linksOf "x" ≠ [] := by decide
  exact ⟨⟨row, found, links, (mark_tells_last_renewal found links).1⟩, row', found',
    (mark_tells_last_renewal found' links').2 (by decide)⟩

/-- A revision that sends the mark unset leaves it so, whatever links the record has. -/
theorem linked_record_unmarked :
    let revision : RecordRevision :=
      { details := { title := "Trailers" }, refs := unknownRefs, modifiedBy := "admin" }
    let s := seeded.after
      [ (.epoch, .submit "x" { links := [{ name := "Trailer" }] }),
        (.epoch, .reviseRecord "x" revision) ]
    ¬ ∀ row, s.records.get? "x" = some row → s.linksOf "x" ≠ [] → row.details.hasLinks = true := by
  intro revision s h
  have hmarked := h _ rfl (by decide)
  cases hmarked

end Runs

end Store
end CardCatalog
