import CardCatalog.Proofs.Isolation
import CardCatalog.Proofs.References
import CardCatalog.Proofs.RoundTrip

/-!
# Ids that are used again

The id of a new row is one after the last, so the id of a last row that was removed, or merged with
another one, is given out again; and a record may be created under the id of one that was deleted.
Nothing that belonged to the old row is there to be taken over: in a sound store every reference,
attachment and link finds its row, so none of them waits for one.

A submission adds reference rows by enrolling its candidates one after the other, by the same steps
as if they were enrolled by themselves (`after_enrolments`).

Results: a row that is added is unclaimed (`Sound.unclaimed_of_run`), a new record has only what it
is drafted with (`Sound.hasOnly_of_createRecord`), and both hold after every run
(`nothing_revived`).
-/

namespace CardCatalog

open Calendar (Date)
open Text (Wide)

section Candidates

/-- The candidates that are named for a record, in the order in which they are enrolled. -/
def candidatesOf
    (direct : PerDirect (Option (Candidate Wide)))
    (attached : PerAttached (List (AttachedCandidate Wide))) :
    List (Kind × Candidate Wide) :=
  (DirectKind.all.flatMap fun d => (direct.get d).toList.map fun c => (.direct d, c)) ++
    AttachedKind.all.flatMap fun a => (attached.get a).map fun x => (.attached a, x.row)

/-- The candidates of a submission. -/
def Submission.candidates (sub : Submission) : List (Kind × Candidate Wide) :=
  candidatesOf sub.direct sub.attached

/-- The candidates of a resubmission. -/
def Resubmission.candidates (sub : Resubmission) : List (Kind × Candidate Wide) :=
  candidatesOf sub.direct ⟨sub.attached.genre.getD [], sub.attached.idol.getD []⟩

/-- Enrolling candidates one after the other. -/
def enrolments (today : Date) (cs : List (Kind × Candidate Wide)) : List (Date × Operation) :=
  cs.map fun c => (today, .enrol c.1 c.2)

/-- The candidates of a kind have the keys that are named for it. -/
theorem keys_candidatesOf
    {direct : PerDirect (Option (Candidate Wide))}
    {attached : PerAttached (List (AttachedCandidate Wide))}
    {direct' : PerDirect (Option (Candidate String))}
    {attached' : PerAttached (List (AttachedCandidate String))}
    (hdirect : storableDirect direct = .ok direct')
    (hattached : ∀ a, storableRows (attached.get a) = .ok (attached'.get a))
    (k : Kind) :
    ((candidatesOf direct attached).filter fun c => c.1 = k).map (fun c => c.2.key)
      = (namedKeys direct' attached' k).map NaturalKey.wide := by
  cases k with
  | direct d =>
      refine Eq.trans ?_ (wide_keys_of_storableDirect hdirect d).symm
      cases d <;> simp [candidatesOf, DirectKind.all, AttachedKind.all, List.filter_map,
        Function.comp_def]
  | attached a =>
      refine Eq.trans ?_ (wide_keys_of_storableRows (hattached a)).symm
      cases a <;> simp [candidatesOf, DirectKind.all, AttachedKind.all, List.filter_map,
        Function.comp_def]

end Candidates

namespace Store

section Enrolling

variable {today : Date}

theorem store_enrol_eq
    {c : Candidate Wide} {c' : Candidate String}
    (s : Store) (k : Kind)
    (h : c.toStorable = .ok c') :
    (Operation.run today (.enrol k c)).store s
      = s.setKeys k ((s.keys k).enrol c'.key) := by
  rw [Action.store_of_ok (run_enrol_eq today s k h), enrol_eq]

/-- Enrolling candidates leaves the records as they are. -/
theorem records_after_enrolments
    (s : Store) (cs : List (Kind × Candidate Wide)) :
    (s.after (enrolments today cs)).records = s.records := by
  induction cs generalizing s with
  | nil => rfl
  | cons c cs ih =>
      refine (ih ((Operation.run today (.enrol c.1 c.2)).store s)).trans ?_
      cases hc : c.2.toStorable with
      | error e =>
          have hrun : Operation.run today (.enrol c.1 c.2) s = .error e :=
            map_eq_error_iff.2 hc
          rw [Action.store_of_error hrun]
      | ok c' => rw [store_enrol_eq s c.1 hc, records_setKeys]

/-- Candidates that are enrolled one after the other leave their keys enrolled, those of each kind
in their order. -/
theorem after_enrolments
    {s : Store} {cs : List (Kind × Candidate Wide)} {named : Kind → List (NaturalKey String)}
    (h : ∀ k, (cs.filter fun c => c.1 = k).map (fun c => c.2.key)
      = (named k).map NaturalKey.wide) :
    s.after (enrolments today cs) = s.enrolNamed named := by
  induction cs generalizing s named with
  | nil =>
      have hnone : ∀ k, named k = [] := fun k => List.map_eq_nil_iff.1 (h k).symm
      refine ext_keys (fun k => ?_) rfl rfl rfl
      rw [keys_enrolNamed, hnone]
      rfl
  | cons c cs ih =>
      obtain ⟨k, c⟩ := c
      have hk := h k
      rw [List.filter_cons_of_pos (by simp), List.map_cons] at hk
      obtain ⟨key, rest, hnamed, hkey, hrest⟩ := List.map_eq_cons_iff.1 hk.symm
      obtain ⟨c', hc', rfl⟩ := Candidate.exists_toStorable_iff.2 hkey.symm
      -- the rest is enrolled where the first key of its kind is already
      have hothers : ∀ k', (cs.filter fun c => c.1 = k').map (fun c => c.2.key)
          = (Function.update named k rest k').map NaturalKey.wide := by
        intro k'
        by_cases hk' : k' = k
        · rw [hk', Function.update_self, hrest]
        · have hskip := h k'
          rw [List.filter_cons_of_neg (by simpa using Ne.symm hk')] at hskip
          rw [Function.update_of_ne hk', hskip]
      show ((Operation.run today (.enrol k c)).store s).after (enrolments today cs) = _
      rw [store_enrol_eq s k hc', ih hothers]
      refine ext_keys (fun k' => ?_) rfl rfl rfl
      by_cases hk' : k' = k
      · rw [hk', keys_enrolNamed, keys_enrolNamed, keys_setKeys, if_pos rfl,
          Function.update_self, hnamed]
        rfl
      · rw [keys_enrolNamed, keys_enrolNamed, keys_setKeys, if_neg hk',
          Function.update_of_ne hk']

end Enrolling

/-- A row that was added under an id is nobody's: nothing refers to the id, the row is counted
with no uses, and every record is read back as before. -/
structure Unclaimed (s : Store) (k : Kind) (i : Int) (t : Store) : Prop where
  records : t.records = s.records
  attachments : t.attachments = s.attachments
  unreferred : ∀ id row, s.records.get? id = some row → ¬ s.Refers k i id row
  unattached : ∀ a, k = .attached a → ∀ e ∈ (s.attachments.get a).rows, e.2.target ≠ i
  unused : t.Counts k i 0
  loaded : ∀ id, t.loadRecord id = s.loadRecord id

/-- A record has only the attachments and links that it is drafted with. -/
structure HasOnly (t : Store) (id : String) (d : RecordDraft) : Prop where
  attached : ∀ a,
    (t.attachmentsOf id a).map Prod.snd
      = (uniqueRefs (d.attached.get a)).map fun r => ⟨id, r.id, r.manual⟩
  links : d.links.mapM (LinkDraft.toStorable id) = .ok ((t.linksOf id).map Prod.snd)
  shown : ∃ found, t.loadRecord id = .ok (some found) ∧
    (∀ a, (found.attached.get a).map (fun x => (⟨x.row.id, x.manual⟩ : AttachedRef))
      = uniqueRefs (d.attached.get a)) ∧
    found.links = t.linksOf id

section Adding

variable {s t : Store} {k : Kind} {i : Int}

/-- Nothing refers to a row that is not there. -/
theorem Sound.not_refers
    (h : s.Sound)
    (missing : (s.keys k).contains i = false)
    {id : String} {row : RecordRow}
    (hrow : s.records.get? id = some row) :
    ¬ s.Refers k i id row := by
  intro hrefers
  cases k with
  | direct d =>
      have hfound := h.refs id row hrow d
      rw [show row.refs.get d = i from hrefers, missing] at hfound
      cases hfound
  | attached a =>
      obtain ⟨e, he, _, rfl⟩ := hrefers
      rw [h.target a e he] at missing
      cases missing

/-- In a sound store nobody claims a row that is added. -/
theorem Sound.unclaimed_push
    (h : s.Sound) (k : Kind) (key : NaturalKey String) :
    s.Unclaimed k (s.keys k).nextId (s.setKeys k ((s.keys k).push key)) := by
  have missing : (s.keys k).contains (s.keys k).nextId = false := by
    rw [Table.contains, Table.get?_nextId]
    rfl
  have hunattached : ∀ a, k = .attached a →
      ∀ e ∈ (s.attachments.get a).rows, e.2.target ≠ (s.keys k).nextId := by
    rintro a rfl e he htarget
    rw [← htarget, h.target a e he] at missing
    cases missing
  refine ⟨rfl, rfl, fun id row hrow => h.not_refers missing hrow, hunattached, ?_, fun id => ?_⟩
  · refine counts_iff.2 ⟨?_, ?_⟩
    · rw [keys_setKeys, if_pos rfl, Table.contains_push, decide_eq_true rfl]
      rfl
    · have huses : (s.setKeys k ((s.keys k).push key)).uses k (s.keys k).nextId
          = s.uses k (s.keys k).nextId := by
        cases k <;> rfl
      rw [huses]
      cases k with
      | direct d =>
          refine List.countP_eq_zero.2 fun e he hrefers => ?_
          exact h.not_refers missing (s.records.mem_rows_iff.1 he) (of_decide_eq_true hrefers)
      | attached a =>
          refine List.countP_eq_zero.2 fun e he htarget => ?_
          exact hunattached a rfl e he (of_decide_eq_true htarget)
  · refine loadRecord_congr h (fun k' i key' hkey => ?_) rfl (fun _ => rfl) rfl
    rw [keys_setKeys]
    split
    · rename_i hk
      subst hk
      exact Table.get?_push_of_some key hkey
    · exact hkey

/-- Whenever enrolling a candidate of a sound store adds a row, nobody claims it. -/
theorem Sound.unclaimed_of_run
    (h : s.Sound)
    {today : Date} {c : Candidate Wide}
    (run : Operation.run today (.enrol k c) s = .ok (.lookupId i, t))
    (missing : (s.keys k).contains i = false) :
    s.Unclaimed k i t := by
  obtain ⟨c', _, hrun⟩ := map_eq_ok_iff.1 run
  obtain ⟨hid, ht⟩ := Prod.mk.inj hrun
  have hid : (s.enrol k c').1 = i := Answer.lookupId.inj hid
  rw [enrol_eq] at hid ht
  cases hfirst : (s.keys k).firstId? c'.key with
  | some j =>
      -- a row that is answered because it holds the key is there already
      rw [Table.idFor_of_firstId? hfirst] at hid
      rw [← hid, (s.keys k).contains_iff.2 ⟨_, Table.get?_of_firstId? hfirst⟩] at missing
      cases missing
  | none =>
      simp only [Table.idFor, Table.enrol, hfirst, Option.getD_none, Option.isSome_none,
        Bool.false_eq_true, if_false] at hid ht
      rw [← hid, ← ht]
      exact h.unclaimed_push k c'.key

/-- In a sound store every attachment of a record is shown. -/
theorem Sound.map_attachedRows
    (h : s.Sound) (id : String) (a : AttachedKind) :
    (s.attachedRows id a).map (fun x => (⟨x.row.id, x.manual⟩ : AttachedRef))
      = (s.attachmentsOf id a).map fun e => ⟨e.2.target, e.2.manual⟩ := by
  have hthere :
      ((s.attachments.get a).rows.filter fun e =>
          e.2.record = id ∧ (s.keys (.attached a)).contains e.2.target = true)
        = s.attachmentsOf id a :=
    List.filter_congr fun e he => by simp [h.target a e he]
  have hrefs := congrArg (List.map fun x : Int × Bool => (⟨x.1, x.2⟩ : AttachedRef))
    (s.map_attachedRows id a)
  rw [hthere, List.map_map, List.map_map] at hrefs
  exact hrefs

/-- A record that is created in a sound store has only what it is drafted with. -/
theorem Sound.hasOnly_of_createRecord
    (h : s.Sound)
    {today : Date} {id : String} {d : RecordDraft}
    (fresh : s.records.contains id = false)
    (created : s.createRecord today id d = .ok t) :
    t.HasOnly id d := by
  have ht : t.Sound := h.of_edits (edits_of_createRecord created)
  obtain ⟨row, links, _, hlinks, rfl⟩ := created_of_createRecord fresh created
  have hattached (a : AttachedKind) :
      ((s.created id row d.attached links).attachmentsOf id a).map Prod.snd
        = (uniqueRefs (d.attached.get a)).map fun r => ⟨id, r.id, r.manual⟩ := by
    unfold attachmentsOf Store.created
    rw [PerAttached.get_ofFn]
    refine Table.map_filter_rows_pushAll (p := fun x : Attachment => decide (x.record = id)) ?_ ?_
    · exact fun e he => decide_eq_false (h.attachment_ne fresh a e he)
    · intro x hx
      obtain ⟨_, _, rfl⟩ := List.mem_map.1 hx
      exact decide_eq_true rfl
  have hlinksOf : ((s.created id row d.attached links).linksOf id).map Prod.snd = links := by
    refine Table.map_filter_rows_pushAll (p := fun l : LinkRow => decide (l.record = id)) ?_ ?_
    · exact fun e he => decide_eq_false (h.link_ne fresh e he)
    · intro l hl
      exact decide_eq_true (owner_of_links hlinks l hl)
  refine ⟨hattached, hlinksOf.symm ▸ hlinks, ?_⟩
  have hrow : (s.created id row d.attached links).records.get? id = some row :=
    (Table.get?_put ..).trans (if_pos rfl)
  obtain ⟨found, hfound⟩ := ht.exists_assemble hrow
  have heq := eq_of_assemble hfound
  refine ⟨found, ?_, fun a => ?_, ?_⟩
  · rw [loadRecord_of_some hrow, hfound]
    rfl
  · rw [heq, PerAttached.get_ofFn, ht.map_attachedRows]
    have hrefs := congrArg (List.map fun x : Attachment => (⟨x.target, x.manual⟩ : AttachedRef))
      (hattached a)
    rw [List.map_map, List.map_map] at hrefs
    exact hrefs.trans (List.map_id _)
  · rw [heq]

end Adding

end Store

/-- A draft is that of a submission whose rows have ids in a store: its attachments are to rows
that have the submitted keys. -/
structure Submission.DraftedAs (sub : Submission) (s : Store) (d : RecordDraft) : Prop where
  draft : d = sub.draft d.refs d.attached
  attached : ∀ a,
    (d.attached.get a).map
        (fun r => (((s.keys (.attached a)).get? r.id).map NaturalKey.wide, r.manual))
      = (sub.attached.get a).map fun x => (some x.row.key, x.manual)

namespace Store

section Submitting

variable {s t : Store} {today : Date} {id : String} {found? : Option Aggregate}

/-- A submission of a new record enrols its candidates, and then creates the record. -/
theorem createRecord_of_submit
    {sub : Submission}
    (fresh : s.records.contains id = false)
    (h : s.submit today id sub = .ok (found?, t)) :
    ∃ d,
      sub.DraftedAs (s.after (enrolments today sub.candidates)) d ∧
      (s.after (enrolments today sub.candidates)).createRecord today id d = .ok t := by
  obtain ⟨direct, attached, hdirect, hattached, h⟩ := created_of_submit fresh h
  have hafter : s.after (enrolments today sub.candidates)
      = s.enrolNamed (namedKeys direct attached) :=
    after_enrolments (keys_candidatesOf hdirect hattached)
  rw [hafter]
  refine ⟨_, ⟨rfl, fun a => ?_⟩, h⟩
  show List.map _ (PerAttached.get (.ofFn _) a) = _
  have hkeys := congrArg (List.map fun x : NaturalKey Wide × Bool => (some x.1, x.2))
    (keys_of_storableRows (hattached a))
  rw [List.map_map, List.map_map] at hkeys
  rw [PerAttached.get_ofFn, namedRefs, List.map_map]
  refine Eq.trans (List.map_congr_left fun x hx => ?_) hkeys.symm
  have hnamed : x.row.key ∈ namedKeys direct attached (.attached a) :=
    List.mem_map.2 ⟨x, hx, rfl⟩
  simp only [Function.comp, Table.get?_idFor (mem_values_enrolNamed (s := s) hnamed),
    Option.map_some]

/-- A resubmission for a record enrols its candidates, and then revises the record. -/
theorem reviseRecord_of_resubmit
    {sub : Resubmission}
    (found : s.records.contains id = true)
    (h : s.resubmit today id sub = .ok (found?, t)) :
    ∃ r,
      r = sub.revision r.refs r.attached ∧
      (s.after (enrolments today sub.candidates)).reviseRecord today id r
        = .ok (found?, t) := by
  obtain ⟨direct, attached, hdirect, hattached, h⟩ := revised_of_resubmit found h
  have hrows : ∀ a,
      storableRows
          (PerAttached.get ⟨sub.attached.genre.getD [], sub.attached.idol.getD []⟩ a)
        = .ok (PerAttached.get ⟨attached.genre.getD [], attached.idol.getD []⟩ a) := by
    intro a
    cases a
    · exact storableRows_getD (hattached .genre)
    · exact storableRows_getD (hattached .idol)
  have hafter : s.after (enrolments today sub.candidates)
      = s.enrolNamed (namedKeys direct ⟨attached.genre.getD [], attached.idol.getD []⟩) :=
    after_enrolments (keys_candidatesOf hdirect hrows)
  rw [hafter]
  exact ⟨_, rfl, h⟩

end Submitting

/-- After every run on a fresh store, and wherever a submission has got in enrolling its candidates
then, a row that is added by enrolling one more is unclaimed; a submission and a resubmission enrol
their candidates and then write the record; and a record that is created where there is none has
only what it is drafted with. -/
theorem nothing_revived (steps : List (Date × Operation)) (today : Date) :
    let s := seeded.after steps
    (∀ cs k c i t,
      Operation.run today (.enrol k c) (s.after (enrolments today cs)) = .ok (.lookupId i, t) →
      ((s.after (enrolments today cs)).keys k).contains i = false →
      (s.after (enrolments today cs)).Unclaimed k i t) ∧
    (∀ id sub found? t,
      s.records.contains id = false →
      s.submit today id sub = .ok (found?, t) →
      ∃ d, sub.DraftedAs (s.after (enrolments today sub.candidates)) d ∧
        (s.after (enrolments today sub.candidates)).createRecord today id d = .ok t ∧
        t.HasOnly id d) ∧
    (∀ id sub found? t,
      s.records.contains id = true →
      s.resubmit today id sub = .ok (found?, t) →
      ∃ r, r = sub.revision r.refs r.attached ∧
        (s.after (enrolments today sub.candidates)).reviseRecord today id r = .ok (found?, t)) ∧
    ∀ id d t,
      s.records.contains id = false → s.createRecord today id d = .ok t → t.HasOnly id d := by
  intro s
  have h : s.Sound := sound_after steps
  have henrolled (cs : List (Kind × Candidate Wide)) : (s.after (enrolments today cs)).Sound :=
    h.of_edits (s.edits_after (enrolments today cs))
  refine ⟨fun cs k c i t => (henrolled cs).unclaimed_of_run, fun id sub found? t fresh hsubmit => ?_,
    fun id sub found? t => reviseRecord_of_resubmit, fun id d t => h.hasOnly_of_createRecord⟩
  obtain ⟨d, hdrafted, hcreate⟩ := createRecord_of_submit fresh hsubmit
  refine ⟨d, hdrafted, hcreate, (henrolled sub.candidates).hasOnly_of_createRecord ?_ hcreate⟩
  rw [records_after_enrolments]
  exact fresh

/-- A genre takes the id of a removed one, and a record that of a deleted one. -/
theorem nothing_revived_after_removal :
    let s := seeded.after
      [ (.epoch, .submit "a"
          { attached := ⟨[⟨{ name := "Drama" }, true⟩], []⟩, links := [{ name := "Cover" }] }),
        (.epoch, .submit "b" { attached := ⟨[⟨{ name := "Drama" }, false⟩], []⟩ }),
        (.epoch, .remove (.attached .genre) 1),
        (.epoch, .deleteRecord "a") ]
    let t := (Operation.run .epoch (.enrol (.attached .genre) { name := "Comedy" })).store s
    Operation.run .epoch (.enrol (.attached .genre) { name := "Comedy" }) s
        = .ok (.lookupId 1, t) ∧
      (s.keys (.attached .genre)).contains 1 = false ∧
      s.Unclaimed (.attached .genre) 1 t ∧
      s.records.contains "a" = false ∧
      ∃ t', s.createRecord .epoch "a" {} = .ok t' ∧ t'.HasOnly "a" {} := by
  intro s t
  obtain ⟨hrows, _, _, hrecords⟩ := nothing_revived
    [ (.epoch, .submit "a"
        { attached := ⟨[⟨{ name := "Drama" }, true⟩], []⟩, links := [{ name := "Cover" }] }),
      (.epoch, .submit "b" { attached := ⟨[⟨{ name := "Drama" }, false⟩], []⟩ }),
      (.epoch, .remove (.attached .genre) 1),
      (.epoch, .deleteRecord "a") ] .epoch
  have run : Operation.run .epoch (.enrol (.attached .genre) { name := "Comedy" }) s
      = .ok (.lookupId 1, t) := rfl
  have missing : (s.keys (.attached .genre)).contains 1 = false := by decide
  have fresh : s.records.contains "a" = false := by decide
  obtain ⟨t', created⟩ : ∃ t', s.createRecord .epoch "a" {} = .ok t' := ⟨_, rfl⟩
  exact ⟨run, missing, hrows [] _ _ _ _ run missing, fresh, t', created,
    hrecords "a" {} t' fresh created⟩

end Store
end CardCatalog
