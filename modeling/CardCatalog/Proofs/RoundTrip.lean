import CardCatalog.Proofs.ServiceFaults
import CardCatalog.Proofs.StableIds
import CardCatalog.Proofs.SubmissionOrder

/-!
# What is submitted is read back

A submission of a new record is given in wide text, is stored as rows that point at each other
by ids, and is put together from these rows again.  On the way keys are repeated, named again
from before, or left out, and every attached row has two marks: its own and the one of the
attachment.  What is read back is described here in the words of the submission alone.

Results: a valid submission of a new record that can be stored is answered with itself, is read
back so as long as nothing is written, and adds one row for each key that it names and that
nobody held (`submit_round_trip`).
-/

namespace CardCatalog

open Calendar (Date)
open Text (Wide)
open Validation (Rule)

section Forms

/-- The keys of each kind that a submission names, in their order. -/
def Submission.keys (sub : Submission) : Kind → List (NaturalKey Wide)
  | .direct d => (sub.direct.get d).toList.map Candidate.key
  | .attached a => (sub.attached.get a).map fun x => x.row.key

/-- A submitted link and the row that is stored for it: what is not given has its default, and
the size is the one that is stored for a decimal. -/
structure LinkDraft.StoredAs (record : String) (l : LinkDraft) (row : LinkRow) : Prop where
  record : row.record = record
  name : Wide.ofText row.name = l.name
  size : l.storedSize? = some row.size
  date : row.date = l.date?.getD .epoch
  url : Wide.ofText row.url = l.url
  star : row.star = l.star?.getD false

end Forms

section Stored

variable {today : Date} {id : String}

theorem Candidate.key_of_toStorable
    {c : Candidate Wide} {c' : Candidate String}
    (h : c.toStorable = .ok c') :
    c.key = c'.key.wide :=
  exists_toStorable_iff.1 ⟨c', h, rfl⟩

/-- A direct row is stored under the key that it is submitted with. -/
theorem key_of_storableDirect
    {direct : PerDirect (Option (Candidate Wide))} {direct' : PerDirect (Option (Candidate String))}
    (h : storableDirect direct = .ok direct') (d : DirectKind) :
    (direct.get d).map Candidate.key
      = (direct'.get d).map fun c => c.key.wide := by
  have hd := storableDirect_eq_ok_iff.1 h d
  cases hc : direct.get d with
  | none =>
      rw [hc] at hd
      rw [← Except.ok.inj hd]
      rfl
  | some c =>
      rw [hc] at hd
      obtain ⟨c', hc', hd⟩ := map_eq_ok_iff.1 hd
      rw [← hd, Option.map_some, Option.map_some, Candidate.key_of_toStorable hc']

/-- Rows to attach are stored under the keys that they are submitted with, and with the marks
of their attachments. -/
theorem keys_of_storableRows
    {xs : List (AttachedCandidate Wide)} {ys : List (AttachedCandidate String)}
    (h : storableRows xs = .ok ys) :
    xs.map (fun x => (x.row.key, x.manual)) = ys.map fun y => (y.row.key.wide, y.manual) := by
  induction xs generalizing ys with
  | nil =>
      have hnil : ys = [] := by simpa [storableRows, pure, Except.pure, eq_comm] using h
      rw [hnil]
      rfl
  | cons x xs ih =>
      obtain ⟨y, ys, hy, hys, rfl⟩ := mapM_eq_ok_cons_iff.1 h
      obtain ⟨row, hrow, rfl⟩ := map_eq_ok_iff.1 hy
      rw [List.map_cons, List.map_cons, ih hys, Candidate.key_of_toStorable hrow]

/-- The keys of direct rows that are named are those that they are submitted with. -/
theorem wide_keys_of_storableDirect
    {direct : PerDirect (Option (Candidate Wide))} {direct' : PerDirect (Option (Candidate String))}
    (h : storableDirect direct = .ok direct') (d : DirectKind) :
    ((direct'.get d).toList.map Candidate.key).map NaturalKey.wide
      = (direct.get d).toList.map Candidate.key := by
  have hkey := key_of_storableDirect h d
  rw [List.map_map, ← Option.toList_map, ← Option.toList_map, hkey]
  rfl

/-- The keys of rows to attach that are named are those that they are submitted with. -/
theorem wide_keys_of_storableRows
    {xs : List (AttachedCandidate Wide)} {ys : List (AttachedCandidate String)}
    (h : storableRows xs = .ok ys) :
    (ys.map fun y => y.row.key).map NaturalKey.wide = xs.map fun x => x.row.key := by
  have hkeys := congrArg (List.map Prod.fst) (keys_of_storableRows h)
  simp only [List.map_map] at hkeys
  rw [List.map_map]
  exact hkeys.symm

/-- The first row of each key is the same one before and after it is stored. -/
theorem firstBy_of_storableRows
    {xs : List (AttachedCandidate Wide)} {ys : List (AttachedCandidate String)}
    (h : storableRows xs = .ok ys) :
    (firstBy (fun x => x.row.key) xs).map (fun x => (x.row.key, x.manual))
      = (firstBy (fun y => y.row.key) ys).map fun y => (y.row.key.wide, y.manual) := by
  have hwide := freshBy_map (fun x : AttachedCandidate Wide => (x.row.key, x.manual))
    (fun x => x.row.key) Prod.fst xs [] [] (by simp) (fun _ _ _ _ => Iff.rfl)
  have htext := freshBy_map (fun y : AttachedCandidate String => (y.row.key.wide, y.manual))
    (fun y => y.row.key) Prod.fst ys [] [] (by simp)
    (fun _ _ _ _ => NaturalKey.wide_inj)
  unfold firstBy
  rw [← hwide, ← htext, keys_of_storableRows h]

/-- The row of a record has what the submission says, with the links that are counted. -/
theorem record_of_submission
    {sub : Submission} {row : RecordRow}
    (h : (sub.draft unknownRefs ⟨[], []⟩).toStorable today = .ok row) :
    sub.details.title = Wide.ofText row.details.title ∧
      row.details
        = { sub.details.withTitle row.details.title with
            hasLinks := sub.details.hasLinks || !sub.links.isEmpty } ∧
      sub.creator = Wide.ofText row.creator ∧
      sub.modifiedBy = Wide.ofText row.modifiedBy ∧
      row.created = today ∧ row.updated = today := by
  obtain ⟨title, htitle, h⟩ := bind_eq_ok_iff.1 h
  obtain ⟨_, _, h⟩ := bind_eq_ok_iff.1 h
  obtain ⟨creator, hcreator, h⟩ := bind_eq_ok_iff.1 h
  obtain ⟨modifiedBy, hmodified, h⟩ := bind_eq_ok_iff.1 h
  cases h
  exact ⟨toStorable_eq_ok_iff.1 htitle, rfl, toStorable_eq_ok_iff.1 hcreator,
    toStorable_eq_ok_iff.1 hmodified, rfl, rfl⟩

theorem storedAs_of_toStorable
    {l : LinkDraft} {row : LinkRow}
    (h : l.toStorable id = .ok row) :
    l.StoredAs id row := by
  unfold LinkDraft.toStorable at h
  split at h
  · cases h
  obtain ⟨name, hname, h⟩ := bind_eq_ok_iff.1 h
  obtain ⟨url, hurl, h⟩ := bind_eq_ok_iff.1 h
  split at h
  · cases h
  · rename_i size hsize
    cases h
    exact ⟨rfl, (toStorable_eq_ok_iff.1 hname).symm, hsize, rfl,
      (toStorable_eq_ok_iff.1 hurl).symm, rfl⟩

theorem storedAs_of_links
    {links : List LinkDraft} {rows : List LinkRow}
    (h : links.mapM (LinkDraft.toStorable id) = .ok rows) :
    List.Forall₂ (LinkDraft.StoredAs id) links rows :=
  (mapM_eq_ok_iff.1 h).imp fun _ _ => storedAs_of_toStorable

/-- The keys that are named are stored as they are submitted. -/
theorem keys_of_toStorable
    {sub : Submission} {rows : SubmissionRows}
    (h : sub.toStorable today id = .ok rows) (k : Kind) :
    sub.keys k = (rows.named k).map NaturalKey.wide := by
  obtain ⟨hdirect, hattached, _, _⟩ := Store.toStorable_submission_eq_ok_iff.1 h
  cases k with
  | direct d => exact (wide_keys_of_storableDirect hdirect d).symm
  | attached a => exact (wide_keys_of_storableRows (hattached a)).symm

/-- A submission of storable texts and integers in range can be stored. -/
theorem exists_rows_of_submission
    {sub : Submission}
    (numbers : ∀ l ∈ sub.links, l.HasNumber)
    (texts : ∀ w, .text w ∈ sub.checks → w.text? ≠ none)
    (integers : ∀ n ∈ sub.details.integers, Number.InRange n)
    (today : Date) (id : String) :
    ∃ rows, sub.toStorable today id = .ok rows := by
  cases h : sub.toStorable today id with
  | ok rows => exact ⟨rows, rfl⟩
  | error e =>
      have hfirst := (stopsAt_submission numbers today id e).1 h
      obtain ⟨⟨n, hn, hrange⟩, _⟩ := (firstFault?_of_texts texts e).1 hfirst
      exact absurd (integers n (integer_mem_checks_submission.1 hn)) hrange

end Stored

namespace Store

section Reading

variable {s t : Store} {id : String} {today : Date}

/-- An operation that only reads leaves the store as it is. -/
theorem store_of_isReading
    {op : Operation}
    (h : op.isReading = true) :
    (op.run today).store s = s := by
  refine Action.store_cases (op.run today) s (fun _ _ hrun => ?_) fun _ _ => rfl
  cases ran_of_run hrun with
  | read _ _ => rfl
  | enrol | amend | remove | createRecord | reviseRecord | addLinks | deleteRecord | submit
  | resubmit => cases h

/-- A run that only reads leaves the store as it is. -/
theorem after_of_isReading
    {steps : List (Date × Operation)}
    (h : ∀ step ∈ steps, step.2.isReading = true) :
    s.after steps = s := by
  induction steps with
  | nil => rfl
  | cons step steps ih =>
      show ((step.2.run step.1).store s).after steps = s
      rw [store_of_isReading (h step (by simp))]
      exact ih fun step' hstep => h step' (List.mem_cons_of_mem step hstep)

/-- What a submission answers is what is read back. -/
theorem loadRecord_of_submit
    {sub : Submission} {found? : Option Aggregate}
    (h : s.submit today id sub = .ok (found?, t)) :
    t.loadRecord id = .ok found? := by
  cases hid : s.records.contains id with
  | true =>
      rw [submit_of_contains hid] at h
      obtain ⟨_, hload, h⟩ := map_eq_ok_iff.1 h
      cases h
      exact hload
  | false =>
      rw [submit_of_not_contains hid] at h
      obtain ⟨_, _, h⟩ := bind_eq_ok_iff.1 h
      obtain ⟨_, _, h⟩ := bind_eq_ok_iff.1 h
      obtain ⟨_, _, h⟩ := bind_eq_ok_iff.1 h
      obtain ⟨_, _, h⟩ := bind_eq_ok_iff.1 h
      obtain ⟨_, hload, h⟩ := bind_eq_ok_iff.1 h
      cases h
      exact hload

end Reading

/-- A record is what was submitted, and the store holds it and the rows that it names, and
nothing else that is new among the reference rows. -/
structure RoundTrip
    (s : Store) (today : Date) (id : String) (sub : Submission) (a : Aggregate) (t : Store) :
    Prop where
  ofId : a.id = id
  title : Wide.ofText a.details.title = sub.details.title
  /-- The other details are the submitted ones, except that links are told of if there are any. -/
  details : a.details
    = { sub.details.withTitle a.details.title with
        hasLinks := sub.details.hasLinks || !sub.links.isEmpty }
  creator : Wide.ofText a.creator = sub.creator
  modifiedBy : Wide.ofText a.modifiedBy = sub.modifiedBy
  created : a.created = today
  updated : a.updated = today
  /-- A direct row that is given has the key that it was given with. -/
  given : ∀ d c, sub.direct.get d = some c → (a.refs.get d).key.wide = c.key
  /-- In place of one that is not given stands the unknown row. -/
  notGiven : ∀ d, sub.direct.get d = none →
    s.lookup? (.direct d) unknownId = some (a.refs.get d)
  /-- Of the rows to attach the first one of each key is attached, with its mark. -/
  attached : ∀ k, (a.attached.get k).map (fun x => (x.row.key.wide, x.manual))
    = (firstBy (fun x => x.row.key) (sub.attached.get k)).map fun x => (x.row.key, x.manual)
  links : List.Forall₂ (LinkDraft.StoredAs id) sub.links (a.links.map Prod.snd)
  /-- Every key that was not held is added, once, behind the other rows. -/
  gained : ∀ k, ∃ new : List (Int × NaturalKey String),
    (t.keys k).rows = (s.keys k).rows ++ new ∧
      new.map (fun e => e.2.wide)
        = freshBy (fun key => key) ((s.keys k).values.map NaturalKey.wide) (sub.keys k)
  /-- As long as there is only reading, the record is read back as it was answered. -/
  readBack : ∀ reads : List (Date × Operation), (∀ step ∈ reads, step.2.isReading = true) →
    ∀ day, (Operation.run day (.loadRecord (Wide.ofText id))).answer (t.after reads)
      = .ok (.record (some a))

section Trips

variable {s : Store} {today : Date} {id : String}

/-- A record that is written from storable rows is what was submitted. -/
theorem roundTrip_of_stored
    {sub : Submission} {rows : SubmissionRows}
    (h : s.Sound) (numbered : s.Numbered)
    (room : s.HasRoom sub.mentions)
    (fresh : s.records.contains id = false)
    (stored : sub.toStorable today id = .ok rows) :
    ∃ a, s.submit today id sub = .ok (some a, s.written id rows) ∧
      s.RoundTrip today id sub a (s.written id rows) := by
  obtain ⟨a, hsubmit, hportrait⟩ := submit_of_stored h numbered room fresh stored
  obtain ⟨hdirect, hattached, hrecord, hlinks⟩ := toStorable_submission_eq_ok_iff.1 stored
  obtain ⟨htitle, hdetails, hcreator, hmodified, hcreated, hupdated⟩ :=
    record_of_submission hrecord
  have hload := loadRecord_of_submit hsubmit
  have hsame : a.details = rows.record.details := congrArg Portrait.details hportrait
  refine ⟨a, hsubmit, ?_⟩
  refine
    { ofId := congrArg Portrait.id hportrait
      title := by rw [hsame, htitle]
      details := by rw [hsame, ← hdetails]
      creator := ?creator
      modifiedBy := ?modifiedBy
      created := (congrArg Portrait.created hportrait).trans hcreated
      updated := (congrArg Portrait.updated hportrait).trans hupdated
      given := ?given
      notGiven := ?notGiven
      attached := ?attached
      links := ?links
      gained := ?gained
      readBack := ?readBack }
  case creator =>
    rw [hcreator]
    exact congrArg (fun p => Wide.ofText (Portrait.creator p)) hportrait
  case modifiedBy =>
    rw [hmodified]
    exact congrArg (fun p => Wide.ofText (Portrait.modifiedBy p)) hportrait
  case given =>
    intro d c hc
    have hkey := key_of_storableDirect hdirect d
    have hrefs := congrArg (fun p => (Portrait.refs p).get d) hportrait
    simp only [Aggregate.portrait, SubmissionRows.portrait, PerDirect.get_ofFn] at hrefs
    rw [hc] at hkey
    cases hc' : rows.direct.get d with
    | none =>
        rw [hc'] at hkey
        cases hkey
    | some c' =>
        rw [hc'] at hkey hrefs
        rw [hrefs]
        exact (Option.some.inj hkey).symm
  case notGiven =>
    intro d hd
    have hkey := key_of_storableDirect hdirect d
    rw [hd] at hkey
    have hnone : rows.direct.get d = none := by simpa using hkey.symm
    rw [loadRecord_of_some (s.get?_records_written id rows)] at hload
    obtain ⟨a', hassemble, ha'⟩ := map_eq_ok_iff.1 hload
    cases ha'
    have hfound := refs_of_assemble hassemble d
    simp only [PerDirect.get_ofFn, hnone, namedId] at hfound
    -- enrolling leaves the unknown row as it is
    obtain ⟨key, hunknown⟩ := (s.keys (.direct d)).contains_iff.1 (h.unknown d)
    rw [← hfound]
    simp only [lookup?, keys_written, hunknown, Table.get?_enrolAll_of_some _ hunknown]
  case attached =>
    intro k
    have hrows := congrArg (fun p => (Portrait.attached p).get k) hportrait
    simp only [Aggregate.portrait, SubmissionRows.portrait, PerAttached.get_ofFn] at hrows
    have hwide := congrArg (List.map fun x : NaturalKey String × Bool => (x.1.wide, x.2)) hrows
    simp only [List.map_map] at hwide
    rw [firstBy_of_storableRows (hattached k)]
    exact hwide
  case links =>
    have hrows : a.links.map Prod.snd = rows.links := congrArg Portrait.links hportrait
    rw [hrows]
    exact storedAs_of_links hlinks
  case gained =>
    intro k
    obtain ⟨new, hrows, hnew⟩ := (s.keys k).rows_enrolAll (rows.named k)
    refine ⟨new, by rw [keys_written, hrows], ?_⟩
    have hwide := freshBy_map NaturalKey.wide (fun key => key) (fun key => key) (rows.named k)
      (s.keys k).values ((s.keys k).values.map NaturalKey.wide)
      (fun key _ => by simp [NaturalKey.wide_inj]) (fun _ _ _ _ => NaturalKey.wide_inj)
    rw [keys_of_toStorable stored, hwide, ← hnew, List.map_map]
    rfl
  case readBack =>
    intro reads hreads day
    rw [after_of_isReading hreads]
    unfold Action.answer
    simp only [Operation.run, Wide.toStorable_ofText, ok_bind_eq, hload]
    rfl

/-- After any run, a valid submission of a new record whose texts can be stored and whose
integers are in range is answered with a record that is what was submitted. -/
theorem submit_round_trip
    (steps : List (Date × Operation)) (today : Date)
    {otherwise : Validation.IssueKind} {x : Wide × Submission} {id : String}
    (valid : (Rule.submission otherwise).Passes x)
    (room : (seeded.after steps).HasRoom x.2.mentions)
    (ofId : x.1 = Wide.ofText id)
    (fresh : (seeded.after steps).records.contains id = false)
    (texts : ∀ w, .text w ∈ x.2.checks → w.text? ≠ none)
    (integers : ∀ n ∈ x.2.details.integers, Number.InRange n) :
    ∃ a t,
      Operation.run today (.submit x.1 x.2) (seeded.after steps) = .ok (.record (some a), t) ∧
        (seeded.after steps).RoundTrip today id x.2 a t := by
  obtain ⟨_, numbers⟩ := Rule.id_and_numbers_of_submission valid
  obtain ⟨rows, hrows⟩ := exists_rows_of_submission numbers texts integers today id
  obtain ⟨a, hsubmit, htrip⟩ :=
    roundTrip_of_stored (sound_after steps) (numbered_after steps) room fresh hrows
  refine ⟨a, _, ?_, htrip⟩
  rw [run_submit, ofId, Wide.toStorable_ofText, ok_bind_eq, hsubmit]
  rfl

/-- A genre that is named twice is attached once, with the first of its marks. -/
theorem submit_repeated_genre :
    let x : Wide × Submission :=
      ("x",
        { direct := ⟨some { name := "Ford" }, none, none, none⟩
          attached := ⟨[⟨{ name := "Drama" }, true⟩, ⟨{ name := "Drama" }, false⟩], []⟩
          links := [{ name := "Cover" }] })
    (Rule.submission .modelType).Passes x ∧
      seeded.HasRoom x.2.mentions ∧
      x.1 = Wide.ofText "x" ∧
      seeded.records.contains "x" = false ∧
      (∀ w, .text w ∈ x.2.checks → w.text? ≠ none) ∧
      (∀ n ∈ x.2.details.integers, Number.InRange n) ∧
      ∃ a t, Operation.run .epoch (.submit x.1 x.2) seeded = .ok (.record (some a), t) ∧
        seeded.RoundTrip .epoch "x" x.2 a t := by
  intro x
  have valid : (Rule.submission .modelType).Passes x :=
    ⟨[], .object
      [("id", .text "x"), ("director", .object [("name", .text "Ford")]),
        ("genres", .list
          [.object [("genre", .object [("name", .text "Drama")]), ("manual", .bool true)],
            .object [("genre", .object [("name", .text "Drama")])]]),
        ("links", .list [.object [("name", .text "Cover")]])], rfl⟩
  have room : seeded.HasRoom x.2.mentions := by decide
  have fresh : seeded.records.contains "x" = false := rfl
  have texts : HasWholeTexts x.2.checks := by decide
  have integers : ∀ n ∈ x.2.details.integers, Number.InRange n := by decide
  exact ⟨valid, room, rfl, fresh, texts, integers,
    submit_round_trip [] .epoch valid room rfl fresh texts integers⟩

/-- A valid submission of a new record is not answered with itself if the link of its director
has half of a pair, though its integers are all in range. -/
theorem submit_half_link_stops :
    let x : Wide × Submission :=
      ("x", { direct := ⟨some { name := "Ford", link? := some ⟨[.half 0]⟩ }, none, none, none⟩ })
    (Rule.submission .modelType).Passes x ∧
      seeded.Lacks x.1 ∧
      (∀ n ∈ x.2.details.integers, Number.InRange n) ∧
      ¬ ∃ a t, Operation.run .epoch (.submit x.1 x.2) seeded = .ok (.record (some a), t) := by
  intro x
  refine ⟨?_, ⟨"x", rfl, rfl⟩, by decide, ?_⟩
  · exact ⟨[], .object
      [("id", .text "x"),
        ("director", .object [("name", .text "Ford"), ("link", .text ⟨[.half 0]⟩)])], rfl⟩
  · rintro ⟨a, t, h⟩
    cases h

end Trips

end Store
end CardCatalog
