import CardCatalog.Proofs.AddedLinks

/-!
# Writing twice

A client that is not sure whether a write went through sends it again.  The second time the rows
that it names are held already, the record is there, and its addresses are known; what a
resubmission detaches are the last rows of their tables, so that the rows that it attaches again
take the same ids.

Results: a submission, a resubmission and an addition of links that are sent again find the store
as they leave it (`writes_repeatable`).
-/

namespace CardCatalog

open Calendar (Date)
open Text (Wide)

/-- A revision that is stored may be stored again in place of itself. -/
theorem RecordRevision.toStorable_again
    {today : Date} {r : RecordRevision} {old row : RecordRow}
    (h : r.toStorable today old = .ok row) :
    r.toStorable today row = .ok row ∧ row.refs = r.refs := by
  obtain ⟨title, htitle, h⟩ := bind_eq_ok_iff.1 h
  obtain ⟨_, hrange, h⟩ := bind_eq_ok_iff.1 h
  obtain ⟨modifiedBy, hmodified, h⟩ := bind_eq_ok_iff.1 h
  cases h
  refine ⟨?_, rfl⟩
  unfold RecordRevision.toStorable
  rw [htitle, ok_bind_eq, hrange, ok_bind_eq, hmodified]
  rfl

namespace Store

section Submissions

variable {s t : Store} {id : String} {today : Date}

/-- After a submission its record is there. -/
theorem contains_of_submit
    {sub : Submission} {found? : Option Aggregate}
    (h : s.submit today id sub = .ok (found?, t)) :
    t.records.contains id = true := by
  cases hid : s.records.contains id with
  | true =>
      rw [submit_of_contains hid] at h
      obtain ⟨_, _, h⟩ := map_eq_ok_iff.1 h
      cases h
      exact hid
  | false =>
      obtain ⟨direct, attached, _, _, h⟩ := created_of_submit hid h
      obtain ⟨row, links, _, _, rfl⟩ :=
        created_of_createRecord (s := s.enrolNamed (namedKeys direct attached)) hid h
      simp [created]

/-- Whatever is submitted next under an id, the record that was submitted is answered. -/
theorem submit_again
    {sub : Submission} {found? : Option Aggregate}
    (h : s.submit today id sub = .ok (found?, t))
    (later : Date) (other : Submission) :
    t.submit later id other = .ok (found?, t) := by
  rw [submit_of_contains (contains_of_submit h), loadRecord_of_submit h]
  rfl

end Submissions

section Resubmissions

variable {s t : Store} {id : String} {today : Date}

/-- What was attached in an exchange is detached again. -/
theorem filter_exchanged_self
    (rows : Table Int Attachment) (id : String) (refs : List AttachedRef) :
    ((exchanged rows id (some refs)).filter fun _ x => x.record ≠ id)
      = rows.filter fun _ x => x.record ≠ id := by
  refine Table.ext_rows ?_
  have hfail : ∀ x ∈ (uniqueRefs refs).map (fun r => (⟨id, r.id, r.manual⟩ : Attachment)),
      decide (x.record ≠ id) = false := by
    intro x hx
    obtain ⟨_, _, rfl⟩ := List.mem_map.1 hx
    simp
  have hrows := (rows.filter fun _ x => x.record ≠ id).filter_rows_pushAll hfail
  show ((exchanged rows id (some refs)).rows.filter fun e => decide (e.2.record ≠ id)) = _
  refine hrows.trans ?_
  show ((rows.rows.filter fun e => decide (e.2.record ≠ id)).filter fun e =>
    decide (e.2.record ≠ id)) = rows.rows.filter fun e => decide (e.2.record ≠ id)
  rw [List.filter_filter]
  simp

/-- A record that is revised is cleared to what it was cleared to before, but for its row. -/
theorem clearGiven_revised
    (s : Store) (id : String) (row : RecordRow)
    (given : PerAttached (Option (List AttachedRef))) :
    (s.revised id row given).clearGiven id given
      = { s.clearGiven id given with records := s.records.put id row } := by
  refine ext_keys (fun k => ?_) ?_ ?_ ?_
  · rw [keys_clearGiven]
    exact (s.keys_clearGiven id given k).symm
  · rw [records_clearGiven]
    rfl
  · refine PerAttached.ext_get fun a => ?_
    rw [attachments_clearGiven, attachments_clearGiven]
    cases hgiven : given.get a with
    | none => simp [revised, exchanged, hgiven]
    | some refs =>
        simp only [revised, PerAttached.get_ofFn, hgiven, Option.isSome_some, if_true]
        exact filter_exchanged_self _ id refs
  · rw [links_clearGiven, links_clearGiven]
    rfl

/-- A revision that went through finds the store as it left it. -/
theorem reviseRecord_again
    {r : RecordRevision} {old : RecordRow} {found? : Option Aggregate}
    (hold : s.records.get? id = some old)
    (h : s.reviseRecord today id r = .ok (found?, t)) :
    t.reviseRecord today id r = .ok (found?, t) := by
  obtain ⟨row, hrow, ht⟩ := revised_of_reviseRecord hold h
  obtain ⟨hagain, hrefs⟩ := RecordRevision.toStorable_again hrow
  have hnew : t.records.get? id = some row := by
    rw [ht]
    simp [revised]
  have hresolves :
      require
        (∀ k ∈ DirectKind.all, r.refs.get k = row.refs.get k
          ∨ ((t.clearGiven id r.attached).keys (.direct k)).contains (r.refs.get k) = true)
        .missingParent = .ok () :=
    require_eq_ok_iff.2 fun k _ => Or.inl (by rw [hrefs])
  -- both times the same rows are attached to the same store
  have hcleared :
      ({ t.clearGiven id r.attached with
          records := (t.clearGiven id r.attached).records.put id row } : Store)
        = { s.clearGiven id r.attached with
            records := (s.clearGiven id r.attached).records.put id row } := by
    rw [ht, clearGiven_revised]
    simp
  rw [reviseRecord_of_some hold, hrow, ok_bind_eq] at h
  obtain ⟨_, _, hrest⟩ := bind_eq_ok_iff.1 h
  rw [reviseRecord_of_some hnew, hagain, ok_bind_eq, hresolves, ok_bind_eq, hcleared]
  exact hrest

/-- A resubmission that went through finds the store as it left it. -/
theorem resubmit_again
    {sub : Resubmission} {found? : Option Aggregate}
    (h : s.resubmit today id sub = .ok (found?, t)) :
    t.resubmit today id sub = .ok (found?, t) := by
  cases hid : s.records.contains id with
  | false =>
      have hsame := h
      rw [resubmit_of_not_contains hid] at hsame
      cases hsame
      exact h
  | true =>
      obtain ⟨direct, attached, hdirect, hattached, hrevise⟩ := revised_of_resubmit hid h
      generalize hnamed :
        namedKeys direct ⟨attached.genre.getD [], attached.idol.getD []⟩ = named at hrevise
      obtain ⟨old, hold⟩ := s.records.contains_iff.1 hid
      obtain ⟨row, _, ht⟩ :=
        revised_of_reviseRecord (s := s.enrolNamed named) hold hrevise
      have hfound : t.records.contains id = true := by
        rw [ht]
        simp [revised]
      have hkeys : ∀ k, t.keys k = (s.enrolNamed named).keys k := by
        intro k
        rw [ht]
        rfl
      have henrolled : t.enrolNamed named = t := by
        refine enrolNamed_eq_self fun k key hkey => ?_
        rw [hkeys, keys_enrolNamed]
        exact Table.mem_values_enrolAll.2 (Or.inr hkey)
      rw [resubmit_eq_reviseRecord hfound hdirect hattached, hnamed, henrolled]
      simp only [hkeys]
      exact reviseRecord_again (s := s.enrolNamed named) hold hrevise

end Resubmissions

section Links

variable {s t : Store} {id : String} {today : Date}

/-- Of links that were added to a record, none is added again. -/
theorem addLinks_again
    {links : List LinkDraft} {count? : Option Nat}
    (h : s.addLinks today id links = .ok (count?, t))
    (later : Date) :
    t.addLinks later id links = .ok (count?.map fun _ => 0, t) := by
  obtain ⟨hnone, rfl, rfl⟩ | ⟨old, rows, hold, hrows, rfl, rfl⟩ := linked_of_addLinks h
  · exact addLinks_of_none hnone
  · refine (addLinks_eq_ok_iff (get?_records_linked hold)).2 ⟨[], ?_, rfl, rfl⟩
    rw [freshLinks_linked today old hrows]
    rfl

end Links

/-- Whatever a store holds, a write that went through finds it as it left it when it is sent once
more: a submission is answered the same at any time and whatever is submitted under its id, a
resubmission is answered the same on the same day, and of links none is added. -/
theorem writes_repeatable (s : Store) (today : Date) (w : Wide) :
    (∀ sub a t, Operation.run today (.submit w sub) s = .ok (a, t) →
      ∀ later other, Operation.run later (.submit w other) t = .ok (a, t)) ∧
    (∀ sub a t, Operation.run today (.resubmit w sub) s = .ok (a, t) →
      Operation.run today (.resubmit w sub) t = .ok (a, t)) ∧
    ∀ links count? t, Operation.run today (.addLinks w links) s = .ok (.added count?, t) →
      ∀ later, Operation.run later (.addLinks w links) t
        = .ok (.added (count?.map fun _ => 0), t) := by
  refine ⟨fun sub a t h later other => ?_, fun sub a t h => ?_, fun links count? t h later => ?_⟩
  · rw [run_submit] at h ⊢
    obtain ⟨id, hid, h⟩ := bind_eq_ok_iff.1 h
    obtain ⟨_, hsubmit, h⟩ := map_eq_ok_iff.1 h
    cases h
    rw [hid, ok_bind_eq, submit_again hsubmit]
    rfl
  · rw [run_resubmit] at h ⊢
    obtain ⟨id, hid, h⟩ := bind_eq_ok_iff.1 h
    obtain ⟨_, hresubmit, h⟩ := map_eq_ok_iff.1 h
    cases h
    rw [hid, ok_bind_eq, resubmit_again hresubmit]
    rfl
  · rw [run_addLinks] at h ⊢
    obtain ⟨id, hid, h⟩ := bind_eq_ok_iff.1 h
    obtain ⟨_, hadd, h⟩ := map_eq_ok_iff.1 h
    cases h
    rw [hid, ok_bind_eq, addLinks_again hadd]
    rfl

/-- A record exchanges its genre for two others, although another record has attachments behind
its own, and gets one link of two with the same address; sent again, neither changes a row. -/
theorem writes_repeated_beside_another :
    let drama : List (AttachedCandidate Wide) := [⟨{ name := "Drama" }, true⟩]
    let crime : List (AttachedCandidate Wide) :=
      [⟨{ name := "Crime" }, false⟩, ⟨{ name := "Noir" }, false⟩]
    let s := seeded.after
      [ (.epoch, .submit "a" { attached := ⟨drama, []⟩ }),
        (.epoch, .submit "b" { attached := ⟨drama, []⟩ }) ]
    let submit : Operation := .submit "c" { attached := ⟨crime, []⟩ }
    let resubmit : Operation :=
      .resubmit "a" { details := { title := "Laura" }, attached := ⟨some crime, none⟩ }
    let add : Operation := .addLinks "a" [{ name := "Cover" }, { name := "Poster" }]
    let after (op : Operation) : Store := (op.run .epoch).store s
    (∃ a, submit.run .epoch s = .ok (a, after submit) ∧
      ∀ later other, Operation.run later (.submit "c" other) (after submit)
        = .ok (a, after submit)) ∧
    (∃ a, resubmit.run .epoch s = .ok (a, after resubmit) ∧
      resubmit.run .epoch (after resubmit) = .ok (a, after resubmit)) ∧
    add.run .epoch s = .ok (.added (some 1), after add) ∧
      ∀ later, add.run later (after add) = .ok (.added (some 0), after add) := by
  intro drama crime s submit resubmit add after
  have hran : ∀ op : Operation, (op.run .epoch s).isOk = true →
      ∃ a, op.run .epoch s = .ok (a, after op) := by
    intro op hop
    cases h : op.run .epoch s with
    | error e =>
        rw [h] at hop
        cases hop
    | ok out => exact ⟨out.1, by simp only [after, Action.store_of_ok h]⟩
  obtain ⟨created, hsubmit⟩ := hran submit (by decide)
  obtain ⟨revised, hresubmit⟩ := hran resubmit (by decide)
  have hadd : add.run .epoch s = .ok (.added (some 1), after add) := by decide
  exact ⟨⟨created, hsubmit, (writes_repeatable s .epoch "c").1 _ _ _ hsubmit⟩,
    ⟨revised, hresubmit, (writes_repeatable s .epoch "a").2.1 _ _ _ hresubmit⟩,
    hadd, (writes_repeatable s .epoch "a").2.2 _ _ _ hadd⟩

end Store
end CardCatalog
