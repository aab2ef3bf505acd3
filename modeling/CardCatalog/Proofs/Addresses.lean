import CardCatalog.Proofs.NoTrace
import CardCatalog.Proofs.Requests
import CardCatalog.Proofs.RoundTrip
import CardCatalog.Proofs.Routing

/-!
# The address of a record

The id of a record is any text that a client chooses, and it is also the last part of the address
of the record.  Other routes lie on the same paths, and a slash divides a path, so there are ids
whose address leads elsewhere.

Results: a record that is created is read back from its address with what was answered, unless its
id has a slash or is read as the list of ids (`created_record_read_back`); of such ids this does not
hold (`created_record_elsewhere`).
-/

namespace CardCatalog
namespace Http

open Calendar (Date)
open Text (Wide)
open Validation (IsName Rule)

/-- The request that creates a record. -/
def creation (settings : Settings) (body : Json) : Request where
  method := "POST"
  path := settings.api.basePath ++ Wide.ofText "/cards/records"
  payload := .value body

/-- The request that reads the record of an id from its address. -/
def reading (settings : Settings) (id : String) : Request where
  method := "GET"
  path := settings.api.basePath ++ (Wide.ofText "/cards/records/" ++ Wide.ofText id)

section Responses

variable {settings : Settings} {today : Date} {s t : Store} {body j : Json} {id : String}
  {sub : Submission}

/-- A record that is answered with success is the one that was found. -/
theorem found_of_ofRecord
    {status : Nat} {found? : Option Aggregate}
    (success : status < 400)
    (h : ofRecord status found? = ⟨status, .json j⟩) :
    ∃ a, found? = some a ∧ isPresentable a = true ∧ a.toJson = j := by
  cases found? with
  | none =>
      have hstatus : 404 = status := congrArg Response.status h
      omega
  | some a =>
      unfold ofRecord at h
      dsimp only at h
      split at h
      · rename_i presentable
        cases h
        exact ⟨a, rfl, presentable, rfl⟩
      · have hstatus : 500 = status := congrArg Response.status h
        omega

/-- A submission that is answered as created has answered a record that can be presented. -/
theorem submitted_of_created
    (h : (Plan.operation (.submit id sub) 201).run today s = (⟨201, .json j⟩, t)) :
    ∃ a, s.submit today id sub = .ok (some a, t) ∧ isPresentable a = true ∧ a.toJson = j := by
  cases hrun : Operation.run today (.submit id sub) s with
  | error fault =>
      rw [run_plan_of_error hrun] at h
      have hstatus : (ofFault fault).status = 201 := congrArg (fun x => x.1.status) h
      unfold ofFault at hstatus
      split at hstatus <;> simp [Response.detail, Response.failure] at hstatus
  | ok answered =>
      obtain ⟨a, s'⟩ := answered
      rw [run_plan_of_ok hrun] at h
      rw [Store.run_submit, Wide.toStorable_ofText, ok_bind_eq] at hrun
      obtain ⟨⟨found?, u⟩, hsubmit, hanswer⟩ := map_eq_ok_iff.1 hrun
      cases hanswer
      obtain ⟨hresponse, hstore⟩ := Prod.mk.inj h
      have hrecord : ofRecord 201 found? = ⟨201, .json j⟩ := hresponse
      rw [hresponse] at hstore
      obtain ⟨a, rfl, presentable, hj⟩ := found_of_ofRecord (by decide) hrecord
      cases hstore
      exact ⟨a, hsubmit, presentable, hj⟩

/-- What the request to create a record does, once its payload is a valid submission. -/
theorem respond_creation
    (today : Date) (s : Store)
    (asks : (creation settings body).Asks settings (.submit id sub)) :
    (∃ base, settings.api.basePath = Wide.ofText base) ∧ id ≠ "" ∧
      respond settings today (creation settings body) s
        = (Plan.operation (.submit id sub) 201).run today s := by
  obtain ⟨base, hbase⟩ := asks.exists_basePath
  obtain ⟨e, ps, status, what, hfound, hplan⟩ := asks
  have hcreation : find (routes settings.api.basePath) (creation settings body).method
      (creation settings body).path = .endpoint .createRecord [] := by
    unfold creation
    rw [hbase]
    exact find_creation base
  cases hcreation.symm.trans hfound
  obtain ⟨x, hx, hoperation⟩ := Validation.map_eq_valid_iff.1 hplan
  have hname : IsName x.1 := (Rule.careful_submission.of_passes ⟨_, body, hx⟩).1
  obtain ⟨w, sub'⟩ := x
  cases hoperation
  obtain ⟨_, hid, some_char⟩ := hname
  cases Wide.ofText_inj.1 hid
  exact ⟨⟨base, hbase⟩, some_char, respond_of_plan today s hcreation ⟨nofun, nofun⟩ hplan⟩

/-- A record that is submitted and can be presented is answered as created. -/
theorem created_of_submitted
    {a : Aggregate}
    (asks : (creation settings body).Asks settings (.submit id sub))
    (submitted : s.submit today id sub = .ok (some a, t))
    (presentable : isPresentable a = true) :
    respond settings today (creation settings body) s = (⟨201, .json a.toJson⟩, t) := by
  have hrun : Operation.run today (.submit id sub) s = .ok (.record (some a), t) := by
    rw [Store.run_submit, Wide.toStorable_ofText, ok_bind_eq, submitted]
    rfl
  have hanswer : ofAnswer 201 "Record" (.record (some a)) = ⟨201, .json a.toJson⟩ :=
    if_pos presentable
  rw [(respond_creation today s asks).2.2, run_plan_of_ok hrun, hanswer]
  rfl

/-- A record that is read from its address is answered, if it is there. -/
theorem respond_reading
    {base : String} {a : Aggregate}
    (hbase : settings.api.basePath = Wide.ofText base)
    (some_char : id ≠ "")
    (flat : '/' ∉ id.toList)
    (other : id ≠ "ids" ∧ id ≠ "ids\n")
    (load : s.loadRecord id = .ok (some a))
    (presentable : isPresentable a = true) :
    respond settings today (reading settings id) s = (⟨200, .json a.toJson⟩, s) := by
  have hfound : find (routes settings.api.basePath) (reading settings id).method
      (reading settings id).path = .endpoint .getRecord [("record_id", Wide.ofText id)] := by
    unfold reading
    rw [hbase]
    exact find_record base some_char flat other
  have hrun : Operation.run today (.loadRecord id) s = .ok (.record (some a), s) := by
    rw [Store.run_loadRecord, load]
    rfl
  have hplan : plan settings .getRecord [("record_id", Wide.ofText id)] (reading settings id)
      = .valid (.operation (.loadRecord id)) := rfl
  rw [respond_of_plan today s hfound ⟨nofun, nofun⟩ hplan, run_plan_of_reading hrun]
  show (ofRecord 200 (some a), s) = _
  rw [ofRecord, if_pos presentable]
  rfl

/-- In every store, a record that is answered as created is read back from its address with the
same answer, on any day, unless its id has a slash or is read as the list of ids. -/
theorem created_record_read_back
    (later : Date)
    (asks : (creation settings body).Asks settings (.submit id sub))
    (created : respond settings today (creation settings body) s = (⟨201, .json j⟩, t))
    (flat : '/' ∉ id.toList)
    (other : id ≠ "ids" ∧ id ≠ "ids\n") :
    respond settings later (reading settings id) t = (⟨200, .json j⟩, t) := by
  obtain ⟨⟨base, hbase⟩, some_char, hrespond⟩ := respond_creation today s asks
  rw [hrespond] at created
  obtain ⟨a, hsubmit, presentable, rfl⟩ := submitted_of_created created
  exact respond_reading hbase some_char flat other (Store.loadRecord_of_submit hsubmit) presentable

/-- An id may begin like the other routes below the records: its address still leads to its
record. -/
theorem created_record_at_its_address :
    ∃ j t,
      (creation {} (.object [("id", .text "by-ids")])).Asks {} (.submit "by-ids" {}) ∧
        respond {} .epoch (creation {} (.object [("id", .text "by-ids")])) .seeded
          = (⟨201, .json j⟩, t) ∧
        '/' ∉ "by-ids".toList ∧ ("by-ids" ≠ "ids" ∧ "by-ids" ≠ "ids\n") ∧
        respond {} .epoch (reading {} "by-ids") t = (⟨200, .json j⟩, t) := by
  have asks : (creation {} (.object [("id", .text "by-ids")])).Asks {} (.submit "by-ids" {}) :=
    ⟨.createRecord, [], 201, "Record", rfl, rfl⟩
  obtain ⟨a, t, submitted, presentable⟩ : ∃ a t,
      Store.seeded.submit .epoch "by-ids" {} = .ok (some a, t) ∧ isPresentable a = true :=
    ⟨_, _, rfl, rfl⟩
  have created := created_of_submitted asks submitted presentable
  have flat : '/' ∉ "by-ids".toList := by decide
  have other : "by-ids" ≠ "ids" ∧ "by-ids" ≠ "ids\n" := by decide
  exact ⟨a.toJson, t, asks, created, flat, other,
    created_record_read_back .epoch asks created flat other⟩

/-- Whether a record of an id is created in the empty store, and not read back from its address. -/
def LeadsElsewhere (settings : Settings) (id : String) : Prop :=
  ∃ sub j t,
    (creation settings (.object [("id", .text id)])).Asks settings (.submit id sub) ∧
      respond settings .epoch (creation settings (.object [("id", .text id)])) .seeded
        = (⟨201, .json j⟩, t) ∧
      (respond settings .epoch (reading settings id) t).1 ≠ ⟨200, .json j⟩

theorem leadsElsewhere_of_submitted
    {a : Aggregate}
    (asks : (creation settings (.object [("id", .text id)])).Asks settings (.submit id sub))
    (submitted : Store.seeded.submit .epoch id sub = .ok (some a, t))
    (presentable : isPresentable a = true)
    (elsewhere : (respond settings .epoch (reading settings id) t).1 ≠ ⟨200, .json a.toJson⟩) :
    LeadsElsewhere settings id :=
  ⟨sub, a.toJson, t, asks, created_of_submitted asks submitted presentable, elsewhere⟩

/-- At an address that leads to the list of ids, no record is answered. -/
theorem respond_reading_ids
    (found : find (routes settings.api.basePath) (reading settings id).method
      (reading settings id).path = .endpoint .recordIds [])
    (a : Aggregate) :
    (respond settings today (reading settings id) s).1 ≠ ⟨200, .json a.toJson⟩ := by
  have hrun : Operation.run today .recordIds s = .ok (.recordIds s.recordIds, s) := rfl
  rw [respond_of_plan today s found ⟨nofun, nofun⟩ rfl, run_plan_of_reading hrun]
  intro h
  cases congrArg Response.body h

/-- Of the ids that are left out above, two lead to the list of ids, and one leads nowhere. -/
theorem created_record_elsewhere :
    LeadsElsewhere {} "ids" ∧ LeadsElsewhere {} "ids\n" ∧ LeadsElsewhere {} "a/b" := by
  refine ⟨?ids, ?ids_line, ?slash⟩
  case ids =>
    exact leadsElsewhere_of_submitted ⟨.createRecord, [], 201, "Record", rfl, rfl⟩ rfl rfl
      (respond_reading_ids rfl _)
  case ids_line =>
    exact leadsElsewhere_of_submitted ⟨.createRecord, [], 201, "Record", rfl, rfl⟩ rfl rfl
      (respond_reading_ids rfl _)
  case slash =>
    refine leadsElsewhere_of_submitted ⟨.createRecord, [], 201, "Record", rfl, rfl⟩ rfl rfl ?_
    intro h
    cases congrArg Response.status h

end Responses

end Http
end CardCatalog
