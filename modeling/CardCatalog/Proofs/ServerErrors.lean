import CardCatalog.Proofs.Presentable
import CardCatalog.Proofs.Protection

/-!
# Server errors

A server error is a response with a status from 500 on.  A request gets one if the operation that
it asks for stops, unless it stops to protect an unknown row; if a record that it is answered
with cannot be presented; and if what is wrong with it cannot be echoed.  Sizes of links have no
bound when links are added to a record, so a size that is beyond the doubles is stored as an
infinite one, and the record is not presented any more.

The day of a request is what the clock tells, and the clock is given to the service.  A clock
that cannot tell the day, as in a time zone that does not exist, is left out.

Results: as long as no infinite size is added, no request gets a server error that is a text
throughout and not nested too deep, has its integers in range and its sizes finite, searches with
short patterns and finds room for the rows that it names (`status_respond_lt`).
-/

namespace CardCatalog

open Calendar (Date)
open Text (Wide)
open Validation (Issue IsTitle)

namespace Http

section Steps

variable {settings : Settings} {today : Date} {r : Request} {s : Store}

/-- Whether all links that a request adds to a record have finite sizes. -/
def Request.AddsFiniteSizes (settings : Settings) (r : Request) : Prop :=
  ∀ w links, r.Asks settings (.addLinks w links) → ∀ l ∈ links, l.HasFiniteSize

/-- A response leaves the store as it was, or is the success of what was asked for. -/
theorem store_of_respond (settings : Settings) (today : Date) (r : Request) (s : Store) :
    (respond settings today r s).2 = s ∨
      ∃ op status what a, r.Asks settings op ∧
        op.run today s = .ok (a, (respond settings today r s).2) ∧
        (ofAnswer status what a).status < 400 := by
  have hresult := result_respond settings today r s
  generalize respond settings today r s = x at hresult
  cases hresult with
  | told | refused | redirected => exact Or.inl rfl
  | @run e ps op status what found valid =>
      cases hrun : op.run today s with
      | error f =>
          rw [run_plan_of_error hrun]
          exact Or.inl rfl
      | ok answered =>
          obtain ⟨a, s'⟩ := answered
          rw [run_plan_of_ok hrun]
          by_cases hstatus : (ofAnswer status what a).status < 400
          · rw [if_pos hstatus]
            exact Or.inr
              ⟨op, status, what, a, ⟨e, ps, status, what, found, valid⟩, hrun, hstatus⟩
          · rw [if_neg hstatus]
            exact Or.inl rfl

theorem edits_respond (settings : Settings) (today : Date) (r : Request) (s : Store) :
    Edits s (respond settings today r s).2 := by
  rcases store_of_respond settings today r s with hsame | ⟨op, _, _, _, _, hrun, _⟩
  · rw [hsame]
  · exact op.edits_of_run hrun

theorem isTitle_of_isFormed
    {op : Operation}
    (formed : op.IsFormed settings) :
    ∀ w ∈ op.titles, IsTitle w := by
  cases op with
  | submit w sub =>
      intro title htitle
      cases List.mem_singleton.1 htitle
      exact formed.2.1
  | resubmit w sub =>
      intro title htitle
      cases List.mem_singleton.1 htitle
      exact formed
  | createRecord | reviseRecord => exact formed.elim
  | findLookup | allLookups | listLookups | pageLookups | enrol | amend | remove | recordCounts
  | loadRecord | hasRecord | recordIds | listRecords | pageRecords | recordsBy | deleteRecord
  | addLinks =>
      intro title htitle
      cases htitle

/-- A store stays presentable if an operation has been formed and brings in finite sizes. -/
theorem presentable_of_run
    {op : Operation} {a : Answer} {t : Store}
    (h : s.Presentable)
    (formed : op.IsFormed settings)
    (sizes : ∀ l ∈ op.links, l.HasFiniteSize)
    (hrun : op.run today s = .ok (a, t)) :
    t.Presentable := by
  obtain ⟨id, hbrings⟩ := Store.brings_of_run hrun
  refine h.of_brings hbrings (isTitle_of_isFormed formed) fun e _ hnew => ?_
  obtain ⟨l, hl, hstored⟩ := hnew
  exact sizes l hl e.2.size (storedAs_of_toStorable hstored).size

/-- A record is answered with success only if it can be presented. -/
theorem isPresentable_of_success
    {status : Nat} {what : String} {found : Aggregate}
    (h : (ofAnswer status what (.record (some found))).status < 400) :
    isPresentable found = true := by
  by_contra hfound
  simp [ofAnswer, ofRecord, hfound, Response.failure] at h

/-- What a submission writes is presentable if its record is answered with success. -/
theorem presentable_of_submit
    {id : String} {sub : Submission} {found : Aggregate} {t : Store}
    (h : s.Presentable)
    (title : IsTitle sub.details.title)
    (hsubmit : s.submit today id sub = .ok (some found, t))
    (presented : isPresentable found = true) :
    t.Presentable := by
  refine h.of_brings (Store.brings_of_submit hsubmit) (by simpa using title) fun e he hnew => ?_
  -- the new links belong to the record, which is answered with all of them
  obtain ⟨l, _, hstored⟩ := hnew
  have hload := Store.loadRecord_of_submit hsubmit
  cases hrow : t.records.get? id with
  | none =>
      rw [Store.loadRecord_of_none hrow] at hload
      cases hload
  | some row =>
      rw [Store.loadRecord_of_some hrow] at hload
      obtain ⟨a, hassemble, hload⟩ := map_eq_ok_iff.1 hload
      cases hload
      have hfinite := (isPresentable_iff.1 presented).2
      rw [(Store.details_and_links_of_assemble hassemble).2] at hfinite
      exact hfinite e (List.mem_filter.2 ⟨he, decide_eq_true (record_of_toStorable hstored)⟩)

/-- A store stays presentable after a request that adds finite sizes only: what is submitted
with another size is answered with a failure, and not kept. -/
theorem presentable_respond
    (h : s.Presentable) (finite : r.AddsFiniteSizes settings) :
    (respond settings today r s).2.Presentable := by
  rcases store_of_respond settings today r s with hsame | ⟨op, status, what, a, hasks, hrun, hok⟩
  · rw [hsame]
    exact h
  generalize (respond settings today r s).2 = t at hrun
  have hformed := isFormed_of_asks hasks
  cases op with
  | submit w sub =>
      obtain ⟨id, _, hrun⟩ := bind_eq_ok_iff.1 hrun
      obtain ⟨⟨found?, u⟩, hsubmit, hrun⟩ := bind_eq_ok_iff.1 hrun
      cases hrun
      cases found? with
      | none => exact absurd hsubmit (Store.submit_ne_none sub)
      | some found =>
          exact presentable_of_submit h hformed.2.1 hsubmit (isPresentable_of_success hok)
  | addLinks w links => exact presentable_of_run h hformed (finite w links hasks) hrun
  | createRecord | reviseRecord => exact hformed.elim
  | findLookup | allLookups | listLookups | pageLookups | enrol | amend | remove | recordCounts
  | loadRecord | hasRecord | recordIds | listRecords | pageRecords | recordsBy | deleteRecord
  | resubmit => exact presentable_of_run h hformed (fun l hl => by cases hl) hrun

end Steps

section Runs

variable {settings : Settings}

/-- The store after requests, each on its own day. -/
def after (settings : Settings) (s : Store) (requests : List (Date × Request)) : Store :=
  settle s (requests.map fun x => .request settings x.1 x.2)

theorem edits_after (settings : Settings) (s : Store) (requests : List (Date × Request)) :
    Edits s (after settings s requests) := by
  induction requests generalizing s with
  | nil => exact .refl
  | cons x requests ih => exact (edits_respond settings x.1 x.2 s).trans (ih _)

theorem presentable_after
    {s : Store} {requests : List (Date × Request)}
    (h : s.Presentable)
    (finite : ∀ x ∈ requests, x.2.AddsFiniteSizes settings) :
    (after settings s requests).Presentable := by
  induction requests generalizing s with
  | nil => exact h
  | cons x requests ih =>
      have hstep : (respond settings x.1 x.2 s).2.Presentable :=
        presentable_respond h (finite x (by simp))
      exact ih hstep fun y hy => finite y (List.mem_cons_of_mem x hy)

end Runs

/-- A request that a store can be expected to answer: it is a text throughout, has no doubles
beyond the finite ones, and is nested no deeper than an echo can be; what it asks for has its
integers in range and its sizes finite, searches with short patterns, and finds room for the rows
that it names. -/
structure Request.IsWellFormed (settings : Settings) (s : Store) (r : Request) : Prop where
  path : r.path.text? ≠ none
  payload : ∀ j, r.payload = .value j → isEchoable j = true
  integers : ∀ op, r.Asks settings op → ∀ n, .integer n ∈ op.checks → Number.InRange n
  sizes : ∀ op, r.Asks settings op → ∀ l ∈ op.links, l.HasFiniteSize
  patterns : ∀ op, r.Asks settings op → ∀ w ∈ op.criteria, w.HasShortPattern
  room : ∀ op, r.Asks settings op → s.HasRoom op.mentions

section Responses

variable {settings : Settings} {today : Date} {r : Request} {s : Store}

theorem status_ofFault_lt
    {f : Fault}
    (h : f.IsProtection) :
    (ofFault f).status < 500 := by
  cases f with
  | protectedRow k id => exact (by decide : 409 < 500)
  | _ => exact h.elim

/-- What is wrong with a request is echoed. -/
theorem status_invalid_lt
    {issues : List Issue}
    (h : ∀ i ∈ issues, isEchoable i.input = true) :
    (Response.invalid issues).status < 500 := by
  unfold Response.invalid
  rw [if_pos (List.all_eq_true.2 h)]
  exact (by decide : 422 < 500)

/-- On a sound and presentable store, a request that is well-formed gets no server error. -/
theorem status_respond_lt_of_sound
    (sound : s.Sound) (numbered : s.Numbered) (presentable : s.Presentable)
    (default : Number.InRange settings.pagination.defaultLimit)
    (h : r.IsWellFormed settings s) :
    (respond settings today r s).1.status < 500 := by
  have hcareful {e : Endpoint} {ps : Parameters}
      (found : find (routes settings.api.basePath) r.method r.path = .endpoint e ps) :
      (plan settings e ps r).Careful True (Plan.IsSensible settings True) :=
    careful_plan settings e (fun _ => whole_of_find_endpoint found h.path)
      fun j hj _ => h.payload j hj
  have hresult := result_respond settings today r s
  generalize respond settings today r s = x at hresult
  cases hresult with
  | told response handled => exact handled
  | refused found invalid =>
      refine status_invalid_lt fun i hi => (hcareful found).issues trivial i ?_
      rw [invalid]
      exact hi
  | @redirected path found =>
      obtain ⟨p, hp⟩ := Option.ne_none_iff_exists'.1 (whole_of_find_redirect found h.path)
      unfold redirected
      rw [hp]
      exact (by decide : 307 < 500)
  | @run e ps op status what found valid =>
      have hasks : r.Asks settings op := ⟨e, ps, status, what, found, valid⟩
      obtain ⟨hstatus, hformed, htexts⟩ := (hcareful found).valid _ valid
      have hpass : ∀ c ∈ op.checks, c.fault? = none := by
        intro c hc
        cases c with
        | text w => rw [Check.fault?, if_neg (htexts trivial w hc)]
        | integer n => rw [Check.fault?, if_pos (h.integers op hasks n hc)]
      cases hrun : op.run today s with
      | error f =>
          rw [run_plan_of_error hrun]
          exact status_ofFault_lt (sound.protective_run numbered default hformed
            (h.room op hasks) hpass (h.patterns op hasks) today f hrun)
      | ok answered =>
          obtain ⟨a, t⟩ := answered
          rw [run_plan_of_ok hrun]
          have ht := presentable_of_run presentable hformed (h.sizes op hasks) hrun
          refine status_ofAnswer_lt (by omega) (fun found hfound => ?_) what
          exact ht.isPresentable (Store.isAssembled_of_run hrun hfound)

/-- After any requests that add no infinite size, a request that is well-formed gets no server
error, whatever day the clock tells: what was stored can be assembled and presented. -/
theorem status_respond_lt
    (settings : Settings) (requests : List (Date × Request)) (today : Date) (r : Request)
    (default : Number.InRange settings.pagination.defaultLimit)
    (finite : ∀ x ∈ requests, x.2.AddsFiniteSizes settings)
    (h : r.IsWellFormed settings (after settings .seeded requests)) :
    (respond settings today r (after settings .seeded requests)).1.status < 500 := by
  have hedits := edits_after settings .seeded requests
  refine status_respond_lt_of_sound ?_ ?_ (presentable_after Store.presentable_seeded finite)
    default h
  · exact Store.sound_seeded.of_edits hedits
  · exact hedits.invariant (fun _ _ => Store.numbered_of_edit) Store.numbered_seeded

/-- A record may be asked for wherever there is a store. -/
theorem isWellFormed_of_asks_loadRecord
    {w : Wide}
    (path : r.path.text? ≠ none)
    (payload : r.payload = .absent)
    (asks : r.Asks settings (.loadRecord w))
    (room : s.HasRoom fun _ => 0) :
    r.IsWellFormed settings s where
  path := path
  payload j hj := by
    rw [payload] at hj
    cases hj
  integers op hop n hn := by
    cases asks.eq hop
    cases List.mem_singleton.1 hn
  sizes op hop l hl := by
    cases asks.eq hop
    cases hl
  patterns op hop w hw := by
    cases asks.eq hop
    cases hw
  room op hop := by
    cases asks.eq hop
    exact room

/-- A link with a size of two and a half is added to a record, and is read back with it. -/
theorem finite_size_read_back :
    let create : Request :=
      { method := "POST", path := "/api/cards/records",
        payload := .value (.object [("id", .text "x")]) }
    let add : Request :=
      { method := "PATCH", path := "/api/cards/records/x/links",
        payload := .value (.list [.object [("name", .text "a"), ("size", .text "2.5")]]) }
    let read : Request := { method := "GET", path := "/api/cards/records/x" }
    let requests := [(Date.epoch, create), (Date.epoch, add)]
    Number.InRange ({} : Settings).pagination.defaultLimit ∧
      (∀ x ∈ requests, x.2.AddsFiniteSizes {}) ∧
      read.IsWellFormed {} (after {} .seeded requests) ∧
      (respond {} .epoch read (after {} .seeded requests)).1.status < 500 := by
  intro create add read requests
  have creates : create.Asks {} (.submit "x" {}) :=
    ⟨.createRecord, [], 201, "Record", rfl, rfl⟩
  have adds : add.Asks {}
      (.addLinks "x" [{ name := "a", size? := some (.finite false 25 (-1)) }]) :=
    ⟨.addLinks, [("record_id", "x")], 200, "Record", rfl, rfl⟩
  have reads : read.Asks {} (.loadRecord "x") :=
    ⟨.getRecord, [("record_id", "x")], 200, "Record", rfl, rfl⟩
  have default : Number.InRange ({} : Settings).pagination.defaultLimit := by decide
  have finite : ∀ x ∈ requests, x.2.AddsFiniteSizes {} := by
    intro x hx w links hasks
    rcases List.mem_cons.1 hx with rfl | hx
    · cases creates.eq hasks
    · cases List.mem_singleton.1 hx
      cases adds.eq hasks
      intro l hl size hsize
      cases List.mem_singleton.1 hl
      cases hsize
      rfl
  have wellFormed : read.IsWellFormed {} (after {} .seeded requests) := by
    exact isWellFormed_of_asks_loadRecord (by simp [read]) rfl reads (by decide +kernel)
  exact ⟨default, finite, wellFormed,
    status_respond_lt {} requests .epoch read default finite wellFormed⟩

/-- A link with a size beyond the doubles is added to a record, and then the record cannot be
read back. -/
theorem infinite_size_not_read_back :
    let create : Request :=
      { method := "POST", path := "/api/cards/records",
        payload := .value (.object [("id", .text "x")]) }
    let add : Request :=
      { method := "PATCH", path := "/api/cards/records/x/links",
        payload := .value (.list [.object [("name", .text "a"), ("size", .text "1e400")]]) }
    let read : Request := { method := "GET", path := "/api/cards/records/x" }
    let s := after {} .seeded [(.epoch, create)]
    let t := after {} .seeded [(.epoch, create), (.epoch, add)]
    (respond {} .epoch add s).1.status = 200 ∧
      read.IsWellFormed {} t ∧
      ¬ (respond {} .epoch read t).1.status < 500 := by
  intro create add read s t
  have reads : read.Asks {} (.loadRecord "x") :=
    ⟨.getRecord, [("record_id", "x")], 200, "Record", rfl, rfl⟩
  have wellFormed : read.IsWellFormed {} t := by
    exact isWellFormed_of_asks_loadRecord (by simp [read]) rfl reads (by decide +kernel)
  exact ⟨by decide +kernel, wellFormed, by decide +kernel⟩

end Responses

end Http
end CardCatalog
