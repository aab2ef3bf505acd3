import CardCatalog.Proofs.Rewriting

/-!
# Checks

What is stored passes checks one after the other: a text must not hold half of a surrogate
pair, and an integer must lie in the stored range.  A computation that stops at a list of
checks stops exactly if one of them fails, with the fault of the first that does.

Results: the checks at which a submission (`stopsAt_submission`), a resubmission
(`stopsAt_resubmission`) and links (`stopsAt_links`) stop.
-/

namespace CardCatalog

open Calendar (Date)
open Text (Wide)

/-- Something that is checked before it is stored. -/
inductive Check where
  | text (w : Wide)
  | integer (n : Int)

/-- The fault of a check that fails. -/
def Check.fault? : Check → Option Fault
  | .text w => if w.text? = none then some (.unstorable w) else none
  | .integer n => if Number.InRange n then none else some .outOfRange

/-- The fault of the first check that fails. -/
def firstFault? (checks : List Check) : Option Fault :=
  checks.findSome? Check.fault?

/-- A computation stops where the first of the checks fails, and nowhere else. -/
def StopsAt {α : Type} (checks : List Check) (x : Except Fault α) : Prop :=
  ∀ e, x = .error e ↔ firstFault? checks = some e

section Calculus

variable {α β : Type} {cs ds : List Check} {x : Except Fault α}

theorem firstFault?_append :
    firstFault? (cs ++ ds) = (firstFault? cs).or (firstFault? ds) :=
  List.findSome?_append

theorem firstFault?_eq_none_iff :
    firstFault? cs = none ↔ ∀ c ∈ cs, c.fault? = none :=
  List.findSome?_eq_none_iff

theorem StopsAt.eq_none_of_ok
    {a : α}
    (h : StopsAt cs x) (hx : x = .ok a) :
    firstFault? cs = none := by
  cases hfault : firstFault? cs with
  | none => rfl
  | some e =>
      have herror := (h e).2 hfault
      rw [hx] at herror
      cases herror

theorem StopsAt.of_eq
    (h : StopsAt cs x) (hcs : ds = cs) :
    StopsAt ds x :=
  hcs ▸ h

theorem stopsAt_ok (a : α) : StopsAt [] (Except.ok a : Except Fault α) := by
  intro e
  constructor
  · intro h
    cases h
  · intro h
    cases h

/-- One computation after another stops at the checks of both, in their order. -/
theorem StopsAt.bind
    {f : α → Except Fault β}
    (hx : StopsAt cs x)
    (hf : ∀ a, x = .ok a → StopsAt ds (f a)) :
    StopsAt (cs ++ ds) (x >>= f) := by
  intro e
  rw [firstFault?_append]
  cases h : x with
  | error e' =>
      rw [(hx e').1 h, Option.some_or]
      constructor
      · intro he
        cases he
        rfl
      · intro he
        cases he
        rfl
  | ok a =>
      rw [hx.eq_none_of_ok h, Option.none_or]
      exact hf a h e

/-- What cannot stop adds no check. -/
theorem StopsAt.bind_ok
    {f : α → Except Fault β}
    (hx : StopsAt cs x)
    (hf : ∀ a, x = .ok a → ∃ b, f a = .ok b) :
    StopsAt cs (x >>= f) := by
  have hall : StopsAt (cs ++ []) (x >>= f) := by
    refine hx.bind fun a ha => ?_
    obtain ⟨b, hb⟩ := hf a ha
    rw [hb]
    exact stopsAt_ok b
  rwa [List.append_nil] at hall

theorem StopsAt.map
    (hx : StopsAt cs x) (f : α → β) :
    StopsAt cs (x.map f) := by
  intro e
  rw [map_eq_error_iff]
  exact hx e

/-- A list stops at the checks of its elements, in their order. -/
theorem StopsAt.mapM
    {checks : α → List Check} {f : α → Except Fault β} {xs : List α}
    (h : ∀ x ∈ xs, StopsAt (checks x) (f x)) :
    StopsAt (xs.flatMap checks) (xs.mapM f) := by
  induction xs with
  | nil => exact stopsAt_ok []
  | cons x xs ih =>
      rw [List.mapM_cons, List.flatMap_cons]
      refine (h x (by simp)).bind fun b _ => ?_
      have hrest := ih fun y hy => h y (List.mem_cons_of_mem x hy)
      exact hrest.bind_ok fun bs _ => ⟨b :: bs, rfl⟩

theorem StopsAt.option_mapM
    {checks : α → List Check} {f : α → Except Fault β} {x? : Option α}
    (h : ∀ x ∈ x?, StopsAt (checks x) (f x)) :
    StopsAt (x?.toList.flatMap checks) (x?.mapM f) := by
  cases x? with
  | none => exact stopsAt_ok none
  | some x =>
      have hx := (h x rfl).map some
      rw [Option.toList_some, List.flatMap_singleton]
      exact hx

theorem stopsAt_text (w : Wide) : StopsAt [.text w] w.toStorable := by
  intro e
  rw [toStorable_eq_error_iff]
  by_cases hw : w.text? = none <;> simp [firstFault?, Check.fault?, hw]

theorem stopsAt_checkRange (ns : List Int) :
    StopsAt (ns.map Check.integer) (checkRange ns) := by
  intro e
  rw [checkRange_eq_error_iff]
  induction ns with
  | nil => simp [firstFault?]
  | cons n ns ih =>
      by_cases hn : Number.InRange n
      · simpa [firstFault?, Check.fault?, hn] using ih
      · simp [firstFault?, Check.fault?, hn]

end Calculus

section Parts

/-- The checks of a reference row. -/
def Candidate.checks (c : Candidate Wide) : List Check :=
  .text c.name :: c.link?.toList.map .text

/-- The checks of a change of a reference row. -/
def Patch.checks (p : Patch Wide) : List Check :=
  p.name?.toList.map .text ++ p.link?.toList.map .text

/-- The checks of the reference rows that are named for a record. -/
def mentionedChecks
    (direct : PerDirect (Option (Candidate Wide)))
    (attached : PerAttached (List (AttachedCandidate Wide))) : List Check :=
  (DirectKind.all.flatMap fun d => (direct.get d).toList.flatMap Candidate.checks) ++
    AttachedKind.all.flatMap fun a => (attached.get a).flatMap fun x => x.row.checks

/-- The checks of a link. -/
def LinkDraft.checks (l : LinkDraft) : List Check :=
  [.text l.name, .text l.url]

/-- Whether the size of a link is a number, if there is one. -/
def LinkDraft.HasNumber (l : LinkDraft) : Prop :=
  ∀ signaling, l.size? ≠ some (.nan signaling)

/-- The checks of a submission. -/
def Submission.checks (sub : Submission) : List Check :=
  mentionedChecks sub.direct sub.attached ++
    .text sub.details.title :: sub.details.integers.map .integer ++
    [.text sub.creator, .text sub.modifiedBy] ++
    sub.links.flatMap LinkDraft.checks

/-- The checks of a resubmission. -/
def Resubmission.checks (sub : Resubmission) : List Check :=
  mentionedChecks sub.direct ⟨sub.attached.genre.getD [], sub.attached.idol.getD []⟩ ++
    .text sub.details.title :: sub.details.integers.map .integer ++
    [.text sub.modifiedBy]

theorem stopsAt_text? (w? : Option Wide) :
    StopsAt (w?.toList.map .text) (w?.mapM Wide.toStorable) := by
  have h : StopsAt (w?.toList.flatMap fun w => [Check.text w]) (w?.mapM Wide.toStorable) :=
    StopsAt.option_mapM fun w _ => stopsAt_text w
  rwa [← List.map_eq_flatMap] at h

theorem stopsAt_candidate (c : Candidate Wide) : StopsAt c.checks c.toStorable := by
  unfold Candidate.toStorable Candidate.checks
  refine (stopsAt_text c.name).bind fun name _ => ?_
  exact (stopsAt_text? c.link?).bind_ok fun link? _ => ⟨_, rfl⟩

theorem stopsAt_patch (p : Patch Wide) : StopsAt p.checks p.toStorable := by
  unfold Patch.toStorable Patch.checks
  refine (stopsAt_text? p.name?).bind fun name? _ => ?_
  exact (stopsAt_text? p.link?).bind_ok fun link? _ => ⟨_, rfl⟩

theorem stopsAt_storableRows (rows : List (AttachedCandidate Wide)) :
    StopsAt (rows.flatMap fun x => x.row.checks) (storableRows rows) :=
  StopsAt.mapM fun x _ => (stopsAt_candidate x.row).map _

theorem stopsAt_storableDirect (direct : PerDirect (Option (Candidate Wide))) :
    StopsAt (DirectKind.all.flatMap fun d => (direct.get d).toList.flatMap Candidate.checks)
      (storableDirect direct) := by
  have hone : ∀ d, StopsAt ((direct.get d).toList.flatMap Candidate.checks)
      ((direct.get d).mapM Candidate.toStorable) :=
    fun d => StopsAt.option_mapM fun c _ => stopsAt_candidate c
  have hchecks : (DirectKind.all.flatMap fun d => (direct.get d).toList.flatMap Candidate.checks)
      = (direct.get .director).toList.flatMap Candidate.checks ++
        ((direct.get .studio).toList.flatMap Candidate.checks ++
        ((direct.get .label).toList.flatMap Candidate.checks ++
          (direct.get .series).toList.flatMap Candidate.checks)) := by
    simp [DirectKind.all]
  rw [hchecks]
  exact (hone .director).bind fun director _ =>
    (hone .studio).bind fun studio _ =>
      (hone .label).bind fun label _ =>
        (hone .series).bind_ok fun series _ => ⟨_, rfl⟩

theorem nearest_ne_nan (negative : Bool) (num den : Nat) :
    Number.Binary64.nearest negative num den ≠ .nan := by
  unfold Number.Binary64.nearest
  split
  · nofun
  · dsimp only
    split <;> split <;> nofun

/-- A decimal that is a number is near to a double that is one. -/
theorem ofDecimal_ne_nan
    {d : Number.Decimal}
    (h : ∀ signaling, d ≠ .nan signaling) :
    Number.Binary64.ofDecimal d ≠ .nan := by
  cases d with
  | nan signaling => exact absurd rfl (h signaling)
  | infinite negative => nofun
  | finite negative coefficient exponent =>
      unfold Number.Binary64.ofDecimal
      dsimp only
      split
      · nofun
      split
      · nofun
      · exact nearest_ne_nan negative _ _

/-- A number is stored as a size. -/
theorem LinkDraft.HasNumber.exists_storedSize
    {l : LinkDraft}
    (h : l.HasNumber) :
    ∃ size, l.storedSize? = some size := by
  unfold LinkDraft.storedSize?
  cases hsize : l.size? with
  | none => exact ⟨_, rfl⟩
  | some d =>
      have hd : Number.Binary64.ofDecimal d ≠ .nan :=
        ofDecimal_ne_nan fun signaling hd => h signaling (by rw [hsize, hd])
      dsimp only [Size.ofDecimal?]
      cases hx : Number.Binary64.ofDecimal d with
      | nan => exact absurd hx hd
      | infinite negative => exact ⟨_, rfl⟩
      | finite negative significand exponent => exact ⟨_, rfl⟩

theorem stopsAt_link
    {l : LinkDraft}
    (number : l.HasNumber) (id : String) :
    StopsAt l.checks (l.toStorable id) := by
  obtain ⟨size, hsize⟩ := number.exists_storedSize
  unfold LinkDraft.toStorable
  rw [if_neg (number true)]
  simp only [hsize]
  exact (stopsAt_text l.name).bind fun name _ =>
    (stopsAt_text l.url).bind_ok fun url _ => ⟨_, rfl⟩

theorem stopsAt_links
    {links : List LinkDraft}
    (numbers : ∀ l ∈ links, l.HasNumber) (id : String) :
    StopsAt (links.flatMap LinkDraft.checks) (links.mapM (LinkDraft.toStorable id)) :=
  StopsAt.mapM fun l hl => stopsAt_link (numbers l hl) id

theorem checkRange_unknownRefs (ns : List Int) :
    checkRange (ns ++ DirectKind.all.map unknownRefs.get) = checkRange ns :=
  checkRange_append_of_inRange (by decide)

theorem stopsAt_draft (sub : Submission) (today : Date) :
    StopsAt
      (.text sub.details.title :: sub.details.integers.map .integer ++
        [.text sub.creator, .text sub.modifiedBy])
      ((sub.draft unknownRefs ⟨[], []⟩).toStorable today) := by
  simp only [RecordDraft.toStorable, Submission.draft, checkRange_unknownRefs]
  exact (stopsAt_text sub.details.title).bind fun title _ =>
    (stopsAt_checkRange sub.details.integers).bind fun _ _ =>
      (stopsAt_text sub.creator).bind fun creator _ =>
        (stopsAt_text sub.modifiedBy).bind_ok fun modifiedBy _ => ⟨_, rfl⟩

theorem stopsAt_revision (sub : Resubmission) (today : Date) (old : RecordRow) :
    StopsAt
      (.text sub.details.title :: sub.details.integers.map .integer ++ [.text sub.modifiedBy])
      ((sub.revision unknownRefs ⟨none, none⟩).toStorable today old) := by
  simp only [RecordRevision.toStorable, Resubmission.revision, checkRange_unknownRefs]
  exact (stopsAt_text sub.details.title).bind fun title _ =>
    (stopsAt_checkRange sub.details.integers).bind fun _ _ =>
      (stopsAt_text sub.modifiedBy).bind_ok fun modifiedBy _ => ⟨_, rfl⟩

/-- A submission stops at its checks. -/
theorem stopsAt_submission
    {sub : Submission}
    (numbers : ∀ l ∈ sub.links, l.HasNumber) (today : Date) (id : String) :
    StopsAt sub.checks (sub.toStorable today id) := by
  have hchecks : sub.checks
      = (DirectKind.all.flatMap fun d => (sub.direct.get d).toList.flatMap Candidate.checks) ++
        ((sub.attached.genre.flatMap fun x => x.row.checks) ++
        ((sub.attached.idol.flatMap fun x => x.row.checks) ++
        ((.text sub.details.title :: sub.details.integers.map .integer ++
          [.text sub.creator, .text sub.modifiedBy]) ++
          sub.links.flatMap LinkDraft.checks))) := by
    simp [Submission.checks, mentionedChecks, AttachedKind.all, PerAttached.get]
  rw [hchecks]
  exact (stopsAt_storableDirect sub.direct).bind fun direct _ =>
    (stopsAt_storableRows sub.attached.genre).bind fun genres _ =>
      (stopsAt_storableRows sub.attached.idol).bind fun idols _ =>
        (stopsAt_draft sub today).bind fun record _ =>
          (stopsAt_links numbers id).bind_ok fun links _ => ⟨_, rfl⟩

/-- Rows that are not given are not checked. -/
theorem stopsAt_givenRows (rows? : Option (List (AttachedCandidate Wide))) :
    StopsAt ((rows?.getD []).flatMap fun x => x.row.checks) (rows?.mapM storableRows) := by
  have hrows : StopsAt (rows?.toList.flatMap fun rows => rows.flatMap fun x => x.row.checks)
      (rows?.mapM storableRows) :=
    StopsAt.option_mapM fun rows _ => stopsAt_storableRows rows
  refine hrows.of_eq ?_
  cases rows? <;> simp

/-- A resubmission stops at its checks. -/
theorem stopsAt_resubmission (sub : Resubmission) (today : Date) (old : RecordRow) :
    StopsAt sub.checks (sub.toStorable today old) := by
  have hchecks : sub.checks
      = (DirectKind.all.flatMap fun d => (sub.direct.get d).toList.flatMap Candidate.checks) ++
        (((sub.attached.genre.getD []).flatMap fun x => x.row.checks) ++
        (((sub.attached.idol.getD []).flatMap fun x => x.row.checks) ++
        (.text sub.details.title :: sub.details.integers.map .integer ++
          [.text sub.modifiedBy]))) := by
    simp [Resubmission.checks, mentionedChecks, AttachedKind.all, PerAttached.get]
  rw [hchecks]
  exact (stopsAt_storableDirect sub.direct).bind fun direct _ =>
    (stopsAt_givenRows sub.attached.genre).bind fun genres? _ =>
      (stopsAt_givenRows sub.attached.idol).bind fun idols? _ =>
        (stopsAt_revision sub today old).bind_ok fun record _ => ⟨_, rfl⟩

end Parts

section WholeTexts

/-- Whether no text among checks has half of a surrogate pair. -/
def HasWholeTexts (cs : List Check) : Prop :=
  ∀ w, .text w ∈ cs → w.text? ≠ none

/-- Whether a check is of a text without halves, or of no text. -/
def Check.isWhole : Check → Bool
  | .text w => w.text?.isSome
  | .integer _ => true

variable {cs ds : List Check} {w : Wide}

theorem hasWholeTexts_iff : HasWholeTexts cs ↔ ∀ c ∈ cs, c.isWhole = true := by
  constructor
  · intro h c hc
    cases c with
    | text w => exact Option.isSome_iff_ne_none.2 (h w hc)
    | integer n => rfl
  · intro h w hw
    exact Option.isSome_iff_ne_none.1 (h (.text w) hw)

instance : DecidablePred HasWholeTexts :=
  fun _ => decidable_of_iff _ hasWholeTexts_iff.symm

theorem hasWholeTexts_nil : HasWholeTexts [] := by
  intro w hw
  cases hw

theorem hasWholeTexts_text (h : w.text? ≠ none) : HasWholeTexts [.text w] := by
  intro v hv
  cases List.mem_singleton.1 hv
  exact h

theorem hasWholeTexts_integers (ns : List Int) : HasWholeTexts (ns.map .integer) := by
  intro w hw
  obtain ⟨n, _, hn⟩ := List.mem_map.1 hw
  cases hn

theorem hasWholeTexts_texts
    {ws : List Wide}
    (h : ∀ w ∈ ws, w.text? ≠ none) :
    HasWholeTexts (ws.map .text) := by
  intro w hw
  obtain ⟨v, hv, hvw⟩ := List.mem_map.1 hw
  cases hvw
  exact h w hv

theorem HasWholeTexts.append
    (hcs : HasWholeTexts cs) (hds : HasWholeTexts ds) :
    HasWholeTexts (cs ++ ds) := by
  intro w hw
  rcases List.mem_append.1 hw with hw | hw
  · exact hcs w hw
  · exact hds w hw

theorem hasWholeTexts_flatMap
    {α : Type} {checks : α → List Check} {xs : List α}
    (h : ∀ x ∈ xs, HasWholeTexts (checks x)) :
    HasWholeTexts (xs.flatMap checks) := by
  intro w hw
  obtain ⟨x, hx, hw⟩ := List.mem_flatMap.1 hw
  exact h x hx w hw

end WholeTexts

end CardCatalog
