import CardCatalog.Http.Message
import CardCatalog.Proofs.Checks
import CardCatalog.Validation.Forms

/-!
# Valid forms

What comes out of a rule was checked by it, and so were its parts: a field by the rule of the
field, and an element of a list by the rule of the list.  What is wrong with a form is told
together with the values that are wrong, and these have to be echoed.

A rule is careful if it tells of a value that can be echoed only of parts that can be echoed,
too, and lets through only what has a given property.  The property may rest on the same
condition: what a clean form writes has no halves of surrogate pairs.

Results: candidates, patches and links are checked with care, and so are whole submissions
(`careful_submission`) and resubmissions (`careful_resubmission`).  Of a valid submission, the id
is a text, and the sizes of its links are numbers (`id_and_numbers_of_submission`).
-/

namespace CardCatalog

open Http (areEchoableIn areFieldsEchoableIn deepestEcho isEchoable isEchoableIn)
open Text (Wide)

section Echoes

mutual

/-- What can be echoed in some levels can be echoed in one more. -/
theorem isEchoableIn_succ
    {levels : Nat} {j : Json}
    (h : isEchoableIn levels j = true) :
    isEchoableIn (levels + 1) j = true := by
  cases j with
  | null | bool | int => rfl
  | double x => cases x <;> exact h
  | text w => exact h
  | list items =>
      obtain ⟨hlevels, hitems⟩ := Bool.and_eq_true_iff.1 h
      obtain ⟨n, rfl⟩ := Nat.exists_eq_add_one.2 (of_decide_eq_true hlevels)
      exact areEchoableIn_succ hitems
  | object fields =>
      obtain ⟨hlevels, hfields⟩ := Bool.and_eq_true_iff.1 h
      obtain ⟨n, rfl⟩ := Nat.exists_eq_add_one.2 (of_decide_eq_true hlevels)
      exact areFieldsEchoableIn_succ hfields

theorem areEchoableIn_succ
    {levels : Nat} {items : List Json}
    (h : areEchoableIn levels items = true) :
    areEchoableIn (levels + 1) items = true := by
  cases items with
  | nil => rfl
  | cons j items =>
      obtain ⟨hj, hrest⟩ := Bool.and_eq_true_iff.1 h
      exact Bool.and_eq_true_iff.2 ⟨isEchoableIn_succ hj, areEchoableIn_succ hrest⟩

theorem areFieldsEchoableIn_succ
    {levels : Nat} {fields : List (Wide × Json)}
    (h : areFieldsEchoableIn levels fields = true) :
    areFieldsEchoableIn (levels + 1) fields = true := by
  match fields with
  | [] => rfl
  | (name, j) :: fields =>
      obtain ⟨hfield, hrest⟩ := Bool.and_eq_true_iff.1 h
      refine Bool.and_eq_true_iff.2 ⟨?_, areFieldsEchoableIn_succ hrest⟩
      rcases Bool.or_eq_true_iff.1 hfield with hidden | shown
      · exact Bool.or_eq_true_iff.2 (.inl hidden)
      · obtain ⟨hname, hj⟩ := Bool.and_eq_true_iff.1 shown
        exact Bool.or_eq_true_iff.2 (.inr (Bool.and_eq_true_iff.2 ⟨hname, isEchoableIn_succ hj⟩))

end

theorem isEchoable_of_mem_list
    {items : List Json} {j : Json}
    (h : isEchoable (.list items) = true) (hj : j ∈ items) :
    isEchoable j = true := by
  have hitems : areEchoableIn (deepestEcho - 1) items = true := h
  refine isEchoableIn_succ ?_
  clear h
  induction items with
  | nil => cases hj
  | cons i items ih =>
      obtain ⟨hi, hrest⟩ := Bool.and_eq_true_iff.1 hitems
      rcases List.mem_cons.1 hj with rfl | hj
      · exact hi
      · exact ih hj hrest

/-- Fields that are not hidden have to be echoed. -/
theorem isEchoable_of_mem_object
    {fields : List (Wide × Json)} {name : Wide} {j : Json}
    (h : isEchoable (.object fields) = true)
    (shown : name.startsWith Http.hiddenStart = false)
    (hj : (name, j) ∈ fields) :
    isEchoable j = true := by
  have hfields : areFieldsEchoableIn (deepestEcho - 1) fields = true := h
  refine isEchoableIn_succ ?_
  clear h
  induction fields with
  | nil => cases hj
  | cons f fields ih =>
      obtain ⟨hf, hrest⟩ := Bool.and_eq_true_iff.1 hfields
      rcases List.mem_cons.1 hj with rfl | hj
      · rw [shown, Bool.false_or, Bool.and_eq_true_iff] at hf
        exact hf.2
      · exact ih hj hrest

theorem isEchoable_text_iff {w : Wide} :
    isEchoable (.text w) = true ↔ w.text? ≠ none := by
  show w.text?.isSome = true ↔ _
  rw [Option.isSome_iff_ne_none]

end Echoes

namespace Validation

/-- Whether a title is a text that is not too long. -/
def IsTitle (w : Wide) : Prop :=
  ∃ s, w = Wide.ofText s ∧ s.length ≤ longestTitle

/-- Whether wide text is a text, and not an empty one. -/
def IsName (w : Wide) : Prop :=
  ∃ s : String, w = Wide.ofText s ∧ s ≠ ""

theorem IsTitle.text?_ne_none {w : Wide} (h : IsTitle w) : w.text? ≠ none := by
  obtain ⟨s, rfl, _⟩ := h
  simp

theorem isTitle_untitled : IsTitle untitled :=
  ⟨untitled, rfl, by decide⟩

section Combinations

variable {α β : Type}

theorem map_eq_valid_iff {f : α → β} {x : Checked α} {b : β} :
    f <$> x = .valid b ↔ ∃ a, x = .valid a ∧ f a = b := by
  cases x with
  | valid a =>
      show Checked.valid (f a) = .valid b ↔ _
      simp
  | invalid first rest =>
      show Checked.invalid first rest = .valid b ↔ _
      simp

theorem ap_eq_valid_iff {f : Checked (α → β)} {x : Checked α} {b : β} :
    f <*> x = .valid b ↔ ∃ g a, f = .valid g ∧ x = .valid a ∧ g a = b :=
  Checked.seq_eq_valid_iff f x b

end Combinations

namespace Checked

/-- A checked value is careful if it has a property once it is valid, and its issues can be
echoed on a condition. -/
structure Careful {α : Type} (clean : Prop) (P : α → Prop) (x : Checked α) : Prop where
  issues : clean → ∀ i ∈ x.issues, isEchoable i.input = true
  valid : ∀ a, x = .valid a → P a

variable {α β : Type} {clean : Prop} {P : α → Prop} {Q : β → Prop}

theorem careful_valid {a : α} (h : P a) : (Checked.valid a).Careful clean P where
  issues _ i hi := by cases hi
  valid b hb := by
    cases hb
    exact h

theorem careful_issue
    {kind : IssueKind} {place : List Step} {j : Json}
    (h : clean → isEchoable j = true) :
    (Checked.issue kind place j : Checked α).Careful clean P where
  issues hclean i hi := by
    cases List.mem_singleton.1 hi
    exact h hclean
  valid a ha := by cases ha

variable {x : Checked α}

theorem Careful.mono
    {P' : α → Prop}
    (hx : x.Careful clean P) (h : ∀ a, x = .valid a → P a → P' a) :
    x.Careful clean P' where
  issues := hx.issues
  valid a ha := h a ha (hx.valid a ha)

theorem Careful.map
    {f : α → β}
    (hx : x.Careful clean P) (h : ∀ a, P a → Q (f a)) :
    (f <$> x).Careful clean Q where
  issues hclean i hi := by
    cases x with
    | valid a => cases hi
    | invalid first rest => exact hx.issues hclean i hi
  valid b hb := by
    obtain ⟨a, ha, rfl⟩ := map_eq_valid_iff.1 hb
    exact h a (hx.valid a ha)

theorem Careful.seq
    {f : Checked (α → β)}
    (hf : f.Careful clean fun g => ∀ a, P a → Q (g a)) (hx : x.Careful clean P) :
    (f <*> x).Careful clean Q where
  issues hclean i hi := by
    have hi : i ∈ (Checked.seq f x).issues := hi
    rw [issues_seq] at hi
    rcases List.mem_append.1 hi with hi | hi
    · exact hf.issues hclean i hi
    · exact hx.issues hclean i hi
  valid b hb := by
    obtain ⟨g, a, hg, ha, rfl⟩ := ap_eq_valid_iff.1 hb
    exact hf.valid g hg a (hx.valid a ha)

theorem Careful.andThen
    {f : α → Checked β}
    (hx : x.Careful clean P) (hf : ∀ a, P a → (f a).Careful clean Q) :
    (x.andThen f).Careful clean Q := by
  cases x with
  | valid a => exact hf a (hx.valid a rfl)
  | invalid first rest =>
      exact ⟨fun hclean i hi => hx.issues hclean i hi, fun b hb => by cases hb⟩

end Checked

namespace Rule

open Checked

/-- A rule is careful if it is so wherever the value can be echoed on the condition. -/
def Careful {α : Type} (clean : Prop) (P : α → Prop) (rule : Rule α) : Prop :=
  ∀ place j, (clean → isEchoable j = true) → (rule place j).Careful clean P

variable {α : Type} {clean : Prop} {P : α → Prop} {rule : Rule α}

/-- A value that some rule lets through somewhere. -/
def Passes (rule : Rule α) (a : α) : Prop :=
  ∃ place j, rule place j = .valid a

/-- What passes a rule has the property that the rule checks with care, as far as this rests on
no condition. -/
theorem Careful.of_passes
    {a : α}
    (h : rule.Careful False P) (ha : rule.Passes a) :
    P a := by
  obtain ⟨place, j, hj⟩ := ha
  exact (h place j fun hfalse => hfalse.elim).valid a hj

section Scalars

theorem careful_wideText : wideText.Careful clean fun w => clean → w.text? ≠ none := by
  intro place j hj
  unfold wideText
  split
  · exact careful_valid fun hclean => isEchoable_text_iff.1 (hj hclean)
  · exact careful_issue hj

theorem careful_ofText
    {place : List Step} {w : Wide} {check : String → Checked α}
    (hw : clean → isEchoable (.text w) = true)
    (h : ∀ s, (check s).Careful clean P) :
    (ofText place w check).Careful clean P := by
  unfold ofText
  split
  · exact h _
  · exact careful_issue hw

theorem careful_text : text.Careful clean fun _ => True := by
  intro place j hj
  refine (careful_wideText place j hj).andThen fun w hw => ?_
  refine careful_ofText (fun hclean => isEchoable_text_iff.2 (hw hclean)) fun s => ?_
  exact careful_valid trivial

theorem careful_textWithin (least most : Nat) :
    (textWithin least most).Careful clean fun s => least ≤ s.length ∧ s.length ≤ most := by
  intro place j hj
  refine (careful_text place j hj).andThen fun s _ => ?_
  split
  · exact careful_issue hj
  split
  · exact careful_issue hj
  · rename_i hleast hmost
    exact careful_valid ⟨Nat.le_of_not_lt hleast, Nat.le_of_not_lt hmost⟩

theorem careful_truth : truth.Careful clean fun _ => True := by
  intro place j hj
  have hint (n : Int) : (truth.ofInt place j n).Careful clean fun _ => True := by
    unfold truth.ofInt
    split
    · exact careful_valid trivial
    split
    · exact careful_issue hj
    · exact careful_issue hj
  unfold truth
  split
  · exact careful_valid trivial
  · refine careful_ofText hj fun s => ?_
    split
    · exact careful_valid trivial
    · exact careful_issue hj
  · exact hint _
  · split
    · split
      · exact hint _
      · exact careful_issue hj
    · exact careful_issue hj
  · exact careful_issue hj

theorem careful_integer : integer.Careful clean fun _ => True := by
  intro place j hj
  unfold integer
  split
  · exact careful_valid trivial
  · exact careful_valid trivial
  · split
    · split
      · split
        · exact careful_valid trivial
        · exact careful_issue hj
      · exact careful_issue hj
    · exact careful_issue hj
  · refine careful_ofText hj fun s => ?_
    split
    · exact careful_valid trivial
    · exact careful_issue hj
    · exact careful_issue hj
  · exact careful_issue hj

theorem careful_atMost (most : Int) : (atMost most).Careful clean fun _ => True := by
  intro place j hj
  refine (careful_integer place j hj).andThen fun n _ => ?_
  split
  · exact careful_valid trivial
  · exact careful_issue hj

/-- A decimal is a number. -/
theorem careful_decimal :
    decimal.Careful clean fun d => ∀ signaling, d ≠ .nan signaling := by
  intro place j hj
  unfold decimal
  dsimp only
  split
  · split
    · exact careful_valid nofun
    · exact careful_issue hj
    · exact careful_issue hj
  · exact careful_valid nofun
  · split
    · exact careful_valid nofun
    · exact careful_issue hj
    · exact careful_issue hj
  · exact careful_issue hj

theorem careful_date : date.Careful clean fun _ => True := by
  intro place j hj
  unfold date
  dsimp only
  split
  · refine careful_ofText hj fun s => ?_
    split
    · exact careful_valid trivial
    · exact careful_issue hj
  · split
    · exact careful_valid trivial
    · exact careful_issue hj
  · split
    · exact careful_valid trivial
    · exact careful_issue hj
  · exact careful_issue hj

end Scalars

section Structures

theorem careful_optional (h : rule.Careful clean P) :
    (Rule.optional rule).Careful clean fun a? => ∀ a ∈ a?, P a := by
  intro place j hj
  unfold Rule.optional
  split
  · exact careful_valid fun a ha => by cases ha
  · refine (h place j hj).map fun a ha b hb => ?_
    cases hb
    exact ha

theorem careful_elements
    {place : List Step} {js : List Json}
    (h : rule.Careful clean P)
    (hjs : ∀ j ∈ js, clean → isEchoable j = true) (n : Nat) :
    (elements rule place n js).Careful clean fun as => ∀ a ∈ as, P a := by
  induction js generalizing n with
  | nil => exact careful_valid fun a ha => by cases ha
  | cons j js ih =>
      have hrest := ih (fun i hi => hjs i (List.mem_cons_of_mem j hi)) (n + 1)
      refine ((h _ j (hjs j (by simp))).map ?_).seq hrest
      intro a ha as has b hb
      rcases List.mem_cons.1 hb with rfl | hb
      · exact ha
      · exact has b hb

theorem careful_list (h : rule.Careful clean P) :
    (Rule.list rule).Careful clean fun as => ∀ a ∈ as, P a := by
  intro place j hj
  unfold Rule.list
  split
  · exact careful_elements h (fun i hi hclean => isEchoable_of_mem_list (hj hclean) hi) 0
  · exact careful_issue hj

/-- Whether an object under inspection can be echoed, on a condition. -/
def Fields.IsClean (clean : Prop) (f : Fields) : Prop :=
  clean → isEchoable (.object f.entries) = true

theorem careful_object
    {otherwise : IssueKind} {check : Fields → Checked α}
    (h : ∀ f : Fields, f.IsClean clean → (check f).Careful clean P) :
    (object otherwise check).Careful clean P := by
  intro place j hj
  unfold object
  split
  · exact h _ hj
  · exact careful_issue hj

variable {f : Fields} {name : String}

/-- What is found under the name of a field that is not hidden. -/
theorem Fields.IsClean.get?
    {j : Json}
    (hf : f.IsClean clean)
    (shown : (Wide.ofText name).startsWith Http.hiddenStart = false)
    (hj : Json.get? f.entries (.ofText name) = some j) (hclean : clean) :
    isEchoable j = true := by
  obtain ⟨⟨name', j'⟩, hfind, rfl⟩ := Option.map_eq_some_iff.1 hj
  have hname : name' = Wide.ofText name := by simpa using List.find?_some hfind
  subst hname
  exact isEchoable_of_mem_object (hf hclean) shown (List.mem_of_find?_eq_some hfind)

theorem Fields.IsClean.required
    (hf : f.IsClean clean) (h : rule.Careful clean P)
    (shown : (Wide.ofText name).startsWith Http.hiddenStart = false) :
    (f.required name rule).Careful clean P := by
  unfold Fields.required
  split
  · rename_i j hj
    exact h _ j (hf.get? shown hj)
  · exact careful_issue hf

theorem Fields.IsClean.withDefault
    {a : α}
    (hf : f.IsClean clean) (ha : P a) (h : rule.Careful clean P)
    (shown : (Wide.ofText name).startsWith Http.hiddenStart = false) :
    (f.withDefault name a rule).Careful clean P := by
  unfold Fields.withDefault
  split
  · rename_i j hj
    exact h _ j (hf.get? shown hj)
  · exact careful_valid ha

theorem Fields.IsClean.optional
    (hf : f.IsClean clean) (h : rule.Careful clean P)
    (shown : (Wide.ofText name).startsWith Http.hiddenStart = false) :
    (f.optional name rule).Careful clean fun a? => ∀ a ∈ a?, P a :=
  hf.withDefault (fun a ha => by cases ha) (careful_optional h) shown

end Structures

section Forms

variable {otherwise : IssueKind}

theorem careful_name : Rule.name.Careful clean IsName := by
  intro place j hj
  refine (careful_textWithin 1 longestName place j hj).map fun s hs => ⟨s, rfl, ?_⟩
  rintro rfl
  exact absurd hs.1 (by decide)

theorem careful_title : Rule.title.Careful clean IsTitle := by
  intro place j hj
  exact (careful_textWithin 0 longestTitle place j hj).map fun s hs => ⟨s, rfl, hs.2⟩

theorem careful_candidate :
    (Rule.candidate otherwise).Careful clean fun c => clean → HasWholeTexts c.checks := by
  refine careful_object fun f hf => ?_
  refine (((hf.required careful_name (by decide)).map ?_).seq
    (hf.optional careful_wideText (by decide))).seq
    (hf.optional careful_truth (by decide))
  rintro _ ⟨name, rfl, _⟩ link? hlink manual? _ hclean
  refine (hasWholeTexts_text (by simp)).append (hasWholeTexts_texts fun w hw => ?_)
  exact hlink w (Option.mem_toList.1 hw) hclean

theorem careful_patch :
    (Rule.patch otherwise).Careful clean fun p => clean → HasWholeTexts p.checks := by
  refine careful_object fun f hf => ?_
  refine (((hf.optional careful_name (by decide)).map ?_).seq
    (hf.optional careful_wideText (by decide))).seq
    (hf.optional careful_truth (by decide))
  intro name? hname link? hlink manual? _ hclean
  refine (hasWholeTexts_texts fun w hw => ?_).append (hasWholeTexts_texts fun w hw => ?_)
  · obtain ⟨name, rfl, _⟩ := hname w (Option.mem_toList.1 hw)
    simp
  · exact hlink w (Option.mem_toList.1 hw) hclean

theorem careful_link :
    (Rule.link otherwise).Careful clean fun l =>
      l.HasNumber ∧ (clean → HasWholeTexts l.checks) := by
  refine careful_object fun f hf => ?_
  refine (((((hf.required careful_name (by decide)).map ?_).seq
    (hf.optional careful_decimal (by decide))).seq
    (hf.optional careful_date (by decide))).seq
    (hf.optional careful_wideText (by decide))).seq
    (hf.optional careful_truth (by decide))
  rintro _ ⟨name, rfl, _⟩ size? hsize date? _ url? hurl star? _
  refine ⟨fun signaling hnan => hsize _ hnan signaling rfl, fun hclean => ?_⟩
  refine (hasWholeTexts_text (by simp)).append (hasWholeTexts_text ?_)
  cases url? with
  | none => exact (by simp : (Wide.ofText "").text? ≠ none)
  | some url => exact hurl url rfl hclean

/-- What is said of links: their sizes are numbers, and their texts are whole on a condition. -/
def AreLinks (clean : Prop) (ls : List LinkDraft) : Prop :=
  (∀ l ∈ ls, l.HasNumber) ∧ (clean → HasWholeTexts (ls.flatMap LinkDraft.checks))

theorem areLinks_nil : AreLinks clean [] :=
  ⟨by simp, fun _ => hasWholeTexts_nil⟩

theorem careful_links : (Rule.links otherwise).Careful clean (AreLinks clean) := by
  intro place j hj
  refine (careful_list careful_link place j hj).mono fun ls _ h => ?_
  exact ⟨fun l hl => (h l hl).1,
    fun hclean => hasWholeTexts_flatMap fun l hl => (h l hl).2 hclean⟩

theorem careful_attachedCandidates (k : AttachedKind) :
    (Rule.attachedCandidates otherwise k).Careful clean fun rows =>
      clean → HasWholeTexts (rows.flatMap fun x => x.row.checks) := by
  have hone : (Rule.attachedCandidate otherwise k).Careful clean fun x =>
      clean → HasWholeTexts x.row.checks := by
    refine careful_object fun f hf => ?_
    have hshown : (Wide.ofText k.name).startsWith Http.hiddenStart = false := by
      cases k <;> decide
    exact ((hf.required careful_candidate hshown).map fun row hrow _ _ => hrow).seq
      (hf.withDefault trivial careful_truth (by decide))
  intro place j hj
  refine (careful_list hone place j hj).mono fun rows _ h hclean => ?_
  exact hasWholeTexts_flatMap fun x hx => h x hx hclean

variable {f : Fields}

theorem careful_directCandidates (hf : f.IsClean clean) :
    (Rule.directCandidates otherwise f).Careful clean fun direct =>
      clean → HasWholeTexts
        (DirectKind.all.flatMap fun d => (direct.get d).toList.flatMap Candidate.checks) := by
  have hrow (d : DirectKind) : (f.optional d.name (Rule.candidate otherwise)).Careful clean
      fun c? => clean → HasWholeTexts (c?.toList.flatMap Candidate.checks) := by
    have hshown : (Wide.ofText d.name).startsWith Http.hiddenStart = false := by
      cases d <;> decide
    refine (hf.optional careful_candidate hshown).mono fun c? _ h hclean => ?_
    exact hasWholeTexts_flatMap fun c hc => h c (Option.mem_toList.1 hc) hclean
  refine ((((hrow .director).map ?_).seq (hrow .studio)).seq (hrow .label)).seq (hrow .series)
  intro director hdirector studio hstudio label hlabel series hseries hclean
  refine hasWholeTexts_flatMap fun d _ => ?_
  cases d with
  | director => exact hdirector hclean
  | studio => exact hstudio hclean
  | label => exact hlabel hclean
  | series => exact hseries hclean

theorem careful_newDetails (hf : f.IsClean clean) :
    (Rule.newDetails f).Careful clean fun d => IsTitle d.title := by
  refine ((((((hf.withDefault isTitle_untitled careful_title (by decide)).map ?_).seq
    (hf.withDefault trivial careful_date (by decide))).seq
    (hf.withDefault trivial careful_integer (by decide))).seq
    (hf.withDefault trivial careful_truth (by decide))).seq
    (hf.withDefault trivial careful_integer (by decide))).seq
    (hf.withDefault trivial careful_integer (by decide))
  intro title htitle date _ duration _ hasLinks _ permission _ images _
  exact htitle

theorem careful_allDetails (hf : f.IsClean clean) :
    (Rule.allDetails f).Careful clean fun d => IsTitle d.title := by
  refine ((((((hf.required careful_title (by decide)).map ?_).seq
    (hf.required careful_date (by decide))).seq
    (hf.required careful_integer (by decide))).seq
    (hf.required careful_truth (by decide))).seq
    (hf.required careful_integer (by decide))).seq
    (hf.required careful_integer (by decide))
  intro title htitle date _ duration _ hasLinks _ permission _ images _
  exact htitle

/-- The name of an editor may have halves, but not if it comes from a clean form. -/
theorem careful_editor (hf : f.IsClean clean) (name : String)
    (shown : (Wide.ofText name).startsWith Http.hiddenStart = false) :
    (f.withDefault name (Wide.ofText defaultEditor) wideText).Careful clean fun w =>
      clean → w.text? ≠ none :=
  hf.withDefault (fun _ => by simp) careful_wideText shown

theorem hasWholeTexts_details
    {d : Details Wide}
    (h : IsTitle d.title) :
    HasWholeTexts (.text d.title :: d.integers.map .integer) :=
  (hasWholeTexts_text h.text?_ne_none).append (hasWholeTexts_integers d.integers)

/-- A valid submission has an id that is a text and not empty, a short title, and sizes that are
numbers; it has no half of a pair if its form has none. -/
theorem careful_submission :
    (Rule.submission otherwise).Careful clean fun x =>
      IsName x.1 ∧ IsTitle x.2.details.title ∧
        (∀ l ∈ x.2.links, l.HasNumber) ∧ (clean → HasWholeTexts x.2.checks) := by
  refine careful_object fun f hf => ?_
  refine ((((((((careful_newDetails hf).map ?_).seq
    (hf.required careful_name (by decide))).seq
    (careful_directCandidates hf)).seq
    (hf.withDefault (fun _ => hasWholeTexts_nil) (careful_attachedCandidates .genre)
      (by decide))).seq
    (hf.withDefault (fun _ => hasWholeTexts_nil) (careful_attachedCandidates .idol)
      (by decide))).seq
    (hf.withDefault areLinks_nil careful_links (by decide))).seq
    (careful_editor hf "creator" (by decide))).seq
    (careful_editor hf "modified_by" (by decide))
  rintro details htitle id hid direct hdirect genres hgenres idols hidols links
    ⟨numbers, hlinks⟩ creator hcreator modifiedBy hmodifiedBy
  refine ⟨hid, htitle, numbers, fun hclean => ?_⟩
  have hattached : HasWholeTexts (AttachedKind.all.flatMap fun a =>
      (PerAttached.get ⟨genres, idols⟩ a).flatMap fun x => x.row.checks) := by
    refine hasWholeTexts_flatMap fun a _ => ?_
    cases a with
    | genre => exact hgenres hclean
    | idol => exact hidols hclean
  have heditors : HasWholeTexts [.text creator, .text modifiedBy] :=
    (hasWholeTexts_text (hcreator hclean)).append (hasWholeTexts_text (hmodifiedBy hclean))
  exact ((((hdirect hclean).append hattached).append (hasWholeTexts_details htitle)).append
    heditors).append (hlinks hclean)

/-- Of a submission that passes, the id is a text, and the sizes of its links are numbers. -/
theorem id_and_numbers_of_submission
    {x : Wide × Submission}
    (h : (Rule.submission otherwise).Passes x) :
    (∃ id, x.1 = Wide.ofText id) ∧ ∀ l ∈ x.2.links, l.HasNumber := by
  obtain ⟨⟨id, hid, _⟩, _, numbers, _⟩ := careful_submission.of_passes h
  exact ⟨⟨id, hid⟩, numbers⟩

theorem careful_resubmission :
    (Rule.resubmission otherwise).Careful clean fun sub =>
      IsTitle sub.details.title ∧ (clean → HasWholeTexts sub.checks) := by
  refine careful_object fun f hf => ?_
  refine (((((careful_allDetails hf).map ?_).seq
    (careful_directCandidates hf)).seq
    (hf.optional (careful_attachedCandidates .genre) (by decide))).seq
    (hf.optional (careful_attachedCandidates .idol) (by decide))).seq
    (careful_editor hf "modified_by" (by decide))
  intro details htitle direct hdirect genres? hgenres idols? hidols modifiedBy hmodifiedBy
  refine ⟨htitle, fun hclean => ?_⟩
  have hgiven {rows? : Option (List (AttachedCandidate Wide))}
      (h : ∀ rows ∈ rows?, clean → HasWholeTexts (rows.flatMap fun x => x.row.checks)) :
      HasWholeTexts ((rows?.getD []).flatMap fun x => x.row.checks) := by
    cases rows? with
    | none => exact hasWholeTexts_nil
    | some rows => exact h rows rfl hclean
  have hattached : HasWholeTexts (AttachedKind.all.flatMap fun a =>
      (PerAttached.get ⟨genres?.getD [], idols?.getD []⟩ a).flatMap fun x => x.row.checks) := by
    refine hasWholeTexts_flatMap fun a _ => ?_
    cases a with
    | genre => exact hgiven hgenres
    | idol => exact hgiven hidols
  exact (((hdirect hclean).append hattached).append (hasWholeTexts_details htitle)).append
    (hasWholeTexts_text (hmodifiedBy hclean))

end Forms

end Rule
end Validation
end CardCatalog
