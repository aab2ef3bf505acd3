import CardCatalog.Proofs.Requests

/-!
# Searching

A filter asks for parts of texts, which are searched for by patterns, and for ids.  Three things
can stop a search: a part that is no text, an id outside the stored range, and a pattern that is
too long for the rows that are searched with it.

Results: where none of the three is the case, a filter finds the rows that it accepts
(`listLookups_eq`, `matchingRecords_eq`); too long a pattern stops it
(`listLookups_eq_error_of_long`, `listRecords_eq_error_of_long`).
-/

namespace CardCatalog

open Text (Wide)

/-- Whether the pattern of a criterion can be searched with. -/
def Text.Wide.HasShortPattern (w : Wide) : Prop :=
  ∀ pattern, patternOf (some w) = .ok (some pattern) →
    pattern.utf8ByteSize + 2 ≤ longestPattern

/-- Whether a criterion can be searched for: it is a text, and has a short pattern. -/
def IsSearchable (criterion? : Option Wide) : Prop :=
  ∀ w ∈ criterion?, w.text? ≠ none ∧ w.HasShortPattern

/-- Whether a filter of reference rows can be searched with. -/
structure LookupFilter.IsSearchable (f : LookupFilter) : Prop where
  id : ∀ n ∈ f.id?, Number.InRange n
  name : CardCatalog.IsSearchable f.name?
  link : CardCatalog.IsSearchable f.link?

/-- Whether a filter of records can be searched with. -/
structure RecordFilter.IsSearchable (f : RecordFilter) : Prop where
  id : CardCatalog.IsSearchable f.id?
  title : CardCatalog.IsSearchable f.title?
  refs : ∀ d, ∀ n ∈ f.refs.get d, Number.InRange n

section Criteria

/-- The pattern of a text is a text. -/
theorem text?_partPattern_ne_none
    {w : Wide}
    (h : w.text? ≠ none) :
    (Text.partPattern w).text? ≠ none := by
  rw [Http.text?_ne_none_iff] at h ⊢
  intro c hc
  obtain ⟨d, hd, hc⟩ := List.mem_flatMap.1 hc
  dsimp only at hc
  split at hc
  · rcases List.mem_cons.1 hc with rfl | hc
    · nofun
    · cases List.mem_singleton.1 hc
      exact h _ hd
  · cases List.mem_singleton.1 hc
    exact h _ hd

/-- A criterion that can be searched for has a pattern that all rows can be searched with. -/
theorem IsSearchable.exists_patternOf
    {criterion? : Option Wide}
    (h : IsSearchable criterion?) :
    ∃ pattern?, patternOf criterion? = .ok pattern? ∧
      ∀ {α : Type} (rows : List α), checkSearch pattern? rows = .ok () := by
  cases hwanted : wantedPart? criterion? with
  | none =>
      refine ⟨none, ?_, fun _ => rfl⟩
      unfold patternOf
      rw [hwanted]
      rfl
  | some w =>
      obtain ⟨rfl, _⟩ := Option.filter_eq_some_iff.1 hwanted
      obtain ⟨htext, hshort⟩ := h w rfl
      obtain ⟨pattern, hpattern⟩ :=
        Option.ne_none_iff_exists'.1 (text?_partPattern_ne_none htext)
      have hfound : patternOf (some w) = .ok (some pattern) := by
        unfold patternOf Wide.toStorable
        rw [hwanted]
        simp only [Option.mapM_some, hpattern]
        rfl
      exact ⟨some pattern, hfound, fun _ =>
        require_eq_ok_iff.2 (Or.inr (hshort pattern hfound))⟩

/-- A text that is shown and has nothing to be marked is searched for by itself. -/
theorem patternOf_eq_self
    {part : String}
    (shown : (Wide.ofText part).isBlank = false)
    (plain : Text.partPattern part = Wide.ofText part) :
    patternOf (some (Wide.ofText part)) = .ok (some part) := by
  have hwanted : wantedPart? (some (Wide.ofText part)) = some (Wide.ofText part) :=
    Option.filter_eq_some_iff.2 ⟨rfl, by simp [shown]⟩
  unfold patternOf
  rw [hwanted, Option.mapM_some, plain, Wide.toStorable_ofText]
  rfl

/-- Rows cannot be searched with too long a pattern, if there are any. -/
theorem checkSearch_eq_error_of_long
    {α : Type} {pattern : String} {rows : List α}
    (long : longestPattern < pattern.utf8ByteSize + 2)
    (some_row : rows ≠ []) :
    checkSearch (some pattern) rows = .error .longPattern := by
  refine require_eq_error_iff.2 ⟨?_, rfl⟩
  rw [List.isEmpty_iff]
  exact not_or.2 ⟨some_row, by omega⟩

/-- A text is a part of itself. -/
theorem hasPart_self (s : String) :
    Text.hasPart s (Wide.ofText s) = true := by
  unfold Text.hasPart
  split
  · exact List.isSuffixOf_iff_suffix.2 List.suffix_rfl
  · exact (Text.holdsPart_iff _ _).2 ⟨[], [], by simp⟩

/-- A text meets the criterion that asks for it. -/
theorem meetsPart_self (s : String) :
    meetsPart (some (Wide.ofText s)) s = true := by
  unfold meetsPart
  split
  · rfl
  · rename_i hwanted
    obtain ⟨hpart, _⟩ := Option.filter_eq_some_iff.1 hwanted
    cases hpart
    exact hasPart_self s

end Criteria

section Letters

/-- A text of one letter has as many bytes as letters. -/
theorem utf8ByteSize_replicate (n : Nat) :
    (String.ofList (List.replicate n 'a')).utf8ByteSize = n := by
  induction n with
  | zero => rfl
  | succ n ih =>
      rw [List.replicate_succ', String.ofList_append, String.utf8ByteSize_append, ih]
      rfl

/-- A text of one letter is its own pattern. -/
theorem partPattern_replicate (n : Nat) :
    Text.partPattern (String.ofList (List.replicate n 'a'))
      = Wide.ofText (String.ofList (List.replicate n 'a')) := by
  unfold Text.partPattern Wide.ofText
  rw [String.toList_ofList, List.map_replicate]
  induction n with
  | zero => rfl
  | succ n ih =>
      have ih := congrArg Wide.codes ih
      rw [List.replicate_succ]
      exact congrArg Wide.mk (congrArg (Text.Code.char 'a' :: ·) ih)

theorem isBlank_replicate (n : Nat) :
    (Wide.ofText (String.ofList (List.replicate (n + 1) 'a'))).isBlank = false := by
  unfold Wide.isBlank Wide.ofText
  rw [String.toList_ofList, List.map_replicate, List.replicate_succ, List.all_cons]
  rfl

theorem isSearchable_a : LookupFilter.IsSearchable { name? := some "a" } := by
  refine ⟨nofun, fun w hw => ?_, nofun⟩
  cases hw
  exact ⟨by simp, fun pattern h => by cases h; decide⟩

end Letters

namespace Store

/-- A filter that can be searched with finds the reference rows that it accepts. -/
theorem listLookups_eq
    (s : Store) (k : Kind)
    {f : LookupFilter}
    (h : f.IsSearchable) :
    s.listLookups k f = .ok ((s.lookupRows k).filter f.accepts) := by
  have hrange : checkRange f.id?.toList = .ok () :=
    checkRange_eq_ok_iff.2 fun n hn => h.id n (Option.mem_toList.1 hn)
  obtain ⟨name?, hname, hnames⟩ := h.name.exists_patternOf
  obtain ⟨link?, hlink, hlinks⟩ := h.link.exists_patternOf
  unfold listLookups
  rw [hrange, ok_bind_eq, hname, ok_bind_eq, hlink, ok_bind_eq]
  dsimp only
  rw [hnames, ok_bind_eq, hlinks, ok_bind_eq]

/-- A filter that can be searched with finds the records that it accepts. -/
theorem matchingRecords_eq
    (s : Store)
    {f : RecordFilter}
    (h : f.IsSearchable) :
    s.matchingRecords f = .ok (s.records.rows.filter fun e => f.accepts e.1 e.2) := by
  have hrange : checkRange (DirectKind.all.filterMap f.refs.get) = .ok () := by
    refine checkRange_eq_ok_iff.2 fun n hn => ?_
    obtain ⟨d, _, hd⟩ := List.mem_filterMap.1 hn
    exact h.refs d n hd
  obtain ⟨id?, hid, hids⟩ := h.id.exists_patternOf
  obtain ⟨title?, htitle, htitles⟩ := h.title.exists_patternOf
  unfold matchingRecords
  rw [hid, ok_bind_eq, htitle, ok_bind_eq, hrange, ok_bind_eq]
  dsimp only
  rw [hids, ok_bind_eq, htitles, ok_bind_eq]

section Stops

variable (s : Store) {part : String}
variable (shown : (Wide.ofText part).isBlank = false)
variable (plain : Text.partPattern part = Wide.ofText part)
variable (long : longestPattern < part.utf8ByteSize + 2)

include shown plain long

/-- A search of reference rows with too long a pattern stops, if there are any. -/
theorem listLookups_eq_error_of_long
    (k : Kind) (some_row : s.lookupRows k ≠ []) :
    s.listLookups k { name? := some part } = .error .longPattern := by
  have hrows : ((s.lookupRows k).filter fun _ => true) ≠ [] := by
    rw [List.filter_true]
    exact some_row
  unfold listLookups
  simp only [patternOf_eq_self shown plain, ok_bind_eq]
  show (checkSearch (some part) ((s.lookupRows k).filter fun _ => true) >>= fun _ => _) = _
  rw [checkSearch_eq_error_of_long long hrows]
  rfl

/-- A listing with too long a pattern stops, if there are any records. -/
theorem listRecords_eq_error_of_long
    (some_record : s.records.rows ≠ []) :
    s.listRecords { title? := some part } = .error .longPattern := by
  have hrows : (s.records.rows.filter fun _ => true) ≠ [] := by
    rw [List.filter_true]
    exact some_record
  unfold listRecords matchingRecords
  simp only [patternOf_eq_self shown plain, ok_bind_eq]
  show (checkSearch (some part) (s.records.rows.filter fun _ => true) >>= fun _ => _) >>= _ = _
  rw [checkSearch_eq_error_of_long long hrows]
  rfl

end Stops

end Store
end CardCatalog
