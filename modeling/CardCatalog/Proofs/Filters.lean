import CardCatalog.Proofs.Branches
import CardCatalog.Proofs.Searching

/-!
# What filters mean

A filter has criteria, and a row is found if it meets all of them.  A part is looked for as it
stands: blank characters at its ends count, the case of letters does, and no character stands for
others.  There are three that a search does not take as they stand.  It reads a text, and a part,
up to the first NUL, and it takes U+FFFE and U+FFFF for the replacement character.  In texts without
them a part is found where it stands.

The listings of reference rows and of records differ in their criteria alone.  What follows from
the criteria is said once for both: a further criterion takes rows away and moves none, and several
criteria find what each of them finds.

Results: where a part is found (`Text.hasPart_iff`, `Text.Wide.foundIn_iff_standsIn`), what a filter
wants (`LookupFilter.accepts_iff`, `RecordFilter.accepts_iff`), and what the listings find
(`Store.filters_find_wanted`).
-/

namespace CardCatalog

open Calendar (Date)
open Text (Wide)

namespace Text

/-- Whether a text has none of the characters that a search does not take as they stand. -/
def Wide.IsPlain (w : Wide) : Prop :=
  ∀ c ∈ w.codes, c ≠ nul ∧ c ≠ .char '\ufffe' ∧ c ≠ .char '\uffff'

/-- Whether a part stands in a text, code by code. -/
def Wide.StandsIn (part : Wide) (s : String) : Prop :=
  part.codes <:+: (Wide.ofText s).codes

/-- Whether a part is found in a text.  What is read of it has to stand in what is read of the text,
and at the end of that if the part is cut short. -/
def Wide.FoundIn (part : Wide) (s : String) : Prop :=
  if nul ∈ part.codes then filterCodes part <:+ filterCodes s
  else filterCodes part <:+: filterCodes s

theorem hasPart_iff {s : String} {part : Wide} :
    hasPart s part = true ↔ part.FoundIn s := by
  unfold hasPart Wide.FoundIn
  by_cases hnul : nul ∈ part.codes
  · rw [if_pos (List.contains_iff_mem.2 hnul), if_pos hnul, List.isSuffixOf_iff_suffix]
  · rw [if_neg (mt List.contains_iff_mem.1 hnul), if_neg hnul, holdsPart_iff]
    simp only [List.IsInfix, eq_comm]

theorem filterCode_eq_self
    {c : Code}
    (h : c ≠ .char '\ufffe' ∧ c ≠ .char '\uffff') :
    filterCode c = c := by
  cases c with
  | half n => rfl
  | char c =>
      have hne : ¬ (c.toNat = 0xfffe ∨ c.toNat = 0xffff) := by
        rintro (hc | hc)
        · exact h.1 (congrArg Code.char (Char.ofNat_toNat c ▸ congrArg Char.ofNat hc))
        · exact h.2 (congrArg Code.char (Char.ofNat_toNat c ▸ congrArg Char.ofNat hc))
      exact congrArg Code.char (if_neg hne)

/-- All of a plain text is read as it stands. -/
theorem Wide.IsPlain.filterCodes_eq
    {w : Wide}
    (h : w.IsPlain) :
    filterCodes w = w.codes := by
  have hread : w.codes.takeWhile (· ≠ nul) = w.codes :=
    List.takeWhile_eq_self_iff.2 fun c hc => decide_eq_true (h c hc).1
  unfold filterCodes
  rw [hread]
  exact (List.map_congr_left fun c hc => filterCode_eq_self (h c hc).2).trans (List.map_id' _)

/-- A plain part is found in a plain text where it stands. -/
theorem Wide.foundIn_iff_standsIn
    {part : Wide} {s : String}
    (hpart : part.IsPlain) (hs : (Wide.ofText s).IsPlain) :
    part.FoundIn s ↔ part.StandsIn s := by
  unfold FoundIn StandsIn
  rw [if_neg fun hnul => (hpart nul hnul).1 rfl, hpart.filterCodes_eq, hs.filterCodes_eq]

end Text

section Criteria

/-- Whether a text meets a criterion: the part that it asks for is found, unless it is blank. -/
def IsMet (criterion? : Option Wide) (s : String) : Prop :=
  ∀ w ∈ criterion?, w.isBlank = false → w.FoundIn s

theorem meetsPart_iff {criterion? : Option Wide} {s : String} :
    meetsPart criterion? s = true ↔ IsMet criterion? s := by
  cases criterion? with
  | none => simp [meetsPart, wantedPart?, IsMet]
  | some w =>
      cases hblank : w.isBlank <;>
        simp [meetsPart, wantedPart?, IsMet, Option.filter, hblank, Text.hasPart_iff]

theorem meetsId_iff {wanted? : Option Int} {n : Int} :
    meetsId wanted? n = true ↔ ∀ m ∈ wanted?, n = m := by
  cases wanted? <;> simp [meetsId]

namespace LookupFilter

variable {f g : LookupFilter} {row : Lookup}

/-- Whether a filter wants a reference row. -/
structure Wants (f : LookupFilter) (row : Lookup) : Prop where
  id : ∀ n ∈ f.id?, row.id = n
  name : IsMet f.name? row.key.name
  link : IsMet f.link? row.key.link

/-- Whether a filter has all criteria of another one. -/
structure Includes (f g : LookupFilter) : Prop where
  id : ∀ n ∈ g.id?, n ∈ f.id?
  name : ∀ w ∈ g.name?, w ∈ f.name?
  link : ∀ w ∈ g.link?, w ∈ f.link?

/-- The filters that have one of the criteria each. -/
def single (f : LookupFilter) : List LookupFilter :=
  [{ id? := f.id? }, { name? := f.name? }, { link? := f.link? }]

theorem accepts_iff : f.accepts row = true ↔ f.Wants row := by
  unfold accepts
  rw [Bool.and_eq_true, Bool.and_eq_true, meetsId_iff, meetsPart_iff, meetsPart_iff]
  constructor
  · rintro ⟨⟨hid, hname⟩, hlink⟩
    exact ⟨hid, hname, hlink⟩
  · rintro ⟨hid, hname, hlink⟩
    exact ⟨⟨hid, hname⟩, hlink⟩

theorem Includes.isSearchable
    (h : f.Includes g) (hf : f.IsSearchable) : g.IsSearchable where
  id n hn := hf.id n (h.id n hn)
  name w hw := hf.name w (h.name w hw)
  link w hw := hf.link w (h.link w hw)

theorem Includes.wants
    (h : f.Includes g) (hf : f.Wants row) : g.Wants row where
  id n hn := hf.id n (h.id n hn)
  name w hw := hf.name w (h.name w hw)
  link w hw := hf.link w (h.link w hw)

theorem includes_of_mem_single
    (h : g ∈ f.single) : f.Includes g := by
  simp only [single, List.mem_cons, List.not_mem_nil, or_false] at h
  rcases h with rfl | rfl | rfl
  · exact ⟨fun _ h => h, nofun, nofun⟩
  · exact ⟨nofun, fun _ h => h, nofun⟩
  · exact ⟨nofun, nofun, fun _ h => h⟩

theorem wants_iff_single :
    f.Wants row ↔ ∀ g ∈ f.single, g.Wants row := by
  constructor
  · exact fun h g hg => (includes_of_mem_single hg).wants h
  · intro h
    exact ⟨(h { id? := f.id? } (by simp [single])).id,
      (h { name? := f.name? } (by simp [single])).name,
      (h { link? := f.link? } (by simp [single])).link⟩

end LookupFilter

namespace RecordFilter

variable {f g : RecordFilter} {e : String × RecordRow}

/-- Whether a filter wants the record of an id. -/
structure Wants (f : RecordFilter) (e : String × RecordRow) : Prop where
  id : IsMet f.id? e.1
  title : IsMet f.title? e.2.details.title
  refs : ∀ d, ∀ n ∈ f.refs.get d, e.2.refs.get d = n

/-- Whether a filter has all criteria of another one. -/
structure Includes (f g : RecordFilter) : Prop where
  id : ∀ w ∈ g.id?, w ∈ f.id?
  title : ∀ w ∈ g.title?, w ∈ f.title?
  refs : ∀ d, ∀ n ∈ g.refs.get d, n ∈ f.refs.get d

/-- The filter that has only the criterion for the row of a direct kind. -/
def singleRef (f : RecordFilter) (d : DirectKind) : RecordFilter where
  refs := .ofFn fun k => if k = d then f.refs.get d else none

/-- The filters that have one of the criteria each. -/
def single (f : RecordFilter) : List RecordFilter :=
  { id? := f.id? } :: { title? := f.title? } :: DirectKind.all.map f.singleRef

theorem accepts_iff : f.accepts e.1 e.2 = true ↔ f.Wants e := by
  unfold accepts
  rw [Bool.and_eq_true, Bool.and_eq_true, meetsPart_iff, meetsPart_iff, List.all_eq_true]
  constructor
  · rintro ⟨⟨hid, htitle⟩, hrefs⟩
    exact ⟨hid, htitle, fun d => meetsId_iff.1 (hrefs d d.mem_all)⟩
  · rintro ⟨hid, htitle, hrefs⟩
    exact ⟨⟨hid, htitle⟩, fun d _ => meetsId_iff.2 (hrefs d)⟩

theorem Includes.isSearchable
    (h : f.Includes g) (hf : f.IsSearchable) : g.IsSearchable where
  id w hw := hf.id w (h.id w hw)
  title w hw := hf.title w (h.title w hw)
  refs d n hn := hf.refs d n (h.refs d n hn)

theorem Includes.wants
    (h : f.Includes g) (hf : f.Wants e) : g.Wants e where
  id w hw := hf.id w (h.id w hw)
  title w hw := hf.title w (h.title w hw)
  refs d n hn := hf.refs d n (h.refs d n hn)

theorem mem_refs_singleRef {d k : DirectKind} {n : Int} :
    n ∈ (f.singleRef d).refs.get k ↔ k = d ∧ n ∈ f.refs.get d := by
  rw [singleRef, PerDirect.get_ofFn]
  by_cases hk : k = d <;> simp [hk]

theorem notMem_refs_none {d : DirectKind} {n : Int} :
    n ∉ (PerDirect.mk none none none none : PerDirect (Option Int)).get d := by
  cases d <;> nofun

theorem includes_of_mem_single
    (h : g ∈ f.single) : f.Includes g := by
  simp only [single, List.mem_cons, List.mem_map] at h
  rcases h with rfl | rfl | ⟨d, _, rfl⟩
  · exact ⟨fun _ h => h, nofun, fun _ _ hn => absurd hn notMem_refs_none⟩
  · exact ⟨nofun, fun _ h => h, fun _ _ hn => absurd hn notMem_refs_none⟩
  · refine ⟨nofun, nofun, fun k n hn => ?_⟩
    obtain ⟨rfl, hn⟩ := mem_refs_singleRef.1 hn
    exact hn

theorem wants_iff_single :
    f.Wants e ↔ ∀ g ∈ f.single, g.Wants e := by
  constructor
  · exact fun h g hg => (includes_of_mem_single hg).wants h
  · intro h
    refine ⟨(h { id? := f.id? } (by simp [single])).id,
      (h { title? := f.title? } (by simp [single])).title, fun d n hn => ?_⟩
    have hsingle : f.singleRef d ∈ f.single :=
      List.mem_cons_of_mem _ (List.mem_cons_of_mem _ (List.mem_map_of_mem d.mem_all))
    exact (h _ hsingle).refs d n (mem_refs_singleRef.2 ⟨rfl, hn⟩)

end RecordFilter

end Criteria

section Listings

/-- A way of listing rows by filters. -/
structure Listing (φ α : Type) where
  all : List α
  before : α → α → Prop
  find : φ → Except Fault (List α)
  Searchable : φ → Prop
  Wants : φ → α → Prop
  /-- Whether a filter has all criteria of another one. -/
  Includes : φ → φ → Prop
  /-- The filters that have one of the criteria of a filter each. -/
  single : φ → List φ

namespace Listing

variable {φ α : Type} {l : Listing φ α}

/-- Whether a listing finds the rows that its filters want. -/
structure FindsWanted (l : Listing φ α) : Prop where
  answered : ∀ f, l.Searchable f → ∃ rows, l.find f = .ok rows
  /-- With fewer criteria, there is nothing more to stop a search. -/
  simpler : ∀ f g, l.Includes f g → l.Searchable f → l.Searchable g
  /-- The rows that are wanted are found in their order, so none is found twice. -/
  found : ∀ f rows, l.find f = .ok rows →
    rows.Pairwise l.before ∧ ∀ a, a ∈ rows ↔ a ∈ l.all ∧ l.Wants f a
  /-- Further criteria take rows away, and move none. -/
  sublist : ∀ f g rows rows', l.Includes g f → l.find f = .ok rows → l.find g = .ok rows' →
    rows'.Sublist rows
  included : ∀ f, ∀ g ∈ l.single f, l.Includes f g
  /-- Several criteria find the rows that each of them finds. -/
  intersection : ∀ f rows (found : φ → List α), l.find f = .ok rows →
    (∀ g ∈ l.single f, l.find g = .ok (found g)) →
      ∀ a, a ∈ rows ↔ ∀ g ∈ l.single f, a ∈ found g

/-- What is found follows from what is wanted if a search filters all rows, and if a filter wants
what all of its criteria want. -/
theorem findsWanted
    (accepts : φ → α → Bool)
    (ascending : l.all.Pairwise l.before)
    (eq_of_find : ∀ f rows, l.find f = .ok rows → rows = l.all.filter (accepts f))
    (accepts_iff : ∀ f a, accepts f a = true ↔ l.Wants f a)
    (answered : ∀ f, l.Searchable f → ∃ rows, l.find f = .ok rows)
    (simpler : ∀ f g, l.Includes f g → l.Searchable f → l.Searchable g)
    (wants_of_includes : ∀ f g a, l.Includes f g → l.Wants f a → l.Wants g a)
    (included : ∀ f, ∀ g ∈ l.single f, l.Includes f g)
    (wants_iff : ∀ f a, l.Wants f a ↔ ∀ g ∈ l.single f, l.Wants g a)
    (some_single : ∀ f, l.single f ≠ []) :
    l.FindsWanted := by
  have hmem : ∀ f rows, l.find f = .ok rows → ∀ a, a ∈ rows ↔ a ∈ l.all ∧ l.Wants f a := by
    intro f rows hf a
    rw [eq_of_find f rows hf, List.mem_filter, accepts_iff]
  refine ⟨answered, simpler, fun f rows hf => ⟨?_, hmem f rows hf⟩, ?_, included, ?_⟩
  · rw [eq_of_find f rows hf]
    exact ascending.filter _
  · intro f g rows rows' hincludes hf hg
    rw [eq_of_find f rows hf, eq_of_find g rows' hg]
    refine List.monotone_filter_right _ fun a ha => ?_
    exact (accepts_iff f a).2 (wants_of_includes g f a hincludes ((accepts_iff g a).1 ha))
  · intro f rows found hf hfound a
    rw [hmem f rows hf, wants_iff]
    constructor
    · rintro ⟨hall, hwants⟩ g hg
      exact (hmem g _ (hfound g hg) a).2 ⟨hall, hwants g hg⟩
    · intro hsingle
      obtain ⟨g, hg⟩ := List.exists_mem_of_ne_nil _ (some_single f)
      exact ⟨((hmem g _ (hfound g hg) a).1 (hsingle g hg)).1,
        fun g hg => ((hmem g _ (hfound g hg) a).1 (hsingle g hg)).2⟩

end Listing

end Listings

namespace Store

/-- The listing of the reference rows of a kind. -/
def lookupListing (s : Store) (k : Kind) : Listing LookupFilter Lookup where
  all := s.lookupRows k
  before a b := a.id < b.id
  find := s.listLookups k
  Searchable := LookupFilter.IsSearchable
  Wants := LookupFilter.Wants
  Includes := LookupFilter.Includes
  single := LookupFilter.single

/-- The listing of the records, with their ids. -/
def recordListing (s : Store) : Listing RecordFilter (String × RecordRow) where
  all := s.records.rows
  before a b := a.1 < b.1
  find := s.matchingRecords
  Searchable := RecordFilter.IsSearchable
  Wants := RecordFilter.Wants
  Includes := RecordFilter.Includes
  single := RecordFilter.single

theorem findsWanted_lookups (s : Store) (k : Kind) : (s.lookupListing k).FindsWanted :=
  Listing.findsWanted LookupFilter.accepts (s.ascending_lookupRows k)
    (fun _ _ => eq_of_listLookups) (fun _ _ => LookupFilter.accepts_iff)
    (fun _ hf => ⟨_, s.listLookups_eq k hf⟩) (fun _ _ => LookupFilter.Includes.isSearchable)
    (fun _ _ _ => LookupFilter.Includes.wants) (fun _ _ => LookupFilter.includes_of_mem_single)
    (fun _ _ => LookupFilter.wants_iff_single) (fun _ => List.cons_ne_nil _ _)

theorem findsWanted_records (s : Store) : s.recordListing.FindsWanted :=
  Listing.findsWanted (fun f e => f.accepts e.1 e.2) s.ascending_records
    (fun _ _ => eq_of_matchingRecords) (fun _ _ => RecordFilter.accepts_iff)
    (fun _ hf => ⟨_, s.matchingRecords_eq hf⟩) (fun _ _ => RecordFilter.Includes.isSearchable)
    (fun _ _ _ => RecordFilter.Includes.wants) (fun _ _ => RecordFilter.includes_of_mem_single)
    (fun _ _ => RecordFilter.wants_iff_single) (fun _ => List.cons_ne_nil _ _)

/-- The listings of reference rows and of records find what their filters want, in ascending order
of the ids.  All ids of records are those that a filter without criteria finds.  A part without
NUL, U+FFFE and U+FFFF is found in a text without them where it stands. -/
theorem filters_find_wanted (s : Store) :
    (∀ k, (s.lookupListing k).FindsWanted) ∧
      s.recordListing.FindsWanted ∧
      (∃ rows, s.matchingRecords {} = .ok rows ∧ s.recordIds = rows.map Prod.fst) ∧
      ∀ (part : Wide) (text : String), part.IsPlain → (Wide.ofText text).IsPlain →
        (part.FoundIn text ↔ part.StandsIn text) := by
  refine ⟨s.findsWanted_lookups, s.findsWanted_records, ?_, fun _ _ => Wide.foundIn_iff_standsIn⟩
  have hnone : RecordFilter.IsSearchable {} :=
    ⟨nofun, nofun, fun _ _ hn => absurd hn RecordFilter.notMem_refs_none⟩
  refine ⟨_, s.matchingRecords_eq hnone, ?_⟩
  have hall : ∀ e ∈ s.records.rows, RecordFilter.accepts {} e.1 e.2 = true := fun e _ =>
    RecordFilter.accepts_iff.2 ⟨nofun, nofun, fun _ _ hn => absurd hn RecordFilter.notMem_refs_none⟩
  rw [List.filter_eq_self.2 hall]
  rfl

/-- A percent sign is found where it stands, and not in place of other characters. -/
theorem filters_find_percent_sign :
    let genre : Kind := .attached .genre
    let steps : List (Date × Operation) :=
      ["50%", "x"].map fun name => (.epoch, .enrol genre { name := name })
    let s := seeded.after steps
    let f : LookupFilter := { name? := some "%" }
    f.IsSearchable ∧ s.listLookups genre f = .ok [⟨1, ⟨"50%", "", false⟩⟩] ∧
      (Wide.ofText "%").IsPlain ∧ (Wide.ofText "50%").IsPlain ∧ (Wide.ofText "x").IsPlain ∧
      (Wide.ofText "%").StandsIn "50%" ∧ ¬ (Wide.ofText "%").StandsIn "x" := by
  intro genre steps s f
  have searchable : f.IsSearchable := by
    refine ⟨nofun, fun w hw => ?_, nofun⟩
    cases hw
    exact ⟨by simp, fun pattern h => by cases h; decide⟩
  have hlist : s.listLookups genre f = .ok [⟨1, ⟨"50%", "", false⟩⟩] := by decide
  have hpart : (Wide.ofText "%").IsPlain := by unfold Wide.IsPlain; decide
  have hfifty : (Wide.ofText "50%").IsPlain := by unfold Wide.IsPlain; decide
  have hx : (Wide.ofText "x").IsPlain := by unfold Wide.IsPlain; decide
  obtain ⟨hlookups, _, _, hstands⟩ := filters_find_wanted s
  obtain ⟨_, hfound⟩ := (hlookups genre).found f _ hlist
  refine ⟨searchable, hlist, hpart, hfifty, hx, ?_, fun hin => ?_⟩
  · obtain ⟨_, hwants⟩ := (hfound _).1 (List.mem_singleton.2 rfl)
    exact (hstands _ _ hpart hfifty).1 (hwants.name "%" rfl (by decide))
  · have hwants : f.Wants ⟨2, ⟨"x", "", false⟩⟩ :=
      ⟨nofun, fun w hw _ => by cases hw; exact (hstands _ _ hpart hx).2 hin, nofun⟩
    have hall : (⟨2, ⟨"x", "", false⟩⟩ : Lookup) ∈ s.lookupRows genre := by decide
    have hmem := (hfound _).2 ⟨hall, hwants⟩
    cases List.mem_singleton.1 hmem

/-- A part is not found behind a NUL, though it stands there; cut short by one, or with U+FFFE in
place of the replacement character, it is found where it does not stand.  Half of a surrogate pair
and too long a pattern stop a search. -/
theorem filters_misread :
    let genre : Kind := .attached .genre
    let steps : List (Date × Operation) :=
      ["a\x00b", "xa", "\ufffd"].map fun name => (.epoch, .enrol genre { name := name })
    let s := seeded.after steps
    let long := String.ofList (List.replicate 49999 'a')
    (s.listLookups genre { name? := some "b" } = .ok [] ∧
        ⟨1, ⟨"a\x00b", "", false⟩⟩ ∈ s.lookupRows genre ∧
        (Wide.ofText "b").StandsIn "a\x00b") ∧
      (⟨2, ⟨"xa", "", false⟩⟩ ∈ s.lookupRows genre ∧
        s.listLookups genre { name? := some "a\x00c" }
          = .ok [⟨1, ⟨"a\x00b", "", false⟩⟩, ⟨2, ⟨"xa", "", false⟩⟩] ∧
        ¬ (Wide.ofText "a\x00c").StandsIn "xa") ∧
      (s.listLookups genre { name? := some "\ufffe" } = .ok [⟨3, ⟨"\ufffd", "", false⟩⟩] ∧
        ¬ (Wide.ofText "\ufffe").StandsIn "\ufffd") ∧
      s.listLookups genre { name? := some ⟨[.half 0]⟩ } = .error (.unstorable ⟨[.half 0]⟩) ∧
      s.listLookups genre { name? := some long } = .error .longPattern := by
  intro genre steps s long
  have hlong : longestPattern < long.utf8ByteSize + 2 := by
    rw [utf8ByteSize_replicate]
    decide
  refine ⟨⟨by decide, by decide, ?_⟩, ⟨by decide, by decide, ?_⟩, ⟨by decide, ?_⟩, by decide,
    s.listLookups_eq_error_of_long (isBlank_replicate _) (partPattern_replicate _) hlong genre
      (by decide)⟩
  all_goals
    unfold Wide.StandsIn
    decide

end Store
end CardCatalog
