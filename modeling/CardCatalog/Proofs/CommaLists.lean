import CardCatalog.Json.Shown

/-!
# Comma lists

A comma-separated text lists its entries: the trimmed pieces between its commas, the blank ones left
out.  A comma ends a piece wherever it stands, so a text that is joined of two by a comma lists the
entries of both.  Trimming leaves nothing to trim, and no comma is left in a piece; so a list of
entries comes back unchanged, be it joined by commas or read as it is.

Results: what is listed (`isEntry_of_mem_commaList`), the list of joined texts (`commaList_append`),
the list of joined entries (`commaList_commaJoined`), and all of this for the entries of a value
(`entries_of_joined_texts`).
-/

namespace CardCatalog

namespace Text

/-- Whether a text can be an entry of a comma list: it is not empty, neither end is blank, and no
comma stands in it. -/
structure Wide.IsEntry (w : Wide) : Prop where
  filled : w.codes ≠ []
  trimmed : IsTrimmed Code.isBlank w.codes
  whole : Code.char ',' ∉ w.codes

/-- Texts with a comma between any two neighbours. -/
def commaJoined (ws : List Wide) : Wide :=
  ⟨[Code.char ','].intercalate (ws.map Wide.codes)⟩

section Tidying

variable {ps qs : List (List Code)} {q : List Code}

theorem tidy_append (ps qs : List (List Code)) : tidy (ps ++ qs) = tidy ps ++ tidy qs := by
  rw [tidy, List.map_append, List.filter_append]
  rfl

/-- What tidying leaves are trimmed pieces of which something is left. -/
theorem mem_tidy_iff : q ∈ tidy ps ↔ (∃ p ∈ ps, trimBy Code.isBlank p = q) ∧ q ≠ [] := by
  rw [tidy, List.mem_filter, List.mem_map]
  simp

/-- Trimmed pieces stay, unless they are empty. -/
theorem tidy_eq_self
    (filled : ∀ p ∈ ps, p ≠ []) (trimmed : ∀ p ∈ ps, IsTrimmed Code.isBlank p) :
    tidy ps = ps := by
  have hmap : ps.map (trimBy Code.isBlank) = ps.map id :=
    List.map_congr_left fun p hp => trimBy_eq_self_iff.2 (trimmed p hp)
  rw [tidy, hmap, List.map_id, List.filter_eq_self]
  intro p hp
  simpa using filled p hp

end Tidying

section Lists

variable {w : Wide} {ws : List Wide}

/-- A text that is joined of two by a comma lists the entries of both. -/
theorem commaList_append (s t : Wide) :
    commaList (s ++ "," ++ t) = commaList s ++ commaList t := by
  have hcodes : (s ++ "," ++ t : Wide).codes = s.codes ++ Code.char ',' :: t.codes :=
    List.append_assoc s.codes [Code.char ','] t.codes
  rw [commaList, hcodes, pieces_append, tidy_append, List.map_append]
  rfl

/-- What a text lists are entries. -/
theorem isEntry_of_mem_commaList {s : Wide} (h : w ∈ commaList s) : w.IsEntry := by
  obtain ⟨q, hq, rfl⟩ := List.mem_map.1 h
  obtain ⟨⟨p, hp, rfl⟩, filled⟩ := mem_tidy_iff.1 hq
  refine ⟨filled, isTrimmed_trimBy p, fun hcomma => notMem_of_mem_pieces hp ?_⟩
  obtain ⟨front, back, hparts, _⟩ := exists_eq_append_trimBy Code.isBlank p
  rw [hparts]
  exact List.mem_append_left back (List.mem_append_right front hcomma)

/-- Entries are read as they are, if they are already cut. -/
theorem tidyList_eq_self (entries : ∀ w ∈ ws, w.IsEntry) : tidyList ws = ws := by
  have htidy : tidy (ws.map Wide.codes) = ws.map Wide.codes := by
    refine tidy_eq_self (fun p hp => ?_) (fun p hp => ?_)
    · obtain ⟨w, hw, rfl⟩ := List.mem_map.1 hp
      exact (entries w hw).filled
    · obtain ⟨w, hw, rfl⟩ := List.mem_map.1 hp
      exact (entries w hw).trimmed
  rw [tidyList, htidy, List.map_map]
  exact List.map_id ws

/-- Entries that are joined by commas are listed as they are. -/
theorem commaList_commaJoined (entries : ∀ w ∈ ws, w.IsEntry) :
    commaList (commaJoined ws) = ws := by
  by_cases hnone : ws = []
  · -- nothing joined is the empty text, which has one empty piece
    rw [hnone]
    rfl
  · have hpieces : pieces (Code.char ',') (commaJoined ws).codes = ws.map Wide.codes := by
      refine pieces_intercalate (by simpa using hnone) fun p hp => ?_
      obtain ⟨w, hw, rfl⟩ := List.mem_map.1 hp
      exact (entries w hw).whole
    rw [commaList, hpieces]
    exact tidyList_eq_self entries

end Lists

end Text

namespace Json

open Text (Wide commaJoined)

theorem texts_map_text {ws : List Wide} (filled : ∀ w ∈ ws, w.codes ≠ []) :
    texts (ws.map Json.text) = .ok ws := by
  induction ws with
  | nil => rfl
  | cons w ws ih =>
      obtain ⟨hw, hws⟩ := List.forall_mem_cons.1 filled
      have hfilled : (Json.text w).isEmptyValue = false := by
        simpa [isEmptyValue] using hw
      rw [List.map_cons, texts, if_neg (by simp [hfilled]), ih hws]
      rfl

/-- The entries of a text are not empty, have no blank at their ends and no comma in them, and those
of two texts that are joined by a comma are the entries of both.  Joined by commas, or as the list
that they are, entries are read as themselves; and every list of such texts is listed by a text. -/
theorem entries_of_joined_texts (s t : Wide) :
    ∃ xs ys : List Wide,
      entries (.text s) = .ok xs ∧ entries (.text t) = .ok ys ∧
      (∀ x ∈ xs, x.IsEntry) ∧
      entries (.text (s ++ "," ++ t)) = .ok (xs ++ ys) ∧
      entries (.text (commaJoined xs)) = .ok xs ∧
      entries (.list (xs.map .text)) = .ok xs ∧
      ∀ zs : List Wide, (∃ u, entries (.text u) = .ok zs) ↔ ∀ z ∈ zs, z.IsEntry := by
  have hlisted (u : Wide) (x : Wide) (hx : x ∈ Text.commaList u) : x.IsEntry :=
    Text.isEntry_of_mem_commaList hx
  refine ⟨Text.commaList s, Text.commaList t, rfl, rfl, hlisted s, ?_, ?_, ?_, fun zs => ?_⟩
  · exact congrArg Except.ok (Text.commaList_append s t)
  · exact congrArg Except.ok (Text.commaList_commaJoined (hlisted s))
  · rw [entries, texts_map_text fun x hx => (hlisted s x hx).filled]
    exact congrArg Except.ok (Text.tidyList_eq_self (hlisted s))
  · constructor
    · rintro ⟨u, hu⟩
      cases hu
      exact hlisted u
    · intro hzs
      exact ⟨commaJoined zs, congrArg Except.ok (Text.commaList_commaJoined hzs)⟩

/-- Pieces of ideographic spaces and commas at the ends list nothing, and a blank within an entry
stays. -/
example :
    entries (.text ", a b ,\u3000,c,") = .ok ["a b", "c"] ∧
      entries (.list [.text " a b", .null, .text "\u3000", .text "c,"]) = .ok ["a b", "c,"] :=
  ⟨rfl, rfl⟩

end Json
end CardCatalog
