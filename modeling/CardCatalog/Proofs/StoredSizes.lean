import CardCatalog.Proofs.LinksAtCreation
import CardCatalog.Proofs.QueryFields
import CardCatalog.Proofs.SizeRounding

/-!
# Sizes of stored links

The size of a link is submitted as a text and answered as one.  A link is stored when it is added to
a record or when a record is created with it, and neither looks at its size, so a link that can be
stored with one size can be stored with any other that is a number.  The text of a size is read as
the very decimal that it stands for.

Results: the decimal of an answered size (`Decimal.ofText?_toText`), which sizes a link can be
stored with (`LinkPlace.stores_iff`), and that an answered size is stored as it is, that hundredths
are kept, and that answers grow with what is submitted (`stored_sizes`).
-/

namespace CardCatalog

open Calendar (Date)
open Number (Decimal)
open Text (Wide)

section Texts

namespace Number

theorem isDigit_iff {c : Char} : c.isDigit = true ↔ 48 ≤ c.val.toNat ∧ c.val.toNat ≤ 57 := by
  simp [Char.isDigit, UInt32.le_iff_toNat_le]

/-- Of the digits of all scripts, those of ASCII come first. -/
theorem digitValue?_of_isDigit
    {c : Char}
    (h : c.isDigit = true) :
    Text.digitValue? c = Text.asciiDigit? c := by
  have hbounds : 48 ≤ c.toNat ∧ c.toNat ≤ 48 + 9 := isDigit_iff.1 h
  have hfirst : Text.digitZeros.find? (fun z => z ≤ c.toNat && c.toNat ≤ z + 9) = some 48 :=
    List.find?_cons_of_pos (by simp [hbounds])
  rw [Text.asciiDigit?, if_pos (by simpa [Char.isDigit, Char.le_def] using h), Text.digitValue?]
  rw [hfirst, Option.map_some]

theorem isBlank_of_isDigit
    {c : Char}
    (h : c.isDigit = true) :
    Text.isBlank c = false := by
  have hbounds : 48 ≤ c.toNat ∧ c.toNat ≤ 57 := isDigit_iff.1 h
  simp only [Text.isBlank, Text.isSpace, Bool.or_eq_false_iff, Bool.and_eq_false_iff,
    decide_eq_false_iff_not, beq_eq_false_iff_ne]
  omega

namespace Decimal

theorem leadingDigits_append
    {ds rest : List Char}
    (digits : ∀ c ∈ ds, c.isDigit = true)
    (stop : leadingDigits rest = ([], rest)) :
    leadingDigits (ds ++ rest) = (ds.filterMap Text.asciiDigit?, rest) := by
  induction ds with
  | nil => exact stop
  | cons c ds ih =>
      have hdigit := digits c (by simp)
      have hvalue : Text.asciiDigit? c = some (c.toNat - 48) :=
        if_pos (by simpa [Char.isDigit, Char.le_def] using hdigit)
      rw [List.cons_append, leadingDigits, digitValue?_of_isDigit hdigit, hvalue,
        ih fun c hc => digits c (List.mem_cons_of_mem _ hc), List.filterMap_cons_some hvalue]

/-- The characters of a number in hundredths. -/
def hundredthsChars (n : ℕ) : List Char :=
  Nat.toDigits 10 (n / 100) ++ '.' :: Text.padded 10 2 (n % 100)

theorem leadingDigits_padded :
    ∀ r < 100, leadingDigits (Text.padded 10 2 r) = ([r / 10, r % 10], []) := by
  decide +kernel

theorem isDigit_of_mem_padded
    {width n : ℕ} {c : Char}
    (h : c ∈ Text.padded 10 width n) :
    c.isDigit = true := by
  rcases List.mem_append.1 h with hzero | hdigit
  · rw [List.eq_of_mem_replicate hzero]
    rfl
  · exact isDigit_of_mem_toDigits c hdigit

theorem mem_hundredthsChars
    {n : ℕ} {c : Char}
    (h : c ∈ hundredthsChars n) :
    c.isDigit = true ∨ c = '.' := by
  rcases List.mem_append.1 h with hwhole | hrest
  · exact .inl (isDigit_of_mem_toDigits c hwhole)
  · rcases List.mem_cons.1 hrest with hpoint | hpart
    · exact .inr hpoint
    · exact .inl (isDigit_of_mem_padded hpart)

theorem exists_hundredthsChars (n : ℕ) :
    ∃ c cs, hundredthsChars n = c :: cs ∧ c.isDigit = true := by
  obtain ⟨c, cs, hcs⟩ := List.exists_cons_of_ne_nil (Nat.toDigits_ne_nil (n := n / 100) (b := 10))
  refine ⟨c, cs ++ '.' :: Text.padded 10 2 (n % 100), ?_, ?_⟩
  · rw [hundredthsChars, hcs, List.cons_append]
  · exact isDigit_of_mem_toDigits c (hcs ▸ List.mem_cons_self)

/-- A number of hundredths that is not too long is read as it is written. -/
theorem magnitude?_hundredthsChars
    (negative : Bool) {n : ℕ}
    (short : (Nat.toDigits 10 n).length ≤ 400) :
    magnitude? negative (hundredthsChars n) = some (.finite negative n (-2)) := by
  have hwhole : leadingDigits (hundredthsChars n)
      = ((Nat.toDigits 10 (n / 100)).filterMap Text.asciiDigit?,
        '.' :: Text.padded 10 2 (n % 100)) :=
    leadingDigits_append isDigit_of_mem_toDigits rfl
  have hpart := leadingDigits_padded _ (Nat.mod_lt n (by decide))
  have hvalue : ofDigits ((Nat.toDigits 10 (n / 100)).filterMap Text.asciiDigit?
      ++ [n % 100 / 10, n % 100 % 10]) = n := by
    rw [ofDigits, List.foldl_append, ← ofDigits, ofDigits_toDigits]
    simp only [List.foldl_cons, List.foldl_nil]
    omega
  have hwritable : Writable n (-2) := by
    unfold Writable
    omega
  unfold magnitude?
  simp only [hwhole, hpart, List.isEmpty_cons, Bool.and_false, Bool.false_eq_true, if_false,
    exponentPart?, hvalue]
  exact if_pos hwritable

theorem unsigned?_hundredthsChars
    (negative : Bool) {n : ℕ}
    (short : (Nat.toDigits 10 n).length ≤ 400) :
    unsigned? negative (hundredthsChars n) = some (.finite negative n (-2)) := by
  obtain ⟨c, cs, hchars, hdigit⟩ := exists_hundredthsChars n
  have hlower : c.toLower = c := by
    have hbounds := isDigit_iff.1 hdigit
    refine dif_neg fun hupper => ?_
    have habove : 65 ≤ c.val.toNat := UInt32.le_iff_toNat_le.1 hupper.1
    omega
  have hne (x : Char) (hx : x.isDigit = false) : c ≠ x := by
    rintro rfl
    rw [hx] at hdigit
    cases hdigit
  rw [← magnitude?_hundredthsChars negative short, hchars]
  unfold unsigned?
  simp [hlower, hne 'i' rfl, hne 'n' rfl, hne 's' rfl]

end Decimal

end Number

/-- The text of a size that is not too long is read as the decimal that it stands for. -/
theorem Size.ofText?_toText
    {v : Size}
    (short : ∀ negative n, v = .hundredths negative n → (Nat.toDigits 10 n).length ≤ 400) :
    Decimal.ofText? v.toText = some v.toDecimal := by
  cases v with
  | infinite negative => cases negative <;> decide
  | hundredths negative n =>
      have hchars := Decimal.unsigned?_hundredthsChars negative (short negative n rfl)
      have htext : (Size.hundredths negative n).toText.toList
          = (if negative then ['-'] else []) ++ Decimal.hundredthsChars n := by
        cases negative <;> simp [Size.toText, Decimal.hundredthsChars, toString]
      have hplain (c : Char) (hc : c ∈ (Size.hundredths negative n).toText.toList) :
          Text.isBlank c = false ∧ c ≠ '_' := by
        have hcases : c = '-' ∨ c.isDigit = true ∨ c = '.' := by
          rw [htext] at hc
          rcases List.mem_append.1 hc with hsign | hrest
          · cases negative with
            | true => exact .inl (List.mem_singleton.1 hsign)
            | false => cases hsign
          · exact .inr (Decimal.mem_hundredthsChars hrest)
        rcases hcases with rfl | hdigit | rfl
        · decide
        · exact ⟨Number.isBlank_of_isDigit hdigit, fun h => by cases h; cases hdigit⟩
        · decide
      obtain ⟨c, cs, hcs, hdigit⟩ := Decimal.exists_hundredthsChars n
      unfold Decimal.ofText?
      rw [Text.trimBy_of_forall fun c hc => (hplain c hc).1,
        List.filter_eq_self.2 fun c hc => decide_eq_true (hplain c hc).2, htext]
      cases negative with
      | true => exact hchars
      | false =>
          rw [hcs] at hchars ⊢
          simp only [Bool.false_eq_true, if_false, List.nil_append]
          split
          · rename_i heq
            cases heq
            cases hdigit
          · rename_i heq
            cases heq
            cases hdigit
          · exact hchars

end Texts

section Drafts

variable {id : String} {l : LinkDraft} {d : Decimal} {row : LinkRow}

/-- A link with a size. -/
def LinkDraft.sized (l : LinkDraft) (d : Decimal) : LinkDraft :=
  { l with size? := some d }

/-- A link is stored with the size that is read back of the submitted one, and with texts that do
not depend on it. -/
theorem LinkDraft.toStorable_sized_eq_ok_iff :
    (l.sized d).toStorable id = .ok row ↔
      ∃ name url size,
        l.name.toStorable = .ok name ∧ l.url.toStorable = .ok url ∧
        Size.ofDecimal? d = some size ∧
        row = { record := id, name, size, date := l.date?.getD .epoch, url,
                star := l.star?.getD false } := by
  have hsize : (l.sized d).storedSize? = Size.ofDecimal? d := rfl
  have hurl : (l.sized d).url = l.url := rfl
  constructor
  · intro h
    unfold LinkDraft.toStorable at h
    split at h
    · cases h
    obtain ⟨name, hname, h⟩ := bind_eq_ok_iff.1 h
    obtain ⟨url, hurl', h⟩ := bind_eq_ok_iff.1 h
    rw [hsize] at h
    cases hstored : Size.ofDecimal? d with
    | none =>
        rw [hstored] at h
        cases h
    | some size =>
        rw [hstored] at h
        cases h
        exact ⟨name, url, size, hname, hurl', rfl, rfl⟩
  · rintro ⟨name, url, size, hname, hurl', hstored, rfl⟩
    have hsignals : ¬ (l.sized d).size? = some (.nan true) := by
      intro heq
      cases Option.some.inj heq
      cases hstored
    rw [LinkDraft.toStorable, if_neg hsignals, hurl, hurl', hsize, hstored,
      show (l.sized d).name = l.name from rfl, hname]
    rfl

/-- A link that can be stored with one size can be stored with any other. -/
theorem LinkDraft.toStorable_sized
    {d' : Decimal} {v : Size}
    (h : (l.sized d).toStorable id = .ok row)
    (hv : Size.ofDecimal? d' = some v) :
    (l.sized d').toStorable id = .ok { row with size := v } := by
  obtain ⟨name, url, size, hname, hurl, _, rfl⟩ := LinkDraft.toStorable_sized_eq_ok_iff.1 h
  exact LinkDraft.toStorable_sized_eq_ok_iff.2 ⟨name, url, v, hname, hurl, hv, rfl⟩

end Drafts

/-- How a link comes to be stored. -/
inductive LinkWay (s : Store) where
  /-- It is added to a record. -/
  | added
  /-- A record is created with it, behind other links. -/
  | created (sound : s.Sound) (draft : RecordDraft)

/-- A link to be stored, and where it goes. -/
structure LinkPlace where
  store : Store
  today : Date
  record : String
  way : LinkWay store
  link : LinkDraft

namespace LinkPlace

/-- The operation that stores the link with a size. -/
def operation (p : LinkPlace) (d : Decimal) : Operation :=
  match p.way with
  | .added => .addLinks (Wide.ofText p.record) [p.link.sized d]
  | .created _ draft =>
    .createRecord (Wide.ofText p.record) { draft with links := draft.links ++ [p.link.sized d] }

/-- Whether the link is stored with a size, and read back with another one. -/
def Stores (p : LinkPlace) (d : Decimal) (v : Size) : Prop :=
  ∃ a t others n row,
    Operation.run p.today (p.operation d) p.store = .ok (a, t) ∧
    t.linksOf p.record = p.store.linksOf p.record ++ others ++ [(n, row)] ∧ row.size = v

/-- What has to be there for the link to be stored, whatever its size. -/
def Ready (p : LinkPlace) : Prop :=
  match p.way with
  | .added =>
    (∃ old, p.store.records.get? p.record = some old) ∧ p.link.url ∉ p.store.urlsOf p.record
  | .created _ draft =>
    p.store.records.contains p.record = false ∧ p.store.Admits draft ∧
      (∃ row, draft.bare.toStorable p.today = .ok row) ∧
      ∃ rows, draft.links.mapM (LinkDraft.toStorable p.record) = .ok rows

section Storing

variable {s t : Store} {today : Date} {id : String} {l : LinkDraft} {d : Decimal} {v : Size}

/-- The last one of some links behind others is the last one of their rows. -/
theorem append_eq_iff_of_rows
    {new : List (Int × LinkRow)} {row : LinkRow}
    (before : List (Int × LinkRow)) (rows : List LinkRow) (hnew : new.map Prod.snd = rows ++ [row]) :
    (∃ others n row', before ++ new = before ++ others ++ [(n, row')] ∧ row'.size = v) ↔
      row.size = v := by
  obtain ⟨others, last, rfl, -, hlast⟩ := List.map_eq_append_iff.1 hnew
  obtain ⟨e, rfl, he⟩ := List.map_eq_singleton_iff.1 hlast
  constructor
  · rintro ⟨others', n, row', heq, rfl⟩
    rw [List.append_assoc before others', List.append_cancel_left_eq] at heq
    cases (List.append_inj' heq rfl).2
    rw [← he]
  · rintro rfl
    exact ⟨others, e.1, e.2, by rw [List.append_assoc], by rw [he]⟩

/-- An operation that leaves the links of a record stores none. -/
theorem not_exists_append
    (before : List (Int × LinkRow)) :
    ¬ ∃ others n row, before = before ++ others ++ [(n, row)] ∧ row.size = v := by
  rintro ⟨others, n, row, heq, -⟩
  have hlength := congrArg List.length heq
  simp only [List.length_append, List.length_singleton] at hlength
  omega

theorem freshLinks_sized :
    s.freshLinks id [l.sized d] = if l.url ∈ s.urlsOf id then [] else [l.sized d] := by
  simp only [Store.freshLinks, freshBy]
  rfl

theorem stores_added_iff :
    (mk s today id .added l).Stores d v ↔
      (mk s today id .added l).Ready ∧
        ∃ row, (l.sized d).toStorable id = .ok row ∧ row.size = v := by
  constructor
  · rintro ⟨a, t, others, n, row, hrun, hlinks, hsize⟩
    obtain ⟨count?, hadd, -⟩ := Store.run_addLinks_ofText_eq_ok_iff.1 hrun
    rcases Store.linked_of_addLinks hadd with ⟨-, -, rfl⟩ | ⟨old, rows, hold, hrows, -, rfl⟩
    · exact absurd ⟨others, n, row, hlinks, hsize⟩ (not_exists_append _)
    · rw [freshLinks_sized] at hrows
      split at hrows
      · cases hrows
        exact absurd ⟨others, n, row, hlinks, hsize⟩ (not_exists_append _)
      · rename_i hknown
        obtain ⟨row', _, hrow', hnil, rfl⟩ := mapM_eq_ok_cons_iff.1 hrows
        cases hnil
        obtain ⟨new, hnew, hsnd⟩ := s.exists_linksOf_linked today old (Store.owner_of_links hrows)
        refine ⟨⟨⟨old, hold⟩, hknown⟩, row', hrow', ?_⟩
        exact (append_eq_iff_of_rows _ [] hsnd).1
          ⟨others, n, row, hnew.symm.trans hlinks, hsize⟩
  · rintro ⟨⟨⟨old, hold⟩, hknown⟩, row, hrow, hsize⟩
    have hrows : (s.freshLinks id [l.sized d]).mapM (LinkDraft.toStorable id) = .ok [row] := by
      rw [freshLinks_sized, if_neg hknown]
      exact mapM_eq_ok_cons_iff.2 ⟨row, [], hrow, rfl, rfl⟩
    obtain ⟨new, hnew, hsnd⟩ := s.exists_linksOf_linked today old (Store.owner_of_links hrows)
    obtain ⟨others, n, row', heq, hsize'⟩ :=
      (append_eq_iff_of_rows (s.linksOf id) [] hsnd).2 hsize
    have hadd : s.addLinks today id [l.sized d] = .ok (some 1, s.linked today id old [row]) :=
      (Store.addLinks_eq_ok_iff hold).2 ⟨[row], hrows, rfl, rfl⟩
    exact ⟨_, _, others, n, row', Store.run_addLinks_ofText_eq_ok_iff.2 ⟨_, hadd, rfl⟩,
      hnew.trans heq, hsize'⟩

/-- The links of a record that is created stand behind any that stood under its id. -/
theorem exists_linksOf_created
    (s : Store) (row : RecordRow) (attached : PerAttached (List AttachedRef))
    {rows : List LinkRow}
    (owner : ∀ l ∈ rows, l.record = id) :
    ∃ new, (s.created id row attached rows).linksOf id = s.linksOf id ++ new ∧
      new.map Prod.snd = rows :=
  s.linksOf_pushAll owner

theorem stores_created_iff
    {sound : s.Sound} {draft : RecordDraft} :
    (mk s today id (.created sound draft) l).Stores d v ↔
      (mk s today id (.created sound draft) l).Ready ∧
        ∃ row, (l.sized d).toStorable id = .ok row ∧ row.size = v := by
  let whole : RecordDraft := { draft with links := draft.links ++ [l.sized d] }
  have hadmits : s.Admits whole ↔ s.Admits draft :=
    Store.admits_bare_iff.symm.trans (Store.admits_bare_iff (d := draft))
  have hrow : (∃ row, whole.toStorable today = .ok row) ↔
      ∃ row, draft.bare.toStorable today = .ok row := by
    rw [Store.toStorable_eq_bare]
    simp only [map_eq_ok_iff]
    exact ⟨fun ⟨_, row, hrow, _⟩ => ⟨row, hrow⟩, fun ⟨row, hrow⟩ => ⟨_, row, hrow, rfl⟩⟩
  constructor
  · rintro ⟨a, t, others, n, row, hrun, hlinks, hsize⟩
    obtain ⟨hcreate, -⟩ := Store.run_createRecord_ofText_eq_ok_iff.1 hrun
    cases hfresh : s.records.contains id with
    | true =>
        rw [Store.createRecord_of_contains hfresh] at hcreate
        cases hcreate
        exact absurd ⟨others, n, row, hlinks, hsize⟩ (not_exists_append _)
    | false =>
        obtain ⟨hadm, stored, rows, hstored, hrows, rfl⟩ :=
          Store.admitted_of_createRecord hfresh hcreate
        obtain ⟨before, last, hbefore, hlast, rfl⟩ := mapM_append_eq_ok_iff.1 hrows
        obtain ⟨row', _, hrow', hnil, rfl⟩ := mapM_eq_ok_cons_iff.1 hlast
        cases hnil
        obtain ⟨new, hnew, hsnd⟩ :=
          exists_linksOf_created s stored whole.attached (Store.owner_of_links hrows)
        refine ⟨⟨hfresh, hadmits.1 hadm, hrow.1 ⟨stored, hstored⟩, before, hbefore⟩,
          row', hrow', ?_⟩
        exact (append_eq_iff_of_rows _ before hsnd).1 ⟨others, n, row, hnew.symm.trans hlinks, hsize⟩
  · rintro ⟨⟨hfresh, hadm, hbare, before, hbefore⟩, row, hlast, hsize⟩
    obtain ⟨stored, hstored⟩ := hrow.2 hbare
    have hrows : whole.links.mapM (LinkDraft.toStorable id) = .ok (before ++ [row]) :=
      mapM_append_eq_ok_iff.2
        ⟨before, [row], hbefore, mapM_eq_ok_cons_iff.2 ⟨row, [], hlast, rfl, rfl⟩, rfl⟩
    have hcreate : s.createRecord today id whole
        = .ok (s.created id stored whole.attached (before ++ [row])) :=
      (sound.createRecord_eq_ok_iff hfresh).2
        ⟨hadmits.2 hadm, stored, _, hstored, hrows, rfl⟩
    obtain ⟨new, hnew, hsnd⟩ :=
      exists_linksOf_created s stored whole.attached (Store.owner_of_links hrows)
    obtain ⟨others, n, row', heq, hsize'⟩ :=
      (append_eq_iff_of_rows (s.linksOf id) before hsnd).2 hsize
    exact ⟨_, _, others, n, row', Store.run_createRecord_ofText_eq_ok_iff.2 ⟨hcreate, rfl⟩,
      hnew.trans heq, hsize'⟩

theorem stores_iff
    {p : LinkPlace} :
    p.Stores d v ↔
      p.Ready ∧ ∃ row, (p.link.sized d).toStorable p.record = .ok row ∧ row.size = v := by
  obtain ⟨s, today, id, way, l⟩ := p
  cases way with
  | added => exact stores_added_iff
  | created sound draft => exact stores_created_iff

theorem Stores.ofDecimal?_eq
    {p : LinkPlace}
    (h : p.Stores d v) :
    Size.ofDecimal? d = some v := by
  obtain ⟨_, row, hrow, rfl⟩ := stores_iff.1 h
  obtain ⟨name, url, size, _, _, hsize, rfl⟩ := LinkDraft.toStorable_sized_eq_ok_iff.1 hrow
  exact hsize

/-- A link that can be stored with one size can be stored with any other, where it goes. -/
theorem Stores.stores_iff_of
    {p : LinkPlace} {d' : Decimal} {v' : Size}
    (h : p.Stores d v) :
    p.Stores d' v' ↔ Size.ofDecimal? d' = some v' := by
  constructor
  · exact Stores.ofDecimal?_eq
  · intro hv'
    obtain ⟨hready, row, hrow, _⟩ := stores_iff.1 h
    exact stores_iff.2 ⟨hready, _, LinkDraft.toStorable_sized hrow hv', rfl⟩

end Storing

/-- Whether the link is stored with the text of a size, and answered with another one. -/
def ReadsBack (p : LinkPlace) (t v : String) : Prop :=
  ∃ d size, Decimal.ofText? t = some d ∧ p.Stores d size ∧ size.toText = v

end LinkPlace

/-- The number that a text spells, if it is one. -/
noncomputable def numberOf? (t : String) : Option EReal :=
  (Decimal.ofText? t).bind Decimal.value?

namespace Size

variable {d : Decimal} {v : Size}

/-- The text of a size that is read back is read as the decimal that it stands for. -/
theorem ofText?_toText_of_ofDecimal?
    (h : ofDecimal? d = some v) :
    Decimal.ofText? v.toText = some v.toDecimal := by
  refine ofText?_toText fun negative n hv => ?_
  rw [hv] at h
  exact length_toDigits_le h

theorem toText_eq_iff
    (h : ofDecimal? d = some v) :
    v.toText = "-0.00" ↔ v = .hundredths true 0 := by
  constructor
  · intro htext
    have hdecimal := ofText?_toText_of_ofDecimal? h
    rw [htext, show Decimal.ofText? "-0.00" = some (.finite true 0 (-2)) from by decide] at hdecimal
    cases v with
    | infinite negative => cases hdecimal
    | hundredths negative n =>
        cases hdecimal
        rfl
  · rintro rfl
    rfl

/-- What has been answered is answered again, but for the sign of no hundredths. -/
theorem exists_ofDecimal?_toDecimal
    (h : ofDecimal? d = some v) :
    ∃ w, ofDecimal? v.toDecimal = some w ∧
      w.toText = if v.toText = "-0.00" then "0.00" else v.toText := by
  refine ⟨_, ofDecimal?_toDecimal h, ?_⟩
  simp only [toText_eq_iff h]
  split
  · rfl
  · rfl

theorem exists_value?
    (h : ofDecimal? d = some v) :
    ∃ x y, d.value? = some x ∧ v.toDecimal.value? = some y := by
  cases d with
  | nan => cases h
  | infinite negative =>
      cases h
      exact ⟨_, _, rfl, rfl⟩
  | finite negative c e =>
      cases h.symm.trans (ofDecimal?_finite negative c e)
      exact ⟨_, _, rfl, value?_rounded negative _⟩

end Size

/-- Let a link be stored with the text of a size, and answered with another text, `v`.  Wherever a
link is stored, its size can be `v`, and then it is answered with `v` again, or without a sign if no
hundredths are left.  If the first text spells a number of hundredths that is not beyond ten to the
thirteenth, `v` spells the same number.  Answers of greater numbers are not less. -/
theorem stored_sizes
    {p : LinkPlace} {t v : String}
    (stored : p.ReadsBack t v) :
    ∃ x y, numberOf? t = some x ∧ numberOf? v = some y ∧
      (∀ p' t' v', LinkPlace.ReadsBack p' t' v' →
        ∀ w, p'.ReadsBack v w ↔ w = if v = "-0.00" then "0.00" else v) ∧
      (∀ k : ℤ, |k| ≤ 10 ^ 15 → x = (((k / 100 : ℚ) : ℝ) : EReal) → y = x) ∧
      ∀ p' t' v' x' y', LinkPlace.ReadsBack p' t' v' → numberOf? t' = some x' →
        numberOf? v' = some y' → x ≤ x' → y ≤ y' := by
  obtain ⟨d, size, ht, hstores, rfl⟩ := stored
  have hsize := hstores.ofDecimal?_eq
  have hv := Size.ofText?_toText_of_ofDecimal? hsize
  obtain ⟨x, y, hx, hy⟩ := Size.exists_value? hsize
  refine ⟨x, y, by rw [numberOf?, ht, Option.bind_some, hx],
    by rw [numberOf?, hv, Option.bind_some, hy], ?_, ?_, ?_⟩
  · rintro p' t' v' ⟨d', size', _, hstores', _⟩ w
    obtain ⟨again, hagain, htext⟩ := Size.exists_ofDecimal?_toDecimal hsize
    rw [← htext]
    constructor
    · rintro ⟨e, size'', he, hstores'', rfl⟩
      cases hv.symm.trans he
      cases hagain.symm.trans hstores''.ofDecimal?_eq
      rfl
    · rintro rfl
      exact ⟨_, again, hv, hstores'.stores_iff_of.2 hagain, rfl⟩
  · rintro k small rfl
    rw [Size.value?_of_hundredths hsize hx small, hx] at hy
    exact (Option.some.inj hy).symm
  · rintro p' t' v' x' y' ⟨d', size', ht', hstores', rfl⟩ hx' hy' hle
    have hsize' := hstores'.ofDecimal?_eq
    rw [numberOf?, ht', Option.bind_some] at hx'
    rw [numberOf?, Size.ofText?_toText_of_ofDecimal? hsize', Option.bind_some] at hy'
    exact Size.value_mono hsize hsize' hx hx' hy hy' hle

/-- A link is added to a record with a size of less than a hundredth, and a record is created with a
link of a size that lies between two hundredths; the first answer is submitted in the place of the
second size. -/
theorem stored_sizes_of_small_one :
    let steps : List (Date × Operation) := [(.epoch, .submit "a" {})]
    let s := Store.seeded.after steps
    let link : LinkDraft := { name := "Cover" }
    let p : LinkPlace := ⟨s, .epoch, "a", .added, link⟩
    let q : LinkPlace := ⟨s, .epoch, "b", .created (Store.sound_after steps) {}, link⟩
    p.ReadsBack "-0.001" "-0.00" ∧ q.ReadsBack "1.005" "1.00" ∧
      ∀ w, q.ReadsBack "-0.00" w ↔ w = "0.00" := by
  intro steps s link p q
  have hlink (id : String) {d : Decimal} {size : Size} (hsize : Size.ofDecimal? d = some size) :
      ∃ row, (link.sized d).toStorable id = .ok row ∧ row.size = size :=
    ⟨_, LinkDraft.toStorable_sized_eq_ok_iff.2
      ⟨"Cover", "", size, by decide, by decide, hsize, rfl⟩, rfl⟩
  have hp : p.ReadsBack "-0.001" "-0.00" := by
    refine ⟨.finite true 1 (-3), .hundredths true 0, by decide, ?_, by decide⟩
    exact LinkPlace.stores_iff.2
      ⟨⟨s.records.contains_iff.1 (by decide), by decide⟩, hlink "a" (by decide)⟩
  have hq : q.ReadsBack "1.005" "1.00" := by
    refine ⟨.finite false 1005 (-3), .hundredths false 100, by decide, ?_, by decide⟩
    have hadmits : s.Admits {} :=
      { refs := fun k => by cases k <;> exact (Store.sound_after steps).unknown _
        range := fun a r hr => by cases a <;> cases hr
        target := fun a r hr => by cases a <;> cases hr }
    exact LinkPlace.stores_iff.2
      ⟨⟨by decide, hadmits, ⟨_, rfl⟩, [], rfl⟩, hlink "b" (by decide)⟩
  obtain ⟨x, y, _, _, hagain, _⟩ := stored_sizes hp
  exact ⟨hp, hq, hagain q _ _ hq⟩

end CardCatalog
