import CardCatalog.Fault
import CardCatalog.Proofs.Spelling

/-!
# Names of kinds

A value names a kind if its plain form spells the name of the kind between outer blanks.  Texts are
brought to lower case by all of Unicode, but the names have no letter that comes of another script:
the Kelvin sign becomes a k, which is in none of them, and the dotted capital I becomes two
characters, the second of which is no ASCII.  So a name is spelled by ASCII letters only.

Results: the texts that name a kind (`ofText?_eq_some_iff`), and the kind of a value
(`kind_of_value`).
-/

namespace CardCatalog

open Text (Code Wide)

namespace Text

/-- Whether a code is a letter of ASCII. -/
def Code.IsAsciiLetter (c : Code) : Prop :=
  ∃ d, c = .char d ∧ (0x41 ≤ d.toNat ∧ d.toNat ≤ 0x5a ∨ 0x61 ≤ d.toNat ∧ d.toNat ≤ 0x7a)

theorem Code.IsAsciiLetter.isBlank_eq_false {c : Code} (h : c.IsAsciiLetter) :
    c.isBlank = false := by
  obtain ⟨d, rfl, hd⟩ := h
  simp only [Code.isBlank, Text.isBlank, isSpace, Bool.or_eq_false_iff, Bool.and_eq_false_iff,
    decide_eq_false_iff_not, beq_eq_false_iff_ne]
  omega

/-- A plain letter is spelled by ASCII letters only. -/
theorem Code.Spells.isAsciiLetter {c : Code} {d : Char} (plain : IsPlainLetter d) (h : c.Spells d) :
    c.IsAsciiLetter := by
  obtain ⟨e, rfl, he⟩ := h
  rw [plain.toLower_eq_self] at he
  refine ⟨e, rfl, ?_⟩
  by_cases hcapital : 0x41 ≤ e.toNat ∧ e.toNat ≤ 0x5a
  · exact .inl hcapital
  · have hsame : e.toLower = e := dif_neg hcapital
    rw [hsame] at he
    rw [he]
    exact .inr ⟨plain.first, plain.last⟩

end Text

namespace Kind

theorem isPlainLetter_of_mem_name (k : Kind) : ∀ d ∈ k.name.toList, Text.IsPlainLetter d := by
  have hall : ∀ k : Kind, k.name.toList.all (fun d => decide (Text.IsPlainLetter d)) = true := by
    decide
  exact fun d hd => of_decide_eq_true (List.all_eq_true.1 (hall k) d hd)

/-- A name is that of one kind. -/
theorem ofName?_eq_some_iff {s : String} {k : Kind} : ofName? s = some k ↔ k.name = s := by
  constructor
  · intro h
    simpa using List.find?_some h
  · rintro rfl
    exact ofName?_name k

/-- A text names a kind exactly if it spells its name between outer blanks. -/
theorem ofText?_eq_some_iff {w : Wide} {k : Kind} : ofText? w = some k ↔ w.trim.Spells k.name := by
  rw [ofText?, Option.bind_eq_some_iff, ← Text.lower_eq_iff_spells k.isPlainLetter_of_mem_name]
  constructor
  · rintro ⟨s, hs, hk⟩
    rw [Wide.text?_eq_some_iff.1 hs, ofName?_eq_some_iff.1 hk]
  · intro h
    exact ⟨k.name, Wide.text?_eq_some_iff.2 h, ofName?_name k⟩

/-- What stands in a text between its outer blanks is ASCII letters, if it spells a kind. -/
theorem isAsciiLetter_of_spells
    {w : Wide} {k : Kind}
    (h : w.Spells k.name) :
    ∀ c ∈ w.codes, c.IsAsciiLetter := by
  intro c hc
  obtain ⟨i, hi, rfl⟩ := List.mem_iff_getElem.1 hc
  have hletters := List.forall₂_iff_get.1 h
  have hletter := hletters.2 i hi (hletters.1 ▸ hi)
  exact hletter.isAsciiLetter (k.isPlainLetter_of_mem_name _ (List.get_mem _ _))

theorem ofJson_eq_ok_iff {j : Json} {k : Kind} :
    ofJson j = .ok k ↔ j.plain.trim.Spells k.name := by
  rw [← ofText?_eq_some_iff, ofJson]
  cases ofText? j.plain <;> simp

theorem ofJson_eq_error_iff {j : Json} {e : Fault} :
    ofJson j = .error e ↔
      e = .unknownKind j.shown ∧ ∀ k : Kind, ¬ j.plain.trim.Spells k.name := by
  simp only [← ofText?_eq_some_iff, ofJson]
  cases ofText? j.plain <;> simp [eq_comm]

/-- A name spells its own kind. -/
theorem ofJson_name (k : Kind) : ofJson (.text k.name) = .ok k := by
  revert k
  decide +kernel

/-- A value names a kind exactly if its plain form, without its outer blanks, is the name of the
kind letter by letter, up to the case of ASCII letters; and every other value is refused as naming
none.  So no value names two kinds, and in one that names a kind all but the outer blanks are ASCII
letters; and the name of a kind names it. -/
theorem kind_of_value (j : Json) :
    (∀ k, ofJson j = .ok k ↔ j.plain.trim.Spells k.name) ∧
      (ofJson j = .error (.unknownKind j.shown) ↔
        ∀ k : Kind, ¬ j.plain.trim.Spells k.name) ∧
      (∀ k k' : Kind, j.plain.trim.Spells k.name → j.plain.trim.Spells k'.name → k = k') ∧
      (∀ k, ofJson j = .ok k →
        (∀ c ∈ j.plain.trim.codes, c.IsAsciiLetter ∧ c.isBlank = false) ∧
          ∀ c ∈ j.plain.codes, c.IsAsciiLetter ∨ c.isBlank = true) ∧
      ∀ k : Kind, ofJson (.text k.name) = .ok k := by
  refine ⟨fun k => ofJson_eq_ok_iff, ?_, fun k k' hk hk' => ?_, fun k hk => ?_, ofJson_name⟩
  · rw [ofJson_eq_error_iff]
    exact and_iff_right rfl
  · have hsame := (ofText?_eq_some_iff.2 hk).symm.trans (ofText?_eq_some_iff.2 hk')
    exact Option.some.inj hsame
  · have hletters := isAsciiLetter_of_spells (ofJson_eq_ok_iff.1 hk)
    refine ⟨fun c hc => ⟨hletters c hc, (hletters c hc).isBlank_eq_false⟩, fun c hc => ?_⟩
    obtain ⟨front, back, hparts, hfront, hback⟩ :=
      Text.exists_eq_append_trimBy Code.isBlank j.plain.codes
    rw [hparts] at hc
    rcases List.mem_append.1 hc with hc | hc
    · rcases List.mem_append.1 hc with hc | hc
      · exact .inr (hfront c hc)
      · exact .inl (hletters c hc)
    · exact .inr (hback c hc)

/-- A dotted capital I is no spelling of an i, though an i is what its lower-case form begins
with. -/
example :
    ofText? "\u00a0iDOL\t" = some (.attached .idol) ∧ ofText? "\u0130dol" = none ∧
      ofText? "i dol" = none := by
  decide +kernel

end Kind

end CardCatalog
