import CardCatalog.Http.Query
import CardCatalog.Number.Integer
import Mathlib.Data.List.SplitBy
import Mathlib.Data.List.TakeWhile

/-!
# The fields of a query

A query is cut into fields at every `&`, so queries that are joined by one have the fields of both.
Most characters of a field stand for themselves, digits among them; and the digits that a natural
number is written with are read as the number again.

Results: the fields of joined queries (`queryFields_append`), which value counts among them
(`lastValue?_append`), the one field of a plain text (`queryFields_of_plain`), and the integer that
digits spell (`integerOfText_toString`).
-/

namespace CardCatalog

section Digits

/-- A number does not begin with a zero, unless it is one. -/
theorem head?_toDigits_ne_zero {n : Nat} (h : 0 < n) :
    (Nat.toDigits 10 n).head? ≠ some '0' := by
  induction n using Nat.strongRecOn with
  | ind n ih =>
      rw [Nat.toDigits_eq_if (by decide)]
      split
      · rw [List.head?_cons, ne_eq, Option.some.injEq, Nat.digitChar_eq_zero]
        omega
      · rw [List.head?_append_of_ne_nil _ Nat.toDigits_ne_nil]
        exact ih (n / 10) (by omega) (by omega)

theorem isDigit_of_mem_toDigits {n : Nat} : ∀ c ∈ Nat.toDigits 10 n, c.isDigit = true :=
  fun _ hc => Nat.isDigit_of_mem_toDigits (by decide) (by decide) hc

/-- The digits of a number spell it. -/
theorem ofDigits_toDigits (n : Nat) :
    Number.ofDigits ((Nat.toDigits 10 n).filterMap Text.asciiDigit?) = n := by
  have hdigits : (Nat.toDigits 10 n).filterMap Text.asciiDigit?
      = (Nat.toDigits 10 n).map fun c => c.toNat - '0'.toNat := by
    rw [← List.filterMap_eq_map]
    refine List.filterMap_congr fun c hc => ?_
    have hdigit := isDigit_of_mem_toDigits c hc
    rw [Text.asciiDigit?, if_pos (by simpa [Char.isDigit, Char.le_def] using hdigit)]
    rfl
  rw [hdigits, Number.ofDigits, List.foldl_map, ← Nat.ofDigitChars_eq_foldl,
    Nat.ofDigitChars_ten_toDigits]

theorem toList_toString (n : Nat) : (toString (n : Int)).toList = Nat.toDigits 10 n := by
  show (toString n).toList = _
  rw [Nat.toString_eq_ofList_toDigits, String.toList_ofList]

/-- Digits without a needless zero are in plain form. -/
theorem integerOfPlain_toDigits {n : Nat}
    (short : (Nat.toDigits 10 n).length ≤ Number.longestInteger) :
    Number.integerOfPlain (Nat.toDigits 10 n) = .ok n := by
  have hsign : ∀ ds, Nat.toDigits 10 n ≠ '-' :: ds := fun ds hds =>
    absurd (isDigit_of_mem_toDigits '-' (hds ▸ List.mem_cons_self)) (by decide)
  have hrun : (Nat.toDigits 10 n).takeWhile Char.isDigit = Nat.toDigits 10 n :=
    List.takeWhile_eq_self_iff.2 isDigit_of_mem_toDigits
  have hzero : ¬ ((Nat.toDigits 10 n).head? = some '0' ∧ (Nat.toDigits 10 n).length > 1) := by
    rintro ⟨hhead, hlength⟩
    cases n with
    | zero => simp at hlength
    | succ n => exact head?_toDigits_ne_zero n.succ_pos hhead
  unfold Number.integerOfPlain
  split
  rename_i negative ds heq
  split at heq
  · rename_i ds hds
    exact absurd hds (hsign ds)
  · cases heq
    rw [hrun]
    dsimp only
    rw [if_neg hzero, if_neg (Nat.not_lt.2 short), if_neg (by simp), ofDigits_toDigits]
    rfl

/-- A natural number within the stored range is written with few digits, and read again. -/
theorem integerOfText_toString {n : Nat} (h : Number.InRange n) :
    Number.integerOfText (toString (n : Int)) = .ok n := by
  have hdigits : (Nat.toDigits 10 n).length ≤ 19 := by
    refine (Nat.length_toDigits_le_iff (by decide) (by decide)).2 ?_
    have hbound := h.2
    omega
  unfold Number.integerOfText
  rw [toList_toString, integerOfPlain_toDigits (hdigits.trans (by decide))]

end Digits

namespace Http

section Fields

/-- The characters that stand for themselves in the value of a field. -/
def isPlain (c : Char) : Bool :=
  isAscii c && c != '+' && c != '%' && c != '&'

theorem isPlain_iff {c : Char} :
    isPlain c = true ↔ isAscii c = true ∧ c ≠ '+' ∧ c ≠ '%' ∧ c ≠ '&' := by
  simp [isPlain, and_assoc]

theorem encodeChar_of_isAscii {c : Char} (h : isAscii c = true) :
    Text.encodeChar c = [c.toNat] := by
  have hval : c.val.toNat < 0x80 := of_decide_eq_true h
  have hsize : c.utf8Size = 1 :=
    Char.utf8Size_eq_one_iff.2 (UInt32.le_iff_toNat_le.2 (Nat.le_of_lt_succ hval))
  rw [Text.encodeChar, String.utf8EncodeChar_eq_singleton hsize, List.map_singleton,
    UInt32.toNat_toUInt8, Nat.mod_eq_of_lt (by omega)]
  rfl

theorem decodeBytes_cons_of_isAscii {c : Char} (h : isAscii c = true) (bytes : List Nat) :
    Text.decodeBytes (c.toNat :: bytes) = c :: Text.decodeBytes bytes := by
  have hnat : c.toNat < 0x80 := of_decide_eq_true h
  unfold Text.decodeBytes
  rw [Text.utf8Pieces, Text.leadByte?, if_pos hnat]
  show Char.ofNat c.toNat :: (Text.utf8Pieces bytes).map _ = _
  rw [Char.ofNat_toNat]

theorem decodeBytes_percentBytes {cs : List Char} (h : ∀ c ∈ cs, isPlain c = true) :
    Text.decodeBytes (percentBytes cs) = cs := by
  induction cs with
  | nil => simp [percentBytes, Text.decodeBytes, Text.utf8Pieces]
  | cons c cs ih =>
      obtain ⟨hc, hcs⟩ := List.forall_mem_cons.1 h
      obtain ⟨hascii, _, hpercent, _⟩ := isPlain_iff.1 hc
      have hbytes : percentBytes (c :: cs) = Text.encodeChar c ++ percentBytes cs := by
        rw [percentBytes]
        exact fun _ _ _ heq _ => hpercent heq
      rw [hbytes, encodeChar_of_isAscii hascii, List.singleton_append,
        decodeBytes_cons_of_isAscii hascii, ih hcs]

theorem fieldText_of_plain {cs : List Char} (h : ∀ c ∈ cs, isPlain c = true) :
    fieldText cs = String.ofList cs := by
  have hspaced : (cs.map fun c => if c = '+' then ' ' else c) = cs :=
    (List.map_congr_left fun c hc => if_neg (isPlain_iff.1 (h c hc)).2.1).trans (List.map_id' cs)
  have hascii : ∀ c ∈ cs, isAscii c = true := fun c hc => (isPlain_iff.1 (h c hc)).1
  unfold fieldText
  dsimp only
  rw [hspaced]
  by_cases hcs : cs = []
  · rw [hcs]
    rfl
  · have hchain : cs.IsChain fun a b => (isAscii a == isAscii b) = true := by
      refine (List.pairwise_of_forall_mem_list fun a ha b hb => ?_).isChain
      rw [hascii a ha, hascii b hb]
      rfl
    rw [List.splitBy_of_isChain hcs hchain, List.flatMap_singleton, runChars,
      if_pos (List.all_eq_true.2 hascii), decodeBytes_percentBytes h]

theorem queryFields_append (v w : String) :
    queryFields (v ++ "&" ++ w) = queryFields v ++ queryFields w := by
  have htext : (v ++ "&" ++ w).toList = v.toList ++ '&' :: w.toList := by
    simp
  unfold queryFields
  rw [htext, Text.pieces_append, List.filter_append, List.map_append]

/-- A plain name and a plain value are one field. -/
theorem queryFields_of_plain
    {query name value : String}
    (hquery : query = name ++ "=" ++ value)
    (hname : (name.toList.all fun c => isPlain c && c != '=') = true)
    (hvalue : value.toList.all isPlain = true) :
    queryFields query = [(name, value)] := by
  have htext : (name ++ "=" ++ value).toList = name.toList ++ '=' :: value.toList := by
    simp
  have hnames : ∀ c ∈ name.toList, isPlain c = true ∧ c ≠ '=' := by
    simpa using hname
  have hvalues : ∀ c ∈ value.toList, isPlain c = true := List.all_eq_true.1 hvalue
  have hone : Text.pieces '&' (name.toList ++ '=' :: value.toList)
      = [name.toList ++ '=' :: value.toList] := by
    refine Text.pieces_of_notMem fun h => ?_
    rcases List.mem_append.1 h with h | h
    · exact absurd (hnames _ h).1 (by decide)
    rcases List.mem_cons.1 h with h | h
    · cases h
    · exact absurd (hvalues _ h) (by decide)
  have hsplit : (name.toList ++ '=' :: value.toList).takeWhile (· ≠ '=') = name.toList := by
    rw [List.takeWhile_append_of_pos fun c hc => decide_eq_true (hnames c hc).2]
    simp
  unfold queryFields
  rw [hquery, htext, hone, List.filter_cons_of_pos (by simp), List.filter_nil, List.map_singleton]
  unfold queryField
  rw [hsplit]
  simp only [List.drop_left, List.drop_one, List.tail_cons]
  rw [fieldText_of_plain fun c hc => (hnames c hc).1, fieldText_of_plain hvalues,
    String.ofList_toList, String.ofList_toList]

theorem isPlain_of_isDigit {c : Char} (h : c.isDigit = true) : isPlain c = true := by
  have hbounds : 48 ≤ c.toNat ∧ c.toNat ≤ 57 := by
    simpa [Char.isDigit, UInt32.le_iff_toNat_le] using h
  have hne (d : Char) (hd : d.toNat < 48) : c ≠ d := by
    rintro rfl
    omega
  exact isPlain_iff.2
    ⟨decide_eq_true (by omega), hne '+' (by decide), hne '%' (by decide), hne '&' (by decide)⟩

/-- A plain name and a number are one field. -/
theorem queryFields_number
    (name : String) (n : Nat)
    (hname : (name.toList.all fun c => isPlain c && c != '=') = true) :
    queryFields (name ++ "=" ++ toString (n : Int)) = [(name, toString (n : Int))] := by
  refine queryFields_of_plain rfl hname (List.all_eq_true.2 fun c hc => isPlain_of_isDigit ?_)
  rw [toList_toString] at hc
  exact isDigit_of_mem_toDigits c hc

/-- Of joined fields those behind count first. -/
theorem lastValue?_append (fs gs : List (String × String)) (name : String) :
    lastValue? (fs ++ gs) name = (lastValue? gs name).or (lastValue? fs name) := by
  unfold lastValue? Json.get?
  rw [List.reverse_append, List.find?_append, Option.map_or]

end Fields

end Http
end CardCatalog
