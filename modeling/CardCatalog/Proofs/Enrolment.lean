import CardCatalog.Proofs.Edits

/-!
# Enrolling

A table of values enrols a value by adding it at the end, unless a row holds it already.
The id of a value is that of the first row that holds it.  Rows never move, so the id that
a value has once it is enrolled is its id from then on, whatever is enrolled later.

Results: the ids and the store that the enrolments of a submission leave (`enrolments_eq`).
-/

namespace CardCatalog
namespace Table

section Values

variable {α : Type}

/-- The values that the rows hold. -/
def values (t : Table Int α) : List α :=
  t.rows.map Prod.snd

@[simp] theorem values_push
    (t : Table Int α) (a : α) :
    (t.push a).values = t.values ++ [a] := by
  simp [values]

/-- A row that is added leaves the other rows as they are. -/
theorem get?_push_of_some
    {t : Table Int α} {id : Int} {a : α} (b : α)
    (h : t.get? id = some a) :
    (t.push b).get? id = some a := by
  have hne : id ≠ t.nextId := by
    rintro rfl
    rw [get?_nextId] at h
    cases h
  rw [get?_push, if_neg hne, h]

variable [DecidableEq α]

/-- The id of the first row that holds a value. -/
def firstId? (t : Table Int α) (a : α) : Option Int :=
  (t.rows.find? fun e => e.2 = a).map Prod.fst

/-- The id that a value has once it is enrolled. -/
def idFor (t : Table Int α) (a : α) : Int :=
  (t.firstId? a).getD t.nextId

/-- Adds a value, unless a row holds it. -/
def enrol (t : Table Int α) (a : α) : Table Int α :=
  if (t.firstId? a).isSome then t else t.push a

/-- Enrols values one after the other. -/
def enrolAll (t : Table Int α) (as : List α) : Table Int α :=
  as.foldl enrol t

variable {t : Table Int α} {id : Int} {a b : α} {as : List α}

theorem firstId?_eq_none_iff :
    t.firstId? a = none ↔ a ∉ t.values := by
  unfold firstId? values
  rw [Option.map_eq_none_iff, List.find?_eq_none]
  constructor
  · intro h hmem
    obtain ⟨e, he, hvalue⟩ := List.mem_map.1 hmem
    exact h e he (decide_eq_true hvalue)
  · intro h e he hvalue
    exact h (List.mem_map.2 ⟨e, he, of_decide_eq_true hvalue⟩)

theorem exists_firstId?_iff :
    (∃ id, t.firstId? a = some id) ↔ a ∈ t.values := by
  rw [← Option.isSome_iff_exists, Option.isSome_iff_ne_none, ne_eq, firstId?_eq_none_iff]
  exact Classical.not_not

/-- The first row that holds a value is a row that holds it. -/
theorem get?_of_firstId?
    (h : t.firstId? a = some id) :
    t.get? id = some a := by
  obtain ⟨e, he, rfl⟩ := Option.map_eq_some_iff.1 h
  have hvalue : e.2 = a := by simpa using List.find?_some he
  rw [← hvalue]
  exact t.mem_rows_iff.1 (List.mem_of_find?_eq_some he)

theorem idFor_of_firstId?
    (h : t.firstId? a = some id) :
    t.idFor a = id := by
  simp [idFor, h]

theorem get?_idFor
    (h : a ∈ t.values) :
    t.get? (t.idFor a) = some a := by
  obtain ⟨id, hid⟩ := exists_firstId?_iff.2 h
  rw [idFor_of_firstId? hid]
  exact get?_of_firstId? hid

/-- Values that are held have the same id only if they are the same. -/
theorem idFor_inj
    (ha : a ∈ t.values) (hb : b ∈ t.values) :
    t.idFor a = t.idFor b ↔ a = b := by
  constructor
  · intro h
    have hget := get?_idFor ha
    rw [h, get?_idFor hb] at hget
    exact (Option.some.inj hget).symm
  · rintro rfl
    rfl

/-- Enrolling a value gives it its id, and leaves the ids of all other values. -/
theorem firstId?_enrol
    (t : Table Int α) (a b : α) :
    (t.enrol b).firstId? a = if a = b then some (t.idFor b) else t.firstId? a := by
  unfold enrol
  by_cases hab : a = b
  · subst hab
    cases h : t.firstId? a with
    | some id => simp [h, idFor]
    | none =>
        have hnone := Option.map_eq_none_iff.1 h
        simp [idFor, firstId?, List.find?_append, hnone]
  · rw [if_neg hab]
    split
    · rfl
    · have hba : ¬ b = a := fun e => hab e.symm
      simp [hba, firstId?, List.find?_append]

theorem get?_enrol_of_some
    (b : α)
    (h : t.get? id = some a) :
    (t.enrol b).get? id = some a := by
  unfold enrol
  split
  · exact h
  · exact get?_push_of_some b h

theorem mem_values_enrol :
    a ∈ (t.enrol b).values ↔ a ∈ t.values ∨ a = b := by
  rw [← exists_firstId?_iff, ← exists_firstId?_iff, firstId?_enrol]
  by_cases hab : a = b <;> simp [hab]

theorem nextId_enrol_le (t : Table Int α) (a : α) :
    (t.enrol a).nextId ≤ t.nextId + 1 := by
  unfold enrol
  split
  · omega
  · have hpush := nextId_push t a
    omega

/-- The id of a value stays the same whatever is enrolled. -/
theorem firstId?_enrolAll_of_some
    (as : List α)
    (h : t.firstId? a = some id) :
    (t.enrolAll as).firstId? a = some id := by
  induction as generalizing t with
  | nil => exact h
  | cons b as ih =>
      refine ih (t := t.enrol b) ?_
      rw [firstId?_enrol]
      split
      · rename_i hab
        rw [← hab, idFor_of_firstId? h]
      · exact h

theorem get?_enrolAll_of_some
    (as : List α)
    (h : t.get? id = some a) :
    (t.enrolAll as).get? id = some a := by
  induction as generalizing t with
  | nil => exact h
  | cons b as ih => exact ih (get?_enrol_of_some b h)

/-- The values after enrolments are those from before, and the enrolled ones. -/
theorem mem_values_enrolAll :
    a ∈ (t.enrolAll as).values ↔ a ∈ t.values ∨ a ∈ as := by
  induction as generalizing t with
  | nil => simp [enrolAll]
  | cons b as ih =>
      show a ∈ ((t.enrol b).enrolAll as).values ↔ _
      rw [ih, mem_values_enrol, List.mem_cons, or_assoc]

/-- Values that are held are not enrolled again. -/
theorem enrolAll_eq_self
    (h : ∀ a ∈ as, a ∈ t.values) :
    t.enrolAll as = t := by
  induction as with
  | nil => rfl
  | cons a as ih =>
      obtain ⟨id, hid⟩ := exists_firstId?_iff.2 (h a (by simp))
      have hsame : t.enrol a = t := by
        simp [enrol, hid]
      show (t.enrol a).enrolAll as = t
      rw [hsame]
      exact ih fun b hb => h b (List.mem_cons_of_mem a hb)

/-- What is enrolled stands behind the other rows: every value that was not held, once, in the
order in which they come. -/
theorem rows_enrolAll (t : Table Int α) (as : List α) :
    ∃ new : List (Int × α),
      (t.enrolAll as).rows = t.rows ++ new ∧
        new.map Prod.snd = freshBy (fun b => b) t.values as := by
  induction as generalizing t with
  | nil => exact ⟨[], by simp [enrolAll], rfl⟩
  | cons a as ih =>
      obtain ⟨new, hrows, hnew⟩ := ih (t.enrol a)
      have hrest : (t.enrolAll (a :: as)).rows = (t.enrol a).rows ++ new := hrows
      rw [hrest]
      unfold freshBy
      cases hfirst : t.firstId? a with
      | some i =>
          have hheld : a ∈ t.values := exists_firstId?_iff.1 ⟨i, hfirst⟩
          have hsame : t.enrol a = t := by
            simp [enrol, hfirst]
          refine ⟨new, by rw [hsame], ?_⟩
          rw [if_pos hheld, hnew, hsame]
      | none =>
          have hfree : a ∉ t.values := firstId?_eq_none_iff.1 hfirst
          have hadded : t.enrol a = t.push a := by
            simp [enrol, hfirst]
          refine ⟨(t.nextId, a) :: new, ?_, ?_⟩
          · rw [hadded, rows_push, List.append_assoc]
            rfl
          · rw [if_neg hfree, List.map_cons, hnew, hadded, values_push]
            -- the values that are known are the same, in another order
            have hknown := freshBy_map (fun b : α => b) (fun b => b) (fun b => b) as
              (a :: t.values) (t.values ++ [a]) (fun b _ => by simp [or_comm])
              (fun _ _ _ _ => Iff.rfl)
            simpa using hknown

theorem nextId_enrolAll_le (t : Table Int α) (as : List α) :
    (t.enrolAll as).nextId ≤ t.nextId + as.length := by
  induction as generalizing t with
  | nil => simp [enrolAll]
  | cons b as ih =>
      have hrest := ih (t.enrol b)
      have hone := nextId_enrol_le t b
      rw [List.length_cons]
      show ((t.enrol b).enrolAll as).nextId ≤ _
      omega

/-- The id at which a value is enrolled is its id after all further enrolments. -/
theorem idFor_enrolAll_cons
    (t : Table Int α) (a : α) (as : List α) :
    (t.enrolAll (a :: as)).idFor a = t.idFor a := by
  have hself : (t.enrol a).firstId? a = some (t.idFor a) := by
    rw [firstId?_enrol, if_pos rfl]
  exact idFor_of_firstId? (firstId?_enrolAll_of_some as hself)

end Values

end Table

section Named

variable (direct : PerDirect (Option (Candidate String)))
variable (attached : PerAttached (List (AttachedCandidate String)))

/-- The keys that are named for a record, by kind. -/
def namedKeys : Kind → List (NaturalKey String)
  | .direct d => (direct.get d).toList.map Candidate.key
  | .attached a => (attached.get a).map fun x => x.row.key

/-- The id of a direct row that is named, or of the unknown row. -/
def namedId (t : Table Int (NaturalKey String)) (c? : Option (Candidate String)) : Int :=
  match c? with
  | none => unknownId
  | some c => t.idFor c.key

/-- The references to attached rows that are named. -/
def namedRefs (t : Table Int (NaturalKey String)) (rows : List (AttachedCandidate String)) :
    List AttachedRef :=
  rows.map fun x => ⟨t.idFor x.row.key, x.manual⟩

end Named

namespace Store

/-- Stores are equal if they hold the same keys of every kind, and the same of all else. -/
theorem ext_keys
    {s t : Store}
    (keys : ∀ k, s.keys k = t.keys k)
    (records : s.records = t.records)
    (attachments : s.attachments = t.attachments)
    (links : s.links = t.links) :
    s = t := by
  cases s
  cases t
  have hkeys := PerKind.ext_get keys
  simp_all

@[simp] theorem setKeys_keys (s : Store) (k : Kind) :
    s.setKeys k (s.keys k) = s := by
  refine ext_keys (fun k' => ?_) rfl rfl rfl
  rw [keys_setKeys]
  split
  · rename_i hk
    rw [hk]
  · rfl

@[simp] theorem setKeys_setKeys
    (s : Store) (k : Kind) (t t' : Table Int (NaturalKey String)) :
    (s.setKeys k t).setKeys k t' = s.setKeys k t' := by
  refine ext_keys (fun k' => ?_) rfl rfl rfl
  simp only [keys_setKeys]
  split <;> rfl

/-- The store in which keys are enrolled, those of each kind in their order. -/
def enrolNamed (s : Store) (named : Kind → List (NaturalKey String)) : Store :=
  let enrolled (k : Kind) := (s.keys k).enrolAll (named k)
  { s with
    lookups :=
      ⟨.ofFn fun d => enrolled (.direct d), .ofFn fun a => enrolled (.attached a)⟩ }

section Enrolling

variable (s : Store)

@[simp] theorem keys_enrolNamed (named : Kind → List (NaturalKey String)) (k : Kind) :
    (s.enrolNamed named).keys k = (s.keys k).enrolAll (named k) := by
  cases k <;> simp [keys, enrolNamed, PerKind.get]

@[simp] theorem records_enrolNamed (named : Kind → List (NaturalKey String)) :
    (s.enrolNamed named).records = s.records := rfl

@[simp] theorem attachments_enrolNamed (named : Kind → List (NaturalKey String)) :
    (s.enrolNamed named).attachments = s.attachments := rfl

@[simp] theorem links_enrolNamed (named : Kind → List (NaturalKey String)) :
    (s.enrolNamed named).links = s.links := rfl

/-- Where the keys are held that are named, nothing is enrolled. -/
theorem enrolNamed_eq_self
    {s : Store} {named : Kind → List (NaturalKey String)}
    (h : ∀ k, ∀ key ∈ named k, key ∈ (s.keys k).values) :
    s.enrolNamed named = s := by
  refine ext_keys (fun k => ?_) rfl rfl rfl
  rw [keys_enrolNamed]
  exact Table.enrolAll_eq_self (h k)

/-- The holder of a key is the first row that holds it. -/
theorem holder?_eq_firstId? (k : Kind) (key : NaturalKey String) :
    (s.holder? k key none).map Lookup.id = (s.keys k).firstId? key := by
  unfold holder? lookupRows Table.firstId?
  rw [List.find?_map, Option.map_map]
  simp [Function.comp_def]

/-- Enrolling a candidate enrols its key. -/
theorem enrol_eq (k : Kind) (c : Candidate String) :
    s.enrol k c = ((s.keys k).idFor c.key, s.setKeys k ((s.keys k).enrol c.key)) := by
  have hfirst := s.holder?_eq_firstId? k c.key
  unfold enrol
  cases h : s.holder? k c.key none with
  | some row =>
      rw [h, Option.map_some] at hfirst
      simp [Table.idFor, Table.enrol, ← hfirst]
  | none =>
      rw [h, Option.map_none] at hfirst
      simp [Table.idFor, Table.enrol, ← hfirst]

theorem enrolDirect_eq (d : DirectKind) (c? : Option (Candidate String)) :
    s.enrolDirect d c?
      = (namedId ((s.keys (.direct d)).enrolAll (c?.toList.map Candidate.key)) c?,
          s.setKeys (.direct d) ((s.keys (.direct d)).enrolAll (c?.toList.map Candidate.key))) := by
  cases c? with
  | none => simp [enrolDirect, namedId, Table.enrolAll]
  | some c =>
      show s.enrol (.direct d) c = _
      have hid : ((s.keys (.direct d)).enrolAll [c.key]).idFor c.key
          = (s.keys (.direct d)).idFor c.key :=
        Table.idFor_enrolAll_cons _ _ _
      rw [enrol_eq, ← hid]
      rfl

/-- The rows to attach get the ids that they have after the last of them is enrolled. -/
theorem enrolAttached_eq (a : AttachedKind) (rows : List (AttachedCandidate String)) :
    s.enrolAttached a rows
      = (namedRefs ((s.keys (.attached a)).enrolAll (rows.map fun x => x.row.key)) rows,
          s.setKeys (.attached a)
            ((s.keys (.attached a)).enrolAll (rows.map fun x => x.row.key))) := by
  induction rows generalizing s with
  | nil => simp [enrolAttached, namedRefs, Table.enrolAll]
  | cons x rows ih =>
      have hid :
          ((s.keys (.attached a)).enrolAll ((x :: rows).map fun x => x.row.key)).idFor x.row.key
            = (s.keys (.attached a)).idFor x.row.key :=
        Table.idFor_enrolAll_cons _ _ _
      unfold enrolAttached
      rw [enrol_eq]
      dsimp only
      rw [ih]
      simp only [keys_setKeys, if_true, setKeys_setKeys, namedRefs, List.map_cons] at hid ⊢
      rw [hid]
      rfl

/-- Rows to attach that are not given are enrolled as none. -/
theorem enrolAttached?_eq (a : AttachedKind) (rows? : Option (List (AttachedCandidate String))) :
    s.enrolAttached? a rows?
      = (rows?.map fun _ => (s.enrolAttached a (rows?.getD [])).1,
          (s.enrolAttached a (rows?.getD [])).2) := by
  cases rows? <;> rfl

/-- The direct rows of a record get the ids that they have after all are enrolled. -/
theorem enrolRefs_eq (direct : PerDirect (Option (Candidate String))) :
    s.enrolRefs direct
      = (.ofFn fun d =>
            namedId ((s.enrolNamed (namedKeys direct ⟨[], []⟩)).keys (.direct d)) (direct.get d),
          s.enrolNamed (namedKeys direct ⟨[], []⟩)) := by
  unfold enrolRefs
  simp only [enrolDirect_eq]
  refine Prod.ext ?_ ?_
  · refine PerDirect.ext_get fun d => ?_
    cases d <;> simp [PerDirect.get, PerDirect.ofFn, namedKeys]
  · refine ext_keys (fun k => ?_) rfl rfl rfl
    rcases k with d | a
    · cases d <;> simp [PerDirect.get, namedKeys]
    · cases a <;> simp [PerAttached.get, namedKeys, Table.enrolAll]

/-- The keys of attached rows are enrolled behind those of the direct ones. -/
theorem setKeys_enrolNamed
    (direct : PerDirect (Option (Candidate String)))
    (attached : PerAttached (List (AttachedCandidate String))) :
    ((s.enrolNamed (namedKeys direct ⟨[], []⟩)).setKeys (.attached .genre)
      ((s.keys (.attached .genre)).enrolAll
        (namedKeys direct attached (.attached .genre)))).setKeys (.attached .idol)
      ((s.keys (.attached .idol)).enrolAll (namedKeys direct attached (.attached .idol)))
      = s.enrolNamed (namedKeys direct attached) := by
  refine ext_keys (fun k => ?_) rfl rfl rfl
  rcases k with d | a
  · simp [namedKeys]
  · cases a <;> simp

theorem keys_enrolRefs_attached
    (direct : PerDirect (Option (Candidate String))) (a : AttachedKind) :
    (s.enrolRefs direct).2.keys (.attached a) = s.keys (.attached a) := by
  rw [enrolRefs_eq, keys_enrolNamed]
  cases a <;> rfl

/-- The ids that the enrolments of a submission answer are those after the last of them. -/
theorem enrolments_eq
    (direct : PerDirect (Option (Candidate String)))
    (attached : PerAttached (List (AttachedCandidate String))) :
    let t := s.enrolNamed (namedKeys direct attached)
    let refs := s.enrolRefs direct
    let genres := refs.2.enrolAttached .genre attached.genre
    let idols := genres.2.enrolAttached .idol attached.idol
    refs.1 = (.ofFn fun d => namedId (t.keys (.direct d)) (direct.get d)) ∧
      genres.1 = namedRefs (t.keys (.attached .genre)) attached.genre ∧
      idols.1 = namedRefs (t.keys (.attached .idol)) attached.idol ∧
      idols.2 = t := by
  intro t refs genres idols
  have hgenres : genres = _ := enrolAttached_eq _ _ _
  have hidols : idols = _ := enrolAttached_eq _ _ _
  rw [keys_enrolRefs_attached] at hgenres
  have hkeys : genres.2.keys (.attached .idol) = s.keys (.attached .idol) := by
    rw [hgenres, keys_setKeys, if_neg (by decide), keys_enrolRefs_attached]
  rw [hkeys] at hidols
  refine ⟨?_, ?_, ?_, ?_⟩
  · show (s.enrolRefs direct).1 = _
    rw [enrolRefs_eq]
    simp only [t, keys_enrolNamed]
    rfl
  · rw [hgenres]
    simp only [t, keys_enrolNamed]
    rfl
  · rw [hidols]
    simp only [t, keys_enrolNamed]
    rfl
  · rw [hidols, hgenres]
    show ((s.enrolRefs direct).2.setKeys _ _).setKeys _ _ = t
    rw [enrolRefs_eq]
    exact s.setKeys_enrolNamed direct attached

/-- Enrolling the keys of a record is a chain of edits. -/
theorem edits_enrolNamed
    (direct : PerDirect (Option (Candidate String)))
    (attached : PerAttached (List (AttachedCandidate String))) :
    Edits s (s.enrolNamed (namedKeys direct attached)) := by
  obtain ⟨_, _, _, hstore⟩ := s.enrolments_eq direct attached
  rw [← hstore]
  refine ((s.edits_enrolRefs direct).trans ?_).trans (edits_enrolAttached _ .idol _)
  exact edits_enrolAttached _ .genre _

end Enrolling

end Store
end CardCatalog
