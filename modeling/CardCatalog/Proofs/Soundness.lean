import CardCatalog.Proofs.Edits

/-!
# Sound stores

A store is sound if nothing in it dangles: the unknown rows are there, every record points
at rows that exist, attachments and links belong to records that exist, and no row is
attached twice to one record.  All parts are needed at once: references fall back to the
unknown row, which is safe only because no operation can take that row away.

Results: every edit keeps a store sound (`sound_of_edit`), so a fresh store is sound after
every run (`sound_after`).
-/

namespace CardCatalog

open Calendar (Date)
open Text (Wide)

namespace Store

/-- Nothing in the store dangles, and nothing is attached twice. -/
structure Sound (s : Store) : Prop where
  unknown : ∀ d, (s.keys (.direct d)).contains unknownId = true
  refs : ∀ id row, s.records.get? id = some row →
    ∀ d, (s.keys (.direct d)).contains (row.refs.get d) = true
  owner : ∀ a, ∀ e ∈ (s.attachments.get a).rows, s.records.contains e.2.record = true
  target : ∀ a, ∀ e ∈ (s.attachments.get a).rows,
    (s.keys (.attached a)).contains e.2.target = true
  once : ∀ a, (s.attachments.get a).rows.Pairwise fun x y =>
    ¬ (x.2.record = y.2.record ∧ x.2.target = y.2.target)
  linkOwner : ∀ e ∈ s.links.rows, s.records.contains e.2.record = true

section Preservation

variable {s : Store}

/-- More reference rows do no harm. -/
theorem Sound.of_keys
    (h : s.Sound)
    {t : Store}
    (records : t.records = s.records)
    (attachments : t.attachments = s.attachments)
    (links : t.links = s.links)
    (keys : ∀ k id, (s.keys k).contains id = true → (t.keys k).contains id = true) :
    t.Sound where
  unknown d := keys _ _ (h.unknown d)
  refs id row hrow d := keys _ _ (h.refs id row (records ▸ hrow) d)
  owner a e he := by
    rw [attachments] at he
    rw [records]
    exact h.owner a e he
  target a e he := by
    rw [attachments] at he
    exact keys _ _ (h.target a e he)
  once a := by
    rw [attachments]
    exact h.once a
  linkOwner e he := by
    rw [links] at he
    rw [records]
    exact h.linkOwner e he

theorem Sound.setKeys_put
    (h : s.Sound) (k : Kind) (id : Int) (key : NaturalKey String) :
    (s.setKeys k ((s.keys k).put id key)).Sound := by
  refine h.of_keys rfl rfl rfl fun k' id' hid => ?_
  by_cases hk : k' = k
  · subst hk
    simp [hid]
  · simpa [hk] using hid

theorem Sound.without
    (h : s.Sound)
    {k : Kind} {id : Int}
    (safe : isProtected k id = false) :
    (s.without k id).Sound where
  unknown d := by
    rw [keys_without]
    split
    · rename_i hk
      have hne : unknownId ≠ id := by
        rw [← hk] at safe
        simpa [isProtected, eq_comm] using safe
      simpa [← hk, hne] using h.unknown d
    · exact h.unknown d
  refs r row hrow d := by
    rw [get?_records_without, Option.map_eq_some_iff] at hrow
    obtain ⟨old, hold, rfl⟩ := hrow
    have hrefs := h.refs r old hold d
    rw [RecordRow.get_refs_without, keys_without]
    by_cases hk : k = .direct d
    · subst hk
      have hne : unknownId ≠ id := by
        simpa [isProtected, eq_comm] using safe
      by_cases hid : old.refs.get d = id
      · simpa [hid, hne] using h.unknown d
      · simpa [hid] using hrefs
    · have hk' : ¬ Kind.direct d = k := fun e => hk e.symm
      simpa [hk, hk'] using hrefs
  owner a e he := by
    rw [contains_records_without]
    exact h.owner a e ((s.mem_attachments_without k id a).1 he).1
  target a e he := by
    obtain ⟨he, hstays⟩ := (s.mem_attachments_without k id a).1 he
    have htarget := h.target a e he
    rw [keys_without]
    split
    · rename_i hk
      have hne : e.2.target ≠ id := fun e' => hstays ⟨hk.symm, e'⟩
      simpa [← hk, hne] using htarget
    · exact htarget
  once a := by
    have honce := h.once a
    cases k with
    | direct d => exact honce
    | attached a' =>
        by_cases ha : a = a'
        · subst ha
          simpa [Store.without, Table.filter] using honce.filter _
        · simpa [Store.without, ha] using honce
  linkOwner e he := by
    rw [links_without] at he
    rw [contains_records_without]
    exact h.linkOwner e he

theorem Sound.write
    (h : s.Sound)
    (id : String) (row : RecordRow)
    (resolves : ∀ d,
      (∃ old, s.records.get? id = some old ∧ old.refs.get d = row.refs.get d) ∨
        (s.keys (.direct d)).contains (row.refs.get d) = true) :
    Sound { s with records := s.records.put id row } where
  unknown := h.unknown
  refs r row' hrow d := by
    rw [Table.get?_put] at hrow
    split at hrow
    · cases hrow
      rcases resolves d with ⟨old, hold, heq⟩ | hfound
      · rw [← heq]
        exact h.refs id old hold d
      · exact hfound
    · exact h.refs r row' hrow d
  owner a e he := by
    simp [h.owner a e he]
  target := h.target
  once := h.once
  linkOwner e he := by
    simp [h.linkOwner e he]

theorem Sound.attach
    (h : s.Sound)
    (a : AttachedKind) (x : Attachment)
    (owner : s.records.contains x.record = true)
    (target : (s.keys (.attached a)).contains x.target = true)
    (free : ∀ e ∈ (s.attachments.get a).rows,
      ¬ (e.2.record = x.record ∧ e.2.target = x.target)) :
    (s.setAttachments a ((s.attachments.get a).push x)).Sound := by
  have hrows (a' : AttachedKind) :
      ∀ e ∈ ((s.setAttachments a ((s.attachments.get a).push x)).attachments.get a').rows,
        e ∈ (s.attachments.get a').rows ∨ a' = a ∧ e.2 = x := by
    intro e he
    by_cases ha : a' = a
    · subst ha
      simp only [attachments_setAttachments, if_true, Table.rows_push, List.mem_append,
        List.mem_singleton] at he
      rcases he with he | rfl
      · exact Or.inl he
      · exact Or.inr ⟨rfl, rfl⟩
    · rw [attachments_setAttachments, if_neg ha] at he
      exact Or.inl he
  refine ⟨h.unknown, h.refs, ?_, ?_, ?_, h.linkOwner⟩
  · intro a' e he
    rcases hrows a' e he with he | ⟨_, rfl⟩
    · exact h.owner a' e he
    · exact owner
  · intro a' e he
    rcases hrows a' e he with he | ⟨rfl, rfl⟩
    · exact h.target a' e he
    · exact target
  · intro a'
    have honce := h.once a'
    by_cases ha : a' = a
    · subst ha
      rw [attachments_setAttachments, if_pos rfl, Table.rows_push, List.pairwise_append]
      refine ⟨honce, List.pairwise_singleton _ _, ?_⟩
      intro e he e' he'
      rw [List.mem_singleton.1 he']
      exact free e he
    · rw [attachments_setAttachments, if_neg ha]
      exact honce

theorem Sound.detach
    (h : s.Sound) (a : AttachedKind) (id : String) :
    (s.detach id a).Sound := by
  have hsub (a' : AttachedKind) :
      ((s.detach id a).attachments.get a').rows.Sublist (s.attachments.get a').rows := by
    unfold Store.detach
    rw [attachments_setAttachments]
    split
    · rename_i ha
      subst ha
      exact List.filter_sublist
    · exact List.Sublist.refl _
  exact
    { unknown := h.unknown
      refs := h.refs
      owner := fun a' e he => h.owner a' e ((hsub a').subset he)
      target := fun a' e he => h.target a' e ((hsub a').subset he)
      once := fun a' => (h.once a').sublist (hsub a')
      linkOwner := h.linkOwner }

theorem Sound.link
    (h : s.Sound) (l : LinkRow)
    (owner : s.records.contains l.record = true) :
    Sound { s with links := s.links.push l } where
  unknown := h.unknown
  refs := h.refs
  owner := h.owner
  target := h.target
  once := h.once
  linkOwner e he := by
    simp only [Table.rows_push, List.mem_append, List.mem_singleton] at he
    rcases he with he | rfl
    · exact h.linkOwner e he
    · exact owner

/-- Of a record that has no attachments and no links, nothing else depends on its row. -/
theorem Sound.eraseRecord
    (h : s.Sound) (id : String)
    (attachments : ∀ a, ∀ e ∈ (s.attachments.get a).rows, e.2.record ≠ id) :
    Sound
      { s with
        records := s.records.erase id
        links := s.links.filter fun _ l => l.record ≠ id } where
  unknown := h.unknown
  refs r row hrow d := by
    rw [Table.erase, Table.get?_filter, Option.filter_eq_some_iff] at hrow
    exact h.refs r row hrow.1 d
  owner a e he := by
    simp [h.owner a e he, attachments a e he]
  target := h.target
  once := h.once
  linkOwner e he := by
    obtain ⟨he, hne⟩ := List.mem_filter.1 he
    have hne : e.2.record ≠ id := of_decide_eq_true hne
    simp [h.linkOwner e he, hne]

theorem sound_of_edit
    {s s' : Store}
    (h : Edit s s')
    (hs : s.Sound) :
    s'.Sound := by
  cases h with
  | add k key free => exact hs.setKeys_put k _ key
  | rename k id key found free => exact hs.setKeys_put k id key
  | remove k id safe => exact hs.without safe
  | absorb d id key unknown found other =>
      have hsafe : isProtected (.direct d) id = false := by
        simpa [isProtected] using other
      have hput := (hs.without hsafe).setKeys_put (.direct d) unknownId key
      rwa [keys_without, if_pos rfl] at hput
  | write id row resolves => exact hs.write id row resolves
  | attach a x owner target free => exact hs.attach a x owner target free
  | detach a id => exact hs.detach a id
  | link l owner => exact hs.link l owner
  | delete id =>
      refine ((hs.detach .genre id).detach .idol id).eraseRecord id fun a e he hid => ?_
      simp only [mem_attachments_detach] at he
      obtain ⟨⟨_, hgenre⟩, hidol⟩ := he
      cases a with
      | genre => exact hgenre ⟨rfl, hid⟩
      | idol => exact hidol ⟨rfl, hid⟩

theorem Sound.of_edits
    {s s' : Store}
    (hs : s.Sound)
    (h : Edits s s') :
    s'.Sound :=
  h.invariant (fun _ _ => sound_of_edit) hs

end Preservation

/-- A fresh store is sound. -/
theorem sound_seeded : seeded.Sound := by
  refine ⟨?_, ?_, ?_, ?_, ?_, ?_⟩
  · intro d
    cases d <;> decide
  · intro id row hrow
    cases hrow
  · intro a e he
    cases a <;> cases he
  · intro a e he
    cases a <;> cases he
  · intro a
    cases a <;> exact List.Pairwise.nil
  · intro e he
    cases he

/-- In a sound store, every record is put together. -/
theorem Sound.exists_assemble
    {s : Store} {id : String} {row : RecordRow}
    (h : s.Sound)
    (hrow : s.records.get? id = some row) :
    ∃ a, s.assemble id row = .ok a :=
  (s.isOk_assemble_iff id row).2 fun d _ => h.refs id row hrow d

/-- In a sound store, what points at a row can fall back, unless the row is the one to fall back
to. -/
theorem Sound.dropLookup_eq
    {s : Store} {k : Kind} {id : Int}
    (h : s.Sound)
    (exposed : isProtected k id = false) :
    s.dropLookup k id = .ok (s.without k id) := by
  refine (s.dropLookup_eq_ok_iff k id).2 ⟨?_, rfl⟩
  rintro d rfl
  have hne : id ≠ unknownId := of_decide_eq_false exposed
  rw [Table.contains_erase, h.unknown d, Bool.and_true]
  exact Or.inr (decide_eq_true hne.symm)

/-- A record that is not there has no attachments. -/
theorem Sound.attachment_ne
    {s : Store} {id : String}
    (h : s.Sound)
    (absent : s.records.contains id = false) (a : AttachedKind) :
    ∀ e ∈ (s.attachments.get a).rows, e.2.record ≠ id := by
  intro e he hid
  have howner := h.owner a e he
  rw [hid, absent] at howner
  cases howner

/-- A record that is not there has no links. -/
theorem Sound.link_ne
    {s : Store} {id : String}
    (h : s.Sound)
    (absent : s.records.contains id = false) :
    ∀ e ∈ s.links.rows, e.2.record ≠ id := by
  intro e he hid
  have howner := h.linkOwner e he
  rw [hid, absent] at howner
  cases howner

theorem sound_after (steps : List (Date × Operation)) :
    (seeded.after steps).Sound :=
  after_invariant (fun _ _ h => sound_of_edit h) sound_seeded steps

end Store

end CardCatalog
