import Facet.Jwt

/-!
# The in-memory renewable token store

Three maps hold the same entries under their refresh-token hash, their id and
their flow id; one lock makes every operation atomic. `remove_by_flow_id` follows
the single entry that the flow index points to.
-/
namespace Facet.Renewable

structure RenewableTokenEntry where
  id : String
  token : String
  hashedRefreshToken : String
  expiresAt : ℤ
  subject : String
  claims : HashMap String Value
  participantContextId : String
  audience : String
  flowId : String

structure InnerStore where
  entriesByHash : HashMap String RenewableTokenEntry
  entriesById : HashMap String RenewableTokenEntry
  entriesByFlowId : HashMap String RenewableTokenEntry

namespace InnerStore

def empty : InnerStore := ⟨HashMap.empty, HashMap.empty, HashMap.empty⟩

/-- Saving never fails. -/
def save (s : InnerStore) (entry : RenewableTokenEntry) : InnerStore where
  entriesByHash := s.entriesByHash.insert entry.hashedRefreshToken entry
  entriesById := s.entriesById.insert entry.id entry
  entriesByFlowId := s.entriesByFlowId.insert entry.flowId entry

def lookup (index : HashMap String RenewableTokenEntry) (key : String) :
    Except TokenError RenewableTokenEntry :=
  match index.get key with
  | some entry => .ok entry
  | none => .error (.tokenNotFound key)

def findByRenewal (s : InnerStore) (hash : String) : Except TokenError RenewableTokenEntry :=
  lookup s.entriesByHash hash

def findById (s : InnerStore) (id : String) : Except TokenError RenewableTokenEntry :=
  lookup s.entriesById id

def findByFlowId (s : InnerStore) (flowId : String) : Except TokenError RenewableTokenEntry :=
  lookup s.entriesByFlowId flowId

def removeByFlowId (s : InnerStore) (flowId : String) : Except TokenError Unit × InnerStore :=
  match s.entriesByFlowId.get flowId with
  | none => (.error (.tokenNotFound flowId), s)
  | some entry => (.ok (), {
      entriesByFlowId := s.entriesByFlowId.remove flowId
      entriesByHash := s.entriesByHash.remove entry.hashedRefreshToken
      entriesById := s.entriesById.remove entry.id })

def update (s : InnerStore) (oldHash : String) (newEntry : RenewableTokenEntry) :
    Except TokenError Unit × InnerStore :=
  match s.entriesByHash.get oldHash with
  | none => (.error (.tokenNotFound oldHash), s)
  | some oldEntry => (.ok (), {
      entriesByHash :=
        (s.entriesByHash.remove oldHash).insert newEntry.hashedRefreshToken newEntry
      entriesById := (s.entriesById.remove oldEntry.id).insert newEntry.id newEntry
      entriesByFlowId :=
        (s.entriesByFlowId.remove oldEntry.flowId).insert newEntry.flowId newEntry })

theorem lookup_eq_ok {index : HashMap String RenewableTokenEntry} {key : String}
    {e : RenewableTokenEntry} : lookup index key = .ok e ↔ index.get key = some e := by
  unfold lookup
  cases index.get key <;> simp

theorem lookup_of_get_none {index : HashMap String RenewableTokenEntry} {key : String}
    (h : index.get key = none) : lookup index key = .error (.tokenNotFound key) := by
  simp [lookup, h]

theorem removeByFlowId_cases (s : InnerStore) (f : String) :
    (s.entriesByFlowId.get f = none ∧ s.removeByFlowId f = (.error (.tokenNotFound f), s)) ∨
      ∃ e, s.entriesByFlowId.get f = some e ∧ s.removeByFlowId f = (.ok (), {
        entriesByFlowId := s.entriesByFlowId.remove f
        entriesByHash := s.entriesByHash.remove e.hashedRefreshToken
        entriesById := s.entriesById.remove e.id }) := by
  unfold removeByFlowId
  cases h : s.entriesByFlowId.get f with
  | none => exact Or.inl ⟨rfl, rfl⟩
  | some e => exact Or.inr ⟨e, rfl, rfl⟩

theorem update_cases (s : InnerStore) (h : String) (new : RenewableTokenEntry) :
    (s.entriesByHash.get h = none ∧ s.update h new = (.error (.tokenNotFound h), s)) ∨
      ∃ old, s.entriesByHash.get h = some old ∧ s.update h new = (.ok (), {
        entriesByHash := (s.entriesByHash.remove h).insert new.hashedRefreshToken new
        entriesById := (s.entriesById.remove old.id).insert new.id new
        entriesByFlowId := (s.entriesByFlowId.remove old.flowId).insert new.flowId new }) := by
  unfold update
  cases hg : s.entriesByHash.get h with
  | none => exact Or.inl ⟨rfl, rfl⟩
  | some old => exact Or.inr ⟨old, rfl, rfl⟩

/-! ## The live entries

When no id and no hash is used twice the three maps are three views of one set:
the entries found under their own hash. -/

def Live (s : InnerStore) (e : RenewableTokenEntry) : Prop :=
  s.entriesByHash.get e.hashedRefreshToken = some e

structure Synced (s : InnerStore) : Prop where
  byHash : ∀ h e, s.entriesByHash.get h = some e → e.hashedRefreshToken = h ∧
    s.entriesById.get e.id = some e
  byId : ∀ i e, s.entriesById.get i = some e → e.id = i ∧ s.Live e
  byFlow : ∀ f e, s.entriesByFlowId.get f = some e → e.flowId = f ∧ s.Live e

/-- Neither the id nor the hash of the entry occurs in the store. -/
structure Fresh (s : InnerStore) (e : RenewableTokenEntry) : Prop where
  hash : ∀ x, s.Live x → x.hashedRefreshToken ≠ e.hashedRefreshToken
  id : ∀ x, s.Live x → x.id ≠ e.id

theorem synced_empty : Synced empty := ⟨by simp [empty], by simp [empty], by simp [empty]⟩

theorem not_live_empty (e : RenewableTokenEntry) : ¬ empty.Live e := by simp [Live, empty]

theorem fresh_empty (e : RenewableTokenEntry) : Fresh empty e :=
  ⟨fun x hx => absurd hx (not_live_empty x), fun x hx => absurd hx (not_live_empty x)⟩

variable {s : InnerStore} {e x old new : RenewableTokenEntry}

theorem Synced.live_iff_id (h : Synced s) : s.Live x ↔ s.entriesById.get x.id = some x :=
  ⟨fun hx => (h.byHash _ x hx).2, fun hx => (h.byId _ x hx).2⟩

/-! Saving adds one live entry. -/

theorem live_save (hf : Fresh s e) : (s.save e).Live x ↔ x = e ∨ s.Live x := by
  simp only [Live, save, HashMap.get_insert]
  constructor
  · intro hx
    split_ifs at hx with hk
    · exact Or.inl (Option.some.inj hx).symm
    · exact Or.inr hx
  · rintro (rfl | hx)
    · simp
    · rw [if_neg (hf.hash x hx)]
      exact hx

theorem Synced.save (h : Synced s) (hf : Fresh s e) : Synced (s.save e) := by
  refine ⟨?_, ?_, ?_⟩
  · intro k y hy
    simp only [InnerStore.save, HashMap.get_insert] at hy ⊢
    split_ifs at hy with hk
    · obtain rfl := Option.some.inj hy
      exact ⟨hk.symm, by simp⟩
    · obtain ⟨hk', hid⟩ := h.byHash k y hy
      have hl : s.Live y := by rw [Live, hk', hy]
      exact ⟨hk', by rw [if_neg (hf.id y hl)]; exact hid⟩
  · intro i y hy
    rw [live_save hf]
    simp only [InnerStore.save, HashMap.get_insert] at hy
    split_ifs at hy with hi
    · obtain rfl := Option.some.inj hy
      exact ⟨hi.symm, Or.inl rfl⟩
    · exact ⟨(h.byId i y hy).1, Or.inr (h.byId i y hy).2⟩
  · intro f y hy
    rw [live_save hf]
    simp only [InnerStore.save, HashMap.get_insert] at hy
    split_ifs at hy with hff
    · obtain rfl := Option.some.inj hy
      exact ⟨hff.symm, Or.inl rfl⟩
    · exact ⟨(h.byFlow f y hy).1, Or.inr (h.byFlow f y hy).2⟩

/-! Removing a flow takes away the entry its index names, and only that one. -/

theorem live_remove (h : Synced s) {f : String} (hg : s.entriesByFlowId.get f = some e) :
    (s.removeByFlowId f).2.Live x ↔ s.Live x ∧ x ≠ e := by
  have he : s.Live e := (h.byFlow f e hg).2
  simp only [Live, removeByFlowId, hg, HashMap.get_remove]
  constructor
  · intro hx
    split_ifs at hx with hk
    refine ⟨hx, ?_⟩
    rintro rfl
    exact hk rfl
  · rintro ⟨hx, hne⟩
    rw [if_neg]
    · exact hx
    · intro hk
      rw [hk] at hx
      exact hne (Option.some.inj (hx.symm.trans he))

theorem Synced.remove (h : Synced s) (f : String) : Synced (s.removeByFlowId f).2 := by
  rcases removeByFlowId_cases s f with ⟨-, he⟩ | ⟨e, hg, he⟩
  · rw [he]
    exact h
  · have hl : s.Live e := (h.byFlow f e hg).2
    refine ⟨?_, ?_, ?_⟩
    · intro k y hy
      simp only [he, HashMap.get_remove] at hy ⊢
      split_ifs at hy with hk
      obtain ⟨hk', hid⟩ := h.byHash k y hy
      refine ⟨hk', ?_⟩
      rw [if_neg]
      · exact hid
      · intro hid'
        have := (h.byHash _ e hl).2
        rw [← hid', hid] at this
        obtain rfl := Option.some.inj this
        exact hk hk'.symm
    · intro i y hy
      rw [live_remove h hg]
      simp only [he, HashMap.get_remove] at hy
      split_ifs at hy with hi
      refine ⟨(h.byId i y hy).1, (h.byId i y hy).2, ?_⟩
      rintro rfl
      exact hi (h.byId i y hy).1.symm
    · intro g y hy
      rw [live_remove h hg]
      simp only [he, HashMap.get_remove] at hy
      split_ifs at hy with hgf
      refine ⟨(h.byFlow g y hy).1, (h.byFlow g y hy).2, ?_⟩
      rintro rfl
      exact hgf ((h.byFlow g y hy).1.symm.trans (h.byFlow f y hg).1)

/-! An update exchanges the entry under the old hash for the new one. -/

theorem live_update (h : Synced s) {k : String} (hg : s.entriesByHash.get k = some old)
    (hf : Fresh s new) : (s.update k new).2.Live x ↔ x = new ∨ (s.Live x ∧ x ≠ old) := by
  have hk : old.hashedRefreshToken = k := (h.byHash k old hg).1
  simp only [Live, update, hg, HashMap.get_insert, HashMap.get_remove]
  constructor
  · intro hx
    split_ifs at hx with hn ho
    · exact Or.inl (Option.some.inj hx).symm
    · refine Or.inr ⟨hx, ?_⟩
      rintro rfl
      exact ho hk
  · rintro (rfl | ⟨hx, hne⟩)
    · simp
    · rw [if_neg (hf.hash x hx), if_neg]
      · exact hx
      · intro hxk
        rw [hxk] at hx
        exact hne (Option.some.inj (hx.symm.trans hg))

theorem Synced.update (h : Synced s) {k : String} (hf : Fresh s new)
    (hflow : ∀ old, s.entriesByHash.get k = some old → new.flowId = old.flowId) :
    Synced (s.update k new).2 := by
  rcases update_cases s k new with ⟨-, he⟩ | ⟨old, hg, he⟩
  · rw [he]
    exact h
  · have hk : old.hashedRefreshToken = k := (h.byHash k old hg).1
    refine ⟨?_, ?_, ?_⟩
    · intro j y hy
      simp only [he, HashMap.get_insert, HashMap.get_remove] at hy ⊢
      split_ifs at hy with hn ho
      · obtain rfl := Option.some.inj hy
        exact ⟨hn.symm, by simp⟩
      · obtain ⟨hj, hid⟩ := h.byHash j y hy
        have hl : s.Live y := by rw [Live, hj, hy]
        refine ⟨hj, ?_⟩
        rw [if_neg (hf.id y hl), if_neg]
        · exact hid
        · intro hid'
          have := (h.byHash k old hg).2
          rw [← hid', hid] at this
          obtain rfl := Option.some.inj this
          exact ho (hj.symm.trans hk)
    · intro i y hy
      rw [live_update h hg hf]
      simp only [he, HashMap.get_insert, HashMap.get_remove] at hy
      split_ifs at hy with hn ho
      · obtain rfl := Option.some.inj hy
        exact ⟨hn.symm, Or.inl rfl⟩
      · refine ⟨(h.byId i y hy).1, Or.inr ⟨(h.byId i y hy).2, ?_⟩⟩
        rintro rfl
        exact ho (h.byId i y hy).1.symm
    · intro f y hy
      rw [live_update h hg hf]
      simp only [he, HashMap.get_insert, HashMap.get_remove] at hy
      split_ifs at hy with hn ho
      · obtain rfl := Option.some.inj hy
        exact ⟨hn.symm, Or.inl rfl⟩
      · refine ⟨(h.byFlow f y hy).1, Or.inr ⟨(h.byFlow f y hy).2, ?_⟩⟩
        rintro rfl
        exact hn ((h.byFlow f y hy).1.symm.trans (hflow y hg).symm)

/-! ## Flows with one entry -/

/-- Every live entry of the flow is the one its index points to. -/
def Sole (s : InnerStore) (f : String) : Prop :=
  ∀ x, s.Live x → x.flowId = f → s.entriesByFlowId.get f = some x

theorem Sole.save {f : String} (h : Sole s f) (hf : Fresh s e)
    (hnone : e.flowId = f → s.entriesByFlowId.get f = none) : Sole (s.save e) f := by
  intro x hx hxf
  rw [live_save hf] at hx
  simp only [InnerStore.save, HashMap.get_insert]
  rcases hx with rfl | hx
  · simp [hxf]
  · have hget := h x hx hxf
    rw [if_neg]
    · exact hget
    · intro hef
      rw [hnone hef.symm] at hget
      exact absurd hget (by simp)

theorem Sole.remove {f : String} (h : Sole s f) (hs : Synced s) (g : String) :
    Sole (s.removeByFlowId g).2 f := by
  rcases removeByFlowId_cases s g with ⟨-, he⟩ | ⟨e, hg, he⟩
  · rw [he]
    exact h
  · intro x hx hxf
    rw [live_remove hs hg] at hx
    have hget := h x hx.1 hxf
    simp only [he, HashMap.get_remove]
    rw [if_neg]
    · exact hget
    · rintro rfl
      exact hx.2 (Option.some.inj (hget.symm.trans hg))

/-- Removing a flow with one entry leaves no entry of it. -/
theorem Sole.no_live_after_remove {f : String} (h : Sole s f) (hs : Synced s)
    (hok : (s.removeByFlowId f).1 = .ok ()) :
    ∀ x, (s.removeByFlowId f).2.Live x → x.flowId ≠ f := by
  rcases removeByFlowId_cases s f with ⟨-, he⟩ | ⟨e, hg, -⟩
  · rw [he] at hok
    exact absurd hok (by simp)
  · intro x hx hxf
    rw [live_remove hs hg] at hx
    exact hx.2 (Option.some.inj ((h x hx.1 hxf).symm.trans hg))

theorem Sole.update {f : String} (h : Sole s f) (hs : Synced s) {k : String} (hf : Fresh s new)
    (hflow : ∀ old, s.entriesByHash.get k = some old → new.flowId = old.flowId) :
    Sole (s.update k new).2 f := by
  rcases update_cases s k new with ⟨-, he⟩ | ⟨old, hg, he⟩
  · rw [he]
    exact h
  · have hk : old.hashedRefreshToken = k := (hs.byHash k old hg).1
    have hold : s.Live old := by rw [Live, hk, hg]
    intro x hx hxf
    rw [live_update hs hg hf] at hx
    simp only [he, HashMap.get_insert, HashMap.get_remove]
    rcases hx with rfl | ⟨hx, hne⟩
    · simp [hxf]
    · have hget := h x hx hxf
      have hff : f ≠ old.flowId := by
        intro hfo
        have := h old hold hfo.symm
        exact hne (Option.some.inj (hget.symm.trans this))
      rw [if_neg (fun hfn => hff (hfn.trans (hflow old hg))), if_neg hff]
      exact hget

end InnerStore
end Facet.Renewable
