import Facet.RenewableStore
import Facet.Service

/-!
# The three indices of the renewable store

An entry overwrites whatever stands under one of its keys. The maps stay three views of one
set of entries as long as nothing that is overwritten in one map stays behind in another.
-/
namespace Facet.Renewable

inductive EntryIndex
  | hash
  | id
  | flow
  deriving DecidableEq, Repr

def EntryIndex.key : EntryIndex → RenewableTokenEntry → String
  | .hash, e => e.hashedRefreshToken
  | .id, e => e.id
  | .flow, e => e.flowId

namespace InnerStore

def index (s : InnerStore) : EntryIndex → HashMap String RenewableTokenEntry
  | .hash => s.entriesByHash
  | .id => s.entriesById
  | .flow => s.entriesByFlowId

def find (s : InnerStore) : EntryIndex → String → Except TokenError RenewableTokenEntry
  | .hash => s.findByRenewal
  | .id => s.findById
  | .flow => s.findByFlowId

/-- The entry stands in all three maps, under its own keys. -/
def Indexed (s : InnerStore) (e : RenewableTokenEntry) : Prop :=
  ∀ k : EntryIndex, (s.index k).get (k.key e) = some e

/-- The maps hold the same entries, each under its own keys. -/
def Consistent (s : InnerStore) : Prop := ∀ (k : EntryIndex) key e, (s.index k).get key = some e →
    k.key e = key ∧ s.Indexed e

/-- What one lookup returns, the other two find as well. -/
def LookupsAgree (s : InnerStore) : Prop :=
  ∀ (k : EntryIndex) key e, s.find k key = .ok e → ∀ j : EntryIndex, s.find j (j.key e) = .ok e

def SharesKey (x e : RenewableTokenEntry) : Prop := ∃ k : EntryIndex, k.key x = k.key e

def SameKeys (x e : RenewableTokenEntry) : Prop := ∀ k : EntryIndex, k.key x = k.key e

/-- Taking an entry out of the three maps: the first half of `update`, and all of
`remove_by_flow_id`. -/
def erase (s : InnerStore) (e : RenewableTokenEntry) : InnerStore where
  entriesByHash := s.entriesByHash.remove e.hashedRefreshToken
  entriesById := s.entriesById.remove e.id
  entriesByFlowId := s.entriesByFlowId.remove e.flowId

section Steps
variable {s : InnerStore} {e x old : RenewableTokenEntry}

theorem find_eq_lookup (k : EntryIndex) (key : String) : s.find k key = lookup (s.index k) key := by
  cases k <;> rfl

theorem find_eq_ok {k : EntryIndex} {key : String} :
    s.find k key = .ok e ↔ (s.index k).get key = some e := by
  rw [find_eq_lookup, lookup_eq_ok]

theorem index_save (k : EntryIndex) : (s.save e).index k = (s.index k).insert (k.key e) e := by
  cases k <;> rfl

theorem index_erase (k : EntryIndex) : (s.erase e).index k = (s.index k).remove (k.key e) := by
  cases k <;> rfl

theorem Consistent.lookupsAgree (h : Consistent s) : LookupsAgree s := by
  intro k key e he j
  rw [find_eq_ok] at he ⊢
  exact (h k key e he).2 j

theorem consistent_empty : Consistent empty := by
  intro k key e he
  cases k <;> simp [empty, index] at he

/-- Two entries of the store with one key in common are the same entry. -/
theorem Indexed.eq_of_key (hx : s.Indexed x) (he : s.Indexed e) {k : EntryIndex}
    (hk : k.key x = k.key e) : x = e := by
  have hget := hx k
  rw [hk, he k] at hget
  exact (Option.some.inj hget).symm

theorem indexed_save_self : (s.save e).Indexed e := by
  intro k
  rw [index_save, HashMap.get_insert, if_pos rfl]

theorem Indexed.save (hx : s.Indexed x) (h : ¬ SharesKey x e) : (s.save e).Indexed x := by
  intro k
  rw [index_save, HashMap.get_insert, if_neg fun hk => h ⟨k, hk⟩]
  exact hx k

/-- Saving keeps the maps in step exactly when it overwrites an entry in all of them or in none. -/
theorem Consistent.save_iff (h : Consistent s) :
    Consistent (s.save e) ↔ ∀ x, s.Indexed x → SharesKey x e → SameKeys x e := by
  constructor
  · intro hsave x hx hshares j
    by_contra hne
    obtain ⟨k, hk⟩ := hshares
    have hstays : ((s.save e).index j).get (j.key x) = some x := by
      rw [index_save, HashMap.get_insert, if_neg hne]
      exact hx j
    have hxe : x = e := (hsave j (j.key x) x hstays).2.eq_of_key indexed_save_self hk
    exact hne (by rw [hxe])
  · intro hall k key y hy
    rw [index_save] at hy
    rcases HashMap.get_insert_eq_some hy with ⟨rfl, rfl⟩ | ⟨hkey, hy⟩
    · exact ⟨rfl, indexed_save_self⟩
    · obtain ⟨hyk, hyi⟩ := h k key y hy
      refine ⟨hyk, hyi.save ?_⟩
      intro hshares
      exact hkey (hyk.symm.trans (hall y hyi hshares k))

theorem Consistent.indexed_erase (hold : s.Indexed old) :
    (s.erase old).Indexed x ↔ s.Indexed x ∧ x ≠ old := by
  constructor
  · intro hx
    refine ⟨?_, ?_⟩
    · intro k
      have hxk := hx k
      rw [index_erase] at hxk
      exact (HashMap.get_remove_eq_some hxk).2
    · intro hxo
      have hxk := hx .hash
      rw [index_erase] at hxk
      exact (HashMap.get_remove_eq_some hxk).1 (by rw [hxo])
  · intro hx k
    obtain ⟨hx, hne⟩ := hx
    rw [index_erase, HashMap.get_remove, if_neg fun hk => hne (hx.eq_of_key hold hk)]
    exact hx k

theorem Consistent.erase (h : Consistent s) (hold : s.Indexed old) : Consistent (s.erase old) := by
  intro k key y hy
  rw [index_erase] at hy
  obtain ⟨hkey, hy⟩ := HashMap.get_remove_eq_some hy
  obtain ⟨hyk, hyi⟩ := h k key y hy
  refine ⟨hyk, (indexed_erase hold).mpr ⟨hyi, ?_⟩⟩
  intro hyo
  exact hkey (by rw [← hyk, hyo])

theorem update_eq {k : String} (hg : s.entriesByHash.get k = some old)
    (hk : old.hashedRefreshToken = k) : s.update k e = (.ok (), (s.erase old).save e) := by
  subst hk
  simp only [update, hg]
  rfl

theorem removeByFlowId_eq {f : String} (hg : s.entriesByFlowId.get f = some old)
    (hf : old.flowId = f) : s.removeByFlowId f = (.ok (), s.erase old) := by
  subst hf
  simp only [removeByFlowId, hg]
  rfl

end Steps
end InnerStore

/-! ## Sequences of calls -/

/-- A mutating call of the store. -/
inductive RenewableCall
  | save (entry : RenewableTokenEntry)
  | update (oldHash : String) (newEntry : RenewableTokenEntry)
  | removeByFlowId (flowId : String)

def memoryRenewableStore : Service InnerStore RenewableCall (Except TokenError Unit) where
  init := InnerStore.empty
  step s := fun
    | .save entry => (.ok (), s.save entry)
    | .update oldHash newEntry => s.update oldHash newEntry
    | .removeByFlowId flowId => s.removeByFlowId flowId

/-- Of the entries that stay in the store, those with a key of the new entry have all three. -/
def OverwritesWhole (s : InnerStore) : RenewableCall → Prop
  | .save entry => ∀ x, s.Indexed x → InnerStore.SharesKey x entry → InnerStore.SameKeys x entry
  | .update oldHash newEntry => ∀ old, s.entriesByHash.get oldHash = some old →
    ∀ x, s.Indexed x → x ≠ old → InnerStore.SharesKey x newEntry → InnerStore.SameKeys x newEntry
  | .removeByFlowId _ => True

open InnerStore

theorem consistent_step_iff (s : InnerStore) (call : RenewableCall) (h : Consistent s) :
    Consistent (memoryRenewableStore.step s call).2 ↔ OverwritesWhole s call := by
  cases call with
  | save entry => exact h.save_iff
  | update oldHash newEntry =>
    cases hg : s.entriesByHash.get oldHash with
    | none =>
      refine iff_of_true ?_ (by simp [OverwritesWhole, hg])
      have hsame : (memoryRenewableStore.step s (.update oldHash newEntry)).2 = s := by
        simp [memoryRenewableStore, update, hg]
      rw [hsame]
      exact h
    | some old =>
      obtain ⟨hk, hold⟩ := h .hash oldHash old hg
      have hafter : (memoryRenewableStore.step s (.update oldHash newEntry)).2 =
          (s.erase old).save newEntry :=
        congrArg Prod.snd (update_eq hg hk)
      rw [hafter, (h.erase hold).save_iff]
      simp only [OverwritesWhole, hg, Option.some.injEq, forall_eq',
        Consistent.indexed_erase hold, and_imp]
  | removeByFlowId flowId =>
    refine iff_of_true ?_ trivial
    cases hg : s.entriesByFlowId.get flowId with
    | none =>
      have hsame : (memoryRenewableStore.step s (.removeByFlowId flowId)).2 = s := by
        simp [memoryRenewableStore, removeByFlowId, hg]
      rw [hsame]
      exact h
    | some old =>
      obtain ⟨hf, hold⟩ := h .flow flowId old hg
      have hafter : (memoryRenewableStore.step s (.removeByFlowId flowId)).2 = s.erase old :=
        congrArg Prod.snd (removeByFlowId_eq hg hf)
      rw [hafter]
      exact h.erase hold

/-- A call that fails changes nothing. -/
theorem failed_step_keeps (s : InnerStore) (call : RenewableCall) {error : TokenError}
    (h : (memoryRenewableStore.step s call).1 = .error error) :
    (memoryRenewableStore.step s call).2 = s := by
  cases call with
  | save entry => simp [memoryRenewableStore] at h
  | update oldHash newEntry =>
    rcases update_cases s oldHash newEntry with ⟨-, he⟩ | ⟨old, -, he⟩
    · exact congrArg Prod.snd he
    · simp [memoryRenewableStore, he] at h
  | removeByFlowId flowId =>
    rcases removeByFlowId_cases s flowId with ⟨-, he⟩ | ⟨old, -, he⟩
    · exact congrArg Prod.snd he
    · simp [memoryRenewableStore, he] at h

/-- The maps agree in every state of the sequence, and a failing call leaves them as they are. -/
def IndicesConsistent (calls : List RenewableCall) : Prop :=
  (∀ done, done <+: calls →
      Consistent (memoryRenewableStore.after InnerStore.empty done) ∧
        LookupsAgree (memoryRenewableStore.after InnerStore.empty done)) ∧
    ∀ done call error, done ++ [call] <+: calls →
      (memoryRenewableStore.step (memoryRenewableStore.after InnerStore.empty done) call).1 =
        .error error →
      memoryRenewableStore.after InnerStore.empty (done ++ [call]) =
        memoryRenewableStore.after InnerStore.empty done

theorem indices_consistent_iff (calls : List RenewableCall) :
    IndicesConsistent calls ↔
      memoryRenewableStore.Along OverwritesWhole InnerStore.empty calls := by
  rw [← Service.always_iff_along consistent_step_iff consistent_empty]
  constructor
  · intro h done hdone
    exact (h.1 done hdone).1
  · intro h
    refine ⟨fun done hdone => ⟨h done hdone, (h done hdone).lookupsAgree⟩, ?_⟩
    intro done call error _ herror
    rw [Service.after_append]
    exact failed_step_keeps _ call herror

/-- The second save takes over the hash of the first; id and flow still lead to the first entry. -/
def sameHashTwice : List RenewableCall :=
  [.save ⟨"id1", "token1", "hash_same", 1000, "s", HashMap.empty, "pc", "a", "flow1"⟩,
    .save ⟨"id2", "token2", "hash_same", 2000, "s", HashMap.empty, "pc", "a", "flow2"⟩]

theorem same_hash_leaves_stale_entry : ¬ ∀ calls, IndicesConsistent calls := by
  intro h
  have hagree := ((h sameHashTwice).1 sameHashTwice (List.prefix_refl _)).2
  have hstale :=
    hagree .id "id1" ⟨"id1", "token1", "hash_same", 1000, "s", HashMap.empty, "pc",
      "a", "flow1"⟩ rfl .hash
  have hfound := congrArg (fun r => r.toOption.map RenewableTokenEntry.token) hstale
  exact absurd hfound (by decide)

end Facet.Renewable
