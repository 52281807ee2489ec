import Facet.Jwt

/-!
# The in-memory consumer token store

Records are filed under participant context and identifier. Reading a record
stamps its access time and changes nothing else; instants are milliseconds.
-/
namespace Facet.Client

structure TokenData where
  identifier : String
  participantContext : String
  participantId : String
  counterPartyId : String
  token : String
  refreshToken : String
  expiresAt : ℤ
  refreshEndpoint : String
  endpoint : String
  deriving DecidableEq, Repr

/-- What a refresh answers: the data endpoint is not part of it. -/
structure RefreshedTokenData where
  token : String
  refreshToken : String
  expiresAt : ℤ
  refreshEndpoint : String
  deriving DecidableEq, Repr

structure TokenRecord where
  participantContext : String
  participantId : String
  counterPartyId : String
  identifier : String
  token : String
  refreshToken : String
  refreshEndpoint : String
  endpoint : String
  expiresAt : ℤ
  lastAccessed : ℤ
  deriving DecidableEq, Repr

def TokenRecord.data (record : TokenRecord) : TokenData where
  identifier := record.identifier
  participantContext := record.participantContext
  participantId := record.participantId
  counterPartyId := record.counterPartyId
  token := record.token
  refreshToken := record.refreshToken
  expiresAt := record.expiresAt
  refreshEndpoint := record.refreshEndpoint
  endpoint := record.endpoint

def TokenData.record (data : TokenData) (now : ℤ) : TokenRecord where
  participantContext := data.participantContext
  participantId := data.participantId
  counterPartyId := data.counterPartyId
  identifier := data.identifier
  token := data.token
  refreshToken := data.refreshToken
  refreshEndpoint := data.refreshEndpoint
  endpoint := data.endpoint
  expiresAt := data.expiresAt
  lastAccessed := now

/-- The data after a refresh. -/
def TokenData.refresh (data : TokenData) (refreshed : RefreshedTokenData) : TokenData :=
  { data with
    token := refreshed.token
    refreshToken := refreshed.refreshToken
    expiresAt := refreshed.expiresAt
    refreshEndpoint := refreshed.refreshEndpoint }

abbrev MemoryTokenStore := HashMap (String × String) TokenRecord

namespace MemoryTokenStore

/-- `and_modify` of a map entry: nothing happens when the key is absent. -/
def andModify (tokens : MemoryTokenStore) (key : String × String) (f : TokenRecord → TokenRecord) :
    MemoryTokenStore :=
  match tokens.get key with
  | some record => tokens.insert key (f record)
  | none => tokens

def getToken (tokens : MemoryTokenStore) (now : ℤ) (pc : ParticipantContext) (identifier : String) :
    Except TokenError TokenData × MemoryTokenStore :=
  match tokens.get (pc.id, identifier) with
  | none => (.error (.tokenNotFound identifier), tokens)
  | some record =>
    if record.participantContext ≠ pc.id then (.error (.tokenNotFound identifier), tokens)
    else (.ok record.data, tokens.andModify (pc.id, identifier) fun r =>
      { r with lastAccessed := now })

/-- Saving never fails. -/
def saveToken (tokens : MemoryTokenStore) (now : ℤ) (data : TokenData) : MemoryTokenStore :=
  tokens.insert (data.participantContext, data.identifier) (data.record now)

def updateToken (tokens : MemoryTokenStore) (now : ℤ) (participantContext identifier : String)
    (data : RefreshedTokenData) : Except TokenError Unit × MemoryTokenStore :=
  if tokens.containsKey (participantContext, identifier) = false then
    (.error (.tokenNotFound identifier), tokens)
  else (.ok (), tokens.andModify (participantContext, identifier) fun r =>
    { r with
      token := data.token
      refreshToken := data.refreshToken
      expiresAt := data.expiresAt
      refreshEndpoint := data.refreshEndpoint
      lastAccessed := now })

def removeToken (tokens : MemoryTokenStore) (participantContext identifier : String) :
    Except TokenError Unit × MemoryTokenStore :=
  match tokens.get (participantContext, identifier) with
  | some _ => (.ok (), tokens.remove (participantContext, identifier))
  | none => (.error (.tokenNotFound identifier), tokens)

/-! ## The stored data

What a key holds, access times left out, is all that calls can observe of each other. -/

def dataAt (tokens : MemoryTokenStore) (key : String × String) : Option TokenData :=
  (tokens.get key).map TokenRecord.data

section Data
variable (tokens : MemoryTokenStore) (now : ℤ)

theorem get_andModify (key j : String × String) (f : TokenRecord → TokenRecord) :
    (tokens.andModify key f).get j = if j = key then (tokens.get key).map f else tokens.get j := by
  unfold andModify
  cases hg : tokens.get key with
  | none => by_cases hj : j = key <;> simp [hj, hg]
  | some record => by_cases hj : j = key <;> simp [hj]

/-- A read finds the stored data, or nothing filed under its own context. -/
theorem getToken_cases (pc : ParticipantContext) (identifier : String) :
    ((tokens.dataAt (pc.id, identifier)).filter (fun d => d.participantContext = pc.id) = none ∧
        tokens.getToken now pc identifier = (.error (.tokenNotFound identifier), tokens)) ∨
      ∃ data, tokens.dataAt (pc.id, identifier) = some data ∧ data.participantContext = pc.id ∧
        (tokens.getToken now pc identifier).1 = .ok data := by
  unfold getToken dataAt
  cases hg : tokens.get (pc.id, identifier) with
  | none => exact Or.inl ⟨rfl, rfl⟩
  | some record =>
    by_cases hp : record.participantContext = pc.id
    · exact Or.inr ⟨record.data, rfl, hp, by simp [hp]⟩
    · exact Or.inl ⟨by simp [TokenRecord.data, hp], by simp [hp]⟩

theorem dataAt_getToken (pc : ParticipantContext) (identifier : String) (key : String × String) :
    (tokens.getToken now pc identifier).2.dataAt key = tokens.dataAt key := by
  unfold getToken
  cases hg : tokens.get (pc.id, identifier) with
  | none => rfl
  | some record =>
    dsimp only
    split_ifs with hp
    · rfl
    · simp only [dataAt, get_andModify]
      split_ifs with hk
      · simp [hk, hg, TokenRecord.data]
      · rfl

theorem dataAt_saveToken (data : TokenData) (key : String × String) :
    (tokens.saveToken now data).dataAt key =
      if key = (data.participantContext, data.identifier) then
        some data
      else tokens.dataAt key := by
  simp only [saveToken, dataAt, HashMap.get_insert]
  split_ifs <;> rfl

theorem updateToken_cases (participantContext identifier : String) (data : RefreshedTokenData) :
    (tokens.dataAt (participantContext, identifier) = none ∧
        tokens.updateToken now participantContext identifier data =
          (.error (.tokenNotFound identifier), tokens)) ∨
      ∃ old, tokens.dataAt (participantContext, identifier) = some old ∧
        (tokens.updateToken now participantContext identifier data).1 = .ok () ∧
        ∀ key, (tokens.updateToken now participantContext identifier data).2.dataAt key =
          if key = (participantContext, identifier) then some (old.refresh data)
          else tokens.dataAt key := by
  unfold updateToken dataAt
  cases hg : tokens.get (participantContext, identifier) with
  | none =>
    have hc : tokens.containsKey (participantContext, identifier) = false := by
      simp [HashMap.containsKey, hg]
    exact Or.inl ⟨rfl, by rw [if_pos hc]⟩
  | some record =>
    have hc : tokens.containsKey (participantContext, identifier) ≠ false := by
      simp [HashMap.containsKey, hg]
    refine Or.inr ⟨record.data, rfl, by rw [if_neg hc], ?_⟩
    intro key
    rw [if_neg hc]
    simp only [get_andModify]
    split_ifs with hk
    · simp [hg, TokenRecord.data, TokenData.refresh]
    · rfl

theorem removeToken_cases (participantContext identifier : String) :
    (tokens.dataAt (participantContext, identifier) = none ∧
        tokens.removeToken participantContext identifier =
          (.error (.tokenNotFound identifier), tokens)) ∨
      ∃ old, tokens.dataAt (participantContext, identifier) = some old ∧
        (tokens.removeToken participantContext identifier).1 = .ok () ∧
        ∀ key, (tokens.removeToken participantContext identifier).2.dataAt key =
          if key = (participantContext, identifier) then none else tokens.dataAt key := by
  unfold removeToken dataAt
  cases hg : tokens.get (participantContext, identifier) with
  | none => exact Or.inl ⟨rfl, rfl⟩
  | some record =>
    refine Or.inr ⟨record.data, rfl, rfl, ?_⟩
    intro key
    simp only [HashMap.get_remove]
    split_ifs <;> rfl

end Data
end MemoryTokenStore
end Facet.Client
