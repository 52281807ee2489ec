import Facet.Machine
import Facet.KeyResolver

/-!
# Signing while keys rotate

Any number of `generate_token` calls interleave with rotations of transit keys. A call is
three steps: it asks for its key, reads the version of the key for the header, and has the
input signed. The rotations are counted; a call notes the count of its key at each of its
two requests.
-/
namespace Facet.Vault.Rotation

/-- Where a call stands. -/
inductive Call
  | reading (pc : ParticipantContext) (claims : TokenClaims) (ref : TransitKeyRef)
  | signing (pc : ParticipantContext) (ref : TransitKeyRef) (kid input : String) (readAt : ℕ)

structure Returned (σ : Type) where
  ref : TransitKeyRef
  kid : String
  input : String
  token : String
  readAt : ℕ
  signedAt : ℕ
  signedIn : σ

structure State (σ : Type) where
  server : σ
  rotations : List String
  calls : HashMap ℕ Call
  returned : List (Returned σ)

variable {σ : Type}

def State.rotated (s : State σ) (keyName : String) : ℕ := s.rotations.count keyName

def State.setCall (s : State σ) (call : ℕ) (phase : Call) (server : σ) : State σ :=
  { s with server := server, calls := s.calls.insert call phase }

def State.endCall (s : State σ) (call : ℕ) (server : σ) : State σ :=
  { s with server := server, calls := s.calls.remove call }

def State.record (s : State σ) (r : Returned σ) : State σ := { s with returned := r :: s.returned }

/-- `now` is the reading for `iat`; a rotation brings the server into the given state. -/
inductive Label (σ : Type)
  | generateToken (call : ℕ) (pc : ParticipantContext) (claims : TokenClaims)
  | read (call : ℕ) (now : ℤ)
  | sign (call : ℕ)
  | rotate (keyName : String) (server : σ)

def next (g : VaultJwtGenerator σ) (s : State σ) : Label σ → Option (State σ)
  | .generateToken call pc claims =>
    match s.calls.get call with
    | some _ => none
    | none =>
      match g.keyResolver pc with
      | .error _ => some s
      | .ok ref => some (s.setCall call (.reading pc claims ref) s.server)
  | .read call now =>
    match s.calls.get call with
    | some (.reading pc claims ref) =>
      let (kid, server) := g.headerKid pc ref s.server
      match kid with
      | .error _ => some (s.endCall call server)
      | .ok kid =>
        match g.signingInput now claims kid with
        | .error _ => some (s.endCall call server)
        | .ok input =>
          some (s.setCall call (.signing pc ref kid input (s.rotated ref.keyName)) server)
    | _ => none
  | .sign call =>
    match s.calls.get call with
    | some (.signing pc ref kid input readAt) =>
      let (token, server) := g.signInput pc ref.keyName input s.server
      match token with
      | .error _ => some (s.endCall call server)
      | .ok token => some ((s.endCall call server).record
          ⟨ref, kid, input, token, readAt, s.rotated ref.keyName, s.server⟩)
    | _ => none
  | .rotate keyName server => some { s with server := server, rotations := keyName :: s.rotations }

def machine (g : VaultJwtGenerator σ) : Machine (State σ) (Label σ) where
  init s := s.rotations = [] ∧ s.calls = HashMap.empty ∧ s.returned = []
  next := next g

/-- The steps of one call, taken one after the other, return what `generate_token` returns. -/
theorem run_alone (g : VaultJwtGenerator σ) {s : State σ} {call : ℕ}
    (hidle : s.calls.get call = none) {now : ℤ} {pc : ParticipantContext} {claims : TokenClaims}
    {token : String} {server : σ}
    (h : g.generateToken now pc claims s.server = (.ok token, server)) :
    ∃ t r, (machine g).Path Machine.Any s [.generateToken call pc claims,
      .read call now, .sign call] t ∧
      t.server = server ∧ t.returned = r :: s.returned ∧ r.token = token := by
  unfold VaultJwtGenerator.generateToken at h
  cases href : g.keyResolver pc with
  | error e => simp [href] at h
  | ok ref =>
    simp only [href] at h
    cases hkid : (g.headerKid pc ref s.server).1 with
    | error e => simp [hkid] at h
    | ok kid =>
      cases hinput : g.signingInput now claims kid with
      | error e => simp [hkid, hinput] at h
      | ok input =>
        simp only [hkid, hinput] at h
        let s₁ := s.setCall call (.reading pc claims ref) s.server
        let s₂ :=
          s₁.setCall call (.signing pc ref kid input (s.rotated ref.keyName))
            (g.headerKid pc ref s.server).2
        let r : Returned σ :=
          ⟨ref, kid, input, token, s.rotated ref.keyName, s.rotated ref.keyName, s₂.server⟩
        refine ⟨(s₂.endCall call server).record r, r, ?_, rfl, rfl, rfl⟩
        have hgenerate : next g s (.generateToken call pc claims) = some s₁ := by
          simp [next, hidle, href, s₁]
        have hread : next g s₁ (.read call now) = some s₂ := by
          simp [next, s₁, s₂, State.setCall, State.rotated, hkid, hinput]
        have hsign : next g s₂ (.sign call) = some ((s₂.endCall call server).record r) := by
          simp [next, s₁, s₂, r, State.setCall, State.endCall, State.rotated, h]
        exact .cons hgenerate trivial (.cons hread trivial (.one hsign trivial))

section Engines
variable {c : HashicorpVaultClient σ} (E : ∀ keyName, TransitEngine c keyName)
  (g : VaultJwtGenerator σ)

/-- A rotation adds the version after the latest. -/
def Rotates (k k' : TransitKey) : Prop := ∀ v, v ∈ k'.versions ↔ v ∈ k.versions ∨ v = k.latest + 1

theorem Rotates.latest {k k' : TransitKey} (h : Rotates k k') : k'.latest = k.latest + 1 := by
  have hmem := k'.le_latest ((h _).mpr (Or.inr rfl))
  rcases (h _).mp k'.latest_mem with hold | hnew
  · have := k.le_latest hold
    omega
  · exact hnew

/-- What a rotation does to the server: only its own key changes. -/
def KeyRotated (s : State σ) : Label σ → State σ → Prop
  | .rotate keyName server, _ => Rotates ((E keyName).key s.server) ((E keyName).key server) ∧
      ∀ other ≠ keyName, (E other).key server = (E other).key s.server
  | _, _ => True

/-- No key is rotated while a call stands between its two requests on it. -/
def Undisturbed (s : State σ) : Label σ → Prop
  | .rotate keyName _ => ∀ call pc ref kid input readAt,
      s.calls.get call = some (.signing pc ref kid input readAt) → ref.keyName ≠ keyName
  | _ => True

/-- The version that produced the signature. -/
def Returned.version (t : Returned σ) : ℕ := ((E t.ref.keyName).key t.signedIn).latest

/-- The header of the input carries the `kid`. -/
def Headed (kid input : String) : Prop :=
  ∃ headerBytes payload, g.toVec (VaultJwtGenerator.header kid) = .ok headerBytes ∧
    input = urlEncode headerBytes ++ "." ++ payload

/-- The `kid` is right, and the token verifies under the key that any cache serving the version has
for it. -/
structure Returned.Correct (verify : List UInt8 → List UInt8 → List UInt8 → Bool)
    (t : Returned σ) : Prop where
  named : t.kid = versionKid (c.kidName t.ref.keyName) (t.version E)
  headed : Headed g t.kid t.input
  verifies : ∀ cache k, Serves cache (c.kidName t.ref.keyName) (E t.ref.keyName).pub k →
    t.version E ∈ k.versions →
    ∃ key signature, cache.lookup t.kid = some (key, .der) ∧
      t.token = t.input ++ "." ++ urlEncode signature ∧
      verify key (VaultJwtGenerator.asBytes t.input) signature = true

/-- The version in a derived `kid` is behind the latest by the rotations since it was read. -/
def Behind (ref : TransitKeyRef) (kid : String) (readAt count latest : ℕ) : Prop :=
  ref.kid = none → ∃ v, kid = versionKid (c.kidName ref.keyName) v ∧ v + count = latest + readAt

def State.Noted (s : State σ) : Call → Prop
  | .reading _ _ _ => True
  | .signing _ ref kid input readAt => Headed g kid input ∧
      Behind (c := c) ref kid readAt (s.rotated ref.keyName) ((E ref.keyName).key s.server).latest

structure Returned.Noted (t : Returned σ) : Prop where
  headed : Headed g t.kid t.input
  behind : Behind (c := c) t.ref t.kid t.readAt t.signedAt (t.version E)
  token : t.token = t.input ++ "." ++
    urlEncode ((E t.ref.keyName).sign (t.version E) (VaultJwtGenerator.asBytes t.input))

structure Traced (s : State σ) : Prop where
  calls : ∀ call phase, s.calls.get call = some phase → s.Noted E g phase
  returned : ∀ t ∈ s.returned, t.Noted E g

variable {E g}

theorem headed_of_signingInput {now : ℤ} {claims : TokenClaims} {kid input : String}
    (h : g.signingInput now claims kid = .ok input) : Headed g kid input := by
  unfold VaultJwtGenerator.signingInput at h
  obtain ⟨payloadBytes, -, h⟩ := bind_eq_ok.mp h
  obtain ⟨headerBytes, hheader, h⟩ := bind_eq_ok.mp h
  exact ⟨headerBytes, urlEncode payloadBytes, mapError_eq_ok.mp hheader, (Except.ok.inj h).symm⟩

variable {bs58Encode : List UInt8 → String} (hclient : g.signingClient = c.signingClient bs58Encode)

include E hclient in
theorem headerKid_state (pc : ParticipantContext) (ref : TransitKeyRef) (s : σ) :
    (g.headerKid pc ref s).2 = s := by
  unfold VaultJwtGenerator.headerKid
  cases ref.kid with
  | some kid => rfl
  | none =>
    rw [hclient]
    exact (E ref.keyName).getKeyMetadata_state bs58Encode pc .multibase s

include E hclient in
theorem signInput_state (pc : ParticipantContext) (keyName input : String) (s : σ) :
    (g.signInput pc keyName input s).2 = s := by
  unfold VaultJwtGenerator.signInput
  rw [hclient]
  exact (E keyName).signContent_state bs58Encode pc _ s

include hclient in
theorem signInput_ok {pc : ParticipantContext} {keyName input token : String} {s : σ}
    (h : (g.signInput pc keyName input s).1 = .ok token) :
    token = input ++ "." ++
      urlEncode
        ((E keyName).sign ((E keyName).key s).latest (VaultJwtGenerator.asBytes input)) := by
  unfold VaultJwtGenerator.signInput at h
  cases hsigned :
    (g.signingClient.signContent pc keyName (VaultJwtGenerator.asBytes input) s).1 with
  | error e => simp [hsigned] at h
  | ok signature =>
    simp only [hsigned, Except.ok.injEq] at h
    rw [← h, ← (E keyName).signContent_ok (hclient ▸ hsigned)]

/-- A phase that a call can enter at the current state of the server. -/
def Entered (g : VaultJwtGenerator σ) (s : State σ) : Call → Prop
  | .reading _ _ _ => True
  | .signing pc ref kid input readAt =>
    readAt = s.rotated ref.keyName ∧ (g.headerKid pc ref s.server).1 = .ok kid ∧
      ∃ now claims, g.signingInput now claims kid = .ok input

/-- What a step can do: move calls along, return a token, or rotate a key. -/
inductive Effect (g : VaultJwtGenerator σ) (s : State σ) : Label σ → State σ → Prop
  | moved {l : Label σ} {t : State σ} (server : t.server = s.server)
      (rotations : t.rotations = s.rotations) (returned : t.returned = s.returned)
      (calls : ∀ call phase, t.calls.get call = some phase → s.calls.get call = some phase ∨
        Entered g s phase) :
      Effect g s l t
  | signed {call : ℕ} {pc : ParticipantContext} {ref : TransitKeyRef} {kid input : String}
      {readAt : ℕ} {token : String}
      (found : s.calls.get call = some (.signing pc ref kid input readAt))
      (signature : (g.signInput pc ref.keyName input s.server).1 = .ok token) :
      Effect g s (.sign call) ((s.endCall call s.server).record
        ⟨ref, kid, input, token, readAt, s.rotated ref.keyName, s.server⟩)
  | rotated {keyName : String} {server : σ} :
      Effect g s (.rotate keyName server) { s with
        server := server, rotations := keyName :: s.rotations }

theorem Effect.of_setCall {s : State σ} {l : Label σ} {call : ℕ} {phase : Call}
    (hphase : Entered g s phase) : Effect g s l (s.setCall call phase s.server) := by
  refine .moved rfl rfl rfl fun other held hheld => ?_
  rcases HashMap.get_insert_eq_some hheld with ⟨-, rfl⟩ | ⟨-, hold⟩
  · exact Or.inr hphase
  · exact Or.inl hold

theorem Effect.of_endCall {s : State σ} {l : Label σ} {call : ℕ} :
    Effect g s l (s.endCall call s.server) :=
  .moved rfl rfl rfl fun _ _ hheld => Or.inl (HashMap.get_remove_eq_some hheld).2

include E hclient in
theorem effect_of_next {s t : State σ} {l : Label σ} (h : next g s l = some t) :
    Effect g s l t := by
  cases l with
  | generateToken call pc claims =>
    simp only [next] at h
    split at h
    · cases h
    · split at h
      · cases h
        exact .moved rfl rfl rfl fun _ _ hheld => Or.inl hheld
      · cases h
        exact .of_setCall trivial
  | read call now =>
    simp only [next] at h
    split at h
    · rename_i pc claims ref _
      have hstate : (g.headerKid pc ref s.server).2 =
          s.server := headerKid_state (E := E) hclient pc ref s.server
      rw [hstate] at h
      split at h
      · cases h
        exact .of_endCall
      · rename_i kid hkid
        split at h
        · cases h
          exact .of_endCall
        · rename_i input hinput
          cases h
          exact .of_setCall ⟨rfl, hkid, now, claims, hinput⟩
    · cases h
  | sign call =>
    simp only [next] at h
    split at h
    · rename_i pc ref kid input readAt hcall
      have hstate : (g.signInput pc ref.keyName input s.server).2 = s.server :=
        signInput_state (E := E) hclient pc ref.keyName input s.server
      rw [hstate] at h
      split at h
      · cases h
        exact .of_endCall
      · rename_i token htoken
        cases h
        exact .signed hcall htoken
    · cases h
  | rotate keyName server =>
    cases h
    exact .rotated

theorem behind_rotated {s : State σ} {keyName : String} {server : σ} {ref : TransitKeyRef}
    {kid : String} {readAt : ℕ}
    (hrotates : Rotates ((E keyName).key s.server) ((E keyName).key server))
    (hother : ∀ other ≠ keyName, (E other).key server = (E other).key s.server)
    (h : Behind (c := c) ref kid readAt
      (s.rotated ref.keyName) ((E ref.keyName).key s.server).latest) :
    Behind (c := c) ref kid readAt ((keyName :: s.rotations).count ref.keyName)
      ((E ref.keyName).key server).latest := by
  intro hnone
  obtain ⟨v, hkid, hv⟩ := h hnone
  unfold State.rotated at hv
  refine ⟨v, hkid, ?_⟩
  by_cases hname : ref.keyName = keyName
  · rw [hname] at hv ⊢
    rw [List.count_cons_self, hrotates.latest]
    omega
  · rw [List.count_cons_of_ne (Ne.symm hname), hother _ hname]
    exact hv

include hclient in
theorem traced_step {s t : State σ} {l : Label σ} (htraced : Traced E g s) (h : next g s l = some t)
    (hok : KeyRotated E s l t) : Traced E g t := by
  cases effect_of_next (E := E) hclient h with
  | moved hserver hrotations hreturned hcalls =>
    refine ⟨fun call phase hphase => ?_, fun r hr => htraced.returned r (hreturned ▸ hr)⟩
    have hnoted : s.Noted E g phase := by
      rcases hcalls call phase hphase with hold | hentered
      · exact htraced.calls call phase hold
      · cases phase with
        | reading pc claims ref => trivial
        | signing pc ref kid input readAt =>
          obtain ⟨hread, hkid, now, claims, hinput⟩ := hentered
          refine ⟨headed_of_signingInput hinput, fun hnone => ?_⟩
          obtain ⟨keyName, kid'⟩ := ref
          obtain rfl : kid' = none := hnone
          exact ⟨_, headerKid_ok (E keyName) hclient hkid, by rw [hread]⟩
    cases phase with
    | reading pc claims ref => trivial
    | signing pc ref kid input readAt =>
      unfold State.Noted State.rotated
      rw [hserver, hrotations]
      exact hnoted
  | @signed call pc ref kid input readAt token hcall htoken =>
    have hnoted := htraced.calls call _ hcall
    refine ⟨fun other phase hphase => ?_, fun r hr => ?_⟩
    · exact htraced.calls other phase (HashMap.get_remove_eq_some hphase).2
    · rcases List.mem_cons.mp hr with rfl | hr
      · exact ⟨hnoted.1, hnoted.2, signInput_ok (E := E) hclient htoken⟩
      · exact htraced.returned r hr
  | @rotated keyName server =>
    obtain ⟨hrotates, hother⟩ := hok
    refine ⟨fun call phase hphase => ?_, htraced.returned⟩
    have hnoted := htraced.calls call phase hphase
    cases phase with
    | reading pc claims ref => trivial
    | signing pc ref kid input readAt => exact ⟨hnoted.1, behind_rotated hrotates hother hnoted.2⟩

theorem traced_init {s : State σ} (h : (machine g).init s) : Traced E g s := by
  obtain ⟨-, hcalls, hreturned⟩ := h
  refine ⟨fun call phase hphase => ?_, fun r hr => ?_⟩
  · simp [hcalls] at hphase
  · simp [hreturned] at hr

/-- No rotation has come between the requests of a call. -/
structure Together (s : State σ) : Prop where
  calls :
    ∀ call pc ref kid input readAt, s.calls.get call = some (.signing pc ref kid input readAt) →
      readAt = s.rotated ref.keyName
  returned : ∀ t ∈ s.returned, t.readAt = t.signedAt

include E hclient in
theorem together_step {s t : State σ} {l : Label σ} (htogether : Together s)
    (h : next g s l = some t) (hok : Undisturbed s l) : Together t := by
  cases effect_of_next (E := E) hclient h with
  | moved hserver hrotations hreturned hcalls =>
    refine ⟨fun call pc ref kid input readAt hcall =>
      ?_, fun r hr => htogether.returned r (hreturned ▸ hr)⟩
    unfold State.rotated
    rw [hrotations]
    rcases hcalls call _ hcall with hold | hentered
    · exact htogether.calls call pc ref kid input readAt hold
    · exact hentered.1
  | @signed call pc ref kid input readAt token hcall htoken =>
    refine ⟨fun other pc' ref' kid' input' readAt' hother => ?_, fun r hr => ?_⟩
    · exact htogether.calls other pc' ref' kid' input' readAt' (HashMap.get_remove_eq_some hother).2
    · rcases List.mem_cons.mp hr with rfl | hr
      · exact htogether.calls call pc ref kid input readAt hcall
      · exact htogether.returned r hr
  | @rotated keyName server =>
    refine ⟨fun call pc ref kid input readAt hcall => ?_, htogether.returned⟩
    have hne := hok call pc ref kid input readAt hcall
    unfold State.rotated
    rw [List.count_cons_of_ne (Ne.symm hne)]
    exact htogether.calls call pc ref kid input readAt hcall

theorem together_init {s : State σ} (h : (machine g).init s) : Together s := by
  obtain ⟨-, hcalls, hreturned⟩ := h
  refine ⟨fun call pc ref kid input readAt hcall => ?_, fun r hr => ?_⟩
  · simp [hcalls] at hcall
  · simp [hreturned] at hr

/-- A returned token with a derived `kid` is right exactly when its key was not rotated between its
requests. -/
theorem Returned.Noted.correct_iff {t : Returned σ} (h : t.Noted E g) (hderived : t.ref.kid = none)
    {verify : List UInt8 → List UInt8 → List UInt8 → Bool}
    (hverify : ∀ keyName v content, verify ((E keyName).pub v) content
      ((E keyName).sign v content) = true) :
    t.Correct E g verify ↔ t.readAt = t.signedAt := by
  obtain ⟨v, hkid, hv⟩ := h.behind hderived
  constructor
  · intro hcorrect
    have : v = t.version E := versionKid_injective (hkid.symm.trans hcorrect.named)
    omega
  · intro htogether
    obtain rfl : v = t.version E := by omega
    refine ⟨hkid, h.headed, fun cache k hserves hmem => ?_⟩
    refine ⟨_, _, ?_, h.token, hverify t.ref.keyName (t.version E) _⟩
    rw [hkid]
    exact hserves.present _ hmem

/-- The `kid` names the signing version exactly when no rotation of the key falls between the two
requests of the call; in runs without such a rotation every token is right. -/
theorem kid_names_signing_version (hclient : g.signingClient = c.signingClient bs58Encode)
    (verify : List UInt8 → List UInt8 → List UInt8 → Bool)
    (hverify : ∀ keyName v content, verify ((E keyName).pub v) content
      ((E keyName).sign v content) = true) :
    (∀ s, (machine g).Reach (KeyRotated E) s → ∀ t ∈ s.returned, t.ref.kid = none →
      (t.Correct E g verify ↔ t.readAt = t.signedAt)) ∧
    (∀ s, (machine g).Reach (fun a l b => KeyRotated E a l b ∧ Undisturbed a l) s →
      ∀ t ∈ s.returned, t.ref.kid = none → t.Correct E g verify) := by
  have htraced : ∀ s, (machine g).Reach (KeyRotated E) s → Traced E g s := fun s hs =>
    hs.invariant (fun _ => traced_init) fun _ _ _ => traced_step hclient
  have hexact : ∀ s, (machine g).Reach (KeyRotated E) s → ∀ t ∈ s.returned, t.ref.kid = none →
      (t.Correct E g verify ↔ t.readAt = t.signedAt) := fun s hs t ht hderived =>
    ((htraced s hs).returned t ht).correct_iff hderived hverify
  refine ⟨hexact, fun s hs t ht hderived => ?_⟩
  have htogether : Together s :=
    hs.invariant (fun _ => together_init) fun _ _ _ ha hn hok =>
      together_step (E := E) hclient ha hn hok.2
  exact (hexact s (hs.mono fun _ _ _ hok => hok.1) t ht hderived).mpr (htogether.returned t ht)

end Engines

def demoHeaderText : Value → String
  | .object [(_, .string alg), (_, .string typ), (_, .string kid)] =>
    "\x7b\"alg\":\"" ++ alg ++ "\",\"kid\":\"" ++ kid ++ "\",\"typ\":\"" ++ typ ++ "\"\x7d"
  | _ => "\x7b\x7d"

def demoClaimsText (claims : TokenClaims) : String :=
  "\x7b\"sub\":\"" ++ claims.sub ++ "\",\"iss\":\"" ++ claims.iss ++ "\",\"aud\":\"" ++
    claims.aud ++ "\",\"iat\":" ++
    toString claims.iat ++ ",\"exp\":" ++ toString claims.exp ++ "\x7d"

def demoGenerator : VaultJwtGenerator DemoKeys where
  signingClient := demoVault.signingClient fun _ => ""
  keyResolver := PrefixTransitKeyResolver "signing"
  claimsToVec := fun claims => .ok (VaultJwtGenerator.asBytes (demoClaimsText claims))
  toVec := fun header => .ok (VaultJwtGenerator.asBytes (demoHeaderText header))

/-- The signature starts with the version, which the key repeats. -/
def demoVerify (key content signature : List UInt8) : Bool := signature == key.headD 0 :: content

theorem demoVerify_sign (v : ℕ) (content : List UInt8) :
    demoVerify (demoPublicKey v) content (demoSign v content) = true := by
  simp [demoVerify, demoPublicKey, demoSign, List.replicate_succ]

theorem demo_signingClient :
    demoGenerator.signingClient = demoVault.signingClient fun _ => "" := rfl

theorem demo_headerKid (pc : ParticipantContext) (keyName : String) (keys : DemoKeys) :
    demoGenerator.headerKid pc ⟨keyName, none⟩ keys =
      (.ok (versionKid keyName (keys keyName).latest), keys) := by
  refine Prod.ext ?_ (headerKid_state (E := demoEngine) demo_signingClient pc ⟨keyName, none⟩ keys)
  have hmeta := demo_getKeyMetadata (fun _ => "") pc keyName .multibase keys
  simp only [VaultJwtGenerator.headerKid, demo_signingClient, hmeta]

theorem demo_signInput (pc : ParticipantContext) (keyName input : String) (keys : DemoKeys) :
    demoGenerator.signInput pc keyName input keys = (.ok (input ++ "." ++
      urlEncode (demoSign (keys keyName).latest (VaultJwtGenerator.asBytes input))), keys) := by
  refine Prod.ext ?_ (signInput_state (E := demoEngine) demo_signingClient pc keyName input keys)
  have hsigned := demo_signContent (fun _ => "") pc keyName (VaultJwtGenerator.asBytes input) keys
  simp only [VaultJwtGenerator.signInput, demo_signingClient, hsigned]

def demoClaims : TokenClaims where
  sub := "consumer"
  iss := "did:web:provider"
  aud := "provider"
  exp := 60

def demoText (kid : String) : String :=
  urlEncode (VaultJwtGenerator.asBytes (demoHeaderText (VaultJwtGenerator.header kid))) ++ "." ++
    urlEncode (VaultJwtGenerator.asBytes (demoClaimsText { demoClaims with iat := 10 }))

def demoContext : ParticipantContext := { id := "siglet" }

def demoRef : TransitKeyRef := ⟨"signing-siglet", none⟩

def demoStarted (keys : DemoKeys) : State DemoKeys :=
  (State.mk keys [] HashMap.empty []).setCall 0 (.reading demoContext demoClaims demoRef) keys

/-- A call has read the version of its key. -/
def demoReading (keys : DemoKeys) : State DemoKeys :=
  (demoStarted keys).setCall 0 (.signing demoContext demoRef
    (versionKid "signing-siglet" (keys "signing-siglet").latest)
    (demoText (versionKid "signing-siglet" (keys "signing-siglet").latest)) 0) keys

/-- The server as the call sends its second request. -/
def demoRequesting (keys later : DemoKeys) (rotations : List String) : State DemoKeys :=
  { demoReading keys with server := later, rotations := rotations }

def demoReturned (keys later : DemoKeys) (rotations : List String) : Returned DemoKeys :=
  let kid := versionKid "signing-siglet" (keys "signing-siglet").latest
  ⟨demoRef, kid, demoText kid, demoText kid ++ "." ++
    urlEncode (demoSign (later "signing-siglet").latest (VaultJwtGenerator.asBytes (demoText kid))),
    0, rotations.count "signing-siglet", later⟩

theorem reach_demoReading {ok : State DemoKeys → Label DemoKeys → State DemoKeys → Prop}
    (keys : DemoKeys) (hgenerate : ∀ s t, ok s (.generateToken 0 demoContext demoClaims) t)
    (hread : ∀ s t, ok s (.read 0 10) t) : (machine demoGenerator).Reach ok (demoReading keys) := by
  have hfirst : (machine demoGenerator).next ⟨keys, [], HashMap.empty, []⟩
      (.generateToken 0 demoContext demoClaims) =
      some (demoStarted keys) := rfl
  have hsecond : (machine demoGenerator).next (demoStarted keys) (.read 0 10) =
      some (demoReading keys) := by
    have hcall : (demoStarted keys).calls.get 0 =
        some (.reading demoContext demoClaims demoRef) := rfl
    have hinput : ∀ kid, demoGenerator.signingInput 10 demoClaims kid = .ok (demoText kid) :=
      fun _ => rfl
    have hkid : demoGenerator.headerKid demoContext demoRef (demoStarted keys).server = _ :=
      demo_headerKid demoContext "signing-siglet" keys
    simp only [machine, next, hcall, hkid, hinput]
    rfl
  exact ⟨_, _, ⟨rfl, rfl, rfl⟩, .cons hfirst (hgenerate _ _) (.one hsecond (hread _ _))⟩

theorem demo_sign (keys later : DemoKeys) (rotations : List String) :
    (machine demoGenerator).next (demoRequesting keys later rotations) (.sign 0) =
      some (((demoRequesting keys later rotations).endCall 0 later).record
        (demoReturned keys later rotations)) := by
  have hcall : (demoRequesting keys later rotations).calls.get 0 =
      some (.signing demoContext demoRef
    (versionKid "signing-siglet" (keys "signing-siglet").latest)
    (demoText (versionKid "signing-siglet" (keys "signing-siglet").latest)) 0) := rfl
  have hserver : (demoRequesting keys later rotations).server = later := rfl
  simp only [machine, next, hcall, hserver, demo_signInput]
  rfl

/-- Without a rotation the token carries the version it is signed with. -/
theorem kid_names_signing_version_alone :
    (demoReturned firstVersion firstVersion []).Correct demoEngine demoGenerator demoVerify := by
  have hmain := (kid_names_signing_version (E := demoEngine) demo_signingClient demoVerify
    fun _ v content => demoVerify_sign v content).2
  have hreach : (machine demoGenerator).Reach (fun a l b => KeyRotated demoEngine a l b ∧
      Undisturbed a l) _ :=
    reach_demoReading firstVersion (fun _ _ => ⟨trivial, trivial⟩) fun _ _ => ⟨trivial, trivial⟩
  exact hmain _ (hreach.snoc (demo_sign firstVersion firstVersion []) ⟨trivial, trivial⟩)
    _ List.mem_cons_self rfl

/-- A server whose key `signing-siglet` alone was rotated. -/
def onceRotated : DemoKeys := fun keyName =>
  if keyName = "signing-siglet" then rotatedVersions keyName else firstVersion keyName

/-- The rotation falls between the two requests: the header names version 1, version 2 signs, and
the key that the resolver serves for the `kid` rejects the signature. -/
theorem rotation_between_requests :
    (¬ ∀ (σ : Type) (c : HashicorpVaultClient σ) (E : ∀ keyName, TransitEngine c keyName)
      (g : VaultJwtGenerator σ) (bs58Encode : List UInt8 → String)
      (verify : List UInt8 → List UInt8 → List UInt8 → Bool),
      g.signingClient = c.signingClient bs58Encode →
      (∀ keyName v content, verify ((E keyName).pub v) content
        ((E keyName).sign v content) = true) →
      ∀ s, (machine g).Reach (KeyRotated E) s → ∀ t ∈ s.returned, t.ref.kid = none →
      t.Correct E g verify) ∧
    (demoReturned firstVersion onceRotated ["signing-siglet"]).kid = "signing-siglet-1" ∧
    (demoReturned firstVersion onceRotated ["signing-siglet"]).version demoEngine = 2 ∧
    ∀ content, demoVerify (demoPublicKey 1) content (demoSign 2 content) = false := by
  refine ⟨fun h => ?_, rfl, rfl, fun content => ?_⟩
  · have hreach : (machine demoGenerator).Reach (KeyRotated demoEngine) _ :=
      reach_demoReading firstVersion (fun _ _ => trivial) fun _ _ => trivial
    have hrotate : (machine demoGenerator).next (demoReading firstVersion)
        (.rotate "signing-siglet" onceRotated) =
        some (demoRequesting firstVersion onceRotated ["signing-siglet"]) := rfl
    have hok : KeyRotated demoEngine (demoReading firstVersion)
        (.rotate "signing-siglet" onceRotated)
        (demoRequesting firstVersion onceRotated ["signing-siglet"]) := by
      refine ⟨fun v => ?_, fun other hother => if_neg hother⟩
      change v ∈ [1, 2] ↔ v ∈ [1] ∨ v = 2
      simp
    have hcorrect := h DemoKeys demoVault demoEngine demoGenerator _ demoVerify demo_signingClient
      (fun _ v content => demoVerify_sign v content) _
      ((hreach.snoc hrotate hok).snoc
        (demo_sign firstVersion onceRotated ["signing-siglet"]) trivial) _
      List.mem_cons_self rfl
    have hversion : 1 = 2 := versionKid_injective hcorrect.named
    omega
  · simp [demoVerify, demoPublicKey, demoSign, List.replicate_succ]

end Facet.Vault.Rotation
