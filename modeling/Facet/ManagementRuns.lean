import Facet.ManagementApi

/-!
# Runs of the management API

What the callers of the API are told over a run: in front of the tables what they would be told in
front of the stores in memory, what is in force after the answers that they got, and which tokens
all of it takes.
-/
namespace Facet.Siglet
open Serde Server Vault

abbrev MemoryState : Type := HashMap String KeyMappingRequest × MemoryTransferTypeMappingStore

/-- The tables `signing_key_mappings` and `transfer_type_mappings`. -/
abbrev Tables : Type := HashMap String SigningKeyMappingRecord × HashMap String Value

def memoryApi : ManagementApiHandler MemoryState :=
  ⟨MemorySigningKeyMappingStore.first, memoryTransferTypeMappings.second⟩

def postgresApi (jsonb : Jsonb) : ManagementApiHandler Tables :=
  ⟨PostgresSigningKeyMappingStore.first, (PostgresTransferTypeMappingStore jsonb).second⟩

section Runs
variable {lib : JsonWebToken} {σ : Type}

/-- One request behind the layers of the configuration. -/
def serve (h : ManagementApiHandler σ) (checks : Checks) (cfg : ManagementApiAuthConfig)
    (c : ApiCall lib) (s : σ) : Response × σ :=
  let layers := buildManagementApiAuthLayers (fun _ _ => c.fetchJwks) cfg
  h.router checks layers.1 layers.2 c s

/-- The requests with their answers, the newest first, and the state that they lead to. -/
inductive History (h : ManagementApiHandler σ) (checks : Checks)
    (cfg : ManagementApiAuthConfig) (start : σ) :
    List (ApiCall lib × Response) → σ → Prop
  | start : History h checks cfg start [] start
  | call {history : List (ApiCall lib × Response)} {s : σ}
      (before : History h checks cfg start history s)
    (c : ApiCall lib) :
    History h checks cfg start ((c, (serve h checks cfg c s).1) :: history)
      (serve h checks cfg c s).2

/-! ## Tables and memory -/

/-- The same answer, up to the order of the mappings. -/
inductive Response.Agrees : Response → Response → Prop
  | same (response : Response) : Agrees response response
  | transferTypes (id : String) {mappings mappings' : HashMap String TransferType}
    (same : SameMappings mappings mappings') :
    Agrees ⟨200, .transferTypes ⟨id, mappings⟩⟩ ⟨200, .transferTypes ⟨id, mappings'⟩⟩

theorem Response.Agrees.status {response response' : Response} (h : response.Agrees response') :
    response.status = response'.status := by
  cases h with
  | same => rfl
  | transferTypes => rfl

/-- The answers are those of the other run, but for internal server errors: a request that got one
had no part in the other run, or had another answer there. -/
inductive ExplainedBy : List (ApiCall lib × Response) → List (ApiCall lib × Response) → Prop
  | nil : ExplainedBy [] []
  | agreed {history history' : List (ApiCall lib × Response)} (c : ApiCall lib)
      {response response' : Response}
    (agrees : response.Agrees response') (rest : ExplainedBy history history') :
    ExplainedBy ((c, response) :: history) ((c, response') :: history')
  | failed {history history' : List (ApiCall lib × Response)} (c : ApiCall lib)
      {response : Response}
    (status : response.status = 500) (rest : ExplainedBy history history') :
    ExplainedBy ((c, response) :: history) history'
  | unanswered {history history' : List (ApiCall lib × Response)} (c : ApiCall lib)
      {response response' : Response}
    (status : response.status = 500) (rest : ExplainedBy history history') :
    ExplainedBy ((c, response) :: history) ((c, response') :: history')

/-- The rows of the mappings in memory. -/
def InTables (jsonb : Jsonb) (t : Tables) (s : MemoryState) : Prop :=
  KeyedStore.Holds signingKeyRows t.1 s.1 ∧ KeyedStore.Holds (transferTypeRows jsonb) t.2 s.2

theorem memoryTransferTypeMappings_eq :
    memoryTransferTypeMappings = .memory transferTypeMappingErrors := by
  unfold memoryTransferTypeMappings KeyedStore.memory
  congr 1
  funext _ pc store
  unfold MemoryTransferTypeMappingStore.delete
  cases hget : store.get pc with
  | none => simp [HashMap.containsKey, hget, okOr, transferTypeMappingErrors]
  | some mappings => simp [HashMap.containsKey, hget, okOr]

theorem keys_refine (jsonb : Jsonb) :
    (postgresApi jsonb).repo.Refines memoryApi.repo (InTables jsonb) Eq
    (KeyedStore.StorageFailed signingKeyMappingErrors) :=
  (KeyedStore.table_refines_memory fun _ mapping => ⟨mapping, rfl, rfl⟩).first

theorem types_refine (jsonb : Jsonb) :
    (postgresApi jsonb).transferTypeRepo.Refines memoryApi.transferTypeRepo
    (InTables jsonb) SameMappings (KeyedStore.StorageFailed transferTypeMappingErrors) := by
  unfold memoryApi
  rw [memoryTransferTypeMappings_eq]
  exact (KeyedStore.table_refines_memory fun pc mappings =>
    transferTypes_readBack jsonb pc mappings).second

/-- A step in front of the tables beside the step in memory. -/
def StepExplained (jsonb : Jsonb) (s : MemoryState) (result : Response × Tables)
    (result' : Response × MemoryState) : Prop :=
  result.1.Agrees result'.1 ∧ InTables jsonb result.2 result'.2 ∨
    result.1.status = 500 ∧ (InTables jsonb result.2 s ∨ InTables jsonb result.2 result'.2)

theorem wrote_explained {jsonb : Jsonb} {ε : Type} {errors : StoreErrors ε} {s : MemoryState}
    (status : ℕ) {intoResponse : ε → Response}
    (herror : ∀ action reason, (intoResponse (errors.failed action reason)).status = 500)
    {result : Except ε Unit × Tables} {result' : Except ε Unit × MemoryState}
    (h : KeyedStore.Explained (InTables jsonb) (KeyedStore.StorageFailed errors) s result result') :
    StepExplained jsonb s (wrote status intoResponse result)
      (wrote status intoResponse result') := by
  rcases h with ⟨hsame, hrel⟩ | ⟨⟨e, he, action, reason, rfl⟩, hrel⟩
  · refine Or.inl ⟨?_, hrel⟩
    rw [wrote, hsame]
    exact .same _
  · refine Or.inr ⟨?_, hrel⟩
    rw [wrote, he]
    exact herror action reason

theorem write_explained {jsonb : Jsonb} {t : Tables} {s : MemoryState} (h : InTables jsonb t s)
    (write : Write) (fate fate' : Fate) :
    StepExplained jsonb s (write.run (postgresApi jsonb) fate t) (write.run memoryApi fate' s) := by
  have hkeys : ∀ action reason,
      (signingKeyMappingResponse (signingKeyMappingErrors.failed action reason)).status = 500 :=
    fun _ _ => rfl
  have htypes : ∀ action reason,
      (ManagementApiError.transferType
        (transferTypeMappingErrors.failed action reason)).intoResponse.status = 500 :=
    fun _ _ => rfl
  cases write with
  | createKey pc mapping =>
    exact wrote_explained 201 hkeys ((keys_refine jsonb).create fate pc mapping t s h)
  | updateKey pc mapping =>
    exact wrote_explained 204 hkeys ((keys_refine jsonb).update fate pc mapping t s h)
  | deleteKey pc => exact wrote_explained 204 hkeys ((keys_refine jsonb).delete fate pc t s h)
  | createTypes pc mappings =>
    exact wrote_explained 201 htypes ((types_refine jsonb).create fate pc mappings t s h)
  | updateTypes pc mappings =>
    exact wrote_explained 204 htypes ((types_refine jsonb).update fate pc mappings t s h)
  | deleteTypes pc => exact wrote_explained 204 htypes ((types_refine jsonb).delete fate pc t s h)

theorem read_explained {jsonb : Jsonb} {t : Tables} {s : MemoryState} (h : InTables jsonb t s)
    (read : Read) (fate fate' : Fate) :
    (read.run (postgresApi jsonb) fate t).Agrees (read.run memoryApi fate' s) ∨
      (read.run (postgresApi jsonb) fate t).status = 500 := by
  cases read with
  | signingKey pc =>
    rcases (keys_refine jsonb).find fate pc t s h with
      ⟨x, x', hx, hx', rfl⟩ | ⟨e, he, he'⟩ | ⟨e, he, action, reason, rfl⟩
    · refine Or.inl ?_
      have hfind : memoryApi.repo.find fate' pc s = .ok x := hx'
      simp only [Read.run, ManagementApiHandler.getKeyMapping, hx, hfind]
      exact .same _
    · refine Or.inl ?_
      have hfind : memoryApi.repo.find fate' pc s = .error e := he'
      simp only [Read.run, ManagementApiHandler.getKeyMapping, he, hfind]
      exact .same _
    · refine Or.inr ?_
      simp only [Read.run, ManagementApiHandler.getKeyMapping, he]
      rfl
  | transferTypes pc =>
    rcases (types_refine jsonb).find fate pc t s h with
      ⟨x, x', hx, hx', hsame⟩ | ⟨e, he, he'⟩ | ⟨e, he, action, reason, rfl⟩
    · refine Or.inl ?_
      have hfind : memoryApi.transferTypeRepo.find fate' pc s = .ok x' := hx'
      simp only [Read.run, ManagementApiHandler.getTransferTypeMapping, hx, hfind]
      exact .transferTypes pc hsame
    · refine Or.inl ?_
      have hfind : memoryApi.transferTypeRepo.find fate' pc s = .error e := he'
      simp only [Read.run, ManagementApiHandler.getTransferTypeMapping, he, hfind]
      exact .same _
    · refine Or.inr ?_
      simp only [Read.run, ManagementApiHandler.getTransferTypeMapping, he]
      rfl

theorem serve_explained (jsonb : Jsonb) (checks : Checks) (cfg : ManagementApiAuthConfig)
    (c : ApiCall lib) {t : Tables} {s : MemoryState} (h : InTables jsonb t s) :
    StepExplained jsonb s (serve (postgresApi jsonb) checks cfg c t)
      (serve memoryApi checks cfg c s) := by
  unfold serve
  dsimp only
  cases routed checks (buildManagementApiAuthLayers (fun _ _ => c.fetchJwks) cfg).1
    (buildManagementApiAuthLayers (fun _ _ => c.fetchJwks) cfg).2 c with
  | refused response _ hanswer =>
    rw [hanswer, hanswer]
    exact Or.inl ⟨.same _, h⟩
  | read read _ _ hanswer =>
    rw [hanswer, hanswer]
    exact (read_explained h read c.fate c.fate).imp (fun hagrees => ⟨hagrees, h⟩) fun hstatus =>
      ⟨hstatus, Or.inl h⟩
  | head read _ _ hanswer =>
    rw [hanswer, hanswer]
    rcases read_explained h read c.fate c.fate with hagrees | hstatus
    · rw [hagrees.status]
      exact Or.inl ⟨.same _, h⟩
    · exact Or.inr ⟨hstatus, Or.inl h⟩
  | write write _ _ hanswer =>
    rw [hanswer, hanswer]
    exact write_explained h write c.fate c.fate

/-- A siglet on Postgres answers like one that keeps the mappings in memory, but for internal server
errors: over every run of the API there is a run in memory, of the same requests less some that were
answered with such an error, with the same answers to all others, after which the tables hold the
rows of what is in memory. -/
theorem postgres_answers_like_memory (jsonb : Jsonb) (checks : Checks)
    (cfg : ManagementApiAuthConfig) {history : List (ApiCall lib × Response)} {t : Tables}
    (h : History (postgresApi jsonb) checks cfg (HashMap.empty, HashMap.empty) history t) :
    ∃ history' s, History memoryApi checks cfg (HashMap.empty, HashMap.empty) history' s ∧
      ExplainedBy history history' ∧ InTables jsonb t s := by
  induction h with
  | start => exact ⟨[], _, .start, .nil, fun _ => rfl, fun _ => rfl⟩
  | call _ c ih =>
    obtain ⟨history', s, hrun, hexplained, hrel⟩ := ih
    rcases serve_explained jsonb checks cfg c hrel with ⟨hagrees, hnext⟩ | ⟨hstatus, hsame | hnext⟩
    · exact ⟨_, _, .call hrun c, .agreed c hagrees hexplained, hnext⟩
    · exact ⟨history', s, hrun, .failed c hstatus hexplained, hsame⟩
    · exact ⟨_, _, .call hrun c, .unanswered c hstatus hexplained, hnext⟩

/-! ## What is in force -/

/-- What callers can conclude from the answers that they got. -/
structure Confirmed where
  keys : String → Option KeyMappingRequest
  types : String → Option (HashMap String TransferType)

def Write.confirm (view : Confirmed) : Write → Confirmed
  | .createKey pc mapping | .updateKey pc mapping =>
    { view with keys := Function.update view.keys pc (some mapping) }
  | .deleteKey pc => { view with keys := Function.update view.keys pc none }
  | .createTypes pc mappings | .updateTypes pc mappings =>
    { view with types := Function.update view.types pc (some mappings) }
  | .deleteTypes pc => { view with types := Function.update view.types pc none }

/-- A write counts when its answer is no error. -/
def confirmed (checks : Checks) : List (ApiCall lib × Response) → Confirmed
  | [] => ⟨fun _ => none, fun _ => none⟩
  | (c, response) :: history =>
    match c.submitted checks with
    | some write =>
      if response.status < 400 then write.confirm (confirmed checks history)
      else confirmed checks history
    | none => confirmed checks history

def Records (jsonb : Jsonb) (t : Tables) (view : Confirmed) : Prop :=
  (∀ pc, t.1.get pc = (view.keys pc).map signingKeyRows.write) ∧
    ∀ pc, t.2.get pc = (view.types pc).map (transferTypeRows jsonb).write

theorem wrote_told {jsonb : Jsonb} {ε : Type} (status : ℕ) {intoResponse : ε → Response}
    (hstatus : status < 400) (herror : ∀ e, 400 ≤ (intoResponse e).status)
    {result : Except ε Unit × Tables} {before after : Tables} {view view' : Confirmed}
    (h : KeyedStore.Told result before after) (hbefore : Records jsonb before view)
    (hafter : Records jsonb after view') :
    (wrote status intoResponse result).1.status < 400 ∧
      Records jsonb (wrote status intoResponse result).2 view' ∨
      400 ≤ (wrote status intoResponse result).1.status ∧
      Records jsonb (wrote status intoResponse result).2 view := by
  rcases h with ⟨hok, rfl⟩ | ⟨⟨e, he⟩, rfl⟩
  · refine Or.inl ⟨?_, hafter⟩
    rw [wrote, hok]
    exact hstatus
  · refine Or.inr ⟨?_, hbefore⟩
    rw [wrote, he]
    exact herror e

theorem told_first {ε τ υ : Type} {result : Except ε Unit × τ} {before after : τ} (other : υ)
    (h : KeyedStore.Told result before after) :
    KeyedStore.Told (result.1, result.2, other) (before, other) (after, other) := by
  rcases h with ⟨hok, rfl⟩ | ⟨herror, rfl⟩
  · exact Or.inl ⟨hok, rfl⟩
  · exact Or.inr ⟨herror, rfl⟩

theorem told_second {ε τ υ : Type} {result : Except ε Unit × τ} {before after : τ} (other : υ)
    (h : KeyedStore.Told result before after) :
    KeyedStore.Told (result.1, other, result.2) (other, before) (other, after) := by
  rcases h with ⟨hok, rfl⟩ | ⟨herror, rfl⟩
  · exact Or.inl ⟨hok, rfl⟩
  · exact Or.inr ⟨herror, rfl⟩

theorem map_update {α β : Type} (f : String → Option α) (g : α → β) (m : HashMap String β)
    (h : ∀ pc, m.get pc = (f pc).map g) (k : String) (x : α) (pc : String) :
    (m.insert k (g x)).get pc = (Function.update f k (some x) pc).map g := by
  rw [HashMap.get_insert]
  by_cases hk : pc = k
  · subst hk
    simp
  · simp [hk, h pc]

theorem map_update_none {α β : Type} (f : String → Option α) (g : α → β) (m : HashMap String β)
    (h : ∀ pc, m.get pc = (f pc).map g) (k pc : String) :
    (m.remove k).get pc = (Function.update f k none pc).map g := by
  rw [HashMap.get_remove]
  by_cases hk : pc = k
  · subst hk
    simp
  · simp [hk, h pc]

/-- A write in front of the tables has its effect when its answer is no error, and else it has
none. -/
theorem write_told {jsonb : Jsonb} {t : Tables} {view : Confirmed} (h : Records jsonb t view)
    (write : Write) {fate : Fate} (hfate : ∀ reason, fate ≠ .unanswered reason) :
    (write.run (postgresApi jsonb) fate t).1.status < 400 ∧
        Records jsonb (write.run (postgresApi jsonb) fate t).2 (write.confirm view) ∨
      400 ≤ (write.run (postgresApi jsonb) fate t).1.status ∧
        Records jsonb (write.run (postgresApi jsonb) fate t).2 view := by
  have hkeys : ∀ e, 400 ≤ (signingKeyMappingResponse e).status := by
    intro e
    cases e <;> simp [signingKeyMappingResponse]
  have htypes : ∀ e, 400 ≤ (ManagementApiError.transferType e).intoResponse.status := by
    intro e
    cases e <;> simp [ManagementApiError.intoResponse]
  cases write with
  | createKey pc mapping =>
    exact wrote_told 201 (by decide) hkeys
      (told_first t.2 (KeyedStore.table_create_told hfate pc mapping t.1)) h
      ⟨map_update _ _ _ h.1 pc mapping, h.2⟩
  | updateKey pc mapping =>
    exact wrote_told 204 (by decide) hkeys
      (told_first t.2 (KeyedStore.table_update_told hfate pc mapping t.1)) h
      ⟨map_update _ _ _ h.1 pc mapping, h.2⟩
  | deleteKey pc =>
    exact wrote_told 204 (by decide) hkeys
      (told_first t.2 (KeyedStore.table_delete_told hfate pc t.1)) h
      ⟨map_update_none _ _ _ h.1 pc, h.2⟩
  | createTypes pc mappings =>
    exact wrote_told 201 (by decide) htypes
      (told_second t.1 (KeyedStore.table_create_told hfate pc mappings t.2)) h
      ⟨h.1, map_update _ _ _ h.2 pc mappings⟩
  | updateTypes pc mappings =>
    exact wrote_told 204 (by decide) htypes
      (told_second t.1 (KeyedStore.table_update_told hfate pc mappings t.2)) h
      ⟨h.1, map_update _ _ _ h.2 pc mappings⟩
  | deleteTypes pc =>
    exact wrote_told 204 (by decide) htypes
      (told_second t.1 (KeyedStore.table_delete_told hfate pc t.2)) h
      ⟨h.1, map_update_none _ _ _ h.2 pc⟩

theorem confirmed_of_error {checks : Checks} {c : ApiCall lib} {response : Response}
    {history : List (ApiCall lib × Response)} (h : 400 ≤ response.status) :
    confirmed checks ((c, response) :: history) = confirmed checks history := by
  rw [confirmed]
  cases c.submitted checks with
  | none => rfl
  | some write => exact if_neg (by omega)

theorem confirmed_of_read {checks : Checks} {c : ApiCall lib} (response : Response)
    (history : List (ApiCall lib × Response)) (h : c.submitted checks = none) :
    confirmed checks ((c, response) :: history) = confirmed checks history := by
  rw [confirmed, h]

theorem records_of_history {jsonb : Jsonb} {checks : Checks} {cfg : ManagementApiAuthConfig}
    {history : List (ApiCall lib × Response)} {t : Tables}
    (h : History (postgresApi jsonb) checks cfg (HashMap.empty, HashMap.empty) history t)
    (hfate : ∀ x ∈ history, ∀ reason, x.1.fate ≠ .unanswered reason) :
    Records jsonb t (confirmed checks history) := by
  induction h with
  | start => exact ⟨fun _ => rfl, fun _ => rfl⟩
  | @call history t before c ih =>
    have hrecords := ih fun x hx => hfate x (List.mem_cons_of_mem _ hx)
    have hanswered := hfate _ List.mem_cons_self
    unfold serve at hanswered ⊢
    dsimp only at hanswered ⊢
    cases routed checks (buildManagementApiAuthLayers (fun _ _ => c.fetchJwks) cfg).1
      (buildManagementApiAuthLayers (fun _ _ => c.fetchJwks) cfg).2 c with
    | refused response hstatus hanswer =>
      rw [hanswer, confirmed_of_error hstatus]
      exact hrecords
    | read read _ hsubmitted hanswer =>
      rw [hanswer, confirmed_of_read _ _ hsubmitted]
      exact hrecords
    | head read _ hsubmitted hanswer =>
      rw [hanswer, confirmed_of_read _ _ hsubmitted]
      exact hrecords
    | write write _ hsubmitted hanswer =>
      rw [hanswer]
      rcases write_told hrecords write hanswered with ⟨hok, hnext⟩ | ⟨herror, hnext⟩
      · rw [confirmed, hsubmitted]
        dsimp only
        rw [if_pos hok]
        exact hnext
      · rw [confirmed_of_error herror]
        exact hnext

/-- The claim mappings of a submitted write are valid. -/
theorem submitted_valid {checks : Checks} {c : ApiCall lib} {write : Write}
    (h : c.submitted checks = some write) {pc : String} {mappings : HashMap String TransferType}
    (hwrite : write = .createTypes pc mappings ∨ write = .updateTypes pc mappings) :
    ∀ tt ∈ mappings.values, tt.ClaimsValid checks := by
  have hvalid : (validateTransferTypes checks mappings).isOk = true →
      ∀ tt ∈ mappings.values, tt.ClaimsValid checks := by
    intro hok
    rcases validateTransferTypes_cases checks mappings with ⟨e, -, he⟩ | hok'
    · rw [he] at hok
      exact absurd hok (by simp [Except.isOk, Except.toBool])
    · exact (validateTransferTypes_eq_ok mappings).mp hok'
  unfold ApiCall.submitted at h
  split at h
  · obtain ⟨_, -, rfl⟩ := Option.map_eq_some_iff.mp h
    rcases hwrite with hwrite | hwrite <;> cases hwrite
  · obtain ⟨_, -, rfl⟩ := Option.map_eq_some_iff.mp h
    rcases hwrite with hwrite | hwrite <;> cases hwrite
  · cases h
    rcases hwrite with hwrite | hwrite <;> cases hwrite
  · obtain ⟨mapping, hfilter, rfl⟩ := Option.map_eq_some_iff.mp h
    rcases hwrite with hwrite | hwrite <;> cases hwrite
    exact hvalid (Option.filter_eq_some_iff.mp hfilter).2
  · obtain ⟨_, hfilter, rfl⟩ := Option.map_eq_some_iff.mp h
    rcases hwrite with hwrite | hwrite <;> cases hwrite
    exact hvalid (Option.filter_eq_some_iff.mp hfilter).2
  · cases h
    rcases hwrite with hwrite | hwrite <;> cases hwrite
  · cases h

theorem confirmed_valid (checks : Checks) (history : List (ApiCall lib × Response)) {pc : String}
    {mappings : HashMap String TransferType}
    (h : (confirmed checks history).types pc = some mappings) :
    ∀ tt ∈ mappings.values, tt.ClaimsValid checks := by
  induction history with
  | nil => exact absurd h (by simp [confirmed])
  | cons x history ih =>
    obtain ⟨c, response⟩ := x
    rw [confirmed] at h
    cases hsubmitted : c.submitted checks with
    | none =>
      rw [hsubmitted] at h
      exact ih h
    | some write =>
      rw [hsubmitted] at h
      dsimp only at h
      split_ifs at h with hok
      · have hupdate : ∀ {x : Option (HashMap String TransferType)} {k : String},
            Function.update (confirmed checks history).types k x pc = some mappings →
              k = pc ∧ x = some mappings ∨ (confirmed checks history).types pc = some mappings := by
          intro x k heq
          by_cases hk : pc = k
          · subst hk
            exact Or.inl ⟨rfl, by simpa using heq⟩
          · exact Or.inr (by simpa [hk] using heq)
        cases write with
        | createKey k mapping => exact ih h
        | updateKey k mapping => exact ih h
        | deleteKey k => exact ih h
        | createTypes k types =>
          rcases hupdate h with ⟨rfl, heq⟩ | hold
          · exact submitted_valid hsubmitted (Or.inl (congrArg _ (Option.some.inj heq)))
          · exact ih hold
        | updateTypes k types =>
          rcases hupdate h with ⟨rfl, heq⟩ | hold
          · exact submitted_valid hsubmitted (Or.inr (congrArg _ (Option.some.inj heq)))
          · exact ih hold
        | deleteTypes k =>
          rcases hupdate h with ⟨-, heq⟩ | hold
          · exact absurd heq (by simp)
          · exact ih hold
      · exact ih h

/-- The lookup of the transit key resolver of a siglet on Postgres. -/
def findSigningKey (jsonb : Jsonb) (t : Tables) (fate : Fate) (id : String) :
    Except SigningKeyMappingError SigningKeyMapping :=
  ((postgresApi jsonb).repo.find fate id t).map fun mapping => ⟨id, mapping.keyName, mapping.kid⟩

/-- What the answers of the API say is in force: the key that signs the proofs of a participant
context is the one of the last write that was confirmed and not deleted since, and so are its
transfer types, the claim mappings of which are valid. -/
theorem confirmed_is_in_force (jsonb : Jsonb) (checks : Checks) (cfg : ManagementApiAuthConfig)
    {history : List (ApiCall lib × Response)} {t : Tables}
    (h : History (postgresApi jsonb) checks cfg (HashMap.empty, HashMap.empty) history t)
    (hfate : ∀ x ∈ history, ∀ reason, x.1.fate ≠ .unanswered reason) (pc : ParticipantContext)
    (hpc : hasNulText pc.id = false) :
    MappingTransitKeyResolver (findSigningKey jsonb t .answered) pc =
      ((confirmed checks history).keys pc.id).elim
        (.error
          (.keyResolution ("no signing key mapping for participant context '" ++ pc.id ++ "'")))
        (fun mapping => .ok ⟨mapping.keyName, some mapping.kid⟩) ∧
    ((confirmed checks history).types pc.id = none →
      (postgresApi jsonb).transferTypeRepo.find .answered pc.id t = .error (.notFound pc.id)) ∧
    ∀ mappings, (confirmed checks history).types pc.id = some mappings →
      (∀ tt ∈ mappings.values, tt.ClaimsValid checks) ∧
        ∃ found, (postgresApi jsonb).transferTypeRepo.find .answered pc.id t = .ok found ∧
          SameMappings found mappings := by
  obtain ⟨hkeys, htypes⟩ := records_of_history h hfate
  have hkeyRefused : signingKeyRows.refused pc.id none = none := by simp [signingKeyRows, hpc]
  have htypeRefused : (transferTypeRows jsonb).refused pc.id none = none := by
    simp [transferTypeRows, hpc]
  have hfindKey : (postgresApi jsonb).repo.find .answered pc.id t =
      ((confirmed checks history).keys pc.id).elim (.error (.notFound pc.id)) .ok := by
    show (KeyedStore.table signingKeyMappingErrors signingKeyRows).find .answered pc.id t.1 = _
    unfold KeyedStore.table
    dsimp only
    rw [hkeyRefused, KeyedStore.execute]
    dsimp only
    rw [hkeys]
    cases (confirmed checks history).keys pc.id with
    | none => rfl
    | some mapping => rfl
  have hfindTypes : (postgresApi jsonb).transferTypeRepo.find .answered pc.id t =
      ((confirmed checks history).types pc.id).elim (.error (.notFound pc.id)) fun mappings =>
        ((transferTypeRows jsonb).read pc.id ((transferTypeRows jsonb).write mappings)).mapError
          (transferTypeMappingErrors.failed "fetch") := by
    show (KeyedStore.table transferTypeMappingErrors (transferTypeRows jsonb)).find
      .answered pc.id t.2 = _
    unfold KeyedStore.table
    dsimp only
    rw [htypeRefused, KeyedStore.execute]
    dsimp only
    rw [htypes]
    cases (confirmed checks history).types pc.id with
    | none => rfl
    | some mappings => rfl
  refine ⟨?_, ?_, ?_⟩
  · unfold MappingTransitKeyResolver findSigningKey
    rw [hfindKey]
    cases (confirmed checks history).keys pc.id with
    | none => rfl
    | some mapping => rfl
  · intro hnone
    rw [hfindTypes, hnone]
    rfl
  · intro mappings hmappings
    obtain ⟨found, hread, hsame⟩ := transferTypes_readBack jsonb pc.id mappings
    refine ⟨confirmed_valid checks history hmappings, found, ?_, hsame⟩
    rw [hfindTypes, hmappings, Option.elim_some, hread]
    rfl

/-! ## Scopes -/

/-- The bearer token of the request is valid for the audience and has the scope. -/
def ApiCall.Bears (c : ApiCall lib) (audience scope : String) : Prop :=
  ∃ payload, Presents lib c.now ⟨c.fetchJwks, audience, scope, none, .requireToken⟩
    c.authorization payload ∧
    HasEntry payload.scope scope

theorem bears_of_admitted (hlib : lib.ChecksAsConfigured) {c : ApiCall lib}
    {audience scope : String}
    (h : c.Admitted (.enabled ⟨c.fetchJwks, audience, scope, none, .requireToken⟩)) :
    c.Bears audience scope := by
  obtain ⟨params, injected, hparams, hcall⟩ := h
  have hverified := (call_inner_none hparams rfl).1.mp ⟨injected, hcall⟩
  obtain ⟨payload, hpresents, hscope, -⟩ := (verifyJwt_eq_ok hlib).mp hverified
  exact ⟨payload, hpresents, hscope⟩

/-- Over every run only the requests with the write scope count: the run of these alone ends in the
same tables, and whatever was answered without an error was asked with the scope of its route. -/
theorem only_write_scope_writes (hlib : lib.ChecksAsConfigured) (api : ManagementApiHandler σ)
    (checks : Checks) (jwksUrl : String) (cacheTtl : UInt64) (audience : String) {start s : σ}
    {history : List (ApiCall lib × Response)}
    (h : History api checks (.enabled jwksUrl cacheTtl audience) start history s) :
    (∃ writes, writes.Sublist history ∧ (∀ x ∈ writes, x.1.Bears audience managementApiWriteScope) ∧
      History api checks (.enabled jwksUrl cacheTtl audience) start writes s) ∧
    ∀ x ∈ history, x.2.status < 400 → x.1.Bears audience managementApiReadScope ∧
      x.1.submitted checks = none ∨
      x.1.Bears audience managementApiWriteScope ∧ (x.1.submitted checks).isSome := by
  induction h with
  | start => exact ⟨⟨[], List.Sublist.refl _, by simp, .start⟩, by simp⟩
  | @call history s before c ih =>
    obtain ⟨⟨writes, hsublist, hbears, hrun⟩, hanswers⟩ := ih
    have hkept : ∀ {response : Response},
        serve api checks (.enabled jwksUrl cacheTtl audience) c s = (response, s) →
        ∃ writes,
          writes.Sublist
            ((c, (serve api checks (.enabled jwksUrl cacheTtl audience) c s).1) :: history) ∧
          (∀ x ∈ writes, x.1.Bears audience managementApiWriteScope) ∧
          History api checks (.enabled jwksUrl cacheTtl audience) start writes
            (serve api checks (.enabled jwksUrl cacheTtl audience) c s).2 := by
      intro response hserve
      exact ⟨writes, hsublist.cons _, hbears, by rw [hserve]; exact hrun⟩
    cases routed checks (buildManagementApiAuthLayers (fun _ _ => c.fetchJwks)
      (.enabled jwksUrl cacheTtl audience)).1
      (buildManagementApiAuthLayers (fun _ _ => c.fetchJwks)
        (.enabled jwksUrl cacheTtl audience)).2 c with
    | refused response hstatus hanswer =>
      refine ⟨hkept (hanswer σ api s), ?_⟩
      intro x hx hok
      rcases List.mem_cons.mp hx with rfl | hx
      · have hstatus' : (serve api checks (.enabled jwksUrl cacheTtl audience) c s).1 = response :=
          congrArg Prod.fst (hanswer σ api s)
        rw [hstatus'] at hok
        exact absurd hok (not_lt.mpr hstatus)
      · exact hanswers x hx hok
    | read read hadmitted hsubmitted hanswer =>
      refine ⟨hkept (hanswer σ api s), ?_⟩
      intro x hx hok
      rcases List.mem_cons.mp hx with rfl | hx
      · exact Or.inl ⟨bears_of_admitted hlib hadmitted, hsubmitted⟩
      · exact hanswers x hx hok
    | head read hadmitted hsubmitted hanswer =>
      refine ⟨hkept (hanswer σ api s), ?_⟩
      intro x hx hok
      rcases List.mem_cons.mp hx with rfl | hx
      · exact Or.inl ⟨bears_of_admitted hlib hadmitted, hsubmitted⟩
      · exact hanswers x hx hok
    | write write hadmitted hsubmitted hanswer =>
      have hwriter : c.Bears audience managementApiWriteScope := bears_of_admitted hlib hadmitted
      refine ⟨⟨_, hsublist.cons_cons _, ?_, .call hrun c⟩, ?_⟩
      · intro x hx
        rcases List.mem_cons.mp hx with rfl | hx
        · exact hwriter
        · exact hbears x hx
      · intro x hx hok
        rcases List.mem_cons.mp hx with rfl | hx
        · exact Or.inr ⟨hwriter, by simp [hsubmitted]⟩
        · exact hanswers x hx hok

end Runs

/-! ## Runs of one operator -/

def operatorPayload : Payload where
  sub := "operator"
  scope := some "siglet-mgmt-api:write"
  exp := some 1700003600
  nbf := none
  aud := some ["siglet"]

def operatorToken : String :=
  "eyJhbGciOiJFZERTQSIsImtpZCI6ImsxIn0." ++
  "eyJzdWIiOiJvcGVyYXRvciIsInNjb3BlIjoic2lnbGV0LW1nbXQtYXBpOndyaXRlIiwiYXVkIjoic2lnbGV0IiwiZXhwIjoxNzAwMDAzNjAwfQ." ++
  "Wqriyrh-hJzSAbLRn7eiUsenYemVjD6Mxezs4hXILMFw9NnUWn84WlIMYy786qMTp3YrSs8Af0RuZ4YRVE-QAg"

section Operator
variable (token : String)

/-- The library on the token of the operator. -/
def operatorLibrary : JsonWebToken where
  KeyParameters := String
  DecodingKey := String
  decodeHeader t := if t = token then .ok ⟨.edDSA, some "k1"⟩ else .error "InvalidToken"
  fromJwk jwk := .ok jwk.parameters
  signed t alg key := decide (t = token ∧ alg = .edDSA ∧ key = demoKey)
  payload t := if t = token then some operatorPayload else none
  decode now t key validation :=
    if t = token ∧ key = demoKey ∧ .edDSA ∈ validation.algorithms ∧
      validation.accepts now operatorPayload = true then
      .ok operatorPayload.toClaims
    else .error "InvalidSignature"

theorem operatorLibrary_checks : (operatorLibrary token).ChecksAsConfigured := by
  refine ⟨fun now t key validation claims => ?_⟩
  unfold operatorLibrary
  by_cases ht : t = token
  · simp only [ht, true_and, if_true, Except.ok.injEq, Option.some.injEq, decide_eq_true_eq,
      exists_eq_left', exists_and_left]
    split_ifs with h
    · simp [h]
    · refine iff_of_false (by simp) ?_
      intro hall
      exact h ⟨ht, hall.2.1, hall.1, hall.2.2.1⟩
  · simp [ht]

def writerState : AuthState (operatorLibrary token) where
  fetchJwks _ := .ok [⟨some "k1", some .edDSA, demoKey⟩]
  expectedAudience := "siglet"
  requiredScope := managementApiWriteScope
  adminScope := none
  noParticipantContext := .requireToken

theorem operator_admitted (htext : token.toList.all isHeaderText = true) :
    ∃ injected, Server.call (operatorLibrary token) 1700000000 (.enabled (writerState token))
      (.ok HashMap.empty) (some ("Bearer " ++ token)) = .inner injected := by
  have hkeyAlg : ∀ alg, some KeyAlgorithm.edDSA = some alg →
      alg.signing = some Algorithm.edDSA := by
    intro alg halg
    obtain rfl := Option.some.inj halg
    rfl
  have hpresents : Presents (operatorLibrary token) 1700000000 (writerState token)
      (some ("Bearer " ++ token))
      operatorPayload :=
    ⟨token, ⟨.edDSA, some "k1"⟩, "k1", _, ⟨some "k1", some .edDSA, demoKey⟩, demoKey,
      extractBearer_eq_ok.mpr ⟨rfl, htext⟩, if_pos rfl,
      rfl, by decide, rfl, rfl, hkeyAlg, rfl, decide_eq_true ⟨rfl, rfl, rfl⟩, if_pos rfl,
      ⟨1700003600, rfl, by omega⟩, by simp [operatorPayload], ["siglet"],
      rfl, by simp [writerState]⟩
  have hscope : HasEntry operatorPayload.scope managementApiWriteScope :=
    ⟨_, rfl, Text.mem_words_iff.mp (by decide)⟩
  refine (call_inner_none rfl rfl).1.mpr ((verifyJwt_eq_ok (operatorLibrary_checks token)).mpr ?_)
  exact ⟨operatorPayload, hpresents, hscope, by simp⟩

def operatorCall (fate : Fate) (method : Method) (route : Route) (authorization : Option String)
    (body : Value) : ApiCall (operatorLibrary token) where
  now := 1700000000
  fetchJwks _ := .ok [⟨some "k1", some .edDSA, demoKey⟩]
  fate := fate
  method := method
  route := route
  authorization := authorization
  body := .ok body

def keyDocument : Value :=
  .object [("kid", .string "did:web:pc1#key-1"), ("participantContextId", .string "pc1"),
    ("keyName", .string "siglet-pc1")]

def typesDocument : Value :=
  .object [("participantContextId", .string "pc1"), ("mappings", .object [("http-pull", .object [
    ("transfer_type", .string "http-pull"), ("endpointType", .string "HTTP"),
    ("endpoint", .string "https://pc1.example/data")])])]

def createKeyCall (fate : Fate) (authorization : Option String) : ApiCall (operatorLibrary token) :=
  operatorCall token fate .post .keyMappings authorization keyDocument

def createTypesCall : ApiCall (operatorLibrary token) :=
  operatorCall token .answered .post .transferTypeMappings none typesDocument

def getKeyCall : ApiCall (operatorLibrary token) :=
  operatorCall token .answered .get (.keyMapping (.ok "pc1")) none .null

def keyAnswer : Response := ⟨200, .signingKey ⟨"pc1", "siglet-pc1", "did:web:pc1#key-1"⟩⟩

/-- The first attempt did not get to the database. -/
def retriedHistory : List (ApiCall (operatorLibrary token) × Response) :=
  [(getKeyCall token, keyAnswer), (createTypesCall token, ⟨201, .empty⟩),
    (createKeyCall token .answered none, ⟨201, .empty⟩),
    (createKeyCall token (.lost "connection closed") none, ⟨500, .error "Internal server error"⟩)]

theorem exists_retried :
    ∃ t, History (postgresApi Jsonb.byLength) demoChecks .disabled (HashMap.empty, HashMap.empty)
    (retriedHistory token) t :=
  ⟨_, .call (.call (.call (.call .start (createKeyCall token (.lost "connection closed") none))
    (createKeyCall token .answered none)) (createTypesCall token)) (getKeyCall token)⟩

def scopedHistory : List (ApiCall (operatorLibrary token) × Response) :=
  [(createKeyCall token .answered (some ("Bearer " ++ token)), ⟨201, .empty⟩),
    (createKeyCall token .answered none, ⟨401, .text "Missing Authorization header"⟩)]

theorem exists_scoped (htext : token.toList.all isHeaderText = true) :
    ∃ t, History (postgresApi Jsonb.byLength) demoChecks
      (.enabled "https://idp.example/jwks" 300 "siglet")
      (HashMap.empty, HashMap.empty) (scopedHistory token) t := by
  obtain ⟨injected, hcall⟩ := operator_admitted token htext
  have hguard : ∀ (inner : Tables → Response × Tables) s, guarded (.enabled (writerState token))
      (createKeyCall token .answered (some ("Bearer " ++ token))) (.ok HashMap.empty) inner s =
        inner s := by
    intro inner s
    simp only [guarded, createKeyCall, operatorCall, hcall]
  have hfirst : History (postgresApi Jsonb.byLength) demoChecks
      (.enabled "https://idp.example/jwks" 300 "siglet")
      (HashMap.empty, HashMap.empty)
      [(createKeyCall token .answered none, ⟨401, .text "Missing Authorization header"⟩)]
      (HashMap.empty, HashMap.empty) := .call .start (createKeyCall token .answered none)
  have hanswer :
      (serve (postgresApi Jsonb.byLength) demoChecks
        (.enabled "https://idp.example/jwks" 300 "siglet")
        (createKeyCall token .answered (some ("Bearer " ++ token)))
        (HashMap.empty, HashMap.empty)).1 = ⟨201, .empty⟩ :=
    congrArg Prod.fst (hguard _ _)
  have hsecond := hfirst.call (createKeyCall token .answered (some ("Bearer " ++ token)))
  rw [hanswer] at hsecond
  exact ⟨_, hsecond⟩

end Operator

theorem lost_write_explained : ∃ t history' s,
    History memoryApi demoChecks .disabled (HashMap.empty, HashMap.empty) history' s ∧
      ExplainedBy (retriedHistory operatorToken) history' ∧ InTables Jsonb.byLength t s := by
  obtain ⟨t, hrun⟩ := exists_retried operatorToken
  exact ⟨t, postgres_answers_like_memory Jsonb.byLength demoChecks .disabled hrun⟩

theorem confirmed_key_signs : ∃ t, History (postgresApi Jsonb.byLength) demoChecks .disabled
      (HashMap.empty, HashMap.empty) (retriedHistory operatorToken) t ∧
    MappingTransitKeyResolver (findSigningKey Jsonb.byLength t .answered)
      ⟨"pc1", "anonymous", "anonymous"⟩ = .ok ⟨"siglet-pc1", some "did:web:pc1#key-1"⟩ := by
  obtain ⟨t, hrun⟩ := exists_retried operatorToken
  have hfate : ∀ x ∈ retriedHistory operatorToken, ∀ reason, x.1.fate ≠ .unanswered reason := by
    simp [retriedHistory, getKeyCall, createTypesCall, createKeyCall, operatorCall]
  exact ⟨t, hrun, (confirmed_is_in_force Jsonb.byLength demoChecks .disabled hrun hfate
    ⟨"pc1", "anonymous", "anonymous"⟩ (by decide)).1.trans rfl⟩

theorem unauthenticated_write_erased : ∃ t writes, writes.Sublist (scopedHistory operatorToken) ∧
    (∀ x ∈ writes, x.1.Bears "siglet" managementApiWriteScope) ∧
    History (postgresApi Jsonb.byLength) demoChecks
      (.enabled "https://idp.example/jwks" 300 "siglet")
      (HashMap.empty, HashMap.empty) writes t := by
  obtain ⟨t, hrun⟩ := exists_scoped operatorToken (by decide +kernel)
  exact ⟨t, (only_write_scope_writes (operatorLibrary_checks operatorToken)
    (postgresApi Jsonb.byLength) demoChecks "https://idp.example/jwks" 300 "siglet" hrun).1⟩

end Facet.Siglet
