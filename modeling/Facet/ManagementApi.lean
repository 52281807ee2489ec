import Facet.MappingStores
import Facet.AuthMiddleware

/-!
# The management API

The router of `ManagementApiHandler` over its two repositories: routing, the read and the write
layer, the bodies, the handlers and their answers. A call is one statement of a repository, so calls
of several instances on one database take effect one after the other.
-/
namespace Facet.Siglet
open Serde Server Vault

inductive Method
  | get
  | head
  | post
  | put
  | delete
  | other
  deriving DecidableEq, Repr

/-- The parameter `id` of a path may not be valid UTF-8. -/
inductive Route
  | keyMappings
  | keyMapping (id : Except String String)
  | transferTypeMappings
  | transferTypeMapping (id : Except String String)
  | unmatched

/-- A body that is not a JSON document. -/
inductive JsonRejection
  | missingContentType
  | syntaxError
  | tooLarge
  deriving DecidableEq, Repr

inductive ResponseBody
  | empty
  | text (message : String)
  | error (message : String)
  | rejection (error : JsonError)
  | signingKey (mapping : SigningKeyMapping)
  | transferTypes (mapping : TransferTypeMapping)

structure Response where
  status : ℕ
  body : ResponseBody

def JsonRejection.intoResponse : JsonRejection → Response
  | .missingContentType => ⟨415, .text "Expected request with `Content-Type: application/json`"⟩
  | .syntaxError => ⟨400, .text "Failed to parse the request body as JSON"⟩
  | .tooLarge => ⟨413, .text "Failed to buffer the request body: length limit exceeded"⟩

/-- An element too many is found by the parser of the document. -/
def jsonErrorStatus : JsonError → ℕ
  | .trailingElements => 400
  | _ => 422

abbrev RequestBody := Except JsonRejection Value

def extract {α : Type} (read : Value → Except JsonError α) (body : RequestBody) :
    Except Response α :=
  match body with
  | .error rejection => .error rejection.intoResponse
  | .ok document => (read document).mapError fun e => ⟨jsonErrorStatus e, .rejection e⟩

/-- `ManagementApiError::Mapping`. -/
def signingKeyMappingResponse : SigningKeyMappingError → Response
  | .notFound _ => ⟨404, .error "Signing key mapping not found"⟩
  | .alreadyExists _ => ⟨409, .error "Signing key mapping already exists"⟩
  | .storage _ => ⟨500, .error "Internal server error"⟩

def ManagementApiError.intoResponse : ManagementApiError → Response
  | .transferType (.notFound _) => ⟨404, .error "Transfer type mapping not found"⟩
  | .transferType (.alreadyExists _) => ⟨409, .error "Transfer type mapping already exists"⟩
  | .transferType (.storage _) => ⟨500, .error "Internal server error"⟩
  | .validation errors => ⟨400, .error ("; ".intercalate errors)⟩

/-- A request with what the environment adds to it: the clock, the answer of the key provider and
the fate of the statement that it leads to. -/
structure ApiCall (lib : JsonWebToken) where
  now : ℤ
  fetchJwks : String → Except AuthError (List (Jwk lib.KeyParameters))
  fate : Fate
  method : Method
  route : Route
  authorization : Option String
  body : RequestBody

structure ManagementApiHandler (σ : Type) where
  repo : KeyedStore σ SigningKeyMappingError KeyMappingRequest
  transferTypeRepo : KeyedStore σ TransferTypeMappingError (HashMap String TransferType)

/-- The answer to a write. -/
def wrote {σ ε : Type} (status : ℕ) (intoResponse : ε → Response) (result : Except ε Unit × σ) :
    Response × σ :=
  (match result.1 with
    | .ok () => ⟨status, .empty⟩
    | .error e => intoResponse e, result.2)

namespace ManagementApiHandler
variable {σ : Type} (h : ManagementApiHandler σ)

def getKeyMapping (fate : Fate) (id : String) (s : σ) : Response :=
  match h.repo.find fate id s with
  | .ok mapping => ⟨200, .signingKey ⟨id, mapping.keyName, mapping.kid⟩⟩
  | .error e => signingKeyMappingResponse e

def createKeyMapping (fate : Fate) (body : RequestBody) (s : σ) : Response × σ :=
  match extract deserializeSigningKeyMapping body with
  | .error response => (response, s)
  | .ok mapping => wrote 201 signingKeyMappingResponse
      (h.repo.create fate mapping.participantContextId ⟨mapping.keyName, mapping.kid⟩ s)

def updateKeyMapping (fate : Fate) (id : String) (body : RequestBody) (s : σ) : Response × σ :=
  match extract KeyMappingRequest.deserialize body with
  | .error response => (response, s)
  | .ok mapping => wrote 204 signingKeyMappingResponse (h.repo.update fate id mapping s)

def deleteKeyMapping (fate : Fate) (id : String) (s : σ) : Response × σ :=
  wrote 204 signingKeyMappingResponse (h.repo.delete fate id s)

def getTransferTypeMapping (fate : Fate) (id : String) (s : σ) : Response :=
  match h.transferTypeRepo.find fate id s with
  | .ok mappings => ⟨200, .transferTypes ⟨id, mappings⟩⟩
  | .error e => (ManagementApiError.transferType e).intoResponse

def createTransferTypeMapping (checks : Checks) (fate : Fate) (body : RequestBody)
    (s : σ) : Response × σ :=
  match extract TransferTypeMapping.deserialize body with
  | .error response => (response, s)
  | .ok mapping =>
    match validateTransferTypes checks mapping.mappings with
    | .error e => (e.intoResponse, s)
    | .ok () => wrote 201 (fun e => (ManagementApiError.transferType e).intoResponse)
        (h.transferTypeRepo.create fate mapping.participantContextId mapping.mappings s)

def updateTransferTypeMapping (checks : Checks) (fate : Fate) (id : String) (body : RequestBody)
    (s : σ) : Response × σ :=
  match extract (readMap TransferType.deserialize) body with
  | .error response => (response, s)
  | .ok mappings =>
    match validateTransferTypes checks mappings with
    | .error e => (e.intoResponse, s)
    | .ok () => wrote 204 (fun e => (ManagementApiError.transferType e).intoResponse)
        (h.transferTypeRepo.update fate id mappings s)

def deleteTransferTypeMapping (fate : Fate) (id : String) (s : σ) : Response × σ :=
  wrote 204 (fun e => (ManagementApiError.transferType e).intoResponse)
    (h.transferTypeRepo.delete fate id s)

end ManagementApiHandler

section Router
variable {lib : JsonWebToken} {σ : Type}

/-- The parameters of a path. -/
def pathParams (id : Except String String) : Except String (HashMap String String) :=
  id.map fun id => HashMap.empty.insert "id" id

/-- `route_layer` on a route without a parameter. -/
def guarded (layer : AuthLayer lib) (c : ApiCall lib) (path : Except String (HashMap String String))
    (inner : σ → Response × σ) (s : σ) : Response × σ :=
  match Server.call lib c.now layer path c.authorization with
  | .response status message => (⟨status, .text message⟩, s)
  | .inner _ => inner s

/-- `route_layer` on a route with a parameter, which the handler extracts for itself. -/
def guardedId (layer : AuthLayer lib) (c : ApiCall lib) (id : Except String String)
    (inner : String → σ → Response × σ) : σ → Response × σ :=
  guarded layer c (pathParams id) fun s =>
    match id with
    | .ok id => inner id s
    | .error _ => (⟨400, .text "Invalid URL: Invalid UTF-8 in `id`"⟩, s)

/-- `router`, for one request. -/
def ManagementApiHandler.router (h : ManagementApiHandler σ) (checks : Checks)
    (readAuth writeAuth : AuthLayer lib) (c : ApiCall lib) (s : σ) : Response × σ :=
  match c.method, c.route with
  | _, .unmatched => (⟨404, .empty⟩, s)
  | .get, .keyMapping id => guardedId readAuth c id (fun id s => (h.getKeyMapping c.fate id s, s)) s
  | .get, .transferTypeMapping id =>
    guardedId readAuth c id (fun id s => (h.getTransferTypeMapping c.fate id s, s)) s
  | .head, .keyMapping id =>
    let (response, s) := guardedId readAuth c id (fun id s => (h.getKeyMapping c.fate id s, s)) s
    (⟨response.status, .empty⟩, s)
  | .head, .transferTypeMapping id =>
    let (response, s) :=
      guardedId readAuth c id (fun id s => (h.getTransferTypeMapping c.fate id s, s)) s
    (⟨response.status, .empty⟩, s)
  | .post, .keyMappings =>
    guarded writeAuth c (.ok HashMap.empty) (h.createKeyMapping c.fate c.body) s
  | .put, .keyMapping id =>
    guardedId writeAuth c id (fun id => h.updateKeyMapping c.fate id c.body) s
  | .delete, .keyMapping id => guardedId writeAuth c id (fun id => h.deleteKeyMapping c.fate id) s
  | .post, .transferTypeMappings =>
    guarded writeAuth c (.ok HashMap.empty) (h.createTransferTypeMapping checks c.fate c.body) s
  | .put, .transferTypeMapping id =>
    guardedId writeAuth c id (fun id => h.updateTransferTypeMapping checks c.fate id c.body) s
  | .delete, .transferTypeMapping id =>
    guardedId writeAuth c id (fun id => h.deleteTransferTypeMapping c.fate id) s
  | _, _ => (⟨405, .empty⟩, s)

end Router

/-! ## What a request asks for -/

inductive Read
  | signingKey (id : String)
  | transferTypes (id : String)

/-- A write with all that its body says. -/
inductive Write
  | createKey (pc : String) (mapping : KeyMappingRequest)
  | updateKey (pc : String) (mapping : KeyMappingRequest)
  | deleteKey (pc : String)
  | createTypes (pc : String) (mappings : HashMap String TransferType)
  | updateTypes (pc : String) (mappings : HashMap String TransferType)
  | deleteTypes (pc : String)

section Calls
variable {lib : JsonWebToken} {σ : Type}

def Read.run (h : ManagementApiHandler σ) (fate : Fate) : Read → σ → Response
  | .signingKey id => h.getKeyMapping fate id
  | .transferTypes id => h.getTransferTypeMapping fate id

def Write.run (h : ManagementApiHandler σ) (fate : Fate) : Write → σ → Response × σ
  | .createKey pc mapping, s =>
    wrote 201 signingKeyMappingResponse (h.repo.create fate pc mapping s)
  | .updateKey pc mapping, s =>
    wrote 204 signingKeyMappingResponse (h.repo.update fate pc mapping s)
  | .deleteKey pc, s => wrote 204 signingKeyMappingResponse (h.repo.delete fate pc s)
  | .createTypes pc mappings, s =>
    wrote 201 (fun e => (ManagementApiError.transferType e).intoResponse)
      (h.transferTypeRepo.create fate pc mappings s)
  | .updateTypes pc mappings, s =>
    wrote 204 (fun e => (ManagementApiError.transferType e).intoResponse)
      (h.transferTypeRepo.update fate pc mappings s)
  | .deleteTypes pc, s => wrote 204 (fun e => (ManagementApiError.transferType e).intoResponse)
      (h.transferTypeRepo.delete fate pc s)

/-- The write that the request describes: its body can be read and its claim mappings are valid. -/
def ApiCall.submitted (checks : Checks) (c : ApiCall lib) : Option Write :=
  match c.method, c.route with
  | .post, .keyMappings => (extract deserializeSigningKeyMapping c.body).toOption.map fun mapping =>
      .createKey mapping.participantContextId ⟨mapping.keyName, mapping.kid⟩
  | .put, .keyMapping (.ok id) =>
    (extract KeyMappingRequest.deserialize c.body).toOption.map (.updateKey id)
  | .delete, .keyMapping (.ok id) => some (.deleteKey id)
  | .post, .transferTypeMappings =>
    ((extract TransferTypeMapping.deserialize c.body).toOption.filter fun mapping =>
      (validateTransferTypes checks mapping.mappings).isOk).map fun mapping =>
        .createTypes mapping.participantContextId mapping.mappings
  | .put, .transferTypeMapping (.ok id) =>
    ((extract (readMap TransferType.deserialize) c.body).toOption.filter fun mappings =>
      (validateTransferTypes checks mappings).isOk).map (.updateTypes id)
  | .delete, .transferTypeMapping (.ok id) => some (.deleteTypes id)
  | _, _ => none

/-- The layer lets the request through to a route without a participant context. -/
def ApiCall.Admitted (c : ApiCall lib) (layer : AuthLayer lib) : Prop :=
  ∃ params injected, params.get pathParamPcId = none ∧
    Server.call lib c.now layer (.ok params) c.authorization = .inner injected

/-- A request is refused without a look at the stores, or it is a read or a write that its layer
lets through. -/
inductive Routed (checks : Checks) (readAuth writeAuth : AuthLayer lib) (c : ApiCall lib) : Prop
  | refused (response : Response) (status : 400 ≤ response.status)
    (answer : ∀ (σ : Type) (h : ManagementApiHandler σ) s,
      h.router checks readAuth writeAuth c s = (response, s))
  | read (read : Read) (admitted : c.Admitted readAuth) (submitted : c.submitted checks = none)
    (answer : ∀ (σ : Type) (h : ManagementApiHandler σ) s,
      h.router checks readAuth writeAuth c s = (read.run h c.fate s, s))
  | head (read : Read) (admitted : c.Admitted readAuth) (submitted : c.submitted checks = none)
    (answer : ∀ (σ : Type) (h : ManagementApiHandler σ) s,
      h.router checks readAuth writeAuth c s = (⟨(read.run h c.fate s).status, .empty⟩, s))
  | write (write : Write) (admitted : c.Admitted writeAuth)
      (submitted : c.submitted checks = some write)
    (answer : ∀ (σ : Type) (h : ManagementApiHandler σ) s,
      h.router checks readAuth writeAuth c s = write.run h c.fate s)

theorem authError_status (e : AuthError) : 400 ≤ e.status := by
  cases e <;> simp [AuthError.status]

theorem call_refused {layer : AuthLayer lib} {now : ℤ}
    {path : Except String (HashMap String String)} {authorization : Option String} {status : ℕ}
    {message : String}
    (h : Server.call lib now layer path authorization = .response status message) :
    400 ≤ status := by
  unfold Server.call at h
  split at h
  · obtain ⟨rfl, -⟩ := Outcome.response.inj h
    exact le_refl _
  · split at h
    · exact absurd h (by simp)
    · split at h
      · obtain ⟨rfl, -⟩ := Outcome.response.inj h
        exact authError_status _
      · exact absurd h (by simp)
    · split at h
      · exact absurd h (by simp)
      · split at h
        · obtain ⟨rfl, -⟩ := Outcome.response.inj h
          exact authError_status _
        · exact absurd h (by simp)

theorem guarded_cases (layer : AuthLayer lib) (c : ApiCall lib) (params : HashMap String String)
    (hparams : params.get pathParamPcId = none) :
    (∃ response : Response, 400 ≤ response.status ∧ ∀ (σ : Type) (inner : σ → Response × σ) s,
      guarded layer c (.ok params) inner s = (response, s)) ∨
    c.Admitted layer ∧ ∀ (σ : Type) (inner : σ → Response × σ) s,
      guarded layer c (.ok params) inner s = inner s := by
  unfold guarded
  cases hcall : Server.call lib c.now layer (.ok params) c.authorization with
  | response status message =>
    exact Or.inl ⟨⟨status, .text message⟩, call_refused hcall, fun _ _ _ => rfl⟩
  | inner injected => exact Or.inr ⟨⟨params, injected, hparams, hcall⟩, fun _ _ _ => rfl⟩

theorem guardedId_cases (layer : AuthLayer lib) (c : ApiCall lib) (id : Except String String) :
    (∃ response : Response, 400 ≤ response.status ∧
      ∀ (σ : Type) (inner : String → σ → Response × σ) s,
      guardedId layer c id inner s = (response, s)) ∨
    ∃ pc, id = .ok pc ∧ c.Admitted layer ∧ ∀ (σ : Type) (inner : String → σ → Response × σ) s,
      guardedId layer c id inner s = inner pc s := by
  cases id with
  | error e => exact Or.inl ⟨⟨400, .text "missing path parameters"⟩, le_refl _, fun _ _ _ => rfl⟩
  | ok pc =>
    rcases guarded_cases layer c (HashMap.empty.insert "id" pc) (by simp [pathParamPcId]) with
      ⟨response, hstatus, hanswer⟩ | ⟨hadmitted, hanswer⟩
    · exact Or.inl ⟨response, hstatus, fun _ _ _ => hanswer _ _ _⟩
    · exact Or.inr ⟨pc, rfl, hadmitted, fun _ _ _ => hanswer _ _ _⟩

theorem extract_cases {α : Type} (read : Value → Except JsonError α) (body : RequestBody) :
    (∃ response : Response, 400 ≤ response.status ∧ extract read body = .error response) ∨
      ∃ x, extract read body = .ok x := by
  cases body with
  | error rejection =>
    exact Or.inl ⟨_, by cases rejection <;> simp [JsonRejection.intoResponse], rfl⟩
  | ok document =>
    cases hread : read document with
    | ok x => exact Or.inr ⟨x, by simp [extract, hread, Except.mapError]⟩
    | error e =>
      refine Or.inl
        ⟨⟨jsonErrorStatus e, .rejection e⟩, ?_, by simp [extract, hread, Except.mapError]⟩
      cases e <;> simp [jsonErrorStatus]

theorem validateTransferTypes_cases (checks : Checks) (mappings : HashMap String TransferType) :
    (∃ e, 400 ≤ e.intoResponse.status ∧ validateTransferTypes checks mappings = .error e) ∨
      validateTransferTypes checks mappings = .ok () := by
  unfold validateTransferTypes
  dsimp only
  split
  · exact Or.inr rfl
  · exact Or.inl ⟨_, le_refl _, rfl⟩

/-- A handler that writes refuses the body, or does what the body says. -/
def Handles (submitted : Option Write)
    (inner : (σ : Type) → ManagementApiHandler σ → Fate → σ → Response × σ) : Prop :=
  (∃ response : Response, 400 ≤ response.status ∧ ∀ (σ : Type) (h : ManagementApiHandler σ) fate s,
      inner σ h fate s = (response, s)) ∨
    ∃ write, submitted = some write ∧ ∀ (σ : Type) (h : ManagementApiHandler σ) fate s,
      inner σ h fate s = write.run h fate s

theorem handles_createKeyMapping (body : RequestBody) :
    Handles ((extract deserializeSigningKeyMapping body).toOption.map fun mapping =>
      .createKey mapping.participantContextId ⟨mapping.keyName, mapping.kid⟩)
      fun _ h fate s => h.createKeyMapping fate body s := by
  rcases extract_cases deserializeSigningKeyMapping body with
    ⟨response, hstatus, hbody⟩ | ⟨mapping, hbody⟩
  · exact Or.inl
      ⟨response, hstatus, fun σ h fate s => by simp [ManagementApiHandler.createKeyMapping, hbody]⟩
  · refine Or.inr ⟨.createKey mapping.participantContextId ⟨mapping.keyName, mapping.kid⟩,
      ?_, fun σ h fate s => ?_⟩
    · simp [hbody, Except.toOption]
    · simp [ManagementApiHandler.createKeyMapping, hbody, Write.run]

theorem handles_updateKeyMapping (pc : String) (body : RequestBody) :
    Handles ((extract KeyMappingRequest.deserialize body).toOption.map (.updateKey pc))
      fun _ h fate s => h.updateKeyMapping fate pc body s := by
  rcases extract_cases KeyMappingRequest.deserialize body with
    ⟨response, hstatus, hbody⟩ | ⟨mapping, hbody⟩
  · exact Or.inl
      ⟨response, hstatus, fun σ h fate s => by simp [ManagementApiHandler.updateKeyMapping, hbody]⟩
  · refine Or.inr ⟨.updateKey pc mapping, by simp [hbody, Except.toOption], fun σ h fate s => ?_⟩
    simp [ManagementApiHandler.updateKeyMapping, hbody, Write.run]

theorem handles_createTransferTypeMapping (checks : Checks) (body : RequestBody) :
    Handles (((extract TransferTypeMapping.deserialize body).toOption.filter fun mapping =>
        (validateTransferTypes checks mapping.mappings).isOk).map fun mapping =>
          .createTypes mapping.participantContextId mapping.mappings)
      fun _ h fate s => h.createTransferTypeMapping checks fate body s := by
  rcases extract_cases TransferTypeMapping.deserialize body with
    ⟨response, hstatus, hbody⟩ | ⟨mapping, hbody⟩
  · exact Or.inl
      ⟨response, hstatus,
        fun σ h fate s => by simp [ManagementApiHandler.createTransferTypeMapping, hbody]⟩
  · rcases validateTransferTypes_cases checks mapping.mappings with ⟨e, hstatus, hinvalid⟩ | hvalid
    · exact Or.inl ⟨_, hstatus, fun σ h fate s => by
        simp [ManagementApiHandler.createTransferTypeMapping, hbody, hinvalid]⟩
    · refine Or.inr ⟨.createTypes mapping.participantContextId mapping.mappings,
        ?_, fun σ h fate s => ?_⟩
      · simp [hbody, Except.toOption, hvalid, Except.isOk, Except.toBool]
      · simp [ManagementApiHandler.createTransferTypeMapping, hbody, hvalid, Write.run]

theorem handles_updateTransferTypeMapping (checks : Checks) (pc : String) (body : RequestBody) :
    Handles (((extract (readMap TransferType.deserialize) body).toOption.filter fun mappings =>
        (validateTransferTypes checks mappings).isOk).map (.updateTypes pc))
      fun _ h fate s => h.updateTransferTypeMapping checks fate pc body s := by
  rcases extract_cases (readMap TransferType.deserialize) body with
    ⟨response, hstatus, hbody⟩ | ⟨mappings, hbody⟩
  · exact Or.inl
      ⟨response, hstatus,
        fun σ h fate s => by simp [ManagementApiHandler.updateTransferTypeMapping, hbody]⟩
  · rcases validateTransferTypes_cases checks mappings with ⟨e, hstatus, hinvalid⟩ | hvalid
    · exact Or.inl ⟨_, hstatus, fun σ h fate s => by
        simp [ManagementApiHandler.updateTransferTypeMapping, hbody, hinvalid]⟩
    · refine Or.inr ⟨.updateTypes pc mappings, ?_, fun σ h fate s => ?_⟩
      · simp [hbody, Except.toOption, hvalid, Except.isOk, Except.toBool]
      · simp [ManagementApiHandler.updateTransferTypeMapping, hbody, hvalid, Write.run]

section Routes
variable {checks : Checks} {readAuth writeAuth : AuthLayer lib} {c : ApiCall lib}

/-- A handler that writes behind the layer of the writes. -/
theorem Handles.routed {inner : (σ : Type) → ManagementApiHandler σ → Fate → σ → Response × σ}
    (h : Handles (c.submitted checks) inner) (admitted : c.Admitted writeAuth)
    (answer : ∀ (σ : Type) (h : ManagementApiHandler σ) s,
      h.router checks readAuth writeAuth c s = inner σ h c.fate s) :
        Routed checks readAuth writeAuth c := by
  rcases h with ⟨response, hstatus, hrefused⟩ | ⟨write, hsubmitted, hrun⟩
  · exact .refused response hstatus fun σ h s => (answer σ h s).trans (hrefused σ h c.fate s)
  · exact .write write admitted hsubmitted fun σ h s => (answer σ h s).trans (hrun σ h c.fate s)

theorem routed_create {inner : (σ : Type) → ManagementApiHandler σ → Fate → σ → Response × σ}
    (h : Handles (c.submitted checks) inner) (hrouter : ∀ (σ : Type) (h : ManagementApiHandler σ) s,
      h.router checks readAuth writeAuth c s =
        guarded writeAuth c (.ok HashMap.empty) (inner σ h c.fate) s) :
    Routed checks readAuth writeAuth c := by
  rcases guarded_cases writeAuth c HashMap.empty rfl with
    ⟨response, hstatus, hanswer⟩ | ⟨hadmitted, hanswer⟩
  · exact .refused response hstatus fun σ h s => (hrouter σ h s).trans (hanswer σ _ s)
  · exact h.routed hadmitted fun σ h s => (hrouter σ h s).trans (hanswer σ _ s)

theorem routed_write {id : Except String String}
    (inner : String → (σ : Type) → ManagementApiHandler σ → Fate → σ → Response × σ)
    (h : ∀ pc, id = .ok pc → Handles (c.submitted checks) (inner pc))
    (hrouter : ∀ (σ : Type) (h : ManagementApiHandler σ) s,
      h.router checks readAuth writeAuth c s =
        guardedId writeAuth c id (fun pc => inner pc σ h c.fate) s) :
    Routed checks readAuth writeAuth c := by
  rcases guardedId_cases writeAuth c id with
    ⟨response, hstatus, hanswer⟩ | ⟨pc, hid, hadmitted, hanswer⟩
  · exact .refused response hstatus fun σ h s => (hrouter σ h s).trans (hanswer σ _ s)
  · exact (h pc hid).routed hadmitted fun σ h s => (hrouter σ h s).trans (hanswer σ _ s)

theorem routed_read {id : Except String String} (read : String → Read)
    (hsubmitted : c.submitted checks = none)
    (hrouter : ∀ (σ : Type) (h : ManagementApiHandler σ) s, h.router checks readAuth writeAuth c s =
      guardedId readAuth c id (fun pc s => ((read pc).run h c.fate s, s)) s) :
        Routed checks readAuth writeAuth c := by
  rcases guardedId_cases readAuth c id with
    ⟨response, hstatus, hanswer⟩ | ⟨pc, -, hadmitted, hanswer⟩
  · exact .refused response hstatus fun σ h s => (hrouter σ h s).trans (hanswer σ _ s)
  · exact .read (read pc) hadmitted hsubmitted fun σ h s => (hrouter σ h s).trans (hanswer σ _ s)

theorem routed_head {id : Except String String} (read : String → Read)
    (hsubmitted : c.submitted checks = none)
    (hrouter : ∀ (σ : Type) (h : ManagementApiHandler σ) s, h.router checks readAuth writeAuth c s =
      (⟨(guardedId readAuth c id (fun pc s => ((read pc).run h c.fate s, s)) s).1.status, .empty⟩,
        (guardedId readAuth c id (fun pc s => ((read pc).run h c.fate s, s)) s).2)) :
    Routed checks readAuth writeAuth c := by
  rcases guardedId_cases readAuth c id with
    ⟨response, hstatus, hanswer⟩ | ⟨pc, -, hadmitted, hanswer⟩
  · refine .refused ⟨response.status, .empty⟩ hstatus fun σ h s => ?_
    rw [hrouter, hanswer]
  · refine .head (read pc) hadmitted hsubmitted fun σ h s => ?_
    rw [hrouter, hanswer]

end Routes

/-- All that can become of a request. -/
theorem routed (checks : Checks) (readAuth writeAuth : AuthLayer lib) (c : ApiCall lib) :
    Routed checks readAuth writeAuth c := by
  obtain ⟨now, fetchJwks, fate, method, route, authorization, body⟩ := c
  cases route with
  | unmatched => exact .refused ⟨404, .empty⟩ (by simp) fun _ _ _ => by cases method <;> rfl
  | keyMappings =>
    cases method with
    | post => exact routed_create (handles_createKeyMapping body) fun _ _ _ => rfl
    | get | head | put | delete | other => exact .refused ⟨405, .empty⟩ (by simp) fun _ _ _ => rfl
  | keyMapping id =>
    cases method with
    | get => exact routed_read .signingKey rfl fun _ _ _ => rfl
    | head => exact routed_head .signingKey rfl fun _ _ _ => rfl
    | put =>
      refine routed_write (fun pc _ h fate s => h.updateKeyMapping fate pc body s)
        (fun pc hid => ?_) fun _ _ _ => rfl
      subst hid
      exact handles_updateKeyMapping pc body
    | delete =>
      refine routed_write (fun pc _ h fate s => h.deleteKeyMapping fate pc s)
        (fun pc hid => ?_) fun _ _ _ => rfl
      subst hid
      exact Or.inr ⟨.deleteKey pc, rfl, fun _ _ _ _ => rfl⟩
    | post | other => exact .refused ⟨405, .empty⟩ (by simp) fun _ _ _ => rfl
  | transferTypeMappings =>
    cases method with
    | post => exact routed_create (handles_createTransferTypeMapping checks body) fun _ _ _ => rfl
    | get | head | put | delete | other => exact .refused ⟨405, .empty⟩ (by simp) fun _ _ _ => rfl
  | transferTypeMapping id =>
    cases method with
    | get => exact routed_read .transferTypes rfl fun _ _ _ => rfl
    | head => exact routed_head .transferTypes rfl fun _ _ _ => rfl
    | put =>
      refine routed_write (fun pc _ h fate s => h.updateTransferTypeMapping checks fate pc body s)
        (fun pc hid => ?_) fun _ _ _ => rfl
      subst hid
      exact handles_updateTransferTypeMapping checks pc body
    | delete =>
      refine routed_write (fun pc _ h fate s => h.deleteTransferTypeMapping fate pc s)
        (fun pc hid => ?_) fun _ _ _ => rfl
      subst hid
      exact Or.inr ⟨.deleteTypes pc, rfl, fun _ _ _ _ => rfl⟩
    | post | other => exact .refused ⟨405, .empty⟩ (by simp) fun _ _ _ => rfl

end Calls
end Facet.Siglet
