import Facet.Serde
import Facet.SigletConfig
import Facet.JwtGenerator

/-!
# The JSON form of the mappings

Transfer types and signing keys as they stand in the bodies of the management API and in a column of
the database: the members in camelCase when they are written, and also in snake_case when they are
read. The database keeps a document, but neither the order of its members nor their spacing.
-/
namespace Facet

inductive JsonError
  | duplicateField (field : String)
  | missingField (field : String)
  | invalidType
  | unknownVariant (name : String)
  | invalidLength
  | trailingElements
  deriving DecidableEq, Repr

/-- The document with its members in another order. -/
inductive Value.Reordered : Value → Value → Prop
  | null : Reordered .null .null
  | bool (b : Bool) : Reordered (.bool b) (.bool b)
  | number (mantissa exponent : ℤ) :
      Reordered (.number mantissa exponent) (.number mantissa exponent)
  | string (s : String) : Reordered (.string s) (.string s)
  | array {items items' : List Value} (related : List.Forall₂ Reordered items items') :
    Reordered (.array items) (.array items')
  | object {members mid members' : List (String × Value)}
      (names : members.map Prod.fst = mid.map Prod.fst)
    (related : List.Forall₂ Reordered (members.map Prod.snd) (mid.map Prod.snd))
    (perm : mid.Perm members') :
    Reordered (.object members) (.object members')

theorem Value.Reordered.eq_null {v : Value} (h : v.Reordered .null) : v = .null := by
  cases h
  rfl

namespace Serde

def readText : Value → Except JsonError String
  | .string s => .ok s
  | _ => .error .invalidType

def readBool : Value → Except JsonError Bool
  | .bool b => .ok b
  | _ => .error .invalidType

def readOptional {α : Type} (read : Value → Except JsonError α) :
    Value → Except JsonError (Option α)
  | .null => .ok none
  | v => (read v).map some

def readVec {α : Type} (read : Value → Except JsonError α) : Value → Except JsonError (List α)
  | .array items => items.mapM read
  | _ => .error .invalidType

/-- The last one of the members of a name counts. -/
def readMap {α : Type} (read : Value → Except JsonError α) :
    Value → Except JsonError (HashMap String α)
  | .object members =>
    members.foldlM (fun m member => (read member.2).map fun x => m.insert member.1 x) HashMap.empty
  | _ => .error .invalidType

/-- A struct: the fields by name, or in their order; the first `required` ones have no default
there. -/
def readStruct {ι S : Type} {T : ι → Type} [DecidableEq ι] (schema : Schema ι Value JsonError T)
    (fields : List ι) (required : ℕ) (build : ((i : ι) → Option (T i)) → Except JsonError S) :
    Value → Except JsonError S
  | .object members => schema.collect members >>= build
  | .array items => do
    let slots ← schema.collectSeq fields items
    if items.length < required then .error .invalidLength
    else if fields.length < items.length then .error .trailingElements
    else build slots
  | _ => .error .invalidType

def writeOption {α : Type} (write : α → Value) (x : Option α) : Value := (x.map write).getD .null

def writeVec {α : Type} (write : α → Value) (xs : List α) : Value := .array (xs.map write)

def writeMap {α : Type} (write : α → Value) (m : HashMap String α) : Value :=
  .object (m.entries.map fun entry => (entry.1, write entry.2))

/-! ## Reading back what was written -/

/-- What is written is read, whatever became of the order of the members. -/
def ReadsBack {α : Type} (write : α → Value) (read : Value → Except JsonError α) : Prop :=
  ∀ x v, (write x).Reordered v → read v = .ok x

theorem readsBack_text : ReadsBack .string readText := by
  intro s v h
  cases h
  rfl

theorem readsBack_bool : ReadsBack .bool readBool := by
  intro b v h
  cases h
  rfl

section Combinators
variable {α : Type} {write : α → Value} {read : Value → Except JsonError α}

theorem readOptional_of_ne {v : Value} (hv : v ≠ .null) :
    readOptional read v = (read v).map some := by
  cases v with
  | null => exact absurd rfl hv
  | bool | number | string | array | object => rfl

theorem readsBack_optional (h : ReadsBack write read) (hnull : ∀ x, write x ≠ .null) :
    ReadsBack (writeOption write) (readOptional read) := by
  intro x v hv
  cases x with
  | none =>
    cases hv
    rfl
  | some x =>
    have hne : v ≠ .null := by
      rintro rfl
      exact hnull x hv.eq_null
    rw [readOptional_of_ne hne, h x v hv]
    rfl

theorem mapM_of_related (h : ReadsBack write read) {xs : List α} {items : List Value}
    (hitems : List.Forall₂ Value.Reordered (xs.map write) items) : items.mapM read = .ok xs := by
  induction xs generalizing items with
  | nil =>
    obtain rfl := List.forall₂_nil_left_iff.mp hitems
    rfl
  | cons x xs ih =>
    obtain ⟨item, rest, hitem, hrest, rfl⟩ := List.forall₂_cons_left_iff.mp hitems
    rw [List.mapM_cons, h x item hitem, ih hrest]
    rfl

theorem readsBack_vec (h : ReadsBack write read) : ReadsBack (writeVec write) (readVec read) := by
  intro xs v hv
  cases hv with
  | array hitems => exact mapM_of_related h hitems

/-- A struct from the members that it was written with. -/
theorem readStruct_of_reordered {ι S : Type} {T : ι → Type} [DecidableEq ι]
    {schema : Schema ι Value JsonError T} {fields : List ι} {required : ℕ}
    {build : ((i : ι) → Option (T i)) → Except JsonError S} {members : List (String × Value)}
    {v : Value} (h : (Value.object members).Reordered v) (slots : (i : ι) → Option (T i))
    (hread : ∀ i values, List.Forall₂ Value.Reordered (schema.given members i) values →
      Schema.Fills (schema.read i) values (slots i)) :
        readStruct schema fields required build v = build slots := by
  cases h with
  | object hnames hvalues hperm =>
    rw [readStruct, schema.collect_related hnames hvalues hperm hread]
    rfl

/-- The one value of a field. -/
theorem fills_readsBack (h : ReadsBack write read) {x : α} {values : List Value}
    (hvalues : List.Forall₂ Value.Reordered [write x] values) :
    Schema.Fills read values (some x) := by
  obtain ⟨v, rest, hv, hrest, rfl⟩ := List.forall₂_cons_left_iff.mp hvalues
  obtain rfl := List.forall₂_nil_left_iff.mp hrest
  exact .once (h x v hv)

theorem foldlM_insert {entries : List (String × α)} {members : List (String × Value)}
    (h : List.Forall₂ (fun entry member => entry.1 = member.1 ∧ read member.2 = .ok entry.2)
      entries members)
    (m : HashMap String α) :
    members.foldlM (fun m member => (read member.2).map fun x => m.insert member.1 x) m =
      .ok (entries.foldl (fun m entry => m.insert entry.1 entry.2) m) := by
  induction h generalizing m with
  | nil => rfl
  | cons hentry _ ih =>
    rw [List.foldlM_cons, hentry.2, List.foldl_cons, hentry.1]
    exact ih _

theorem forall₂_of_related (h : ReadsBack write read) {entries : List (String × α)}
    {members : List (String × Value)} (hnames : entries.map Prod.fst = members.map Prod.fst)
    (hvalues : List.Forall₂ Value.Reordered (entries.map fun entry => write entry.2)
      (members.map Prod.snd)) :
    List.Forall₂ (fun entry member => entry.1 = member.1 ∧ read member.2 = .ok entry.2)
      entries members := by
  induction entries generalizing members with
  | nil =>
    obtain rfl := List.map_eq_nil_iff.mp hnames.symm
    exact .nil
  | cons entry entries ih =>
    cases members with
    | nil => exact absurd hnames (by simp)
    | cons member members =>
      simp only [List.map_cons, List.cons.injEq, List.forall₂_cons] at hnames hvalues
      exact .cons ⟨hnames.1, h _ _ hvalues.1⟩ (ih hnames.2 hvalues.2)

/-- A map is read as one with the same entries. -/
theorem readMap_of_reordered (h : ReadsBack write read) {m : HashMap String α} {v : Value}
    (hv : (writeMap write m).Reordered v) :
    ∃ m', readMap read v = .ok m' ∧ ∀ k, m'.get k = m.get k := by
  cases hv with
  | @object _ mid members hnames hvalues hperm =>
    rw [List.map_map] at hnames hvalues
    obtain ⟨entries, hentries, hsame⟩ :=
      List.perm_comp_forall₂ hperm.symm (forall₂_of_related h hnames hvalues).flip
    have hnodup : (entries.map Prod.fst).Nodup := (hsame.map Prod.fst).nodup_iff.mpr m.nodup
    refine ⟨_, foldlM_insert hentries.flip HashMap.empty, ?_⟩
    intro k
    rw [HashMap.get_foldl_insert hnodup, HashMap.get_empty, Option.or_none]
    ext x
    rw [HashMap.find?_eq_of_nodup hnodup, HashMap.get_eq_some_iff, hsame.mem_iff]

end Combinators

/-! ## What the members say -/

section Members
variable {α : Type} (read : Value → Except JsonError α) (names : List String)
  (members : List (String × Value))

/-- The values of the members under one of the names. -/
def valuesUnder : List Value :=
  (members.filter fun member => decide (member.1 ∈ names)).map Prod.snd

/-- One member has one of the names, and its value is read as `x`. -/
def Required (x : α) : Prop := ∃ v, valuesUnder names members = [v] ∧ read v = .ok x

/-- As before, or no member has one of the names. -/
def Defaulted (default x : α) : Prop := valuesUnder names members = [] ∧ x = default ∨
    Required read names members x

variable {read names members}

theorem required_iff {x : α} :
    Required read names members x ↔ Schema.Fills read (valuesUnder names members) (some x) := by
  constructor
  · rintro ⟨v, hvalues, hread⟩
    rw [hvalues]
    exact .once hread
  · intro h
    generalize hvalues : valuesUnder names members = values at h
    cases h with
    | once hread => exact ⟨_, hvalues, hread⟩

theorem defaulted_iff {default x : α} : Defaulted read names members default x ↔
    ∃ slot : Option α, Schema.Fills read (valuesUnder names members) slot ∧
      slot.getD default = x := by
  rw [Defaulted, required_iff]
  constructor
  · rintro (⟨hnone, rfl⟩ | hfills)
    · exact ⟨none, hnone ▸ .absent, rfl⟩
    · exact ⟨some x, hfills, rfl⟩
  · rintro ⟨slot, hfills, rfl⟩
    cases slot with
    | none =>
      refine Or.inl ⟨?_, rfl⟩
      generalize valuesUnder names members = values at hfills
      cases hfills
      rfl
    | some x => exact Or.inr hfills

theorem given_eq_valuesUnder {ι : Type} {T : ι → Type} [DecidableEq ι]
    {schema : Schema ι Value JsonError T} {i : ι}
    (h : ∀ name, schema.field name = some i ↔ name ∈ names) :
    schema.given members i = valuesUnder names members := by
  simp [Schema.given, valuesUnder, h]

end Members
end Serde

namespace Siglet
open Serde

/-! ## Claim mappings -/

namespace ClaimMapping

inductive Field
  | «from»
  | «to»
  | optional
  deriving DecidableEq

abbrev Slot : Field → Type
  | .from | .to => String
  | .optional => Bool

def fieldOf : String → Option Field
  | "from" => some .from
  | "to" => some .to
  | "optional" => some .optional
  | _ => none

def schema : Schema Field Value JsonError Slot where
  field := fieldOf
  read
    | .from | .to => readText
    | .optional => readBool
  duplicate
    | .from => .duplicateField "from"
    | .to => .duplicateField "to"
    | .optional => .duplicateField "optional"

def build (slots : (i : Field) → Option (Slot i)) : Except JsonError ClaimMapping := do
  let source ← okOr (slots .from) (.missingField "from")
  let target ← okOr (slots .to) (.missingField "to")
  return ⟨source, target, (slots .optional).getD false⟩

def deserialize : Value → Except JsonError ClaimMapping :=
  readStruct schema [.from, .to, .optional] 2 build

def serialize (mapping : ClaimMapping) : Value :=
  .object [("from", .string mapping.from), ("to", .string mapping.to),
    ("optional", .bool mapping.optional)]

def slots (mapping : ClaimMapping) : (i : Field) → Option (Slot i)
  | .from => some mapping.from
  | .to => some mapping.to
  | .optional => some mapping.optional

theorem readsBack : ReadsBack serialize deserialize := by
  intro mapping v h
  refine (readStruct_of_reordered h mapping.slots ?_).trans rfl
  intro i values hvalues
  cases i with
  | «from» => exact fills_readsBack readsBack_text hvalues
  | «to» => exact fills_readsBack readsBack_text hvalues
  | optional => exact fills_readsBack readsBack_bool hvalues

end ClaimMapping

/-! ## Endpoint mappings -/

namespace EndpointMapping

inductive Field
  | key
  | value
  | endpoint
  | claimMappings
  deriving DecidableEq

abbrev Slot : Field → Type
  | .key | .value | .endpoint => String
  | .claimMappings => List ClaimMapping

def fieldOf : String → Option Field
  | "key" => some .key
  | "value" => some .value
  | "endpoint" => some .endpoint
  | "claimMappings" | "claim_mappings" => some .claimMappings
  | _ => none

def schema : Schema Field Value JsonError Slot where
  field := fieldOf
  read
    | .key | .value | .endpoint => readText
    | .claimMappings => readVec ClaimMapping.deserialize
  duplicate
    | .key => .duplicateField "key"
    | .value => .duplicateField "value"
    | .endpoint => .duplicateField "endpoint"
    | .claimMappings => .duplicateField "claimMappings"

def build (slots : (i : Field) → Option (Slot i)) : Except JsonError EndpointMapping := do
  let key ← okOr (slots .key) (.missingField "key")
  let value ← okOr (slots .value) (.missingField "value")
  let endpoint ← okOr (slots .endpoint) (.missingField "endpoint")
  return ⟨key, value, endpoint, (slots .claimMappings).getD []⟩

def deserialize : Value → Except JsonError EndpointMapping :=
  readStruct schema [.key, .value, .endpoint, .claimMappings] 3 build

def serialize (mapping : EndpointMapping) : Value :=
  .object [("key", .string mapping.key), ("value", .string mapping.value),
    ("endpoint", .string mapping.endpoint),
    ("claimMappings", writeVec ClaimMapping.serialize mapping.claimMappings)]

def slots (mapping : EndpointMapping) : (i : Field) → Option (Slot i)
  | .key => some mapping.key
  | .value => some mapping.value
  | .endpoint => some mapping.endpoint
  | .claimMappings => some mapping.claimMappings

theorem readsBack : ReadsBack serialize deserialize := by
  intro mapping v h
  refine (readStruct_of_reordered h mapping.slots ?_).trans rfl
  intro i values hvalues
  cases i with
  | key => exact fills_readsBack readsBack_text hvalues
  | value => exact fills_readsBack readsBack_text hvalues
  | endpoint => exact fills_readsBack readsBack_text hvalues
  | claimMappings => exact fills_readsBack (readsBack_vec ClaimMapping.readsBack) hvalues

end EndpointMapping

/-! ## Transfer types -/

def TokenSource.ofName : String → Except JsonError TokenSource
  | "client" => .ok .client
  | "provider" => .ok .provider
  | name => .error (.unknownVariant name)

/-- A variant without data is its name, or an object of the name and `null`. -/
def TokenSource.deserialize : Value → Except JsonError TokenSource
  | .string name => TokenSource.ofName name
  | .object [(name, .null)] => TokenSource.ofName name
  | _ => .error .invalidType

def TokenSource.serialize : TokenSource → Value
  | .client => .string "client"
  | .provider => .string "provider"

theorem TokenSource.readsBack : ReadsBack TokenSource.serialize TokenSource.deserialize := by
  intro source v h
  cases source with
  | client =>
    cases h
    rfl
  | provider =>
    cases h
    rfl

namespace TransferType

inductive Field
  | transferType
  | endpointType
  | endpoint
  | tokenSource
  | endpointMappings
  | txRenewalSupport
  | claimMappings
  deriving DecidableEq

abbrev Slot : Field → Type
  | .transferType | .endpointType => String
  | .endpoint => Option String
  | .tokenSource => TokenSource
  | .endpointMappings => List EndpointMapping
  | .txRenewalSupport => Bool
  | .claimMappings => List ClaimMapping

def fieldOf : String → Option Field
  | "transferType" | "transfer_type" => some .transferType
  | "endpointType" | "endpoint_type" => some .endpointType
  | "endpoint" => some .endpoint
  | "tokenSource" | "token_source" => some .tokenSource
  | "endpointMappings" | "endpoint_mappings" => some .endpointMappings
  | "txRenewalSupport" | "tx_renewal_support" => some .txRenewalSupport
  | "claimMappings" | "claim_mappings" => some .claimMappings
  | _ => none

def schema : Schema Field Value JsonError Slot where
  field := fieldOf
  read
    | .transferType | .endpointType => readText
    | .endpoint => readOptional readText
    | .tokenSource => TokenSource.deserialize
    | .endpointMappings => readVec EndpointMapping.deserialize
    | .txRenewalSupport => readBool
    | .claimMappings => readVec ClaimMapping.deserialize
  duplicate
    | .transferType => .duplicateField "transferType"
    | .endpointType => .duplicateField "endpointType"
    | .endpoint => .duplicateField "endpoint"
    | .tokenSource => .duplicateField "tokenSource"
    | .endpointMappings => .duplicateField "endpointMappings"
    | .txRenewalSupport => .duplicateField "txRenewalSupport"
    | .claimMappings => .duplicateField "claimMappings"

/-- An endpoint that is not there is none. -/
def build (slots : (i : Field) → Option (Slot i)) : Except JsonError TransferType := do
  let transferType ← okOr (slots .transferType) (.missingField "transferType")
  let endpointType ← okOr (slots .endpointType) (.missingField "endpointType")
  return {
    transferType := transferType
    endpointType := endpointType
    endpoint := (slots .endpoint).getD none
    tokenSource := (slots .tokenSource).getD .provider
    endpointMappings := (slots .endpointMappings).getD []
    txRenewalSupport := (slots .txRenewalSupport).getD false
    claimMappings := (slots .claimMappings).getD [] }

def deserialize : Value → Except JsonError TransferType :=
  readStruct schema
    [.transferType, .endpointType, .endpoint, .tokenSource, .endpointMappings, .txRenewalSupport,
      .claimMappings] 3 build

def serialize (tt : TransferType) : Value :=
  .object [("transferType", .string tt.transferType), ("endpointType", .string tt.endpointType),
    ("endpoint", writeOption .string tt.endpoint), ("tokenSource", tt.tokenSource.serialize),
    ("endpointMappings", writeVec EndpointMapping.serialize tt.endpointMappings),
    ("txRenewalSupport", .bool tt.txRenewalSupport),
    ("claimMappings", writeVec ClaimMapping.serialize tt.claimMappings)]

def slots (tt : TransferType) : (i : Field) → Option (Slot i)
  | .transferType => some tt.transferType
  | .endpointType => some tt.endpointType
  | .endpoint => some tt.endpoint
  | .tokenSource => some tt.tokenSource
  | .endpointMappings => some tt.endpointMappings
  | .txRenewalSupport => some tt.txRenewalSupport
  | .claimMappings => some tt.claimMappings

theorem readsBack : ReadsBack serialize deserialize := by
  intro tt v h
  refine (readStruct_of_reordered h tt.slots ?_).trans rfl
  intro i values hvalues
  cases i with
  | transferType => exact fills_readsBack readsBack_text hvalues
  | endpointType => exact fills_readsBack readsBack_text hvalues
  | endpoint => exact fills_readsBack (readsBack_optional readsBack_text (by simp)) hvalues
  | tokenSource => exact fills_readsBack TokenSource.readsBack hvalues
  | endpointMappings => exact fills_readsBack (readsBack_vec EndpointMapping.readsBack) hvalues
  | txRenewalSupport => exact fills_readsBack readsBack_bool hvalues
  | claimMappings => exact fills_readsBack (readsBack_vec ClaimMapping.readsBack) hvalues

/-- The names of a field, as it is written first. -/
def Field.names : Field → List String
  | .transferType => ["transferType", "transfer_type"]
  | .endpointType => ["endpointType", "endpoint_type"]
  | .endpoint => ["endpoint"]
  | .tokenSource => ["tokenSource", "token_source"]
  | .endpointMappings => ["endpointMappings", "endpoint_mappings"]
  | .txRenewalSupport => ["txRenewalSupport", "tx_renewal_support"]
  | .claimMappings => ["claimMappings", "claim_mappings"]

theorem fieldOf_eq_some {name : String} {i : Field} : fieldOf name = some i ↔ name ∈ i.names := by
  constructor
  · intro h
    unfold fieldOf at h
    split at h
    all_goals first | cases h; simp [Field.names] | exact absurd h (by simp)
  · intro h
    cases i
    all_goals
      simp only [Field.names, List.mem_cons, List.not_mem_nil, or_false] at h
      rcases h with rfl | rfl
    all_goals rfl

/-- What the members of an object say of the fields. -/
structure Describes (members : List (String × Value)) (tt : TransferType) : Prop where
  transferType : Required readText ["transferType", "transfer_type"] members tt.transferType
  endpointType : Required readText ["endpointType", "endpoint_type"] members tt.endpointType
  endpoint : Defaulted (readOptional readText) ["endpoint"] members none tt.endpoint
  tokenSource :
    Defaulted TokenSource.deserialize
      ["tokenSource", "token_source"] members .provider tt.tokenSource
  endpointMappings :
    Defaulted (readVec EndpointMapping.deserialize)
      ["endpointMappings", "endpoint_mappings"] members []
      tt.endpointMappings
  txRenewalSupport :
    Defaulted readBool ["txRenewalSupport", "tx_renewal_support"] members false tt.txRenewalSupport
  claimMappings :
    Defaulted (readVec ClaimMapping.deserialize) ["claimMappings", "claim_mappings"] members []
      tt.claimMappings

theorem build_eq_ok {slots : (i : Field) → Option (Slot i)} {tt : TransferType} :
    build slots = .ok tt ↔
    slots .transferType = some tt.transferType ∧ slots .endpointType = some tt.endpointType ∧
    (slots .endpoint).getD none = tt.endpoint ∧
    (slots .tokenSource).getD .provider = tt.tokenSource ∧
    (slots .endpointMappings).getD [] = tt.endpointMappings ∧
    (slots .txRenewalSupport).getD false = tt.txRenewalSupport ∧
    (slots .claimMappings).getD [] = tt.claimMappings := by
  unfold build
  simp only [bind_eq_ok, okOr_eq_ok, pure, Except.pure, Except.ok.injEq]
  constructor
  · rintro ⟨_, htype, _, hendpointType, rfl⟩
    exact ⟨htype, hendpointType, rfl, rfl, rfl, rfl, rfl⟩
  · rintro ⟨htype, hendpointType, hendpoint, hsource, hmappings, hsupport, hclaims⟩
    refine ⟨_, htype, _, hendpointType, ?_⟩
    rw [hendpoint, hsource, hmappings, hsupport, hclaims]

/-- An object is a transfer type when its members describe one, whatever their order and spelling
and whatever other members there are. -/
theorem deserialize_object_iff (members : List (String × Value)) (tt : TransferType) :
    deserialize (.object members) = .ok tt ↔ Describes members tt := by
  have hgiven : ∀ i, schema.given members i = valuesUnder i.names members := fun i =>
    given_eq_valuesUnder fun name => fieldOf_eq_some
  rw [deserialize, readStruct, bind_eq_ok]
  simp only [Schema.collect_eq_ok, build_eq_ok, hgiven]
  constructor
  · rintro ⟨slots, hfills, htype, hendpointType, hendpoint, hsource, hmappings, hsupport, hclaims⟩
    exact {
      transferType := required_iff.mpr (htype ▸ hfills .transferType)
      endpointType := required_iff.mpr (hendpointType ▸ hfills .endpointType)
      endpoint := defaulted_iff.mpr ⟨_, hfills .endpoint, hendpoint⟩
      tokenSource := defaulted_iff.mpr ⟨_, hfills .tokenSource, hsource⟩
      endpointMappings := defaulted_iff.mpr ⟨_, hfills .endpointMappings, hmappings⟩
      txRenewalSupport := defaulted_iff.mpr ⟨_, hfills .txRenewalSupport, hsupport⟩
      claimMappings := defaulted_iff.mpr ⟨_, hfills .claimMappings, hclaims⟩ }
  · intro h
    obtain ⟨endpoint, hendpoint, hendpoint'⟩ := defaulted_iff.mp h.endpoint
    obtain ⟨source, hsource, hsource'⟩ := defaulted_iff.mp h.tokenSource
    obtain ⟨mappings, hmappings, hmappings'⟩ := defaulted_iff.mp h.endpointMappings
    obtain ⟨support, hsupport, hsupport'⟩ := defaulted_iff.mp h.txRenewalSupport
    obtain ⟨claims, hclaims, hclaims'⟩ := defaulted_iff.mp h.claimMappings
    let slots : (i : Field) → Option (Slot i) := fun
      | .transferType => some tt.transferType
      | .endpointType => some tt.endpointType
      | .endpoint => endpoint
      | .tokenSource => source
      | .endpointMappings => mappings
      | .txRenewalSupport => support
      | .claimMappings => claims
    refine ⟨slots, ?_, rfl, rfl, hendpoint', hsource', hmappings', hsupport', hclaims'⟩
    intro i
    cases i with
    | transferType => exact required_iff.mp h.transferType
    | endpointType => exact required_iff.mp h.endpointType
    | endpoint => exact hendpoint
    | tokenSource => exact hsource
    | endpointMappings => exact hmappings
    | txRenewalSupport => exact hsupport
    | claimMappings => exact hclaims

end TransferType

/-! ## The mappings of a participant context -/

/-- The body of an update, without the id. -/
structure KeyMappingRequest where
  keyName : String
  kid : String
  deriving DecidableEq, Repr

structure TransferTypeMapping where
  participantContextId : String
  mappings : HashMap String TransferType

/-- The fields of the bodies about a signing key. -/
inductive KeyField
  | participantContextId
  | keyName
  | kid
  deriving DecidableEq

def KeyField.ofName : String → Option KeyField
  | "participantContextId" => some .participantContextId
  | "keyName" => some .keyName
  | "kid" => some .kid
  | _ => none

def KeyField.name : KeyField → String
  | .participantContextId => "participantContextId"
  | .keyName => "keyName"
  | .kid => "kid"

/-- The fields that a body has are texts. -/
def KeyField.schema (fields : List KeyField) : Schema KeyField Value JsonError fun _ => String where
  field name := (KeyField.ofName name).filter fields.contains
  read _ := readText
  duplicate field := .duplicateField field.name

def KeyMappingRequest.deserialize : Value → Except JsonError KeyMappingRequest :=
  readStruct (KeyField.schema [.keyName, .kid]) [.keyName, .kid] 2 fun slots => do
    let keyName ← okOr (slots .keyName) (.missingField "keyName")
    let kid ← okOr (slots .kid) (.missingField "kid")
    return ⟨keyName, kid⟩

def deserializeSigningKeyMapping : Value → Except JsonError Vault.SigningKeyMapping :=
  readStruct (KeyField.schema [.participantContextId, .keyName, .kid]) [.participantContextId,
      .keyName, .kid] 3 fun slots => do
    let pc ← okOr (slots .participantContextId) (.missingField "participantContextId")
    let keyName ← okOr (slots .keyName) (.missingField "keyName")
    let kid ← okOr (slots .kid) (.missingField "kid")
    return ⟨pc, keyName, kid⟩

namespace TransferTypeMapping

inductive Field
  | participantContextId
  | mappings
  deriving DecidableEq

abbrev Slot : Field → Type
  | .participantContextId => String
  | .mappings => HashMap String TransferType

def fieldOf : String → Option Field
  | "participantContextId" => some .participantContextId
  | "mappings" => some .mappings
  | _ => none

def schema : Schema Field Value JsonError Slot where
  field := fieldOf
  read
    | .participantContextId => readText
    | .mappings => readMap TransferType.deserialize
  duplicate
    | .participantContextId => .duplicateField "participantContextId"
    | .mappings => .duplicateField "mappings"

def build (slots : (i : Field) → Option (Slot i)) : Except JsonError TransferTypeMapping := do
  let pc ← okOr (slots .participantContextId) (.missingField "participantContextId")
  let mappings ← okOr (slots .mappings) (.missingField "mappings")
  return ⟨pc, mappings⟩

def deserialize : Value → Except JsonError TransferTypeMapping :=
  readStruct schema [.participantContextId, .mappings] 2 build

end TransferTypeMapping

end Siglet
end Facet
