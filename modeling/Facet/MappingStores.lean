import Facet.KeyedStore
import Facet.MappingJson
import Facet.TransferTypes

/-!
# The stores of the mappings

Signing keys and transfer types of the participant contexts, in memory or in a table of Postgres
with the id as its primary key. The transfer types of a context are one `JSONB` value.
-/
namespace Facet
open Serde

/-! ## JSONB -/

/-- No object of the document has two members of one name. -/
inductive Value.Distinct : Value → Prop
  | null : Distinct .null
  | bool (b : Bool) : Distinct (.bool b)
  | number (mantissa exponent : ℤ) : Distinct (.number mantissa exponent)
  | string (s : String) : Distinct (.string s)
  | array {items : List Value} (parts : ∀ item ∈ items, Distinct item) : Distinct (.array items)
  | object {members : List (String × Value)} (nodup : (members.map Prod.fst).Nodup)
    (parts : ∀ member ∈ members, Distinct member.2) : Distinct (.object members)

/-- What a column of this type makes of a document: the order of the members is the database's. -/
structure Jsonb where
  store : Value → Value
  reordered : ∀ v : Value, v.Distinct → v.Reordered (store v)

def hasNulText (s : String) : Bool := s.toList.contains '\x00'

mutual

/-- A text of the document has the character that the database has no place for. -/
def Value.hasNul : Value → Bool
  | .string s => hasNulText s
  | .array items => hasNulItems items
  | .object members => hasNulMembers members
  | _ => false

def hasNulItems : List Value → Bool
  | [] => false
  | item :: items => item.hasNul || hasNulItems items

def hasNulMembers : List (String × Value) → Bool
  | [] => false
  | (name, value) :: members => hasNulText name || value.hasNul || hasNulMembers members

end

/-- Shorter names come first, names of one length in the order of their bytes. -/
def nameBefore (name other : String) : Bool :=
  name.utf8ByteSize < other.utf8ByteSize || name.utf8ByteSize = other.utf8ByteSize && name ≤ other

/-- The last member of a name stays. -/
def keepLast : List (String × Value) → List (String × Value)
  | [] => []
  | member :: members =>
    if (members.map Prod.fst).contains member.1 then keepLast members
    else member :: keepLast members

mutual

def Value.canonical : Value → Value
  | .array items => .array (canonicalItems items)
  | .object members =>
    .object ((keepLast (canonicalMembers members)).mergeSort fun member other =>
      nameBefore member.1 other.1)
  | v => v

def canonicalItems : List Value → List Value
  | [] => []
  | item :: items => item.canonical :: canonicalItems items

def canonicalMembers : List (String × Value) → List (String × Value)
  | [] => []
  | (name, value) :: members => (name, value.canonical) :: canonicalMembers members

end

theorem keepLast_of_nodup {members : List (String × Value)} (h : (members.map Prod.fst).Nodup) :
    keepLast members = members := by
  induction members with
  | nil => rfl
  | cons member members ih =>
    rw [List.map_cons, List.nodup_cons] at h
    simp [keepLast, ih h.2, h.1]

theorem canonicalItems_related {items : List Value}
    (h : ∀ item ∈ items, item.Reordered item.canonical) :
    List.Forall₂ Value.Reordered items (canonicalItems items) := by
  induction items with
  | nil => exact .nil
  | cons item items ih =>
    exact .cons (h item List.mem_cons_self) (ih fun other hother =>
      h other (List.mem_cons_of_mem _ hother))

theorem canonicalMembers_related {members : List (String × Value)}
    (h : ∀ member ∈ members, member.2.Reordered member.2.canonical) :
    members.map Prod.fst = (canonicalMembers members).map Prod.fst ∧
      List.Forall₂ Value.Reordered (members.map Prod.snd)
        ((canonicalMembers members).map Prod.snd) := by
  induction members with
  | nil => exact ⟨rfl, .nil⟩
  | cons member members ih =>
    obtain ⟨hnames, hvalues⟩ := ih fun other hother => h other (List.mem_cons_of_mem _ hother)
    exact ⟨by simp [canonicalMembers, hnames], .cons (h member List.mem_cons_self) hvalues⟩

theorem Value.Distinct.canonical {v : Value} (h : v.Distinct) : v.Reordered v.canonical := by
  induction h with
  | null => exact .null
  | bool b => exact .bool b
  | number mantissa exponent => exact .number mantissa exponent
  | string s => exact .string s
  | array _ ih => exact .array (canonicalItems_related ih)
  | object hnodup _ ih =>
    obtain ⟨hnames, hvalues⟩ := canonicalMembers_related ih
    refine .object hnames hvalues ?_
    rw [keepLast_of_nodup (hnames ▸ hnodup)]
    exact (List.mergeSort_perm _ _).symm

/-- The order of Postgres. -/
def Jsonb.byLength : Jsonb := ⟨Value.canonical, fun _ h => h.canonical⟩

/-! ## What is written has each name once -/

section Written
variable {α : Type} {write : α → Value}

theorem distinct_writeOption (h : ∀ x, (write x).Distinct) (x : Option α) :
    (writeOption write x).Distinct := by
  cases x with
  | none => exact .null
  | some x => exact h x

theorem distinct_writeVec (h : ∀ x, (write x).Distinct) (xs : List α) :
    (writeVec write xs).Distinct := by
  refine .array fun item hitem => ?_
  obtain ⟨x, -, rfl⟩ := List.mem_map.mp hitem
  exact h x

theorem distinct_writeMap (h : ∀ x, (write x).Distinct) (m : HashMap String α) :
    (writeMap write m).Distinct := by
  refine .object ?_ fun member hmember => ?_
  · rw [List.map_map]
    exact m.nodup
  · obtain ⟨entry, -, rfl⟩ := List.mem_map.mp hmember
    exact h entry.2

end Written

namespace Siglet

theorem ClaimMapping.distinct (mapping : ClaimMapping) : mapping.serialize.Distinct := by
  refine .object (by simp) ?_
  simp only [List.mem_cons, List.not_mem_nil, or_false, forall_eq_or_imp, forall_eq]
  exact ⟨.string _, .string _, .bool _⟩

theorem EndpointMapping.distinct (mapping : EndpointMapping) : mapping.serialize.Distinct := by
  refine .object (by simp) ?_
  simp only [List.mem_cons, List.not_mem_nil, or_false, forall_eq_or_imp, forall_eq]
  exact ⟨.string _, .string _, .string _, distinct_writeVec ClaimMapping.distinct _⟩

theorem TransferType.distinct (tt : TransferType) : tt.serialize.Distinct := by
  have hsource : tt.tokenSource.serialize.Distinct := by
    cases tt.tokenSource with
    | client => exact .string _
    | provider => exact .string _
  refine .object (by simp) ?_
  simp only [List.mem_cons, List.not_mem_nil, or_false, forall_eq_or_imp, forall_eq]
  exact ⟨.string _, .string _, distinct_writeOption .string _, hsource,
    distinct_writeVec EndpointMapping.distinct _, .bool _,
    distinct_writeVec ClaimMapping.distinct _⟩

/-! ## The stores -/

def signingKeyMappingErrors : StoreErrors Vault.SigningKeyMappingError where
  alreadyExists := .alreadyExists
  notFound := .notFound
  failed action reason := .storage ("Failed to " ++ action ++ " signing key mapping: " ++ reason)

def transferTypeMappingErrors : StoreErrors TransferTypeMappingError where
  alreadyExists := .alreadyExists
  notFound := .notFound
  failed action reason := .storage ("Failed to " ++ action ++ " transfer type mapping: " ++ reason)

def MemorySigningKeyMappingStore :
    KeyedStore (HashMap String KeyMappingRequest) Vault.SigningKeyMappingError
    KeyMappingRequest := .memory signingKeyMappingErrors

/-- The repository over the store of this name. -/
def memoryTransferTypeMappings : KeyedStore MemoryTransferTypeMappingStore TransferTypeMappingError
    (HashMap String TransferType) where
  create _ pc mappings store := store.create pc mappings
  update _ pc mappings store := store.update pc mappings
  find _ pc store := store.find pc
  delete _ pc store := store.delete pc

def invalidText : String := "invalid byte sequence for encoding \"UTF8\": 0x00"

def invalidDocument : String := "unsupported Unicode escape sequence"

/-- A row of `signing_key_mappings`. -/
structure SigningKeyMappingRecord where
  keyName : String
  kid : String
  deriving DecidableEq, Repr

def signingKeyRows : RowFormat KeyMappingRequest SigningKeyMappingRecord where
  refused pc mapping :=
    if hasNulText pc || mapping.any fun mapping => hasNulText mapping.keyName ||
      hasNulText mapping.kid then
      some invalidText
    else none
  write mapping := ⟨mapping.keyName, mapping.kid⟩
  read _ record := .ok ⟨record.keyName, record.kid⟩

def PostgresSigningKeyMappingStore :
    KeyedStore (HashMap String SigningKeyMappingRecord) Vault.SigningKeyMappingError
    KeyMappingRequest := .table signingKeyMappingErrors signingKeyRows

/-- The column `mappings` of `transfer_type_mappings`. -/
def transferTypeRows (jsonb : Jsonb) : RowFormat (HashMap String TransferType) Value where
  refused pc mappings :=
    if hasNulText pc then some invalidText
    else if mappings.any fun mappings => (writeMap TransferType.serialize mappings).hasNul then
      some invalidDocument
    else none
  write mappings := jsonb.store (writeMap TransferType.serialize mappings)
  read _ document :=
    (readMap TransferType.deserialize document).mapError fun _ =>
      "error occurred while decoding column \"mappings\""

def PostgresTransferTypeMappingStore (jsonb : Jsonb) :
    KeyedStore (HashMap String Value) TransferTypeMappingError
    (HashMap String TransferType) := .table transferTypeMappingErrors (transferTypeRows jsonb)

/-- The mappings of the same transfer types. -/
def SameMappings (mappings mappings' : HashMap String TransferType) : Prop :=
  ∀ profile, mappings.get profile = mappings'.get profile

/-- The transfer types of a context come out of the column as they went in, whatever order the
database keeps their members in. -/
theorem transferTypes_readBack (jsonb : Jsonb) (pc : String)
    (mappings : HashMap String TransferType) :
    ∃ mappings', (transferTypeRows jsonb).read pc ((transferTypeRows jsonb).write mappings) =
      .ok mappings' ∧ SameMappings mappings' mappings := by
  have hreordered := jsonb.reordered _ (distinct_writeMap TransferType.distinct mappings)
  obtain ⟨mappings', hread, hsame⟩ := readMap_of_reordered TransferType.readsBack hreordered
  refine ⟨mappings', ?_, hsame⟩
  unfold transferTypeRows
  dsimp only
  rw [hread]
  rfl

/-- Transfer types are read from every document that differs from the one they were written to in
the order of its members only, at every depth. -/
theorem transferTypes_round_trip (mappings : HashMap String TransferType) {v : Value}
    (h : (writeMap TransferType.serialize mappings).Reordered v) :
    ∃ mappings', readMap TransferType.deserialize v = .ok mappings' ∧
      SameMappings mappings' mappings :=
  readMap_of_reordered TransferType.readsBack h

def pullTransferType : TransferType where
  transferType := "http-pull"
  endpointType := "HTTP"
  endpoint := none
  endpointMappings :=
    [⟨"region", "eu", "https://eu.example/data", [⟨"flow.agreementId", "agreement", true⟩]⟩]

theorem pull_round_trip : ∃ mappings', readMap TransferType.deserialize
      (writeMap TransferType.serialize
        (HashMap.empty.insert "http-pull" pullTransferType)).canonical = .ok mappings' ∧
    SameMappings mappings' (HashMap.empty.insert "http-pull" pullTransferType) :=
  transferTypes_round_trip _ (distinct_writeMap TransferType.distinct _).canonical

end Siglet
end Facet
