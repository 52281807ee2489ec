import Mathlib.Data.List.Basic
import Mathlib.Data.List.Flatten
import Mathlib.Data.List.Forall2
import Mathlib.Data.Int.Notation
import Mathlib.Data.Nat.Notation

/-!
# Credential functions

The functions on credentials that claim mappings call. Types come as a text or a list, subjects
as an object or a list of them, and a target is one credential or a list: the helpers read the
three shapes alike. Values that they only pass on are of any type; so is the engine's equality.
-/
namespace Facet.Siglet.Credentials

inductive Key
  | int (n : ℤ)
  | uint (n : ℕ)
  | bool (b : Bool)
  | string (s : String)
  deriving DecidableEq, Repr

/-- Values of the expression language; `other` are its numbers, bytes, times and functions. -/
inductive CelValue (α : Type)
  | null
  | bool (b : Bool)
  | string (s : String)
  | list (items : List (CelValue α))
  | map (entries : List (Key × CelValue α))
  | other (value : α)

/-- The error is that of the engine, whose calls these functions answer. -/
abbrev FnResult (α : Type) := Except String (CelValue α)

def typeKeys : List String := ["type", "@type"]

def subjectKey : String := "credentialSubject"

variable {α : Type}

namespace CelValue

/-- Only a map has fields. -/
def field (key : String) : CelValue α → Option (CelValue α)
  | .map entries => (entries.find? fun entry => decide (entry.1 = .string key)).map Prod.snd
  | _ => none

def asStr : CelValue α → Option String
  | .string s => some s
  | _ => none

def isPresent : CelValue α → Bool
  | .null => false
  | _ => true

end CelValue

def credentials : CelValue α → List (CelValue α)
  | .list items => items
  | .map entries => [.map entries]
  | _ => []

def subjects (credential : CelValue α) : List (CelValue α) :=
  match credential.field subjectKey with
  | some (.list items) => items
  | some (.map entries) => [.map entries]
  | _ => []

def credentialHasType (wanted : String) (credential : CelValue α) : Bool :=
  typeKeys.any fun key =>
    match credential.field key with
    | some (.string s) => s == wanted
    | some (.list items) => (items.filterMap CelValue.asStr).any (· == wanted)
    | _ => false

/-- A path with dots goes through nested maps. -/
def navigate (path : String) (subject : CelValue α) : Option (CelValue α) :=
  (path.toList.splitOn '.').foldlM (fun current segment =>
    current.field (String.ofList segment)) subject

def claimValues (target : CelValue α) (name : String) : List (CelValue α) :=
  (((credentials target).flatMap subjects).filterMap (navigate name)).filter CelValue.isPresent

def withType (this : CelValue α) (wanted : String) : FnResult α :=
  .ok (.list ((credentials this).filter (credentialHasType wanted)))

def hasType (this : CelValue α) (wanted : String) : FnResult α :=
  .ok (.bool ((credentials this).any (credentialHasType wanted)))

def hasCredential (this : CelValue α) (wanted : String) : FnResult α := hasType this wanted

def hasClaim [BEq (CelValue α)] (this : CelValue α) (args : List (CelValue α)) : FnResult α :=
  match args.head?.bind CelValue.asStr with
  | none => .ok (.bool false)
  | some name =>
    .ok (.bool ((claimValues this name).any fun value => args[1]?.all fun want => value == want))

def claim (this : CelValue α) (name : String) : FnResult α :=
  .ok ((claimValues this name).head?.getD .null)

def claims (this : CelValue α) (name : String) : FnResult α := .ok (.list (claimValues this name))

/-! ## Shapes of a credential -/

namespace CelValue

/-- The value of a field in another shape. -/
def replaceField (key : String) (f : CelValue α → CelValue α) : CelValue α → CelValue α
  | .map entries =>
    .map (entries.map fun entry => if entry.1 = .string key then (entry.1, f entry.2) else entry)
  | v => v

/-- One subject as a list of it. -/
def wrapMap : CelValue α → CelValue α
  | .map entries => .list [.map entries]
  | v => v

/-- A type that is one text as a list of it. -/
def wrapString : CelValue α → CelValue α
  | .string s => .list [.string s]
  | v => v

theorem field_replaceField (key : String) (f : CelValue α → CelValue α) (v : CelValue α)
    (k : String) :
    (v.replaceField key f).field k = if k = key then (v.field k).map f else v.field k := by
  cases v with
  | map entries =>
    rw [replaceField, field, field]
    induction entries with
    | nil => simp
    | cons entry entries ih =>
      rw [List.map_cons, List.find?_cons, List.find?_cons]
      by_cases hkey : entry.1 = .string key
      · rw [if_pos hkey]
        by_cases hk : k = key
        · simp [hkey, hk]
        · have hne : ¬ key = k := fun heq => hk heq.symm
          simpa [hkey, hk, hne] using ih
      · rw [if_neg hkey]
        by_cases hk : entry.1 = .string k
        · have hne : ¬ k = key := fun heq => hkey (heq ▸ hk)
          simp [hk, hne]
        · simpa [hk] using ih
  | null => simp [replaceField, field]
  | bool b => simp [replaceField, field]
  | string s => simp [replaceField, field]
  | list items => simp [replaceField, field]
  | other value => simp [replaceField, field]

end CelValue

/-- Which of the three fields are turned into lists. -/
structure Shape where
  subject : Bool := false
  type : Bool := false
  atType : Bool := false

def Shape.apply (shape : Shape) (credential : CelValue α) : CelValue α :=
  let credential :=
    if shape.subject then credential.replaceField subjectKey .wrapMap else credential
  let credential := if shape.type then credential.replaceField "type" .wrapString else credential
  if shape.atType then credential.replaceField "@type" .wrapString else credential

def Reshaped (credential credential' : CelValue α) : Prop :=
  ∃ shape : Shape, credential' = shape.apply credential

/-- The same target in another shape: credentials of a list one by one, one credential, or one as a
list of it. -/
inductive SameTarget : CelValue α → CelValue α → Prop
  | list {items items' : List (CelValue α)} : List.Forall₂ Reshaped items items' →
      SameTarget (.list items) (.list items')
  | single {entries entries' : List (Key × CelValue α)} : Reshaped (.map entries) (.map entries') →
    SameTarget (.map entries) (.map entries')
  | singleton {entries : List (Key × CelValue α)} {credential : CelValue α} :
      Reshaped (.map entries) credential →
    SameTarget (.map entries) (.list [credential])

theorem subjects_wrapMap (credential : CelValue α) :
    subjects (credential.replaceField subjectKey .wrapMap) = subjects credential := by
  rw [subjects, subjects, CelValue.field_replaceField, if_pos rfl]
  cases credential.field subjectKey with
  | none => rfl
  | some v => cases v <;> rfl

theorem subjects_replaceField {key : String} (hkey : key ≠ subjectKey) (f : CelValue α → CelValue α)
    (credential : CelValue α) : subjects (credential.replaceField key f) = subjects credential := by
  rw [subjects, subjects, CelValue.field_replaceField, if_neg hkey.symm]

theorem credentialHasType_wrapString (wanted key : String) (credential : CelValue α) :
    credentialHasType wanted (credential.replaceField key .wrapString) =
      credentialHasType wanted credential := by
  unfold credentialHasType
  refine List.any_congr rfl fun k => ?_
  rw [CelValue.field_replaceField]
  split_ifs
  · cases credential.field k with
    | none => rfl
    | some v => cases v <;> simp [CelValue.wrapString, CelValue.asStr]
  · rfl

theorem credentialHasType_replaceField {key : String} (hkey : key ∉ typeKeys) (wanted : String)
    (f : CelValue α → CelValue α) (credential : CelValue α) :
    credentialHasType wanted (credential.replaceField key f) =
      credentialHasType wanted credential := by
  simp only [typeKeys, List.mem_cons, List.not_mem_nil, or_false, not_or] at hkey
  have htype : "type" ≠ key := Ne.symm hkey.1
  have hatType : "@type" ≠ key := Ne.symm hkey.2
  simp [credentialHasType, typeKeys, CelValue.field_replaceField, htype, hatType]

/-- The same subjects and the same types. -/
def ReadAlike (credential credential' : CelValue α) : Prop :=
  subjects credential' = subjects credential ∧
    ∀ wanted, credentialHasType wanted credential' = credentialHasType wanted credential

theorem ReadAlike.trans {a b c : CelValue α} (hab : ReadAlike a b) (hbc : ReadAlike b c) :
    ReadAlike a c :=
  ⟨hbc.1.trans hab.1, fun wanted => (hbc.2 wanted).trans (hab.2 wanted)⟩

theorem readAlike_wrapMap (b : Bool) (credential : CelValue α) :
    ReadAlike credential
      (if b then credential.replaceField subjectKey .wrapMap else credential) := by
  cases b with
  | false => exact ⟨rfl, fun _ => rfl⟩
  | true =>
    exact ⟨subjects_wrapMap credential, fun wanted =>
      credentialHasType_replaceField (by decide) wanted _ _⟩

theorem readAlike_wrapString (b : Bool) {key : String} (hkey : key ≠ subjectKey)
    (credential : CelValue α) :
    ReadAlike credential (if b then credential.replaceField key .wrapString else credential) := by
  cases b with
  | false => exact ⟨rfl, fun _ => rfl⟩
  | true =>
    exact ⟨subjects_replaceField hkey _ _, fun wanted => credentialHasType_wrapString wanted key _⟩

theorem Reshaped.same {credential credential' : CelValue α}
    (hreshaped : Reshaped credential credential') : ReadAlike credential credential' := by
  obtain ⟨shape, rfl⟩ := hreshaped
  exact ((readAlike_wrapMap shape.subject credential).trans
    (readAlike_wrapString shape.type (by decide) _)).trans
    (readAlike_wrapString shape.atType (by decide) _)

theorem SameTarget.credentials {x x' : CelValue α} (hsame : SameTarget x x') :
    List.Forall₂ Reshaped (credentials x) (credentials x') := by
  cases hsame with
  | list hitems => exact hitems
  | single hreshaped => exact .cons hreshaped .nil
  | singleton hreshaped => exact .cons hreshaped .nil

/-! ## The laws -/

section Reshape
variable {xs xs' : List (CelValue α)}

theorem flatMap_subjects_of_reshaped (hsame : List.Forall₂ Reshaped xs xs') :
    xs'.flatMap subjects = xs.flatMap subjects := by
  induction hsame with
  | nil => rfl
  | cons hreshaped _ ih => rw [List.flatMap_cons, List.flatMap_cons, hreshaped.same.1, ih]

theorem any_hasType_of_reshaped (hsame : List.Forall₂ Reshaped xs xs') (wanted : String) :
    xs'.any (credentialHasType wanted) = xs.any (credentialHasType wanted) := by
  induction hsame with
  | nil => rfl
  | cons hreshaped _ ih => rw [List.any_cons, List.any_cons, hreshaped.same.2, ih]

theorem zip_filter_of_reshaped (hsame : List.Forall₂ Reshaped xs xs') (wanted : String) :
    (xs.filter (credentialHasType wanted)).zip (xs'.filter (credentialHasType wanted)) =
      (xs.zip xs').filter fun pair => credentialHasType wanted pair.1 := by
  induction hsame with
  | nil => rfl
  | @cons c c' cs cs' hreshaped _ ih =>
    have htype := hreshaped.same.2 wanted
    cases hc : credentialHasType wanted c with
    | true =>
      rw [hc] at htype
      rw [List.filter_cons_of_pos hc, List.filter_cons_of_pos htype, List.zip_cons_cons,
        List.zip_cons_cons, List.filter_cons_of_pos (by simpa using hc), ih]
    | false =>
      rw [hc] at htype
      rw [List.filter_cons_of_neg (by simp [hc]), List.filter_cons_of_neg (by simp [htype]),
        List.zip_cons_cons, List.filter_cons_of_neg (by simp [hc]), ih]

theorem filter_of_reshaped (hsame : List.Forall₂ Reshaped xs xs') (wanted : String) :
    List.Forall₂ Reshaped (xs.filter (credentialHasType wanted))
      (xs'.filter (credentialHasType wanted)) := by
  induction hsame with
  | nil => exact .nil
  | @cons c c' cs cs' hreshaped _ ih =>
    have htype := hreshaped.same.2 wanted
    cases hc : credentialHasType wanted c with
    | true =>
      rw [hc] at htype
      rw [List.filter_cons_of_pos hc, List.filter_cons_of_pos htype]
      exact .cons hreshaped ih
    | false =>
      rw [hc] at htype
      rw [List.filter_cons_of_neg (by simp [hc]), List.filter_cons_of_neg (by simp [htype])]
      exact ih

end Reshape

theorem isPresent_of_mem_claimValues {x v : CelValue α} {name : String}
    (hv : v ∈ claimValues x name) : v ≠ .null := by
  rintro rfl
  exact absurd (List.of_mem_filter hv) (by simp [CelValue.isPresent])

theorem claimValues_sublist (x : CelValue α) (wanted name : String) :
    (claimValues (.list ((credentials x).filter (credentialHasType wanted))) name).Sublist
      (claimValues x name) := by
  have hcredentials : ((credentials x).filter (credentialHasType wanted)).Sublist (credentials x) :=
    List.filter_sublist
  exact (((hcredentials.flatMap subjects).filterMap (navigate name))).filter CelValue.isPresent

theorem claim_ne_null_iff (x : CelValue α) (name : String) :
    claim x name ≠ .ok .null ↔ claimValues x name ≠ [] := by
  rw [claim]
  cases hvalues : claimValues x name with
  | nil => simp
  | cons v vs =>
    have hmem : v ∈ claimValues x name := hvalues ▸ List.mem_cons_self
    have hv : v ≠ .null := isPresent_of_mem_claimValues hmem
    simpa using hv

section Laws
variable [BEq (CelValue α)]

theorem hasClaim_name (x : CelValue α) (name : String) :
    hasClaim x [.string name] = .ok (.bool (!(claimValues x name).isEmpty)) := by
  have hany : (claimValues x name).any (fun _ => true) = !(claimValues x name).isEmpty := by
    cases claimValues x name <;> rfl
  exact congrArg (fun b => Except.ok (CelValue.bool b)) hany

theorem hasClaim_value (x : CelValue α) (name : String) (v : CelValue α) :
    hasClaim x [.string name, v] = .ok (.bool ((claimValues x name).any (· == v))) := rfl

theorem hasClaim_total (x : CelValue α) (args : List (CelValue α)) :
    ∃ b, hasClaim x args = .ok (.bool b) := by
  unfold hasClaim
  split
  · exact ⟨_, rfl⟩
  · exact ⟨_, rfl⟩

end Laws

theorem SameTarget.claimValues_eq {x x' : CelValue α} (hsame : SameTarget x x') (name : String) :
    claimValues x' name = claimValues x name := by
  rw [claimValues, claimValues, flatMap_subjects_of_reshaped hsame.credentials]

/-- The laws of the helpers. Claims: the first one, all of them, whether there is one and whether
there is one of a value agree. Types: a credential is there when the list of them is not empty;
filtering twice is filtering once, in either order, and leaves a part of the claims. Shapes: every
helper reads the three shapes alike. None of them fails. -/
theorem credential_helper_laws [BEq (CelValue α)] (x : CelValue α) :
    (∀ n, ∃ vs, claims x n = .ok (.list vs) ∧ claim x n = .ok (vs.head?.getD .null) ∧
      hasClaim x [.string n] = .ok (.bool (!vs.isEmpty)) ∧ (claim x n ≠ .ok .null ↔ vs ≠ []) ∧
      ∀ v, hasClaim x [.string n, v] = .ok (.bool (vs.any (· == v)))) ∧
    (∀ t, ∃ cs, withType x t = .ok (.list cs) ∧ hasCredential x t = .ok (.bool (!cs.isEmpty)) ∧
      withType (.list cs) t = withType x t ∧
      (∀ u, (withType x t).bind (withType · u) = (withType x u).bind (withType · t)) ∧
      ∀ n vs ws, claims x n = .ok (.list vs) → claims (.list cs) n = .ok (.list ws) →
      ws.Sublist vs) ∧
    (∀ x', SameTarget x x' →
      (∀ n, claim x' n = claim x n ∧ claims x' n = claims x n) ∧
        (∀ args, hasClaim x' args = hasClaim x args) ∧
      ∀ t, hasType x' t = hasType x t ∧ hasCredential x' t = hasCredential x t ∧
        ∃ cs cs', withType x t = .ok (.list cs) ∧ withType x' t = .ok (.list cs') ∧
          List.Forall₂ Reshaped cs cs' ∧ cs.zip cs' =
            ((credentials x).zip (credentials x')).filter fun pair => credentialHasType t pair.1) ∧
    (∀ args, ∃ b, hasClaim x args = .ok (.bool b)) ∧ ∀ t, ∃ b, hasType x t = .ok (.bool b) := by
  refine ⟨?_, ?_, ?_, hasClaim_total x, fun t => ⟨_, rfl⟩⟩
  · intro n
    exact ⟨claimValues x n, rfl, rfl, hasClaim_name x n, claim_ne_null_iff x n, hasClaim_value x n⟩
  · intro t
    refine ⟨(credentials x).filter (credentialHasType t), rfl, ?_, ?_, ?_, ?_⟩
    · have hany : (credentials x).any (credentialHasType t) =
          !((credentials x).filter (credentialHasType t)).isEmpty := by
        rw [Bool.eq_iff_iff]
        simp [List.filter_eq_nil_iff]
      exact congrArg (fun b => Except.ok (CelValue.bool b)) hany
    · have htwice : ((credentials x).filter (credentialHasType t)).filter (credentialHasType t) =
          (credentials x).filter (credentialHasType t) := by
        rw [List.filter_filter]
        simp
      exact congrArg (fun cs => Except.ok (CelValue.list cs)) htwice
    · intro u
      exact congrArg (fun cs => Except.ok (CelValue.list cs)) (List.filter_comm _ _ _)
    · intro n vs ws hvs hws
      obtain rfl := CelValue.list.inj (Except.ok.inj hvs)
      obtain rfl := CelValue.list.inj (Except.ok.inj hws)
      exact claimValues_sublist x t n
  · intro x' hsame
    have hvalues := fun n => hsame.claimValues_eq n
    have htypes := fun t => any_hasType_of_reshaped hsame.credentials t
    refine ⟨fun n => ⟨by rw [claim, claim, hvalues], by rw [claims, claims, hvalues]⟩, ?_, ?_⟩
    · intro args
      simp only [hasClaim, hvalues]
    · intro t
      refine ⟨by rw [hasType, hasType, htypes], by rw [hasCredential, hasType, htypes]; rfl, ?_⟩
      exact ⟨_, _, rfl, rfl, filter_of_reshaped hsame.credentials t,
        zip_filter_of_reshaped hsame.credentials t⟩

def membership : CelValue ℤ :=
  .map [(.string "type", .string "MembershipCredential"),
    (.string "credentialSubject",
      .map [(.string "holder", .map [(.string "id", .string "BPNL1")])])]

/-- Texts that are equal. -/
@[reducible] def textEq : BEq (CelValue ℤ) := ⟨fun v w => v.asStr.isSome && v.asStr == w.asStr⟩

/-- The credential with its type and its subject as lists, in a list. -/
theorem membership_reshaped :
    claim (.list [Shape.apply ⟨true, true, false⟩ membership]) "holder.id" =
      .ok (.string "BPNL1") :=
  (((@credential_helper_laws ℤ textEq membership).2.2.1 _ (.singleton ⟨_, rfl⟩)).1
    "holder.id").1.trans rfl

end Facet.Siglet.Credentials
