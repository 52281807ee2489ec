import Facet.UriReference
import Facet.Verifier

/-!
# URLs of did:web identifiers

Every text with the prefix is taken for an identifier. Its URL has the domain for its authority and
the segments for its path unless a delimiter of the URL stands in one of them.
-/
namespace Facet.Did
open Text Uri

/-- A did:web identifier and its parts between colons. -/
structure Identifier (did domain : List Char) (segments : List (List Char)) : Prop where
  spelled : did = "did:web:".toList ++ [':'].intercalate (domain :: segments)
  domain : ':' ∉ domain
  segments : ∀ segment ∈ segments, ':' ∉ segment

/-- A domain without delimiters, user or white space, and segments that are not empty and have no
delimiters. -/
def WellFormed (did : List Char) : Prop :=
  ∃ domain segments, Identifier did domain segments ∧ domain ≠ [] ∧
    (∀ c ∈ domain, c ∉ ['/', '?', '#', '@'] ∧ isWhitespace c = false) ∧
    ∀ segment ∈ segments, segment ≠ [] ∧ ∀ c ∈ segment, c ∉ ['/', '?', '#']

/-- The domain with its colons decoded. -/
def decodedDomain (domain : List Char) : List Char :=
  replace "%3a".toList [':'] (replace "%3A".toList [':'] domain)

def documentPath : List (List Char) → List Char
  | [] => "/.well-known/did.json".toList
  | segment :: segments => '/' :: ['/'].intercalate (segment :: segments) ++ "/did.json".toList

theorem Identifier.splitOn {did domain : List Char} {segments : List (List Char)}
    (hid : Identifier did domain segments) :
    ∃ methodSpecificId, stripPrefix "did:web:".toList did = some methodSpecificId ∧
      methodSpecificId.splitOn ':' = domain :: segments := by
  refine ⟨_, stripPrefix_eq_some_iff.mpr hid.spelled, List.splitOn_intercalate ':' ?_ (by simp)⟩
  intro part hpart
  rcases List.mem_cons.mp hpart with rfl | hpart
  · exact hid.domain
  · exact hid.segments part hpart

/-- Whatever follows the prefix has a domain and segments. -/
theorem exists_identifier {did : List Char} (hprefixed : "did:web:".toList <+: did) :
    ∃ domain segments, Identifier did domain segments := by
  obtain ⟨methodSpecificId, rfl⟩ := hprefixed
  have hparts : ∀ part ∈ methodSpecificId.splitOn ':', ':' ∉ part := by
    intro part hpart hmem
    rw [List.splitOn_eq_splitOnP] at hpart
    exact absurd ((exists_append_of_mem_splitOnP _ le_rfl hpart).1 ':' hmem) (by simp)
  have hjoined : [':'].intercalate (methodSpecificId.splitOn ':') = methodSpecificId :=
    List.intercalate_splitOn ':'
  cases hsplit : methodSpecificId.splitOn ':' with
  | nil => exact absurd hsplit (List.splitOn_ne_nil ':' methodSpecificId)
  | cons domain segments =>
    rw [hsplit] at hparts hjoined
    exact ⟨domain, segments, by rw [hjoined], hparts domain List.mem_cons_self,
      fun segment hsegment => hparts segment (List.mem_cons_of_mem _ hsegment)⟩

theorem cons_intercalate (segment : List Char) (segments : List (List Char)) :
    '/' :: ['/'].intercalate (segment :: segments) = (segment :: segments).flatMap fun s =>
      '/' :: s := by
  induction segments generalizing segment with
  | nil => simp
  | cons next segments ih =>
    rw [List.intercalate_cons_cons, List.flatMap_cons, ← ih next]
    simp

theorem documentPath_nil : documentPath [] = "/.well-known/did.json".toList := rfl

theorem documentPath_cons (segment : List Char) (segments : List (List Char)) :
    documentPath (segment :: segments) =
      ((segment :: segments).flatMap fun s => '/' :: s) ++ "/did.json".toList := by
  rw [← cons_intercalate]
  rfl

namespace DidWebVerificationKeyResolver
variable (r : DidWebVerificationKeyResolver)

theorem didWebToUrl_of_identifier {did domain : List Char} {segments : List (List Char)}
    (hid : Identifier did domain segments) : r.didWebToUrl did =
      .ok (r.protocol ++ ':' :: '/' :: '/' :: (decodedDomain domain ++ documentPath segments)) := by
  obtain ⟨methodSpecificId, hstrip, hsplit⟩ := hid.splitOn
  unfold didWebToUrl
  simp only [hstrip, hsplit]
  cases segments with
  | nil =>
    rw [if_neg (by simp), documentPath_nil]
    simp [decodedDomain]
  | cons segment segments =>
    rw [if_pos (List.cons_ne_nil segment segments), documentPath_cons]
    simp [decodedDomain]

theorem colon_notMem_protocol : ':' ∉ r.protocol := by
  unfold protocol
  split_ifs <;> decide

theorem slash_prefix_documentPath (segments : List (List Char)) :
    ['/'] <+: documentPath segments := by
  cases segments with
  | nil => exact ⟨_, rfl⟩
  | cons segment segments => exact ⟨_, rfl⟩

theorem mem_decodedDomain {c : Char} (hc : c ∈ authorityEnds) (domain : List Char) :
    c ∈ decodedDomain domain ↔ c ∈ domain := by
  simp only [authorityEnds, List.mem_cons, List.not_mem_nil, or_false] at hc
  have hplain : c ∉ "%3a".toList ∧ c ∉ "%3A".toList ∧ c ∉ [':'] := by
    rcases hc with rfl | rfl | rfl <;> decide
  obtain ⟨hlower, hupper, hcolon⟩ := hplain
  rw [decodedDomain, mem_replace_iff (by decide) hlower hcolon,
    mem_replace_iff (by decide) hupper hcolon]

theorem mem_documentPath {c : Char} (hc : c ∈ pathEnds) (segments : List (List Char)) :
    c ∈ documentPath segments ↔ ∃ segment ∈ segments, c ∈ segment := by
  simp only [pathEnds, List.mem_cons, List.not_mem_nil, or_false] at hc
  cases segments with
  | nil => rcases hc with rfl | rfl <;> decide
  | cons segment segments =>
    have hplain : c ∉ "/did.json".toList ∧ c ≠ '/' := by rcases hc with rfl | rfl <;> decide
    rw [documentPath_cons, List.mem_append, or_iff_left hplain.1, List.mem_flatMap]
    simp only [List.mem_cons, hplain.2, false_or]

/-- Exactly the texts with the prefix are identifiers, whatever stands in their parts. With a domain
they have a URL, and its components are protocol, domain and path unless a delimiter stands in a
part. -/
theorem did_web_to_url_reads_back (did : List Char) :
    ("did:web:".toList <+: did ↔ ∃ domain segments, Identifier did domain segments) ∧
    (¬ "did:web:".toList <+: did → ∃ e, r.didWebToUrl did = .error e) ∧
    ∀ domain segments, Identifier did domain segments → domain ≠ [] →
      ∃ url, r.didWebToUrl did = .ok url ∧
        (components url =
          some ⟨r.protocol, decodedDomain domain, documentPath segments, none, none⟩ ↔
          (∀ c ∈ domain, c ∉ authorityEnds) ∧ ∀ segment ∈ segments, ∀ c ∈ segment,
            c ∉ pathEnds) := by
  refine ⟨⟨exists_identifier, ?_⟩, ?_, ?_⟩
  · rintro ⟨domain, segments, hid⟩
    exact ⟨_, hid.spelled.symm⟩
  · intro hprefixed
    have hstrip : stripPrefix "did:web:".toList did = none := by
      rw [Option.eq_none_iff_forall_ne_some]
      intro rest hrest
      exact hprefixed ⟨rest, (stripPrefix_eq_some_iff.mp hrest).symm⟩
    unfold didWebToUrl
    simp only [hstrip]
    exact ⟨_, rfl⟩
  · intro domain segments hid _
    refine ⟨_, r.didWebToUrl_of_identifier hid, ?_⟩
    rw [components_append r.colon_notMem_protocol (slash_prefix_documentPath segments)]
    have hdomain : (∀ c ∈ decodedDomain domain, c ∉ authorityEnds) ↔
        ∀ c ∈ domain, c ∉ authorityEnds := by
      constructor
      · intro h c hmem hc
        exact h c ((mem_decodedDomain hc domain).mpr hmem) hc
      · intro h c hmem hc
        exact h c ((mem_decodedDomain hc domain).mp hmem) hc
    have hpath : (∀ c ∈ documentPath segments, c ∉ pathEnds) ↔ ∀ segment ∈ segments, ∀ c ∈ segment,
        c ∉ pathEnds := by
      constructor
      · intro h segment hsegment c hmem hc
        exact h c ((mem_documentPath hc segments).mpr ⟨segment, hsegment, hmem⟩) hc
      · intro h c hmem hc
        obtain ⟨segment, hsegment, hmem⟩ := (mem_documentPath hc segments).mp hmem
        exact h segment hsegment c hmem hc
    rw [hdomain, hpath]

end DidWebVerificationKeyResolver

open DidWebVerificationKeyResolver

theorem identifier_user :
    Identifier "did:web:localhost%3A3000:user".toList "localhost%3A3000".toList ["user".toList] :=
  ⟨by decide, by decide, by decide⟩

theorem url_of_user :
    ∃ url, demoResolver.didWebToUrl "did:web:localhost%3A3000:user".toList = .ok url ∧
      components url =
        some ⟨"https".toList, "localhost:3000".toList, "/user/did.json".toList, none, none⟩ := by
  obtain ⟨-, -, hread⟩ :=
    did_web_to_url_reads_back demoResolver "did:web:localhost%3A3000:user".toList
  obtain ⟨url, hurl, hcomponents⟩ := hread _ _ identifier_user (by decide)
  exact ⟨url, hurl, hcomponents.mpr ⟨by simp [authorityEnds], by simp [pathEnds]⟩⟩

/-- An empty segment is let through. -/
theorem empty_segment_accepted :
    (∃ url, demoResolver.didWebToUrl "did:web:example.com::user".toList = .ok url) ∧
    ¬ WellFormed "did:web:example.com::user".toList := by
  refine ⟨⟨"https://example.com//user/did.json".toList, rfl⟩, ?_⟩
  rintro ⟨domain, segments, hid, -, -, hsegments⟩
  obtain ⟨rest, hstrip, hsplit⟩ := hid.splitOn
  obtain rfl : "example.com::user".toList = rest := Option.some.inj hstrip
  have hparts : "example.com::user".toList.splitOn ':' =
      ["example.com".toList, [], "user".toList] := by decide
  obtain ⟨-, rfl⟩ := List.cons.inj (hsplit.symm.trans hparts)
  exact (hsegments [] (by simp)).1 rfl

end Facet.Did
