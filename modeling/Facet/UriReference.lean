import Facet.Text

/-!
# The components of a URI

A URI with an authority is cut at its delimiters, without decoding or normalising anything. Texts
put together from a scheme, an authority and a path are cut into these again exactly when no
delimiter stands in a component before its place.
-/
namespace Facet.Uri
open Text

structure Components where
  scheme : List Char
  authority : List Char
  path : List Char
  query : Option (List Char)
  fragment : Option (List Char)
  deriving DecidableEq, Repr

/-- The characters that end an authority. -/
def authorityEnds : List Char := ['/', '?', '#']

/-- The characters that end a path. -/
def pathEnds : List Char := ['?', '#']

/-- The part of a text before the first of these characters. -/
def upTo (ends s : List Char) : List Char := s.takeWhile fun c => decide (c ∉ ends)

def fromFirst (ends s : List Char) : List Char := s.dropWhile fun c => decide (c ∉ ends)

def queryAndFragment : List Char → Option (List Char) × Option (List Char)
  | '?' :: rest =>
    match cut '#' rest with
    | some (query, fragment) => (some query, some fragment)
    | none => (some rest, none)
  | '#' :: rest => (none, some rest)
  | _ => (none, none)

def components (uri : List Char) : Option Components :=
  match cut ':' uri with
  | some (scheme, '/' :: '/' :: rest) =>
    let behind := fromFirst authorityEnds rest
    let tail := queryAndFragment (fromFirst pathEnds behind)
    some ⟨scheme, upTo authorityEnds rest, upTo pathEnds behind, tail.1, tail.2⟩
  | _ => none

variable {ends s rest : List Char}

theorem upTo_cons {c : Char} : upTo ends (c :: s) = if c ∈ ends then [] else c :: upTo ends s := by
  by_cases hc : c ∈ ends <;> simp [upTo, hc]

theorem fromFirst_cons {c : Char} :
    fromFirst ends (c :: s) = if c ∈ ends then c :: s else fromFirst ends s := by
  by_cases hc : c ∈ ends <;> simp [fromFirst, hc]

/-- A part is read back up to the delimiter behind it when it has none itself. -/
theorem upTo_append (hrest : ∀ d ∈ rest.head?, d ∈ ends) :
    upTo ends (s ++ rest) = s ↔ ∀ c ∈ s, c ∉ ends := by
  induction s with
  | nil =>
    cases rest with
    | nil => simp [upTo]
    | cons d rest =>
      rw [List.nil_append, upTo_cons, if_pos (hrest d rfl)]
      simp
  | cons c s ih =>
    rw [List.cons_append, upTo_cons, List.forall_mem_cons]
    split_ifs with hc
    · exact iff_of_false (by simp) fun h => h.1 hc
    · rw [List.cons.injEq, ih]
      simp [hc]

theorem fromFirst_append (hrest : ∀ d ∈ rest.head?, d ∈ ends) (hs : ∀ c ∈ s, c ∉ ends) :
    fromFirst ends (s ++ rest) = rest := by
  induction s with
  | nil =>
    cases rest with
    | nil => rfl
    | cons d rest => rw [List.nil_append, fromFirst_cons, if_pos (hrest d rfl)]
  | cons c s ih =>
    rw [List.cons_append, fromFirst_cons, if_neg (hs c List.mem_cons_self)]
    exact ih fun d hd => hs d (List.mem_cons_of_mem _ hd)

theorem upTo_self : upTo ends s = s ↔ ∀ c ∈ s, c ∉ ends := by
  have happend := @upTo_append ends s [] (by simp)
  rwa [List.append_nil] at happend

theorem fromFirst_self (hs : ∀ c ∈ s, c ∉ ends) : fromFirst ends s = [] := by
  have happend := @fromFirst_append ends s [] (by simp) hs
  rwa [List.append_nil] at happend

theorem components_append {scheme authority path : List Char} (hscheme : ':' ∉ scheme)
    (hpath : ['/'] <+: path) :
    components (scheme ++ ':' :: '/' :: '/' :: (authority ++ path)) =
      some ⟨scheme, authority, path, none, none⟩ ↔
      (∀ c ∈ authority, c ∉ authorityEnds) ∧ ∀ c ∈ path, c ∉ pathEnds := by
  have hcut : cut ':' (scheme ++ ':' :: '/' :: '/' :: (authority ++ path)) =
      some (scheme, '/' :: '/' :: (authority ++ path)) := cut_eq_some_iff.mpr ⟨rfl, hscheme⟩
  have hhead : ∀ d ∈ path.head?, d ∈ authorityEnds := by
    obtain ⟨rest, rfl⟩ := hpath
    intro d hd
    obtain rfl : '/' = d := Option.some.inj hd
    decide
  simp only [components, hcut, Option.some.injEq, Components.mk.injEq, true_and]
  rw [upTo_append hhead]
  constructor
  · rintro ⟨hauthority, hread, -⟩
    rw [fromFirst_append hhead hauthority] at hread
    exact ⟨hauthority, upTo_self.mp hread⟩
  · rintro ⟨hauthority, hclean⟩
    rw [fromFirst_append hhead hauthority, fromFirst_self hclean]
    exact ⟨hauthority, upTo_self.mpr hclean, rfl, rfl⟩

end Facet.Uri
