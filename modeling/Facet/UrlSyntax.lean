import Facet.Text

/-!
# Addresses of http and https

What a URL parser makes of an address whose scheme is `http` or `https`: surrounding
control characters and inner tabs and newlines are dropped, the authority ends at the
first slash, and the path is cut at slashes of either direction. A segment `.` is
dropped, a segment `..` goes one level up, every other segment is kept with some
characters percent-encoded. The set of these characters and the check of the
authority differ between versions of the parsers and are left open.
-/
namespace Facet.UrlSyntax
open Text

def isSlash (c : Char) : Bool := c == '/' || c == '\\'

def endsPath (c : Char) : Bool := c == '?' || c == '#'

def isControlOrSpace (c : Char) : Bool := decide (c.toNat ≤ 0x20)

def isTabOrNewline (c : Char) : Bool := c == '\t' || c == '\n' || c == '\r'

def hexDigits : List Char := "0123456789ABCDEF".toList

/-- Percent sign, letters and digits are not encoded, so encoded text is encoded once. -/
structure UrlParser where
  encodes : Char → Bool
  acceptsOrigin : List Char → Bool
  keeps_percent : encodes '%' = false
  keeps_alphanum : ∀ c, c.isAlphanum = true → encodes c = false

theorem bounds_of_isAlphanum {c : Char} (h : c.isAlphanum = true) :
    48 ≤ c.toNat ∧ c.toNat ≤ 57 ∨ 65 ≤ c.toNat ∧ c.toNat ≤ 90 ∨ 97 ≤ c.toNat ∧ c.toNat ≤ 122 := by
  simp only [Char.isAlphanum, Char.isAlpha, Char.isUpper, Char.isLower,
    Char.isDigit, Bool.or_eq_true, Bool.and_eq_true, decide_eq_true_eq, ge_iff_le,
    UInt32.le_iff_toNat_le] at h
  have hA : 'A'.val.toNat = 65 := rfl
  have hZ : 'Z'.val.toNat = 90 := rfl
  have ha : 'a'.val.toNat = 97 := rfl
  have hz : 'z'.val.toNat = 122 := rfl
  have h0 : '0'.val.toNat = 48 := rfl
  have h9 : '9'.val.toNat = 57 := rfl
  simp only [Char.toNat]
  omega

/-- The path percent-encode set of the WHATWG URL standard, and no check of the origin. -/
def whatwg : UrlParser where
  encodes c := decide (c.toNat ≤ 0x20 ∨ 0x7F ≤ c.toNat) || "\"#<>?^`\x7b\x7d".toList.contains c
  acceptsOrigin _ := true
  keeps_percent := by decide
  keeps_alphanum := by
    intro c h
    have hb := bounds_of_isAlphanum h
    have hne : ∀ d ∈ "\"#<>?^`\x7b\x7d".toList, d.isAlphanum = false := by simp
    have hmem : c ∉ "\"#<>?^`\x7b\x7d".toList := fun hc => by simp [hne c hc] at h
    have hrange : ¬ (c.toNat ≤ 0x20 ∨ 0x7F ≤ c.toNat) := by omega
    simp only [hrange, decide_false, Bool.false_or, List.contains_eq_mem, hmem]

structure Url where
  origin : List Char
  path : List (List Char)
  query : Option (List Char)
  deriving DecidableEq, Repr

def Url.pathText (url : Url) : List Char := url.path.flatMap ('/' :: ·)

def isSingleDot (segment : List Char) : Bool :=
  segment.map Char.toLower ∈ [".".toList, "%2e".toList]

def isDoubleDot (segment : List Char) : Bool :=
  segment.map Char.toLower ∈ ["..".toList, ".%2e".toList, "%2e.".toList, "%2e%2e".toList]

def isDots (segment : List Char) : Bool := isSingleDot segment || isDoubleDot segment

def strip (text : List Char) : List Char :=
  (trimMatches isControlOrSpace text).filter (fun c => !isTabOrNewline c)

def inAuthority (c : Char) : Bool := !isSlash c && !endsPath c

/-- Scheme and authority, and what follows them. -/
def splitOrigin (text : List Char) : Option (List Char × List Char) :=
  ["http://".toList, "https://".toList].findSome? fun scheme =>
    (stripPrefix scheme text).map fun rest =>
      let rest := rest.dropWhile isSlash
      (scheme ++ rest.takeWhile inAuthority, rest.dropWhile inAuthority)

/-- The segments of a path that is empty or starts with a slash. -/
def segments (path : List Char) : List (List Char) := (path.drop 1).splitOnP isSlash

def queryOf : List Char → Option (List Char)
  | '?' :: query => some (query.takeWhile (· != '#'))
  | _ => none

namespace UrlParser
variable (P : UrlParser)

def percentEncode (byte : UInt8) : List Char :=
  ['%', hexDigits.getD (byte.toNat / 16) '0', hexDigits.getD (byte.toNat % 16) '0']

def encodeChar (c : Char) : List Char :=
  if P.encodes c then (String.utf8EncodeChar c).flatMap percentEncode else [c]

def encode (segment : List Char) : List Char := segment.flatMap P.encodeChar

def descend (path : List (List Char)) (segment : List Char) : List (List Char) :=
  if isDoubleDot segment then path.dropLast
  else if isSingleDot segment then path
  else path ++ [P.encode segment]

/-- A path that ends in a dot segment names a directory: its last segment is empty. -/
def resolve (segments : List (List Char)) : List (List Char) :=
  segments.foldl P.descend [] ++ if segments.getLast?.any isDots then [[]] else []

def parse (text : List Char) : Option Url :=
  match splitOrigin (strip text) with
  | none => none
  | some (origin, rest) =>
    if P.acceptsOrigin origin then
      some ⟨origin, P.resolve (segments (rest.takeWhile (fun c => !endsPath c))),
        queryOf (rest.dropWhile (fun c => !endsPath c))⟩
    else none

end UrlParser

/-! ## Segments -/

/-- A segment that is kept as it is. -/
def UrlParser.Plain (P : UrlParser) (segment : List Char) : Prop :=
  (∀ c ∈ segment, P.encodes c = false) ∧ isDots segment = false

theorem segments_flatMap {segs : List (List Char)} (hne : segs ≠ [])
    (h : ∀ s ∈ segs, ∀ c ∈ s, isSlash c = false) : segments (segs.flatMap ('/' :: ·)) = segs := by
  induction segs with
  | nil => exact absurd rfl hne
  | cons s rest ih =>
    have hs := h s List.mem_cons_self
    cases rest with
    | nil => simpa [segments] using List.splitOnP_eq_singleton hs
    | cons t rest =>
      have ih' := ih (by simp) (fun u hu => h u (List.mem_cons_of_mem _ hu))
      simp only [segments, List.flatMap_cons, List.cons_append, List.drop_succ_cons,
        List.drop_zero] at ih' ⊢
      rw [List.splitOnP_append_cons_of_forall_mem hs '/' (by decide), ih']

theorem flatMap_splitOn (path : List Char) :
    (path.splitOn '/').flatMap ('/' :: ·) = '/' :: path := by
  induction path with
  | nil => rfl
  | cons c path ih =>
    rw [List.splitOn_cons_eq_if_modifyHead]
    by_cases hc : c = '/'
    · simp [hc, ih]
    · cases hs : path.splitOn '/' with
      | nil => exact absurd hs (List.splitOn_ne_nil _ _)
      | cons t ts =>
        rw [hs] at ih
        simp only [List.flatMap_cons, List.cons_append, List.cons.injEq, true_and] at ih
        simp [hc, ih]

/-- Without backslashes only the forward slashes cut. -/
theorem segments_eq_splitOn {path : List Char} (h : '\\' ∉ path) :
    segments ('/' :: path) = path.splitOn '/' := by
  simp only [segments, List.drop_succ_cons, List.drop_zero, List.splitOn_eq_splitOnP]
  induction path with
  | nil => rfl
  | cons c path ih =>
    have hc : isSlash c = (c == '/') := by
      have hne : c ≠ '\\' := fun he => h (he ▸ List.mem_cons_self)
      simp [isSlash, hne]
    rw [List.splitOnP_cons_eq_if_modifyHead, List.splitOnP_cons_eq_if_modifyHead, hc,
      ih fun hmem => h (List.mem_cons_of_mem _ hmem)]

theorem not_isSlash_of_mem_segments {path segment : List Char} {c : Char}
    (hs : segment ∈ segments path) (hc : c ∈ segment) : isSlash c = false := by
  unfold segments at hs
  generalize path.drop 1 = text at hs
  induction text generalizing segment with
  | nil =>
    rw [List.splitOnP_nil, List.mem_singleton] at hs
    rw [hs] at hc
    exact absurd hc List.not_mem_nil
  | cons d text ih =>
    rw [List.splitOnP_cons_eq_if_modifyHead] at hs
    split_ifs at hs with hd
    · rcases List.mem_cons.mp hs with rfl | hs
      · exact absurd hc List.not_mem_nil
      · exact ih hc hs
    · cases ht : text.splitOnP isSlash with
      | nil => exact absurd ht (List.splitOnP_ne_nil _ _)
      | cons t ts =>
        rw [ht, List.modifyHead_cons, List.mem_cons] at hs
        rw [ht] at ih
        rcases hs with rfl | hs
        · rcases List.mem_cons.mp hc with rfl | hc
          · simpa using hd
          · exact ih hc List.mem_cons_self
        · exact ih hc (List.mem_cons_of_mem _ hs)

namespace UrlParser
variable {P : UrlParser}

theorem encode_eq_self {segment : List Char} (h : ∀ c ∈ segment, P.encodes c = false) :
    P.encode segment = segment := by
  induction segment with
  | nil => rfl
  | cons c segment ih =>
    have hc : P.encodes c = false := h c List.mem_cons_self
    simp only [encode, List.flatMap_cons, encodeChar, hc]
    exact congrArg (c :: ·) (ih fun d hd => h d (List.mem_cons_of_mem _ hd))

theorem isAlphanum_hexDigit (n : ℕ) : (hexDigits.getD n '0').isAlphanum = true := by
  have hall : hexDigits.all Char.isAlphanum = true := by decide
  rw [List.all_eq_true] at hall
  by_cases hn : n < hexDigits.length
  · rw [List.getD_eq_getElem _ _ hn]
    exact hall _ (List.getElem_mem hn)
  · rw [List.getD_eq_default _ _ (by omega)]
    decide

theorem not_encodes_of_mem_encode {segment : List Char} {d : Char} (h : d ∈ P.encode segment) :
    P.encodes d = false := by
  obtain ⟨c, -, hc⟩ := List.mem_flatMap.mp h
  unfold encodeChar at hc
  split_ifs at hc with he
  · obtain ⟨byte, -, hd⟩ := List.mem_flatMap.mp hc
    rcases List.mem_cons.mp hd with rfl | hd
    · exact P.keeps_percent
    · apply P.keeps_alphanum
      rcases List.mem_cons.mp hd with rfl | hd
      · exact isAlphanum_hexDigit _
      · exact List.mem_singleton.mp hd ▸ isAlphanum_hexDigit _
  · simpa [List.mem_singleton.mp hc] using he

theorem descend_plain {path : List (List Char)} {segment : List Char} (h : P.Plain segment) :
    P.descend path segment = path ++ [segment] := by
  obtain ⟨hs, hd⟩ := Bool.or_eq_false_iff.mp h.2
  simp [descend, hs, hd, encode_eq_self h.1]

theorem foldl_descend_plain {segs path : List (List Char)} (h : ∀ s ∈ segs, P.Plain s) :
    segs.foldl P.descend path = path ++ segs := by
  induction segs generalizing path with
  | nil => simp
  | cons s segs ih =>
    rw [List.foldl_cons, descend_plain (h s List.mem_cons_self), ih fun t ht =>
      h t (List.mem_cons_of_mem _ ht)]
    simp

/-- Every segment of a resolved path is new and empty, or an encoded segment that is no dot
segment. -/
theorem mem_foldl_descend {segs path : List (List Char)} {t : List Char}
    (h : t ∈ segs.foldl P.descend path) :
    t ∈ path ∨ ∃ s ∈ segs, isDots s = false ∧ t = P.encode s := by
  induction segs generalizing path with
  | nil => exact Or.inl h
  | cons s segs ih =>
    rcases ih h with ht | ⟨u, hu, hd, rfl⟩
    · unfold descend at ht
      split_ifs at ht with h2 h1
      · exact Or.inl (List.mem_of_mem_dropLast ht)
      · exact Or.inl ht
      · rcases List.mem_append.mp ht with ht | ht
        · exact Or.inl ht
        · exact Or.inr ⟨s, List.mem_cons_self, by simp [isDots, h1, h2], List.mem_singleton.mp ht⟩
    · exact Or.inr ⟨u, List.mem_cons_of_mem _ hu, hd, rfl⟩

theorem not_isSlash_of_mem_encode {segment : List Char} (h : ∀ c ∈ segment, isSlash c = false)
    {d : Char} (hd : d ∈ P.encode segment) :
    isSlash d = false := by
  obtain ⟨c, hc, hd⟩ := List.mem_flatMap.mp hd
  unfold encodeChar at hd
  split_ifs at hd with he
  · obtain ⟨byte, -, hd⟩ := List.mem_flatMap.mp hd
    have halpha : ∀ c : Char, c.isAlphanum = true → isSlash c = false := by
      intro c hc
      by_contra hslash
      simp only [isSlash, Bool.not_eq_false, Bool.or_eq_true, beq_iff_eq] at hslash
      rcases hslash with rfl | rfl <;> exact absurd hc (by decide)
    rcases List.mem_cons.mp hd with rfl | hd
    · decide
    · rcases List.mem_cons.mp hd with rfl | hd
      · exact halpha _ (isAlphanum_hexDigit _)
      · exact List.mem_singleton.mp hd ▸ halpha _ (isAlphanum_hexDigit _)
  · rw [List.mem_singleton.mp hd]
    exact h c hc

/-- A resolved path is made of empty segments and encoded segments. -/
theorem mem_resolve {segs : List (List Char)} {t : List Char} (h : t ∈ P.resolve segs) :
    t = [] ∨ ∃ s ∈ segs, isDots s = false ∧ t = P.encode s := by
  rcases List.mem_append.mp h with h | h
  · exact Or.inr ((mem_foldl_descend h).resolve_left List.not_mem_nil)
  · split_ifs at h
    · exact Or.inl (List.mem_singleton.mp h)
    · exact absurd h List.not_mem_nil

theorem resolve_ne_nil {segs : List (List Char)} (hne : segs ≠ []) : P.resolve segs ≠ [] := by
  obtain ⟨front, last, rfl⟩ : ∃ front last, segs = front ++ [last] :=
    ⟨segs.dropLast, segs.getLast hne, (List.dropLast_append_getLast hne).symm⟩
  by_cases hd : isDots last = true
  · simp [resolve, hd]
  · have hboth : isSingleDot last = false ∧ isDoubleDot last = false := by
      simpa [isDots] using hd
    simp [resolve, descend, hboth]

theorem resolve_plain {segs : List (List Char)} (h : ∀ s ∈ segs, P.Plain s) :
    P.resolve segs = segs := by
  have hlast : segs.getLast?.any isDots = false := by
    rw [Option.any_eq_false]
    intro s hs
    have hp := h s (List.mem_of_getLast? hs)
    simp [hp.2]
  rw [resolve, foldl_descend_plain h, hlast]
  simp

/-- Enough steps up end at the root. -/
theorem foldl_descend_up {path : List (List Char)} {n : ℕ} (h : path.length ≤ n) :
    (List.replicate n "..".toList).foldl P.descend path = [] := by
  induction n generalizing path with
  | zero => simpa using h
  | succ n ih =>
    rw [List.replicate_succ, List.foldl_cons]
    apply ih
    have : P.descend path "..".toList = path.dropLast := if_pos (by decide)
    rw [this, List.length_dropLast]
    omega

theorem length_foldl_descend_le (segs path : List (List Char)) :
    (segs.foldl P.descend path).length ≤ path.length + segs.length := by
  induction segs generalizing path with
  | nil => simp
  | cons s segs ih =>
    have hstep : (P.descend path s).length ≤ path.length + 1 := by
      unfold descend
      split_ifs
      · rw [List.length_dropLast]
        omega
      · omega
      · simp
    have := ih (P.descend path s)
    rw [List.foldl_cons, List.length_cons]
    omega

/-- The parser leaves the path as it is. -/
def Fixed (P : UrlParser) (path : List Char) : Prop :=
  ∃ rest, path = '/' :: rest ∧ '\\' ∉ rest ∧ ∀ s ∈ rest.splitOn '/', P.Plain s

theorem Fixed.resolve {path : List Char} (h : P.Fixed path) :
    (P.resolve (segments path)).flatMap ('/' :: ·) = path := by
  obtain ⟨rest, rfl, hslash, hplain⟩ := h
  rw [segments_eq_splitOn hslash, resolve_plain hplain, flatMap_splitOn]

/-- A path whose segments all occur in its resolved form is left as it is. -/
theorem fixed_of_segments {rest text : List Char}
    (h : (P.resolve (segments ('/' :: rest))).flatMap ('/' :: ·) = '/' :: text)
    (hsegs : ∀ s ∈ rest.splitOn '/', s = [] ∨ s ∈ text.splitOn '/') : P.Fixed ('/' :: rest) := by
  have hclean : ∀ t ∈ P.resolve (segments ('/' :: rest)), ∀ c ∈ t, isSlash c = false ∧
      P.encodes c = false := by
    intro t ht c hc
    rcases mem_resolve ht with rfl | ⟨s, hs, -, rfl⟩
    · exact absurd hc List.not_mem_nil
    · exact ⟨not_isSlash_of_mem_encode (fun d hd => not_isSlash_of_mem_segments hs hd) hc,
        not_encodes_of_mem_encode hc⟩
  have htext : text.splitOn '/' = P.resolve (segments ('/' :: rest)) := by
    have hslash : '\\' ∉ text := by
      intro hmem
      have hmem' : '\\' ∈ (P.resolve (segments ('/' :: rest))).flatMap ('/' :: ·) :=
        h ▸ List.mem_cons_of_mem _ hmem
      obtain ⟨t, ht, hc⟩ := List.mem_flatMap.mp hmem'
      rcases List.mem_cons.mp hc with hc | hc
      · exact absurd hc (by decide)
      · exact absurd (hclean t ht _ hc).1 (by decide)
    rw [← segments_eq_splitOn hslash, ← h]
    exact segments_flatMap (resolve_ne_nil (List.splitOnP_ne_nil _ _)) fun t ht c hc =>
      (hclean t ht c hc).1
  have hchars : ∀ s ∈ rest.splitOn '/', ∀ c ∈ s, isSlash c = false ∧ P.encodes c = false := by
    intro s hs c hc
    rcases hsegs s hs with rfl | hs
    · exact absurd hc List.not_mem_nil
    · exact hclean s (htext ▸ hs) c hc
  have hback : '\\' ∉ rest := by
    intro hmem
    have hne : '\\' ≠ '/' := by decide
    obtain ⟨s, hs, hc⟩ := (mem_splitOn_iff hne rest).mpr hmem
    exact absurd (hchars s hs _ hc).1 (by decide)
  refine ⟨rest, rfl, hback, fun s hs => ⟨fun c hc => (hchars s hs c hc).2, ?_⟩⟩
  rcases hsegs s hs with rfl | hmem
  · decide
  · rw [htext] at hmem
    rcases mem_resolve hmem with rfl | ⟨s', hs', hdots, rfl⟩
    · decide
    · rw [segments_eq_splitOn hback] at hs'
      rwa [encode_eq_self fun c hc => (hchars s' hs' c hc).2]

end UrlParser

/-! ## Whole addresses -/

/-- Scheme and authority as an address spells them. -/
def OriginText (origin : List Char) : Prop :=
  ∃ scheme ∈ ["http://".toList, "https://".toList], ∃ authority, origin = scheme ++ authority ∧
    authority ≠ [] ∧
    ∀ c ∈ authority, inAuthority c = true ∧ isControlOrSpace c = false

/-- Scheme and authority as a parser accepts them. -/
def UrlParser.IsOrigin (P : UrlParser) (origin : List Char) : Prop :=
  P.acceptsOrigin origin = true ∧ OriginText origin

theorem strip_eq_filter {text : List Char} (hfirst : ∀ c ∈ text.head?, isControlOrSpace c = false)
    (hlast : ∀ c ∈ text.getLast?, isControlOrSpace c = false) :
    strip text = text.filter (fun c => !isTabOrNewline c) := by
  have hdrop : text.dropWhile isControlOrSpace = text := by
    cases text with
    | nil => rfl
    | cons c text => rw [List.dropWhile_cons_of_neg (by simpa using hfirst c rfl)]
  have hrdrop : text.rdropWhile isControlOrSpace = text := by
    rw [List.rdropWhile_eq_self_iff]
    intro hne
    simpa using hlast _ (List.getLast?_eq_some_getLast hne)
  rw [strip, trimMatches, hdrop, hrdrop]

theorem filter_tabOrNewline_eq_self {text : List Char}
    (h : ∀ c ∈ text, isControlOrSpace c = false) :
    text.filter (fun c => !isTabOrNewline c) = text := by
  rw [List.filter_eq_self]
  intro c hc
  have hcontrol := h c hc
  by_contra htab
  simp only [isTabOrNewline, Bool.not_eq_true', Bool.or_eq_false_iff, beq_eq_false_iff_ne,
    not_and_or, not_not] at htab
  rcases htab with (rfl | rfl) | rfl <;> exact absurd hcontrol (by decide)

section Origin
variable {origin : List Char}

theorem OriginText.not_control (h : OriginText origin) :
    ∀ c ∈ origin, isControlOrSpace c = false := by
  obtain ⟨scheme, hs, authority, rfl, -, hauth⟩ := h
  intro c hc
  rcases List.mem_append.mp hc with hc | hc
  · have hschemes : ∀ s ∈ ["http://".toList, "https://".toList], ∀ d ∈ s,
        isControlOrSpace d = false := by
      simp [isControlOrSpace]
    exact hschemes scheme hs c hc
  · exact (hauth c hc).2

theorem OriginText.ne_nil (h : OriginText origin) : origin ≠ [] := by
  obtain ⟨scheme, -, authority, rfl, hne, -⟩ := h
  exact List.append_ne_nil_of_right_ne_nil _ hne

theorem splitOrigin_append (h : OriginText origin) {rest : List Char}
    (hrest : ∀ c ∈ rest.head?, inAuthority c = false) :
    splitOrigin (origin ++ rest) = some (origin, rest) := by
  obtain ⟨scheme, hs, authority, rfl, hne, hauth⟩ := h
  have hauth' : ∀ c ∈ authority, inAuthority c = true := fun c hc => (hauth c hc).1
  have hslash : (authority ++ rest).dropWhile isSlash = authority ++ rest := by
    cases authority with
    | nil => exact absurd rfl hne
    | cons c authority =>
      have hc := hauth' c List.mem_cons_self
      rw [List.cons_append, List.dropWhile_cons_of_neg]
      simp only [inAuthority, Bool.and_eq_true, Bool.not_eq_true'] at hc
      simp [hc.1]
  have htake : (authority ++ rest).takeWhile inAuthority = authority := by
    rw [List.takeWhile_append_of_pos hauth']
    cases rest with
    | nil => simp
    | cons c rest => rw [List.takeWhile_cons_of_neg (by simpa using hrest c rfl), List.append_nil]
  have hdrop : (authority ++ rest).dropWhile inAuthority = rest := by
    rw [List.dropWhile_append_of_pos hauth']
    cases rest with
    | nil => rfl
    | cons c rest => rw [List.dropWhile_cons_of_neg (by simpa using hrest c rfl)]
  have hstrip : ∀ s : List Char,
      stripPrefix s (s ++ (authority ++ rest)) = some (authority ++ rest) :=
    fun s => stripPrefix_eq_some_iff.mpr rfl
  rw [List.append_assoc]
  rcases List.mem_cons.mp hs with rfl | hs
  · simp only [splitOrigin, List.findSome?_cons, hstrip, Option.map_some, hslash, htake, hdrop]
  · obtain rfl := List.mem_singleton.mp hs
    have hhttp : stripPrefix "http://".toList ("https://".toList ++ (authority ++ rest)) =
        none := by
      unfold stripPrefix
      rw [if_neg]
      simp
    simp only [splitOrigin, List.findSome?_cons, hhttp, hstrip, Option.map_some, Option.map_none,
      hslash, htake, hdrop]

theorem strip_append (h : OriginText origin) {rest : List Char}
    (hrest : ∀ c ∈ rest, isControlOrSpace c = false) : strip (origin ++ rest) = origin ++ rest := by
  have hall : ∀ c ∈ origin ++ rest, isControlOrSpace c = false := by
    intro c hc
    rcases List.mem_append.mp hc with hc | hc
    · exact h.not_control c hc
    · exact hrest c hc
  rw [strip_eq_filter (fun c hc => hall c (List.mem_of_mem_head? hc))
    (fun c hc => hall c (List.mem_of_getLast? hc)),
    filter_tabOrNewline_eq_self hall]

end Origin

namespace UrlParser
variable {P : UrlParser} {origin : List Char}

/-- The path of an address starts right after its origin and ends before `?` and `#`. -/
theorem parse_of_strip (h : OriginText origin) {text rest : List Char}
    (hstrip : strip text = origin ++ rest) (hrest : ∀ c ∈ rest.head?, inAuthority c = false) :
    P.parse text = if P.acceptsOrigin origin then
      some ⟨origin, P.resolve (segments (rest.takeWhile (fun c => !endsPath c))),
        queryOf (rest.dropWhile (fun c => !endsPath c))⟩ else none := by
  rw [parse, hstrip, splitOrigin_append h hrest]

/-- A segment that an address can spell out: kept as it is and ending nothing. -/
def Literal (P : UrlParser) (segment : List Char) : Prop :=
  P.Plain segment ∧ ∀ c ∈ segment, isSlash c = false ∧ endsPath c = false ∧
    isControlOrSpace c = false

theorem literal_of_alphanum {segment : List Char} (h : segment.all Char.isAlphanum = true)
    (hdots : isDots segment = false) : P.Literal segment := by
  rw [List.all_eq_true] at h
  refine ⟨⟨fun c hc => P.keeps_alphanum c (h c hc), hdots⟩, fun c hc => ?_⟩
  have hne : ∀ d : Char, d.isAlphanum = false → c ≠ d := by
    rintro d hd rfl
    exact absurd (h c hc) (by simp [hd])
  refine ⟨?_, ?_, ?_⟩
  · simp [isSlash, hne '/' (by decide), hne '\\' (by decide)]
  · simp [endsPath, hne '?' (by decide), hne '#' (by decide)]
  · have hb := bounds_of_isAlphanum (h c hc)
    rw [isControlOrSpace, decide_eq_false_iff_not]
    omega

theorem literal_of_all {segs : List (List Char)}
    (h : segs.all (fun s => s.all Char.isAlphanum && !isDots s) = true) :
    ∀ s ∈ segs, P.Literal s := by
  rw [List.all_eq_true] at h
  intro s hs
  have hboth := h s hs
  rw [Bool.and_eq_true, Bool.not_eq_true'] at hboth
  exact literal_of_alphanum hboth.1 hboth.2

theorem mem_flatMap_slash {segs : List (List Char)}
    (h : ∀ s ∈ segs, ∀ c ∈ s, endsPath c = false ∧ isControlOrSpace c = false) :
    ∀ c ∈ segs.flatMap ('/' :: ·), endsPath c = false ∧ isControlOrSpace c = false := by
  intro c hc
  obtain ⟨s, hs, hc⟩ := List.mem_flatMap.mp hc
  rcases List.mem_cons.mp hc with rfl | hc
  · decide
  · exact h s hs c hc

theorem exists_flatMap_eq_cons {segs : List (List Char)} (hne : segs ≠ []) :
    ∃ path, segs.flatMap ('/' :: ·) = '/' :: path := by
  cases segs with
  | nil => exact absurd rfl hne
  | cons s segs => exact ⟨_, rfl⟩

/-- An address without query and fragment. -/
theorem parse_path (h : P.IsOrigin origin) {text path : List Char}
    (hstrip : strip text = origin ++ '/' :: path) (hpath : ∀ c ∈ path, endsPath c = false) :
    P.parse text = some ⟨origin, P.resolve (segments ('/' :: path)), none⟩ := by
  have hends : ∀ c ∈ '/' :: path, (!endsPath c) = true := by
    intro c hc
    rcases List.mem_cons.mp hc with rfl | hc
    · decide
    · simp [hpath c hc]
  have hhead : ∀ c ∈ ('/' :: path).head?, inAuthority c = false := by
    rw [List.head?_cons]
    rintro c ⟨⟩
    decide
  rw [parse_of_strip h.2 hstrip hhead, List.takeWhile_eq_self_iff.mpr hends,
    List.dropWhile_eq_nil_iff.mpr hends, if_pos h.1]
  rfl

/-- Literal segments are read back as they were written. -/
theorem parse_literal (h : P.IsOrigin origin) {segs : List (List Char)} (hne : segs ≠ [])
    (hlit : ∀ s ∈ segs, P.Literal s) :
    P.parse (origin ++ segs.flatMap ('/' :: ·)) = some ⟨origin, segs, none⟩ := by
  have hchars := mem_flatMap_slash fun s hs c hc => ((hlit s hs).2 c hc).2
  have hsegs := segments_flatMap hne fun s hs c hc => ((hlit s hs).2 c hc).1
  obtain ⟨path, hpath⟩ := exists_flatMap_eq_cons hne
  rw [hpath] at hchars hsegs ⊢
  have hstrip := strip_append h.2 fun c hc => (hchars c hc).2
  rw [parse_path h hstrip fun c hc => (hchars c (List.mem_cons_of_mem _ hc)).1, hsegs,
    resolve_plain fun s hs => (hlit s hs).1]

theorem resolve_up {lead segs : List (List Char)} (hne : segs ≠ [])
    (hplain : ∀ s ∈ segs, P.Plain s) :
    P.resolve (lead ++ (List.replicate lead.length "..".toList ++ segs)) = segs := by
  have hroot : (lead ++ List.replicate lead.length "..".toList).foldl P.descend [] = [] := by
    rw [List.foldl_append]
    apply foldl_descend_up
    simpa using length_foldl_descend_le lead []
  have hresolve : P.resolve (lead ++ (List.replicate lead.length "..".toList ++ segs)) =
      P.resolve segs := by
    rw [← List.append_assoc, resolve, resolve, List.foldl_append, hroot,
      List.getLast?_append_of_ne_nil _ hne]
  rw [hresolve, resolve_plain hplain]

/-- Whatever a path starts with, enough steps up lead from there to any literal path. -/
theorem parse_up (h : P.IsOrigin origin) {lead : List Char} (hlead : ∀ c ∈ lead, endsPath c = false)
    {segs : List (List Char)} (hne : segs ≠ []) (hlit : ∀ s ∈ segs, P.Literal s) :
    ∃ n, P.parse
      (origin ++ '/' :: (lead ++ (List.replicate n "..".toList ++ segs).flatMap ('/' :: ·))) =
      some ⟨origin, segs, none⟩ := by
  obtain ⟨kept, hkept⟩ : ∃ kept, lead.filter (fun c => !isTabOrNewline c) = kept := ⟨_, rfl⟩
  refine ⟨(kept.splitOnP isSlash).length, ?_⟩
  obtain ⟨ups, hups⟩ : ∃ ups, List.replicate (kept.splitOnP isSlash).length "..".toList = ups :=
    ⟨_, rfl⟩
  have hmem : ∀ s ∈ ups ++ segs, ∀ c ∈ s, isSlash c = false ∧ endsPath c = false ∧
      isControlOrSpace c = false := by
    intro s hs c hc
    rcases List.mem_append.mp hs with hs | hs
    · rw [← hups] at hs
      obtain rfl := List.eq_of_mem_replicate hs
      obtain rfl : c = '.' := by simpa using hc
      decide
    · exact (hlit s hs).2 c hc
  have hchars := mem_flatMap_slash fun s hs c hc => (hmem s hs c hc).2
  have hus :=
    segments_flatMap (by simp [hne] : ups ++ segs ≠ []) fun s hs c hc => (hmem s hs c hc).1
  obtain ⟨tail, htail⟩ := exists_flatMap_eq_cons (by simp [hne] : ups ++ segs ≠ [])
  rw [hups, htail]
  rw [htail] at hchars hus
  have hstrip : strip (origin ++ '/' :: (lead ++ '/' :: tail)) =
      origin ++ '/' :: (kept ++ '/' :: tail) := by
    have hfirst : ∀ c ∈ (origin ++ '/' :: (lead ++ '/' :: tail)).head?,
        isControlOrSpace c = false := by
      intro c hc
      rw [List.head?_append_of_ne_nil _ h.2.ne_nil] at hc
      exact h.2.not_control c (List.mem_of_mem_head? hc)
    have hlast : ∀ c ∈ (origin ++ '/' :: (lead ++ '/' :: tail)).getLast?,
        isControlOrSpace c = false := by
      intro c hc
      rw [← List.cons_append, ← List.append_assoc, List.getLast?_append_of_ne_nil _ (by simp)] at hc
      exact (hchars c (List.mem_of_getLast? hc)).2
    have hslash : isTabOrNewline '/' = false := by decide
    rw [strip_eq_filter hfirst hlast, List.filter_append,
      filter_tabOrNewline_eq_self h.2.not_control, ← List.cons_append, List.filter_append,
      filter_tabOrNewline_eq_self fun c hc => (hchars c hc).2]
    simp [hslash, hkept]
  have hends : ∀ c ∈ kept ++ '/' :: tail, endsPath c = false := by
    intro c hc
    rcases List.mem_append.mp hc with hc | hc
    · rw [← hkept] at hc
      exact hlead c (List.mem_of_mem_filter hc)
    · exact (hchars c hc).1
  have hsegments : segments ('/' :: (kept ++ '/' :: tail)) =
      kept.splitOnP isSlash ++ (ups ++ segs) := by
    rw [← hus]
    simp only [segments, List.drop_succ_cons, List.drop_zero]
    exact List.splitOnP_append_cons _ _ (by decide)
  rw [parse_path h hstrip hends, hsegments, ← hups, resolve_up hne fun s hs => (hlit s hs).1]

end UrlParser
end Facet.UrlSyntax
