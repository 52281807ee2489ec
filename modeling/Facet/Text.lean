import Mathlib

/-!
# Texts as lists

Text operations whose exact result matters are done on lists of characters: cutting at
the first occurrence of a separator, stripping a prefix, and replacing every occurrence
of a pattern from left to right.
-/
namespace Facet.Text
variable {α : Type*} [DecidableEq α]

/-- The parts before and after the first `c`. -/
def cut (c : α) : List α → Option (List α × List α)
  | [] => none
  | x :: xs => if x = c then some ([], xs) else (cut c xs).map fun p => (x :: p.1, p.2)

theorem cut_eq_some_iff {c : α} {s a b : List α} :
    cut c s = some (a, b) ↔ s = a ++ c :: b ∧ c ∉ a := by
  induction s generalizing a with
  | nil => simp [cut]
  | cons x xs ih =>
    by_cases hx : x = c
    · subst hx
      simp only [cut, if_true, Option.some.injEq, Prod.mk.injEq]
      constructor
      · rintro ⟨rfl, rfl⟩
        simp
      · rintro ⟨he, hnot⟩
        cases a with
        | nil => simpa using he
        | cons y ys =>
          rw [List.cons_append, List.cons.injEq] at he
          exact absurd (he.1 ▸ List.mem_cons_self) hnot
    · simp only [cut, if_neg hx, Option.map_eq_some_iff, Prod.mk.injEq]
      constructor
      · rintro ⟨⟨a', b'⟩, hcut, rfl, rfl⟩
        obtain ⟨rfl, hnot⟩ := ih.mp hcut
        exact ⟨rfl, by simp [hnot, Ne.symm hx]⟩
      · rintro ⟨he, hnot⟩
        cases a with
        | nil =>
          rw [List.nil_append, List.cons.injEq] at he
          exact absurd he.1 hx
        | cons y ys =>
          rw [List.cons_append, List.cons.injEq] at he
          obtain ⟨rfl, rfl⟩ := he
          exact ⟨(ys, b), ih.mpr ⟨rfl, fun h => hnot (List.mem_cons_of_mem _ h)⟩, rfl, rfl⟩

theorem cut_eq_none_iff {c : α} {s : List α} : cut c s = none ↔ c ∉ s := by
  induction s with
  | nil => simp [cut]
  | cons x xs ih =>
    by_cases hx : x = c
    · simp [cut, hx]
    · simp [cut, hx, ih, Ne.symm hx]

/-- `s` without the prefix `p`, when it starts with it. -/
def stripPrefix (p s : List α) : Option (List α) := if p <+: s then some (s.drop p.length) else none

theorem stripPrefix_eq_some_iff {p s t : List α} : stripPrefix p s = some t ↔ s = p ++ t := by
  unfold stripPrefix
  constructor
  · intro h
    split_ifs at h with hp
    obtain ⟨u, rfl⟩ := hp
    rw [← Option.some.inj h, List.drop_left]
  · rintro rfl
    rw [if_pos (List.prefix_append p t), List.drop_left]

/-- `s` without the suffix `p`, when it ends with it. -/
def stripSuffix (p s : List α) : Option (List α) :=
  if p <:+ s then some (s.take (s.length - p.length)) else none

theorem stripSuffix_eq_some_iff {p s t : List α} : stripSuffix p s = some t ↔ s = t ++ p := by
  unfold stripSuffix
  constructor
  · intro h
    split_ifs at h with hp
    obtain ⟨u, rfl⟩ := hp
    rw [← Option.some.inj h, List.length_append, Nat.add_sub_cancel, List.take_left]
  · rintro rfl
    rw [if_pos (List.suffix_append t p), List.length_append, Nat.add_sub_cancel, List.take_left]

/-- The parts before and after the last `c`. -/
def cutLast (c : α) (s : List α) : Option (List α × List α) :=
  (cut c s.reverse).map fun p => (p.2.reverse, p.1.reverse)

theorem cutLast_append {c : α} {b : List α} (a : List α) (h : c ∉ b) :
    cutLast c (a ++ c :: b) = some (a, b) := by
  have hcut : cut c (a ++ c :: b).reverse = some (b.reverse, a.reverse) := by
    rw [cut_eq_some_iff]
    simp [h]
  rw [cutLast, hcut]
  simp

theorem cutLast_eq_some {c : α} {s a b : List α} (h : cutLast c s = some (a, b)) :
    s = a ++ c :: b ∧ c ∉ b := by
  obtain ⟨⟨x, y⟩, hcut, heq⟩ := Option.map_eq_some_iff.mp h
  obtain ⟨hs, hnot⟩ := cut_eq_some_iff.mp hcut
  obtain ⟨rfl, rfl⟩ := Prod.mk.inj heq
  refine ⟨?_, by simpa using hnot⟩
  rw [← List.reverse_reverse s, hs]
  simp

theorem cutLast_eq_none_iff {c : α} {s : List α} : cutLast c s = none ↔ c ∉ s := by
  rw [cutLast, Option.map_eq_none_iff, cut_eq_none_iff, List.mem_reverse]

def trimMatches (p : α → Bool) (s : List α) : List α := (s.dropWhile p).rdropWhile p

/-- The characters with the Unicode property `White_Space`. -/
def isWhitespace (c : Char) : Bool :=
  let n := c.toNat
  decide (0x09 ≤ n ∧ n ≤ 0x0D ∨ 0x2000 ≤ n ∧ n ≤ 0x200A) ||
    [0x20, 0x85, 0xA0, 0x1680, 0x2028, 0x2029, 0x202F, 0x205F, 0x3000].contains n

/-- Replacement with `skip` characters of a match still to pass over. -/
def replaceFrom (pat rep : List α) : ℕ → List α → List α
  | _, [] => []
  | skip + 1, _ :: xs => replaceFrom pat rep skip xs
  | 0, x :: xs =>
    if pat <+: x :: xs then rep ++ replaceFrom pat rep (pat.length - 1) xs
    else x :: replaceFrom pat rep 0 xs

/-- Every occurrence of a non-empty pattern replaced, from left to right without overlaps. -/
def replace (pat rep s : List α) : List α := replaceFrom pat rep 0 s

theorem mem_of_mem_replaceFrom {pat rep s : List α} {c : α} {skip : ℕ} (hrep : c ∉ rep)
    (h : c ∈ replaceFrom pat rep skip s) : c ∈ s := by
  induction s generalizing skip with
  | nil => simp [replaceFrom] at h
  | cons x xs ih =>
    cases skip with
    | succ skip => exact List.mem_cons_of_mem _ (ih h)
    | zero =>
      rw [replaceFrom] at h
      split_ifs at h
      · rcases List.mem_append.mp h with h | h
        · exact absurd h hrep
        · exact List.mem_cons_of_mem _ (ih h)
      · rcases List.mem_cons.mp h with rfl | h
        · exact List.mem_cons_self
        · exact List.mem_cons_of_mem _ (ih h)

theorem mem_replaceFrom_of_mem {pat rep s : List α} {c : α} {skip : ℕ} (hne : pat ≠ [])
    (hpat : c ∉ pat) (h : c ∈ s.drop skip) : c ∈ replaceFrom pat rep skip s := by
  induction s generalizing skip with
  | nil => simp at h
  | cons x xs ih =>
    cases skip with
    | succ skip => exact ih (by simpa using h)
    | zero =>
      rw [List.drop_zero] at h
      rw [replaceFrom]
      split_ifs with hp
      · obtain ⟨t, ht⟩ := hp
        have hct : c ∈ t := by
          rw [← ht] at h
          exact (List.mem_append.mp h).resolve_left hpat
        apply List.mem_append_right
        apply ih
        cases pat with
        | nil => exact absurd rfl hne
        | cons y ys =>
          rw [List.cons_append, List.cons.injEq] at ht
          simpa [← ht.2] using hct
      · rcases List.mem_cons.mp h with rfl | h
        · exact List.mem_cons_self
        · exact List.mem_cons_of_mem _ (ih h)

/-- A character foreign to pattern and replacement is neither lost nor made. -/
theorem mem_replace_iff {pat rep s : List α} {c : α} (hne : pat ≠ []) (hpat : c ∉ pat)
    (hrep : c ∉ rep) : c ∈ replace pat rep s ↔ c ∈ s :=
  ⟨mem_of_mem_replaceFrom hrep, fun h => mem_replaceFrom_of_mem hne hpat (by simpa using h)⟩

theorem mem_splitOn_iff {sep c : α} (hne : c ≠ sep) (s : List α) :
    (∃ part ∈ s.splitOn sep, c ∈ part) ↔ c ∈ s := by
  induction s with
  | nil => simp
  | cons x xs ih =>
    rw [List.splitOn_cons_eq_if_modifyHead]
    by_cases hx : x = sep
    · simp [hx, hne, ih]
    · cases hs : xs.splitOn sep with
      | nil => exact absurd hs (List.splitOn_ne_nil sep xs)
      | cons p ps =>
        rw [hs] at ih
        simp only [beq_iff_eq, hx, if_false, List.modifyHead_cons, List.mem_cons,
          exists_eq_or_imp, ← ih]
        tauto

/-! ## Words -/

/-- The non-empty parts between separators. -/
def words (p : α → Bool) (s : List α) : List (List α) := (s.splitOnP p).filter fun w => !w.isEmpty

/-- `w` stands in `s` from one separator, or the start, to another, or the end. -/
def IsWord (p : α → Bool) (w s : List α) : Prop :=
  w ≠ [] ∧ (∀ c ∈ w, p c = false) ∧ ∃ before after, s = before ++ (w ++ after) ∧
    (∀ c ∈ before.getLast?, p c = true) ∧ ∀ c ∈ after.head?, p c = true

omit [DecidableEq α] in
theorem mem_splitOnP_of_append {p : α → Bool} {w before after : List α} (hw : ∀ c ∈ w, p c = false)
    (hbefore : ∀ c ∈ before.getLast?, p c = true) (hafter : ∀ c ∈ after.head?, p c = true) :
    w ∈ (before ++ (w ++ after)).splitOnP p := by
  have htail : w ∈ (w ++ after).splitOnP p := by
    cases after with
    | nil =>
      rw [List.append_nil, List.splitOnP_eq_singleton hw]
      exact List.mem_singleton_self w
    | cons sep after =>
      rw [List.splitOnP_append_cons_of_forall_mem hw sep (hafter sep (by simp))]
      exact List.mem_cons_self
  rcases List.eq_nil_or_concat before with rfl | ⟨b, sep, rfl⟩
  · exact htail
  · rw [List.concat_eq_append, List.append_assoc, List.singleton_append,
      List.splitOnP_append_cons b _ (hbefore sep (by simp))]
    exact List.mem_append_right _ htail

omit [DecidableEq α] in
theorem exists_append_of_mem_splitOnP {p : α → Bool} {w : List α} (n : ℕ) {s : List α}
    (hn : s.length ≤ n) (h : w ∈ s.splitOnP p) :
    (∀ c ∈ w, p c = false) ∧ ∃ before after, s = before ++ (w ++ after) ∧
      (∀ c ∈ before.getLast?, p c = true) ∧ ∀ c ∈ after.head?, p c = true := by
  induction n generalizing s with
  | zero =>
    obtain rfl : s = [] := List.length_eq_zero_iff.mp (by omega)
    obtain rfl : w = [] := by simpa using h
    exact ⟨by simp, [], [], rfl, by simp, by simp⟩
  | succ n ih =>
    have hspan : s.takeWhile (fun c => !p c) ++ s.dropWhile (fun c => !p c) = s :=
      List.takeWhile_append_dropWhile
    have hfirst : ∀ c ∈ s.takeWhile (fun c => !p c), p c = false := by
      intro c hc
      simpa using List.mem_takeWhile_imp hc
    generalize s.takeWhile (fun c => !p c) = first at hspan hfirst
    cases hrest : s.dropWhile (fun c => !p c) with
    | nil =>
      rw [hrest, List.append_nil] at hspan
      subst hspan
      rw [List.splitOnP_eq_singleton hfirst, List.mem_singleton] at h
      exact ⟨h ▸ hfirst, [], [], by simp [h], by simp, by simp⟩
    | cons sep rest =>
      have hsep : p sep = true := by
        have hne : s.dropWhile (fun c => !p c) ≠ [] := by simp [hrest]
        have hhead := List.head_dropWhile_not (fun c => !p c) hne
        simpa [hrest] using hhead
      rw [hrest] at hspan
      subst hspan
      rw [List.splitOnP_append_cons_of_forall_mem hfirst sep hsep, List.mem_cons] at h
      rcases h with rfl | h
      · exact ⟨hfirst, [], sep :: rest, by simp, by simp, by simp [hsep]⟩
      · rw [List.length_append, List.length_cons] at hn
        obtain ⟨hw, before, after, rfl, hbefore, hafter⟩ := ih (by omega) h
        refine ⟨hw, first ++ sep :: before, after, by simp, ?_, hafter⟩
        intro c hc
        cases before with
        | nil =>
          obtain rfl : sep = c := by simpa using hc
          exact hsep
        | cons b bs => exact hbefore c (by simpa [List.getLast?_append] using hc)

omit [DecidableEq α] in
theorem mem_words_iff {p : α → Bool} {w s : List α} : w ∈ words p s ↔ IsWord p w s := by
  rw [words, List.mem_filter, IsWord]
  constructor
  · intro h
    exact ⟨by simpa using h.2, exists_append_of_mem_splitOnP s.length le_rfl h.1⟩
  · intro h
    obtain ⟨hne, hw, before, after, rfl, hbefore, hafter⟩ := h
    exact ⟨mem_splitOnP_of_append hw hbefore hafter, by simpa using hne⟩

omit [DecidableEq α] in
theorem IsWord.eq_of_forall {p : α → Bool} {w s : List α} (h : IsWord p w s)
    (hs : ∀ c ∈ s, p c = false) : w = s := by
  obtain ⟨-, -, before, after, rfl, hbefore, hafter⟩ := h
  have hnil : before = [] := by
    rw [← List.getLast?_eq_none_iff, Option.eq_none_iff_forall_ne_some]
    intro c hc
    have hmem := List.mem_of_getLast? hc
    exact absurd (hbefore c hc) (by simp [hs c (List.mem_append_left _ hmem)])
  have hnil' : after = [] := by
    cases after with
    | nil => rfl
    | cons c after => exact absurd (hafter c (by simp)) (by simp [hs c (by simp)])
  rw [hnil, hnil', List.nil_append, List.append_nil]

/-! ## Decimal numbers -/

def parseDigits (s : List Char) : Option ℕ :=
  if s ≠ [] ∧ s.all Char.isDigit = true then some (Nat.ofDigitChars 10 s 0) else none

def parseU64 : List Char → Option ℕ
  | '+' :: digits => (parseDigits digits).filter (· < 2 ^ 64)
  | digits => (parseDigits digits).filter (· < 2 ^ 64)

/-- Signed numbers of 64 bits; either sign may be written. -/
def parseI64 : List Char → Option ℤ
  | '-' :: digits => ((parseDigits digits).filter (· ≤ 2 ^ 63)).map fun n => -(n : ℤ)
  | '+' :: digits => ((parseDigits digits).filter (· < 2 ^ 63)).map Int.ofNat
  | digits => ((parseDigits digits).filter (· < 2 ^ 63)).map Int.ofNat

theorem isDigit_of_mem_repr {n : ℕ} {c : Char} (h : c ∈ n.repr.toList) : c.isDigit = true := by
  rw [Nat.toList_repr] at h
  exact Nat.isDigit_of_mem_toDigits (by decide) (by decide) h

theorem parseDigits_repr (n : ℕ) : parseDigits n.repr.toList = some n := by
  have hne : n.repr.toList ≠ [] := by simp [Nat.toDigits_ne_nil]
  have hall : n.repr.toList.all Char.isDigit = true :=
    List.all_eq_true.mpr fun c hc => isDigit_of_mem_repr hc
  rw [parseDigits, if_pos ⟨hne, hall⟩, Nat.toList_repr, Nat.ofDigitChars_ten_toDigits]

theorem exists_repr_eq_cons (n : ℕ) : ∃ c cs, n.repr.toList = c :: cs ∧ c ≠ '+' ∧ c ≠ '-' := by
  cases h : n.repr.toList with
  | nil => exact absurd h (by simp [Nat.toDigits_ne_nil])
  | cons c cs =>
    have hc : c.isDigit = true := isDigit_of_mem_repr (n := n) (by simp [h])
    refine ⟨c, cs, rfl, ?_, ?_⟩
    · intro he
      rw [he] at hc
      exact absurd hc (by decide)
    · intro he
      rw [he] at hc
      exact absurd hc (by decide)

theorem parseU64_repr {n : ℕ} (h : n < 2 ^ 64) : parseU64 n.repr.toList = some n := by
  have hd := parseDigits_repr n
  obtain ⟨c, cs, he, hplus, -⟩ := exists_repr_eq_cons n
  rw [he] at hd ⊢
  rw [parseU64, hd]
  · simpa using h
  · intro digits heq
    exact hplus (List.cons.inj heq).1

theorem parseI64_toString (z : ℤ) :
    parseI64 (toString z).toList = if -2 ^ 63 ≤ z ∧ z < 2 ^ 63 then some z else none := by
  cases z with
  | ofNat n =>
    have hd := parseDigits_repr n
    obtain ⟨c, cs, he, hplus, hminus⟩ := exists_repr_eq_cons n
    have htext : (toString (Int.ofNat n)).toList = c :: cs := he
    rw [he] at hd
    rw [htext, parseI64, hd, Option.filter_some]
    · by_cases hn : n < 2 ^ 63
      · rw [if_pos (by simpa using hn), if_pos (by simp; omega)]
        rfl
      · rw [if_neg (by simpa using hn), if_neg (by simp; omega)]
        rfl
    · intro digits heq
      exact hminus (List.cons.inj heq).1
    · intro digits heq
      exact hplus (List.cons.inj heq).1
  | negSucc n =>
    have hd := parseDigits_repr (n + 1)
    have htext : (toString (Int.negSucc n)).toList = '-' :: (n + 1).repr.toList := by
      rw [Int.toString_eq_repr, Int.repr_eq_if]
      simp
    rw [htext, parseI64, hd, Option.filter_some]
    by_cases hn : n + 1 ≤ 2 ^ 63
    · rw [if_pos (by simpa using hn), if_pos (by constructor <;> omega)]
      simp [Int.negSucc_eq]
    · rw [if_neg (by simpa using hn), if_neg (by omega)]
      rfl

end Facet.Text
