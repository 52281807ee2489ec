import Mathlib

/-!
# Base58

A string of digits is read as one number and written in the other base; leading zeros, which
the number does not show, are carried over one by one.
-/
namespace Facet.Base58

/-! ## From one base to another -/

def leadingZeros (ds : List ℕ) : ℕ := (ds.takeWhile (· == 0)).length

def significant (ds : List ℕ) : List ℕ := ds.dropWhile (· == 0)

/-- Digits of base `b`, the most significant first, in base `c`. -/
def rebase (b c : ℕ) (ds : List ℕ) : List ℕ :=
  List.replicate (leadingZeros ds) 0 ++
    (Nat.digits c (Nat.ofDigits b (significant ds).reverse)).reverse

theorem replicate_append_significant (ds : List ℕ) :
    List.replicate (leadingZeros ds) 0 ++ significant ds = ds := by
  induction ds with
  | nil => rfl
  | cons d ds ih =>
    by_cases hd : d = 0
    · simpa [leadingZeros, significant, hd, List.replicate_succ] using ih
    · simp [leadingZeros, significant, hd]

theorem head_significant (ds : List ℕ) : (significant ds).head? ≠ some 0 := by
  induction ds with
  | nil => simp [significant]
  | cons d ds ih =>
    by_cases hd : d = 0
    · simpa [significant, hd] using ih
    · simp [significant, hd]

section Rest
variable {rest : List ℕ} (hhead : rest.head? ≠ some 0)
include hhead

theorem leadingZeros_append (k : ℕ) : leadingZeros (List.replicate k 0 ++ rest) = k := by
  induction k with
  | zero => cases rest <;> simp_all [leadingZeros]
  | succ k ih => simpa [leadingZeros, List.replicate_succ] using ih

theorem significant_append (k : ℕ) : significant (List.replicate k 0 ++ rest) = rest := by
  induction k with
  | zero => cases rest <;> simp_all [significant]
  | succ k ih => simpa [significant, List.replicate_succ] using ih

/-- Without leading zeros the digits are those of their number. -/
theorem digits_ofDigits_reverse {b : ℕ} (hb : 1 < b) (hlt : ∀ d ∈ rest, d < b) :
    (Nat.digits b (Nat.ofDigits b rest.reverse)).reverse = rest := by
  rw [Nat.digits_ofDigits b hb, List.reverse_reverse]
  · intro d hd
    exact hlt d (List.mem_reverse.mp hd)
  · intro hne hlast
    rw [List.getLast_reverse] at hlast
    exact hhead (List.head_eq_iff_head?_eq_some _ |>.mp hlast)

end Rest

theorem head_digits_reverse (b n : ℕ) : (Nat.digits b n).reverse.head? ≠ some 0 := by
  rw [List.head?_reverse]
  intro hlast
  by_cases hn : n = 0
  · simp [hn] at hlast
  · have hne : Nat.digits b n ≠ [] := Nat.digits_ne_nil_iff_ne_zero.mpr hn
    rw [List.getLast?_eq_getLast_of_ne_nil hne, Option.some.injEq] at hlast
    exact Nat.getLast_digit_ne_zero b hn hlast

theorem rebase_lt {b c : ℕ} (hc : 1 < c) (ds : List ℕ) : ∀ d ∈ rebase b c ds, d < c := by
  intro d hd
  rcases List.mem_append.mp hd with hzero | hdigit
  · have := List.eq_of_mem_replicate hzero
    omega
  · exact Nat.digits_lt_base hc (List.mem_reverse.mp hdigit)

/-- Written in the other base and back. -/
theorem rebase_rebase {b c : ℕ} (hb : 1 < b) {ds : List ℕ} (hlt : ∀ d ∈ ds, d < b) :
    rebase c b (rebase b c ds) = ds := by
  have hhead := head_digits_reverse c (Nat.ofDigits b (significant ds).reverse)
  have hsignificant : ∀ d ∈ significant ds, d < b := by
    intro d hd
    exact hlt d ((List.dropWhile_suffix _).subset hd)
  rw [rebase, rebase, leadingZeros_append hhead, significant_append hhead, List.reverse_reverse,
    Nat.ofDigits_digits, digits_ofDigits_reverse (head_significant ds) hb hsignificant,
    replicate_append_significant]

/-! ## Bytes as text -/

/-- The digits and letters but `0`, `O`, `I` and `l`. -/
def alphabet : List Char := "123456789ABCDEFGHJKLMNPQRSTUVWXYZabcdefghijkmnopqrstuvwxyz".toList

theorem length_alphabet : alphabet.length = 58 := by decide

theorem nodup_alphabet : alphabet.Nodup := by decide

def digit (n : ℕ) : Char := alphabet.getD n '1'

def value (c : Char) : Option ℕ := if c ∈ alphabet then some (alphabet.idxOf c) else none

theorem value_digit {n : ℕ} (hn : n < 58) : value (digit n) = some n := by
  have hlen : n < alphabet.length := by rw [length_alphabet]; exact hn
  have hmem : digit n ∈ alphabet := by simp [digit, hlen]
  rw [value, if_pos hmem]
  simp [digit, hlen, nodup_alphabet.idxOf_getElem]

theorem digit_of_value {c : Char} {n : ℕ} (hvalue : value c = some n) : n < 58 ∧ digit n = c := by
  unfold value at hvalue
  split_ifs at hvalue with hmem
  have hlen := List.idxOf_lt_length_of_mem hmem
  obtain rfl := Option.some.inj hvalue
  refine ⟨by rwa [length_alphabet] at hlen, ?_⟩
  simp [digit, hlen, List.getElem_idxOf]

def encode (bs : List UInt8) : List Char := (rebase 256 58 (bs.map UInt8.toNat)).map digit

def decode (cs : List Char) : Option (List UInt8) :=
  (cs.mapM value).map fun ds => (rebase 58 256 ds).map UInt8.ofNat

theorem toNat_lt_of_mem {bs : List UInt8} : ∀ d ∈ bs.map UInt8.toNat, d < 256 := by
  intro d hd
  obtain ⟨b, -, rfl⟩ := List.mem_map.mp hd
  exact b.toNat_lt

theorem mapM_value_digit {ds : List ℕ} (hlt : ∀ d ∈ ds, d < 58) :
    (ds.map digit).mapM value = some ds := by
  induction ds with
  | nil => rfl
  | cons d ds ih =>
    have hd := value_digit (hlt d List.mem_cons_self)
    have hds := ih fun e he => hlt e (List.mem_cons_of_mem d he)
    simp [hd, hds]

theorem digits_of_mapM_value {cs : List Char} {ds : List ℕ} (hvalues : cs.mapM value = some ds) :
    (∀ d ∈ ds, d < 58) ∧ ds.map digit = cs := by
  induction cs generalizing ds with
  | nil =>
    obtain rfl : [] = ds := Option.some.inj hvalues
    exact ⟨by simp, rfl⟩
  | cons c cs ih =>
    rw [List.mapM_cons] at hvalues
    obtain ⟨d, hd, hrest⟩ := Option.bind_eq_some_iff.mp hvalues
    obtain ⟨es, hes, hds⟩ := Option.bind_eq_some_iff.mp hrest
    obtain rfl : d :: es = ds := Option.some.inj hds
    obtain ⟨hlt, hdigit⟩ := digit_of_value hd
    obtain ⟨hall, hmap⟩ := ih hes
    refine ⟨?_, by rw [List.map_cons, hdigit, hmap]⟩
    intro e he
    rcases List.mem_cons.mp he with rfl | he
    · exact hlt
    · exact hall e he

/-- Bytes are read back. -/
theorem decode_encode (bs : List UInt8) : decode (encode bs) = some bs := by
  rw [decode, encode, mapM_value_digit (rebase_lt (by decide) _), Option.map_some,
    rebase_rebase (by decide) toNat_lt_of_mem, List.map_map]
  simp [Function.comp_def]

/-- A text that can be read is the one that its bytes are written as. -/
theorem encode_of_decode {cs : List Char} {bs : List UInt8} (hdecode : decode cs = some bs) :
    encode bs = cs := by
  obtain ⟨ds, hvalues, rfl⟩ := Option.map_eq_some_iff.mp hdecode
  obtain ⟨hlt, hmap⟩ := digits_of_mapM_value hvalues
  have hbytes : ((rebase 58 256 ds).map UInt8.ofNat).map UInt8.toNat = rebase 58 256 ds := by
    rw [List.map_map]
    refine (List.map_congr_left ?_).trans (List.map_id _)
    intro d hd
    have := rebase_lt (b := 58) (by decide : 1 < 256) ds d hd
    simp [UInt8.toNat_ofNat']
    omega
  rw [encode, hbytes, rebase_rebase (by decide) hlt, hmap]

end Facet.Base58
