import Mathlib

/-!
# Base64

Three bytes are four digits of six bits. The alphabets of the codecs differ in two digits
and one of them pads; both refuse left-over bits, so what decodes has one spelling.
-/
namespace Facet.Base64

/-- The 64 digits of a codec; the padding sign is not one of them. -/
structure Alphabet where
  digits : List Char
  length_eq : digits.length = 64
  nodup : digits.Nodup
  pad_notMem : '=' ∉ digits

def letters : List Char := "ABCDEFGHIJKLMNOPQRSTUVWXYZabcdefghijklmnopqrstuvwxyz0123456789".toList

def standard : Alphabet where
  digits := letters ++ ['+', '/']
  length_eq := by decide
  nodup := by decide
  pad_notMem := by decide

def urlSafe : Alphabet where
  digits := letters ++ ['-', '_']
  length_eq := by decide
  nodup := by decide
  pad_notMem := by decide

namespace Alphabet
variable (A : Alphabet)

def digit (n : ℕ) : Char := A.digits.getD n 'A'

def value (c : Char) : Option ℕ := if c ∈ A.digits then some (A.digits.idxOf c) else none

theorem digit_mem {n : ℕ} (h : n < 64) : A.digit n ∈ A.digits := by
  have hn : n < A.digits.length := by rw [A.length_eq]; exact h
  simp [digit, hn]

theorem value_digit {n : ℕ} (h : n < 64) : A.value (A.digit n) = some n := by
  have hn : n < A.digits.length := by rw [A.length_eq]; exact h
  rw [value, if_pos (A.digit_mem h)]
  simp [digit, hn, A.nodup.idxOf_getElem]

end Alphabet

/-- The six-bit groups of a byte string, the last one filled up with zero bits. -/
def sextets : List UInt8 → List ℕ
  | [] => []
  | [a] =>
    let n := a.toNat * 16
    [n / 64, n % 64]
  | [a, b] =>
    let n := (a.toNat * 256 + b.toNat) * 4
    [n / 4096, n / 64 % 64, n % 64]
  | a :: b :: c :: rest =>
    let n := (a.toNat * 256 + b.toNat) * 256 + c.toNat
    n / 262144 :: n / 4096 % 64 :: n / 64 % 64 :: n % 64 :: sextets rest

/-- The bytes of six-bit groups: a single group is too short, and filled-up bits are zero. -/
def bytes : List ℕ → Option (List UInt8)
  | [] => some []
  | [_] => none
  | [x, y] =>
    let n := x * 64 + y
    if n % 16 = 0 then some [UInt8.ofNat (n / 16)] else none
  | [x, y, z] =>
    let n := (x * 64 + y) * 64 + z
    if n % 4 = 0 then some [UInt8.ofNat (n / 1024), UInt8.ofNat (n / 4 % 256)] else none
  | x :: y :: z :: w :: rest =>
    let n := ((x * 64 + y) * 64 + z) * 64 + w
    (bytes rest).map fun bs =>
      UInt8.ofNat (n / 65536) :: UInt8.ofNat (n / 256 % 256) :: UInt8.ofNat (n % 256) :: bs

theorem ofNat_toNat_of_eq {a : UInt8} {n : ℕ} (h : n = a.toNat) : UInt8.ofNat n = a := by
  rw [h]
  exact UInt8.ofNat_toNat

theorem sextets_lt (bs : List UInt8) : ∀ n ∈ sextets bs, n < 64 := by
  induction bs using sextets.induct with
  | case1 => simp [sextets]
  | case2 a =>
    have ha := a.toNat_lt
    simp [sextets]
    omega
  | case3 a b =>
    have ha := a.toNat_lt
    have hb := b.toNat_lt
    simp [sextets]
    omega
  | case4 a b c rest ih =>
    have ha := a.toNat_lt
    have hb := b.toNat_lt
    have hc := c.toNat_lt
    simp only [sextets, List.mem_cons, forall_eq_or_imp]
    refine ⟨by omega, by omega, by omega, by omega, ih⟩

/-- Splitting into groups loses nothing. -/
theorem bytes_sextets (bs : List UInt8) : bytes (sextets bs) = some bs := by
  induction bs using sextets.induct with
  | case1 => rfl
  | case2 a =>
    have ha := a.toNat_lt
    have hn : a.toNat * 16 / 64 * 64 + a.toNat * 16 % 64 = a.toNat * 16 := by omega
    simp only [sextets, bytes, hn]
    rw [if_pos (by omega), ofNat_toNat_of_eq (a := a) (by omega)]
  | case3 a b =>
    have ha := a.toNat_lt
    have hb := b.toNat_lt
    have hn :
        ((a.toNat * 256 + b.toNat) * 4 / 4096 * 64 + (a.toNat * 256 + b.toNat) * 4 / 64 % 64) * 64 +
        (a.toNat * 256 + b.toNat) * 4 % 64 = (a.toNat * 256 + b.toNat) * 4 := by omega
    simp only [sextets, bytes, hn]
    rw [if_pos (by omega), ofNat_toNat_of_eq (a := a) (by omega),
      ofNat_toNat_of_eq (a := b) (by omega)]
  | case4 a b c rest ih =>
    have ha := a.toNat_lt
    have hb := b.toNat_lt
    have hc := c.toNat_lt
    have hn : (((((a.toNat * 256 + b.toNat) * 256 + c.toNat) / 262144) * 64 +
        ((a.toNat * 256 + b.toNat) * 256 + c.toNat) / 4096 % 64) * 64 +
        ((a.toNat * 256 + b.toNat) * 256 + c.toNat) / 64 % 64) * 64 +
        ((a.toNat * 256 + b.toNat) * 256 + c.toNat) % 64 = (a.toNat * 256 + b.toNat) *
          256 + c.toNat := by omega
    simp only [sextets, bytes, ih, hn, Option.map_some]
    rw [ofNat_toNat_of_eq (a := a) (by omega), ofNat_toNat_of_eq (a := b) (by omega),
      ofNat_toNat_of_eq (a := c) (by omega)]

/-! ## Without padding -/

def encode (A : Alphabet) (bs : List UInt8) : List Char := (sextets bs).map A.digit

def decode (A : Alphabet) (cs : List Char) : Option (List UInt8) := cs.mapM A.value >>= bytes

theorem mapM_value_digit (A : Alphabet) {ns : List ℕ} (h : ∀ n ∈ ns, n < 64) :
    (ns.map A.digit).mapM A.value = some ns := by
  induction ns with
  | nil => rfl
  | cons n ns ih =>
    have hn := A.value_digit (h n List.mem_cons_self)
    have hns := ih fun k hk => h k (List.mem_cons_of_mem n hk)
    simp [hn, hns]

theorem decode_encode (A : Alphabet) (bs : List UInt8) : decode A (encode A bs) = some bs := by
  simp [decode, encode, mapM_value_digit A (sextets_lt bs), bytes_sextets]

/-! ## With padding -/

def encodePadded (A : Alphabet) (bs : List UInt8) : List Char :=
  encode A bs ++ List.replicate ((4 - (encode A bs).length % 4) % 4) '='

/-- The text fills whole groups of four, at most two signs of the last being padding. -/
def decodePadded (A : Alphabet) (cs : List Char) : Option (List UInt8) :=
  let body := cs.rdropWhile (· == '=')
  if cs.length % 4 = 0 ∧ cs.length ≤ body.length + 2 then decode A body else none

theorem length_sextets_mod (bs : List UInt8) : (sextets bs).length % 4 ≠ 1 := by
  induction bs using sextets.induct with
  | case1 => simp [sextets]
  | case2 a => simp [sextets]
  | case3 a b => simp [sextets]
  | case4 a b c rest ih =>
    simp only [sextets, List.length_cons]
    omega

theorem pad_notMem_encode (A : Alphabet) (bs : List UInt8) : '=' ∉ encode A bs := by
  intro h
  obtain ⟨n, hn, he⟩ := List.mem_map.mp h
  exact A.pad_notMem (he ▸ A.digit_mem (sextets_lt bs n hn))

theorem notMem_encodePadded {A : Alphabet} {c : Char} (hc : c ∉ A.digits) (hpad : c ≠ '=')
    (bs : List UInt8) : c ∉ encodePadded A bs := by
  intro h
  rcases List.mem_append.mp h with h | h
  · obtain ⟨n, hn, he⟩ := List.mem_map.mp h
    exact hc (he ▸ A.digit_mem (sextets_lt bs n hn))
  · exact hpad (List.eq_of_mem_replicate h)

theorem rdropWhile_pad {xs : List Char} (h : '=' ∉ xs) (k : ℕ) :
    (xs ++ List.replicate k '=').rdropWhile (· == '=') = xs := by
  have hxs : xs.reverse.dropWhile (· == '=') = xs.reverse := by
    rw [List.dropWhile_eq_self_iff]
    intro hpos hhead
    exact h (List.mem_reverse.mp (beq_iff_eq.mp hhead ▸ List.getElem_mem hpos))
  rw [List.rdropWhile, List.reverse_append, List.reverse_replicate,
    List.dropWhile_append_of_pos (fun c hc => beq_iff_eq.mpr (List.eq_of_mem_replicate hc)),
    hxs, List.reverse_reverse]

theorem decodePadded_encodePadded (A : Alphabet) (bs : List UInt8) :
    decodePadded A (encodePadded A bs) = some bs := by
  have hmod := length_sextets_mod bs
  have hlen : (encode A bs).length = (sextets bs).length := by simp [encode]
  rw [decodePadded, encodePadded, rdropWhile_pad (pad_notMem_encode A bs), decode_encode, if_pos]
  simp only [List.length_append, List.length_replicate, hlen]
  omega

end Facet.Base64
