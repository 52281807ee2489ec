import Facet.Text

/-!
# Socket addresses as text

An IP address is written as the standard library writes it, and a socket address is read as it
reads one: an IPv4 address and a port behind a colon, or an IPv6 address in brackets and a port.
-/
namespace Facet.Net

structure Ipv4Addr where
  octets : Fin 4 → Fin 256
  deriving DecidableEq

/-- Eight segments of 16 bits. -/
structure Ipv6Addr where
  segments : List ℕ
  length_eq : segments.length = 8
  segment_lt : ∀ n ∈ segments, n < 65536

inductive IpAddr
  | v4 (ip : Ipv4Addr)
  | v6 (ip : Ipv6Addr)

/-- A socket address; `scope` is the zone of an IPv6 address. -/
inductive SocketAddr
  | v4 (ip : Ipv4Addr) (port : ℕ)
  | v6 (ip : Ipv6Addr) (port : ℕ) (scope : ℕ)

/-! ## Writing -/

def Ipv4Addr.text (ip : Ipv4Addr) : List Char :=
  (ip.octets 0).val.repr.toList ++ '.' :: (ip.octets 1).val.repr.toList ++ '.' ::
    (ip.octets 2).val.repr.toList ++
    '.' :: (ip.octets 3).val.repr.toList

/-- A run of zero segments. -/
structure Span where
  start : ℕ
  len : ℕ

/-- The longest run of zeros, the first of them when there are several; `i` segments were seen. -/
def longestZeros (longest current : Span) (i : ℕ) : List ℕ → Span
  | [] => longest
  | 0 :: rest =>
    let current : Span := ⟨if current.len = 0 then i else current.start, current.len + 1⟩
    longestZeros (if longest.len < current.len then current else longest) current (i + 1) rest
  | _ :: rest => longestZeros longest ⟨0, 0⟩ (i + 1) rest

def segmentsText (segments : List ℕ) : List Char :=
  [':'].intercalate (segments.map (Nat.toDigits 16))

/-- The IPv4 address that `::ffff:0:0/96` maps. -/
def Ipv6Addr.toIpv4Mapped (ip : Ipv6Addr) : Option Ipv4Addr :=
  match ip.segments with
  | [0, 0, 0, 0, 0, 0xffff, high, low] =>
    some ⟨![Fin.ofNat 256 (high / 256), Fin.ofNat 256 high, Fin.ofNat 256 (low / 256),
      Fin.ofNat 256 low]⟩
  | _ => none

def Ipv6Addr.text (ip : Ipv6Addr) : List Char :=
  match ip.toIpv4Mapped with
  | some ip => "::ffff:".toList ++ ip.text
  | none =>
    let zeros := longestZeros ⟨0, 0⟩ ⟨0, 0⟩ 0 ip.segments
    if 1 < zeros.len then
      segmentsText (ip.segments.take zeros.start) ++ "::".toList ++
        segmentsText (ip.segments.drop (zeros.start + zeros.len))
    else segmentsText ip.segments

def IpAddr.text : IpAddr → List Char
  | .v4 ip => ip.text
  | .v6 ip => ip.text

/-! ## Reading -/

/-- A decimal number below `limit`, of at most `maxDigits` digits, with what follows it. -/
def readNumber (maxDigits : Option ℕ) (zeroPrefix : Bool) (limit : ℕ) (s : List Char) :
    Option (ℕ × List Char) :=
  let digits := s.takeWhile Char.isDigit
  let n := Nat.ofDigitChars 10 digits 0
  if digits = [] ∨ maxDigits.any (· < digits.length) ∨
      (!zeroPrefix ∧ digits.head? = some '0' ∧ 1 < digits.length) then none
  else if n < limit then some (n, s.dropWhile Char.isDigit) else none

def readGivenChar (c : Char) : List Char → Option (List Char)
  | d :: rest => if d = c then some rest else none
  | [] => none

def readOctet (s : List Char) : Option (Fin 256 × List Char) :=
  (readNumber (some 3) false 256 s).map fun r => (Fin.ofNat 256 r.1, r.2)

def readIpv4Addr (s : List Char) : Option (Ipv4Addr × List Char) := do
  let (a, s) ← readOctet s
  let (b, s) ← readOctet (← readGivenChar '.' s)
  let (c, s) ← readOctet (← readGivenChar '.' s)
  let (d, s) ← readOctet (← readGivenChar '.' s)
  return (⟨![a, b, c, d]⟩, s)

def readPort (s : List Char) : Option (ℕ × List Char) := do
  readNumber none true 65536 (← readGivenChar ':' s)

def readSocketAddrV4 (s : List Char) : Option (SocketAddr × List Char) := do
  let (ip, s) ← readIpv4Addr s
  let (port, s) ← readPort s
  return (.v4 ip port, s)

/-- Reads what follows the bracket of an IPv6 address. -/
abbrev InBrackets : Type := List Char → Option (SocketAddr × List Char)

def readSocketAddrV6 (inBrackets : InBrackets) (s : List Char) :
    Option (SocketAddr × List Char) := do
  inBrackets (← readGivenChar '[' s)

/-- `parse::<SocketAddr>`: nothing may be left over. -/
def parseSocketAddr (inBrackets : InBrackets) (s : List Char) : Except String SocketAddr :=
  match readSocketAddrV4 s <|> readSocketAddrV6 inBrackets s with
  | some (addr, []) => .ok addr
  | _ => .error "invalid socket address syntax"

/-! ## IPv4 addresses read back -/

theorem readNumber_repr {n limit : ℕ} {maxDigits : Option ℕ} {zeroPrefix : Bool} {rest : List Char}
    (hn : n < limit) (hrest : ∀ c ∈ rest.head?, c.isDigit = false)
    (hmax : maxDigits.any (· < n.repr.toList.length) = false)
    (hzero : zeroPrefix = true ∨ (n.repr.toList.head? = some '0' → n.repr.toList.length = 1)) :
    readNumber maxDigits zeroPrefix limit (n.repr.toList ++ rest) = some (n, rest) := by
  have hdigits : ∀ c ∈ n.repr.toList, c.isDigit = true := fun c hc => Text.isDigit_of_mem_repr hc
  have hend : rest.takeWhile Char.isDigit = [] ∧ rest.dropWhile Char.isDigit = rest := by
    cases rest with
    | nil => exact ⟨rfl, rfl⟩
    | cons c rest => simp [hrest c rfl]
  have htake : (n.repr.toList ++ rest).takeWhile Char.isDigit = n.repr.toList := by
    rw [List.takeWhile_append_of_pos hdigits, hend.1, List.append_nil]
  have hdrop : (n.repr.toList ++ rest).dropWhile Char.isDigit = rest := by
    rw [List.dropWhile_append_of_pos hdigits, hend.2]
  have hne : n.repr.toList ≠ [] := by simp [Nat.toDigits_ne_nil]
  have hvalue : Nat.ofDigitChars 10 n.repr.toList 0 = n := by
    rw [Nat.toList_repr, Nat.ofDigitChars_ten_toDigits]
  unfold readNumber
  dsimp only
  rw [htake, hdrop, hvalue, if_neg, if_pos hn]
  rintro (hnil | hlong | ⟨hpadded, hhead, hlength⟩)
  · exact hne hnil
  · rw [hmax] at hlong
    exact absurd hlong (by simp)
  · rcases hzero with hallowed | hshort
    · simp [hallowed] at hpadded
    · have := hshort hhead
      omega

/-- An octet has at most three digits and no leading zero. -/
theorem octet_text : ∀ n : Fin 256, n.val.repr.toList.length ≤ 3 ∧
    (n.val.repr.toList.head? = some '0' → n.val.repr.toList.length = 1) := by decide +kernel

theorem readOctet_repr (n : Fin 256) {rest : List Char}
    (hrest : ∀ c ∈ rest.head?, c.isDigit = false) :
    readOctet (n.val.repr.toList ++ rest) = some (n, rest) := by
  obtain ⟨hlength, hzero⟩ := octet_text n
  rw [readOctet, readNumber_repr n.isLt hrest (by simpa using hlength) (Or.inr hzero)]
  simp

theorem readIpv4Addr_text (ip : Ipv4Addr) {rest : List Char}
    (hrest : ∀ c ∈ rest.head?, c.isDigit = false) :
    readIpv4Addr (ip.text ++ rest) = some (ip, rest) := by
  have hdot : ∀ tail : List Char, ∀ c ∈ ('.' :: tail).head?, c.isDigit = false := by
    rintro tail c ⟨⟩
    decide
  have hassoc : ip.text ++ rest =
      (ip.octets 0).val.repr.toList ++ '.' :: ((ip.octets 1).val.repr.toList ++
        '.' ::
          ((ip.octets 2).val.repr.toList ++ '.' :: ((ip.octets 3).val.repr.toList ++ rest))) := by
    simp [Ipv4Addr.text]
  have hoctets : ![ip.octets 0, ip.octets 1, ip.octets 2, ip.octets 3] = ip.octets := by
    funext i
    fin_cases i <;> rfl
  rw [hassoc]
  simp only [readIpv4Addr, readOctet_repr _ (hdot _), readOctet_repr _ hrest,
    readGivenChar, if_true, Option.bind_eq_bind, Option.bind_some, hoctets]
  rfl

theorem parseSocketAddr_v4 (inBrackets : InBrackets) (ip : Ipv4Addr) {port : ℕ}
    (hport : port < 65536) :
    parseSocketAddr inBrackets (ip.text ++ ':' :: port.repr.toList) = .ok (.v4 ip port) := by
  have hcolon : ∀ c ∈ (':' :: port.repr.toList).head?, c.isDigit = false := by
    rintro c ⟨⟩
    decide
  have hread : readNumber none true 65536 (port.repr.toList ++ []) = some (port, []) :=
    readNumber_repr hport (by simp) rfl (Or.inl rfl)
  rw [List.append_nil] at hread
  have hsocket : readSocketAddrV4 (ip.text ++ ':' :: port.repr.toList) =
      some (.v4 ip port, []) := by
    simp only [readSocketAddrV4, readIpv4Addr_text ip hcolon, readPort, readGivenChar,
      if_true, Option.bind_eq_bind, Option.bind_some, hread]
    rfl
  rw [parseSocketAddr, hsocket]
  rfl

/-! ## IPv6 addresses without brackets do not -/

theorem readNumber_some {maxDigits : Option ℕ} {zeroPrefix : Bool} {limit n : ℕ}
    {s rest : List Char} (h : readNumber maxDigits zeroPrefix limit s = some (n, rest)) :
    ∃ ds, s = ds ++ rest ∧ ∀ c ∈ ds, c.isDigit = true := by
  unfold readNumber at h
  dsimp only at h
  split_ifs at h
  obtain ⟨-, rfl⟩ := Prod.mk.inj (Option.some.inj h)
  exact ⟨_, List.takeWhile_append_dropWhile.symm, fun c hc => List.mem_takeWhile_imp hc⟩

/-- What is read as an IPv4 address has a dot behind its first digits. -/
theorem readIpv4Addr_some {s rest : List Char} {ip : Ipv4Addr}
    (h : readIpv4Addr s = some (ip, rest)) :
    ∃ ds tail, s = ds ++ '.' :: tail ∧ ∀ c ∈ ds, c.isDigit = true := by
  obtain ⟨⟨a, t⟩, ha, h⟩ := Option.bind_eq_some_iff.mp h
  obtain ⟨t', ht, -⟩ := Option.bind_eq_some_iff.mp h
  obtain ⟨⟨n, u⟩, hn, hread⟩ := Option.map_eq_some_iff.mp ha
  obtain ⟨-, rfl⟩ := Prod.mk.inj hread
  obtain ⟨ds, rfl, hds⟩ := readNumber_some hn
  cases u with
  | nil => simp [readGivenChar] at ht
  | cons c tail =>
    by_cases hc : c = '.'
    · exact ⟨ds, tail, by rw [hc], hds⟩
    · simp [readGivenChar, hc] at ht

/-- A colon comes before any dot or bracket. -/
def ColonFirst (s : List Char) : Prop :=
  ∃ before rest, s = before ++ ':' :: rest ∧ ∀ c ∈ before, c ≠ '.' ∧ c ≠ '['

theorem ColonFirst.append {s : List Char} (h : ColonFirst s) (t : List Char) :
    ColonFirst (s ++ t) := by
  obtain ⟨before, rest, rfl, hbefore⟩ := h
  exact ⟨before, rest ++ t, by simp, hbefore⟩

theorem digitChar_plain : ∀ k < 16, Nat.digitChar k ≠ '.' ∧ Nat.digitChar k ≠ '[' := by decide

theorem hexDigits_plain (n : ℕ) : ∀ c ∈ Nat.toDigits 16 n, c ≠ '.' ∧ c ≠ '[' := by
  induction n using Nat.strong_induction_on with
  | _ n ih =>
    intro c hc
    by_cases hn : n < 16
    · rw [Nat.toDigits_of_lt_base hn, List.mem_singleton] at hc
      exact hc ▸ digitChar_plain n hn
    · rw [Nat.toDigits_of_base_le (by decide) (by omega), List.mem_append, List.mem_singleton] at hc
      rcases hc with hc | rfl
      · exact ih (n / 16) (by omega) c hc
      · exact digitChar_plain _ (Nat.mod_lt n (by decide))

/-- Segments that are followed by another one, or by a colon. -/
theorem colonFirst_segmentsText (segments : List ℕ) (t : List Char)
    (h : 1 < segments.length ∨ t.head? = some ':') : ColonFirst (segmentsText segments ++ t) := by
  have hcolon : ∀ front : List Char, (∀ c ∈ front, c ≠ '.' ∧ c ≠ '[') →
      ∀ tail, ColonFirst (front ++ ':' :: tail) :=
    fun front hfront tail => ⟨front, tail, rfl, hfront⟩
  cases segments with
  | nil =>
    obtain ⟨tail, rfl⟩ : ∃ tail, t = ':' :: tail :=
      List.head?_eq_some_iff.mp (h.resolve_left (by simp))
    exact hcolon [] (by simp) tail
  | cons n segments =>
    cases segments with
    | nil =>
      obtain ⟨tail, rfl⟩ : ∃ tail, t = ':' :: tail :=
        List.head?_eq_some_iff.mp (h.resolve_left (by simp))
      simpa [segmentsText] using hcolon _ (hexDigits_plain n) tail
    | cons m segments =>
      have hsplit : segmentsText (n :: m :: segments) =
          Nat.toDigits 16 n ++ ':' :: segmentsText (m :: segments) := by
        simp [segmentsText, List.intercalate_cons_cons]
      rw [hsplit, List.append_assoc]
      exact hcolon _ (hexDigits_plain n) _

theorem Ipv6Addr.colonFirst (ip : Ipv6Addr) : ColonFirst ip.text := by
  unfold Ipv6Addr.text
  cases ip.toIpv4Mapped with
  | some mapped => exact ColonFirst.append ⟨[], _, rfl, by simp⟩ _
  | none =>
    dsimp only
    split_ifs with hlen
    · rw [List.append_assoc]
      exact colonFirst_segmentsText _ _ (Or.inr rfl)
    · have h := colonFirst_segmentsText ip.segments [] (Or.inl (by rw [ip.length_eq]; decide))
      simpa using h

theorem ColonFirst.unread {s : List Char} (h : ColonFirst s) (inBrackets : InBrackets) :
    parseSocketAddr inBrackets s = .error "invalid socket address syntax" := by
  obtain ⟨before, rest, rfl, hbefore⟩ := h
  have hv4 : readSocketAddrV4 (before ++ ':' :: rest) = none := by
    rw [Option.eq_none_iff_forall_ne_some]
    intro r hr
    obtain ⟨⟨ip, t⟩, hip, -⟩ := Option.bind_eq_some_iff.mp hr
    obtain ⟨ds, tail, heq, hds⟩ := readIpv4Addr_some hip
    rcases List.append_eq_append_iff.mp heq with ⟨as, hds', htail⟩ | ⟨as, hbefore', htail⟩
    · cases as with
      | nil => simp at htail
      | cons c as =>
        obtain ⟨rfl, -⟩ := List.cons.inj htail
        exact absurd (hds ':' (by simp [hds'])) (by decide)
    · cases as with
      | nil => simp at htail
      | cons c as =>
        obtain ⟨rfl, -⟩ := List.cons.inj htail
        exact absurd rfl (hbefore '.' (by simp [hbefore'])).1
  have hv6 : readSocketAddrV6 inBrackets (before ++ ':' :: rest) = none := by
    cases before with
    | nil => rfl
    | cons c before =>
      have hc : c ≠ '[' := (hbefore c List.mem_cons_self).2
      simp [readSocketAddrV6, readGivenChar, hc]
  rw [parseSocketAddr, hv4, hv6]
  rfl

end Facet.Net
