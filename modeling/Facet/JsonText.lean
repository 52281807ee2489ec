import Facet.Jwt
import Facet.Text

/-!
# JSON texts

The grammar of strings, by which a quoted text is longer than the text itself, and a reader and
a writer of values. The reader inverts the writer, and what it reads as a string is one.
-/
namespace Facet.JsonText
open Text

def isSpace (c : Char) : Bool := c == ' ' || c == '\t' || c == '\n' || c == '\r'

def hexValue (c : Char) : Option ℕ :=
  if c.isDigit then some (c.toNat - '0'.toNat)
  else if 'a' ≤ c ∧ c ≤ 'f' then some (c.toNat - 'a'.toNat + 10)
  else if 'A' ≤ c ∧ c ≤ 'F' then some (c.toNat - 'A'.toNat + 10)
  else none

def hexCode (a b c d : Char) : Option ℕ := do
  let a ← hexValue a
  let b ← hexValue b
  let c ← hexValue c
  let d ← hexValue d
  return ((a * 16 + b) * 16 + c) * 16 + d

def unescape : Char → Option Char
  | '"' => some '"'
  | '\\' => some '\\'
  | '/' => some '/'
  | 'b' => some '\x08'
  | 'f' => some '\x0c'
  | 'n' => some '\n'
  | 'r' => some '\r'
  | 't' => some '\t'
  | _ => none

def IsHigh (code : ℕ) : Prop := 0xD800 ≤ code ∧ code < 0xDC00

def IsLow (code : ℕ) : Prop := 0xDC00 ≤ code ∧ code < 0xE000

instance : DecidablePred IsHigh := fun _ => inferInstanceAs (Decidable (_ ∧ _))
instance : DecidablePred IsLow := fun _ => inferInstanceAs (Decidable (_ ∧ _))

def pairCode (high low : ℕ) : ℕ := 0x10000 + (high - 0xD800) * 0x400 + (low - 0xDC00)

/-- What stands for a character between the quotes. -/
inductive Item : List Char → Char → Prop
  | plain {c : Char} : c ≠ '"' → c ≠ '\\' → 0x20 ≤ c.toNat → Item [c] c
  | escape {e c : Char} : unescape e = some c → Item ['\\', e] c
  | unicode {a b c d : Char} {code : ℕ} :
      hexCode a b c d = some code → ¬ IsHigh code → ¬ IsLow code →
    Item ['\\', 'u', a, b, c, d] (Char.ofNat code)
  | pair {a b c d a' b' c' d' : Char} {high low : ℕ} : hexCode a b c d = some high →
      hexCode a' b' c' d' = some low →
    IsHigh high → IsLow low →
    Item ['\\', 'u', a, b, c, d, '\\', 'u', a', b', c', d'] (Char.ofNat (pairCode high low))

/-- What stands for a text between the quotes. -/
inductive Body : List Char → List Char → Prop
  | nil : Body [] []
  | cons {item rest s : List Char} {c : Char} :
      Item item c → Body rest s → Body (item ++ rest) (c :: s)

/-- A string, with space around it. -/
def StringText (text s : List Char) : Prop :=
  ∃ before body after, text = before ++ '"' :: (body ++ '"' :: after) ∧ Body body s ∧
    (∀ c ∈ before, isSpace c = true) ∧ ∀ c ∈ after, isSpace c = true

theorem Item.length_pos {item : List Char} {c : Char} (hitem : Item item c) : 0 < item.length := by
  cases hitem <;> simp

theorem Body.length_le {body s : List Char} (hbody : Body body s) : s.length ≤ body.length := by
  induction hbody with
  | nil => exact le_rfl
  | cons hitem _ ih =>
    have hpos := hitem.length_pos
    rw [List.length_cons, List.length_append]
    omega

/-- Quoting makes a text longer. -/
theorem StringText.length_lt {text s : List Char} (htext : StringText text s) :
    s.length < text.length := by
  obtain ⟨before, body, after, rfl, hbody, -, -⟩ := htext
  have hle := hbody.length_le
  simp only [List.length_append, List.length_cons]
  omega

/-! ## The reader -/

def skip (text : List Char) : List Char := text.dropWhile isSpace

def readItem : List Char → Option (Char × List Char)
  | '\\' :: 'u' :: a :: b :: c :: d :: rest =>
    match hexCode a b c d with
    | none => none
    | some code =>
      if IsHigh code then
        match rest with
        | '\\' :: 'u' :: a' :: b' :: c' :: d' :: rest =>
          match hexCode a' b' c' d' with
          | none => none
          | some low => if IsLow low then some (Char.ofNat (pairCode code low), rest) else none
        | _ => none
      else if IsLow code then none
      else some (Char.ofNat code, rest)
  | '\\' :: e :: rest => (unescape e).map fun c => (c, rest)
  | c :: rest => if c = '"' ∨ c = '\\' ∨ c.toNat < 0x20 then none else some (c, rest)
  | [] => none

/-- The string that ends with the next bare quote. -/
def readBody : ℕ → List Char → Option (List Char × List Char)
  | 0, _ => none
  | _ + 1, '"' :: rest => some ([], rest)
  | n + 1, text => do
    let (c, rest) ← readItem text
    let (s, rest) ← readBody n rest
    return (c :: s, rest)

def readQuoted (text : List Char) : Option (String × List Char) :=
  (readBody (text.length + 1) text).map fun (s, rest) => (String.ofList s, rest)

def digits (text : List Char) : List Char := text.takeWhile Char.isDigit

def afterDigits (text : List Char) : List Char := text.dropWhile Char.isDigit

def readSign : List Char → ℤ × List Char
  | '-' :: rest => (-1, rest)
  | rest => (1, rest)

/-- No digits before a leading zero but the zero itself. -/
def readWhole (text : List Char) : Option (List Char × List Char) :=
  match digits text with
  | [] => none
  | ['0'] => some (['0'], afterDigits text)
  | '0' :: _ => none
  | whole => some (whole, afterDigits text)

def readFraction : List Char → Option (List Char × List Char)
  | '.' :: rest => if digits rest = [] then none else some (digits rest, afterDigits rest)
  | rest => some ([], rest)

def readExponentDigits (sign : ℤ) (text : List Char) : Option (ℤ × List Char) :=
  if digits text = [] then
    none
  else some (sign * Nat.ofDigitChars 10 (digits text) 0, afterDigits text)

def readSigned : List Char → Option (ℤ × List Char)
  | '+' :: rest => readExponentDigits 1 rest
  | '-' :: rest => readExponentDigits (-1) rest
  | rest => readExponentDigits 1 rest

def readExponent : List Char → Option (ℤ × List Char)
  | c :: rest => if c = 'e' ∨ c = 'E' then readSigned rest else some (0, c :: rest)
  | [] => some (0, [])

def readNumber (text : List Char) : Option (Value × List Char) := do
  let (sign, rest) := readSign text
  let (whole, rest) ← readWhole rest
  let (fraction, rest) ← readFraction rest
  let (exponent, rest) ← readExponent rest
  return (.number (sign * Nat.ofDigitChars 10 (whole ++ fraction) 0)
    (exponent - fraction.length), rest)

mutual

def readValue : ℕ → List Char → Option (Value × List Char)
  | 0, _ => none
  | n + 1, text =>
    match skip text with
    | '"' :: rest => (readQuoted rest).map fun (s, rest) => (.string s, rest)
    | '[' :: rest =>
      match skip rest with
      | ']' :: rest => some (.array [], rest)
      | rest => (readItems n rest).map fun (items, rest) => (.array items, rest)
    | '\x7b' :: rest =>
      match skip rest with
      | '\x7d' :: rest => some (.object [], rest)
      | rest => (readFields n rest).map fun (fields, rest) => (.object fields, rest)
    | 'n' :: 'u' :: 'l' :: 'l' :: rest => some (.null, rest)
    | 't' :: 'r' :: 'u' :: 'e' :: rest => some (.bool true, rest)
    | 'f' :: 'a' :: 'l' :: 's' :: 'e' :: rest => some (.bool false, rest)
    | rest => readNumber rest

def readItems : ℕ → List Char → Option (List Value × List Char)
  | 0, _ => none
  | n + 1, text => do
    let (item, rest) ← readValue n text
    match skip rest with
    | ',' :: rest => (readItems n rest).map fun (items, rest) => (item :: items, rest)
    | ']' :: rest => some ([item], rest)
    | _ => none

def readFields : ℕ → List Char → Option (List (String × Value) × List Char)
  | 0, _ => none
  | n + 1, text =>
    match skip text with
    | '"' :: rest => do
      let (key, rest) ← readQuoted rest
      match skip rest with
      | ':' :: rest => do
        let (value, rest) ← readValue n rest
        match skip rest with
        | ',' :: rest => (readFields n rest).map fun (fields, rest) =>
            ((key, value) :: fields, rest)
        | '\x7d' :: rest => some ([(key, value)], rest)
        | _ => none
      | _ => none
    | _ => none

end

def read (text : List Char) : Option Value :=
  match readValue (text.length + 1) text with
  | some (v, rest) => if skip rest = [] then some v else none
  | none => none

/-! ## The writer -/

def escaped (c : Char) : List Char :=
  if c = '"' then ['\\', '"']
  else if c = '\\' then ['\\', '\\']
  else if c = '\x08' then ['\\', 'b']
  else if c = '\x0c' then ['\\', 'f']
  else if c = '\n' then ['\\', 'n']
  else if c = '\r' then ['\\', 'r']
  else if c = '\t' then ['\\', 't']
  else if c.toNat < 0x20 then ['\\', 'u', '0', '0', Nat.digitChar (c.toNat / 16),
    Nat.digitChar (c.toNat % 16)]
  else [c]

def writeString (s : String) : List Char := '"' :: (s.toList.flatMap escaped ++ ['"'])

def writeInt (z : ℤ) : List Char := (if z < 0 then ['-'] else []) ++ z.natAbs.repr.toList

def writeNumber (mantissa exponent : ℤ) : List Char :=
  writeInt mantissa ++ if exponent = 0 then [] else 'e' :: writeInt exponent

mutual

def write : Value → List Char
  | .null => ['n', 'u', 'l', 'l']
  | .bool true => ['t', 'r', 'u', 'e']
  | .bool false => ['f', 'a', 'l', 's', 'e']
  | .number mantissa exponent => writeNumber mantissa exponent
  | .string s => writeString s
  | .array items => '[' :: (writeItems items ++ [']'])
  | .object fields => '\x7b' :: (writeFields fields ++ ['\x7d'])

def writeItems : List Value → List Char
  | [] => []
  | [item] => write item
  | item :: next :: items => write item ++ ',' :: writeItems (next :: items)

def writeFields : List (String × Value) → List Char
  | [] => []
  | [(key, value)] => writeString key ++ ':' :: write value
  | (key, value) :: next :: fields =>
    writeString key ++ ':' :: (write value ++ ',' :: writeFields (next :: fields))

end

/-! ## What is read as a string is one -/

theorem exists_append_skip (text : List Char) :
    ∃ before, text = before ++ skip text ∧ ∀ c ∈ before, isSpace c = true :=
  ⟨text.takeWhile isSpace, List.takeWhile_append_dropWhile.symm, fun _ hc =>
    List.mem_takeWhile_imp hc⟩

theorem readItem_sound {text rest : List Char} {c : Char} (hread : readItem text = some (c, rest)) :
    ∃ item, text = item ++ rest ∧ Item item c := by
  unfold readItem at hread
  split at hread
  · rename_i a b c' d rest'
    split at hread
    · simp at hread
    · rename_i code hcode
      split_ifs at hread with hhigh hlow
      · split at hread
        · rename_i a' b' c'' d' rest''
          split at hread
          · simp at hread
          · rename_i low hlow
            split_ifs at hread with hislow
            obtain ⟨rfl, rfl⟩ := Prod.mk.inj (Option.some.inj hread)
            exact ⟨_, rfl, .pair hcode hlow hhigh hislow⟩
        · simp at hread
      · obtain ⟨rfl, rfl⟩ := Prod.mk.inj (Option.some.inj hread)
        exact ⟨_, rfl, .unicode hcode hhigh hlow⟩
  · rename_i e rest' _
    obtain ⟨c', hescape, heq⟩ := Option.map_eq_some_iff.mp hread
    obtain ⟨rfl, rfl⟩ := Prod.mk.inj heq
    exact ⟨_, rfl, .escape hescape⟩
  · split_ifs at hread with hspecial
    obtain ⟨rfl, rfl⟩ := Prod.mk.inj (Option.some.inj hread)
    rw [not_or, not_or, Nat.not_lt] at hspecial
    exact ⟨[_], rfl, .plain hspecial.1 hspecial.2.1 hspecial.2.2⟩
  · simp at hread

theorem readBody_sound {n : ℕ} {text s rest : List Char}
    (hread : readBody n text = some (s, rest)) :
    ∃ body, text = body ++ '"' :: rest ∧ Body body s := by
  induction n generalizing text s with
  | zero => simp [readBody] at hread
  | succ n ih =>
    unfold readBody at hread
    split at hread
    · simp at *
    · obtain ⟨rfl, rfl⟩ := Prod.mk.inj (Option.some.inj hread)
      exact ⟨[], rfl, .nil⟩
    · rename_i n' hn hquote
      obtain rfl : n = n' := Nat.succ.inj hn
      obtain ⟨⟨c, rest'⟩, hitem, hread⟩ := Option.bind_eq_some_iff.mp hread
      obtain ⟨⟨s', rest''⟩, hbody, hread⟩ := Option.bind_eq_some_iff.mp hread
      obtain ⟨rfl, rfl⟩ := Prod.mk.inj (Option.some.inj hread)
      obtain ⟨item, rfl, hitems⟩ := readItem_sound hitem
      obtain ⟨body, rfl, hbodies⟩ := ih hbody
      exact ⟨item ++ body, (List.append_assoc ..).symm, .cons hitems hbodies⟩

theorem readQuoted_sound {text rest : List Char} {s : String}
    (hread : readQuoted text = some (s, rest)) :
    ∃ body, text = body ++ '"' :: rest ∧ Body body s.toList := by
  obtain ⟨⟨s', rest'⟩, hbody, heq⟩ := Option.map_eq_some_iff.mp hread
  obtain ⟨rfl, rfl⟩ := Prod.mk.inj heq
  rw [String.toList_ofList]
  exact readBody_sound hbody

theorem readNumber_ne_string (text rest : List Char) (s : String) :
    readNumber text ≠ some (.string s, rest) := by
  intro hread
  unfold readNumber at hread
  obtain ⟨⟨whole, rest⟩, -, hread⟩ := Option.bind_eq_some_iff.mp hread
  obtain ⟨⟨fraction, rest⟩, -, hread⟩ := Option.bind_eq_some_iff.mp hread
  obtain ⟨⟨exponent, rest⟩, -, hread⟩ := Option.bind_eq_some_iff.mp hread
  exact Value.noConfusion (Prod.mk.inj (Option.some.inj hread)).1

/-- No other branch of the reader makes a string. -/
theorem readValue_string {n : ℕ} {text rest : List Char} {s : String}
    (hread : readValue n text = some (.string s, rest)) :
    ∃ quoted, skip text = '"' :: quoted ∧ readQuoted quoted = some (s, rest) := by
  cases n with
  | zero => simp [readValue] at hread
  | succ n =>
    rw [readValue] at hread
    split at hread
    · rename_i quoted hskip
      obtain ⟨⟨s', rest'⟩, hquoted, heq⟩ := Option.map_eq_some_iff.mp hread
      obtain ⟨hs, rfl⟩ := Prod.mk.inj heq
      exact ⟨quoted, hskip, Value.string.inj hs ▸ hquoted⟩
    · split at hread
      · simp at hread
      · simp at hread
    · split at hread
      · simp at hread
      · simp at hread
    · simp at hread
    · simp at hread
    · simp at hread
    · exact absurd hread (readNumber_ne_string _ _ _)

theorem stringText_of_read {text : List Char} {s : String} (hread : read text = some (.string s)) :
    StringText text s.toList := by
  unfold read at hread
  split at hread
  · rename_i v rest hvalue
    split_ifs at hread with hrest
    obtain rfl := Option.some.inj hread
    obtain ⟨quoted, hskip, hquoted⟩ := readValue_string hvalue
    obtain ⟨body, rfl, hbody⟩ := readQuoted_sound hquoted
    obtain ⟨before, htext, hbefore⟩ := exists_append_skip text
    obtain ⟨after, hafter, hspace⟩ := exists_append_skip rest
    rw [hrest, List.append_nil] at hafter
    rw [hskip] at htext
    exact ⟨before, body, rest, htext, hbody, hbefore, hafter ▸ hspace⟩
  · simp at hread

/-! ## What is written is read back -/

/-- What may follow a value. -/
def Ends (rest : List Char) : Prop := ∀ c ∈ rest.head?, c = ',' ∨ c = ']' ∨ c = '\x7d'

theorem hexValue_digitChar : ∀ n < 16, hexValue (Nat.digitChar n) = some n := by decide

theorem readItem_escaped (c : Char) (rest : List Char) :
    readItem (escaped c ++ rest) = some (c, rest) := by
  unfold escaped
  split_ifs with hquote hback hb hf hn hr ht hcontrol
  · simp [readItem, unescape, hquote]
  · simp [readItem, unescape, hback]
  · simp [readItem, unescape, hb]
  · simp [readItem, unescape, hf]
  · simp [readItem, unescape, hn]
  · simp [readItem, unescape, hr]
  · simp [readItem, unescape, ht]
  · have hhigh := hexValue_digitChar (c.toNat / 16) (by omega)
    have hlow := hexValue_digitChar (c.toNat % 16) (by omega)
    have hzero : hexValue '0' = some 0 := by decide
    have hcode : (c.toNat / 16) * 16 + c.toNat % 16 = c.toNat := Nat.div_add_mod' _ _
    have hnotHigh : ¬ IsHigh c.toNat := fun hhigh => by have := hhigh.1; omega
    have hnotLow : ¬ IsLow c.toNat := fun hlow => by have := hlow.1; omega
    simp [readItem, hexCode, hhigh, hlow, hzero, hcode, hnotHigh, hnotLow]
  · have hitem : ([c] ++ rest : List Char) = c :: rest := rfl
    rw [hitem]
    unfold readItem
    split <;> simp_all

theorem head_escaped (c : Char) : ∃ d ds, escaped c = d :: ds ∧ d ≠ '"' := by
  unfold escaped
  split_ifs with hquote
  all_goals exact ⟨_, _, rfl, by first | decide | exact hquote⟩

theorem readBody_escaped (s rest : List Char) {n : ℕ} (hn : s.length < n) :
    readBody n (s.flatMap escaped ++ '"' :: rest) = some (s, rest) := by
  induction s generalizing n with
  | nil =>
    cases n with
    | zero => simp at hn
    | succ n => simp [readBody]
  | cons c s ih =>
    cases n with
    | zero => simp at hn
    | succ n =>
      rw [List.length_cons] at hn
      obtain ⟨d, ds, hd, hne⟩ := head_escaped c
      have hitem := readItem_escaped c (s.flatMap escaped ++ '"' :: rest)
      rw [hd, List.cons_append] at hitem
      rw [List.flatMap_cons, hd, List.cons_append, List.cons_append, List.append_assoc, readBody,
        hitem, Option.bind_eq_bind, Option.bind_some]
      · dsimp only
        rw [ih (by omega)]
        rfl
      · intro rest' heq
        exact hne (List.cons.inj heq).1

theorem readQuoted_written (s : String) (rest : List Char) :
    readQuoted (s.toList.flatMap escaped ++ '"' :: rest) = some (s, rest) := by
  have hlength : s.toList.length ≤ (s.toList.flatMap escaped).length := by
    induction s.toList with
    | nil => exact le_rfl
    | cons c cs ih =>
      obtain ⟨d, ds, hd, -⟩ := head_escaped c
      rw [List.flatMap_cons, List.length_append, hd, List.length_cons, List.length_cons]
      omega
  rw [readQuoted, readBody_escaped _ _ (by rw [List.length_append]; omega)]
  simp

/-! ### Numbers -/

theorem digits_append {ds rest : List Char} (hdigits : ∀ c ∈ ds, c.isDigit = true)
    (hrest : ∀ c ∈ rest.head?, c.isDigit = false) :
    digits (ds ++ rest) = ds ∧ afterDigits (ds ++ rest) = rest := by
  induction ds with
  | nil =>
    cases rest with
    | nil => exact ⟨rfl, rfl⟩
    | cons c rest =>
      have hc := hrest c rfl
      simp [digits, afterDigits, hc]
  | cons d ds ih =>
    have hd := hdigits d List.mem_cons_self
    have htail := ih fun c hc => hdigits c (List.mem_cons_of_mem _ hc)
    simpa [digits, afterDigits, hd] using htail

theorem repr_head (n : ℕ) : n.repr.toList = ['0'] ∨ ∃ c cs, n.repr.toList = c :: cs ∧ c ≠ '0' := by
  rw [Nat.toList_repr]
  induction n using Nat.strongRecOn with
  | ind n ih =>
    by_cases hn : n < 10
    · rw [Nat.toDigits_of_lt_base hn]
      interval_cases n
      · exact Or.inl rfl
      all_goals exact Or.inr ⟨_, _, rfl, by decide⟩
    · right
      rw [Nat.toDigits_of_base_le (by decide) (by omega)]
      rcases ih (n / 10) (by omega) with hzero | ⟨c, cs, hcs, hc⟩
      · exfalso
        have hvalue := congrArg (fun ds => Nat.ofDigitChars 10 ds 0) hzero
        simp only [Nat.ofDigitChars_ten_toDigits] at hvalue
        have hone : Nat.ofDigitChars 10 ['0'] 0 = 0 := by decide
        omega
      · exact ⟨c, cs ++ [Nat.digitChar (n % 10)], by rw [hcs, List.cons_append], hc⟩

theorem readWhole_repr (n : ℕ) {rest : List Char} (hrest : ∀ c ∈ rest.head?, c.isDigit = false) :
    readWhole (n.repr.toList ++ rest) = some (n.repr.toList, rest) := by
  obtain ⟨hdigits, hafter⟩ := digits_append (fun c hc => isDigit_of_mem_repr (n := n) hc) hrest
  unfold readWhole
  rw [hdigits, hafter]
  rcases repr_head n with hzero | ⟨c, cs, hcs, hc⟩
  · rw [hzero]
    rfl
  · rw [hcs]
    split <;> simp_all

theorem writeInt_of_nonneg {z : ℤ} (hz : 0 ≤ z) : writeInt z = z.natAbs.repr.toList := by
  rw [writeInt, if_neg (by omega), List.nil_append]

theorem writeInt_of_neg {z : ℤ} (hz : z < 0) : writeInt z = '-' :: z.natAbs.repr.toList := by
  rw [writeInt, if_pos hz, List.singleton_append]

theorem ofDigitChars_repr (n : ℕ) : Nat.ofDigitChars 10 n.repr.toList 0 = n := by
  rw [Nat.toList_repr, Nat.ofDigitChars_ten_toDigits]

theorem readSign_writeInt (z : ℤ) (rest : List Char) : ∃ sign : ℤ, sign * z.natAbs = z ∧
    readSign (writeInt z ++ rest) = (sign, z.natAbs.repr.toList ++ rest) := by
  rcases lt_or_ge z 0 with hneg | hnonneg
  · refine ⟨-1, by omega, ?_⟩
    rw [writeInt_of_neg hneg]
    rfl
  · refine ⟨1, by omega, ?_⟩
    obtain ⟨c, cs, hcs, -, hminus⟩ := exists_repr_eq_cons z.natAbs
    rw [writeInt_of_nonneg hnonneg, hcs, List.cons_append, readSign]
    intro rest' heq
    exact hminus (List.cons.inj heq).1

theorem readExponentDigits_repr (sign : ℤ) (n : ℕ) {rest : List Char}
    (hrest : ∀ c ∈ rest.head?, c.isDigit = false) :
    readExponentDigits sign (n.repr.toList ++ rest) = some (sign * n, rest) := by
  obtain ⟨hdigits, hafter⟩ := digits_append (fun c hc => isDigit_of_mem_repr (n := n) hc) hrest
  have hne : n.repr.toList ≠ [] := by simp [Nat.toDigits_ne_nil]
  rw [readExponentDigits, hdigits, hafter, if_neg hne, ofDigitChars_repr]

theorem readSigned_writeInt (z : ℤ) {rest : List Char}
    (hrest : ∀ c ∈ rest.head?, c.isDigit = false) :
    readSigned (writeInt z ++ rest) = some (z, rest) := by
  rcases lt_or_ge z 0 with hneg | hnonneg
  · have hz : -1 * (z.natAbs : ℤ) = z := by omega
    rw [writeInt_of_neg hneg, List.cons_append, readSigned,
      readExponentDigits_repr (-1) z.natAbs hrest, hz]
  · have hz : 1 * (z.natAbs : ℤ) = z := by omega
    have hread := readExponentDigits_repr 1 z.natAbs hrest
    obtain ⟨c, cs, hcs, hplus, hminus⟩ := exists_repr_eq_cons z.natAbs
    rw [writeInt_of_nonneg hnonneg]
    rw [hz] at hread
    rw [hcs, List.cons_append] at hread ⊢
    rw [readSigned]
    · exact hread
    · exact fun rest' heq => hplus (List.cons.inj heq).1
    · exact fun rest' heq => hminus (List.cons.inj heq).1

theorem readExponent_writeInt (z : ℤ) {rest : List Char}
    (hrest : ∀ c ∈ rest.head?, c.isDigit = false) :
    readExponent ('e' :: (writeInt z ++ rest)) = some (z, rest) := by
  rw [readExponent, if_pos (Or.inl rfl)]
  exact readSigned_writeInt z hrest

theorem Ends.not_digit {rest : List Char} (hends : Ends rest) :
    ∀ c ∈ rest.head?, c.isDigit = false := by
  intro c hc
  rcases hends c hc with rfl | rfl | rfl <;> decide

theorem Ends.not_exponent {rest : List Char} (hends : Ends rest) :
    readExponent rest = some (0, rest) := by
  cases rest with
  | nil => rfl
  | cons c rest =>
    have hc : ¬(c = 'e' ∨ c = 'E') := by
      rcases hends c rfl with rfl | rfl | rfl <;> decide
    rw [readExponent, if_neg hc]

theorem readFraction_of_ne {rest : List Char} (hrest : ∀ c ∈ rest.head?, c ≠ '.') :
    readFraction rest = some ([], rest) := by
  unfold readFraction
  split
  · exact absurd rfl (hrest '.' rfl)
  · rfl

theorem readNumber_written (mantissa exponent : ℤ) {rest : List Char} (hends : Ends rest) :
    readNumber (writeNumber mantissa exponent ++ rest) =
      some (.number mantissa exponent, rest) := by
  obtain ⟨sign, hsign, hread⟩ := readSign_writeInt mantissa
    ((if exponent = 0 then [] else 'e' :: writeInt exponent) ++ rest)
  rw [readNumber, writeNumber, List.append_assoc, hread]
  dsimp only
  by_cases hexponent : exponent = 0
  · rw [if_pos hexponent, List.nil_append, readWhole_repr _ hends.not_digit]
    have hfraction : readFraction rest = some ([], rest) :=
      readFraction_of_ne fun c hc => by rcases hends c hc with rfl | rfl | rfl <;> decide
    simpa [hfraction, hends.not_exponent, hexponent] using hsign
  · rw [if_neg hexponent, List.cons_append, readWhole_repr _ (by simp)]
    have hfraction : readFraction ('e' :: (writeInt exponent ++ rest)) =
        some ([], 'e' :: (writeInt exponent ++ rest)) :=
      readFraction_of_ne (by simp)
    simpa [hfraction, readExponent_writeInt exponent hends.not_digit] using hsign

theorem head_writeNumber (mantissa exponent : ℤ) :
    ∃ c cs, writeNumber mantissa exponent = c :: cs ∧ (c = '-' ∨ c.isDigit = true) := by
  rcases lt_or_ge mantissa 0 with hneg | hnonneg
  · rw [writeNumber, writeInt_of_neg hneg]
    exact ⟨_, _, rfl, Or.inl rfl⟩
  · obtain ⟨c, cs, hcs, -, -⟩ := exists_repr_eq_cons mantissa.natAbs
    rw [writeNumber, writeInt_of_nonneg hnonneg, hcs]
    exact ⟨c, _, rfl,
      Or.inr (isDigit_of_mem_repr (n := mantissa.natAbs) (by rw [hcs]; exact List.mem_cons_self))⟩

/-! ### Values -/

theorem skip_of_head {c : Char} (cs : List Char) (hc : isSpace c = false) :
    skip (c :: cs) = c :: cs := by
  simp [skip, hc]

theorem isSpace_of_number {c : Char} (hc : c = '-' ∨ c.isDigit = true) : isSpace c = false := by
  rcases hc with rfl | hdigit
  · rfl
  · by_contra hspace
    simp only [isSpace, Bool.not_eq_false, Bool.or_eq_true, beq_iff_eq] at hspace
    rcases hspace with ((rfl | rfl) | rfl) | rfl <;> exact absurd hdigit (by decide)

theorem readValue_of_number (n : ℕ) {c : Char} (cs : List Char) (hc : c = '-' ∨ c.isDigit = true) :
    readValue (n + 1) (c :: cs) = readNumber (c :: cs) := by
  have hhead : ∀ d ∈ ['"', '[', '\x7b', 'n', 't', 'f'], c ≠ d := by
    intro d hd heq
    subst heq
    rcases hc with rfl | hdigit
    · exact absurd hd (by decide)
    · simp only [List.mem_cons, List.not_mem_nil, or_false] at hd
      rcases hd with rfl | rfl | rfl | rfl | rfl | rfl <;> exact absurd hdigit (by decide)
  rw [readValue, skip_of_head cs (isSpace_of_number hc)]
  split
  case h_7 => rfl
  all_goals
    rename_i heq
    exact absurd (List.cons.inj heq).1 (hhead _ (by decide))

/-- A value starts with no space and with no closing bracket. -/
theorem head_write (v : Value) : ∃ c cs, write v = c :: cs ∧ isSpace c = false ∧ c ≠ ']' := by
  cases v with
  | null => exact ⟨_, _, rfl, rfl, by decide⟩
  | bool b => cases b <;> exact ⟨_, _, rfl, rfl, by decide⟩
  | number mantissa exponent =>
    obtain ⟨c, cs, hcs, hc⟩ := head_writeNumber mantissa exponent
    rw [write]
    refine ⟨c, cs, hcs, isSpace_of_number hc, ?_⟩
    rintro rfl
    exact absurd hc (by decide)
  | string s => exact ⟨'"', _, by rw [write, writeString], rfl, by decide⟩
  | array items => exact ⟨'[', _, by rw [write], rfl, by decide⟩
  | object fields => exact ⟨'\x7b', _, by rw [write], rfl, by decide⟩

theorem readValue_quote (n : ℕ) (rest : List Char) : readValue (n + 1) ('"' :: rest) =
    (readQuoted rest).map fun (s, rest) => (.string s, rest) := by
  rw [readValue, skip_of_head _ rfl]
  rfl

theorem readValue_bracket (n : ℕ) {c : Char} (cs : List Char) (hspace : isSpace c = false)
    (hbracket : c ≠ ']') :
    readValue (n + 1) ('[' :: c :: cs) = (readItems n (c :: cs)).map fun (items, rest) =>
      (.array items, rest) := by
  rw [readValue, skip_of_head _ rfl]
  change (match skip (c :: cs) with
    | ']' :: rest => some (Value.array [], rest)
    | rest => (readItems n rest).map fun (items, rest) => (Value.array items, rest)) = _
  rw [skip_of_head cs hspace]
  split
  · rename_i heq
    exact absurd (List.cons.inj heq).1 hbracket
  · rfl

theorem readValue_brace (n : ℕ) (cs : List Char) : readValue (n + 1) ('\x7b' :: '"' :: cs) =
    (readFields n ('"' :: cs)).map fun (fields, rest) => (.object fields, rest) := by
  rw [readValue, skip_of_head _ rfl]
  change (match skip ('"' :: cs) with
    | '\x7d' :: rest => some (Value.object [], rest)
    | rest => (readFields n rest).map fun (fields, rest) => (Value.object fields, rest)) = _
  rw [skip_of_head cs rfl]
  rfl

def ReadsValues (n : ℕ) : Prop := ∀ (v : Value) (rest : List Char), Ends rest →
    (write v).length < n →
  readValue n (write v ++ rest) = some (v, rest)

def ReadsItems (n : ℕ) : Prop := ∀ (item : Value) (items : List Value) (rest : List Char),
  (writeItems (item :: items)).length + 1 < n →
    readItems n (writeItems (item :: items) ++ ']' :: rest) = some (item :: items, rest)

def ReadsFields (n : ℕ) : Prop :=
  ∀ (field : String × Value) (fields : List (String × Value)) (rest : List Char),
    (writeFields (field :: fields)).length + 1 < n →
      readFields n (writeFields (field :: fields) ++ '\x7d' :: rest) = some (field :: fields, rest)

theorem ends_comma (rest : List Char) : Ends (',' :: rest) :=
  fun _ hc => Or.inl (Option.mem_some.mp hc).symm

theorem ends_bracket (rest : List Char) : Ends (']' :: rest) :=
  fun _ hc => Or.inr (Or.inl (Option.mem_some.mp hc).symm)

theorem ends_brace (rest : List Char) : Ends ('\x7d' :: rest) :=
  fun _ hc => Or.inr (Or.inr (Option.mem_some.mp hc).symm)

theorem readsValues_succ {n : ℕ} (hitems : ReadsItems n) (hfields : ReadsFields n) :
    ReadsValues (n + 1) := by
  intro v rest hends hn
  cases v with
  | null => rw [write]; rfl
  | bool b => cases b <;> (rw [write]; rfl)
  | number mantissa exponent =>
    obtain ⟨c, cs, hcs, hc⟩ := head_writeNumber mantissa exponent
    have hnumber := readNumber_written mantissa exponent hends
    rw [hcs, List.cons_append] at hnumber
    rw [write, hcs, List.cons_append, readValue_of_number n _ hc, hnumber]
  | string s =>
    have hquoted := readQuoted_written s rest
    rw [write, writeString, List.cons_append, List.append_assoc, List.singleton_append,
      readValue_quote, hquoted]
    rfl
  | array items =>
    rw [write, List.length_cons, List.length_append, List.length_singleton] at hn
    rw [write, List.cons_append, List.append_assoc, List.singleton_append]
    cases items with
    | nil => rw [writeItems]; rfl
    | cons item items =>
      have hread := hitems item items rest (by omega)
      obtain ⟨c, cs, hcs, hspace, hbracket⟩ := head_write item
      obtain ⟨cs', hcs'⟩ : ∃ cs', writeItems (item :: items) ++ ']' :: rest = c :: cs' := by
        cases items <;> rw [writeItems, hcs] <;> exact ⟨_, rfl⟩
      rw [hcs'] at hread ⊢
      rw [readValue_bracket n cs' hspace hbracket, hread]
      rfl
  | object fields =>
    rw [write, List.length_cons, List.length_append, List.length_singleton] at hn
    rw [write, List.cons_append, List.append_assoc, List.singleton_append]
    cases fields with
    | nil => rw [writeFields]; rfl
    | cons field fields =>
      have hread := hfields field fields rest (by omega)
      obtain ⟨cs, hcs⟩ : ∃ cs, writeFields (field :: fields) ++ '\x7d' :: rest = '"' :: cs := by
        cases fields <;> rw [writeFields, writeString] <;> exact ⟨_, rfl⟩
      rw [hcs] at hread ⊢
      rw [readValue_brace, hread]
      rfl

theorem readsItems_succ {n : ℕ} (hvalues : ReadsValues n) (hitems : ReadsItems n) :
    ReadsItems (n + 1) := by
  intro item items rest hn
  cases items with
  | nil =>
    rw [writeItems] at hn ⊢
    rw [readItems, hvalues item _ (ends_bracket rest) (by omega)]
    rfl
  | cons next items =>
    rw [writeItems, List.length_append, List.length_cons] at hn
    have hnext := hitems next items rest (by omega)
    rw [writeItems, List.append_assoc, List.cons_append, readItems,
      hvalues item _ (ends_comma _) (by omega)]
    simp [skip_of_head, isSpace, hnext]

theorem readsFields_succ {n : ℕ} (hvalues : ReadsValues n) (hfields : ReadsFields n) :
    ReadsFields (n + 1) := by
  intro field fields rest hn
  obtain ⟨key, value⟩ := field
  cases fields with
  | nil =>
    rw [writeFields, List.length_append, List.length_cons] at hn
    have hvalue := hvalues value _ (ends_brace rest) (by omega)
    have hkey := readQuoted_written key (':' :: (write value ++ '\x7d' :: rest))
    rw [writeFields, writeString, List.cons_append, List.cons_append, readFields,
      skip_of_head _ rfl]
    simp only [List.append_assoc, List.cons_append, List.nil_append]
    rw [hkey]
    simp [skip_of_head, isSpace, hvalue]
  | cons next fields =>
    rw [writeFields, List.length_append, List.length_cons, List.length_append,
      List.length_cons] at hn
    have hnext := hfields next fields rest (by omega)
    have hvalue :=
      hvalues value _ (ends_comma (writeFields (next :: fields) ++ '\x7d' :: rest)) (by omega)
    have hkey := readQuoted_written key
      (':' :: (write value ++ ',' :: (writeFields (next :: fields) ++ '\x7d' :: rest)))
    rw [writeFields, writeString, List.cons_append, List.cons_append, readFields,
      skip_of_head _ rfl]
    simp only [List.append_assoc, List.cons_append, List.nil_append]
    rw [hkey]
    simp [skip_of_head, isSpace, hvalue, hnext]

/-- Along the rounds of the reader. -/
theorem reads (n : ℕ) : ReadsValues n ∧ ReadsItems n ∧ ReadsFields n := by
  induction n with
  | zero =>
    exact ⟨fun _ _ _ hn => absurd hn (Nat.not_lt_zero _),
      fun _ _ _ hn => absurd hn (Nat.not_lt_zero _),
      fun _ _ _ hn => absurd hn (Nat.not_lt_zero _)⟩
  | succ n ih =>
    obtain ⟨hvalues, hitems, hfields⟩ := ih
    exact ⟨readsValues_succ hitems hfields, readsItems_succ hvalues hitems,
      readsFields_succ hvalues hfields⟩

theorem read_write (v : Value) : read (write v) = some v := by
  have hvalue :=
    (reads ((write v).length + 1)).1 v [] (fun c hc => by simp at hc) (Nat.lt_succ_self _)
  rw [List.append_nil] at hvalue
  rw [read, hvalue]
  rfl

end Facet.JsonText
