import Mathlib.Data.Set.Insert
import Mathlib.Data.List.Basic
import Mathlib.Data.Nat.Notation

/-!
# Regular expressions and their texts

Expressions over characters with the two anchors, what they match in a text, and the grammar
that reads a pattern as one: characters, the dot, anchors, classes, groups, alternatives and the
repetitions `*`, `+`, `?`. Escapes, counted repetitions and flags are not part of it.

A match can be shortened to as many characters as the expression has atoms. A pattern whose
operators take up characters of their own therefore finds more than one text of its own length.
-/
namespace Facet.RegexSyntax

inductive Regex
  | empty
  | char (allowed : Set Char)
  | start
  | finish
  | cat (r s : Regex)
  | alt (r s : Regex)
  | star (r : Regex)

namespace Regex

def plus (r : Regex) : Regex := .cat r (.star r)

def opt (r : Regex) : Regex := .alt r .empty

/-- The part of a text that is matched; `first` and `last` tell whether nothing stands before and
behind it. -/
inductive Matches : Regex → Bool → Bool → List Char → Prop
  | empty {first last : Bool} : Matches .empty first last []
  | char {first last : Bool} {allowed : Set Char} {c : Char} :
      c ∈ allowed → Matches (.char allowed) first last [c]
  | start {last : Bool} : Matches .start true last []
  | finish {first : Bool} : Matches .finish first true []
  | cat {first last : Bool} {r s : Regex} {t u : List Char} :
      Matches r first (last && u.isEmpty) t →
    Matches s (first && t.isEmpty) last u → Matches (.cat r s) first last (t ++ u)
  | left {first last : Bool} {r s : Regex} {t : List Char} : Matches r first last t →
      Matches (.alt r s) first last t
  | right {first last : Bool} {r s : Regex} {t : List Char} : Matches s first last t →
      Matches (.alt r s) first last t
  | done {first last : Bool} {r : Regex} : Matches (.star r) first last []
  | more {first last : Bool} {r : Regex} {t u : List Char} : Matches r first (last && u.isEmpty) t →
    Matches (.star r) (first && t.isEmpty) last u → Matches (.star r) first last (t ++ u)

/-- The expression matches somewhere in the text. -/
def Finds (r : Regex) (text : List Char) : Prop :=
  ∃ before middle after, text = before ++ middle ++ after ∧
    r.Matches before.isEmpty after.isEmpty middle

/-- So many characters are enough for a match, if there is one. -/
def least : Regex → ℕ
  | .empty => 0
  | .char _ => 1
  | .start => 0
  | .finish => 0
  | .cat r s => r.least + s.least
  | .alt r s => max r.least s.least
  | .star _ => 0

/-- Anchors hold at the ends of the text wherever they hold at all. -/
theorem Matches.mono {r : Regex} {first last first' last' : Bool} {t : List Char}
    (ht : r.Matches first last t) (hfirst : first = true → first' = true)
    (hlast : last = true → last' = true) : r.Matches first' last' t := by
  induction ht generalizing first' last' with
  | empty => exact .empty
  | char hc => exact .char hc
  | start =>
    obtain rfl := hfirst rfl
    exact .start
  | finish =>
    obtain rfl := hlast rfl
    exact .finish
  | cat _ _ ihr ihs =>
    refine .cat (ihr hfirst ?_) (ihs ?_ hlast)
    · simpa using fun h hu => ⟨hlast h, hu⟩
    · simpa using fun h hu => ⟨hfirst h, hu⟩
  | left _ ih => exact .left (ih hfirst hlast)
  | right _ ih => exact .right (ih hfirst hlast)
  | done => exact .done
  | more _ _ ihr ihs =>
    refine .more (ihr hfirst ?_) (ihs ?_ hlast)
    · simpa using fun h hu => ⟨hlast h, hu⟩
    · simpa using fun h hu => ⟨hfirst h, hu⟩

/-- A match can be shortened: repetitions are left out, and what is empty stays so. -/
theorem Matches.shorten {r : Regex} {first last : Bool} {t : List Char}
    (ht : r.Matches first last t) :
    ∃ t', r.Matches first last t' ∧ t'.length ≤ t.length ∧ t'.length ≤ r.least := by
  induction ht with
  | empty => exact ⟨[], .empty, le_rfl, le_rfl⟩
  | char hc => exact ⟨[_], .char hc, le_rfl, le_rfl⟩
  | start => exact ⟨[], .start, le_rfl, le_rfl⟩
  | finish => exact ⟨[], .finish, le_rfl, le_rfl⟩
  | @cat first last r s t u _ _ ihr ihs =>
    obtain ⟨t', ht', htlen, htleast⟩ := ihr
    obtain ⟨u', hu', hulen, huleast⟩ := ihs
    have hempty : ∀ {v v' : List Char}, v'.length ≤ v.length → v.isEmpty = true →
        v'.isEmpty = true := by
      intro v v' hle hv
      rw [List.isEmpty_iff_length_eq_zero] at hv ⊢
      omega
    refine ⟨t' ++ u', .cat (ht'.mono id ?_) (hu'.mono ?_ id), ?_, ?_⟩
    · simpa using fun hl hv => ⟨hl, by simpa using hempty hulen (by simpa using hv)⟩
    · simpa using fun hf hv => ⟨hf, by simpa using hempty htlen (by simpa using hv)⟩
    · rw [List.length_append, List.length_append]
      omega
    · rw [List.length_append, least]
      omega
  | left _ ih =>
    obtain ⟨t', ht', hlen, hleast⟩ := ih
    exact ⟨t', .left ht', hlen, hleast.trans (le_max_left _ _)⟩
  | right _ ih =>
    obtain ⟨t', ht', hlen, hleast⟩ := ih
    exact ⟨t', .right ht', hlen, hleast.trans (le_max_right _ _)⟩
  | done => exact ⟨[], .done, le_rfl, le_rfl⟩
  | more _ _ _ _ => exact ⟨[], .done, Nat.zero_le _, le_rfl⟩

theorem exists_ne (c : Char) : ∃ d : Char, d ≠ c := by
  by_cases hc : c = 'a'
  · exact ⟨'b', by rw [hc]; decide⟩
  · exact ⟨'a', Ne.symm hc⟩

/-- An expression with fewer atoms than a text it finds finds another text that is no longer. -/
theorem Finds.other {r : Regex} {text : List Char} (hfinds : r.Finds text)
    (hleast : r.least < text.length) :
    ∃ other, r.Finds other ∧ other ≠ text ∧ other.length ≤ text.length := by
  obtain ⟨before, middle, after, rfl, hmatch⟩ := hfinds
  cases before with
  | cons c before =>
    obtain ⟨d, hd⟩ := exists_ne c
    refine ⟨(d :: before) ++ middle ++ after,
      ⟨d :: before, middle, after, rfl, hmatch⟩, ?_, by simp⟩
    intro heq
    exact hd (List.cons.inj heq).1
  | nil =>
    cases after with
    | cons c after =>
      obtain ⟨d, hd⟩ := exists_ne c
      refine ⟨[] ++ middle ++ d :: after, ⟨[], middle, d :: after, rfl, hmatch⟩, ?_, by simp⟩
      intro heq
      rw [List.nil_append, List.append_cancel_left_eq] at heq
      exact hd (List.cons.inj heq).1
    | nil =>
      obtain ⟨shorter, hshorter, -, hle⟩ := hmatch.shorten
      rw [List.nil_append, List.append_nil] at hleast ⊢
      refine ⟨shorter, ⟨[], shorter, [], by simp, hshorter⟩, ?_, by omega⟩
      rintro rfl
      omega

end Regex

/-! ## The grammar -/

/-- The characters that do not stand for themselves. -/
def special : List Char := ['\\', '.', '+', '*', '?', '(', ')', '|', '[', '{', '^', '$']

/-- Those of them that take up a place of the pattern and none of the text. -/
def operators : List Char := ['+', '*', '?', '(', ')', '|', '[', '^', '$']

def quantifiers : List Char := ['*', '+', '?']

/-- Every character but the end of a line. -/
def lineChar : Set Char := fun c => c ≠ '\n'

inductive Level
  | alternation
  | branch
  | piece
  | atom

open Regex

/-- What a pattern is read as. A class is any set of characters; lazy repetitions match what the
others do. -/
inductive Parses : Level → List Char → Regex → Prop
  | alternative {p q : List Char} {r s : Regex} : Parses .branch p r → Parses .alternation q s →
    Parses .alternation (p ++ '|' :: q) (.alt r s)
  | branch {p : List Char} {r : Regex} : Parses .branch p r → Parses .alternation p r
  | nil : Parses .branch [] .empty
  | cons {p q : List Char} {r s : Regex} : Parses .piece p r → Parses .branch q s →
    Parses .branch (p ++ q) (.cat r s)
  | once {p : List Char} {r : Regex} : Parses .atom p r → Parses .piece p r
  | star {p lazy : List Char} {r : Regex} : Parses .piece p r → lazy = [] ∨ lazy = ['?'] →
    Parses .piece (p ++ '*' :: lazy) (.star r)
  | plus {p lazy : List Char} {r : Regex} : Parses .piece p r → lazy = [] ∨ lazy = ['?'] →
    Parses .piece (p ++ '+' :: lazy) r.plus
  | opt {p lazy : List Char} {r : Regex} : Parses .piece p r → lazy = [] ∨ lazy = ['?'] →
    Parses .piece (p ++ '?' :: lazy) r.opt
  | literal {c : Char} : c ∉ special → Parses .atom [c] (.char {c})
  | dot : Parses .atom ['.'] (.char lineChar)
  | start : Parses .atom ['^'] .start
  | finish : Parses .atom ['$'] .finish
  | group {p : List Char} {r : Regex} :
      Parses .alternation p r → Parses .atom ('(' :: (p ++ [')'])) r
  | set {body : List Char} {allowed : Set Char} :
      Parses .atom ('[' :: (body ++ [']'])) (.char allowed)

/-- The characters of a pattern that are no operators. -/
def plainCount (p : List Char) : ℕ := (p.filter fun c => decide (c ∉ operators)).length

theorem plainCount_append (p q : List Char) :
    plainCount (p ++ q) = plainCount p + plainCount q := by
  rw [plainCount, List.filter_append, List.length_append, plainCount, plainCount]

theorem plainCount_cons (c : Char) (p : List Char) :
    plainCount (c :: p) = plainCount p + if c ∈ operators then 0 else 1 := by
  by_cases hc : c ∈ operators <;> simp [plainCount, hc]

theorem Parses.least_le {level : Level} {p : List Char} {r : Regex} (hparses : Parses level p r) :
    r.least ≤ plainCount p := by
  induction hparses with
  | alternative _ _ ihr ihs =>
    rw [plainCount_append, plainCount_cons, least]
    omega
  | branch _ ih => exact ih
  | nil => exact le_rfl
  | cons _ _ ihr ihs =>
    rw [plainCount_append, least]
    omega
  | once _ ih => exact ih
  | star _ _ _ => exact Nat.zero_le _
  | plus _ _ ih =>
    rw [plainCount_append, Regex.plus, least, least]
    omega
  | opt _ _ ih =>
    rw [plainCount_append, Regex.opt, least, least]
    omega
  | @literal c hc =>
    have hoperator : c ∉ operators := fun hmem => hc (by
      simp only [operators, List.mem_cons, List.not_mem_nil, or_false] at hmem
      rcases hmem with rfl | rfl | rfl | rfl | rfl | rfl | rfl | rfl | rfl <;> decide)
    rw [plainCount_cons, if_neg hoperator, least]
    exact le_rfl
  | dot => decide
  | start => exact Nat.zero_le _
  | finish => exact Nat.zero_le _
  | group _ ih =>
    rw [plainCount_cons, plainCount_append]
    omega
  | set =>
    have hclose : plainCount [']'] = 1 := by decide
    rw [plainCount_cons, plainCount_append, least, hclose]
    omega

theorem plainCount_le (p : List Char) : plainCount p ≤ p.length := List.length_filter_le _ _

theorem plainCount_lt {p : List Char} {c : Char} (hmem : c ∈ p) (hc : c ∈ operators) :
    plainCount p < p.length := by
  obtain ⟨before, after, rfl⟩ := List.append_of_mem hmem
  have hbefore := plainCount_le before
  have hafter := plainCount_le after
  rw [plainCount_append, plainCount_cons, if_pos hc, List.length_append, List.length_cons]
  omega

/-! ## Patterns that are read one character after the other -/

/-- A character that is an atom of its own: a literal, the dot or an anchor. -/
def Simple (c : Char) : Prop := c ∈ ['.', '^', '$'] ∨ c ∉ special

instance : DecidablePred Simple := fun _ => inferInstanceAs (Decidable (_ ∨ _))

def atomOf (c : Char) : Regex :=
  if c = '.' then .char lineChar else if c = '^' then .start
  else if c = '$' then .finish else .char {c}

theorem Simple.not_quantifier {c : Char} (hc : Simple c) : c ∉ quantifiers := by
  intro hmem
  simp only [quantifiers, List.mem_cons, List.not_mem_nil, or_false] at hmem
  rcases hmem with rfl | rfl | rfl <;> exact absurd hc (by decide)

theorem simple_of_not_special {c : Char} (hc : c ∉ special) : Simple c := Or.inr hc

theorem atomOf_of_not_special {c : Char} (hc : c ∉ special) : atomOf c = .char {c} := by
  have hne : ∀ d ∈ special, c ≠ d := fun d hd heq => hc (heq ▸ hd)
  rw [atomOf, if_neg (hne '.' (by decide)), if_neg (hne '^' (by decide)),
    if_neg (hne '$' (by decide))]

theorem parses_atomOf {c : Char} (hc : Simple c) : Parses .atom [c] (atomOf c) := by
  rcases hc with hc | hc
  · simp only [List.mem_cons, List.not_mem_nil, or_false] at hc
    rcases hc with rfl | rfl | rfl
    · exact .dot
    · exact .start
    · exact .finish
  · rw [atomOf_of_not_special hc]
    exact .literal hc

theorem Parses.atom_cons {c : Char} {rest : List Char} {r : Regex}
    (hparses : Parses .atom (c :: rest) r) (hc : Simple c) : rest = [] ∧ r = atomOf c := by
  generalize htext : c :: rest = q at hparses
  cases hparses with
  | literal hliteral =>
    obtain ⟨rfl, rfl⟩ := List.cons.inj htext
    exact ⟨rfl, (atomOf_of_not_special hliteral).symm⟩
  | dot =>
    obtain ⟨rfl, rfl⟩ := List.cons.inj htext
    exact ⟨rfl, rfl⟩
  | start =>
    obtain ⟨rfl, rfl⟩ := List.cons.inj htext
    exact ⟨rfl, rfl⟩
  | finish =>
    obtain ⟨rfl, rfl⟩ := List.cons.inj htext
    exact ⟨rfl, rfl⟩
  | group _ =>
    obtain ⟨rfl, -⟩ := List.cons.inj htext
    exact absurd hc (by decide)
  | set =>
    obtain ⟨rfl, -⟩ := List.cons.inj htext
    exact absurd hc (by decide)

theorem Parses.atom_head {q : List Char} {r : Regex} (hparses : Parses .atom q r) :
    ∃ c rest, q = c :: rest ∧ c ∉ quantifiers := by
  cases hparses with
  | literal hc => exact ⟨_, _, rfl, (simple_of_not_special hc).not_quantifier⟩
  | dot => exact ⟨_, _, rfl, by decide⟩
  | start => exact ⟨_, _, rfl, by decide⟩
  | finish => exact ⟨_, _, rfl, by decide⟩
  | group _ => exact ⟨_, _, rfl, by decide⟩
  | set => exact ⟨_, _, rfl, by decide⟩

theorem quantified_cons {p lazy : List Char} {op c : Char} {rest : List Char}
    (hop : op ∈ quantifiers) (hlazy : lazy = [] ∨ lazy = ['?'])
    (hp : ∃ d p', p = d :: p' ∧ (Simple d → ∀ e ∈ p', e ∈ quantifiers))
    (htext : p ++ op :: lazy = c :: rest) (hc : Simple c) :
    (∀ d ∈ rest, d ∈ quantifiers) ∧ rest ≠ [] := by
  obtain ⟨d, p', rfl, hp'⟩ := hp
  rw [List.cons_append] at htext
  obtain ⟨rfl, rfl⟩ := List.cons.inj htext
  refine ⟨?_, by simp⟩
  intro e he
  rcases List.mem_append.mp he with he | he
  · exact hp' hc e he
  · rcases List.mem_cons.mp he with rfl | he
    · exact hop
    · rcases hlazy with rfl | rfl
      · simp at he
      · rw [List.mem_singleton.mp he]
        decide

/-- A piece that starts with a simple character is that character and its repetitions. -/
theorem Parses.piece_cons {q : List Char} {r : Regex} (hparses : Parses .piece q r) :
    ∃ c rest, q = c :: rest ∧ c ∉ quantifiers ∧
      (Simple c → (∀ d ∈ rest, d ∈ quantifiers) ∧ (rest = [] → r = atomOf c)) := by
  generalize hlevel : Level.piece = level at hparses
  have hquantified : ∀ {p lazy : List Char} {op : Char} {s t : Regex}, op ∈ quantifiers →
      lazy = [] ∨ lazy = ['?'] →
      (∃ c rest, p = c :: rest ∧ c ∉ quantifiers ∧
        (Simple c → (∀ d ∈ rest, d ∈ quantifiers) ∧ (rest = [] → s = atomOf c))) →
      ∃ c rest, p ++ op :: lazy = c :: rest ∧ c ∉ quantifiers ∧
        (Simple c → (∀ d ∈ rest, d ∈ quantifiers) ∧ (rest = [] → t = atomOf c)) := by
    intro p lazy op s t hop hlazy hp
    obtain ⟨c, rest, rfl, hhead, hrest⟩ := hp
    refine ⟨c, rest ++ op :: lazy, rfl, hhead, fun hc => ?_⟩
    obtain ⟨hall, hne⟩ := quantified_cons hop hlazy ⟨c, rest, rfl, fun hc => (hrest hc).1⟩ rfl hc
    exact ⟨hall, fun hnil => absurd hnil hne⟩
  induction hparses with
  | once hatom =>
    obtain ⟨c, rest, rfl, hhead⟩ := hatom.atom_head
    refine ⟨c, rest, rfl, hhead, fun hc => ?_⟩
    obtain ⟨rfl, rfl⟩ := hatom.atom_cons hc
    exact ⟨by simp, fun _ => rfl⟩
  | star _ hlazy ih => exact hquantified (by decide) hlazy (ih rfl)
  | plus _ hlazy ih => exact hquantified (by decide) hlazy (ih rfl)
  | opt _ hlazy ih => exact hquantified (by decide) hlazy (ih rfl)
  | _ => cases hlevel

theorem Parses.branch_nil {r : Regex} (hparses : Parses .branch [] r) : r = .empty := by
  generalize htext : ([] : List Char) = q at hparses
  cases hparses with
  | nil => rfl
  | cons hpiece _ =>
    obtain ⟨c, rest, rfl, -, -⟩ := hpiece.piece_cons
    simp at htext

/-- A branch that starts with a simple character and no repetition of it. -/
theorem Parses.branch_cons {c : Char} {p : List Char} {r : Regex}
    (hparses : Parses .branch (c :: p) r) (hc : Simple c) (hp : ∀ d ∈ p.head?, d ∉ quantifiers) :
    ∃ s, r = .cat (atomOf c) s ∧ Parses .branch p s := by
  generalize htext : c :: p = q at hparses
  cases hparses with
  | nil => simp at htext
  | @cons q q' r s hpiece hbranch =>
    obtain ⟨d, rest, rfl, -, hrest⟩ := hpiece.piece_cons
    rw [List.cons_append] at htext
    obtain ⟨rfl, rfl⟩ := List.cons.inj htext
    obtain ⟨hall, hatom⟩ := hrest hc
    cases rest with
    | nil => exact ⟨s, by rw [hatom rfl], hbranch⟩
    | cons e rest => exact absurd (hall e List.mem_cons_self) (hp e rfl)

theorem Parses.to_branch {p : List Char} {r : Regex} (hparses : Parses .alternation p r)
    (hbar : '|' ∉ p) : Parses .branch p r := by
  cases hparses with
  | alternative _ _ => exact absurd (List.mem_append_right _ List.mem_cons_self) hbar
  | branch hbranch => exact hbranch

theorem Parses.not_star {level : Level} {r : Regex} (hparses : Parses level ['*'] r) : False := by
  generalize htext : ['*'] = q at hparses
  have hpiece : ∀ {q q' : List Char} {s : Regex}, Parses .piece q s → ['*'] = q ++ q' → False := by
    intro q q' s hpiece heq
    obtain ⟨d, rest, rfl, hhead, -⟩ := hpiece.piece_cons
    obtain ⟨rfl, -⟩ := List.cons.inj heq
    exact absurd (by decide) hhead
  induction hparses with
  | @alternative p q _ _ _ _ _ _ =>
    have hbar : '|' ∈ p ++ '|' :: q := List.mem_append_right _ List.mem_cons_self
    exact absurd (htext ▸ hbar) (by decide)
  | branch _ ih => exact ih htext
  | nil => simp at htext
  | cons hp _ _ _ => exact hpiece hp htext
  | once hatom _ => exact hpiece (.once hatom) (by rw [htext, List.append_nil])
  | star hp _ _ => exact hpiece hp htext
  | plus hp _ _ => exact hpiece hp htext
  | opt hp _ _ => exact hpiece hp htext
  | literal hc =>
    obtain ⟨rfl, -⟩ := List.cons.inj htext
    exact hc (by decide)
  | dot => exact absurd (List.cons.inj htext).1 (by decide)
  | start => exact absurd (List.cons.inj htext).1 (by decide)
  | finish => exact absurd (List.cons.inj htext).1 (by decide)
  | group _ _ => exact absurd (List.cons.inj htext).1 (by decide)
  | set => exact absurd (List.cons.inj htext).1 (by decide)

theorem Parses.piece_dotStar {r : Regex} (hparses : Parses .piece ['.', '*'] r) :
    r = .star (.char lineChar) := by
  generalize htext : ['.', '*'] = q at hparses
  cases hparses with
  | once hatom =>
    subst htext
    obtain ⟨hnil, -⟩ := hatom.atom_cons (by decide)
    simp at hnil
  | star hpiece hlazy =>
    obtain ⟨c, rest, rfl, -, hrest⟩ := hpiece.piece_cons
    rw [List.cons_append] at htext
    obtain ⟨rfl, htail⟩ := List.cons.inj htext
    cases rest with
    | nil => rw [(hrest (by decide)).2 rfl, atomOf, if_pos rfl]
    | cons d rest => simp at htail
  | @plus p lazy _ _ _ =>
    have hmem : '+' ∈ p ++ '+' :: lazy := List.mem_append_right _ List.mem_cons_self
    exact absurd (htext ▸ hmem) (by decide)
  | @opt p lazy _ _ _ =>
    have hmem : '?' ∈ p ++ '?' :: lazy := List.mem_append_right _ List.mem_cons_self
    exact absurd (htext ▸ hmem) (by decide)

/-- Any characters but line ends, to the end of the branch. -/
theorem Parses.branch_dotStar {r : Regex} (hparses : Parses .branch ['.', '*'] r) :
    r = .cat (.star (.char lineChar)) .empty := by
  generalize htext : ['.', '*'] = q at hparses
  cases hparses with
  | nil => simp at htext
  | @cons q q' r s hpiece hbranch =>
    obtain ⟨c, rest, rfl, -, -⟩ := hpiece.piece_cons
    rw [List.cons_append] at htext
    obtain ⟨rfl, htail⟩ := List.cons.inj htext
    cases rest with
    | nil =>
      rw [List.nil_append] at htail
      exact absurd (htail ▸ hbranch) fun hstar => hstar.not_star
    | cons d rest =>
      rw [List.cons_append] at htail
      obtain ⟨rfl, hnil⟩ := List.cons.inj htail
      obtain ⟨rfl, rfl⟩ := List.append_eq_nil_iff.mp hnil.symm
      rw [hpiece.piece_dotStar, hbranch.branch_nil]

theorem dotStar_suffix_cases {p q : List Char} (hend : ['.', '*'] <:+ p ++ q) :
    ['.', '*'] <:+ q ∨ q = ['*'] ∧ '.' ∈ p ∨ q = [] ∧ ['.', '*'] <:+ p := by
  obtain ⟨front, heq⟩ := hend
  rcases List.append_eq_append_iff.mp heq with ⟨middle, hp, htail⟩ | ⟨middle, -, hq⟩
  · match middle, htail with
    | [], htail => exact Or.inl ⟨[], by simpa using htail⟩
    | [d], htail =>
      obtain ⟨rfl, hq⟩ := List.cons.inj htail
      exact Or.inr (Or.inl ⟨hq.symm, by rw [hp]; simp⟩)
    | d :: e :: rest, htail =>
      simp only [List.cons_append, List.cons.injEq, List.nil_eq, List.append_eq_nil_iff] at htail
      obtain ⟨rfl, rfl, rfl, rfl⟩ := htail
      exact Or.inr (Or.inr ⟨rfl, front, hp.symm⟩)
  · exact Or.inl ⟨middle, hq.symm⟩

theorem plainCount_pos_of_dot {p : List Char} (hdot : '.' ∈ p) : 0 < plainCount p := by
  obtain ⟨before, after, rfl⟩ := List.append_of_mem hdot
  have hplain : '.' ∉ operators := by decide
  rw [plainCount_append, plainCount_cons, if_neg hplain]
  omega

theorem mem_of_dotStar_suffix {p : List Char} (hend : ['.', '*'] <:+ p) : '.' ∈ p :=
  hend.subset (by simp)

theorem dotStar_suffix_concat {q : List Char} {c : Char}
    (hend : ['.', '*'] <:+ q ++ [c]) : c = '*' := by
  rcases dotStar_suffix_cases hend with hq | ⟨hq, -⟩ | ⟨hq, -⟩
  · exact absurd hq.length_le (by simp)
  · exact (List.cons.inj hq).1
  · simp at hq

theorem dotStar_suffix_lazy {q lazy : List Char} {op : Char} (hlazy : lazy = [] ∨ lazy = ['?'])
    (hend : ['.', '*'] <:+ q ++ op :: lazy) : op = '*' := by
  rcases hlazy with rfl | rfl
  · exact dotStar_suffix_concat hend
  · rw [show q ++ [op, '?'] = (q ++ [op]) ++ ['?'] by simp] at hend
    exact absurd (dotStar_suffix_concat hend) (by decide)

/-- The dot of a final `.*` is needed for no match. -/
theorem Parses.least_lt {level : Level} {p : List Char} {r : Regex} (hparses : Parses level p r)
    (hend : ['.', '*'] <:+ p) : r.least < plainCount p := by
  have hpos := plainCount_pos_of_dot (mem_of_dotStar_suffix hend)
  induction hparses with
  | @alternative p q r s hr hs _ ihs =>
    have hplain : plainCount (p ++ '|' :: q) = plainCount p + plainCount q := by
      rw [plainCount_append, plainCount_cons, if_pos (by decide)]
      rfl
    have hq : ['.', '*'] <:+ q := by
      have hq : ['.', '*'] <:+ (p ++ ['|']) ++ q := by simpa using hend
      rcases dotStar_suffix_cases hq with hq | ⟨rfl, -⟩ | ⟨rfl, hp⟩
      · exact hq
      · exact absurd hs.not_star id
      · exact absurd (dotStar_suffix_concat hp) (by decide)
    have hleast := hr.least_le
    have hlt := ihs hq (plainCount_pos_of_dot (mem_of_dotStar_suffix hq))
    rw [hplain, least]
    omega
  | branch _ ih => exact ih hend hpos
  | nil => simp at hend
  | @cons p q r s hr hs ihr ihs =>
    rw [plainCount_append, least]
    rcases dotStar_suffix_cases hend with hq | ⟨rfl, -⟩ | ⟨rfl, hp⟩
    · have hleast := hr.least_le
      have hlt := ihs hq (plainCount_pos_of_dot (mem_of_dotStar_suffix hq))
      omega
    · exact absurd hs.not_star id
    · have hleast := hs.least_le
      have hlt := ihr hp (plainCount_pos_of_dot (mem_of_dotStar_suffix hp))
      omega
  | once _ ih => exact ih hend hpos
  | star _ _ _ => exact hpos
  | plus _ hl _ => exact absurd (dotStar_suffix_lazy hl hend) (by decide)
  | opt _ hl _ => exact absurd (dotStar_suffix_lazy hl hend) (by decide)
  | literal hc =>
    obtain rfl := @dotStar_suffix_concat [] _ hend
    exact absurd (by decide) hc
  | dot => exact absurd (@dotStar_suffix_concat [] _ hend) (by decide)
  | start => exact absurd (@dotStar_suffix_concat [] _ hend) (by decide)
  | finish => exact absurd (@dotStar_suffix_concat [] _ hend) (by decide)
  | group _ _ => exact absurd (@dotStar_suffix_concat ('(' :: _) _ hend) (by decide)
  | set => exact absurd (@dotStar_suffix_concat ('[' :: _) _ hend) (by decide)

/-! ## What they match -/

/-- One character of the pattern, then the rest. -/
def Steps (c : Char) (next : Bool → Bool → List Char → Prop) (first last : Bool)
    (t : List Char) : Prop :=
  if c = '^' then first = true ∧ next first last t
  else if c = '$' then (last && t.isEmpty) = true ∧ next first last t
  else ∃ d u, t = d :: u ∧ (if c = '.' then d ∈ lineChar else d = c) ∧ next false last u

/-- The characters of a pattern in turn, then the rest. -/
def Reading : List Char → (Bool → Bool → List Char → Prop) → Bool → Bool → List Char → Prop
  | [], next => next
  | c :: p, next => Steps c (Reading p next)

theorem matches_char {allowed : Set Char} {first last : Bool} {t : List Char} :
    (Regex.char allowed).Matches first last t ↔ ∃ d ∈ allowed, t = [d] := by
  constructor
  · intro h
    cases h with
    | char hd => exact ⟨_, hd, rfl⟩
  · rintro ⟨d, hd, rfl⟩
    exact .char hd

theorem matches_empty {first last : Bool} {t : List Char} :
    Regex.empty.Matches first last t ↔ t = [] := by
  constructor
  · intro h
    cases h
    rfl
  · rintro rfl
    exact .empty

theorem matches_cat {r s : Regex} {first last : Bool} {t : List Char} :
    (Regex.cat r s).Matches first last t ↔ ∃ u v, t = u ++ v ∧
      r.Matches first (last && v.isEmpty) u ∧ s.Matches (first && u.isEmpty) last v := by
  constructor
  · intro h
    cases h with
    | cat hr hs => exact ⟨_, _, rfl, hr, hs⟩
  · rintro ⟨u, v, rfl, hr, hs⟩
    exact .cat hr hs

theorem matches_cat_char {allowed : Set Char} {s : Regex} {first last : Bool} {t : List Char} :
    (Regex.cat (.char allowed) s).Matches first last t ↔
      ∃ d u, t = d :: u ∧ d ∈ allowed ∧ s.Matches false last u := by
  rw [matches_cat]
  constructor
  · rintro ⟨u, v, rfl, hr, hs⟩
    obtain ⟨d, hd, rfl⟩ := matches_char.mp hr
    exact ⟨d, v, rfl, hd, by simpa using hs⟩
  · rintro ⟨d, u, rfl, hd, hs⟩
    exact ⟨[d], u, rfl, .char hd, by simpa using hs⟩

theorem matches_cat_atomOf {c : Char} (s : Regex) (first last : Bool) (t : List Char) :
    (Regex.cat (atomOf c) s).Matches first last t ↔ Steps c s.Matches first last t := by
  unfold atomOf Steps
  by_cases hdot : c = '.'
  · subst hdot
    rw [if_pos rfl, matches_cat_char, if_neg (by decide), if_neg (by decide)]
    simp
  · rw [if_neg hdot]
    by_cases hstart : c = '^'
    · rw [if_pos hstart, if_pos hstart, matches_cat]
      constructor
      · rintro ⟨u, v, rfl, hr, hs⟩
        cases hr with
        | start => exact ⟨rfl, by simpa using hs⟩
      · rintro ⟨rfl, hs⟩
        exact ⟨[], t, rfl, .start, by simpa using hs⟩
    · rw [if_neg hstart, if_neg hstart]
      by_cases hfinish : c = '$'
      · rw [if_pos hfinish, if_pos hfinish, matches_cat]
        constructor
        · rintro ⟨u, v, rfl, hr, hs⟩
          generalize hlast : (last && v.isEmpty) = b at hr
          cases hr with
          | finish => exact ⟨hlast, by simpa using hs⟩
        · rintro ⟨hlast, hs⟩
          exact ⟨[], t, rfl, hlast ▸ .finish, by simpa using hs⟩
      · rw [if_neg hfinish, if_neg hfinish, matches_cat_char]
        simp only [if_neg hdot, Set.mem_singleton_iff]

theorem Steps.congr {c : Char} {next next' : Bool → Bool → List Char → Prop}
    (hnext : ∀ first last t, next first last t ↔ next' first last t) (first last : Bool)
    (t : List Char) : Steps c next first last t ↔ Steps c next' first last t := by
  unfold Steps
  simp only [hnext]

/-- A branch of simple characters is read from left to right. -/
theorem Parses.reading {p q : List Char} {r : Regex} (hparses : Parses .branch (p ++ q) r)
    (hp : ∀ c ∈ p, Simple c) (hq : ∀ d ∈ q.head?, d ∉ quantifiers) : ∃ s, Parses .branch q s ∧
      ∀ first last t, r.Matches first last t ↔ Reading p s.Matches first last t := by
  induction p generalizing r with
  | nil => exact ⟨r, hparses, fun _ _ _ => Iff.rfl⟩
  | cons c p ih =>
    have hhead : ∀ d ∈ (p ++ q).head?, d ∉ quantifiers := by
      intro d hd
      cases p with
      | nil => exact hq d hd
      | cons e p =>
        obtain rfl : e = d := Option.some.inj hd
        exact (hp e (by simp)).not_quantifier
    obtain ⟨r', rfl, hrest⟩ := hparses.branch_cons (hp c List.mem_cons_self) hhead
    obtain ⟨s, hs, hreading⟩ := ih hrest fun d hd => hp d (List.mem_cons_of_mem _ hd)
    refine ⟨s, hs, fun first last t => ?_⟩
    rw [matches_cat_atomOf]
    exact Steps.congr hreading first last t

theorem exists_parses_branch {p q : List Char} (hp : ∀ c ∈ p, Simple c) {s : Regex}
    (hs : Parses .branch q s) : ∃ r, Parses .branch (p ++ q) r := by
  induction p with
  | nil => exact ⟨s, hs⟩
  | cons c p ih =>
    obtain ⟨r, hr⟩ := ih fun d hd => hp d (List.mem_cons_of_mem _ hd)
    have hatom : Parses .piece [c] (atomOf c) := .once (parses_atomOf (hp c List.mem_cons_self))
    have hcons : Parses .branch ([c] ++ (p ++ q)) _ := .cons hatom hr
    exact ⟨_, hcons⟩

theorem steps_of_not_special {c : Char} (hc : c ∉ special) {next : Bool → Bool → List Char → Prop}
    {first last : Bool} {t : List Char} :
    Steps c next first last t ↔ ∃ u, t = c :: u ∧ next false last u := by
  have hne : ∀ d ∈ special, c ≠ d := fun d hd heq => hc (heq ▸ hd)
  rw [Steps, if_neg (hne '^' (by decide)), if_neg (hne '$' (by decide))]
  simp only [if_neg (hne '.' (by decide))]
  constructor
  · rintro ⟨d, u, rfl, rfl, hu⟩
    exact ⟨u, rfl, hu⟩
  · rintro ⟨u, rfl, hu⟩
    exact ⟨c, u, rfl, rfl, hu⟩

theorem reading_literal {f : List Char} (hf : ∀ c ∈ f, c ∉ special) {p : List Char}
    {next : Bool → Bool → List Char → Prop} {first last : Bool} {t : List Char} :
    Reading (f ++ p) next first last t ↔ ∃ u, t = f ++ u ∧
      Reading p next (first && f.isEmpty) last u := by
  induction f generalizing first t with
  | nil => simp
  | cons c f ih =>
    have hcons : Reading (c :: f ++ p) next first last t ↔
        Steps c (Reading (f ++ p) next) first last t := Iff.rfl
    rw [hcons, steps_of_not_special (hf c List.mem_cons_self)]
    simp only [ih fun d hd => hf d (List.mem_cons_of_mem _ hd), List.isEmpty_cons,
      Bool.and_false, Bool.false_and]
    constructor
    · rintro ⟨u, rfl, v, rfl, hv⟩
      exact ⟨v, rfl, hv⟩
    · rintro ⟨v, rfl, hv⟩
      exact ⟨f ++ v, rfl, v, rfl, hv⟩

/-- Another text for a pattern with dots. -/
def filled (f : List Char) : List Char := f.map fun c => if c = '.' then 'x' else c

theorem filled_ne {f : List Char} (hdot : '.' ∈ f) : filled f ≠ f := by
  intro heq
  have hmem : '.' ∈ filled f := heq.symm ▸ hdot
  obtain ⟨c, -, hc⟩ := List.mem_map.mp hmem
  split_ifs at hc with hcdot
  · exact absurd hc (by decide)
  · exact hcdot hc

theorem reading_filled {f : List Char} (hf : ∀ c ∈ f, c = '.' ∨ c ∉ special) {p : List Char}
    {next : Bool → Bool → List Char → Prop} {first last : Bool} {u : List Char}
    (hu : Reading p next (first && f.isEmpty) last u) :
    Reading (f ++ p) next first last (filled f ++ u) := by
  induction f generalizing first with
  | nil => simpa [filled] using hu
  | cons c f ih =>
    have hrest : Reading (f ++ p) next false last (filled f ++ u) :=
      ih (fun d hd => hf d (List.mem_cons_of_mem _ hd)) (by simpa using hu)
    have hcons : filled (c :: f) ++ u = (if c = '.' then 'x' else c) :: (filled f ++ u) := rfl
    rw [hcons]
    rcases hf c List.mem_cons_self with rfl | hc
    · have hx : 'x' ∈ lineChar := show 'x' ≠ '\n' by decide
      exact ⟨'x', _, rfl, hx, hrest⟩
    · have hne : c ≠ '.' := fun heq => hc (heq ▸ by decide)
      rw [if_neg hne]
      exact (steps_of_not_special hc).mpr ⟨_, rfl, hrest⟩

/-! ## Anchored patterns -/

theorem simple_of_dot_or_literal {c : Char} (hc : c = '.' ∨ c ∉ special) : Simple c := by
  rcases hc with rfl | hc
  · decide
  · exact Or.inr hc

/-- A pattern between both anchors is read from the first character of the text to the last. -/
theorem Parses.exact_reading {f : List Char} (hf : ∀ c ∈ f, c = '.' ∨ c ∉ special) {r : Regex}
    (hparses : Parses .alternation ('^' :: (f ++ ['$'])) r) (first last : Bool) (t : List Char) :
    r.Matches first last t ↔ first = true ∧
      Reading (f ++ ['$']) Regex.empty.Matches first last t := by
  have hsimple : ∀ c ∈ '^' :: (f ++ ['$']), Simple c := by
    intro c hc
    rcases List.mem_cons.mp hc with rfl | hc
    · decide
    · rcases List.mem_append.mp hc with hc | hc
      · exact simple_of_dot_or_literal (hf c hc)
      · rw [List.mem_singleton.mp hc]
        decide
  have hbar : '|' ∉ '^' :: (f ++ ['$']) := fun hmem => absurd (hsimple _ hmem) (by decide)
  have hbranch : Parses .branch ('^' :: (f ++ ['$']) ++ []) r := by
    simpa using hparses.to_branch hbar
  obtain ⟨s, hs, hreading⟩ := hbranch.reading hsimple (by simp)
  obtain rfl := hs.branch_nil
  exact hreading first last t

/-- A pattern before a final `.*` is read from the first character of the text on. -/
theorem Parses.prefix_reading {f : List Char} (hf : ∀ c ∈ f, c = '.' ∨ c ∉ special) {r : Regex}
    (hparses : Parses .alternation ('^' :: (f ++ ['.', '*'])) r) :
    ∃ s : Regex, (∀ first last, s.Matches first last []) ∧
      ∀ first last t, r.Matches first last t ↔ first = true ∧ Reading f s.Matches first last t := by
  have hsimple : ∀ c ∈ '^' :: f, Simple c := by
    intro c hc
    rcases List.mem_cons.mp hc with rfl | hc
    · decide
    · exact simple_of_dot_or_literal (hf c hc)
  have hbar : '|' ∉ '^' :: (f ++ ['.', '*']) := by
    rw [← List.cons_append, List.mem_append, not_or]
    exact ⟨fun hmem => absurd (hsimple _ hmem) (by decide), by decide⟩
  have hbranch : Parses .branch ('^' :: f ++ ['.', '*']) r := hparses.to_branch hbar
  obtain ⟨s, hs, hreading⟩ := hbranch.reading hsimple (fun d hd => by
    obtain rfl := Option.some.inj hd
    decide)
  obtain rfl := hs.branch_dotStar
  exact ⟨_, fun _ _ => matches_cat.mpr ⟨[], [], rfl, .done, .empty⟩, hreading⟩

theorem reading_finish {first last : Bool} {t : List Char} :
    Reading ['$'] Regex.empty.Matches first last t ↔ last = true ∧ t = [] := by
  have hsteps : Reading ['$'] Regex.empty.Matches first last t ↔
    (last && t.isEmpty) = true ∧ Regex.empty.Matches first last t := Iff.rfl
  rw [hsteps, matches_empty]
  constructor
  · rintro ⟨hlast, rfl⟩
    exact ⟨by simpa using hlast, rfl⟩
  · rintro ⟨rfl, rfl⟩
    exact ⟨rfl, rfl⟩

theorem finds_of_start {r : Regex} {p : List Char} {next : Bool → Bool → List Char → Prop}
    (hr : ∀ first last t, r.Matches first last t ↔ first = true ∧ Reading p next first last t)
    (text : List Char) : r.Finds text ↔ ∃ middle after, text = middle ++ after ∧
      Reading p next true after.isEmpty middle := by
  constructor
  · rintro ⟨before, middle, after, rfl, hmatch⟩
    obtain ⟨hbefore, hreading⟩ := (hr _ _ _).mp hmatch
    rw [hbefore] at hreading
    rw [List.isEmpty_iff.mp hbefore]
    exact ⟨middle, after, rfl, hreading⟩
  · rintro ⟨middle, after, rfl, hreading⟩
    exact ⟨[], middle, after, rfl, (hr _ _ _).mpr ⟨rfl, hreading⟩⟩

theorem finds_exact {f : List Char} (hf : ∀ c ∈ f, c ∉ special) {r : Regex}
    (hparses : Parses .alternation ('^' :: (f ++ ['$'])) r) (text : List Char) :
    r.Finds text ↔ text = f := by
  rw [finds_of_start (hparses.exact_reading fun c hc => Or.inr (hf c hc))]
  simp only [reading_literal hf, reading_finish]
  constructor
  · rintro ⟨middle, after, rfl, u, rfl, hafter, rfl⟩
    rw [List.isEmpty_iff.mp hafter, List.append_nil, List.append_nil]
  · rintro rfl
    exact ⟨text, [], by simp, [], by simp, rfl, rfl⟩

theorem finds_start {f : List Char} (hf : ∀ c ∈ f, c ∉ special) {r : Regex}
    (hparses : Parses .alternation ('^' :: (f ++ ['.', '*'])) r) (text : List Char) :
    r.Finds text ↔ f <+: text := by
  obtain ⟨s, hs, hreading⟩ := hparses.prefix_reading fun c hc => Or.inr (hf c hc)
  rw [finds_of_start hreading]
  have hliteral : ∀ {last : Bool} {t : List Char}, Reading f s.Matches true last t ↔
      ∃ u, t = f ++ u ∧ s.Matches (true && f.isEmpty) last u := by
    intro last t
    have hnil := @reading_literal f hf [] s.Matches true last t
    rwa [List.append_nil] at hnil
  simp only [hliteral]
  constructor
  · rintro ⟨middle, after, rfl, u, rfl, -⟩
    exact ⟨u ++ after, by simp⟩
  · rintro ⟨u, rfl⟩
    exact ⟨f, u, rfl, [], by simp, hs _ _⟩

/-- A dot of the name lets another text through. -/
theorem finds_exact_filled {f : List Char} (hf : ∀ c ∈ f, c = '.' ∨ c ∉ special) {r : Regex}
    (hparses : Parses .alternation ('^' :: (f ++ ['$'])) r) : r.Finds (filled f) := by
  rw [finds_of_start (hparses.exact_reading hf)]
  have hend : Reading ['$'] Regex.empty.Matches (true && f.isEmpty) true [] :=
    reading_finish.mpr ⟨rfl, rfl⟩
  exact ⟨filled f, [], by simp, by simpa using reading_filled hf hend⟩

theorem finds_start_filled {f : List Char} (hf : ∀ c ∈ f, c = '.' ∨ c ∉ special) {r : Regex}
    (hparses : Parses .alternation ('^' :: (f ++ ['.', '*'])) r) : r.Finds (filled f) := by
  obtain ⟨s, hs, hreading⟩ := hparses.prefix_reading hf
  rw [finds_of_start hreading]
  have hend : Reading [] s.Matches (true && f.isEmpty) true [] := hs _ _
  exact ⟨filled f, [], by simp, by simpa using reading_filled hf hend⟩

theorem not_operator_of_dot_or_literal {f : List Char} (hf : ∀ c ∈ f, c ∉ operators)
    (hslash : '\\' ∉ f) (hbrace : '\x7b' ∉ f) : ∀ c ∈ f, c = '.' ∨ c ∉ special := by
  intro c hc
  rw [or_iff_not_imp_right, not_not]
  intro hspecial
  simp only [special, List.mem_cons, List.not_mem_nil, or_false] at hspecial
  rcases hspecial with rfl | rfl | rfl | rfl | rfl | rfl | rfl | rfl | rfl | rfl | rfl | rfl
  · exact absurd hc hslash
  · rfl
  all_goals first | exact absurd hc hbrace | exact absurd (by decide) (hf _ hc)

/-- An anchored pattern that finds its own text and no other is one of literals. -/
theorem literal_of_finds_exact {f : List Char} (hslash : '\\' ∉ f) (hbrace : '\x7b' ∉ f) {r : Regex}
    (hparses : Parses .alternation ('^' :: (f ++ ['$'])) r)
    (hfinds : ∀ text, r.Finds text ↔ text = f) : ∀ c ∈ f, c ∉ special := by
  by_cases hoperator : ∃ c ∈ f, c ∈ operators
  · obtain ⟨c, hmem, hc⟩ := hoperator
    have hplain : plainCount ('^' :: (f ++ ['$'])) = plainCount f := by
      rw [plainCount_cons, plainCount_append]
      rfl
    have hleast : r.least < f.length := hparses.least_le.trans_lt (hplain ▸ plainCount_lt hmem hc)
    obtain ⟨other, hother, hne, -⟩ := ((hfinds f).mpr rfl).other hleast
    exact absurd ((hfinds other).mp hother) hne
  · have hf := not_operator_of_dot_or_literal (fun c hc hop => hoperator ⟨c, hc, hop⟩) hslash hbrace
    intro c hc hspecial
    have hdot : '.' ∈ f := (hf c hc).resolve_right (not_not_intro hspecial) ▸ hc
    exact filled_ne hdot ((hfinds _).mp (finds_exact_filled hf hparses))

theorem literal_of_finds_start {f : List Char} (hslash : '\\' ∉ f) (hbrace : '\x7b' ∉ f) {r : Regex}
    (hparses : Parses .alternation ('^' :: (f ++ ['.', '*'])) r)
    (hfinds : ∀ text, r.Finds text ↔ f <+: text) : ∀ c ∈ f, c ∉ special := by
  have hshort : ∀ {text : List Char}, r.Finds text → text.length ≤ f.length → text = f := by
    intro text htext hlen
    exact (((hfinds text).mp htext).eq_of_length_le hlen).symm
  by_cases hoperator : ∃ c ∈ f, c ∈ operators
  · obtain ⟨c, hmem, hc⟩ := hoperator
    have hplain : plainCount ('^' :: (f ++ ['.', '*'])) = plainCount f + 1 := by
      rw [plainCount_cons, plainCount_append]
      rfl
    have hend : ['.', '*'] <:+ '^' :: (f ++ ['.', '*']) := ⟨'^' :: f, rfl⟩
    have hless : r.least < f.length := by
      have hlt := hparses.least_lt hend
      have hcount := plainCount_lt hmem hc
      omega
    obtain ⟨other, hother, hne, hlen⟩ := ((hfinds f).mpr (List.prefix_refl f)).other hless
    exact absurd (hshort hother hlen) hne
  · have hf := not_operator_of_dot_or_literal (fun c hc hop => hoperator ⟨c, hc, hop⟩) hslash hbrace
    intro c hc hspecial
    have hdot : '.' ∈ f := (hf c hc).resolve_right (not_not_intro hspecial) ▸ hc
    exact filled_ne hdot (hshort (finds_start_filled hf hparses) (by simp [filled]))

end Facet.RegexSyntax
