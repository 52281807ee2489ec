import Facet.Authorization
import Facet.RegexSyntax

/-!
# Resource expressions

`S3Resources` writes the name of a file or a bucket into a pattern as it is. A rule made from the
pattern grants what it is named for exactly when the name has no character that is special in a
pattern.
-/
namespace Facet.S3
open Auth RegexSyntax

namespace S3Resources

def exactMatch (file : String) : String := "^/" ++ file ++ "$"

def allObjectsInBucket (bucket : String) : String := "^/" ++ bucket ++ "/.*"

theorem exactMatch_toList (file : String) :
    (exactMatch file).toList = '^' :: ('/' :: file.toList ++ ['$']) := by
  simp [exactMatch]

theorem allObjectsInBucket_toList (bucket : String) :
    (allObjectsInBucket bucket).toList = '^' :: ('/' :: bucket.toList ++ ['/'] ++ ['.', '*']) := by
  simp [allObjectsInBucket]

end S3Resources

/-- No character is special in a pattern. -/
def Literal (name : String) : Prop := ∀ c ∈ name.toList, c ∉ special

/-- No escapes, counted repetitions or flags. -/
def Unescaped (name : String) : Prop :=
  '\\' ∉ name.toList ∧ '\x7b' ∉ name.toList ∧ ¬ ['(', '?'] <:+: name.toList

theorem Literal.unescaped {name : String} (hname : Literal name) : Unescaped name := by
  refine ⟨fun hmem => hname _ hmem (by decide), fun hmem =>
    hname _ hmem (by decide), fun hflag => ?_⟩
  exact hname '(' (hflag.subset (by simp)) (by decide)

/-- The engine compiles characters, dots and anchors, also with a final `.*`, and what it compiles
matches as the grammar reads it. Of patterns with escapes, counted repetitions or flags nothing more
is said. -/
structure StandardRegex (E : RegexEngine) : Prop where
  accepted : ∀ (pattern : String) (simple : List Char), (∀ c ∈ simple, Simple c) →
    pattern.toList = simple ∨ pattern.toList = simple ++ ['.', '*'] →
      ∃ regex, E.new pattern = .ok regex
  matched : ∀ (pattern : String) (regex : E.Regex), Unescaped pattern → E.new pattern = .ok regex →
    ∃ r, Parses .alternation pattern.toList r ∧ ∀ text, E.isMatch regex text = true ↔
      r.Finds text.toList

variable {E : RegexEngine}

/-- A rule for the pattern can be made and matches just these resources. -/
def GrantsExactly (E : RegexEngine) (pattern : String) (resources : List Char → Prop) : Prop :=
  ∀ scope actions, ∃ rule : Rule E, Rule.new scope actions pattern = .ok rule ∧
    ∀ resource, rule.matchesResource resource = true ↔ resources resource.toList

def GrantsFile (E : RegexEngine) (file : String) : Prop :=
  GrantsExactly E (S3Resources.exactMatch file) fun resource => resource = '/' :: file.toList

def GrantsBucket (E : RegexEngine) (bucket : String) : Prop :=
  GrantsExactly E (S3Resources.allObjectsInBucket bucket) fun resource =>
    '/' :: bucket.toList ++ ['/'] <+: resource

/-- A rule is as good as its expression. -/
theorem grantsExactly_iff {pattern : String} {resources : List Char → Prop} :
    GrantsExactly E pattern resources ↔ ∃ regex, E.new pattern = .ok regex ∧
      ∀ text : String, E.isMatch regex text = true ↔ resources text.toList := by
  constructor
  · intro hgrants
    obtain ⟨rule, hrule, hmatches⟩ := hgrants "" []
    cases hnew : E.new pattern with
    | error e => simp [Rule.new, hnew] at hrule
    | ok regex =>
      simp only [Rule.new, hnew, Except.ok.injEq] at hrule
      subst hrule
      exact ⟨regex, rfl, hmatches⟩
  · rintro ⟨regex, hnew, hmatches⟩ scope actions
    exact ⟨⟨scope, actions, pattern, some regex⟩, by simp [Rule.new, hnew], hmatches⟩

theorem GrantsExactly.matches_iff {pattern : String} {resources : List Char → Prop}
    (hgrants : GrantsExactly E pattern resources) {scope : String} {actions : List String}
    {rule : Rule E} (hrule : Rule.new scope actions pattern = .ok rule) (resource : String) :
    rule.matchesResource resource = true ↔ resources resource.toList := by
  obtain ⟨rule', hrule', hmatches⟩ := hgrants scope actions
  obtain rfl : rule' = rule := Except.ok.inj (hrule'.symm.trans hrule)
  exact hmatches resource

/-- The pattern around a name brings in no flags. -/
theorem not_flags_concat {name : List Char} (hname : ¬ ['(', '?'] <:+: name) {c : Char}
    (hc : c ≠ '?') : ¬ ['(', '?'] <:+: name ++ [c] := by
  rw [List.infix_concat_iff, not_or]
  refine ⟨?_, hname⟩
  rintro ⟨front, heq⟩
  have hlast : (front ++ ['('] ++ ['?']).getLast? = (name ++ [c]).getLast? := by rw [← heq]; simp
  rw [List.getLast?_concat, List.getLast?_concat] at hlast
  exact hc (Option.some.inj hlast).symm

theorem not_flags_cons {name : List Char} (hname : ¬ ['(', '?'] <:+: name) {c : Char}
    (hc : c ≠ '(') : ¬ ['(', '?'] <:+: c :: name := by
  rw [List.infix_cons_iff, not_or]
  exact ⟨fun hstart => hc (List.cons_prefix_cons.mp hstart).1.symm, hname⟩

theorem unescaped_exactMatch {file : String} (hfile : Unescaped file) :
    Unescaped (S3Resources.exactMatch file) := by
  obtain ⟨hslash, hbrace, hflags⟩ := hfile
  rw [Unescaped, S3Resources.exactMatch_toList]
  refine ⟨by simp [hslash], by simp [hbrace], ?_⟩
  exact not_flags_cons (not_flags_concat (not_flags_cons hflags (by decide)) (by decide))
    (by decide)

theorem unescaped_allObjectsInBucket {bucket : String} (hbucket : Unescaped bucket) :
    Unescaped (S3Resources.allObjectsInBucket bucket) := by
  obtain ⟨hslash, hbrace, hflags⟩ := hbucket
  rw [Unescaped, S3Resources.allObjectsInBucket_toList]
  refine ⟨by simp [hslash], by simp [hbrace], ?_⟩
  have hbare := not_flags_cons (c := '/') hflags (by decide)
  have hdot :=
    not_flags_concat (not_flags_concat hbare (c := '/') (by decide)) (c := '.') (by decide)
  have hstar := not_flags_cons (c := '^') (not_flags_concat hdot (c := '*') (by decide)) (by decide)
  simpa using hstar

theorem literal_slash {name : List Char} (hname : ∀ c ∈ name, c ∉ special) :
    ∀ c ∈ '/' :: name, c ∉ special := by
  intro c hc
  rcases List.mem_cons.mp hc with rfl | hc
  · decide
  · exact hname c hc

theorem literal_concat_slash {name : List Char} (hname : ∀ c ∈ name, c ∉ special) :
    ∀ c ∈ name ++ ['/'], c ∉ special := by
  intro c hc
  rcases List.mem_append.mp hc with hc | hc
  · exact hname c hc
  · rw [List.mem_singleton.mp hc]
    decide

theorem simple_anchored {name : List Char} (hname : ∀ c ∈ name, c ∉ special) :
    ∀ c ∈ '^' :: name, Simple c := by
  intro c hc
  rcases List.mem_cons.mp hc with rfl | hc
  · decide
  · exact simple_of_not_special (hname c hc)

theorem StandardRegex.grantsFile (hE : StandardRegex E) {file : String} (hfile : Literal file) :
    GrantsFile E file := by
  have hliteral := literal_slash hfile
  have hsimple : ∀ c ∈ '^' :: ('/' :: file.toList ++ ['$']), Simple c := by
    intro c hc
    rw [← List.cons_append, List.mem_append] at hc
    rcases hc with hc | hc
    · exact simple_anchored hliteral c hc
    · rw [List.mem_singleton.mp hc]
      decide
  obtain ⟨regex, hnew⟩ := hE.accepted _ _ hsimple (Or.inl (S3Resources.exactMatch_toList file))
  obtain ⟨r, hparses, hmatches⟩ := hE.matched _ _ (unescaped_exactMatch hfile.unescaped) hnew
  rw [S3Resources.exactMatch_toList] at hparses
  exact grantsExactly_iff.mpr ⟨regex, hnew, fun text =>
    (hmatches text).trans (finds_exact hliteral hparses _)⟩

theorem StandardRegex.grantsBucket (hE : StandardRegex E) {bucket : String}
    (hbucket : Literal bucket) : GrantsBucket E bucket := by
  have hliteral := literal_concat_slash (literal_slash hbucket)
  obtain ⟨regex, hnew⟩ := hE.accepted _ _ (simple_anchored hliteral)
    (Or.inr (S3Resources.allObjectsInBucket_toList bucket))
  obtain ⟨r, hparses, hmatches⟩ :=
    hE.matched _ _ (unescaped_allObjectsInBucket hbucket.unescaped) hnew
  rw [S3Resources.allObjectsInBucket_toList] at hparses
  exact grantsExactly_iff.mpr ⟨regex, hnew, fun text =>
    (hmatches text).trans (finds_start hliteral hparses _)⟩

theorem forall_text {P Q : List Char → Prop} (h : ∀ text : String, P text.toList ↔ Q text.toList)
    (text : List Char) : P text ↔ Q text := by
  simpa using h (String.ofList text)

theorem StandardRegex.literal_of_grantsFile (hE : StandardRegex E) {file : String}
    (hfile : Unescaped file) (hgrants : GrantsFile E file) : Literal file := by
  obtain ⟨regex, hnew, hgranted⟩ := grantsExactly_iff.mp hgrants
  obtain ⟨r, hparses, hmatches⟩ := hE.matched _ _ (unescaped_exactMatch hfile) hnew
  rw [S3Resources.exactMatch_toList] at hparses
  have hfinds := forall_text (P := r.Finds) (Q := fun text => text = '/' :: file.toList)
    fun text => (hmatches text).symm.trans (hgranted text)
  intro c hc
  exact literal_of_finds_exact (by simp [hfile.1]) (by simp [hfile.2.1]) hparses hfinds c
    (List.mem_cons_of_mem _ hc)

theorem StandardRegex.literal_of_grantsBucket (hE : StandardRegex E) {bucket : String}
    (hbucket : Unescaped bucket) (hgrants : GrantsBucket E bucket) : Literal bucket := by
  obtain ⟨regex, hnew, hgranted⟩ := grantsExactly_iff.mp hgrants
  obtain ⟨r, hparses, hmatches⟩ := hE.matched _ _ (unescaped_allObjectsInBucket hbucket) hnew
  rw [S3Resources.allObjectsInBucket_toList] at hparses
  have hfinds :=
    forall_text (P := r.Finds) (Q := fun text => '/' :: bucket.toList ++ ['/'] <+: text)
      fun text => (hmatches text).symm.trans (hgranted text)
  intro c hc
  exact literal_of_finds_start (by simp [hbucket.1]) (by simp [hbucket.2.1]) hparses hfinds c
    (by simp [hc])

/-- What stands before the first slash is the bucket. -/
theorem bucket_eq_of_start {bucket other rest : List Char} (hbucket : '/' ∉ bucket)
    (hother : '/' ∉ other) (hstart : bucket ++ ['/'] <+: other ++ '/' :: rest) :
    bucket = other := by
  induction bucket generalizing other with
  | nil =>
    cases other with
    | nil => rfl
    | cons d other =>
      obtain rfl : '/' = d := (List.cons_prefix_cons.mp hstart).1
      exact absurd List.mem_cons_self hother
  | cons c bucket ih =>
    cases other with
    | nil =>
      obtain rfl : c = '/' := (List.cons_prefix_cons.mp hstart).1
      exact absurd List.mem_cons_self hbucket
    | cons d other =>
      obtain ⟨rfl, htail⟩ := List.cons_prefix_cons.mp hstart
      rw [ih (fun hmem => hbucket (List.mem_cons_of_mem _ hmem))
        (fun hmem => hother (List.mem_cons_of_mem _ hmem))
        htail]

open Classical in
/-- The engine that compiles what the grammar reads. -/
noncomputable def standardEngine : RegexEngine where
  Regex := Regex
  new pattern :=
    if h : Unescaped pattern ∧ ∃ r, Parses .alternation pattern.toList r then .ok h.2.choose
    else .error "unsupported"
  isMatch regex text := decide (regex.Finds text.toList)

theorem parses_dotStar : Parses .branch ['.', '*'] (.cat (.star (.char lineChar)) .empty) :=
  .cons (p := ['.', '*']) (.star (p := ['.']) (.once .dot) (Or.inl rfl)) .nil

theorem exists_parses_simple {simple : List Char} (hsimple : ∀ c ∈ simple, Simple c)
    {pattern : List Char} (hpattern : pattern = simple ∨ pattern = simple ++ ['.', '*']) :
    ∃ r, Parses .alternation pattern r := by
  rcases hpattern with rfl | rfl
  · obtain ⟨r, hr⟩ := exists_parses_branch hsimple .nil
    exact ⟨r, .branch (by simpa using hr)⟩
  · obtain ⟨r, hr⟩ := exists_parses_branch hsimple parses_dotStar
    exact ⟨r, .branch hr⟩

theorem unescaped_of_simple {pattern : String} {simple : List Char}
    (hsimple : ∀ c ∈ simple, Simple c)
    (hpattern : pattern.toList = simple ∨ pattern.toList = simple ++ ['.', '*']) :
    Unescaped pattern := by
  have hmem : ∀ {c : Char}, ¬ Simple c → c ∉ ['.', '*'] → c ∉ pattern.toList := by
    intro c hc hend hmem
    rcases hpattern with hpattern | hpattern
    · exact hc (hsimple c (hpattern ▸ hmem))
    · rw [hpattern, List.mem_append] at hmem
      exact hmem.elim (fun h => hc (hsimple c h)) hend
  exact ⟨hmem (by decide) (by decide), hmem (by decide) (by decide),
    fun hflag => hmem (c := '(') (by decide) (by decide) (hflag.subset (by simp))⟩

theorem standardRegex_standardEngine : StandardRegex standardEngine where
  accepted pattern simple hsimple hpattern :=
    ⟨_, dif_pos ⟨unescaped_of_simple hsimple hpattern, exists_parses_simple hsimple hpattern⟩⟩
  matched pattern regex hpattern hnew := by
    by_cases h : Unescaped pattern ∧ ∃ r, Parses .alternation pattern.toList r
    · obtain rfl : h.2.choose = regex := Except.ok.inj ((dif_pos h).symm.trans hnew)
      exact ⟨_, h.2.choose_spec, fun text => @decide_eq_true_iff _ (Classical.propDecidable _)⟩
    · exact absurd ((dif_neg h).symm.trans hnew) (by simp)

/-- Resource expressions grant what they are named for when the name is literal, and then nothing of
another file or bucket; of the names without escapes, counted repetitions and flags, no others
do. -/
theorem resource_expressions_exact (hE : StandardRegex E) :
    (∀ file, Literal file → GrantsFile E file) ∧
    (∀ bucket, Literal bucket → GrantsBucket E bucket) ∧
    (∀ file, Unescaped file → (GrantsFile E file ↔ Literal file)) ∧
    (∀ bucket, Unescaped bucket → (GrantsBucket E bucket ↔ Literal bucket)) ∧
    (∀ (file other scope : String) actions (rule : Rule E), Literal file → other ≠ file →
      Rule.new scope actions (S3Resources.exactMatch file) = .ok rule →
      rule.matchesResource ("/" ++ other) = false) ∧
    (∀ (bucket other key scope : String) actions (rule : Rule E), Literal bucket →
      '/' ∉ bucket.toList → '/' ∉ other.toList → other ≠ bucket →
      Rule.new scope actions (S3Resources.allObjectsInBucket bucket) = .ok rule →
      rule.matchesResource ("/" ++ other ++ "/" ++ key) = false) := by
  refine ⟨fun _ => hE.grantsFile, fun _ => hE.grantsBucket,
    fun _ hfile => ⟨hE.literal_of_grantsFile hfile, hE.grantsFile⟩,
    fun _ hbucket => ⟨hE.literal_of_grantsBucket hbucket, hE.grantsBucket⟩, ?_, ?_⟩
  · intro file other scope actions rule hfile hne hrule
    rw [Bool.eq_false_iff]
    intro hmatches
    have hsame := ((hE.grantsFile hfile).matches_iff hrule _).mp hmatches
    exact hne (String.toList_inj.mp (by simpa using hsame))
  · intro bucket other key scope actions rule hbucket hslash hslash' hne hrule
    rw [Bool.eq_false_iff]
    intro hmatches
    have hstart := ((hE.grantsBucket hbucket).matches_iff hrule _).mp hmatches
    have htail : bucket.toList ++ ['/'] <+: other.toList ++ '/' :: key.toList := by
      simpa using hstart
    exact hne (String.toList_inj.mp (bucket_eq_of_start hslash hslash' htail)).symm

theorem report_granted :
    GrantsFile standardEngine "data/report" ∧ ¬ GrantsBucket standardEngine "my.bucket" := by
  have hexact := resource_expressions_exact standardRegex_standardEngine
  refine ⟨hexact.1 "data/report" (by simp [Literal, special]), ?_⟩
  have hbucket := hexact.2.2.2.1 "my.bucket"
    (@unescaped_of_simple "my.bucket" "my.bucket".toList (by simp [Simple, special]) (Or.inl rfl))
  exact fun hgrants => absurd (hbucket.mp hgrants '.' (by decide)) (by decide)

/-- The rule for the file `a.b` grants `axb` as well. -/
theorem dotted_file_grants_others :
    (∃ rule : Rule standardEngine, Rule.new "data" ["read"]
      (S3Resources.exactMatch "a.b") = .ok rule ∧ rule.matchesResource "/axb" = true) ∧
    ¬ GrantsFile standardEngine "a.b" := by
  have hsimple : ∀ c ∈ '^' :: ('/' :: "a.b".toList ++ ['$']), Simple c := by simp [Simple, special]
  obtain ⟨regex, hnew⟩ := standardRegex_standardEngine.accepted _ _ hsimple
    (Or.inl (S3Resources.exactMatch_toList "a.b"))
  obtain ⟨r, hparses, hmatches⟩ := standardRegex_standardEngine.matched _ _
    (unescaped_exactMatch (@unescaped_of_simple "a.b" "a.b".toList (by simp [Simple, special])
      (Or.inl rfl))) hnew
  rw [S3Resources.exactMatch_toList] at hparses
  have hgranted : standardEngine.isMatch regex "/axb" = true :=
    (hmatches "/axb").mpr
      (finds_exact_filled (f := '/' :: "a.b".toList) (by simp [special]) hparses)
  refine ⟨⟨⟨"data", ["read"], S3Resources.exactMatch "a.b", some regex⟩, by simp [Rule.new,
    hnew], hgranted⟩, fun hgrants => ?_⟩
  obtain ⟨regex', hnew', hexact⟩ := grantsExactly_iff.mp hgrants
  obtain rfl : regex = regex' := Except.ok.inj (hnew.symm.trans hnew')
  exact absurd ((hexact "/axb").mp hgranted) (by decide)

end Facet.S3
