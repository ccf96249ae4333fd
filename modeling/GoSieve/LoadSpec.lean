import GoSieve.Commands

/-!
# The spec loader

The parsed script the loader reads (`parser.Cmd`, `parser.Test`, `parser.Arg`), the per-command
schema `Spec` and its binder `LoadSpec`, and the matcher's share of it: `addSpecTags` and
`setKey`. None of these is under `src/`; they are modelled from the spec (§4.3). The lexer and
the parser are left out: the loader starts from their output. Positions are left out of the
errors.

A Go loader fills its own record through the callbacks of its `Spec`. Here every loader
fills one record, `Loaded`, which has a field for each thing some loader binds.

What a successful `LoadSpec` did is said once, for the proofs about the loaders to use:
`loadSpec_ok` splits it into its tags, its positional arguments and its checks, and
`loadTags_ok_induction` is the induction over the tags it bound.
-/

namespace GoSieve

/-! ## The parsed script -/

/-- `parser.Arg`: a string, a string-list, a number or a tag. -/
inductive Arg where
  | string (s : Bytes)
  | strings (l : List Bytes)
  | number (n : Nat)
  | tag (name : Bytes)
deriving DecidableEq, Repr

/-- `parser.Test`: a name, its arguments and its nested tests. -/
inductive PTest where
  | mk (id : Bytes) (args : List Arg) (tests : List PTest)

/-- `parser.Cmd`: a name, its arguments, its tests and its block. -/
inductive PCmd where
  | mk (id : Bytes) (args : List Arg) (tests : List PTest) (block : List PCmd)

/-- The strings of a string or string-list argument. -/
def Arg.strs : Arg → Option (List Bytes)
  | .string s => some [s]
  | .strings l => some l
  | _ => none

/-! ## Specs -/

/-- What the loaders bind. -/
structure Loaded where
  matcher : MatcherTest := newMatcherTest
  addressPart : AddressPart := .all
  addressPartCnt : Nat := 0
  useSubaddress : Bool := false
  /-- The header names of `address`, `header`, `exists`; the envelope-parts of `envelope`;
  the mailboxes of `mailboxexists`; the sources of `string`; the flags of the flag
  commands. -/
  names : List Bytes := []
  key : List Bytes := []
  zone : Bytes := []
  zoneCnt : Nat := 0
  originalZone : Bool := false
  index : Nat := 0
  last : Bool := false
  datePart : Bytes := []
  /-- The one string of `date`'s header, of the edit commands' field name, of `fileinto`'s
  mailbox, of `redirect`'s address, of `set`'s name. -/
  fieldName : Bytes := []
  value : Bytes := []
  valuePatterns : List Bytes := []
  days : Nat := 7
  subject : Bytes := []
  «from» : Bytes := []
  addresses : List Bytes := []
  mime : Bool := false
  handle : Bytes := []
  size : Nat := 0
  over : Bool := false
  under : Bool := false
  copy : Bool := false
  create : Bool := false
  flagged : Bool := false
  modifiers : List Bytes := []

/-- `SpecTag`. A `maxStrCount` of 0 sets no bound. -/
structure SpecTag where
  needsValue : Bool := false
  minStrCount : Nat := 0
  maxStrCount : Nat := 0
  matchBool : Loaded → Loaded := id
  matchNum : Option (Nat → Loaded → Loaded) := none
  matchStr : Option (List Bytes → Loaded → Loaded) := none

/-- `SpecPosArg` -/
structure SpecPosArg where
  optional : Bool := false
  minStrCount : Nat := 0
  maxStrCount : Nat := 0
  matchNum : Option (Nat → Loaded → Loaded) := none
  matchStr : Option (List Bytes → Loaded → Loaded) := none

/-- `Spec`: the tags, the positional arguments, and whether the command takes tests (one,
or several) and a block. -/
structure Spec where
  tags : List (Bytes × SpecTag) := []
  pos : List SpecPosArg := []
  addTest : Bool := false
  multipleTests : Bool := false
  addBlock : Bool := false

/-! ## `LoadSpec` -/

/-- Binds one argument to a number or string callback, its string count within bounds. -/
def bindArg (matchNum : Option (Nat → Loaded → Loaded))
    (matchStr : Option (List Bytes → Loaded → Loaded)) (minC maxC : Nat) (arg : Arg)
    (l : Loaded) : Except Bytes Loaded :=
  match matchNum, arg.strs, arg with
  | some f, _, .number n => .ok (f n l)
  | _, some v, _ =>
    match matchStr with
    | some f =>
      if minC ≤ v.length && (maxC = 0 || v.length ≤ maxC) then .ok (f v l)
      else .error (lit "wrong number of strings")
    | none => .error (lit "unexpected string argument")
  | _, _, _ => .error (lit "unexpected argument")

/-- The tagged arguments, which come first: each is bound with its value when it needs one.
What follows the last tag is returned. -/
def loadTags (tags : List (Bytes × SpecTag)) : List Arg → Loaded → Except Bytes (List Arg × Loaded)
  | .tag name :: rest, l =>
    match tags.lookup name with
    | none => .error (lit "unknown tagged argument: :" ++ name)
    | some t =>
      if t.needsValue then
        match rest with
        | [] => .error (lit "missing value for :" ++ name)
        | v :: rest' =>
          match bindArg t.matchNum t.matchStr t.minStrCount t.maxStrCount v l with
          | .error e => .error e
          | .ok l' => loadTags tags rest' l'
      else loadTags tags rest (t.matchBool l)
  | args, l => .ok (args, l)

/-- A tag that `lookup` finds is in the list. -/
theorem lookup_mem {tags : List (Bytes × SpecTag)} {name : Bytes} {t : SpecTag}
    (h : tags.lookup name = some t) : (name, t) ∈ tags := by
  induction tags with
  | nil => cases h
  | cons p ps ih =>
    obtain ⟨k, v⟩ := p
    simp only [List.lookup_cons] at h
    split at h
    · next hk => cases h; simp [(beq_iff_eq.1 hk).symm]
    · exact .tail _ (ih h)

/-- Induction over a successful `loadTags`: a relation between the arguments and the state
before and after holds once no tag is left, and goes back over a tag bound with its value and
over a flag. -/
theorem loadTags_ok_induction {tags : List (Bytes × SpecTag)}
    {motive : List Arg → Loaded → List Arg → Loaded → Prop}
    (done : ∀ args l, (∀ name rest, args ≠ .tag name :: rest) → motive args l args l)
    (value : ∀ name t v args l l₁ rest l', tags.lookup name = some t → t.needsValue = true →
      bindArg t.matchNum t.matchStr t.minStrCount t.maxStrCount v l = .ok l₁ →
      motive args l₁ rest l' → motive (.tag name :: v :: args) l rest l')
    (flag : ∀ name t args l rest l', tags.lookup name = some t → t.needsValue = false →
      motive args (t.matchBool l) rest l' → motive (.tag name :: args) l rest l')
    {args : List Arg} {l : Loaded} {rest : List Arg} {l' : Loaded}
    (h : loadTags tags args l = .ok (rest, l')) : motive args l rest l' := by
  induction args, l using loadTags.induct tags with
  | case1 name rest l hn =>
    unfold loadTags at h
    rw [hn] at h
    cases h
  | case2 name l t ht hv =>
    unfold loadTags at h
    simp only [ht, hv, if_true] at h
    cases h
  | case3 name l t ht hv v rest' e hb =>
    unfold loadTags at h
    simp only [ht, hv, hb, if_true] at h
    cases h
  | case4 name l t ht hv v rest' l₁ hb ih =>
    unfold loadTags at h
    simp only [ht, hv, hb, if_true] at h
    exact value _ _ _ _ _ _ _ _ ht hv hb (ih h)
  | case5 name rest l t ht hv ih =>
    unfold loadTags at h
    simp only [ht, hv, if_false] at h
    exact flag _ _ _ _ _ _ ht (Bool.eq_false_iff.2 hv) (ih h)
  | case6 args l hne =>
    unfold loadTags at h
    split at h
    · exact absurd rfl (hne _ _)
    · cases h
      exact done _ _ fun name rest h => hne name rest h

/-- The positional arguments, in order; an optional one that does not bind is skipped. -/
def loadPos : List SpecPosArg → List Arg → Loaded → Except Bytes Loaded
  | [], [], l => .ok l
  | [], _ :: _, _ => .error (lit "too many arguments")
  | p :: ps, [], l => if p.optional then loadPos ps [] l else .error (lit "missing argument")
  | p :: ps, a :: as, l =>
    match bindArg p.matchNum p.matchStr p.minStrCount p.maxStrCount a l with
    | .ok l' => loadPos ps as l'
    | .error e => if p.optional then loadPos ps (a :: as) l else .error e

/-- The tests and the block against what the spec takes. -/
def checkTestsBlock (spec : Spec) (ntests : Nat) (hasBlock : Bool) : Option Bytes :=
  if !spec.addTest && 0 < ntests then some (lit "tests are not allowed")
  else if spec.addTest && ntests = 0 then some (lit "a test is required")
  else if spec.addTest && !spec.multipleTests && 1 < ntests then some (lit "only one test is allowed")
  else if !spec.addBlock && hasBlock then some (lit "a block is not allowed")
  else none

/-- Modelled from the spec: `LoadSpec(s, spec, pos, args, tests, block)` binds the tags, then
the positional arguments, then checks the tests and the block. -/
def loadSpec (spec : Spec) (args : List Arg) (ntests : Nat) (hasBlock : Bool) (l : Loaded) :
    Except Bytes Loaded :=
  match loadTags spec.tags args l with
  | .error e => .error e
  | .ok (rest, l) =>
    match loadPos spec.pos rest l with
    | .error e => .error e
    | .ok l =>
      match checkTestsBlock spec ntests hasBlock with
      | some e => .error e
      | none => .ok l

/-- A successful `LoadSpec` bound the tags, then the positional arguments after them, and
found the tests and the block allowed. -/
theorem loadSpec_ok {spec : Spec} {args : List Arg} {ntests : Nat} {hasBlock : Bool}
    {l l' : Loaded} (h : loadSpec spec args ntests hasBlock l = .ok l') :
    ∃ rest l₁, loadTags spec.tags args l = .ok (rest, l₁) ∧ loadPos spec.pos rest l₁ = .ok l' ∧
      checkTestsBlock spec ntests hasBlock = none := by
  unfold loadSpec at h
  split at h
  · cases h
  · next rest l₁ ht =>
    split at h
    · cases h
    · next l₂ hp =>
      split at h
      · cases h
      · next hc =>
        cases h
        exact ⟨rest, l₁, ht, hp, hc⟩

/-! ## The matcher's tags and keys -/

/-- A match-type tag: `:is`, `:contains`, `:matches`, `:regex`. -/
def matchTypeTag (m : Match) : SpecTag :=
  { matchBool := fun l =>
      { l with matcher := { l.matcher with matchType := m, matchCnt := l.matcher.matchCnt + 1 } } }

/-- A relational match-type tag: `:value` or `:count` with its operator. -/
def relationalTag (m : Match) : SpecTag :=
  { needsValue := true, minStrCount := 1, maxStrCount := 1
    matchStr := some fun v l =>
      { l with matcher := { l.matcher with
          matchType := m, matchCnt := l.matcher.matchCnt + 1
          relational := Relational.ofBytes (v.headD []) } } }

/-- The tags `addSpecTags` adds. -/
def matcherTags : List (Bytes × SpecTag) :=
  [(lit "comparator",
    { needsValue := true, minStrCount := 1, maxStrCount := 1
      matchStr := some fun v l =>
        { l with matcher := { l.matcher with
            comparator := Comparator.ofBytes (v.headD [])
            comparatorCnt := l.matcher.comparatorCnt + 1 } } }),
   (lit "is", matchTypeTag .is), (lit "contains", matchTypeTag .contains),
   (lit "matches", matchTypeTag .matches), (lit "regex", matchTypeTag .regex),
   (lit "value", relationalTag .value), (lit "count", relationalTag .count)]

/-- Modelled from the spec: `t.addSpecTags(spec)` adds the comparator and match-type tags,
which every test taking keys shares. -/
def addSpecTags (spec : Spec) : Spec := { spec with tags := matcherTags ++ spec.tags }

/-- A key as the comparator normalises it. -/
def normaliseKey (C : CaseTables) (c : Comparator) (k : Bytes) : Bytes :=
  match c with
  | .asciiCaseMap => toLowerASCII k
  | .unicodeCaseMap => toLower C k
  | _ => k

/-- Modelled from the spec: `t.setKey(s, k)` checks the matcher's invariants and stores the
keys, normalised by the comparator except for `:matches` and `:regex`. -/
def setKey (C : CaseTables) (s : ScriptConfig) (m : MatcherTest) (k : List Bytes) :
    Except Bytes MatcherTest :=
  if 1 < m.comparatorCnt then .error (lit "multiple comparators are not allowed")
  else if 1 < m.matchCnt then .error (lit "multiple match-types are not allowed")
  else if m.matchType = .regex && !s.requiresExtension (lit "regex") then
    .error (lit "missing require 'regex'")
  else if (m.matchType = .value || m.matchType = .count) &&
      !s.requiresExtension (lit "relational") then .error (lit "missing require 'relational'")
  else if (m.matchType = .value || m.matchType = .count) && !m.relational.valid then
    .error (lit "invalid relational match")
  else if m.comparator matches .other _ then .error (lit "unsupported comparator")
  else if m.matchType = .count && (k.length ≠ 1 || numericValue (k.headD []) = none) then
    .error (lit ":count needs one numeric key")
  else
    let key := if m.matchType = .matches || m.matchType = .regex then k
      else k.map (normaliseKey C m.comparator)
    .ok { m with key := key }

end GoSieve
