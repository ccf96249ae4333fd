import GoSieve.Date

/-!
# The matcher engine

`testString`, the function every key-matching test ends in, with the comparators and
match-types of RFC 4790, 5228, 5231 and the regex draft, and the helpers of the same source
file: `split`, `splitSubaddress`, `numericValue` and `toLowerASCII`.

`testString` panics on `:count`; its callers must divert `:count` to the counting path first.
A call that may panic returns `Except String`, the panic's text on the error side; Go's
`error` results are `Option Bytes`, the error's text.

The relational operators (`Relational.CompareString`, `CompareNumericValue`) and the glob
matchers `matchOctet` and `matchUnicode` are not under `src/` and are modelled from the spec.
The Go library functions the engine calls (`regexp`, the Unicode case tables) are fields of
`Lib`.
-/

namespace GoSieve

/-- The Go library functions the interpreter calls that this development does not translate:
the Unicode case tables, `regexp`, `net/mail`'s address-list parser, `time`'s parsers, the
clock and the local zone. -/
structure Lib where
  case : CaseTables
  /-- `regexp.Compile(pattern)` within `CompileSafeRegex`'s deadline: the error, if any. -/
  regexCompile : Bytes → Option Bytes
  /-- `FindStringSubmatch` within `FindSubmatch`'s deadline: an error (a timeout or a panic
  of the matcher), no match, or the submatches. -/
  regexFind : Bytes → Bytes → Except Bytes (Option (List Bytes))
  /-- `mail.ParseAddressList(s)`: the `Address` of each mailbox, or the error. -/
  parseAddressList : Bytes → Except Bytes (List Bytes)
  /-- `mail.ParseDate(s)` -/
  mailParseDate : Bytes → Option Time
  /-- `time.Parse(layout, s)` -/
  timeParse : Bytes → Bytes → Option Time
  /-- `time.Now()` -/
  now : Time
  /-- The offset of the local zone at an instant, for `t.Local()`. -/
  localOffset : Int → Int

/-- `mail.ParseAddressList` on a list of one address, bare or in angle brackets after an
optional display name. -/
def parseOneAddress (s : Bytes) : Except Bytes (List Bytes) :=
  let s := trimSpace s
  match lastIndexByte s 60 with
  | some i =>
    if endsWith s (lit ">") then .ok [((s.drop (i + 1)).take (s.length - i - 2))]
    else .error (lit "mail: unclosed angle-addr")
  | none => if count s 64 = 1 then .ok [s] else .error (lit "mail: missing @ in addr-spec")

/-- A library for concrete runs: `goCase`, `parseOneAddress`, no regex support, no date
parser, and a clock at 1970-01-01 00:00 UTC. -/
def sampleLib : Lib where
  case := goCase
  regexCompile _ := some (lit "unsupported")
  regexFind _ _ := .ok none
  parseAddressList := parseOneAddress
  mailParseDate _ := none
  timeParse _ _ := none
  now := ⟨0, 0⟩
  localOffset _ := 0

/-! ## Types -/

/-- `Match`: a match-type. Go's type is a string; `unset` is its zero value `""`. -/
inductive Match where
  | contains | is | matches | value | count | regex | unset
deriving DecidableEq, Repr

/-- `Comparator`: a string type; `other` is a name that is none of the four. -/
inductive Comparator where
  | octet | asciiCaseMap | asciiNumeric | unicodeCaseMap | other (name : Bytes)
deriving DecidableEq, Repr

/-- `DefaultComparator` -/
def defaultComparator : Comparator := .asciiCaseMap

/-- `Comparator(name)` -/
def Comparator.ofBytes (name : Bytes) : Comparator :=
  if name = lit "i;octet" then .octet
  else if name = lit "i;ascii-casemap" then .asciiCaseMap
  else if name = lit "i;ascii-numeric" then .asciiNumeric
  else if name = lit "i;unicode-casemap" then .unicodeCaseMap
  else .other name

/-- `AddressPart` -/
inductive AddressPart where
  | localPart | domain | all | user | detail
deriving DecidableEq, Repr

/-- The relational operators of RFC 5231, and a name that is none of them. -/
inductive Relational where
  | lt | le | eq | ne | gt | ge | other (name : Bytes)
deriving DecidableEq, Repr

def Relational.ofBytes (name : Bytes) : Relational :=
  if name = lit "lt" then .lt else if name = lit "le" then .le
  else if name = lit "eq" then .eq else if name = lit "ne" then .ne
  else if name = lit "gt" then .gt else if name = lit "ge" then .ge
  else .other name

/-- `Relational.Valid()` -/
def Relational.valid : Relational → Bool
  | .other _ => false
  | _ => true

/-- Modelled from the spec: a relational operator holds of the order of value and key. -/
def Relational.holds : Relational → Ordering → Bool
  | .lt, o => o == .lt
  | .le, o => o != .gt
  | .eq, o => o == .eq
  | .ne, o => o != .eq
  | .gt, o => o == .gt
  | .ge, o => o != .lt
  | .other _, _ => false

/-- Go's string order: byte-wise, a proper prefix first. -/
def compareBytes : Bytes → Bytes → Ordering
  | [], [] => .eq
  | [], _ :: _ => .lt
  | _ :: _, [] => .gt
  | a :: s, b :: t => if a < b then .lt else if b < a then .gt else compareBytes s t

/-- RFC 4790 §9.1: a string with no leading digit stands for positive infinity. -/
def compareNumeric : Option Nat → Option Nat → Ordering
  | none, none => .eq
  | none, some _ => .gt
  | some _, none => .lt
  | some a, some b => compare a b

/-- Modelled from the spec: `rel.CompareString(value, key)`. -/
def Relational.compareString (rel : Relational) (value key : Bytes) : Bool :=
  rel.holds (compareBytes value key)

/-- Modelled from the spec: `rel.CompareNumericValue(lhs, rhs)`. -/
def Relational.compareNumericValue (rel : Relational) (lhs rhs : Option Nat) : Bool :=
  rel.holds (compareNumeric lhs rhs)

/-- The result of one match: matched, the capture groups, and Go's `error`. -/
abbrev MatchOut := Bool × List Bytes × Option Bytes

/-! ## Globs -/

/-- A token of a `:matches` pattern. -/
inductive GlobTok (α : Type) where
  | one | star | lit (a : α)

/-- The tokens of a pattern: `*`, `?`, and `\` quoting the next unit. -/
def globTokens {α : Type} (isStar isOne isEsc : α → Bool) : List α → List (GlobTok α)
  | [] => []
  | [a] => [if isStar a then .star else if isOne a then .one else .lit a]
  | a :: b :: t =>
    if isEsc a then .lit b :: globTokens isStar isOne isEsc t
    else (if isStar a then .star else if isOne a then .one else .lit a) ::
      globTokens isStar isOne isEsc (b :: t)

/-- The first match of a glob, each `*` as short as the rest allows: the text of each
wildcard, in order. -/
def globMatch {α : Type} (eq : α → α → Bool) : List (GlobTok α) → List α → Option (List (List α))
  | [], v => if v.isEmpty then some [] else none
  | .one :: ps, a :: v => (globMatch eq ps v).map ([a] :: ·)
  | .one :: _, [] => none
  | .lit p :: ps, a :: v => if eq p a then globMatch eq ps v else none
  | .lit _ :: _, [] => none
  | .star :: ps, v =>
    (List.range (v.length + 1)).findSome? fun k =>
      (globMatch eq ps (v.drop k)).map (v.take k :: ·)

/-- Modelled from the spec: `matchOctet(pattern, value, caseInsensitive)`, a glob over bytes
(A–Z folded when `caseInsensitive`); the captures are the value and each wildcard's text. -/
def matchOctet (pattern value : Bytes) (caseInsensitive : Bool) : MatchOut :=
  let eq := fun a b => if caseInsensitive then lowerByte a == lowerByte b else a == b
  match globMatch eq (globTokens (· == 42) (· == 63) (· == 92) pattern) value with
  | some caps => (true, value :: caps, none)
  | none => (false, [], none)

/-- Modelled from the spec: `matchUnicode(pattern, value, caseInsensitive)`, the same glob
over runes, runes compared by simple folding. -/
def matchUnicode (C : CaseTables) (pattern value : Bytes) (caseInsensitive : Bool) : MatchOut :=
  let eq := fun (a b : Char × Bytes) => if caseInsensitive then foldEqRune C a.1 b.1 else a.1 == b.1
  let pat := globTokens (·.1 == '*') (·.1 == '?') (·.1 == '\\') (decodeAll pattern)
  match globMatch eq pat (decodeAll value) with
  | some caps => (true, value :: caps.map fun c => (c.map Prod.snd).flatten, none)
  | none => (false, [], none)

/-! ## The source functions -/

/-- `split(addr)`: local part and domain at the last `@`; `postmaster` stands alone. -/
def split (C : CaseTables) (addr : Bytes) : Except Bytes (Bytes × Bytes) :=
  if equalFold C addr (lit "postmaster") then .ok (addr, [])
  else
    match lastIndexByte addr 64 with
    | none => .error (lit "address: missing at-sign")
    | some i =>
      if addr.take i = [] then .error (lit "address: empty local-part")
      else if addr.drop (i + 1) = [] then .error (lit "address: empty domain")
      else .ok (addr.take i, addr.drop (i + 1))

/-- `SubaddressSeparator`, at its default. -/
def subaddressSeparator : Bytes := lit "+"

/-- `splitSubaddress(localPart)`: user and detail at the first separator. -/
def splitSubaddress (localPart : Bytes) : Bytes × Bytes :=
  match index localPart subaddressSeparator with
  | none => (localPart, [])
  | some i => (localPart.take i, localPart.drop (i + subaddressSeparator.length))

/-- `strconv.ParseUint(s, 10, 64)`: one or more ASCII digits whose value fits in 64 bits. -/
def parseUint (s : Bytes) : Option Nat :=
  if s.isEmpty || !s.all isAsciiDigit then none
  else if digitsValue s < 2 ^ 64 then some (digitsValue s) else none

/-- `numericValue(s)`: the value of the leading run of `unicode.IsDigit` runes, read by
`ParseUint`; `none` for Go's `nil`. -/
def numericValue (s : Bytes) : Option Nat :=
  match runes s with
  | [] => none
  | r :: rs =>
    if !isDigit r then none
    else
      let run := (r :: rs).takeWhile isDigit
      parseUint (if run.length < (r :: rs).length then ofRunes run else s)

/-- One iteration of `toLowerASCII`'s builder loop at index `i`, on the text written so far
and `pos`: at an upper-case byte, the run `s[pos:i]` and the lowered byte are written, and
`pos` moves past it. -/
def toLowerASCIIStep (s : Bytes) (acc : Bytes × Nat) (i : Nat) : Bytes × Nat :=
  let c := s.getD i 0
  if isUpperByte c then
    (acc.1 ++ (if acc.2 < i then (s.drop acc.2).take (i - acc.2) else []) ++ [c + 32], i + 1)
  else acc

/-- `toLowerASCII(s)`: the scan for an upper-case byte, then the builder loop, and the rest of
`s` from `pos`. -/
def toLowerASCII (s : Bytes) : Bytes :=
  if !s.any isUpperByte then s
  else
    let (b, pos) := (List.range s.length).foldl (toLowerASCIIStep s) ([], 0)
    if pos < s.length then b ++ s.drop pos else b

/-- `matchRegex(pattern, value)` with `DefaultRegexLimits`: the pattern and input length
checks of `CompileSafeRegex` and `FindSubmatch`, then the library's matcher. -/
def matchRegex (L : Lib) (pattern value : Bytes) : MatchOut :=
  if 1000 < pattern.length then
    (false, [], some (lit "regex pattern too long: " ++ digitsOf pattern.length ++ lit " > 1000"))
  else
    match L.regexCompile pattern with
    | some e => (false, [], some (lit "regex compile error: " ++ e))
    | none =>
      if 10000 < value.length then
        (false, [], some (lit "input too long for regex: " ++ digitsOf value.length ++ lit " > 10000"))
      else
        match L.regexFind pattern value with
        | .error e => (false, [], some e)
        | .ok none => (false, [], none)
        | .ok (some groups) => (true, groups, none)

/-- `ErrComparatorMatchUnsupported` -/
def errComparatorMatchUnsupported : Bytes := lit "match-comparator combination not supported"

/-- The text of `testString`'s panic. -/
def countPanic : String := "testString should not be used with MatchCount"

/-- `testString(comparator, match, rel, value, key)` -/
def testString (L : Lib) (comparator : Comparator) (m : Match) (rel : Relational)
    (value key : Bytes) : Except String MatchOut :=
  match comparator, m with
  | .octet, .contains => .ok (contains value key, [], none)
  | .octet, .is => .ok (value == key, [], none)
  | .octet, .matches => .ok (matchOctet key value false)
  | .octet, .regex => .ok (matchRegex L key value)
  | .octet, .value => .ok (rel.compareString value key, [], none)
  | .asciiNumeric, .contains => .ok (false, [], some errComparatorMatchUnsupported)
  | .asciiNumeric, .is =>
    .ok (Relational.eq.compareNumericValue (numericValue value) (numericValue key), [], none)
  | .asciiNumeric, .matches => .ok (false, [], some errComparatorMatchUnsupported)
  | .asciiNumeric, .regex => .ok (false, [], some errComparatorMatchUnsupported)
  | .asciiNumeric, .value =>
    .ok (rel.compareNumericValue (numericValue value) (numericValue key), [], none)
  | .asciiCaseMap, .contains => .ok (contains (toLowerASCII value) (toLowerASCII key), [], none)
  | .asciiCaseMap, .is => .ok (toLowerASCII value == toLowerASCII key, [], none)
  | .asciiCaseMap, .matches => .ok (matchOctet key value true)
  | .asciiCaseMap, .regex => .ok (matchRegex L key (toLowerASCII value))
  | .asciiCaseMap, .value =>
    .ok (rel.compareString (toLowerASCII value) (toLowerASCII key), [], none)
  | .unicodeCaseMap, .contains =>
    .ok (contains (toLower L.case value) (toLower L.case key), [], none)
  | .unicodeCaseMap, .is => .ok (equalFold L.case value key, [], none)
  | .unicodeCaseMap, .matches => .ok (matchUnicode L.case key value true)
  | .unicodeCaseMap, .regex => .ok (matchRegex L key (toLower L.case value))
  | .unicodeCaseMap, .value =>
    .ok (rel.compareString (toLowerASCII value) (toLowerASCII key), [], none)
  | .octet, .count | .asciiNumeric, .count | .asciiCaseMap, .count
  | .unicodeCaseMap, .count => .error countPanic
  | _, _ => .ok (false, [], none)

end GoSieve
