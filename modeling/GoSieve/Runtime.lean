import GoSieve.Match

/-!
# Runtime data

`RuntimeData`, the per-message state of an evaluation, the host interfaces it reads
(`Message`, `Envelope`, `Policy`), and the header-edit journal with its replay
`applyHeaderEditsToValues`.

`NewRuntimeData`, `expandVars` and the `matcherTest` methods (`tryMatch`, `isCount`,
`countMatches`) are not under `src/`: they are modelled from the spec. The host message is
read through `EditableMessage`, so that tests see the base headers with the journal replayed
(§4.7); `RuntimeData.headerGet` is that read.
-/

namespace GoSieve

/-! ## Host interfaces -/

/-- `Message`: the host's view of the message. `HeaderGet` may fail with the host's error. -/
structure Message where
  headerGet : Bytes → Except Bytes (List Bytes)
  messageSize : Int

/-- `Envelope` -/
structure Envelope where
  envelopeFrom : Bytes
  envelopeTo : Bytes
  authUsername : Bytes
deriving DecidableEq, Repr

/-- `PolicyReader`, with the optional `MailboxChecker` and `MailboxCreator` it may implement. -/
structure Policy where
  mailboxExists : Option (Bytes → Except Bytes Bool)
  createMailbox : Option (Bytes → Option Bytes)

/-- Modelled from the spec: `MessageStatic`, the `Message` of the tests: a header table read
through `textproto.MIMEHeader.Values`, whose keys compare ignoring ASCII case, and a size. -/
def messageStatic (header : List (Bytes × Bytes)) (size : Int) : Message :=
  ⟨fun key => .ok ((header.filter fun h => h.1.map lowerByte == key.map lowerByte).map Prod.snd),
    size⟩

/-- Modelled from the spec: `DummyPolicy`, which checks and creates no mailboxes. -/
def dummyPolicy : Policy := ⟨none, none⟩

/-! ## State -/

/-- `HeaderEdit.Action` -/
inductive EditAction where
  | add | delete
deriving DecidableEq, Repr

/-- `HeaderEdit`: one entry of the journal. `index = 0` means no index. -/
structure HeaderEdit where
  action : EditAction
  fieldName : Bytes
  value : Bytes
  last : Bool
  index : Nat
deriving DecidableEq, Repr

/-- `VacationResponse` -/
structure VacationResponse where
  «from» : Bytes
  subject : Bytes
  body : Bytes
  isMime : Bool
  handle : Bytes
  days : Nat
deriving DecidableEq, Repr

/-- `Options` of package `interp`. -/
structure Options where
  maxRedirects : Nat
  maxVariableCount : Nat
  maxVariableNameLen : Nat
  maxVariableLen : Nat
deriving DecidableEq, Repr

/-- `DefaultOptions().Interp` -/
def defaultOptions : Options := ⟨5, 128, 32, 4000⟩

/-- What evaluation reads of the loaded `Script`: the extensions its `require`s enabled and
its options. -/
structure ScriptConfig where
  extensions : List Bytes
  opts : Options
deriving DecidableEq, Repr

/-- `s.RequiresExtension(name)` -/
def ScriptConfig.requiresExtension (s : ScriptConfig) (name : Bytes) : Bool :=
  s.extensions.contains name

/-- `RuntimeData`: the state one evaluation reads and writes. -/
structure RuntimeData where
  script : ScriptConfig
  policy : Policy
  envelope : Envelope
  msg : Message
  implicitKeep : Bool
  keep : Bool
  mailboxes : List Bytes
  redirectAddr : List Bytes
  flags : List Bytes
  headerEdits : List HeaderEdit
  «variables» : List (Bytes × Bytes)
  matchVariables : List Bytes
  vacationResponses : List (Bytes × VacationResponse)

/-- Modelled from the spec: `NewRuntimeData(s, p, e, msg)`; `ImplicitKeep` starts true. -/
def newRuntimeData (s : ScriptConfig) (p : Policy) (e : Envelope) (msg : Message) : RuntimeData :=
  ⟨s, p, e, msg, true, false, [], [], [], [], [], [], []⟩

/-! ## The header-edit journal -/

/-- One edit of `applyHeaderEditsToValues` applied to the values read so far. -/
def applyHeaderEdit (C : CaseTables) (fieldName : Bytes) (result : List Bytes)
    (edit : HeaderEdit) : List Bytes :=
  if !equalFold C edit.fieldName fieldName then result
  else
    match edit.action with
    | .add => if edit.last then result ++ [edit.value] else edit.value :: result
    | .delete =>
      if 0 < edit.index then
        let idx := if edit.last then result.length - edit.index else edit.index - 1
        if edit.index ≤ result.length then result.eraseIdx idx else result
      else if edit.value ≠ [] then result.erase edit.value
      else []

/-- `applyHeaderEditsToValues(d, fieldName, values)`: the journal replayed, in order, on the
base values of one field. -/
def applyHeaderEditsToValues (C : CaseTables) (edits : List HeaderEdit) (fieldName : Bytes)
    (values : List Bytes) : List Bytes :=
  edits.foldl (applyHeaderEdit C fieldName) values

theorem applyHeaderEditsToValues_cons (C : CaseTables) (e : HeaderEdit) (es : List HeaderEdit)
    (g : Bytes) (vs : List Bytes) :
    applyHeaderEditsToValues C (e :: es) g vs = applyHeaderEditsToValues C es g (applyHeaderEdit C g vs e) :=
  rfl

/-- A journal that names no field `EqualFold` to `g` leaves the values of `g` as they are. -/
theorem applyHeaderEditsToValues_of_unnamed (C : CaseTables) (g : Bytes) :
    ∀ (es : List HeaderEdit) (vs : List Bytes), (∀ e ∈ es, equalFold C e.fieldName g = false) →
      applyHeaderEditsToValues C es g vs = vs
  | [], _, _ => rfl
  | e :: es, vs, hj => by
    have hskip : applyHeaderEdit C g vs e = vs := by
      simp [applyHeaderEdit, hj e (List.mem_cons_self e es)]
    rw [applyHeaderEditsToValues_cons, hskip]
    exact applyHeaderEditsToValues_of_unnamed C g es vs fun e' he' => hj e' (List.mem_cons_of_mem e he')

theorem applyHeaderEditsToValues_append (C : CaseTables) (es es' : List HeaderEdit) (g : Bytes)
    (vs : List Bytes) :
    applyHeaderEditsToValues C (es ++ es') g vs =
      applyHeaderEditsToValues C es' g (applyHeaderEditsToValues C es g vs) :=
  List.foldl_append _ _ _ _

/-- `d.Msg.HeaderGet(key)` through `EditableMessage`: the host's values with the journal
replayed, or the host's error unchanged. -/
def RuntimeData.headerGet (C : CaseTables) (d : RuntimeData) (key : Bytes) :
    Except Bytes (List Bytes) :=
  match d.msg.headerGet key with
  | .error e => .error e
  | .ok values => .ok (applyHeaderEditsToValues C d.headerEdits key values)

/-! ## Variables -/

/-- A byte that may occur in a variable name. -/
def isNameByte (c : UInt8) : Bool :=
  isAsciiDigit c || isUpperByte c || (97 ≤ c && c ≤ 122) || c = 95

/-- A variable name (RFC 5229): an identifier, or the digits of a match variable. -/
def isVarName (name : Bytes) : Bool :=
  match name with
  | [] => false
  | c :: _ => name.all isNameByte && (!isAsciiDigit c || name.all isAsciiDigit)

/-- The value of `${name}`: a match variable for digits, else the variable of that name,
names compared lower-cased; `""` when unset. -/
def RuntimeData.lookupVar (d : RuntimeData) (name : Bytes) : Bytes :=
  if name.all isAsciiDigit then d.matchVariables.getD (digitsValue name) []
  else ((d.«variables».find? fun p => p.1 == name.map lowerByte).map Prod.snd).getD []

/-- Where the scan of `expandVars` stands: in text, after a `$`, or inside `${` with the
name read so far. -/
inductive ExpandState where
  | text | dollar | name (acc : Bytes)

/-- The scan of `expandVars`, one byte at a time. -/
def expandScan (lookup : Bytes → Bytes) : ExpandState → Bytes → Bytes
  | .text, [] => []
  | .dollar, [] => lit "$"
  | .name acc, [] => lit "$\x7b" ++ acc
  | .text, c :: t => if c = 36 then expandScan lookup .dollar t else c :: expandScan lookup .text t
  | .dollar, c :: t =>
    if c = 123 then expandScan lookup (.name []) t
    else if c = 36 then 36 :: expandScan lookup .dollar t
    else 36 :: c :: expandScan lookup .text t
  | .name acc, c :: t =>
    if c = 125 then
      (if isVarName acc then lookup acc else lit "$\x7b" ++ acc ++ [125]) ++
        expandScan lookup .text t
    else if isNameByte c then expandScan lookup (.name (acc ++ [c])) t
    else if c = 36 then lit "$\x7b" ++ acc ++ expandScan lookup .dollar t
    else lit "$\x7b" ++ acc ++ c :: expandScan lookup .text t

/-- Modelled from the spec: `expandVars(d, s)` replaces each `${name}` by its value when the
script requires `variables`, and is the identity otherwise. -/
def expandVars (d : RuntimeData) (s : Bytes) : Bytes :=
  if d.script.requiresExtension (lit "variables") then expandScan d.lookupVar .text s else s

/-- `expandVarsList(d, list)` -/
def expandVarsList (d : RuntimeData) (l : List Bytes) : List Bytes := l.map (expandVars d)

/-! ## `matcherTest` -/

/-- `matcherTest`: what a key-matching test carries besides its own fields. -/
structure MatcherTest where
  comparator : Comparator
  /-- `match` -/
  matchType : Match
  relational : Relational
  key : List Bytes
  matchCnt : Nat
  comparatorCnt : Nat
deriving DecidableEq, Repr

/-- Modelled from the spec: `newMatcherTest()`, `:is` under the default comparator. -/
def newMatcherTest : MatcherTest := ⟨defaultComparator, .is, .eq, [], 0, 0⟩

/-- `t.isCount()` -/
def MatcherTest.isCount (t : MatcherTest) : Bool := t.matchType == .count

/-- Modelled from the spec: `t.tryMatch(d, value)` tries the keys in order, each through
`testString`; the first error ends the search, the first match ends it with `true` and, for
`:matches` and `:regex`, stores the captures as match variables. -/
def MatcherTest.tryMatch (L : Lib) (t : MatcherTest) (d : RuntimeData) (value : Bytes) :
    List Bytes → Except String (Bool × Option Bytes × RuntimeData)
  | [] => .ok (false, none, d)
  | k :: ks =>
    match testString L t.comparator t.matchType t.relational value (expandVars d k) with
    | .error p => .error p
    | .ok (_, _, some e) => .ok (false, some e, d)
    | .ok (true, caps, none) =>
      .ok (true, none,
        if t.matchType = .matches || t.matchType = .regex then { d with matchVariables := caps }
        else d)
    | .ok (false, _, none) => t.tryMatch L d value ks

/-- Modelled from the spec: `t.countMatches(d, count)` compares the number of entries with
each key as `i;ascii-numeric` numbers under the relational operator. -/
def MatcherTest.countMatches (t : MatcherTest) (d : RuntimeData) (count : Nat) : Bool :=
  t.key.any fun k => t.relational.compareNumericValue (some count) (numericValue (expandVars d k))

end GoSieve
