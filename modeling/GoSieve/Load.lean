import GoSieve.LoadSpec

/-!
# Loading a script

The loaders, which bind a parsed command or test to its typed form and check its extension
requires, and `LoadScript`. `loadAddressTest`, `loadEnvelopeTest`, `loadExistsTest`,
`loadHeaderTest`, `loadSizeTest`, the boolean tests, `loadDateTest`, `loadCurrentDateTest`,
`loadMailboxExistsTest`, `loadAddHeader`, `loadDeleteHeader` and `loadVacation` are
translated from `src/interp`. The loaders of `string`, of the control and action commands,
of `set` and of the flag commands, and `LoadScript` itself, are not under `src/` and are
modelled from the spec (§4.5, §4.6).

A test's loader reads the names of its tests' loaders only through their result, so that
`loadTest` recurses on the parsed tree; `elsif` and `else` close the `if` before them.
-/

namespace GoSieve

/-! ## Spec helpers -/

/-- A tag without a value. -/
def boolTag (f : Loaded → Loaded) : SpecTag := { matchBool := f }

/-- A tag with a number. -/
def numTag (f : Nat → Loaded → Loaded) : SpecTag := { needsValue := true, matchNum := some f }

/-- A tag with one string. -/
def strTag (f : Bytes → Loaded → Loaded) : SpecTag :=
  { needsValue := true, minStrCount := 1, maxStrCount := 1, matchStr := some fun v => f (v.headD []) }

/-- A tag with a string-list. -/
def strsTag (f : List Bytes → Loaded → Loaded) : SpecTag :=
  { needsValue := true, minStrCount := 1, matchStr := some f }

/-- A positional argument of one string. -/
def strPos (f : Bytes → Loaded → Loaded) : SpecPosArg :=
  { minStrCount := 1, maxStrCount := 1, matchStr := some fun v => f (v.headD []) }

/-- A positional argument of one or more strings. -/
def strsPos (f : List Bytes → Loaded → Loaded) : SpecPosArg :=
  { minStrCount := 1, matchStr := some f }

/-- The positional key-list of a test. -/
def keyPos : SpecPosArg := strsPos fun v l => { l with key := v }

/-- `missing require '<ext>'` -/
def missingRequire (ext : Bytes) : Bytes := lit "missing require '" ++ ext ++ lit "'"

/-- The address-part tags. `address` counts each one in `AddressPartCnt` (`counted`);
`envelope` does not. -/
def addressPartTags (counted : Bool) : List (Bytes × SpecTag) :=
  let tag (part : AddressPart) (sub : Bool) : SpecTag := boolTag fun l =>
    { l with
      addressPart := part
      addressPartCnt := if counted then l.addressPartCnt + 1 else l.addressPartCnt
      useSubaddress := l.useSubaddress || sub }
  [(lit "all", tag .all false), (lit "localpart", tag .localPart false),
   (lit "domain", tag .domain false), (lit "user", tag .user true), (lit "detail", tag .detail true)]

/-! ## Tests -/

section Tests

variable (C : CaseTables) (s : ScriptConfig) (args : List Arg) (ntests : Nat)

/-- `loadAddressTest` -/
def loadAddressTest : Except Bytes Test := do
  let l ← loadSpec (addSpecTags
    { tags := addressPartTags true
      pos := [strsPos fun v l => { l with names := v }, keyPos] }) args ntests false {}
  let m ← setKey C s l.matcher l.key
  if 1 < l.addressPartCnt then throw (lit "multiple address-parts are not allowed")
  if l.useSubaddress && !s.requiresExtension (lit "subaddress") then
    throw (missingRequire (lit "subaddress"))
  pure (.addressTest m l.addressPart l.addressPartCnt l.names)

/-- `loadEnvelopeTest` -/
def loadEnvelopeTest : Except Bytes Test := do
  if !s.requiresExtension (lit "envelope") then throw (missingRequire (lit "envelope"))
  let l ← loadSpec (addSpecTags
    { tags := addressPartTags false
      pos := [strsPos fun v l => { l with names := v }, keyPos] }) args ntests false {}
  let m ← setKey C s l.matcher l.key
  if l.useSubaddress && !s.requiresExtension (lit "subaddress") then
    throw (missingRequire (lit "subaddress"))
  pure (.envelopeTest m l.addressPart l.names)

/-- `loadExistsTest` -/
def loadExistsTest : Except Bytes Test := do
  let l ← loadSpec { pos := [strsPos fun v l => { l with names := v }] } args ntests false {}
  pure (.existsTest l.names)

/-- `loadHeaderTest`: checks `regex` once more after `setKey`. -/
def loadHeaderTest : Except Bytes Test := do
  let l ← loadSpec (addSpecTags { pos := [strsPos fun v l => { l with names := v }, keyPos] })
    args ntests false {}
  let m ← setKey C s l.matcher l.key
  if m.matchType = .regex && !s.requiresExtension (lit "regex") then
    throw (missingRequire (lit "regex"))
  pure (.headerTest m l.names)

/-- `loadSizeTest`: exactly one of `:over` and `:under`. -/
def loadSizeTest : Except Bytes Test :=
  let spec : Spec :=
    { tags := [(lit "under", boolTag fun l => { l with under := true }),
        (lit "over", boolTag fun l => { l with over := true })]
      pos := [{ matchNum := some fun n l => { l with size := n } }] }
  match loadSpec spec args ntests false {} with
  | .error e => .error e
  | .ok l =>
    if l.under = l.over then .error (lit "loadSizeTest: either under or over is required")
    else .ok (.sizeTest l.size l.over l.under)

/-- `loadTrueTest` and `loadFalseTest`: no arguments. -/
def loadConstTest (t : Test) : Except Bytes Test := do
  let _ ← loadSpec {} args ntests false {}
  pure t

/-- `loadDateTest` -/
def loadDateTest : Except Bytes Test := do
  if !s.requiresExtension (lit "date") then throw (missingRequire (lit "date"))
  let l ← loadSpec (addSpecTags
    { tags := [(lit "zone", strTag fun v l => { l with zone := v, zoneCnt := l.zoneCnt + 1 }),
        (lit "originalzone", boolTag fun l =>
          { l with originalZone := true, zoneCnt := l.zoneCnt + 1 }),
        (lit "index", numTag fun n l => { l with index := n }),
        (lit "last", boolTag fun l => { l with last := true })]
      pos := [strPos fun v l => { l with fieldName := v },
        strPos fun v l => { l with datePart := toLower C v }, keyPos] }) args ntests false {}
  if 1 < l.zoneCnt then throw (lit "date: cannot specify both :zone and :originalzone")
  if l.zone ≠ [] then
    if let .error e := parseZoneOffset l.zone then throw (lit "date: " ++ e)
  if l.datePart ∉ validDateParts then throw (lit "date: invalid date-part: " ++ l.datePart)
  if l.last && l.index = 0 then throw (lit "date: :last requires :index")
  if 0 < l.index && !s.requiresExtension (lit "index") then
    throw (lit "date: missing require 'index' for :index argument")
  let m ← setKey C s l.matcher l.key
  pure (.dateTest m l.fieldName l.datePart l.zone l.originalZone l.index l.last)

/-- `loadCurrentDateTest` -/
def loadCurrentDateTest : Except Bytes Test := do
  if !s.requiresExtension (lit "date") then throw (missingRequire (lit "date"))
  let l ← loadSpec (addSpecTags
    { tags := [(lit "zone", strTag fun v l => { l with zone := v })]
      pos := [strPos fun v l => { l with datePart := toLower C v }, keyPos] }) args ntests false {}
  if l.zone ≠ [] then
    if let .error e := parseZoneOffset l.zone then throw (lit "currentdate: " ++ e)
  if l.datePart ∉ validDateParts then throw (lit "currentdate: invalid date-part: " ++ l.datePart)
  let m ← setKey C s l.matcher l.key
  pure (.currentDateTest m l.datePart l.zone)

/-- `loadMailboxExistsTest` -/
def loadMailboxExistsTest : Except Bytes Test := do
  if !s.requiresExtension (lit "mailbox") then throw (missingRequire (lit "mailbox"))
  let l ← loadSpec { pos := [strsPos fun v l => { l with names := v }] } args 0 false {}
  pure (.mailboxExistsTest l.names)

/-- Modelled from the spec: the loader of the `string` test of RFC 5229. -/
def loadStringTest : Except Bytes Test := do
  if !s.requiresExtension (lit "variables") then throw (missingRequire (lit "variables"))
  let l ← loadSpec (addSpecTags { pos := [strsPos fun v l => { l with names := v }, keyPos] })
    args ntests false {}
  let m ← setKey C s l.matcher l.key
  pure (.stringTest m l.names)

/-- `loadAllOfTest` and `loadAnyOfTest`: one or more tests. -/
def loadListTest (mk : List Test → Test) (tests : Except Bytes (List Test)) : Except Bytes Test := do
  let _ ← loadSpec { addTest := true, multipleTests := true } args ntests false {}
  pure (mk (← tests))

/-- `loadNotTest`: exactly one test. -/
def loadNotTest (tests : Except Bytes (List Test)) : Except Bytes Test := do
  let _ ← loadSpec { addTest := true } args ntests false {}
  match ← tests with
  | [t] => pure (.notTest t)
  | _ => throw (lit "only one test is allowed")

end Tests

mutual

/-- `LoadTest(s, t)`: the loader of the test's name. -/
def loadTest (C : CaseTables) (s : ScriptConfig) : PTest → Except Bytes Test
  | .mk id args tests =>
    let sub := loadTests C s tests
    let n := tests.length
    if id = lit "address" then loadAddressTest C s args n
    else if id = lit "allof" then loadListTest args n .allOfTest sub
    else if id = lit "anyof" then loadListTest args n .anyOfTest sub
    else if id = lit "envelope" then loadEnvelopeTest C s args n
    else if id = lit "exists" then loadExistsTest args n
    else if id = lit "false" then loadConstTest args n .falseTest
    else if id = lit "true" then loadConstTest args n .trueTest
    else if id = lit "header" then loadHeaderTest C s args n
    else if id = lit "not" then loadNotTest args n sub
    else if id = lit "size" then loadSizeTest args n
    else if id = lit "date" then loadDateTest C s args n
    else if id = lit "currentdate" then loadCurrentDateTest C s args n
    else if id = lit "mailboxexists" then loadMailboxExistsTest s args
    else if id = lit "string" then loadStringTest C s args n
    else .error (lit "unknown test: " ++ id)

/-- The tests of a command or test, in order. -/
def loadTests (C : CaseTables) (s : ScriptConfig) : List PTest → Except Bytes (List Test)
  | [] => .ok []
  | t :: ts =>
    match loadTest C s t, loadTests C s ts with
    | .ok t', .ok ts' => .ok (t' :: ts')
    | .error e, _ => .error e
    | .ok _, .error e => .error e

end

/-! ## Commands -/

section Commands

variable (C : CaseTables) (s : ScriptConfig) (args : List Arg) (ntests : Nat) (hasBlock : Bool)

/-- `loadAddHeader` -/
def loadAddHeader : Except Bytes Cmd := do
  if !s.requiresExtension (lit "editheader") then throw (missingRequire (lit "editheader"))
  let l ← loadSpec
    { tags := [(lit "last", boolTag fun l => { l with last := true })]
      pos := [strPos fun v l => { l with fieldName := v }, strPos fun v l => { l with value := v }] }
    args ntests hasBlock {}
  pure (.addHeader l.fieldName l.value l.last)

/-- `loadDeleteHeader`: the keys are set only when there are value patterns. -/
def loadDeleteHeader : Except Bytes Cmd := do
  if !s.requiresExtension (lit "editheader") then throw (missingRequire (lit "editheader"))
  let l ← loadSpec (addSpecTags
    { tags := [(lit "index", numTag fun n l => { l with index := n }),
        (lit "last", boolTag fun l => { l with last := true })]
      pos := [strPos fun v l => { l with fieldName := v },
        { optional := true, minStrCount := 1
          matchStr := some fun v l => { l with valuePatterns := v } }] })
    args ntests hasBlock {}
  if l.last && l.index = 0 then throw (lit ":last can only be specified with :index")
  let m ← if l.valuePatterns ≠ [] then
      match setKey C s l.matcher l.valuePatterns with
      | .error e => throw (lit "deleteheader: " ++ e)
      | .ok m => pure m
    else pure l.matcher
  pure (.deleteHeader m l.fieldName l.valuePatterns l.index l.last)

/-- `loadVacation`: `:days` is 7 unless given. -/
def loadVacation : Except Bytes Cmd := do
  if !s.requiresExtension (lit "vacation") then throw (missingRequire (lit "vacation"))
  let l ← loadSpec
    { tags := [(lit "days", numTag fun n l => { l with days := n }),
        (lit "subject", strTag fun v l => { l with subject := v }),
        (lit "from", strTag fun v l => { l with «from» := v }),
        (lit "addresses", strsTag fun v l => { l with addresses := v }),
        (lit "mime", boolTag fun l => { l with mime := true }),
        (lit "handle", strTag fun v l => { l with handle := v })]
      pos := [strPos fun v l => { l with value := v }] }
    args ntests hasBlock {}
  pure (.vacation l.days l.subject l.«from» l.addresses l.mime l.handle l.value)

/-- The `:flags` tag of `keep` and `fileinto`. -/
def flagsTag : Bytes × SpecTag :=
  (lit "flags", strsTag fun v l => { l with flagged := true, names := v })

/-- Modelled from the spec: `keep [:flags]`; `:flags` needs `imap4flags`. -/
def loadKeep : Except Bytes Cmd := do
  let l ← loadSpec { tags := [flagsTag] } args ntests hasBlock {}
  if l.flagged && !s.requiresExtension (lit "imap4flags") then
    throw (missingRequire (lit "imap4flags"))
  pure (.keep (if l.flagged then some l.names else none))

/-- Modelled from the spec: `discard` and `stop`, which take no arguments. -/
def loadPlain (c : Cmd) : Except Bytes Cmd := do
  let _ ← loadSpec {} args ntests hasBlock {}
  pure c

/-- Modelled from the spec: `fileinto [:copy] [:create] [:flags] <mailbox>`. -/
def loadFileinto : Except Bytes Cmd := do
  if !s.requiresExtension (lit "fileinto") then throw (missingRequire (lit "fileinto"))
  let l ← loadSpec
    { tags := [(lit "copy", boolTag fun l => { l with copy := true }),
        (lit "create", boolTag fun l => { l with create := true }), flagsTag]
      pos := [strPos fun v l => { l with fieldName := v }] }
    args ntests hasBlock {}
  if l.copy && !s.requiresExtension (lit "copy") then throw (missingRequire (lit "copy"))
  if l.create && !s.requiresExtension (lit "mailbox") then throw (missingRequire (lit "mailbox"))
  if l.flagged && !s.requiresExtension (lit "imap4flags") then
    throw (missingRequire (lit "imap4flags"))
  pure (.fileinto l.fieldName l.copy l.create (if l.flagged then some l.names else none))

/-- Modelled from the spec: `redirect [:copy] <address>`. -/
def loadRedirect : Except Bytes Cmd := do
  let l ← loadSpec
    { tags := [(lit "copy", boolTag fun l => { l with copy := true })]
      pos := [strPos fun v l => { l with fieldName := v }] }
    args ntests hasBlock {}
  if l.copy && !s.requiresExtension (lit "copy") then throw (missingRequire (lit "copy"))
  pure (.redirect l.fieldName l.copy)

/-- The modifiers of `set`. -/
def setModifiers : List Bytes :=
  ["lower", "upper", "lowerfirst", "upperfirst", "quotewildcard", "length"].map lit

/-- A variable name `[A-Za-z_][A-Za-z_0-9]*`. -/
def isIdentifier (name : Bytes) : Bool :=
  match name with
  | [] => false
  | c :: _ => !isAsciiDigit c && name.all isNameByte

/-- Modelled from the spec: `set [modifiers] <name> <value>`, the name an identifier within
`MaxVariableNameLen`. -/
def loadSet : Except Bytes Cmd := do
  if !s.requiresExtension (lit "variables") then throw (missingRequire (lit "variables"))
  let l ← loadSpec
    { tags := setModifiers.map fun m => (m, boolTag fun l => { l with modifiers := l.modifiers ++ [m] })
      pos := [strPos fun v l => { l with fieldName := v }, strPos fun v l => { l with value := v }] }
    args ntests hasBlock {}
  if !isIdentifier l.fieldName || s.opts.maxVariableNameLen < l.fieldName.length then
    throw (lit "invalid variable name: " ++ l.fieldName)
  pure (.set l.modifiers l.fieldName l.value)

/-- Modelled from the spec: `setflag`, `addflag` and `removeflag <flags>`. -/
def loadFlag (action : FlagAction) : Except Bytes Cmd := do
  if !s.requiresExtension (lit "imap4flags") then throw (missingRequire (lit "imap4flags"))
  let l ← loadSpec { pos := [strsPos fun v l => { l with names := v }] } args ntests hasBlock {}
  pure (.flag action l.names)

/-- Modelled from the spec: the test and the block of `if` and `elsif`. -/
def loadIfParts (tests : Except Bytes (List Test)) (block : Except Bytes (List Cmd)) :
    Except Bytes (Test × List Cmd) := do
  let _ ← loadSpec { addTest := true, addBlock := true } args ntests hasBlock {}
  match ← tests with
  | [t] => pure (t, ← block)
  | _ => throw (lit "only one test is allowed")

/-- Modelled from the spec: the block of `else`. -/
def loadElse (block : Except Bytes (List Cmd)) : Except Bytes (List Cmd) := do
  let _ ← loadSpec { addBlock := true } args ntests hasBlock {}
  block

/-- Modelled from the spec: the loader of a command outside the `if` chains. `require` is
only allowed before every other command. -/
def loadCmd (id : Bytes) : Except Bytes Cmd :=
  if id = lit "keep" then loadKeep s args ntests hasBlock
  else if id = lit "discard" then loadPlain args ntests hasBlock .discard
  else if id = lit "stop" then loadPlain args ntests hasBlock .stop
  else if id = lit "fileinto" then loadFileinto s args ntests hasBlock
  else if id = lit "redirect" then loadRedirect s args ntests hasBlock
  else if id = lit "addheader" then loadAddHeader s args ntests hasBlock
  else if id = lit "deleteheader" then loadDeleteHeader C s args ntests hasBlock
  else if id = lit "vacation" then loadVacation s args ntests hasBlock
  else if id = lit "set" then loadSet s args ntests hasBlock
  else if id = lit "setflag" then loadFlag s args ntests hasBlock .setflag
  else if id = lit "addflag" then loadFlag s args ntests hasBlock .addflag
  else if id = lit "removeflag" then loadFlag s args ntests hasBlock .removeflag
  else if id = lit "require" then .error (lit "require must come before any other command")
  else .error (lit "unknown command: " ++ id)

end Commands

/-- The commands loaded so far, with the `if` chain still open to `elsif` and `else` closed
by an empty `else`. -/
def closeIf (acc : List Cmd) : Option (List Cmd → Cmd) → List Cmd
  | none => acc
  | some f => acc ++ [f []]

/-- The parts of a parsed command. -/
def PCmd.id : PCmd → Bytes | .mk id _ _ _ => id

def PCmd.args : PCmd → List Arg | .mk _ args _ _ => args

def PCmd.tests : PCmd → List PTest | .mk _ _ tests _ => tests

def PCmd.block : PCmd → List PCmd | .mk _ _ _ block => block

/-- Modelled from the spec: one command of a block, given its loaded tests and block, on the
commands loaded so far and the open `if` chain (given its `else` block, the command it
becomes): `if` opens a chain, `elsif` extends it, `else` closes it, and any other command
closes it before it. -/
def loadBlockStep (C : CaseTables) (s : ScriptConfig) (acc : List Cmd)
    (openIf : Option (List Cmd → Cmd)) (p : PCmd) (tests : Except Bytes (List Test))
    (block : Except Bytes (List Cmd)) : Except Bytes (List Cmd × Option (List Cmd → Cmd)) :=
  let n := p.tests.length
  let hasBlock := !p.block.isEmpty
  if p.id = lit "if" then
    match loadIfParts p.args n hasBlock tests block with
    | .error e => .error e
    | .ok (t, b) => .ok (closeIf acc openIf, some (.ifCmd t b))
  else if p.id = lit "elsif" then
    match openIf, loadIfParts p.args n hasBlock tests block with
    | none, _ => .error (lit "elsif without if")
    | some _, .error e => .error e
    | some f, .ok (t, b) => .ok (acc, some fun e => f [.ifCmd t b e])
  else if p.id = lit "else" then
    match openIf, loadElse p.args n hasBlock block with
    | none, _ => .error (lit "else without if")
    | some _, .error e => .error e
    | some f, .ok b => .ok (acc ++ [f b], none)
  else
    match loadCmd C s p.args n hasBlock p.id with
    | .error e => .error e
    | .ok c => .ok (closeIf acc openIf ++ [c], none)

mutual

/-- Modelled from the spec: the block of a command, loaded as a block of its own. -/
def loadCmdBlock (C : CaseTables) (s : ScriptConfig) : PCmd → Except Bytes (List Cmd)
  | .mk _ _ _ block => loadBlock C s [] none block

/-- Modelled from the spec: the commands of a block in order, from the commands loaded so far
and the open `if` chain. -/
def loadBlock (C : CaseTables) (s : ScriptConfig) (acc : List Cmd)
    (openIf : Option (List Cmd → Cmd)) : List PCmd → Except Bytes (List Cmd)
  | [] => .ok (closeIf acc openIf)
  | p :: rest =>
    match loadBlockStep C s acc openIf p (loadTests C s p.tests) (loadCmdBlock C s p) with
    | .error e => .error e
    | .ok (acc', openIf') => loadBlock C s acc' openIf' rest

end

/-- A loaded script: its commands, and the extensions it requires with the options. -/
structure Script where
  cmds : List Cmd
  config : ScriptConfig

/-- A `require` command. -/
def PCmd.isRequire : PCmd → Bool
  | .mk id _ _ _ => id = lit "require"

/-- Modelled from the spec: the `require`s at the head of the script, each naming one or more
extensions, every one of them host-enabled; the required set is their union. -/
def loadRequires (enabled : List Bytes) : List Bytes → List PCmd → Except Bytes (List Bytes)
  | exts, [] => .ok exts
  | exts, .mk _ args tests block :: rest =>
    match loadSpec { pos := [strsPos fun v l => { l with names := v }] } args tests.length
      (!block.isEmpty) {} with
    | .error e => .error e
    | .ok l =>
      match l.names.find? (· ∉ enabled) with
      | some name => .error (lit "unsupported extension: " ++ name)
      | none => loadRequires enabled (exts ++ l.names.filter (· ∉ exts)) rest

/-- Modelled from the spec: `LoadScript(cmds, opts, enabledExtensions)`. -/
def loadScript (C : CaseTables) (cmds : List PCmd) (opts : Options) (enabled : List Bytes) :
    Except Bytes Script :=
  match loadRequires enabled [] (cmds.takeWhile PCmd.isRequire) with
  | .error e => .error e
  | .ok exts =>
    let s : ScriptConfig := ⟨exts, opts⟩
    match loadBlock C s [] none (cmds.dropWhile PCmd.isRequire) with
    | .error e => .error e
    | .ok cs => .ok ⟨cs, s⟩

end GoSieve
