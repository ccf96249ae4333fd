import GoSieve.Runtime

/-!
# Tests

The typed tests of the interpreter and their `Check`: address, allof, anyof, envelope, exists,
false, true, header, not, size, date, currentdate, mailboxexists, and the `string` test of
RFC 5229, whose code is not under `src/` and is modelled from the spec. The Dovecot self-test
tests (`test_script_compile`, `test_script_run`, `test_error`) read the test harness and the
file system and are left out.

A `Check` returns Go's `(bool, error)` and the runtime data after it, or panics: its type is
`Except String (Bool × Option Bytes × RuntimeData)`. The loops of the Go source, with their
`continue` and `return`, are recursive functions that return a `Flow`: a `return` out of
`Check`, or the next iteration with the loop's variables.
-/

namespace GoSieve

/-- What one iteration of a loop in `Check` leads to: a `return` out of `Check`, or the next
iteration with the loop's variables. -/
inductive Flow (α : Type) where
  | ret (ok : Bool) (err : Option Bytes) (d : RuntimeData)
  | next (acc : α)

/-- The result of a `Check`: Go's `(bool, error)` and the runtime data, or a panic. -/
abbrev CheckOut := Except String (Bool × Option Bytes × RuntimeData)

/-- One iteration, then the rest of the loop unless the iteration returned or panicked. -/
def Flow.andThen {α : Type} (step : Except String (Flow α))
    (rest : α → Except String (Flow α)) : Except String (Flow α) :=
  match step with
  | .error p => .error p
  | .ok (.ret ok err d) => .ok (.ret ok err d)
  | .ok (.next acc) => rest acc

/-- `ok, err := ...; if err != nil { return false, err }; if ok { return true, nil }`, and
on to the next iteration otherwise: the step every matching loop of the tests takes. -/
def Flow.ofCheck (r : CheckOut) (count : Nat) : Except String (Flow (Nat × RuntimeData)) :=
  match r with
  | .error p => .error p
  | .ok (_, some e, d) => .ok (.ret false (some e) d)
  | .ok (true, none, d) => .ok (.ret true none d)
  | .ok (false, none, d) => .ok (.next (count, d))

/-! ## Addresses -/

/-- `stripRFC2822Comments(addr)`: `regexp.MustCompile(`\([^)]*\)`).ReplaceAllString(addr, "")`,
then `strings.TrimSpace`. -/
def stripRFC2822Comments (addr : Bytes) : Bytes := trimSpace (removeParens none addr)
where
  /-- The regex replacement as a scan: `pending` holds the text since an unclosed `(`. A
  match runs from a `(` to the first `)` after it; a `(` with no `)` after it matches
  nothing. -/
  removeParens : Option Bytes → Bytes → Bytes
    | none, [] => []
    | some pending, [] => pending
    | none, c :: t => if c = 40 then removeParens (some [40]) t else c :: removeParens none t
    | some pending, c :: t =>
      if c = 41 then removeParens none t else removeParens (some (pending ++ [c])) t

/-- `allowedAddrHeaders` -/
def allowedAddrHeaders : List Bytes :=
  ["from", "to", "cc", "bcc", "sender", "resent-from", "resent-to", "reply-to",
   "resent-reply-to", "resent-sender", "resent-cc", "resent-bcc", "for-approval",
   "for-handling", "for-comment", "apparently-to", "errors-to", "delivered-to",
   "return-receipt-to", "x-admin", "read-receipt-to", "x-confirm-reading-to",
   "return-receipt-requested", "registered-mail-reply-requested-by", "mail-followup-to",
   "mail-reply-to", "abuse-reports-to", "x-complaints-to", "x-report-abuse-to", "x-beenthere",
   "x-original-from", "x-original-to"].map lit

/-- The `switch part` of `testAddress`: the address-part of an address, none when the address
does not split or, for `:detail`, has no separator. The empty address is compared as it is. -/
def addressPartValue (C : CaseTables) (part : AddressPart) (address : Bytes) : Option Bytes :=
  if address = [] then some []
  else
    match part, split C address with
    | .all, _ => some address
    | _, .error _ => none
    | .localPart, .ok (l, _) => some l
    | .domain, .ok (_, dom) => some dom
    | .user, .ok (l, _) => some (splitSubaddress l).1
    | .detail, .ok (l, _) =>
      if (splitSubaddress l).2 = [] && !contains l subaddressSeparator then none
      else some (splitSubaddress l).2

/-- `testAddress(d, matcher, part, address)` -/
def testAddress (L : Lib) (m : MatcherTest) (part : AddressPart) (d : RuntimeData)
    (address : Bytes) : CheckOut :=
  match addressPartValue L.case part (if address = lit "<>" then [] else address) with
  | none => .ok (false, none, d)
  | some v =>
    match m.tryMatch L d v m.key with
    | .error p => .error p
    | .ok (_, some e, d') => .ok (false, some e, d')
    | .ok (ok, none, d') => .ok (ok, none, d')

/-- `hasBareAngleBrackets` of a comment-stripped value. -/
def hasBareAngleBrackets (cleanValue : Bytes) : Bool :=
  let trimmed := trimSpace cleanValue
  startsWith trimmed (lit "<") && endsWith trimmed (lit ">") && count trimmed 60 == 1 &&
    count trimmed 62 == 1

/-- The loop over the parsed addresses of one value. -/
def addressesLoop (L : Lib) (m : MatcherTest) (part : AddressPart) :
    List Bytes → Nat × RuntimeData → Except String (Flow (Nat × RuntimeData))
  | [], acc => .ok (.next acc)
  | addr :: rest, (count, d) =>
    if m.isCount then addressesLoop L m part rest (count + 1, d)
    else Flow.andThen (Flow.ofCheck (testAddress L m part d addr) count) (addressesLoop L m part rest)

/-- One value of an address header in `AddressTest.Check`. -/
def addressValueStep (L : Lib) (m : MatcherTest) (part : AddressPart) (value : Bytes)
    (count : Nat) (d : RuntimeData) : Except String (Flow (Nat × RuntimeData)) :=
  let cleanValue := stripRFC2822Comments value
  if hasBareAngleBrackets cleanValue then
    if m.isCount then .ok (.next (count, d)) else Flow.ofCheck (testAddress L m part d cleanValue) count
  else
    match L.parseAddressList cleanValue with
    | .error _ => if m.isCount then .ok (.next (count, d)) else Flow.ofCheck (testAddress L m part d cleanValue) count
    | .ok [] => if m.isCount then .ok (.next (count, d)) else Flow.ofCheck (testAddress L m part d []) count
    | .ok addrList => addressesLoop L m part addrList (count, d)

/-- The loop over the values of one address header. -/
def addressValuesLoop (L : Lib) (m : MatcherTest) (part : AddressPart) :
    List Bytes → Nat × RuntimeData → Except String (Flow (Nat × RuntimeData))
  | [], acc => .ok (.next acc)
  | value :: rest, (count, d) =>
    Flow.andThen (addressValueStep L m part value count d) (addressValuesLoop L m part rest)

/-- One header name of `AddressTest.Check`: lower-cased, then expanded, then looked up in
the allow-list. -/
def addressHeaderStep (L : Lib) (m : MatcherTest) (part : AddressPart) (hdr : Bytes)
    (count : Nat) (d : RuntimeData) : Except String (Flow (Nat × RuntimeData)) :=
  let hdr := expandVars d (toLower L.case hdr)
  if !allowedAddrHeaders.contains hdr then .ok (.next (count, d))
  else
    match d.headerGet L.case hdr with
    | .error e => .ok (.ret false (some e) d)
    | .ok [] => if m.isCount then .ok (.next (count, d)) else Flow.ofCheck (testAddress L m part d []) count
    | .ok values => addressValuesLoop L m part values (count, d)

/-- The loop over the header names of `AddressTest.Check`. -/
def addressHeadersLoop (L : Lib) (m : MatcherTest) (part : AddressPart) :
    List Bytes → Nat × RuntimeData → Except String (Flow (Nat × RuntimeData))
  | [], acc => .ok (.next acc)
  | hdr :: rest, (count, d) =>
    Flow.andThen (addressHeaderStep L m part hdr count d) (addressHeadersLoop L m part rest)

/-- The end of a counting `Check`: `return t.countMatches(d, entryCount), nil` on `:count`,
`return false, nil` otherwise. -/
def finishCount (m : MatcherTest) : Except String (Flow (Nat × RuntimeData)) → CheckOut
  | .error p => .error p
  | .ok (.ret ok err d) => .ok (ok, err, d)
  | .ok (.next (count, d)) => .ok (if m.isCount then m.countMatches d count else false, none, d)

/-- `AddressTest.Check` -/
def addressTestCheck (L : Lib) (m : MatcherTest) (part : AddressPart) (header : List Bytes)
    (d : RuntimeData) : CheckOut :=
  finishCount m (addressHeadersLoop L m part header (0, d))

/-! ## Envelope -/

/-- `parseEnvelopeAddress(addr)`: checks the RFC 5321 syntax of an envelope address and
returns it without its angle brackets and source route. -/
def parseEnvelopeAddress (addr : Bytes) : Except Bytes Bytes :=
  if addr = [] || addr = lit "<>" then .ok []
  else if !startsWith addr (lit "<") || !endsWith addr (lit ">") then
    if !contains addr (lit "@") && addr ≠ lit "MAILER-DAEMON" then
      .error (lit "invalid envelope address syntax: " ++ addr)
    else if endsWith addr (lit "@") && addr ≠ lit "MAILER-DAEMON@" then
      .error (lit "invalid envelope address syntax: missing domain")
    else if startsWith addr (lit "@") then
      .error (lit "invalid envelope address syntax: missing local part")
    else .ok addr
  else
    let inner := (addr.drop 1).take (addr.length - 2)
    if contains inner (lit ":") then
      match splitN2 inner (lit ":") with
      | [sourceRoute, actualAddr] =>
        if !startsWith sourceRoute (lit "@") then
          .error (lit "invalid source route: must start with @")
        else if count sourceRoute 44 + 1 < count sourceRoute 64 then
          .error (lit "invalid source route: malformed host list")
        else
          match checkHosts (splitByte sourceRoute 44) with
          | some e => .error e
          | none => .ok actualAddr
      | _ => .error (lit "invalid source route syntax")
    else if inner = lit "MAILER-DAEMON" then .ok inner
    else if count inner 64 ≠ 1 then
      if count inner 64 = 0 then .error (lit "invalid envelope address: missing @")
      else .error (lit "invalid envelope address: multiple @")
    else
      match splitN2 inner (lit "@") with
      | [l, dom] =>
        if l = [] || dom = [] then
          .error (lit "invalid envelope address: empty local part or domain")
        else .ok inner
      | _ => .error (lit "invalid envelope address: empty local part or domain")
where
  /-- The loop over the hosts of a source route: the first host's error. -/
  checkHosts : List Bytes → Option Bytes
    | [] => none
    | host :: hosts =>
      let host := trimSpace host
      let hostName := host.drop 1
      if !startsWith host (lit "@") || host.length < 2 then
        some (lit "invalid source route host: " ++ host)
      else if count host 64 ≠ 1 then some (lit "invalid source route host format: " ++ host)
      else if hostName = [] || contains hostName (lit "..") || startsWith hostName (lit ".") ||
          endsWith hostName (lit ".") then
        some (lit "invalid hostname in source route: " ++ hostName)
      else checkHosts hosts

/-- One envelope-part of `EnvelopeTest.Check`. An invalid `from` or `to` address is skipped. -/
def envelopeFieldStep (L : Lib) (m : MatcherTest) (part : AddressPart) (field : Bytes)
    (count : Nat) (d : RuntimeData) : Except String (Flow (Nat × RuntimeData)) :=
  let fieldName := toLower L.case (expandVars d field)
  let value : Option Bytes :=
    if fieldName = lit "from" then some d.envelope.envelopeFrom
    else if fieldName = lit "to" then some d.envelope.envelopeTo
    else if fieldName = lit "auth" then some d.envelope.authUsername
    else none
  match value with
  | none => .ok (.ret false (some (lit "envelope: unsupported envelope-part: " ++ field)) d)
  | some value =>
    if value ≠ [] && (fieldName = lit "from" || fieldName = lit "to") &&
        (parseEnvelopeAddress value matches .error _) then .ok (.next (count, d))
    else if m.isCount then .ok (.next (if value ≠ [] then count + 1 else count, d))
    else Flow.ofCheck (testAddress L m part d value) count

/-- The loop over the envelope-parts of `EnvelopeTest.Check`. -/
def envelopeFieldsLoop (L : Lib) (m : MatcherTest) (part : AddressPart) :
    List Bytes → Nat × RuntimeData → Except String (Flow (Nat × RuntimeData))
  | [], acc => .ok (.next acc)
  | field :: rest, (count, d) =>
    Flow.andThen (envelopeFieldStep L m part field count d) (envelopeFieldsLoop L m part rest)

/-- `EnvelopeTest.Check` -/
def envelopeTestCheck (L : Lib) (m : MatcherTest) (part : AddressPart) (field : List Bytes)
    (d : RuntimeData) : CheckOut :=
  finishCount m (envelopeFieldsLoop L m part field (0, d))

/-! ## Headers -/

/-- The loop over the values of one header in `HeaderTest.Check`. -/
def headerValuesLoop (L : Lib) (m : MatcherTest) :
    List Bytes → Nat × RuntimeData → Except String (Flow (Nat × RuntimeData))
  | [], acc => .ok (.next acc)
  | value :: rest, (count, d) =>
    if m.isCount then headerValuesLoop L m rest (count + 1, d)
    else Flow.andThen (Flow.ofCheck (m.tryMatch L d value m.key) count) (headerValuesLoop L m rest)

/-- One header name of `HeaderTest.Check`. -/
def headerStep (L : Lib) (m : MatcherTest) (hdr : Bytes) (count : Nat) (d : RuntimeData) :
    Except String (Flow (Nat × RuntimeData)) :=
  match d.headerGet L.case (expandVars d hdr) with
  | .error e => .ok (.ret false (some e) d)
  | .ok values => headerValuesLoop L m values (count, d)

/-- The loop over the header names of `HeaderTest.Check`. -/
def headersLoop (L : Lib) (m : MatcherTest) :
    List Bytes → Nat × RuntimeData → Except String (Flow (Nat × RuntimeData))
  | [], acc => .ok (.next acc)
  | hdr :: rest, (count, d) => Flow.andThen (headerStep L m hdr count d) (headersLoop L m rest)

/-- `HeaderTest.Check` -/
def headerTestCheck (L : Lib) (m : MatcherTest) (header : List Bytes) (d : RuntimeData) :
    CheckOut :=
  finishCount m (headersLoop L m header (0, d))

/-- `ExistsTest.Check`: every listed header has a value. -/
def existsTestCheck (L : Lib) (d : RuntimeData) : List Bytes → CheckOut
  | [] => .ok (true, none, d)
  | field :: fields =>
    match d.headerGet L.case (expandVars d field) with
    | .error e => .ok (false, some e, d)
    | .ok [] => .ok (false, none, d)
    | .ok (_ :: _) => existsTestCheck L d fields

/-! ## Dates -/

/-- The layouts `parseDateHeader` tries after `mail.ParseDate`, in order: `time.RFC1123Z`,
`RFC1123`, `RFC822Z`, `RFC822`, `RFC3339`, `RFC3339Nano`, then eight more. -/
def dateLayouts : List Bytes :=
  ["Mon, 02 Jan 2006 15:04:05 -0700", "Mon, 02 Jan 2006 15:04:05 MST", "02 Jan 06 15:04 -0700",
   "02 Jan 06 15:04 MST", "2006-01-02T15:04:05Z07:00", "2006-01-02T15:04:05.999999999Z07:00",
   "Mon, 2 Jan 2006 15:04:05 -0700", "Mon, 2 Jan 2006 15:04:05 MST",
   "2 Jan 2006 15:04:05 -0700", "2 Jan 2006 15:04:05 MST", "Mon, 02 Jan 2006 15:04:05 -0700",
   "Mon, 02 Jan 2006 15:04:05 MST", "02 Jan 2006 15:04:05 -0700",
   "02 Jan 2006 15:04:05 MST"].map lit

/-- `parseDateHeader(value)` -/
def parseDateHeader (L : Lib) (value : Bytes) : Except Bytes Time :=
  let value := trimSpace value
  if value = [] then .error (lit "empty date value")
  else
    match L.mailParseDate value with
    | some t => .ok t
    | none =>
      match dateLayouts.findSome? fun layout => L.timeParse layout value with
      | some t => .ok t
      | none => .error (lit "unable to parse date: " ++ value)

/-- `DateTest.applyZone(t)`: the original zone, the `:zone` offset, or the local zone. -/
def applyZone (L : Lib) (originalZone : Bool) (zone : Bytes) (t : Time) : Time :=
  if originalZone then t
  else
    match (if zone ≠ [] then parseZoneOffset zone else .error []) with
    | .ok offset => t.inZone offset
    | .error _ => t.inZone (L.localOffset t.unix)

/-- The value a date test or `deleteheader` reads: the first, or the `:index`-th (from the end
with `:last`); none when the index is past the end. -/
def selectIndexed (values : List Bytes) (index : Nat) (last : Bool) : Option Bytes :=
  if 0 < index then
    if index ≤ values.length then values[if last then values.length - index else index - 1]?
    else none
  else values.head?

/-- `DateTest.Check` -/
def dateTestCheck (L : Lib) (m : MatcherTest) (header datePart zone : Bytes)
    (originalZone : Bool) (index : Nat) (last : Bool) (d : RuntimeData) : CheckOut :=
  match d.headerGet L.case (expandVars d header) with
  | .error e => .ok (false, some e, d)
  | .ok values =>
    if m.isCount then
      .ok (m.countMatches d (values.countP fun v => (parseDateHeader L v matches .ok _)), none, d)
    else
      match selectIndexed values index last with
      | none => .ok (false, none, d)
      | some value =>
        match parseDateHeader L value with
        | .error _ => .ok (false, none, d)
        | .ok t =>
          match extractDatePart (applyZone L originalZone zone t) (toLower L.case (expandVars d datePart)) with
          | .error e => .ok (false, some e, d)
          | .ok partValue => m.tryMatch L d partValue m.key

/-- `CurrentDateTest.Check`: the current time, in the `:zone` offset when it parses. -/
def currentDateTestCheck (L : Lib) (m : MatcherTest) (datePart zone : Bytes) (d : RuntimeData) :
    CheckOut :=
  let t := match (if zone ≠ [] then parseZoneOffset zone else .error []) with
    | .ok offset => L.now.inZone offset
    | .error _ => L.now
  match extractDatePart t (toLower L.case (expandVars d datePart)) with
  | .error e => .ok (false, some e, d)
  | .ok partValue => m.tryMatch L d partValue m.key

/-! ## The other tests -/

/-- `MailboxExistsTest.Check`: every mailbox exists, optimistically when the policy has no
`MailboxChecker`. -/
def mailboxExistsTestCheck (d : RuntimeData) : List Bytes → CheckOut
  | [] => .ok (true, none, d)
  | mailbox :: rest =>
    match d.policy.mailboxExists with
    | none => mailboxExistsTestCheck d rest
    | some checker =>
      match checker (expandVars d mailbox) with
      | .error e => .ok (false, some e, d)
      | .ok false => .ok (false, none, d)
      | .ok true => mailboxExistsTestCheck d rest

/-- `SizeTest.Check`: `:over` and `:under` are strict. -/
def sizeTestCheck (size : Nat) (over under : Bool) (d : RuntimeData) : CheckOut :=
  .ok ((over && (size : Int) < d.msg.messageSize) || (under && d.msg.messageSize < size), none, d)

/-- The loop over the sources of the `string` test. -/
def stringSourcesLoop (L : Lib) (m : MatcherTest) :
    List Bytes → Nat × RuntimeData → Except String (Flow (Nat × RuntimeData))
  | [], acc => .ok (.next acc)
  | src :: rest, (count, d) =>
    let value := expandVars d src
    if m.isCount then stringSourcesLoop L m rest (if value ≠ [] then count + 1 else count, d)
    else Flow.andThen (Flow.ofCheck (m.tryMatch L d value m.key) count) (stringSourcesLoop L m rest)

/-- Modelled from the spec: the `string` test of RFC 5229 matches each expanded source
against the keys; with `:count` it counts the sources that are not empty. -/
def stringTestCheck (L : Lib) (m : MatcherTest) (source : List Bytes) (d : RuntimeData) :
    CheckOut :=
  finishCount m (stringSourcesLoop L m source (0, d))

/-! ## The test language -/

/-- A loaded test. -/
inductive Test where
  | addressTest (m : MatcherTest) (addressPart : AddressPart) (addressPartCnt : Nat)
      (header : List Bytes)
  | allOfTest (tests : List Test)
  | anyOfTest (tests : List Test)
  | envelopeTest (m : MatcherTest) (addressPart : AddressPart) (field : List Bytes)
  | existsTest (fields : List Bytes)
  | falseTest
  | headerTest (m : MatcherTest) (header : List Bytes)
  | notTest (test : Test)
  | sizeTest (size : Nat) (over under : Bool)
  | trueTest
  | dateTest (m : MatcherTest) (header datePart zone : Bytes) (originalZone : Bool)
      (index : Nat) (last : Bool)
  | currentDateTest (m : MatcherTest) (datePart zone : Bytes)
  | mailboxExistsTest (mailboxes : List Bytes)
  | stringTest (m : MatcherTest) (source : List Bytes)

mutual

/-- `t.Check(ctx, d)` -/
def Test.check (L : Lib) : Test → RuntimeData → CheckOut
  | .addressTest m part _ header, d => addressTestCheck L m part header d
  | .allOfTest tests, d => allOfCheck L tests d
  | .anyOfTest tests, d => anyOfCheck L tests d
  | .envelopeTest m part field, d => envelopeTestCheck L m part field d
  | .existsTest fields, d => existsTestCheck L d fields
  | .falseTest, d => .ok (false, none, d)
  | .headerTest m header, d => headerTestCheck L m header d
  | .notTest t, d =>
    match t.check L d with
    | .error p => .error p
    | .ok (_, some e, d') => .ok (false, some e, d')
    | .ok (ok, none, d') => .ok (!ok, none, d')
  | .sizeTest size over under, d => sizeTestCheck size over under d
  | .trueTest, d => .ok (true, none, d)
  | .dateTest m header datePart zone originalZone index last, d =>
    dateTestCheck L m header datePart zone originalZone index last d
  | .currentDateTest m datePart zone, d => currentDateTestCheck L m datePart zone d
  | .mailboxExistsTest mailboxes, d => mailboxExistsTestCheck d mailboxes
  | .stringTest m source, d => stringTestCheck L m source d

/-- `AllOfTest.Check`: the first error or `false` ends it. -/
def allOfCheck (L : Lib) : List Test → RuntimeData → CheckOut
  | [], d => .ok (true, none, d)
  | t :: ts, d =>
    match t.check L d with
    | .error p => .error p
    | .ok (_, some e, d') => .ok (false, some e, d')
    | .ok (false, none, d') => .ok (false, none, d')
    | .ok (true, none, d') => allOfCheck L ts d'

/-- `AnyOfTest.Check`: the first error or `true` ends it. -/
def anyOfCheck (L : Lib) : List Test → RuntimeData → CheckOut
  | [], d => .ok (false, none, d)
  | t :: ts, d =>
    match t.check L d with
    | .error p => .error p
    | .ok (_, some e, d') => .ok (false, some e, d')
    | .ok (true, none, d') => .ok (true, none, d')
    | .ok (false, none, d') => anyOfCheck L ts d'

end

end GoSieve
