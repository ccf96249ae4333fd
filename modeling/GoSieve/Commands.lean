import GoSieve.Tests

/-!
# Commands

The typed commands and their `Execute`. `addheader`, `deleteheader` and `vacation` are
translated from `src/interp`; the control commands, the delivery actions (`keep`, `discard`,
`fileinto`, `redirect`), `set`, the flag commands and `Script.Execute` are not under `src/`
and are modelled from the spec (§4.6, §4.8); `keep` and `fileinto` with `:flags` set `Flags`
as the repository's tests expect (`actionFlags`). The Dovecot self-test commands are left out.

`Execute` returns Go's `error`, the `stop` sentinel among them, with the runtime data after
it, or panics: its type is `Except String (Option ExecError × RuntimeData)`.

`vacation_execute_cases` gives the three outcomes of `vacation`. An empty envelope sender is an
error that ends the script, and the null path written `<>` is answered like any other sender
(`vacation_null_sender_counterexample`).
-/

namespace GoSieve

/-- A Go `error` returned by `Execute`: the `stop` sentinel, or a failure with its text. -/
inductive ExecError where
  | stop
  | failure (e : Bytes)
deriving DecidableEq, Repr

/-- The result of an `Execute`: its `error`, if any, and the runtime data, or a panic. -/
abbrev ExecOut := Except String (Option ExecError × RuntimeData)

/-- `d.HeaderEdits = append(d.HeaderEdits, edit)` -/
def RuntimeData.addEdit (d : RuntimeData) (edit : HeaderEdit) : RuntimeData :=
  { d with headerEdits := d.headerEdits ++ [edit] }

@[simp] theorem RuntimeData.addEdit_headerEdits (d : RuntimeData) (e : HeaderEdit) :
    (d.addEdit e).headerEdits = d.headerEdits ++ [e] := rfl

@[simp] theorem RuntimeData.addEdit_msg (d : RuntimeData) (e : HeaderEdit) :
    (d.addEdit e).msg = d.msg := rfl

/-! ## `editheader` -/

/-- `isValidHeaderName(name)`: one or more bytes 33–126 other than `':'`. -/
def isValidHeaderName (name : Bytes) : Bool :=
  !name.isEmpty && name.all fun c => 33 ≤ c && c ≤ 126 && c ≠ 58

/-- `protectedHeaders` -/
def protectedHeaders : List Bytes := [lit "received", lit "auto-submitted"]

/-- `isProtectedHeader(name)` -/
def isProtectedHeader (C : CaseTables) (name : Bytes) : Bool :=
  protectedHeaders.contains (toLower C name)

/-- `CmdAddHeader.Execute`: an invalid field name is ignored. -/
def addHeaderExecute (fieldName value : Bytes) (last : Bool) (d : RuntimeData) : RuntimeData :=
  let fieldName := expandVars d fieldName
  let value := expandVars d value
  if !isValidHeaderName fieldName then d
  else d.addEdit ⟨.add, fieldName, value, last, 0⟩

/-- `c.valueMatchesPatterns(d, value, patterns)`: the trimmed value against the matcher's keys,
once per pattern, and against the pattern itself by `:is` when the match-type is unset. -/
def valueMatchesPatterns (L : Lib) (m : MatcherTest) (value : Bytes) :
    List Bytes → RuntimeData → CheckOut
  | [], d => .ok (false, none, d)
  | pattern :: rest, d =>
    match m.tryMatch L d (trimSpace value) m.key with
    | .error p => .error p
    | .ok (_, some e, d') => .ok (false, some e, d')
    | .ok (true, none, d') => .ok (true, none, d')
    | .ok (false, none, d') =>
      if m.matchType = .unset then
        match testString L m.comparator .is (.other []) (trimSpace value) pattern with
        | .error p => .error p
        | .ok (_, _, some e) => .ok (false, some e, d')
        | .ok (true, _, none) => .ok (true, none, d')
        | .ok (false, _, none) => valueMatchesPatterns L m value rest d'
      else valueMatchesPatterns L m value rest d'

/-- The loop over all values of `CmdDeleteHeader.Execute` without `:index`: a delete by value
for each one that matches; an error skips the value. -/
def deleteMatchingLoop (L : Lib) (m : MatcherTest) (fieldName : Bytes) (patterns : List Bytes) :
    List Bytes → RuntimeData → Except String RuntimeData
  | [], d => .ok d
  | val :: rest, d =>
    match valueMatchesPatterns L m val patterns d with
    | .error p => .error p
    | .ok (_, some _, d') => deleteMatchingLoop L m fieldName patterns rest d'
    | .ok (false, none, d') => deleteMatchingLoop L m fieldName patterns rest d'
    | .ok (true, none, d') =>
      deleteMatchingLoop L m fieldName patterns rest (d'.addEdit ⟨.delete, fieldName, val, false, 0⟩)

/-- `CmdDeleteHeader.Execute`. An invalid or protected field name is ignored; without value
patterns the delete goes to the journal as it is. With value patterns the values are read
through `d.Msg`, which already replays the journal, and the journal is applied to them once
more; a failed read ends the command without an error. -/
def deleteHeaderExecute (L : Lib) (m : MatcherTest) (fieldName : Bytes)
    (valuePatterns : List Bytes) (index : Nat) (last : Bool) (d : RuntimeData) :
    Except String RuntimeData :=
  let fieldName := expandVars d fieldName
  if !isValidHeaderName fieldName || isProtectedHeader L.case fieldName then .ok d
  else
    let patterns := expandVarsList d valuePatterns
    if patterns = [] then .ok (d.addEdit ⟨.delete, fieldName, [], last, index⟩)
    else
      match d.headerGet L.case fieldName with
      | .error _ => .ok d
      | .ok values =>
        let values := applyHeaderEditsToValues L.case d.headerEdits fieldName values
        if values = [] then .ok d
        else if 0 < index then
          match selectIndexed values index last with
          | none => .ok d
          | some val =>
            match valueMatchesPatterns L m val patterns d with
            | .error p => .error p
            | .ok (true, none, d') => .ok (d'.addEdit ⟨.delete, fieldName, val, last, index⟩)
            | .ok (_, _, d') => .ok d'
        else deleteMatchingLoop L m fieldName patterns values d

/-! ## `vacation` -/

/-- `d.VacationResponses[sender] = resp` -/
def setVacationResponse (m : List (Bytes × VacationResponse)) (sender : Bytes)
    (resp : VacationResponse) : List (Bytes × VacationResponse) :=
  (sender, resp) :: m.filter fun p => p.1 != sender

/-- `CmdVacation.Execute`: no response to an empty sender (an error) or to one of the
`:addresses`; otherwise the response is recorded and the implicit keep cancelled. -/
def vacationExecute (days : Nat) (subject «from» : Bytes) (addresses : List Bytes) (mime : Bool)
    (handle reason : Bytes) (d : RuntimeData) : Option ExecError × RuntimeData :=
  let subject := if expandVars d subject = [] then lit "Automated reply" else expandVars d subject
  let sender := d.envelope.envelopeFrom
  if sender = [] then (some (.failure (lit "vacation: failed to get sender from envelope")), d)
  else if (expandVarsList d addresses).contains sender then (none, d)
  else
    let resp : VacationResponse :=
      ⟨expandVars d «from», subject, expandVars d reason, mime, expandVars d handle, days⟩
    (none, { d with
      vacationResponses := setVacationResponse d.vacationResponses sender resp
      implicitKeep := false })

/-! ## `set` and the flag commands -/

/-- Upper-case ASCII letters, byte by byte. -/
def toUpperASCII (s : Bytes) : Bytes := s.map fun c => if 97 ≤ c && c ≤ 122 then c - 32 else c

/-- Modelled from the spec: one modifier of `set` (RFC 5229 §4.1). -/
def applyModifier (modifier value : Bytes) : Bytes :=
  if modifier = lit "lower" then value.map lowerByte
  else if modifier = lit "upper" then toUpperASCII value
  else if modifier = lit "lowerfirst" then (value.take 1).map lowerByte ++ value.drop 1
  else if modifier = lit "upperfirst" then toUpperASCII (value.take 1) ++ value.drop 1
  else if modifier = lit "quotewildcard" then
    value.flatMap fun c => if c = 42 || c = 63 || c = 92 then [92, c] else [c]
  else if modifier = lit "length" then digitsOf (runes value).length
  else value

/-- The precedence of a modifier; `set` applies the highest first. -/
def modifierPrecedence (modifier : Bytes) : Nat :=
  if modifier = lit "lower" || modifier = lit "upper" then 40
  else if modifier = lit "lowerfirst" || modifier = lit "upperfirst" then 30
  else if modifier = lit "quotewildcard" then 20
  else 10

/-- Modelled from the spec: `set` applies its modifiers in precedence order to the expanded
value and stores it under the lower-cased name, within the variable limits. -/
def setExecute (modifiers : List Bytes) (name value : Bytes) (d : RuntimeData) :
    Option ExecError × RuntimeData :=
  let order := [40, 30, 20, 10]
  let value := order.foldl (fun v p =>
    (modifiers.filter fun m => modifierPrecedence m = p).foldl (fun v m => applyModifier m v) v)
    (expandVars d value)
  let name := name.map lowerByte
  let fresh := (d.«variables».find? fun p => p.1 == name).isNone
  if d.script.opts.maxVariableLen < value.length then
    (some (.failure (lit "variable value too long")), d)
  else if fresh && d.script.opts.maxVariableCount ≤ d.«variables».length then
    (some (.failure (lit "too many variables")), d)
  else (none, { d with «variables» := (name, value) :: d.«variables».filter fun p => p.1 != name })

/-- Modelled from the spec: the canonical form of a flag list, its space-separated flags
expanded, lower-cased and without repeats. -/
def canonicalFlags (d : RuntimeData) (flags : List Bytes) : List Bytes :=
  (((expandVarsList d flags).flatMap fun f => splitByte f 32).filter (· ≠ [])).map
    (List.map lowerByte) |>.dedup

/-- The flag commands of RFC 5232. -/
inductive FlagAction where
  | setflag | addflag | removeflag
deriving DecidableEq, Repr

/-- Modelled from the spec: `setflag`, `addflag` and `removeflag` on `Flags`. -/
def flagExecute (action : FlagAction) (flags : List Bytes) (d : RuntimeData) : RuntimeData :=
  let given := canonicalFlags d flags
  match action with
  | .setflag => { d with flags := given }
  | .addflag => { d with flags := d.flags ++ given.filter fun f => f ∉ d.flags }
  | .removeflag => { d with flags := d.flags.filter fun f => f ∉ given }

/-- Modelled from the spec and the repository's tests: the `Flags` a `keep` or `fileinto`
leaves, the canonical form of its `:flags` list, or the current `Flags` without the tag. -/
def actionFlags (d : RuntimeData) : Option (List Bytes) → List Bytes
  | some flags => canonicalFlags d flags
  | none => d.flags

/-! ## The command language -/

/-- A loaded command. `elsif` is an `if` in the `else` block of the one before it. -/
inductive Cmd where
  | keep (flags : Option (List Bytes))
  | discard
  | fileinto (mailbox : Bytes) (copy create : Bool) (flags : Option (List Bytes))
  | redirect (addr : Bytes) (copy : Bool)
  | stop
  | ifCmd (test : Test) (thenBlock elseBlock : List Cmd)
  | addHeader (fieldName value : Bytes) (last : Bool)
  | deleteHeader (m : MatcherTest) (fieldName : Bytes) (valuePatterns : List Bytes) (index : Nat)
      (last : Bool)
  | vacation (days : Nat) (subject «from» : Bytes) (addresses : List Bytes) (mime : Bool)
      (handle reason : Bytes)
  | set (modifiers : List Bytes) (name value : Bytes)
  | flag (action : FlagAction) (flags : List Bytes)

/-- The result of a command that cannot fail. -/
def ExecOut.done (d : RuntimeData) : ExecOut := .ok (none, d)

mutual

/-- `cmd.Execute(ctx, d)`. The best-effort `CreateMailbox` call of `fileinto :create`
ignores its error and writes nothing of the runtime data, so it is not made here. -/
def Cmd.execute (L : Lib) : Cmd → RuntimeData → ExecOut
  | .keep flags, d => .done { d with keep := true, flags := actionFlags d flags }
  | .discard, d => .done { d with implicitKeep := false }
  | .fileinto mailbox copy _ flags, d =>
    .done { d with
      mailboxes := d.mailboxes ++ [expandVars d mailbox]
      implicitKeep := copy && d.implicitKeep
      flags := actionFlags d flags }
  | .redirect addr copy, d =>
    if d.script.opts.maxRedirects ≤ d.redirectAddr.length then
      .ok (some (.failure (lit "too many redirects")), d)
    else
      .done { d with
        redirectAddr := d.redirectAddr ++ [expandVars d addr]
        implicitKeep := copy && d.implicitKeep }
  | .stop, d => .ok (some .stop, d)
  | .ifCmd test thenBlock elseBlock, d =>
    match test.check L d with
    | .error p => .error p
    | .ok (_, some e, d') => .ok (some (.failure e), d')
    | .ok (true, none, d') => executeBlock L thenBlock d'
    | .ok (false, none, d') => executeBlock L elseBlock d'
  | .addHeader fieldName value last, d => .done (addHeaderExecute fieldName value last d)
  | .deleteHeader m fieldName valuePatterns index last, d =>
    (deleteHeaderExecute L m fieldName valuePatterns index last d).map fun d' => (none, d')
  | .vacation days subject «from» addresses mime handle reason, d =>
    .ok (vacationExecute days subject «from» addresses mime handle reason d)
  | .set modifiers name value, d => .ok (setExecute modifiers name value d)
  | .flag action flags, d => .done (flagExecute action flags d)

/-- The commands of a block in order, up to the first error (or `stop`). -/
def executeBlock (L : Lib) : List Cmd → RuntimeData → ExecOut
  | [], d => .done d
  | cmd :: cmds, d =>
    match cmd.execute L d with
    | .error p => .error p
    | .ok (some e, d') => .ok (some e, d')
    | .ok (none, d') => executeBlock L cmds d'

end

/-- Modelled from the spec: `s.Execute(ctx, d)` runs the script's commands; `stop` ends the
run without an error. -/
def Script.execute (L : Lib) (cmds : List Cmd) (d : RuntimeData) :
    Except String (Option Bytes × RuntimeData) :=
  match executeBlock L cmds d with
  | .error p => .error p
  | .ok (some .stop, d') => .ok (none, d')
  | .ok (some (.failure e), d') => .ok (some e, d')
  | .ok (none, d') => .ok (none, d')

/-! ## What `vacation` does -/

/-- Removing the entries of key `k` leaves the lookup of every other key as it was. -/
theorem lookup_filter_ne {β : Type} (m : List (Bytes × β)) {k s : Bytes} (h : s ≠ k) :
    (m.filter fun p => p.1 != k).lookup s = m.lookup s := by
  induction m with
  | nil => rfl
  | cons p m ih =>
    obtain ⟨k', v⟩ := p
    by_cases hk : k' = k
    · subst hk
      simp [List.lookup_cons, beq_false_of_ne h, ih]
    · simp [List.filter_cons, hk, List.lookup_cons, ih]

/-- `VacationResponses` read back after `d.VacationResponses[sender] = resp`. -/
theorem lookup_setVacationResponse (m : List (Bytes × VacationResponse)) (sender s : Bytes)
    (resp : VacationResponse) :
    (setVacationResponse m sender resp).lookup s = if s = sender then some resp else m.lookup s := by
  by_cases h : s = sender
  · simp [setVacationResponse, List.lookup_cons, h]
  · simp [setVacationResponse, List.lookup_cons, h, beq_false_of_ne h, lookup_filter_ne m h]

/-- `vacation` never panics, and ends in one of three ways. An empty sender is an error, which
ends the script. A sender among the expanded `:addresses` leaves the runtime data as it is. Any
other sender, the null path `<>` included, gets the command's response under its own key,
with the subject defaulting to `Automated reply`, and the implicit keep is cancelled; nothing
else changes. -/
theorem vacation_execute_cases (L : Lib) (days : Nat) (subject «from» : Bytes)
    (addresses : List Bytes) (mime : Bool) (handle reason : Bytes) (d : RuntimeData) :
    let s := d.envelope.envelopeFrom
    let out := (Cmd.vacation days subject «from» addresses mime handle reason).execute L d
    (s = [] ∧ out = .ok (some (.failure (lit "vacation: failed to get sender from envelope")), d)) ∨
    (s ≠ [] ∧ s ∈ expandVarsList d addresses ∧ out = .ok (none, d)) ∨
    (s ≠ [] ∧ s ∉ expandVarsList d addresses ∧ ∃ d', out = .ok (none, d') ∧
      d' = { d with vacationResponses := d'.vacationResponses, implicitKeep := false } ∧
      ∀ s', d'.vacationResponses.lookup s' =
        if s' = s then
          some ⟨expandVars d «from»,
            if expandVars d subject = [] then lit "Automated reply" else expandVars d subject,
            expandVars d reason, mime, expandVars d handle, days⟩
        else d.vacationResponses.lookup s') := by
  dsimp only [Cmd.execute, vacationExecute]
  by_cases hs : d.envelope.envelopeFrom = []
  · exact .inl ⟨hs, by rw [if_pos hs]⟩
  rw [if_neg hs]
  by_cases hl : d.envelope.envelopeFrom ∈ expandVarsList d addresses
  · exact .inr (.inl ⟨hs, hl, by rw [if_pos (List.elem_iff.2 hl)]⟩)
  · rw [if_neg (mt List.elem_iff.1 hl)]
    exact .inr (.inr ⟨hs, hl, _, rfl, rfl, fun s' => lookup_setVacationResponse _ _ s' _⟩)

/-- A message with an empty envelope sender makes `vacation` end the script with an error, so a
later `keep` never runs; a sender given as `<>` gets a response recorded under `<>`. -/
theorem vacation_null_sender_counterexample :
    let d (sender : Bytes) := newRuntimeData ⟨[lit "vacation"], defaultOptions⟩ dummyPolicy
      ⟨sender, [], []⟩ (messageStatic [] 0)
    let c := Cmd.vacation 7 (lit "Away") [] [] false [] (lit "Back soon")
    Script.execute sampleLib [c, .keep none] (d []) =
        .ok (some (lit "vacation: failed to get sender from envelope"), d []) ∧
      ((c.execute sampleLib (d (lit "<>"))).map fun r => r.2.vacationResponses.lookup (lit "<>")) =
        .ok (some ⟨[], lit "Away", lit "Back soon", false, [], 7⟩) :=
  ⟨rfl, rfl⟩

end GoSieve
