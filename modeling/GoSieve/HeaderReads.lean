import GoSieve.Commands

/-!
# Header reads: host errors and header names

The `address`, `header`, `exists` and `date` tests and `deleteheader` with value patterns read
headers through `d.Msg.HeaderGet`. The tests hand a host error back as their own, and an `if`
ends the run with it; `deleteheader` returns `nil` instead and the run goes on, the field
treated as if it had no values.

Header names are compared by the host and by `EqualFold` in the journal replay, so a name's
case does not matter once it is expanded. `AddressTest` lower-cases a name before it expands
its variables and only then looks it up in the lower-case allow-list, so `"${h}"` with `h`
set to `To` is skipped where `"to"` is tested; `HeaderTest` and `EnvelopeTest` expand first.
-/

namespace GoSieve

theorem RuntimeData.headerGet_of_msg_error {C : CaseTables} {d : RuntimeData} {k e : Bytes}
    (h : d.msg.headerGet k = .error e) : d.headerGet C k = .error e := by
  simp [RuntimeData.headerGet, h]

/-! ## The tests surface a host error -/

section HostError

variable (L : Lib) (d : RuntimeData) (e : Bytes)

theorem headerTestCheck_of_error (m : MatcherTest) (hdr : Bytes) (rest : List Bytes)
    (h : d.msg.headerGet (expandVars d hdr) = .error e) :
    headerTestCheck L m (hdr :: rest) d = .ok (false, some e, d) := by
  simp [headerTestCheck, headersLoop, headerStep, RuntimeData.headerGet_of_msg_error h,
    Flow.andThen, finishCount]

/-- In an `if`, a test's error ends the run with that error. -/
theorem executeBlock_ifCmd_of_check_error (t : Test) (thenBlock elseBlock : List Cmd)
    (h : t.check L d = .ok (false, some e, d)) :
    executeBlock L [.ifCmd t thenBlock elseBlock] d = .ok (some (.failure e), d) := by
  simp [executeBlock, Cmd.execute, h]

/-- `deleteheader` with value patterns on a field the host fails to read changes nothing and
returns no error. -/
theorem deleteHeaderExecute_of_error (m : MatcherTest) (fieldName : Bytes)
    (valuePatterns : List Bytes) (index : Nat) (last : Bool)
    (hvalid : isValidHeaderName (expandVars d fieldName) = true)
    (hprot : isProtectedHeader L.case (expandVars d fieldName) = false)
    (hpats : expandVarsList d valuePatterns ≠ [])
    (h : d.msg.headerGet (expandVars d fieldName) = .error e) :
    deleteHeaderExecute L m fieldName valuePatterns index last d = .ok d := by
  simp [deleteHeaderExecute, hvalid, hprot, hpats, RuntimeData.headerGet_of_msg_error h]

end HostError

/-- On a field whose host read fails, a `header` test ends the run with the host's error,
while `deleteheader` with value patterns goes on with the state unchanged. -/
theorem deleteheader_swallows_host_error (L : Lib) (m : MatcherTest) (fieldName : Bytes)
    (valuePatterns : List Bytes) (index : Nat) (last : Bool) (d : RuntimeData) (e : Bytes)
    (hvalid : isValidHeaderName (expandVars d fieldName) = true)
    (hprot : isProtectedHeader L.case (expandVars d fieldName) = false)
    (hpats : expandVarsList d valuePatterns ≠ [])
    (h : d.msg.headerGet (expandVars d fieldName) = .error e) :
    executeBlock L [.ifCmd (.headerTest m [fieldName]) [] []] d = .ok (some (.failure e), d) ∧
      executeBlock L [.deleteHeader m fieldName valuePatterns index last] d = .ok (none, d) := by
  refine ⟨executeBlock_ifCmd_of_check_error L d e _ [] []
    (headerTestCheck_of_error L d e m fieldName [] h), ?_⟩
  simp [executeBlock, Cmd.execute,
    deleteHeaderExecute_of_error L d e m fieldName valuePatterns index last hvalid hprot hpats h,
    Except.map, ExecOut.done]

theorem deleteheader_swallows_host_error_sample :
    let d := newRuntimeData ⟨[lit "editheader"], defaultOptions⟩ dummyPolicy ⟨[], [], []⟩
      ⟨fun _ => .error (lit "host error"), 0⟩
    isValidHeaderName (expandVars d (lit "X-A")) = true ∧
      isProtectedHeader sampleLib.case (expandVars d (lit "X-A")) = false ∧
      expandVarsList d [lit "v"] ≠ [] ∧
      d.msg.headerGet (expandVars d (lit "X-A")) = .error (lit "host error") ∧
      (executeBlock sampleLib [.ifCmd (.headerTest newMatcherTest [lit "X-A"]) [] []] d =
          .ok (some (.failure (lit "host error")), d) ∧
        executeBlock sampleLib [.deleteHeader newMatcherTest (lit "X-A") [lit "v"] 0 false] d =
          .ok (none, d)) := by
  intro d
  have hvalid : isValidHeaderName (expandVars d (lit "X-A")) = true := by decide
  have hprot : isProtectedHeader sampleLib.case (expandVars d (lit "X-A")) = false := by decide
  have hpats : expandVarsList d [lit "v"] ≠ [] := by decide
  have h : d.msg.headerGet (expandVars d (lit "X-A")) = .error (lit "host error") := rfl
  exact ⟨hvalid, hprot, hpats, h, deleteheader_swallows_host_error sampleLib newMatcherTest
    (lit "X-A") [lit "v"] 0 false d (lit "host error") hvalid hprot hpats h⟩

/-! ## Header names produced by variables -/

/-- With `h` set to `To`, `"${h}"` expands to `To`, which differs from `to` only in case:
the `header` test finds the `To` header through either name, but the `address` test skips
`"${h}"`, whose lower-cased text `${h}` expands to `To`, absent from the lower-case
allow-list. -/
theorem address_variable_header_case_bug :
    let d : RuntimeData :=
      { newRuntimeData ⟨[lit "variables"], defaultOptions⟩ dummyPolicy ⟨[], [], []⟩
          (messageStatic [(lit "To", lit "a@b")] 0) with
        «variables» := [(lit "h", lit "To")] }
    let m : MatcherTest := { newMatcherTest with key := [lit "a@b"] }
    expandVars d (lit "$\x7bh\x7d") = lit "To" ∧
      addressTestCheck sampleLib m .all [lit "$\x7bh\x7d"] d = .ok (false, none, d) ∧
      addressTestCheck sampleLib m .all [lit "to"] d = .ok (true, none, d) ∧
      headerTestCheck sampleLib m [lit "$\x7bh\x7d"] d = .ok (true, none, d) :=
  ⟨rfl, rfl, rfl, rfl⟩

end GoSieve
