import GoSieve.Load
import GoSieve.CheckInvariant

/-!
# Where evaluation panics

`testString` panics on `:count`. Every counting test (`address`, `envelope`, `header`,
`date`, `string`) diverts `:count` to its counting path before it reaches `tryMatch`;
`currentdate` and `deleteheader`'s value-pattern check do not. Results:

* `Test.check_noPanic`, `Script.execute_noPanic`: a test or a script in which neither a
  `currentdate` test nor a `deleteheader` carries a `:count` matcher never panics;
* `count_matcher_reaches_panic`: `currentdate :count` and `deleteheader :count`, which load,
  reach the panic.
-/

namespace GoSieve

/-- The computation ends without a panic. -/
def NoPanic {α : Type} (r : Except String α) : Prop := ∃ a, r = .ok a

theorem noPanic_ok {α : Type} (a : α) : NoPanic (.ok a : Except String α) := ⟨a, rfl⟩

/-! ## The matcher -/

theorem MatcherTest.matchType_ne_count {t : MatcherTest} (h : t.isCount = false) :
    t.matchType ≠ .count := by
  simpa [MatcherTest.isCount] using h

/-- `testString` panics on `:count` only. -/
theorem testString_noPanic (L : Lib) (c : Comparator) (m : Match) (rel : Relational)
    (value key : Bytes) (hm : m ≠ .count) : NoPanic (testString L c m rel value key) := by
  cases c <;> cases m <;> first | exact absurd rfl hm | exact noPanic_ok _

theorem MatcherTest.tryMatch_noPanic (L : Lib) (t : MatcherTest) (keys : List Bytes)
    (d : RuntimeData) (value : Bytes) (ht : t.isCount = false) :
    NoPanic (t.tryMatch L d value keys) := by
  induction keys with
  | nil => exact noPanic_ok _
  | cons k ks ih =>
    obtain ⟨⟨ok, caps, e⟩, hr⟩ := testString_noPanic L t.comparator t.matchType t.relational value
      (expandVars d k) (MatcherTest.matchType_ne_count ht)
    simp only [MatcherTest.tryMatch, hr]
    rcases e with _ | e <;> cases ok
    · exact ih
    all_goals exact ⟨_, rfl⟩

/-! ## Loops -/

theorem Flow.andThen_noPanic {α : Type} {step : Except String (Flow α)}
    {rest : α → Except String (Flow α)} (hs : NoPanic step) (hr : ∀ acc, NoPanic (rest acc)) :
    NoPanic (Flow.andThen step rest) := by
  obtain ⟨a, rfl⟩ := hs
  cases a with
  | ret ok err d => exact noPanic_ok _
  | next acc => exact hr acc

theorem Flow.ofCheck_noPanic {r : CheckOut} (h : NoPanic r) (count : Nat) :
    NoPanic (Flow.ofCheck r count) := by
  obtain ⟨⟨ok, e, d⟩, rfl⟩ := h
  cases e <;> cases ok <;> exact noPanic_ok _

theorem finishCount_noPanic (m : MatcherTest) {r : Except String (Flow (Nat × RuntimeData))}
    (h : NoPanic r) : NoPanic (finishCount m r) := by
  obtain ⟨a, rfl⟩ := h
  cases a <;> exact noPanic_ok _

/-- Not panicking is a `CheckInvariant`. -/
theorem noPanic_invariant : CheckInvariant (fun _ r => NoPanic r) (fun _ r => NoPanic r) where
  check_same _ _ := noPanic_ok _
  check_fail _ _ := noPanic_ok _
  check_false_of _ := noPanic_ok _
  flow_next _ _ := noPanic_ok _
  flow_fail _ _ := noPanic_ok _
  ofCheck count h := Flow.ofCheck_noPanic h count
  andThen hs hr := Flow.andThen_noPanic hs fun _ => hr _ _
  finishCount m h := finishCount_noPanic m h

/-! ## Tests and scripts -/

mutual

/-- No `currentdate` test with a `:count` matcher, at any depth. -/
def Test.countSafe : Test → Bool
  | .currentDateTest m _ _ => !m.isCount
  | .allOfTest ts => testsCountSafe ts
  | .anyOfTest ts => testsCountSafe ts
  | .notTest t => t.countSafe
  | _ => true

def testsCountSafe : List Test → Bool
  | [] => true
  | t :: ts => t.countSafe && testsCountSafe ts

end

mutual

theorem Test.check_noPanic (L : Lib) : ∀ (t : Test) (d : RuntimeData), t.countSafe = true →
    NoPanic (t.check L d)
  | .addressTest m part _ header, d, _ =>
    noPanic_invariant.addressTestCheck_holds L m (m.tryMatch_noPanic L m.key) part header d
  | .allOfTest ts, d, h => allOfCheck_noPanic L ts d h
  | .anyOfTest ts, d, h => anyOfCheck_noPanic L ts d h
  | .envelopeTest m part field, d, _ =>
    noPanic_invariant.envelopeTestCheck_holds L m (m.tryMatch_noPanic L m.key) part field d
  | .existsTest fields, d, _ => noPanic_invariant.existsTestCheck_holds L d fields
  | .falseTest, d, _ => noPanic_ok _
  | .headerTest m header, d, _ =>
    noPanic_invariant.headerTestCheck_holds L m (m.tryMatch_noPanic L m.key) header d
  | .notTest t, d, h => by
    obtain ⟨⟨ok, e, d'⟩, hr⟩ := Test.check_noPanic L t d h
    simp only [Test.check, hr]
    cases e <;> exact ⟨_, rfl⟩
  | .sizeTest size over under, d, _ => noPanic_ok _
  | .trueTest, d, _ => noPanic_ok _
  | .dateTest m header datePart zone originalZone index last, d, _ =>
    noPanic_invariant.dateTestCheck_holds L m (m.tryMatch_noPanic L m.key) header datePart zone
      originalZone index last d
  | .currentDateTest m datePart zone, d, h =>
    noPanic_invariant.currentDateTestCheck_holds L m datePart zone d
      (m.tryMatch_noPanic L m.key d · (by simpa [Test.countSafe] using h))
  | .mailboxExistsTest mailboxes, d, _ => noPanic_invariant.mailboxExistsTestCheck_holds d mailboxes
  | .stringTest m source, d, _ =>
    noPanic_invariant.stringTestCheck_holds L m (m.tryMatch_noPanic L m.key) source d

theorem allOfCheck_noPanic (L : Lib) : ∀ (ts : List Test) (d : RuntimeData),
    testsCountSafe ts = true → NoPanic (allOfCheck L ts d)
  | [], d, _ => noPanic_ok _
  | t :: ts, d, h => by
    simp only [testsCountSafe, Bool.and_eq_true] at h
    obtain ⟨⟨ok, e, d'⟩, hr⟩ := Test.check_noPanic L t d h.1
    simp only [allOfCheck, hr]
    rcases e with _ | e <;> cases ok
    · exact ⟨_, rfl⟩
    · exact allOfCheck_noPanic L ts d' h.2
    all_goals exact ⟨_, rfl⟩

theorem anyOfCheck_noPanic (L : Lib) : ∀ (ts : List Test) (d : RuntimeData),
    testsCountSafe ts = true → NoPanic (anyOfCheck L ts d)
  | [], d, _ => noPanic_ok _
  | t :: ts, d, h => by
    simp only [testsCountSafe, Bool.and_eq_true] at h
    obtain ⟨⟨ok, e, d'⟩, hr⟩ := Test.check_noPanic L t d h.1
    simp only [anyOfCheck, hr]
    rcases e with _ | e <;> cases ok
    · exact anyOfCheck_noPanic L ts d' h.2
    all_goals exact ⟨_, rfl⟩

end

/-! ## Commands -/

theorem valueMatchesPatterns_noPanic (L : Lib) (m : MatcherTest) (value : Bytes)
    (hm : m.isCount = false) :
    ∀ (patterns : List Bytes) (d : RuntimeData), NoPanic (valueMatchesPatterns L m value patterns d)
  | [], d => noPanic_ok _
  | p :: ps, d => by
    obtain ⟨⟨ok, e, d'⟩, hr⟩ := m.tryMatch_noPanic L m.key d (trimSpace value) hm
    rcases e with _ | e <;> cases ok <;> simp only [valueMatchesPatterns, hr]
    · split
      · obtain ⟨⟨ok', caps, e'⟩, hr'⟩ :=
          testString_noPanic L m.comparator .is (.other []) (trimSpace value) p (by decide)
        rw [hr']
        rcases e' with _ | e' <;> cases ok'
        · exact valueMatchesPatterns_noPanic L m value hm ps d'
        all_goals exact ⟨_, rfl⟩
      · exact valueMatchesPatterns_noPanic L m value hm ps d'
    all_goals exact ⟨_, rfl⟩

theorem deleteMatchingLoop_noPanic (L : Lib) (m : MatcherTest) (fieldName : Bytes)
    (patterns : List Bytes) (hm : m.isCount = false) :
    ∀ (values : List Bytes) (d : RuntimeData),
      NoPanic (deleteMatchingLoop L m fieldName patterns values d)
  | [], d => noPanic_ok _
  | v :: vs, d => by
    obtain ⟨⟨ok, e, d'⟩, hr⟩ := valueMatchesPatterns_noPanic L m v hm patterns d
    rcases e with _ | e <;> cases ok <;> simp only [deleteMatchingLoop, hr] <;>
      exact deleteMatchingLoop_noPanic L m fieldName patterns hm vs _

/-- `deleteheader` off `:count` does not panic. -/
theorem deleteHeaderExecute_noPanic (L : Lib) (m : MatcherTest) (fieldName : Bytes)
    (valuePatterns : List Bytes) (index : Nat) (last : Bool) (d : RuntimeData)
    (hm : m.isCount = false) :
    NoPanic (deleteHeaderExecute L m fieldName valuePatterns index last d) := by
  unfold deleteHeaderExecute
  dsimp only
  split
  · exact noPanic_ok _
  · split
    · exact noPanic_ok _
    · split
      · exact noPanic_ok _
      · split
        · exact noPanic_ok _
        · split
          · split
            · exact noPanic_ok _
            · obtain ⟨⟨ok, e, d'⟩, hr⟩ := valueMatchesPatterns_noPanic L m _ hm _ d
              rw [hr]
              rcases e with _ | e <;> cases ok <;> exact ⟨_, rfl⟩
          · exact deleteMatchingLoop_noPanic L m _ _ hm _ d

mutual

/-- No `currentdate` test and no `deleteheader` with a `:count` matcher, at any depth. -/
def Cmd.countSafe : Cmd → Bool
  | .ifCmd t thenBlock elseBlock =>
    t.countSafe && blockCountSafe thenBlock && blockCountSafe elseBlock
  | .deleteHeader m _ _ _ _ => !m.isCount
  | _ => true

def blockCountSafe : List Cmd → Bool
  | [] => true
  | c :: cs => c.countSafe && blockCountSafe cs

end

mutual

theorem Cmd.noPanic_of_countSafe (L : Lib) : ∀ (c : Cmd) (d : RuntimeData), c.countSafe = true →
    NoPanic (c.execute L d)
  | .ifCmd t thenBlock elseBlock, d, h => by
    simp only [Cmd.countSafe, Bool.and_eq_true] at h
    obtain ⟨⟨ok, e, d'⟩, hr⟩ := Test.check_noPanic L t d h.1.1
    simp only [Cmd.execute, hr]
    rcases e with _ | e <;> cases ok
    · exact executeBlock_noPanic L elseBlock d' h.2
    · exact executeBlock_noPanic L thenBlock d' h.1.2
    all_goals exact ⟨_, rfl⟩
  | .deleteHeader m fieldName valuePatterns index last, d, h => by
    obtain ⟨d', hr⟩ := deleteHeaderExecute_noPanic L m fieldName valuePatterns index last d
      (by simpa [Cmd.countSafe] using h)
    exact ⟨_, by simp only [Cmd.execute, hr]; rfl⟩
  | .keep _, _, _ | .discard, _, _ | .fileinto .., _, _ | .stop, _, _ | .addHeader .., _, _
  | .vacation .., _, _ | .set .., _, _ | .flag .., _, _ => ⟨_, rfl⟩
  | .redirect addr copy, d, _ => by
    simp only [Cmd.execute]
    split <;> exact ⟨_, rfl⟩

theorem executeBlock_noPanic (L : Lib) : ∀ (cs : List Cmd) (d : RuntimeData),
    blockCountSafe cs = true → NoPanic (executeBlock L cs d)
  | [], d, _ => noPanic_ok _
  | c :: cs, d, h => by
    simp only [blockCountSafe, Bool.and_eq_true] at h
    obtain ⟨⟨e, d'⟩, hr⟩ := Cmd.noPanic_of_countSafe L c d h.1
    simp only [executeBlock, hr]
    cases e
    · exact executeBlock_noPanic L cs d' h.2
    · exact ⟨_, rfl⟩

end

/-- A script in which neither a `currentdate` test nor a `deleteheader` carries a `:count`
matcher never panics. -/
theorem Script.execute_noPanic (L : Lib) (cmds : List Cmd) (d : RuntimeData)
    (h : blockCountSafe cmds = true) : NoPanic (Script.execute L cmds d) := by
  obtain ⟨⟨e, d'⟩, hr⟩ := executeBlock_noPanic L cmds d h
  simp only [Script.execute, hr]
  rcases e with _ | _ | e <;> exact ⟨_, rfl⟩

/-- `if header :count "eq" "X-A" "1" { keep; }`: a counting `header` test is safe. -/
theorem execute_noPanic_header_count :
    let c := Cmd.ifCmd (.headerTest { newMatcherTest with matchType := .count, key := [lit "1"] }
      [lit "X-A"]) [.keep none] []
    let d := newRuntimeData ⟨[lit "relational"], defaultOptions⟩ dummyPolicy ⟨[], [], []⟩
      (messageStatic [(lit "X-A", lit "v")] 0)
    blockCountSafe [c] = true ∧ NoPanic (Script.execute sampleLib [c] d) := by
  intro c d
  have h : blockCountSafe [c] = true := rfl
  exact ⟨h, Script.execute_noPanic sampleLib [c] d h⟩

/-- `currentdate :count` and `deleteheader :count`, under the requires they need, load, and
their evaluation reaches the panic of `testString`, whatever the library, the policy, the
envelope, and, for `deleteheader`, the value of the header it reads. -/
theorem count_matcher_reaches_panic (L : Lib) (p : Policy) (e : Envelope) (msg : Message)
    (v : Bytes) :
    (∃ s, loadScript L.case
        [.mk (lit "require") [.strings [lit "date", lit "relational"]] [] [],
         .mk (lit "if") []
          [.mk (lit "currentdate")
            [.tag (lit "count"), .string (lit "eq"), .string (lit "date"), .string (lit "1")] []]
          [.mk (lit "keep") [] [] []]]
        defaultOptions [lit "date", lit "relational"] = .ok s ∧
      Script.execute L s.cmds (newRuntimeData s.config p e msg) = .error countPanic) ∧
    (∃ s, loadScript L.case
        [.mk (lit "require") [.strings [lit "editheader", lit "relational"]] [] [],
         .mk (lit "deleteheader")
          [.tag (lit "count"), .string (lit "eq"), .string (lit "X-A"), .string (lit "1")] [] []]
        defaultOptions [lit "editheader", lit "relational"] = .ok s ∧
      Script.execute L s.cmds
        (newRuntimeData s.config p e (messageStatic [(lit "X-A", v)] 0)) = .error countPanic) :=
  ⟨⟨_, rfl, rfl⟩, ⟨_, rfl, rfl⟩⟩

end GoSieve
