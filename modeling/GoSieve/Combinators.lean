import GoSieve.CheckInvariant

/-!
# The combinators: not, allof and anyof

`NotTest.Check` returns `false` with its inner test's error and negates a result without one.
`AllOfTest.Check` and `AnyOfTest.Check` stop at the first error, or at the first `false` (for
`allof`) or `true` (for `anyof`), in the runtime data the tests before it left. So `not` is
involutive and `allof` and `anyof` are De Morgan duals in all that `Check` returns
(`check_boolean_laws`), and an `allof` nested in an `allof`, or an `anyof` in an `anyof`,
can be spliced into the outer one (`nested_allof_anyof_flatten`).

The De Morgan laws need nothing of the tests. Double negation needs every test to report
`false` with an error (`Test.check_falseOnError`): every `return false, err` of a loop goes
through `Flow.ofCheck`, and `tryMatch` reports a comparator error with `false`.
-/

namespace GoSieve

/-- A `Check` result that carries an error carries `false` with it. -/
def FalseOnError (r : CheckOut) : Prop := ∀ b e d, r = .ok (b, some e, d) → b = false

/-- A loop iteration that returns an error returns `false` with it. -/
def Flow.FalseOnError {α : Type} (r : Except String (Flow α)) : Prop :=
  ∀ ok e d, r = .ok (.ret ok (some e) d) → ok = false

section Flow

variable {α : Type}

@[simp] theorem Flow.falseOnError_error (p : String) :
    Flow.FalseOnError (.error p : Except String (Flow α)) := by
  intro _ _ _ h; cases h

@[simp] theorem Flow.falseOnError_next (acc : α) :
    Flow.FalseOnError (.ok (.next acc) : Except String (Flow α)) := by
  intro _ _ _ h; cases h

@[simp] theorem Flow.falseOnError_ret_false (err : Option Bytes) (d : RuntimeData) :
    Flow.FalseOnError (.ok (.ret false err d) : Except String (Flow α)) := by
  intro _ _ _ h; cases h; rfl

@[simp] theorem Flow.falseOnError_ret_none (ok : Bool) (d : RuntimeData) :
    Flow.FalseOnError (.ok (.ret ok none d) : Except String (Flow α)) := by
  intro _ _ _ h; cases h

@[simp] theorem Flow.ofCheck_falseOnError (r : CheckOut) (count : Nat) :
    Flow.FalseOnError (Flow.ofCheck r count) := by
  unfold Flow.ofCheck
  split <;> simp

theorem Flow.andThen_falseOnError {step : Except String (Flow α)}
    {rest : α → Except String (Flow α)} (hs : Flow.FalseOnError step)
    (hr : ∀ acc, Flow.FalseOnError (rest acc)) : Flow.FalseOnError (Flow.andThen step rest) := by
  unfold Flow.andThen
  split
  · simp
  · exact hs
  · exact hr _

end Flow

theorem finishCount_falseOnError (m : MatcherTest) {r : Except String (Flow (Nat × RuntimeData))}
    (h : Flow.FalseOnError r) : FalseOnError (finishCount m r) := by
  intro b e d hb
  unfold finishCount at hb
  split at hb
  · cases hb
  · cases hb; exact h _ _ _ rfl
  · cases hb

theorem MatcherTest.tryMatch_falseOnError (L : Lib) (t : MatcherTest) (d : RuntimeData)
    (value : Bytes) (keys : List Bytes) : FalseOnError (t.tryMatch L d value keys) := by
  induction keys with
  | nil => intro _ _ _ h; cases h
  | cons k ks ih =>
    intro b e d' h
    simp only [MatcherTest.tryMatch] at h
    split at h
    · cases h
    · cases h; rfl
    · cases h
    · exact ih _ _ _ h

/-- Reporting `false` with every error is a `CheckInvariant`. -/
theorem falseOnError_invariant :
    CheckInvariant (fun _ r => FalseOnError r) (fun _ r => Flow.FalseOnError r) where
  check_same _ _ := by intro _ _ _ h; cases h
  check_fail _ _ := by intro _ _ _ h; cases h; rfl
  check_false_of _ := by intro _ _ _ h; cases h; rfl
  flow_next _ _ := Flow.falseOnError_next _
  flow_fail _ _ := Flow.falseOnError_ret_false _ _
  ofCheck count _ := Flow.ofCheck_falseOnError _ count
  andThen hs hr := Flow.andThen_falseOnError hs fun _ => hr _ _
  finishCount m h := finishCount_falseOnError m h

theorem allOfCheck_falseOnError (L : Lib) (ts : List Test) (d : RuntimeData) :
    FalseOnError (allOfCheck L ts d) := by
  induction ts generalizing d with
  | nil => intro _ _ _ h; cases h
  | cons t ts ih =>
    intro b e d' h
    rw [allOfCheck] at h
    split at h
    · cases h
    · cases h; rfl
    · cases h
    · exact ih _ _ _ _ h

theorem anyOfCheck_falseOnError (L : Lib) (ts : List Test) (d : RuntimeData) :
    FalseOnError (anyOfCheck L ts d) := by
  induction ts generalizing d with
  | nil => intro _ _ _ h; cases h
  | cons t ts ih =>
    intro b e d' h
    rw [anyOfCheck] at h
    split at h
    · cases h
    · cases h; rfl
    · cases h
    · exact ih _ _ _ _ h

/-- Every test reports `false` with an error. -/
theorem Test.check_falseOnError (L : Lib) (t : Test) (d : RuntimeData) :
    FalseOnError (t.check L d) := by
  have I := falseOnError_invariant
  have htry (m : MatcherTest) (d : RuntimeData) (v : Bytes) :=
    m.tryMatch_falseOnError L d v m.key
  cases t with
  | addressTest m part _ header =>
    exact I.addressTestCheck_holds L m (fun d v _ => htry m d v) part header d
  | allOfTest ts => exact allOfCheck_falseOnError L ts d
  | anyOfTest ts => exact anyOfCheck_falseOnError L ts d
  | envelopeTest m part field =>
    exact I.envelopeTestCheck_holds L m (fun d v _ => htry m d v) part field d
  | existsTest fields => exact I.existsTestCheck_holds L d fields
  | headerTest m header => exact I.headerTestCheck_holds L m (fun d v _ => htry m d v) header d
  | notTest t =>
    intro b e d' h
    rw [Test.check] at h
    split at h
    · cases h
    · cases h; rfl
    · cases h
  | dateTest m header datePart zone originalZone index last =>
    exact I.dateTestCheck_holds L m (fun d v _ => htry m d v) header datePart zone originalZone
      index last d
  | currentDateTest m datePart zone =>
    exact I.currentDateTestCheck_holds L m datePart zone d (htry m d)
  | mailboxExistsTest mailboxes => exact I.mailboxExistsTestCheck_holds d mailboxes
  | stringTest m source => exact I.stringTestCheck_holds L m (fun d v _ => htry m d v) source d
  | falseTest | sizeTest | trueTest => intro _ _ _ h; cases h

/-! ## The laws -/

section Laws

variable (L : Lib)

theorem notTest_notTest_check (t : Test) (d : RuntimeData) :
    (Test.notTest (.notTest t)).check L d = t.check L d := by
  have hf := Test.check_falseOnError L t d
  simp only [Test.check]
  rcases h : t.check L d with p | ⟨b, _ | e, d'⟩
  · rfl
  · simp
  · simp [hf b e d' h]

theorem notTest_allOfTest_check (ts : List Test) (d : RuntimeData) :
    (Test.notTest (.allOfTest ts)).check L d = (Test.anyOfTest (ts.map .notTest)).check L d := by
  induction ts generalizing d with
  | nil => rfl
  | cons t ts ih =>
    simp only [Test.check, allOfCheck, anyOfCheck, List.map] at ih ⊢
    rcases t.check L d with p | ⟨_ | _, _ | e, d'⟩
    all_goals first | rfl | exact ih d'

theorem notTest_anyOfTest_check (ts : List Test) (d : RuntimeData) :
    (Test.notTest (.anyOfTest ts)).check L d = (Test.allOfTest (ts.map .notTest)).check L d := by
  induction ts generalizing d with
  | nil => rfl
  | cons t ts ih =>
    simp only [Test.check, allOfCheck, anyOfCheck, List.map] at ih ⊢
    rcases t.check L d with p | ⟨_ | _, _ | e, d'⟩
    all_goals first | rfl | exact ih d'

theorem allOfCheck_allOfTest_cons (ts us : List Test) (d : RuntimeData) :
    allOfCheck L (.allOfTest ts :: us) d = allOfCheck L (ts ++ us) d := by
  induction ts generalizing d with
  | nil => rfl
  | cons t ts ih =>
    simp only [Test.check, allOfCheck, List.cons_append] at ih ⊢
    rcases t.check L d with p | ⟨_ | _, _ | e, d'⟩
    all_goals first | rfl | exact ih d'

theorem anyOfCheck_anyOfTest_cons (ts us : List Test) (d : RuntimeData) :
    anyOfCheck L (.anyOfTest ts :: us) d = anyOfCheck L (ts ++ us) d := by
  induction ts generalizing d with
  | nil => rfl
  | cons t ts ih =>
    simp only [Test.check, anyOfCheck, List.cons_append] at ih ⊢
    rcases t.check L d with p | ⟨_ | _, _ | e, d'⟩
    all_goals first | rfl | exact ih d'

/-- An `allof` nested anywhere in an `allof` can be spliced into it. -/
theorem allOfCheck_flatten (pre ts us : List Test) (d : RuntimeData) :
    allOfCheck L (pre ++ .allOfTest ts :: us) d = allOfCheck L (pre ++ ts ++ us) d := by
  induction pre generalizing d with
  | nil => exact allOfCheck_allOfTest_cons L ts us d
  | cons t pre ih =>
    simp only [allOfCheck, List.cons_append] at ih ⊢
    rcases t.check L d with p | ⟨_ | _, _ | e, d'⟩
    all_goals first | rfl | exact ih d'

/-- An `anyof` nested anywhere in an `anyof` can be spliced into it. -/
theorem anyOfCheck_flatten (pre ts us : List Test) (d : RuntimeData) :
    anyOfCheck L (pre ++ .anyOfTest ts :: us) d = anyOfCheck L (pre ++ ts ++ us) d := by
  induction pre generalizing d with
  | nil => exact anyOfCheck_anyOfTest_cons L ts us d
  | cons t pre ih =>
    simp only [anyOfCheck, List.cons_append] at ih ⊢
    rcases t.check L d with p | ⟨_ | _, _ | e, d'⟩
    all_goals first | rfl | exact ih d'

end Laws

/-- `not`, `allof` and `anyof` obey the Boolean laws in all that `Check` returns: the result,
the error, the runtime data after it, and a panic. Double negation holds because every test
reports `false` with an error. -/
theorem check_boolean_laws (L : Lib) :
    (∀ t d b e d', Test.check L t d = .ok (b, some e, d') → b = false) ∧
    ∀ t ts d, (Test.notTest (.notTest t)).check L d = t.check L d ∧
      (Test.notTest (.allOfTest ts)).check L d = (Test.anyOfTest (ts.map .notTest)).check L d ∧
      (Test.notTest (.anyOfTest ts)).check L d = (Test.allOfTest (ts.map .notTest)).check L d :=
  ⟨Test.check_falseOnError L, fun t ts d =>
    ⟨notTest_notTest_check L t d, notTest_allOfTest_check L ts d, notTest_anyOfTest_check L ts d⟩⟩


/-- An `allof` nested in an `allof`, or an `anyof` in an `anyof`, at any position, can be
spliced into the outer list without changing anything `Check` returns: the result, the error,
the runtime data after it, and a panic. -/
theorem nested_allof_anyof_flatten (L : Lib) (pre ts us : List Test) (d : RuntimeData) :
    (Test.allOfTest (pre ++ .allOfTest ts :: us)).check L d =
        (Test.allOfTest (pre ++ ts ++ us)).check L d ∧
      (Test.anyOfTest (pre ++ .anyOfTest ts :: us)).check L d =
        (Test.anyOfTest (pre ++ ts ++ us)).check L d := by
  simp only [Test.check]
  exact ⟨allOfCheck_flatten L pre ts us d, anyOfCheck_flatten L pre ts us d⟩

end GoSieve
