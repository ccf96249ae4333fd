import GoSieve.Commands
import GoSieve.Comparators
import GoSieve.CheckInvariant

/-!
# What a run can change

The interpreter threads one `RuntimeData` through every test and command. This module says
which parts of it each step may write, and derives the run-level facts from that. Results:

* `check_writes_only_match_variables`: evaluating a test changes the match variables at most;
* `execute_only_appends_allowed_edits`: a run keeps the message, the envelope, the policy and
  the script's configuration, and only appends header edits with a valid field name, never a
  delete of a protected header;
* `execute_keeps_protected_values`: the view of a protected field keeps every value it had
  before the run, in order and together;
* `execute_keeps_unedited_fields`: the view of a field the run journals no edit for is the one
  it had before the run;
* `execute_only_adds_actions`: a run only adds actions; `keep` and a cancelled implicit keep
  stay, mailboxes and redirects are appended to within `maxRedirects`, and vacation responses
  go only to the envelope's sender, one each.

`OnlyMatchVars` is what a test may do and `EditStep` what `addheader` and `deleteheader` may do.
`RunInvariant` packages the principle that a run keeps any preorder that contains what tests
and each other command do (`Script.execute_keeps`, by one induction over commands and blocks);
`RunStep` and `ActionStep` are two such preorders.
-/

namespace GoSieve

/-! ## Tests write only the match variables -/

/-- `d'` differs from `d` in the match variables at most. -/
def OnlyMatchVars (d d' : RuntimeData) : Prop :=
  { d' with matchVariables := [] } = { d with matchVariables := [] }

theorem OnlyMatchVars.refl (d : RuntimeData) : OnlyMatchVars d d := rfl

theorem OnlyMatchVars.trans {d d₁ d₂ : RuntimeData} (h₁ : OnlyMatchVars d d₁)
    (h₂ : OnlyMatchVars d₁ d₂) : OnlyMatchVars d d₂ := Eq.trans h₂ h₁

/-- Every runtime data a `Check` result carries differs from `d` in the match variables at
most. -/
def CheckOnlyMatchVars (d : RuntimeData) (r : CheckOut) : Prop :=
  ∀ b e d', r = .ok (b, e, d') → OnlyMatchVars d d'

/-- The runtime data a loop step carries, to a `return` or to the next iteration. -/
def Flow.data : Flow (Nat × RuntimeData) → RuntimeData
  | .ret _ _ d => d
  | .next (_, d) => d

/-- Every runtime data a loop step carries differs from `d` in the match variables at most. -/
def FlowOnlyMatchVars (d : RuntimeData) (r : Except String (Flow (Nat × RuntimeData))) : Prop :=
  ∀ f, r = .ok f → OnlyMatchVars d f.data

section Flow

variable {d : RuntimeData}

@[simp] theorem checkOnlyMatchVars_error (p : String) : CheckOnlyMatchVars d (.error p) := by
  intro _ _ _ h; cases h

theorem checkOnlyMatchVars_ok {b : Bool} {e : Option Bytes} {d' : RuntimeData}
    (h : OnlyMatchVars d d') : CheckOnlyMatchVars d (.ok (b, e, d')) := by
  intro _ _ _ hr; cases hr; exact h

theorem CheckOnlyMatchVars.of_trans {d' : RuntimeData} {r : CheckOut} (h : OnlyMatchVars d d')
    (h' : CheckOnlyMatchVars d' r) : CheckOnlyMatchVars d r :=
  fun b e d'' hr => h.trans (h' b e d'' hr)

@[simp] theorem flowOnlyMatchVars_error (p : String) : FlowOnlyMatchVars d (.error p) := by
  intro _ h; cases h

theorem flowOnlyMatchVars_ret {ok : Bool} {e : Option Bytes} {d' : RuntimeData}
    (h : OnlyMatchVars d d') : FlowOnlyMatchVars d (.ok (.ret ok e d')) := by
  intro _ hr; cases hr; exact h

theorem flowOnlyMatchVars_next {n : Nat} {d' : RuntimeData} (h : OnlyMatchVars d d') :
    FlowOnlyMatchVars d (.ok (.next (n, d'))) := by
  intro _ hr; cases hr; exact h

theorem FlowOnlyMatchVars.of_trans {d' : RuntimeData}
    {r : Except String (Flow (Nat × RuntimeData))} (h : OnlyMatchVars d d')
    (h' : FlowOnlyMatchVars d' r) : FlowOnlyMatchVars d r :=
  fun f hf => h.trans (h' f hf)

theorem Flow.ofCheck_onlyMatchVars {r : CheckOut} (h : CheckOnlyMatchVars d r) (count : Nat) :
    FlowOnlyMatchVars d (Flow.ofCheck r count) := by
  unfold Flow.ofCheck
  split
  · simp
  · exact flowOnlyMatchVars_ret (h _ _ _ rfl)
  · exact flowOnlyMatchVars_ret (h _ _ _ rfl)
  · exact flowOnlyMatchVars_next (h _ _ _ rfl)

theorem Flow.andThen_onlyMatchVars {step : Except String (Flow (Nat × RuntimeData))}
    {rest : Nat × RuntimeData → Except String (Flow (Nat × RuntimeData))}
    (hs : FlowOnlyMatchVars d step) (hr : ∀ n d', FlowOnlyMatchVars d' (rest (n, d'))) :
    FlowOnlyMatchVars d (Flow.andThen step rest) := by
  unfold Flow.andThen
  split
  · simp
  · exact flowOnlyMatchVars_ret (hs _ rfl)
  · exact (hr _ _).of_trans (hs _ rfl)

theorem finishCount_onlyMatchVars (m : MatcherTest)
    {r : Except String (Flow (Nat × RuntimeData))} (h : FlowOnlyMatchVars d r) :
    CheckOnlyMatchVars d (finishCount m r) := by
  unfold finishCount
  split
  · simp
  · exact checkOnlyMatchVars_ok (h _ rfl)
  · exact checkOnlyMatchVars_ok (h _ rfl)

end Flow

theorem MatcherTest.tryMatch_onlyMatchVars (L : Lib) (t : MatcherTest) (d : RuntimeData)
    (value : Bytes) (keys : List Bytes) : CheckOnlyMatchVars d (t.tryMatch L d value keys) := by
  induction keys with
  | nil => exact checkOnlyMatchVars_ok (.refl d)
  | cons k ks ih =>
    simp only [MatcherTest.tryMatch]
    split
    · simp
    · exact checkOnlyMatchVars_ok (.refl d)
    · exact checkOnlyMatchVars_ok (by split <;> rfl)
    · exact ih

/-- Writing only the match variables is a `CheckInvariant`. -/
theorem onlyMatchVars_invariant : CheckInvariant CheckOnlyMatchVars FlowOnlyMatchVars where
  check_same d _ := checkOnlyMatchVars_ok (.refl d)
  check_fail d _ := checkOnlyMatchVars_ok (.refl d)
  check_false_of h := checkOnlyMatchVars_ok (h _ _ _ rfl)
  flow_next d _ := flowOnlyMatchVars_next (.refl d)
  flow_fail d _ := flowOnlyMatchVars_ret (.refl d)
  ofCheck count h := Flow.ofCheck_onlyMatchVars h count
  andThen hs hr := Flow.andThen_onlyMatchVars hs hr
  finishCount m h := finishCount_onlyMatchVars m h

mutual

theorem Test.check_onlyMatchVars (L : Lib) : ∀ (t : Test) (d : RuntimeData),
    CheckOnlyMatchVars d (t.check L d)
  | .addressTest m part _ header, d =>
    onlyMatchVars_invariant.addressTestCheck_holds L m
      (fun d v _ => m.tryMatch_onlyMatchVars L d v _) part header d
  | .allOfTest ts, d => allOfCheck_onlyMatchVars L ts d
  | .anyOfTest ts, d => anyOfCheck_onlyMatchVars L ts d
  | .envelopeTest m part field, d =>
    onlyMatchVars_invariant.envelopeTestCheck_holds L m
      (fun d v _ => m.tryMatch_onlyMatchVars L d v _) part field d
  | .existsTest fields, d => onlyMatchVars_invariant.existsTestCheck_holds L d fields
  | .falseTest, d | .trueTest, d | .sizeTest .., d => checkOnlyMatchVars_ok (.refl d)
  | .headerTest m header, d =>
    onlyMatchVars_invariant.headerTestCheck_holds L m
      (fun d v _ => m.tryMatch_onlyMatchVars L d v _) header d
  | .notTest t, d => by
    have h := Test.check_onlyMatchVars L t d
    simp only [Test.check]
    split
    · simp
    · exact checkOnlyMatchVars_ok (h _ _ _ ‹_›)
    · exact checkOnlyMatchVars_ok (h _ _ _ ‹_›)
  | .dateTest m header datePart zone originalZone index last, d =>
    onlyMatchVars_invariant.dateTestCheck_holds L m (fun d v _ => m.tryMatch_onlyMatchVars L d v _)
      header datePart zone originalZone index last d
  | .currentDateTest m datePart zone, d =>
    onlyMatchVars_invariant.currentDateTestCheck_holds L m datePart zone d
      (m.tryMatch_onlyMatchVars L d · _)
  | .mailboxExistsTest mailboxes, d =>
    onlyMatchVars_invariant.mailboxExistsTestCheck_holds d mailboxes
  | .stringTest m source, d =>
    onlyMatchVars_invariant.stringTestCheck_holds L m
      (fun d v _ => m.tryMatch_onlyMatchVars L d v _) source d

theorem allOfCheck_onlyMatchVars (L : Lib) : ∀ (ts : List Test) (d : RuntimeData),
    CheckOnlyMatchVars d (allOfCheck L ts d)
  | [], d => checkOnlyMatchVars_ok (.refl d)
  | t :: ts, d => by
    have h := Test.check_onlyMatchVars L t d
    simp only [allOfCheck]
    split
    · simp
    · exact checkOnlyMatchVars_ok (h _ _ _ ‹_›)
    · exact checkOnlyMatchVars_ok (h _ _ _ ‹_›)
    · exact (allOfCheck_onlyMatchVars L ts _).of_trans (h _ _ _ ‹_›)

theorem anyOfCheck_onlyMatchVars (L : Lib) : ∀ (ts : List Test) (d : RuntimeData),
    CheckOnlyMatchVars d (anyOfCheck L ts d)
  | [], d => checkOnlyMatchVars_ok (.refl d)
  | t :: ts, d => by
    have h := Test.check_onlyMatchVars L t d
    simp only [anyOfCheck]
    split
    · simp
    · exact checkOnlyMatchVars_ok (h _ _ _ ‹_›)
    · exact checkOnlyMatchVars_ok (h _ _ _ ‹_›)
    · exact (anyOfCheck_onlyMatchVars L ts _).of_trans (h _ _ _ ‹_›)

end

/-- A test's `Check` writes nothing but the match variables: every other field of the runtime
data, the header-edit journal, the variables, the actions and the message among them, is the
same after it, whatever the test, its nesting, the library and the data. -/
theorem check_writes_only_match_variables (L : Lib) (t : Test) (d d' : RuntimeData) (b : Bool)
    (e : Option Bytes) (h : t.check L d = .ok (b, e, d')) :
    d' = { d with matchVariables := d'.matchVariables } :=
  congrArg (fun x : RuntimeData => { x with matchVariables := d'.matchVariables })
    (Test.check_onlyMatchVars L t d b e d' h)

/-- A :matches header test stores its captures and nothing else. -/
theorem check_writes_only_match_variables_sample :
    let d := newRuntimeData ⟨[lit "variables"], defaultOptions⟩ dummyPolicy ⟨[], [], []⟩
      (messageStatic [(lit "Subject", lit "hi")] 0)
    let d' := { d with matchVariables := [lit "hi", lit "h"] }
    (Test.headerTest { newMatcherTest with matchType := .matches, key := [lit "*i"] }
        [lit "Subject"]).check sampleLib d = .ok (true, none, d') ∧
      d' = { d with matchVariables := d'.matchVariables } := by
  intro d d'
  have h : (Test.headerTest { newMatcherTest with matchType := .matches, key := [lit "*i"] }
      [lit "Subject"]).check sampleLib d = .ok (true, none, d') := rfl
  exact ⟨h, check_writes_only_match_variables sampleLib _ d d' true none h⟩

/-! ## The commands of `editheader` write only the journal and the match variables -/

/-- An entry a command may append to the header-edit journal: a valid field name, and a
delete only of a header that is not protected. -/
def HeaderEdit.Allowed (C : CaseTables) (e : HeaderEdit) : Prop :=
  isValidHeaderName e.fieldName = true ∧
    (e.action = .delete → isProtectedHeader C e.fieldName = false)

/-- `d'` is `d` with other match variables and allowed entries appended to the journal. -/
structure EditStep (C : CaseTables) (d d' : RuntimeData) : Prop where
  frame : { d' with matchVariables := [], headerEdits := [] } =
    { d with matchVariables := [], headerEdits := [] }
  journal : ∃ es, d'.headerEdits = d.headerEdits ++ es ∧ ∀ e ∈ es, e.Allowed C

namespace EditStep

variable {C : CaseTables} {d d₁ d₂ : RuntimeData}

theorem of_onlyMatchVars (h : OnlyMatchVars d d₁) : EditStep C d d₁ :=
  have h : ({ d₁ with matchVariables := [] } : RuntimeData) = { d with matchVariables := [] } := h
  ⟨congrArg (fun x : RuntimeData => { x with headerEdits := [] }) h,
    [], by rw [List.append_nil]; exact (congrArg RuntimeData.headerEdits h :), by simp⟩

theorem refl (d : RuntimeData) : EditStep C d d := of_onlyMatchVars (.refl d)

theorem trans (h₁ : EditStep C d d₁) (h₂ : EditStep C d₁ d₂) : EditStep C d d₂ := by
  obtain ⟨es₁, hj₁, ha₁⟩ := h₁.journal
  obtain ⟨es₂, hj₂, ha₂⟩ := h₂.journal
  refine ⟨Eq.trans h₂.frame h₁.frame, es₁ ++ es₂, by rw [hj₂, hj₁, List.append_assoc],
    fun e he => ?_⟩
  rcases List.mem_append.1 he with h | h
  exacts [ha₁ e h, ha₂ e h]

theorem addEdit {e : HeaderEdit} (he : e.Allowed C) : EditStep C d (d.addEdit e) :=
  ⟨rfl, [e], rfl, by simpa using he⟩

end EditStep

theorem addHeaderExecute_editStep (L : Lib) (fieldName value : Bytes) (last : Bool)
    (d : RuntimeData) : EditStep L.case d (addHeaderExecute fieldName value last d) := by
  unfold addHeaderExecute
  dsimp only
  split
  · exact .refl d
  · next hv => exact EditStep.addEdit ⟨by simpa using hv, fun h => by cases h⟩

theorem valueMatchesPatterns_onlyMatchVars (L : Lib) (m : MatcherTest) (value : Bytes) :
    ∀ (patterns : List Bytes) (d : RuntimeData),
      CheckOnlyMatchVars d (valueMatchesPatterns L m value patterns d)
  | [], d => checkOnlyMatchVars_ok (.refl d)
  | p :: ps, d => by
    have h := m.tryMatch_onlyMatchVars L d (trimSpace value) m.key
    simp only [valueMatchesPatterns]
    split
    · simp
    · exact checkOnlyMatchVars_ok (h _ _ _ ‹_›)
    · exact checkOnlyMatchVars_ok (h _ _ _ ‹_›)
    · next d' hr =>
      have hd' := h _ _ _ hr
      have hrest := (valueMatchesPatterns_onlyMatchVars L m value ps d').of_trans hd'
      split
      · split
        · simp
        · exact checkOnlyMatchVars_ok hd'
        · exact checkOnlyMatchVars_ok hd'
        · exact hrest
      · exact hrest

theorem deleteMatchingLoop_editStep (L : Lib) (m : MatcherTest) (fieldName : Bytes)
    (patterns : List Bytes)
    (hf : isValidHeaderName fieldName = true ∧ isProtectedHeader L.case fieldName = false) :
    ∀ (values : List Bytes) (d d' : RuntimeData),
      deleteMatchingLoop L m fieldName patterns values d = .ok d' → EditStep L.case d d'
  | [], d, d', h => by cases h; exact .refl d
  | v :: vs, d, d', h => by
    have hv := valueMatchesPatterns_onlyMatchVars L m v patterns d
    have hrest := deleteMatchingLoop_editStep L m fieldName patterns hf vs
    simp only [deleteMatchingLoop] at h
    split at h
    · cases h
    · exact (EditStep.of_onlyMatchVars (hv _ _ _ ‹_›)).trans (hrest _ _ h)
    · exact (EditStep.of_onlyMatchVars (hv _ _ _ ‹_›)).trans (hrest _ _ h)
    · exact ((EditStep.of_onlyMatchVars (hv _ _ _ ‹_›)).trans
        (EditStep.addEdit ⟨hf.1, fun _ => hf.2⟩)).trans (hrest _ _ h)

theorem deleteHeaderExecute_editStep (L : Lib) (m : MatcherTest) (fieldName : Bytes)
    (valuePatterns : List Bytes) (index : Nat) (last : Bool) (d d' : RuntimeData)
    (h : deleteHeaderExecute L m fieldName valuePatterns index last d = .ok d') :
    EditStep L.case d d' := by
  unfold deleteHeaderExecute at h
  dsimp only at h
  split at h
  · cases h; exact .refl d
  · next hf =>
    simp only [Bool.or_eq_true, Bool.not_eq_true', not_or, Bool.not_eq_false] at hf
    have hf' : isValidHeaderName (expandVars d fieldName) = true ∧
        isProtectedHeader L.case (expandVars d fieldName) = false := ⟨hf.1, by simpa using hf.2⟩
    split at h
    · cases h; exact EditStep.addEdit ⟨hf'.1, fun _ => hf'.2⟩
    · split at h
      · cases h; exact .refl d
      · split at h
        · cases h; exact .refl d
        · split at h
          · split at h
            · cases h; exact .refl d
            · next val _ =>
              have hv := valueMatchesPatterns_onlyMatchVars L m val
                (expandVarsList d valuePatterns) d
              split at h
              · cases h
              · cases h
                exact (EditStep.of_onlyMatchVars (hv _ _ _ ‹_›)).trans
                  (EditStep.addEdit ⟨hf'.1, fun _ => hf'.2⟩)
              · cases h; exact EditStep.of_onlyMatchVars (hv _ _ _ ‹_›)
          · exact deleteMatchingLoop_editStep L m _ _ hf' _ d d' h

/-! ## A run keeps what its tests and each of its commands keep -/

/-- A relation on runtime data that every run keeps: a preorder that contains what tests do
and what each command other than `if` does. -/
structure RunInvariant (L : Lib) (R : RuntimeData → RuntimeData → Prop) : Prop where
  refl : ∀ d, R d d
  trans : ∀ {d₁ d₂ d₃}, R d₁ d₂ → R d₂ d₃ → R d₁ d₃
  test : ∀ {d d'}, OnlyMatchVars d d' → R d d'
  cmd : ∀ (c : Cmd) (d : RuntimeData) (r : Option ExecError) (d' : RuntimeData),
    (∀ t thenBlock elseBlock, c ≠ .ifCmd t thenBlock elseBlock) →
      c.execute L d = .ok (r, d') → R d d'

section Invariant

variable {L : Lib} {R : RuntimeData → RuntimeData → Prop} (hR : RunInvariant L R)
include hR

mutual

theorem Cmd.execute_keeps : ∀ (c : Cmd) (d d' : RuntimeData) (r : Option ExecError),
    c.execute L d = .ok (r, d') → R d d'
  | .ifCmd t thenBlock elseBlock, d, d', r, h => by
    have ht := Test.check_onlyMatchVars L t d
    simp only [Cmd.execute] at h
    split at h
    · cases h
    · cases h; exact hR.test (ht _ _ _ ‹_›)
    · exact hR.trans (hR.test (ht _ _ _ ‹_›)) (executeBlock_keeps _ _ _ _ h)
    · exact hR.trans (hR.test (ht _ _ _ ‹_›)) (executeBlock_keeps _ _ _ _ h)
  | .keep _, d, _, _, h | .discard, d, _, _, h | .fileinto .., d, _, _, h
  | .redirect .., d, _, _, h | .stop, d, _, _, h | .addHeader .., d, _, _, h
  | .deleteHeader .., d, _, _, h | .vacation .., d, _, _, h | .set .., d, _, _, h
  | .flag .., d, _, _, h => hR.cmd _ d _ _ (fun _ _ _ he => Cmd.noConfusion he) h

theorem executeBlock_keeps : ∀ (cs : List Cmd) (d d' : RuntimeData) (r : Option ExecError),
    executeBlock L cs d = .ok (r, d') → R d d'
  | [], d, _, _, h => by cases h; exact hR.refl d
  | c :: cs, d, d', r, h => by
    simp only [executeBlock] at h
    split at h
    · cases h
    · cases h; exact Cmd.execute_keeps c d _ _ ‹_›
    · exact hR.trans (Cmd.execute_keeps c d _ _ ‹_›) (executeBlock_keeps cs _ _ _ h)

end

theorem Script.execute_keeps (cmds : List Cmd) (d d' : RuntimeData) (r : Option Bytes)
    (h : Script.execute L cmds d = .ok (r, d')) : R d d' := by
  unfold Script.execute at h
  split at h
  · cases h
  all_goals (cases h; exact executeBlock_keeps hR cmds d _ _ ‹_›)

end Invariant

/-! ## Runs append to the journal and write nothing of the host's -/

/-- What a run may do to the runtime data: the host's message, the envelope, the policy and the
script's configuration stay as they are, and the header-edit journal only grows, by allowed
entries. -/
structure RunStep (C : CaseTables) (d d' : RuntimeData) : Prop where
  msg : d'.msg = d.msg
  envelope : d'.envelope = d.envelope
  policy : d'.policy = d.policy
  script : d'.script = d.script
  journal : ∃ es, d'.headerEdits = d.headerEdits ++ es ∧ ∀ e ∈ es, e.Allowed C

namespace RunStep

variable {C : CaseTables} {d d₁ d₂ : RuntimeData}

theorem of_journal_eq (hm : d₁.msg = d.msg) (he : d₁.envelope = d.envelope)
    (hp : d₁.policy = d.policy) (hs : d₁.script = d.script) (hj : d₁.headerEdits = d.headerEdits) :
    RunStep C d d₁ :=
  ⟨hm, he, hp, hs, [], by rw [hj, List.append_nil], by simp⟩

theorem refl (d : RuntimeData) : RunStep C d d := of_journal_eq rfl rfl rfl rfl rfl

theorem trans (h₁ : RunStep C d d₁) (h₂ : RunStep C d₁ d₂) : RunStep C d d₂ := by
  obtain ⟨es₁, hj₁, ha₁⟩ := h₁.journal
  obtain ⟨es₂, hj₂, ha₂⟩ := h₂.journal
  refine ⟨h₂.msg.trans h₁.msg, h₂.envelope.trans h₁.envelope, h₂.policy.trans h₁.policy,
    h₂.script.trans h₁.script, es₁ ++ es₂, by rw [hj₂, hj₁, List.append_assoc], fun e he => ?_⟩
  rcases List.mem_append.1 he with h | h
  exacts [ha₁ e h, ha₂ e h]

theorem of_editStep (h : EditStep C d d₁) : RunStep C d d₁ :=
  ⟨(congrArg RuntimeData.msg h.frame :), (congrArg RuntimeData.envelope h.frame :),
    (congrArg RuntimeData.policy h.frame :), (congrArg RuntimeData.script h.frame :), h.journal⟩

end RunStep

/-- Every command but `if` keeps `RunStep`: only `addheader` and `deleteheader` touch the
journal. -/
theorem Cmd.execute_runStep_of_ne_if (L : Lib) : ∀ (c : Cmd) (d : RuntimeData)
    (r : Option ExecError) (d' : RuntimeData),
    (∀ t thenBlock elseBlock, c ≠ .ifCmd t thenBlock elseBlock) →
      c.execute L d = .ok (r, d') → RunStep L.case d d'
  | .ifCmd .., _, _, _, hc, _ => absurd rfl (hc _ _ _)
  | .keep _, d, _, _, _, h | .discard, d, _, _, _, h | .fileinto .., d, _, _, _, h
  | .stop, d, _, _, _, h | .flag .setflag _, d, _, _, _, h | .flag .addflag _, d, _, _, _, h
  | .flag .removeflag _, d, _, _, _, h => by
    cases h; exact RunStep.of_journal_eq rfl rfl rfl rfl rfl
  | .redirect .., d, _, _, _, h => by
    simp only [Cmd.execute] at h
    split at h <;> (cases h; exact RunStep.of_journal_eq rfl rfl rfl rfl rfl)
  | .addHeader fieldName value last, d, _, _, _, h => by
    cases h; exact .of_editStep (addHeaderExecute_editStep L fieldName value last d)
  | .deleteHeader m fieldName valuePatterns index last, d, d', r, _, h => by
    simp only [Cmd.execute] at h
    cases hd : deleteHeaderExecute L m fieldName valuePatterns index last d with
    | error p => rw [hd] at h; cases h
    | ok d₁ =>
      rw [hd] at h; cases h
      exact .of_editStep (deleteHeaderExecute_editStep L m fieldName valuePatterns index last d _ hd)
  | .vacation .., d, _, _, _, h => by
    simp only [Cmd.execute, vacationExecute] at h
    split_ifs at h <;> (cases h; exact RunStep.of_journal_eq rfl rfl rfl rfl rfl)
  | .set modifiers name value, d, _, _, _, h => by
    simp only [Cmd.execute, setExecute] at h
    split_ifs at h <;> (cases h; exact RunStep.of_journal_eq rfl rfl rfl rfl rfl)

theorem runStep_runInvariant (L : Lib) : RunInvariant L (RunStep L.case) :=
  ⟨RunStep.refl, RunStep.trans, fun h => .of_editStep (.of_onlyMatchVars h),
    Cmd.execute_runStep_of_ne_if L⟩

/-! ## Runs only add actions -/

/-- What a run may do to the actions: `keep` stays, an implicit keep once cancelled stays
cancelled, mailboxes and redirects are only appended to, redirects stay within the limit, and
vacation responses are recorded only for the envelope's sender, one per sender. -/
structure ActionStep (d d' : RuntimeData) : Prop where
  script : d'.script = d.script
  envelope : d'.envelope = d.envelope
  keep : d.keep = true → d'.keep = true
  implicitKeep : d.implicitKeep = false → d'.implicitKeep = false
  mailboxes : d.mailboxes <+: d'.mailboxes
  redirectAddr : d.redirectAddr <+: d'.redirectAddr
  redirects_le : d.redirectAddr.length ≤ d.script.opts.maxRedirects →
    d'.redirectAddr.length ≤ d.script.opts.maxRedirects
  vacation : ∀ k ∈ d'.vacationResponses.map Prod.fst,
    k ∈ d.vacationResponses.map Prod.fst ∨ k = d.envelope.envelopeFrom ∧ k ≠ []
  vacation_nodup : (d.vacationResponses.map Prod.fst).Nodup →
    (d'.vacationResponses.map Prod.fst).Nodup

theorem mem_keys_setVacationResponse {m : List (Bytes × VacationResponse)} {sender k : Bytes}
    {resp : VacationResponse} (h : k ∈ (setVacationResponse m sender resp).map Prod.fst) :
    k = sender ∨ k ∈ m.map Prod.fst := by
  simp only [setVacationResponse, List.map_cons, List.mem_cons, List.mem_map,
    List.mem_filter] at h
  rcases h with h | ⟨p, ⟨hp, -⟩, rfl⟩
  exacts [.inl h, .inr (List.mem_map_of_mem _ hp)]

theorem nodup_keys_setVacationResponse {m : List (Bytes × VacationResponse)} {sender : Bytes}
    (resp : VacationResponse) (h : (m.map Prod.fst).Nodup) :
    ((setVacationResponse m sender resp).map Prod.fst).Nodup := by
  rw [setVacationResponse, List.map_cons, List.nodup_cons]
  exact ⟨by simp, ((List.filter_sublist m).map Prod.fst).nodup h⟩

namespace ActionStep

variable {d d₁ d₂ : RuntimeData}

theorem of_eq (hs : d₁.script = d.script) (he : d₁.envelope = d.envelope) (hk : d₁.keep = d.keep)
    (hi : d₁.implicitKeep = d.implicitKeep) (hm : d₁.mailboxes = d.mailboxes)
    (hr : d₁.redirectAddr = d.redirectAddr) (hv : d₁.vacationResponses = d.vacationResponses) :
    ActionStep d d₁ where
  script := hs
  envelope := he
  keep h := hk ▸ h
  implicitKeep h := hi ▸ h
  mailboxes := hm ▸ List.prefix_refl _
  redirectAddr := hr ▸ List.prefix_refl _
  redirects_le h := hr ▸ h
  vacation _ hk' := .inl (hv ▸ hk')
  vacation_nodup h := hv ▸ h

theorem refl (d : RuntimeData) : ActionStep d d := of_eq rfl rfl rfl rfl rfl rfl rfl

theorem trans (h₁ : ActionStep d d₁) (h₂ : ActionStep d₁ d₂) : ActionStep d d₂ where
  script := h₂.script.trans h₁.script
  envelope := h₂.envelope.trans h₁.envelope
  keep h := h₂.keep (h₁.keep h)
  implicitKeep h := h₂.implicitKeep (h₁.implicitKeep h)
  mailboxes := h₁.mailboxes.trans h₂.mailboxes
  redirectAddr := h₁.redirectAddr.trans h₂.redirectAddr
  redirects_le h := h₁.script ▸ h₂.redirects_le (h₁.script ▸ h₁.redirects_le h)
  vacation k hk := by
    rcases h₂.vacation k hk with hk | ⟨rfl, hne⟩
    · exact h₁.vacation k hk
    · exact .inr ⟨congrArg Envelope.envelopeFrom h₁.envelope, hne⟩
  vacation_nodup h := h₂.vacation_nodup (h₁.vacation_nodup h)

theorem of_editStep {C : CaseTables} (h : EditStep C d d₁) : ActionStep d d₁ :=
  of_eq (congrArg RuntimeData.script h.frame :) (congrArg RuntimeData.envelope h.frame :)
    (congrArg RuntimeData.keep h.frame :) (congrArg RuntimeData.implicitKeep h.frame :)
    (congrArg RuntimeData.mailboxes h.frame :) (congrArg RuntimeData.redirectAddr h.frame :)
    (congrArg RuntimeData.vacationResponses h.frame :)

end ActionStep

/-- `vacation` records a response only for a non-empty envelope sender, and cancels the
implicit keep. -/
theorem vacationExecute_actionStep (days : Nat) (subject «from» : Bytes) (addresses : List Bytes)
    (mime : Bool) (handle reason : Bytes) (d : RuntimeData) :
    ActionStep d (vacationExecute days subject «from» addresses mime handle reason d).2 := by
  unfold vacationExecute
  dsimp only
  split_ifs with hs
  · exact .refl d
  · exact .refl d
  all_goals exact ⟨rfl, rfl, id, fun _ => rfl, List.prefix_refl _, List.prefix_refl _, id,
    fun k hk => (mem_keys_setVacationResponse hk).elim (fun h => .inr ⟨h, h ▸ hs⟩) .inl,
    nodup_keys_setVacationResponse _⟩

/-- Every command but `if` keeps `ActionStep`. -/
theorem Cmd.execute_actionStep_of_ne_if (L : Lib) : ∀ (c : Cmd) (d : RuntimeData)
    (r : Option ExecError) (d' : RuntimeData),
    (∀ t thenBlock elseBlock, c ≠ .ifCmd t thenBlock elseBlock) →
      c.execute L d = .ok (r, d') → ActionStep d d'
  | .ifCmd .., _, _, _, hc, _ => absurd rfl (hc _ _ _)
  | .keep _, d, _, _, _, h => by
    cases h; exact ⟨rfl, rfl, fun _ => rfl, id, List.prefix_refl _, List.prefix_refl _, id,
      fun _ hk => .inl hk, id⟩
  | .discard, d, _, _, _, h => by
    cases h; exact ⟨rfl, rfl, id, fun _ => rfl, List.prefix_refl _, List.prefix_refl _, id,
      fun _ hk => .inl hk, id⟩
  | .fileinto mailbox copy _ _, d, _, _, _, h => by
    cases h; exact ⟨rfl, rfl, id, fun h => by simp [h], List.prefix_append _ _,
      List.prefix_refl _, id, fun _ hk => .inl hk, id⟩
  | .redirect addr copy, d, _, _, _, h => by
    simp only [Cmd.execute] at h
    split at h
    · cases h; exact .refl d
    · next hlt =>
      cases h
      exact ⟨rfl, rfl, id, fun h => by simp [h], List.prefix_refl _, List.prefix_append _ _,
        fun _ => by simp only [List.length_append, List.length_singleton]; omega,
        fun _ hk => .inl hk, id⟩
  | .stop, d, _, _, _, h => by cases h; exact .refl d
  | .addHeader fieldName value last, d, _, _, _, h => by
    cases h; exact .of_editStep (addHeaderExecute_editStep L fieldName value last d)
  | .deleteHeader m fieldName valuePatterns index last, d, d', r, _, h => by
    simp only [Cmd.execute] at h
    cases hd : deleteHeaderExecute L m fieldName valuePatterns index last d with
    | error p => rw [hd] at h; cases h
    | ok d₁ =>
      rw [hd] at h; cases h
      exact .of_editStep (deleteHeaderExecute_editStep L m fieldName valuePatterns index last d _ hd)
  | .vacation days subject «from» addresses mime handle reason, d, r, d', _, h => by
    simp only [Cmd.execute, Except.ok.injEq] at h
    have hd : d' = _ := (congrArg Prod.snd h).symm
    rw [hd]
    exact vacationExecute_actionStep days subject «from» addresses mime handle reason d
  | .set modifiers name value, d, _, _, _, h => by
    simp only [Cmd.execute, setExecute] at h
    split_ifs at h <;> (cases h; exact ActionStep.of_eq rfl rfl rfl rfl rfl rfl rfl)
  | .flag action flags, d, _, _, _, h => by
    cases action <;> (cases h; exact ActionStep.of_eq rfl rfl rfl rfl rfl rfl rfl)

theorem actionStep_runInvariant (L : Lib) : RunInvariant L ActionStep :=
  ⟨ActionStep.refl, ActionStep.trans,
    fun h => .of_editStep (EditStep.of_onlyMatchVars h : EditStep L.case _ _),
    Cmd.execute_actionStep_of_ne_if L⟩

/-! ## Protected headers keep every value they had -/

theorem ascii_of_isValidHeaderName {f : Bytes} (hf : isValidHeaderName f = true) :
    f.all isAsciiByte = true := by
  simp only [isValidHeaderName, Bool.and_eq_true, List.all_eq_true, decide_eq_true_eq] at hf
  simp only [List.all_eq_true, isAsciiByte, decide_eq_true_eq]
  intro c hc
  have h126 := Byte.le_iff.1 (hf.2 c hc).1.2
  rw [Byte.lt_iff]
  simp only [Byte.toNat_ofNat] at h126 ⊢
  omega

/-- A valid field name that folds to an ASCII key is protected exactly when the key is. -/
theorem isProtectedHeader_of_equalFold (C : CaseTables) {f g : Bytes}
    (hf : isValidHeaderName f = true) (hg : g.all isAsciiByte = true)
    (he : equalFold C f g = true) : isProtectedHeader C f = isProtectedHeader C g := by
  have hfa := ascii_of_isValidHeaderName hf
  rw [equalFold_of_ascii C hfa hg, beq_iff_eq] at he
  simp only [isProtectedHeader, toLower_of_ascii C hfa, toLower_of_ascii C hg, he]

section Protected

variable {C : CaseTables} {g : Bytes} (hg : g.all isAsciiByte = true)
  (hp : isProtectedHeader C g = true)
include hg hp

/-- No allowed entry removes a value of a protected field; an add keeps the old values
together. -/
theorem applyHeaderEdit_protected {e : HeaderEdit} (he : e.Allowed C) (vs : List Bytes) :
    vs <:+: applyHeaderEdit C g vs e := by
  rcases e with ⟨_ | _, f, v, last, index⟩ <;> unfold applyHeaderEdit <;> dsimp only
  · split
    · exact List.infix_refl vs
    · split
      · exact (List.prefix_append vs [v]).isInfix
      · exact (List.suffix_cons v vs).isInfix
  · split
    · exact List.infix_refl vs
    · next hfold =>
      have hprot := isProtectedHeader_of_equalFold C he.1 hg (by simpa using hfold)
      simp [he.2 rfl, hp] at hprot

theorem applyHeaderEditsToValues_protected :
    ∀ {es : List HeaderEdit}, (∀ e ∈ es, e.Allowed C) → ∀ vs,
      vs <:+: applyHeaderEditsToValues C es g vs
  | [], _, vs => List.infix_refl vs
  | e :: es, hes, vs =>
    (applyHeaderEdit_protected hg hp (hes e (by simp)) vs).trans
      (applyHeaderEditsToValues_protected (fun e he => hes e (by simp [he])) _)

/-- Along a run the view of a protected field only gains values around the ones it had. -/
theorem RunStep.headerGet_protected {d d' : RuntimeData} (hr : RunStep C d d') {vs : List Bytes}
    (hv : d.headerGet C g = .ok vs) : ∃ vs', d'.headerGet C g = .ok vs' ∧ vs <:+: vs' := by
  obtain ⟨es, hj, hes⟩ := hr.journal
  unfold RuntimeData.headerGet at hv ⊢
  rw [hr.msg, hj]
  split at hv
  · cases hv
  · cases hv
    exact ⟨_, rfl, by
      simpa only [applyHeaderEditsToValues, List.foldl_append] using
        applyHeaderEditsToValues_protected hg hp hes _⟩

end Protected

/-- Along a run, a field that none of the run's own journal entries names keeps its view. -/
theorem RunStep.headerGet_of_unedited {C : CaseTables} {g : Bytes} {d d' : RuntimeData}
    (hr : RunStep C d d')
    (hj : ∀ e ∈ d'.headerEdits.drop d.headerEdits.length, equalFold C e.fieldName g = false) :
    d'.headerGet C g = d.headerGet C g := by
  obtain ⟨es, hes, -⟩ := hr.journal
  rw [hes, List.drop_left] at hj
  unfold RuntimeData.headerGet
  rw [hr.msg, hes]
  split
  · rfl
  · rw [applyHeaderEditsToValues_append, applyHeaderEditsToValues_of_unnamed C g es _ hj]

/-! ## What a run of a script does to the runtime data -/

/-- A script run that ends without a panic leaves the message, the envelope, the policy and the
script's configuration as they were, and only appends to the header-edit journal: entries with
a valid field name, and deletes only of fields that are not protected. -/
theorem execute_only_appends_allowed_edits (L : Lib) (cmds : List Cmd) (d d' : RuntimeData)
    (r : Option Bytes) (h : Script.execute L cmds d = .ok (r, d')) :
    d'.msg = d.msg ∧ d'.envelope = d.envelope ∧ d'.policy = d.policy ∧ d'.script = d.script ∧
      ∃ es, d'.headerEdits = d.headerEdits ++ es ∧ ∀ e ∈ es,
        isValidHeaderName e.fieldName = true ∧
          (e.action = .delete → isProtectedHeader L.case e.fieldName = false) :=
  have hr := Script.execute_keeps (runStep_runInvariant L) cmds d d' r h
  ⟨hr.msg, hr.envelope, hr.policy, hr.script, hr.journal⟩

/-- A script that tries to delete the protected "Received" field, then adds one, journals
only the add. -/
theorem execute_only_appends_allowed_edits_sample :
    let d := newRuntimeData ⟨[lit "editheader"], defaultOptions⟩ dummyPolicy ⟨[], [], []⟩
      (messageStatic [(lit "Received", lit "x")] 0)
    let d' := d.addEdit ⟨.add, lit "Received", lit "y", false, 0⟩
    Script.execute sampleLib [.deleteHeader newMatcherTest (lit "received") [] 0 false,
        .addHeader (lit "Received") (lit "y") false] d = .ok (none, d') ∧
      (d'.msg = d.msg ∧ d'.envelope = d.envelope ∧ d'.policy = d.policy ∧ d'.script = d.script ∧
        ∃ es, d'.headerEdits = d.headerEdits ++ es ∧ ∀ e ∈ es,
          isValidHeaderName e.fieldName = true ∧
            (e.action = .delete → isProtectedHeader sampleLib.case e.fieldName = false)) := by
  intro d d'
  have h : Script.execute sampleLib [.deleteHeader newMatcherTest (lit "received") [] 0 false,
      .addHeader (lit "Received") (lit "y") false] d = .ok (none, d') := rfl
  exact ⟨h, execute_only_appends_allowed_edits sampleLib _ d d' none h⟩

/-- Under a script run, the view of a protected field, read through an ASCII name, keeps
every value it had, in order and together: the run can only add values around them. -/
theorem execute_keeps_protected_values (L : Lib) (cmds : List Cmd) (d d' : RuntimeData)
    (r : Option Bytes) (h : Script.execute L cmds d = .ok (r, d')) (g : Bytes)
    (hg : g.all isAsciiByte = true) (hp : isProtectedHeader L.case g = true) (vs : List Bytes)
    (hv : d.headerGet L.case g = .ok vs) :
    ∃ vs', d'.headerGet L.case g = .ok vs' ∧ vs <:+: vs' :=
  (Script.execute_keeps (runStep_runInvariant L) cmds d d' r h).headerGet_protected hg hp hv

theorem execute_keeps_protected_values_sample :
    let d := newRuntimeData ⟨[lit "editheader"], defaultOptions⟩ dummyPolicy ⟨[], [], []⟩
      (messageStatic [(lit "Received", lit "x")] 0)
    let d' := d.addEdit ⟨.add, lit "Received", lit "y", false, 0⟩
    Script.execute sampleLib [.deleteHeader newMatcherTest (lit "received") [] 0 false,
        .addHeader (lit "Received") (lit "y") false] d = .ok (none, d') ∧
      (lit "Received").all isAsciiByte = true ∧
      isProtectedHeader sampleLib.case (lit "Received") = true ∧
      d.headerGet sampleLib.case (lit "Received") = .ok [lit "x"] ∧
      ∃ vs', d'.headerGet sampleLib.case (lit "Received") = .ok vs' ∧ [lit "x"] <:+: vs' := by
  intro d d'
  have h : Script.execute sampleLib [.deleteHeader newMatcherTest (lit "received") [] 0 false,
      .addHeader (lit "Received") (lit "y") false] d = .ok (none, d') := rfl
  have hg : (lit "Received").all isAsciiByte = true := by decide
  have hp : isProtectedHeader sampleLib.case (lit "Received") = true := by decide
  have hv : d.headerGet sampleLib.case (lit "Received") = .ok [lit "x"] := rfl
  exact ⟨h, hg, hp, hv, execute_keeps_protected_values sampleLib _ d d' none h _ hg hp _ hv⟩

/-- A run leaves the view of every field it journals no edit for as it found it, whatever the
journal held before the run. -/
theorem execute_keeps_unedited_fields (L : Lib) (cmds : List Cmd) (d d' : RuntimeData)
    (r : Option Bytes) (h : Script.execute L cmds d = .ok (r, d')) (g : Bytes)
    (hj : ∀ e ∈ d'.headerEdits.drop d.headerEdits.length, equalFold L.case e.fieldName g = false) :
    d'.headerGet L.case g = d.headerGet L.case g :=
  (Script.execute_keeps (runStep_runInvariant L) cmds d d' r h).headerGet_of_unedited hj

/-- Adding "X-B" and deleting "X-C" leaves the view of "X-A" alone. -/
theorem execute_keeps_unedited_fields_sample :
    let d := newRuntimeData ⟨[lit "editheader"], defaultOptions⟩ dummyPolicy ⟨[], [], []⟩
      (messageStatic [(lit "X-A", lit "1")] 0)
    let d' := (d.addEdit ⟨.add, lit "X-B", lit "3", false, 0⟩).addEdit
      ⟨.delete, lit "X-C", [], false, 0⟩
    Script.execute sampleLib [.addHeader (lit "X-B") (lit "3") false,
        .deleteHeader newMatcherTest (lit "X-C") [] 0 false] d = .ok (none, d') ∧
      (∀ e ∈ d'.headerEdits.drop d.headerEdits.length,
        equalFold sampleLib.case e.fieldName (lit "X-A") = false) ∧
      d'.headerGet sampleLib.case (lit "X-A") = d.headerGet sampleLib.case (lit "X-A") := by
  intro d d'
  have h : Script.execute sampleLib [.addHeader (lit "X-B") (lit "3") false,
      .deleteHeader newMatcherTest (lit "X-C") [] 0 false] d = .ok (none, d') := rfl
  have hj : ∀ e ∈ d'.headerEdits.drop d.headerEdits.length,
      equalFold sampleLib.case e.fieldName (lit "X-A") = false := by decide
  exact ⟨h, hj, execute_keeps_unedited_fields sampleLib _ d d' none h _ hj⟩

/-- A script run that ends without a panic only adds actions: `keep` stays, an implicit keep
once cancelled stays cancelled, fileinto mailboxes and redirects are only appended to,
redirects stay within `maxRedirects`, and vacation responses are recorded only for the
envelope's non-empty sender, one per sender. -/
theorem execute_only_adds_actions (L : Lib) (cmds : List Cmd) (d d' : RuntimeData)
    (r : Option Bytes) (h : Script.execute L cmds d = .ok (r, d')) :
    (d.keep = true → d'.keep = true) ∧ (d.implicitKeep = false → d'.implicitKeep = false) ∧
      d.mailboxes <+: d'.mailboxes ∧ d.redirectAddr <+: d'.redirectAddr ∧
      (d.redirectAddr.length ≤ d.script.opts.maxRedirects →
        d'.redirectAddr.length ≤ d.script.opts.maxRedirects) ∧
      (∀ k ∈ d'.vacationResponses.map Prod.fst,
        k ∈ d.vacationResponses.map Prod.fst ∨ k = d.envelope.envelopeFrom ∧ k ≠ []) ∧
      ((d.vacationResponses.map Prod.fst).Nodup → (d'.vacationResponses.map Prod.fst).Nodup) :=
  have ha := Script.execute_keeps (actionStep_runInvariant L) cmds d d' r h
  ⟨ha.keep, ha.implicitKeep, ha.mailboxes, ha.redirectAddr, ha.redirects_le, ha.vacation,
    ha.vacation_nodup⟩

/-- A fileinto and a vacation response to the envelope's sender. -/
theorem execute_only_adds_actions_sample :
    let d := newRuntimeData ⟨[lit "fileinto", lit "vacation"], defaultOptions⟩ dummyPolicy
      ⟨lit "s@x", [], []⟩ (messageStatic [] 0)
    let d' : RuntimeData := { d with
      mailboxes := [lit "Archive"]
      implicitKeep := false
      vacationResponses := [(lit "s@x", ⟨[], lit "Automated reply", lit "away", false, [], 7⟩)] }
    Script.execute sampleLib [.fileinto (lit "Archive") false false none,
        .vacation 7 [] [] [] false [] (lit "away")] d = .ok (none, d') ∧
      ((d.keep = true → d'.keep = true) ∧ (d.implicitKeep = false → d'.implicitKeep = false) ∧
        d.mailboxes <+: d'.mailboxes ∧ d.redirectAddr <+: d'.redirectAddr ∧
        (d.redirectAddr.length ≤ d.script.opts.maxRedirects →
          d'.redirectAddr.length ≤ d.script.opts.maxRedirects) ∧
        (∀ k ∈ d'.vacationResponses.map Prod.fst,
          k ∈ d.vacationResponses.map Prod.fst ∨ k = d.envelope.envelopeFrom ∧ k ≠ []) ∧
        ((d.vacationResponses.map Prod.fst).Nodup →
          (d'.vacationResponses.map Prod.fst).Nodup)) := by
  intro d d'
  have h : Script.execute sampleLib [.fileinto (lit "Archive") false false none,
      .vacation 7 [] [] [] false [] (lit "away")] d = .ok (none, d') := rfl
  exact ⟨h, execute_only_adds_actions sampleLib _ d d' none h⟩

end GoSieve
