import GoSieve.Load

/-!
# Every gated construct is required

A loaded script uses an extension only where one of its `require`s names it. Each loader checks
its own gate: `date`, `currentdate`, `envelope`, `mailboxexists`, `addheader`, `deleteheader` and
`vacation` check their extension on entry, `address` and `envelope` check `subaddress` when a
`:user` or `:detail` part was given, `date` checks `index` when the index is positive, and
`setKey` checks `regex` for the match-type of every test that takes keys. `deleteheader` calls
`setKey` only when it has value patterns, so without them its `:regex` needs nothing; and
`:index 0` needs nothing either.

`Test.needs` and `Cmd.needs` say what a loaded test or command needs, and
`loadScript_covers_requires` shows that every need of a loaded script is among its requires:
one lemma per loader, then an induction over the tests and the blocks that follows the
loader's own recursion.
-/

namespace GoSieve

/-! ## What a test needs -/

/-- `:regex` needs `regex`. -/
def matchNeeds (m : MatcherTest) : List Bytes := if m.matchType = .regex then [lit "regex"] else []

/-- `:user` and `:detail` need `subaddress`. -/
def partNeeds (part : AddressPart) : List Bytes :=
  if part = .user ∨ part = .detail then [lit "subaddress"] else []

mutual

/-- The extensions a loaded test needs, by the address-part, match-type and index it keeps. -/
def Test.needs : Test → List Bytes
  | .addressTest m part _ _ => matchNeeds m ++ partNeeds part
  | .allOfTest tests => testsNeeds tests
  | .anyOfTest tests => testsNeeds tests
  | .envelopeTest m part _ => lit "envelope" :: (matchNeeds m ++ partNeeds part)
  | .headerTest m _ => matchNeeds m
  | .notTest t => t.needs
  | .dateTest m _ _ _ _ index _ =>
    lit "date" :: (matchNeeds m ++ if 0 < index then [lit "index"] else [])
  | .currentDateTest m _ _ => lit "date" :: matchNeeds m
  | .mailboxExistsTest _ => [lit "mailbox"]
  | .stringTest m _ => matchNeeds m
  | .existsTest _ | .falseTest | .sizeTest .. | .trueTest => []

def testsNeeds : List Test → List Bytes
  | [] => []
  | t :: ts => t.needs ++ testsNeeds ts

end

/-- Every extension of the list is required. -/
def Covered (s : ScriptConfig) (exts : List Bytes) : Prop := ∀ e ∈ exts, s.requiresExtension e = true

@[simp] theorem covered_nil (s : ScriptConfig) : Covered s [] := fun _ h => absurd h (List.not_mem_nil _)

@[simp] theorem covered_append {s : ScriptConfig} {a b : List Bytes} :
    Covered s (a ++ b) ↔ Covered s a ∧ Covered s b := by
  simp [Covered, or_imp, forall_and]

@[simp] theorem covered_cons {s : ScriptConfig} {e : Bytes} {a : List Bytes} :
    Covered s (e :: a) ↔ s.requiresExtension e = true ∧ Covered s a := by
  simp [Covered]

/-- `date`'s check of `index`. -/
theorem covered_index {s : ScriptConfig} {i : Nat}
    (h : ¬(decide (0 < i) && !s.requiresExtension (lit "index")) = true) :
    Covered s (if 0 < i then [lit "index"] else []) := by
  split_ifs with hi
  · simpa [hi] using h
  · exact covered_nil s

/-! ## `setKey` checks `regex` -/

theorem setKey_ok {C : CaseTables} {s : ScriptConfig} {m m' : MatcherTest} {k : List Bytes}
    (h : setKey C s m k = .ok m') : m'.matchType = m.matchType ∧ Covered s (matchNeeds m) := by
  unfold setKey at h
  obtain ⟨-, h⟩ := ok_of_ite_error h
  obtain ⟨-, h⟩ := ok_of_ite_error h
  obtain ⟨hre, h⟩ := ok_of_ite_error h
  obtain ⟨-, h⟩ := ok_of_ite_error h
  obtain ⟨-, h⟩ := ok_of_ite_error h
  obtain ⟨-, h⟩ := ok_of_ite_error h
  obtain ⟨-, h⟩ := ok_of_ite_error h
  cases h
  refine ⟨rfl, fun e he => ?_⟩
  unfold matchNeeds at he
  split_ifs at he with hr
  · simp only [List.mem_singleton] at he
    subst he
    simpa [hr] using hre
  · cases he

theorem matchNeeds_of_setKey {C : CaseTables} {s : ScriptConfig} {m m' : MatcherTest}
    {k : List Bytes} (h : setKey C s m k = .ok m') : Covered s (matchNeeds m') := by
  obtain ⟨ht, hc⟩ := setKey_ok h
  simpa [matchNeeds, ht] using hc

/-! ## The address-part `LoadSpec` binds -/

/-- A property of the bound record that every callback of a tag keeps. -/
def SpecTag.Keeps (P : Loaded → Prop) (t : SpecTag) : Prop :=
  (∀ l, P l → P (t.matchBool l)) ∧ (∀ f, t.matchNum = some f → ∀ k l, P l → P (f k l)) ∧
    (∀ f, t.matchStr = some f → ∀ v l, P l → P (f v l))

/-- A property of the bound record that every callback of a positional argument keeps. -/
def SpecPosArg.Keeps (P : Loaded → Prop) (p : SpecPosArg) : Prop :=
  (∀ f, p.matchNum = some f → ∀ k l, P l → P (f k l)) ∧
    (∀ f, p.matchStr = some f → ∀ v l, P l → P (f v l))

section Keeps
variable {P : Loaded → Prop}

theorem bindArg_keeps {mn : Option (Nat → Loaded → Loaded)} {ms : Option (List Bytes → Loaded → Loaded)}
    {minC maxC : Nat} {arg : Arg} {l l' : Loaded}
    (hn : ∀ f, mn = some f → ∀ k l, P l → P (f k l)) (hs : ∀ f, ms = some f → ∀ v l, P l → P (f v l))
    (h : bindArg mn ms minC maxC arg l = .ok l') (hl : P l) : P l' := by
  unfold bindArg at h
  split at h
  · next f k => cases h; exact hn f rfl k l hl
  · split at h
    · next f => split_ifs at h; cases h; exact hs f rfl _ l hl
    · cases h
  · cases h

theorem loadTags_keeps {tags : List (Bytes × SpecTag)} (htags : ∀ p ∈ tags, p.2.Keeps P)
    {args : List Arg} {l : Loaded} {rest : List Arg} {l' : Loaded}
    (h : loadTags tags args l = .ok (rest, l')) (hl : P l) : P l' :=
  loadTags_ok_induction (motive := fun _ l _ l' => P l → P l') (fun _ _ _ => id)
    (fun _ _ _ _ _ _ _ _ ht _ hb ih hl =>
      ih (bindArg_keeps (htags _ (lookup_mem ht)).2.1 (htags _ (lookup_mem ht)).2.2 hb hl))
    (fun _ _ _ _ _ _ ht _ ih hl => ih ((htags _ (lookup_mem ht)).1 _ hl)) h hl

theorem loadPos_keeps : ∀ {pos : List SpecPosArg}, (∀ p ∈ pos, p.Keeps P) →
    ∀ {args : List Arg} {l l' : Loaded}, loadPos pos args l = .ok l' → P l → P l'
  | [], hpos, [], l, l', h, hl => by
    cases h
    exact hl
  | [], _, _ :: _, _, _, h, _ => by cases h
  | p :: ps, hpos, [], l, l', h, hl => by
    simp only [loadPos] at h
    split_ifs at h
    exact loadPos_keeps (fun q hq => hpos q (.tail _ hq)) h hl
  | p :: ps, hpos, a :: as, l, l', h, hl => by
    have hp := hpos p (.head _)
    simp only [loadPos] at h
    split at h
    · next l₁ hb => exact loadPos_keeps (fun q hq => hpos q (.tail _ hq)) h (bindArg_keeps hp.1 hp.2 hb hl)
    · split_ifs at h
      exact loadPos_keeps (fun q hq => hpos q (.tail _ hq)) h hl

/-- `LoadSpec` keeps a property that every callback of the spec keeps. -/
theorem loadSpec_keeps {spec : Spec} {args : List Arg} {ntests : Nat} {hasBlock : Bool}
    {l l' : Loaded} (htags : ∀ p ∈ spec.tags, p.2.Keeps P) (hpos : ∀ p ∈ spec.pos, p.Keeps P)
    (h : loadSpec spec args ntests hasBlock l = .ok l') (hl : P l) : P l' := by
  obtain ⟨rest, l₁, ht, hp, -⟩ := loadSpec_ok h
  exact loadPos_keeps hpos hp (loadTags_keeps htags ht hl)

end Keeps

/-- A `:user` or `:detail` address-part has marked the subaddress use. -/
def SubaddressMarked (l : Loaded) : Prop :=
  l.addressPart = .user ∨ l.addressPart = .detail → l.useSubaddress = true

/-- The comparator and match-type tags leave the address-part alone. -/
theorem matcherTags_keep : ∀ p ∈ matcherTags, p.2.Keeps SubaddressMarked := by
  simp only [matcherTags, List.mem_cons, List.mem_singleton, List.not_mem_nil, or_false]
  rintro p (rfl | rfl | rfl | rfl | rfl | rfl | rfl) <;>
    exact ⟨fun _ hl => hl, fun _ hf _ _ hl => (by cases hf), fun _ hf _ _ hl => (by cases hf <;> exact hl)⟩

/-- `:user` and `:detail` mark the subaddress use as they set the address-part. -/
theorem addressPartTags_keep (counted : Bool) :
    ∀ p ∈ addressPartTags counted, p.2.Keeps SubaddressMarked := by
  simp only [addressPartTags, List.mem_cons, List.mem_singleton, List.not_mem_nil, or_false]
  rintro p (rfl | rfl | rfl | rfl | rfl) <;>
    refine ⟨fun l _ => ?_, fun _ hf => (by cases hf), fun _ hf => (by cases hf)⟩
  · rintro (h | h) <;> cases h
  · rintro (h | h) <;> cases h
  · rintro (h | h) <;> cases h
  · exact fun _ => Bool.or_true _
  · exact fun _ => Bool.or_true _

theorem subaddressMarked_of_loadSpec {counted : Bool} {args : List Arg} {n : Nat} {l : Loaded}
    (h : loadSpec (addSpecTags
      { tags := addressPartTags counted
        pos := [strsPos fun v l => { l with names := v }, keyPos] }) args n false {} = .ok l) :
    SubaddressMarked l := by
  refine loadSpec_keeps (fun p hp => ?_) (fun p hp => ?_) h (by simp [SubaddressMarked])
  · rcases List.mem_append.1 hp with hp | hp
    · exact matcherTags_keep p hp
    · exact addressPartTags_keep counted p hp
  · simp only [addSpecTags, List.mem_cons, List.mem_singleton, List.not_mem_nil, or_false] at hp
    rcases hp with rfl | rfl <;>
      exact ⟨fun _ hf => (by cases hf), fun _ hf _ _ hl => (by cases hf; exact hl)⟩

/-- `address`'s and `envelope`'s check of `subaddress`. -/
theorem covered_part {s : ScriptConfig} {l : Loaded} (hsub : SubaddressMarked l)
    (h : ¬(l.useSubaddress && !s.requiresExtension (lit "subaddress")) = true) :
    Covered s (partNeeds l.addressPart) := by
  unfold partNeeds
  split_ifs with hp
  · simpa [hsub hp] using h
  · exact covered_nil s

/-! ## The test loaders -/

section Loaders

variable {C : CaseTables} {s : ScriptConfig} {args : List Arg} {n : Nat} {t : Test}

theorem loadAddressTest_covered (h : loadAddressTest C s args n = .ok t) : Covered s t.needs := by
  unfold loadAddressTest at h
  generalize hr : loadSpec _ args n false {} = r at h
  simp only [bind, Except.bind, pure, Except.pure, throw, throwThe, MonadExceptOf.throw] at h
  obtain ⟨l, rfl, h⟩ := ok_of_bind_ok h
  obtain ⟨m, hm, h⟩ := ok_of_bind_ok h
  obtain ⟨-, h⟩ := ok_of_ite_error h
  obtain ⟨hs, h⟩ := ok_of_ite_error h
  cases h
  simp only [Test.needs, covered_append]
  exact ⟨matchNeeds_of_setKey hm, covered_part (subaddressMarked_of_loadSpec hr) hs⟩

theorem loadEnvelopeTest_covered (h : loadEnvelopeTest C s args n = .ok t) :
    Covered s t.needs := by
  unfold loadEnvelopeTest at h
  generalize hr : loadSpec _ args n false {} = r at h
  simp only [bind, Except.bind, pure, Except.pure, throw, throwThe, MonadExceptOf.throw] at h
  obtain ⟨he, h⟩ := ok_of_ite_error h
  obtain ⟨l, rfl, h⟩ := ok_of_bind_ok h
  obtain ⟨m, hm, h⟩ := ok_of_bind_ok h
  obtain ⟨hs, h⟩ := ok_of_ite_error h
  cases h
  simp only [Test.needs, covered_cons, covered_append]
  exact ⟨by simpa using he, matchNeeds_of_setKey hm,
    covered_part (subaddressMarked_of_loadSpec hr) hs⟩

theorem loadHeaderTest_covered (h : loadHeaderTest C s args n = .ok t) : Covered s t.needs := by
  unfold loadHeaderTest at h
  generalize loadSpec _ args n false {} = r at h
  simp only [bind, Except.bind, pure, Except.pure, throw, throwThe, MonadExceptOf.throw] at h
  obtain ⟨l, -, h⟩ := ok_of_bind_ok h
  obtain ⟨m, hm, h⟩ := ok_of_bind_ok h
  obtain ⟨-, h⟩ := ok_of_ite_error h
  cases h
  exact matchNeeds_of_setKey hm

theorem loadDateTest_covered (h : loadDateTest C s args n = .ok t) : Covered s t.needs := by
  unfold loadDateTest at h
  generalize loadSpec _ args n false {} = r at h
  simp only [bind, Except.bind, pure, Except.pure, throw, throwThe, MonadExceptOf.throw] at h
  obtain ⟨hd, h⟩ := ok_of_ite_error h
  obtain ⟨l, -, h⟩ := ok_of_bind_ok h
  obtain ⟨-, h⟩ := ok_of_ite_error h
  -- the zone check leaves the same checks after it in both branches
  rcases ite_eq_ok h with ⟨-, h⟩ | ⟨-, h⟩
  on_goal 1 => split at h; · cases h
  all_goals
    obtain ⟨-, h⟩ := ok_of_ite_error h
    obtain ⟨-, h⟩ := ok_of_ite_error h
    obtain ⟨hi, h⟩ := ok_of_ite_error h
    obtain ⟨m, hm, h⟩ := ok_of_bind_ok h
    cases h
    simp only [Test.needs, covered_cons, covered_append]
    exact ⟨by simpa using hd, matchNeeds_of_setKey hm, covered_index hi⟩

theorem loadCurrentDateTest_covered (h : loadCurrentDateTest C s args n = .ok t) :
    Covered s t.needs := by
  unfold loadCurrentDateTest at h
  generalize loadSpec _ args n false {} = r at h
  simp only [bind, Except.bind, pure, Except.pure, throw, throwThe, MonadExceptOf.throw] at h
  obtain ⟨hd, h⟩ := ok_of_ite_error h
  obtain ⟨l, -, h⟩ := ok_of_bind_ok h
  rcases ite_eq_ok h with ⟨-, h⟩ | ⟨-, h⟩
  on_goal 1 => split at h; · cases h
  all_goals
    obtain ⟨-, h⟩ := ok_of_ite_error h
    obtain ⟨m, hm, h⟩ := ok_of_bind_ok h
    cases h
    simp only [Test.needs, covered_cons]
    exact ⟨by simpa using hd, matchNeeds_of_setKey hm⟩

theorem loadMailboxExistsTest_covered (h : loadMailboxExistsTest s args = .ok t) :
    Covered s t.needs := by
  unfold loadMailboxExistsTest at h
  generalize loadSpec _ args 0 false {} = r at h
  simp only [bind, Except.bind, pure, Except.pure, throw, throwThe, MonadExceptOf.throw] at h
  obtain ⟨hm, h⟩ := ok_of_ite_error h
  obtain ⟨l, -, h⟩ := ok_of_bind_ok h
  cases h
  simpa [Test.needs] using hm

theorem loadStringTest_covered (h : loadStringTest C s args n = .ok t) : Covered s t.needs := by
  unfold loadStringTest at h
  generalize loadSpec _ args n false {} = r at h
  simp only [bind, Except.bind, pure, Except.pure, throw, throwThe, MonadExceptOf.throw] at h
  obtain ⟨-, h⟩ := ok_of_ite_error h
  obtain ⟨l, -, h⟩ := ok_of_bind_ok h
  obtain ⟨m, hm, h⟩ := ok_of_bind_ok h
  cases h
  exact matchNeeds_of_setKey hm

theorem loadExistsTest_covered (h : loadExistsTest args n = .ok t) : Covered s t.needs := by
  unfold loadExistsTest at h
  simp only [bind, Except.bind, pure, Except.pure] at h
  split at h
  · cases h
  · cases h
    simp [Test.needs]

theorem loadSizeTest_covered (h : loadSizeTest args n = .ok t) : Covered s t.needs := by
  unfold loadSizeTest at h
  dsimp only at h
  split at h
  · cases h
  · split_ifs at h
    cases h
    simp [Test.needs]

theorem loadConstTest_covered {t₀ : Test} (h₀ : t₀.needs = []) (h : loadConstTest args n t₀ = .ok t) :
    Covered s t.needs := by
  unfold loadConstTest at h
  simp only [bind, Except.bind, pure, Except.pure] at h
  split at h
  · cases h
  · cases h
    simp [h₀]

theorem loadListTest_covered {mk : List Test → Test} (hmk : ∀ ts, (mk ts).needs = testsNeeds ts)
    {tests : Except Bytes (List Test)} (hts : ∀ ts, tests = .ok ts → Covered s (testsNeeds ts))
    (h : loadListTest args n mk tests = .ok t) : Covered s t.needs := by
  unfold loadListTest at h
  simp only [bind, Except.bind, pure, Except.pure] at h
  split at h
  · cases h
  split at h
  · cases h
  next _ ts =>
  cases h
  rw [hmk]
  exact hts ts rfl

theorem loadNotTest_covered {tests : Except Bytes (List Test)}
    (hts : ∀ ts, tests = .ok ts → Covered s (testsNeeds ts))
    (h : loadNotTest args n tests = .ok t) : Covered s t.needs := by
  unfold loadNotTest at h
  simp only [bind, Except.bind, pure, Except.pure, throw, throwThe, MonadExceptOf.throw] at h
  split at h
  · cases h
  split at h
  · cases h
  next _ ts =>
  split at h
  · cases h
    simpa [Test.needs, testsNeeds] using hts _ rfl
  · cases h

end Loaders

mutual

theorem loadTest_covered (C : CaseTables) (s : ScriptConfig) :
    ∀ (p : PTest) (t : Test), loadTest C s p = .ok t → Covered s t.needs
  | .mk id args tests, t, h => by
    have hts := loadTests_covered C s tests
    rw [loadTest.eq_1] at h
    rcases ite_eq_ok h with ⟨-, h⟩ | ⟨-, h⟩
    · exact loadAddressTest_covered h
    rcases ite_eq_ok h with ⟨-, h⟩ | ⟨-, h⟩
    · exact loadListTest_covered (by intro _; rfl) hts h
    rcases ite_eq_ok h with ⟨-, h⟩ | ⟨-, h⟩
    · exact loadListTest_covered (by intro _; rfl) hts h
    rcases ite_eq_ok h with ⟨-, h⟩ | ⟨-, h⟩
    · exact loadEnvelopeTest_covered h
    rcases ite_eq_ok h with ⟨-, h⟩ | ⟨-, h⟩
    · exact loadExistsTest_covered h
    rcases ite_eq_ok h with ⟨-, h⟩ | ⟨-, h⟩
    · exact loadConstTest_covered (by rfl) h
    rcases ite_eq_ok h with ⟨-, h⟩ | ⟨-, h⟩
    · exact loadConstTest_covered (by rfl) h
    rcases ite_eq_ok h with ⟨-, h⟩ | ⟨-, h⟩
    · exact loadHeaderTest_covered h
    rcases ite_eq_ok h with ⟨-, h⟩ | ⟨-, h⟩
    · exact loadNotTest_covered hts h
    rcases ite_eq_ok h with ⟨-, h⟩ | ⟨-, h⟩
    · exact loadSizeTest_covered h
    rcases ite_eq_ok h with ⟨-, h⟩ | ⟨-, h⟩
    · exact loadDateTest_covered h
    rcases ite_eq_ok h with ⟨-, h⟩ | ⟨-, h⟩
    · exact loadCurrentDateTest_covered h
    rcases ite_eq_ok h with ⟨-, h⟩ | ⟨-, h⟩
    · exact loadMailboxExistsTest_covered h
    rcases ite_eq_ok h with ⟨-, h⟩ | ⟨-, h⟩
    · exact loadStringTest_covered h
    · cases h

theorem loadTests_covered (C : CaseTables) (s : ScriptConfig) :
    ∀ (ps : List PTest) (ts : List Test), loadTests C s ps = .ok ts → Covered s (testsNeeds ts)
  | [], ts, h => by
    cases h
    simp [testsNeeds]
  | p :: ps, ts, h => by
    simp only [loadTests] at h
    split at h
    · next t' ts' h1 h2 =>
      cases h
      simp only [testsNeeds, covered_append]
      exact ⟨loadTest_covered C s p t' h1, loadTests_covered C s ps ts' h2⟩
    · cases h
    · cases h

end

/-! ## What a command needs -/

mutual

def Cmd.needs : Cmd → List Bytes
  | .ifCmd t thenBlock elseBlock => t.needs ++ blockNeeds thenBlock ++ blockNeeds elseBlock
  | .addHeader .. => [lit "editheader"]
  | .deleteHeader m _ valuePatterns _ _ =>
    lit "editheader" :: if valuePatterns = [] then [] else matchNeeds m
  | .vacation .. => [lit "vacation"]
  | .keep _ | .discard | .fileinto .. | .redirect .. | .stop | .set .. | .flag .. => []

def blockNeeds : List Cmd → List Bytes
  | [] => []
  | c :: cs => c.needs ++ blockNeeds cs

end

@[simp] theorem blockNeeds_append (a b : List Cmd) :
    blockNeeds (a ++ b) = blockNeeds a ++ blockNeeds b := by
  induction a with
  | nil => rfl
  | cons c a ih => simp [blockNeeds, ih]

section CmdLoaders

variable {C : CaseTables} {s : ScriptConfig} {args : List Arg} {n : Nat} {hb : Bool} {c : Cmd}

theorem loadAddHeader_covered (h : loadAddHeader s args n hb = .ok c) : Covered s c.needs := by
  unfold loadAddHeader at h
  generalize loadSpec _ args n hb {} = r at h
  simp only [bind, Except.bind, pure, Except.pure, throw, throwThe, MonadExceptOf.throw] at h
  obtain ⟨he, h⟩ := ok_of_ite_error h
  obtain ⟨l, -, h⟩ := ok_of_bind_ok h
  cases h
  simpa [Cmd.needs] using he

theorem loadDeleteHeader_covered (h : loadDeleteHeader C s args n hb = .ok c) :
    Covered s c.needs := by
  unfold loadDeleteHeader at h
  generalize loadSpec _ args n hb {} = r at h
  simp only [bind, Except.bind, pure, Except.pure, throw, throwThe, MonadExceptOf.throw] at h
  obtain ⟨he, h⟩ := ok_of_ite_error h
  obtain ⟨l, -, h⟩ := ok_of_bind_ok h
  obtain ⟨-, h⟩ := ok_of_ite_error h
  by_cases hp : l.valuePatterns ≠ []
  · -- the keys are set, and `setKey` checks the match-type
    rw [if_pos hp] at h
    split at h
    · cases h
    next m hm =>
    cases h
    simp only [Cmd.needs, covered_cons, if_neg hp]
    exact ⟨by simpa using he, matchNeeds_of_setKey hm⟩
  · rw [if_neg hp] at h
    cases h
    simp only [Cmd.needs, covered_cons, if_pos (not_not.1 hp)]
    exact ⟨by simpa using he, covered_nil s⟩

theorem loadVacation_covered (h : loadVacation s args n hb = .ok c) : Covered s c.needs := by
  unfold loadVacation at h
  generalize loadSpec _ args n hb {} = r at h
  simp only [bind, Except.bind, pure, Except.pure, throw, throwThe, MonadExceptOf.throw] at h
  obtain ⟨he, h⟩ := ok_of_ite_error h
  obtain ⟨l, -, h⟩ := ok_of_bind_ok h
  cases h
  simpa [Cmd.needs] using he

/-- A command no extension gates, whatever its loader checked. -/
theorem covered_of_needs_nil {s : ScriptConfig} {c : Cmd} (hc : c.needs = []) : Covered s c.needs :=
  hc ▸ covered_nil s

theorem loadKeep_needs (h : loadKeep s args n hb = .ok c) : c.needs = [] := by
  simp only [loadKeep, bind, Except.bind, pure, Except.pure, throw, throwThe,
    MonadExceptOf.throw] at h
  repeat' split at h
  all_goals (cases h; try rfl)

theorem loadPlain_needs {c₀ : Cmd} (h₀ : c₀.needs = []) (h : loadPlain args n hb c₀ = .ok c) :
    c.needs = [] := by
  simp only [loadPlain, bind, Except.bind, pure, Except.pure] at h
  repeat' split at h
  all_goals (cases h; try exact h₀)

theorem loadFileinto_needs (h : loadFileinto s args n hb = .ok c) : c.needs = [] := by
  simp only [loadFileinto, bind, Except.bind, pure, Except.pure, throw, throwThe,
    MonadExceptOf.throw] at h
  repeat' split at h
  all_goals (cases h; try rfl)

theorem loadRedirect_needs (h : loadRedirect s args n hb = .ok c) : c.needs = [] := by
  simp only [loadRedirect, bind, Except.bind, pure, Except.pure, throw, throwThe,
    MonadExceptOf.throw] at h
  repeat' split at h
  all_goals (cases h; try rfl)

theorem loadSet_needs (h : loadSet s args n hb = .ok c) : c.needs = [] := by
  simp only [loadSet, bind, Except.bind, pure, Except.pure, throw, throwThe,
    MonadExceptOf.throw] at h
  repeat' split at h
  all_goals (cases h; try rfl)

theorem loadFlag_needs {action : FlagAction} (h : loadFlag s args n hb action = .ok c) :
    c.needs = [] := by
  simp only [loadFlag, bind, Except.bind, pure, Except.pure, throw, throwThe,
    MonadExceptOf.throw] at h
  repeat' split at h
  all_goals (cases h; try rfl)

theorem loadCmd_covered {id : Bytes} (h : loadCmd C s args n hb id = .ok c) : Covered s c.needs := by
  unfold loadCmd at h
  rcases ite_eq_ok h with ⟨-, h⟩ | ⟨-, h⟩
  · exact covered_of_needs_nil (loadKeep_needs h)
  rcases ite_eq_ok h with ⟨-, h⟩ | ⟨-, h⟩
  · exact covered_of_needs_nil (loadPlain_needs (by rfl) h)
  rcases ite_eq_ok h with ⟨-, h⟩ | ⟨-, h⟩
  · exact covered_of_needs_nil (loadPlain_needs (by rfl) h)
  rcases ite_eq_ok h with ⟨-, h⟩ | ⟨-, h⟩
  · exact covered_of_needs_nil (loadFileinto_needs h)
  rcases ite_eq_ok h with ⟨-, h⟩ | ⟨-, h⟩
  · exact covered_of_needs_nil (loadRedirect_needs h)
  rcases ite_eq_ok h with ⟨-, h⟩ | ⟨-, h⟩
  · exact loadAddHeader_covered h
  rcases ite_eq_ok h with ⟨-, h⟩ | ⟨-, h⟩
  · exact loadDeleteHeader_covered h
  rcases ite_eq_ok h with ⟨-, h⟩ | ⟨-, h⟩
  · exact loadVacation_covered h
  rcases ite_eq_ok h with ⟨-, h⟩ | ⟨-, h⟩
  · exact covered_of_needs_nil (loadSet_needs h)
  rcases ite_eq_ok h with ⟨-, h⟩ | ⟨-, h⟩
  · exact covered_of_needs_nil (loadFlag_needs h)
  rcases ite_eq_ok h with ⟨-, h⟩ | ⟨-, h⟩
  · exact covered_of_needs_nil (loadFlag_needs h)
  rcases ite_eq_ok h with ⟨-, h⟩ | ⟨-, h⟩
  · exact covered_of_needs_nil (loadFlag_needs h)
  rcases ite_eq_ok h with ⟨-, h⟩ | ⟨-, h⟩
  · cases h
  · cases h

end CmdLoaders

/-! ## Blocks -/

/-- An open `if` chain whose command is covered once its `else` block is. -/
def OpenCovered (s : ScriptConfig) : Option (List Cmd → Cmd) → Prop
  | none => True
  | some f => ∀ e, Covered s (blockNeeds e) → Covered s (f e).needs

theorem closeIf_covered {s : ScriptConfig} {acc : List Cmd} {openIf : Option (List Cmd → Cmd)}
    (hacc : Covered s (blockNeeds acc)) (hopen : OpenCovered s openIf) :
    Covered s (blockNeeds (closeIf acc openIf)) := by
  cases openIf with
  | none => exact hacc
  | some f => simpa [closeIf, blockNeeds, hacc] using hopen [] (by simp [blockNeeds])

theorem loadIfParts_ok {args : List Arg} {n : Nat} {hb : Bool} {tests : Except Bytes (List Test)}
    {block : Except Bytes (List Cmd)} {t : Test} {b : List Cmd}
    (h : loadIfParts args n hb tests block = .ok (t, b)) : tests = .ok [t] ∧ block = .ok b := by
  simp only [loadIfParts, bind, Except.bind, pure, Except.pure, throw, throwThe,
    MonadExceptOf.throw] at h
  split at h
  · cases h
  split at h
  · cases h
  next _ ts =>
  split at h
  · split at h
    · cases h
    · cases h
      exact ⟨rfl, rfl⟩
  · cases h

theorem loadElse_ok {args : List Arg} {n : Nat} {hb : Bool} {block : Except Bytes (List Cmd)}
    {b : List Cmd} (h : loadElse args n hb block = .ok b) : block = .ok b := by
  simp only [loadElse, bind, Except.bind] at h
  split at h
  · cases h
  · exact h

section Blocks
variable {C : CaseTables} {s : ScriptConfig}

/-- One command of a block keeps the loaded commands and the open chain covered, given that its
tests and its block are. -/
theorem loadBlockStep_covered {acc acc' : List Cmd} {openIf openIf' : Option (List Cmd → Cmd)}
    {p : PCmd} {tests : Except Bytes (List Test)} {block : Except Bytes (List Cmd)}
    (hacc : Covered s (blockNeeds acc)) (hopen : OpenCovered s openIf)
    (htests : ∀ ts, tests = .ok ts → Covered s (testsNeeds ts))
    (hblock : ∀ b, block = .ok b → Covered s (blockNeeds b))
    (h : loadBlockStep C s acc openIf p tests block = .ok (acc', openIf')) :
    Covered s (blockNeeds acc') ∧ OpenCovered s openIf' := by
  unfold loadBlockStep at h
  dsimp only at h
  split_ifs at h
  · -- if
    split at h
    · cases h
    next t b hp =>
    cases h
    obtain ⟨ht, hb⟩ := loadIfParts_ok hp
    have hct := htests _ ht
    simp only [testsNeeds, List.append_nil] at hct
    exact ⟨closeIf_covered hacc hopen, fun e he => by
      simp [Cmd.needs, hct, hblock b hb, he]⟩
  · -- elsif
    split at h
    · cases h
    · cases h
    next f t b hp =>
    cases h
    obtain ⟨ht, hb⟩ := loadIfParts_ok hp
    have hct := htests _ ht
    simp only [testsNeeds, List.append_nil] at hct
    exact ⟨hacc, fun e he => hopen _ (by simp [blockNeeds, Cmd.needs, hct, hblock b hb, he])⟩
  · -- else
    split at h
    · cases h
    · cases h
    next f b hp =>
    cases h
    exact ⟨by simpa [blockNeeds, hacc] using hopen b (hblock b (loadElse_ok hp)), trivial⟩
  · -- any other command
    split at h
    · cases h
    next c hc =>
    cases h
    exact ⟨by simpa [blockNeeds, closeIf_covered hacc hopen] using loadCmd_covered hc, trivial⟩

end Blocks

mutual

theorem loadCmdBlock_covered (C : CaseTables) (s : ScriptConfig) :
    ∀ (p : PCmd) (b : List Cmd), loadCmdBlock C s p = .ok b → Covered s (blockNeeds b)
  | .mk _ _ _ block, b, h => loadBlock_covered C s [] none block b (by simp [blockNeeds]) trivial h

theorem loadBlock_covered (C : CaseTables) (s : ScriptConfig) :
    ∀ (acc : List Cmd) (openIf : Option (List Cmd → Cmd)) (ps : List PCmd) (cs : List Cmd),
      Covered s (blockNeeds acc) → OpenCovered s openIf →
      loadBlock C s acc openIf ps = .ok cs → Covered s (blockNeeds cs)
  | acc, openIf, [], cs, hacc, hopen, h => by
    cases h
    exact closeIf_covered hacc hopen
  | acc, openIf, p :: ps, cs, hacc, hopen, h => by
    simp only [loadBlock] at h
    split at h
    · cases h
    next acc' openIf' hstep =>
    obtain ⟨hacc', hopen'⟩ := loadBlockStep_covered hacc hopen (loadTests_covered C s p.tests)
      (loadCmdBlock_covered C s p) hstep
    exact loadBlock_covered C s acc' openIf' ps cs hacc' hopen' h

end

/-! ## Loaded scripts -/

/-- Every extension that a loaded script's tests and commands need is one its `require`s name. -/
theorem loadScript_covers_requires (C : CaseTables) (cmds : List PCmd) (opts : Options)
    (enabled : List Bytes) (sc : Script) (h : loadScript C cmds opts enabled = .ok sc) :
    ∀ ext ∈ blockNeeds sc.cmds, sc.config.requiresExtension ext = true := by
  unfold loadScript at h
  split at h
  · cases h
  next exts _ =>
  dsimp only at h
  split at h
  · cases h
  next cs hcs =>
  cases h
  exact loadBlock_covered C _ [] none _ cs (by simp [blockNeeds]) trivial hcs

theorem loadScript_covers_requires_sample :
    let cmds : List PCmd :=
      [.mk (lit "require")
        [.strings [lit "envelope", lit "subaddress", lit "regex", lit "editheader"]] [] [],
       .mk (lit "if") []
        [.mk (lit "envelope")
          [.tag (lit "user"), .tag (lit "regex"), .string (lit "to"), .string (lit "a.*")] []]
        [.mk (lit "deleteheader") [.tag (lit "regex"), .string (lit "X-A"), .string (lit "v")]
          [] []]]
    let enabled := [lit "envelope", lit "subaddress", lit "regex", lit "editheader"]
    ∃ sc, loadScript goCase cmds defaultOptions enabled = .ok sc ∧
      ∀ ext ∈ blockNeeds sc.cmds, sc.config.requiresExtension ext = true := by
  intro cmds enabled
  exact ⟨_, rfl, loadScript_covers_requires goCase cmds defaultOptions enabled _ rfl⟩

/-- `date :index 0` loads without `index`, and `deleteheader :regex` without value patterns
loads without `regex`: neither reaches the check. -/
theorem index_zero_regex_counterexample :
    (∃ sc, loadScript goCase
        [.mk (lit "require") [.string (lit "date")] [] [],
         .mk (lit "if") []
          [.mk (lit "date") [.tag (lit "index"), .number 0, .string (lit "date"),
            .string (lit "year"), .string (lit "2024")] []]
          [.mk (lit "keep") [] [] []]]
        defaultOptions [lit "date", lit "index"] = .ok sc ∧
      sc.config.requiresExtension (lit "index") = false) ∧
    (∃ sc, loadScript goCase
        [.mk (lit "require") [.string (lit "editheader")] [] [],
         .mk (lit "deleteheader") [.tag (lit "regex"), .string (lit "X-A")] [] []]
        defaultOptions [lit "editheader", lit "regex"] = .ok sc ∧
      sc.config.requiresExtension (lit "regex") = false) :=
  ⟨⟨_, rfl, rfl⟩, ⟨_, rfl, rfl⟩⟩

end GoSieve
