import GoSieve.Overlay
import GoSieve.Panic

/-!
# `deleteheader` with value patterns

`CmdDeleteHeader.Execute` with value patterns reads the view of the field, replays the journal
on it once more, and journals a delete for each value its matcher selects: a delete by value
without `:index`, a delete by index of the `:index`-th value with it. The store of
`GoSieve.Overlay` takes the same step when the field has no earlier edit, so that the second
replay changes nothing:

* `valueMatchesPatterns_ignores_patterns`: the check of one value tries the matcher's keys once
  per pattern, and never reads the patterns themselves once the match type is set;
* `deleteheader_by_value_refines_store`: the view after the command is the store's by-value
  delete, `deleteSelected`: every selected value gone, or only the `:index`-th when it is
  selected;
* `deleteheader_selected_empty_value_deletes_all`: a selected empty value is journaled as a
  delete by the value `""`, which the replay reads as a delete of every value of the field.

The keys must not read the match variables the matcher itself stores, or the values would be
judged against different keys one after another.
-/

namespace GoSieve

/-! ## The store's by-value delete -/

/-- Whether `deleteheader`'s matcher selects a value: a key matches the trimmed value without
an error. -/
def MatcherTest.selects (L : Lib) (m : MatcherTest) (d : RuntimeData) (v : Bytes) : Bool :=
  match m.tryMatch L d (trimSpace v) m.key with
  | .ok (true, none, _) => true
  | _ => false

/-- The values a `deleteheader` with value patterns leaves (RFC 5293 §5): without `:index` the
selected values gone, with it only the `:index`-th (from the end with `:last`), when it is
selected. -/
def deleteSelected (sel : Bytes → Bool) (vs : List Bytes) (index : Nat) (last : Bool) :
    List Bytes :=
  if index = 0 then vs.filter fun v => !sel v
  else
    match selectIndexed vs index last with
    | some v => if sel v then removeNth vs index last else vs
    | none => vs

/-! ## The matcher -/

/-- What `tryMatch` can return: a hit, which stores the captures at most, or a miss, with or
without an error, which leaves the runtime data as it was. -/
theorem MatcherTest.tryMatch_cases {L : Lib} {t : MatcherTest} {d d' : RuntimeData} {v : Bytes}
    {b : Bool} {e : Option Bytes} :
    ∀ {ks : List Bytes}, t.tryMatch L d v ks = .ok (b, e, d') →
      (b = true ∧ e = none ∧ ∃ mv, d' = { d with matchVariables := mv }) ∨ (b = false ∧ d' = d)
  | [], h => by cases h; exact .inr ⟨rfl, rfl⟩
  | k :: ks, h => by
    simp only [MatcherTest.tryMatch] at h
    split at h
    · cases h
    · cases h; exact .inr ⟨rfl, rfl⟩
    · cases h
      exact .inl ⟨rfl, rfl, by split_ifs <;> exact ⟨_, rfl⟩⟩
    · exact tryMatch_cases h

/-- `tryMatch` reads the runtime data only through the expanded keys. -/
theorem MatcherTest.tryMatch_of_keys {L : Lib} {t : MatcherTest} {d₁ d₂ d₁' : RuntimeData}
    {v : Bytes} {b : Bool} {e : Option Bytes} :
    ∀ {ks : List Bytes}, (∀ k ∈ ks, expandVars d₁ k = expandVars d₂ k) →
      t.tryMatch L d₁ v ks = .ok (b, e, d₁') → ∃ d₂', t.tryMatch L d₂ v ks = .ok (b, e, d₂')
  | [], _, h => by cases h; exact ⟨d₂, rfl⟩
  | k :: ks, hk, h => by
    simp only [MatcherTest.tryMatch, hk k (List.mem_cons_self k ks)] at h ⊢
    rcases hr : testString L t.comparator t.matchType t.relational v (expandVars d₂ k) with
      p | ⟨_ | _, caps, _ | e'⟩ <;> simp only [hr] at h ⊢
    · cases h
    · exact tryMatch_of_keys (fun k' hk' => hk k' (List.mem_cons_of_mem k hk')) h
    · cases h; exact ⟨_, rfl⟩
    · cases h; exact ⟨_, rfl⟩
    · cases h; exact ⟨_, rfl⟩

theorem MatcherTest.selects_of_tryMatch {L : Lib} {m : MatcherTest} {d d' : RuntimeData}
    {v : Bytes} {b : Bool} {e : Option Bytes}
    (h : m.tryMatch L d (trimSpace v) m.key = .ok (b, e, d')) :
    m.selects L d v = (b && e.isNone) := by
  unfold MatcherTest.selects
  rw [h]
  cases b <;> cases e <;> rfl

/-- After a miss with the match type set, the other patterns miss as well. -/
theorem valueMatchesPatterns_of_miss (L : Lib) (m : MatcherTest) (v : Bytes) (d : RuntimeData)
    (hset : m.matchType ≠ .unset) (hmiss : m.tryMatch L d (trimSpace v) m.key = .ok (false, none, d)) :
    ∀ ps : List Bytes, valueMatchesPatterns L m v ps d = .ok (false, none, d)
  | [] => rfl
  | _ :: ps => by
    simp only [valueMatchesPatterns, hmiss, hset, if_false]
    exact valueMatchesPatterns_of_miss L m v d hset hmiss ps

/-- With the match type set, the check of a value is one `tryMatch` on the trimmed value,
whichever patterns there are. -/
theorem valueMatchesPatterns_cons_of_set (L : Lib) (m : MatcherTest) (v p : Bytes)
    (ps : List Bytes) (d : RuntimeData) (hset : m.matchType ≠ .unset) :
    valueMatchesPatterns L m v (p :: ps) d = m.tryMatch L d (trimSpace v) m.key := by
  rcases hr : m.tryMatch L d (trimSpace v) m.key with q | ⟨b, e, d'⟩
  · simp only [valueMatchesPatterns, hr]
  · rcases MatcherTest.tryMatch_cases hr with ⟨rfl, rfl, -⟩ | ⟨rfl, hd⟩
    · simp only [valueMatchesPatterns, hr]
    · subst d'
      cases e with
      | none =>
        simp only [valueMatchesPatterns, hr, hset, if_false]
        exact valueMatchesPatterns_of_miss L m v d hset hr ps
      | some e => simp only [valueMatchesPatterns, hr]

/-- Once the match type is set, `valueMatchesPatterns` never reads the patterns: any two
non-empty lists give the same result, since each pattern runs the same `tryMatch` of the
matcher's own keys again. -/
theorem valueMatchesPatterns_ignores_patterns (L : Lib) (m : MatcherTest) (v : Bytes)
    (ps qs : List Bytes) (d : RuntimeData) (hset : m.matchType ≠ .unset) (hps : ps ≠ [])
    (hqs : qs ≠ []) : valueMatchesPatterns L m v ps d = valueMatchesPatterns L m v qs d := by
  obtain ⟨p, ps, rfl⟩ := List.exists_cons_of_ne_nil hps
  obtain ⟨q, qs, rfl⟩ := List.exists_cons_of_ne_nil hqs
  rw [valueMatchesPatterns_cons_of_set L m v p ps d hset,
    valueMatchesPatterns_cons_of_set L m v q qs d hset]

/-- A `:contains "a"` matcher selects `" xay "` whether the patterns are `"zzz"` or `"a"`. -/
theorem valueMatchesPatterns_ignores_patterns_sample :
    let m := { newMatcherTest with matchType := .contains, key := [lit "a"] }
    let d := newRuntimeData ⟨[lit "editheader"], defaultOptions⟩ dummyPolicy ⟨[], [], []⟩
      (messageStatic [] 0)
    m.matchType ≠ .unset ∧ valueMatchesPatterns sampleLib m (lit " xay ") [lit "zzz"] d =
      valueMatchesPatterns sampleLib m (lit " xay ") [lit "a", lit "b"] d := by
  intro m d
  have hset : m.matchType ≠ .unset := by decide
  exact ⟨hset, valueMatchesPatterns_ignores_patterns sampleLib m _ _ _ d hset
    (List.cons_ne_nil _ _) (List.cons_ne_nil _ _)⟩

/-! ## The replay of deletes by value -/

/-- The view of a field no journal entry names is the host's values. -/
theorem headerGet_of_unnamed (C : CaseTables) (d : RuntimeData) {g : Bytes} {vs : List Bytes}
    (hj : ∀ e ∈ d.headerEdits, equalFold C e.fieldName g = false) (hv : d.msg.headerGet g = .ok vs) :
    d.headerGet C g = .ok vs := by
  simp only [RuntimeData.headerGet, hv, applyHeaderEditsToValues_of_unnamed C g _ vs hj]

/-- The view of a field no earlier edit names, once more entries are journaled. -/
theorem headerGet_of_unnamed_append (C : CaseTables) (d : RuntimeData) (mv : List Bytes)
    {g : Bytes} (es : List HeaderEdit) {vs : List Bytes}
    (hj : ∀ e ∈ d.headerEdits, equalFold C e.fieldName g = false) (hv : d.msg.headerGet g = .ok vs) :
    ({ d with matchVariables := mv, headerEdits := d.headerEdits ++ es } : RuntimeData).headerGet C g =
      .ok (applyHeaderEditsToValues C es g vs) := by
  simp only [RuntimeData.headerGet, hv, applyHeaderEditsToValues_append,
    applyHeaderEditsToValues_of_unnamed C g _ vs hj]

/-- The delete by value `deleteheader` journals for a value `v`. -/
def byValueDelete (fieldName v : Bytes) : HeaderEdit := ⟨.delete, fieldName, v, false, 0⟩

/-- Deleting, in order, the selected values, none of them empty, leaves the others in order,
when no value before them is selected: each delete removes the first equal value, which is the
selected one. -/
theorem applyHeaderEditsToValues_byValueDelete (C : CaseTables) {f g : Bytes}
    (hg : equalFold C f g = true) (p : Bytes → Bool) :
    ∀ (vs pre : List Bytes), (∀ v ∈ vs, p v = true → v ≠ []) → (∀ x ∈ pre, p x = false) →
      applyHeaderEditsToValues C ((vs.filter p).map (byValueDelete f)) g (pre ++ vs) =
        pre ++ vs.filter fun v => !p v
  | [], pre, _, _ => by simp [applyHeaderEditsToValues]
  | v :: vs, pre, hne, hpre => by
    have hne' : ∀ w ∈ vs, p w = true → w ≠ [] := fun w hw => hne w (List.mem_cons_of_mem v hw)
    by_cases hv : p v = true
    · have hfresh : v ∉ pre := fun hmem => by simp [hpre v hmem] at hv
      have hstep : applyHeaderEdit C g (pre ++ v :: vs) (byValueDelete f v) = pre ++ vs := by
        simp [applyHeaderEdit, byValueDelete, hg, hne v (List.mem_cons_self v vs) hv,
          List.erase_append_right _ hfresh]
      rw [List.filter_cons_of_pos hv, List.map_cons, applyHeaderEditsToValues_cons, hstep,
        applyHeaderEditsToValues_byValueDelete C hg p vs pre hne' hpre,
        List.filter_cons_of_neg (by simpa using hv)]
    · have hpre' : ∀ x ∈ pre ++ [v], p x = false := by
        simpa [or_imp, forall_and] using ⟨hpre, by simpa using hv⟩
      have h := applyHeaderEditsToValues_byValueDelete C hg p vs (pre ++ [v]) hne' hpre'
      simp only [List.append_assoc, List.singleton_append] at h
      rw [List.filter_cons_of_neg hv, h, List.filter_cons_of_pos (by simpa using hv)]

/-- A delete by the empty value deletes every value; after it, deletes leave nothing. -/
theorem applyHeaderEditsToValues_byValueDelete_of_empty (C : CaseTables) {f g : Bytes}
    (hg : equalFold C f g = true) (dels : List Bytes) (hempty : [] ∈ dels) (vs : List Bytes) :
    applyHeaderEditsToValues C (dels.map (byValueDelete f)) g vs = [] := by
  have hnil : ∀ ws : List Bytes, applyHeaderEditsToValues C (ws.map (byValueDelete f)) g [] = [] := by
    intro ws
    induction ws with
    | nil => rfl
    | cons w ws ih =>
      rw [List.map_cons, applyHeaderEditsToValues_cons]
      convert ih using 2
      simp [applyHeaderEdit, byValueDelete]
  obtain ⟨s, t, rfl⟩ := List.append_of_mem hempty
  rw [List.map_append, List.map_cons, applyHeaderEditsToValues, List.foldl_append, List.foldl_cons]
  simpa [applyHeaderEdit, byValueDelete, hg] using hnil t

/-! ## The command -/

section ByValue

variable (L : Lib) (m : MatcherTest) (d : RuntimeData) (f : Bytes) (pats : List Bytes)

/-- The loop over the values journals a delete by value for each selected value, when the keys
read no match variable. -/
theorem deleteMatchingLoop_selected (hpats : pats ≠ []) (hset : m.matchType ≠ .unset)
    (hm : m.isCount = false)
    (hk : ∀ mv, ∀ k ∈ m.key, expandVars { d with matchVariables := mv } k = expandVars d k) :
    ∀ (vs mv : List Bytes) (es : List HeaderEdit), ∃ mv',
      deleteMatchingLoop L m f pats vs { d with matchVariables := mv, headerEdits := es } =
        .ok { d with matchVariables := mv', headerEdits :=
          es ++ (vs.filter (m.selects L d)).map (byValueDelete f) }
  | [], mv, es => ⟨mv, by simp [deleteMatchingLoop]⟩
  | v :: vs, mv, es => by
    obtain ⟨p, ps, hps⟩ := List.exists_cons_of_ne_nil hpats
    obtain ⟨⟨b, e, d₁⟩, hr⟩ := m.tryMatch_noPanic L m.key
      { d with matchVariables := mv, headerEdits := es } (trimSpace v) hm
    have hkeys : ∀ k ∈ m.key,
        expandVars { d with matchVariables := mv, headerEdits := es } k = expandVars d k := hk mv
    have hsel : m.selects L d v = (b && e.isNone) := by
      obtain ⟨d₂, hr₂⟩ := MatcherTest.tryMatch_of_keys hkeys hr
      exact MatcherTest.selects_of_tryMatch hr₂
    have hvm : valueMatchesPatterns L m v pats { d with matchVariables := mv, headerEdits := es } =
        .ok (b, e, d₁) := by
      rw [hps, valueMatchesPatterns_cons_of_set L m v p ps _ hset, hr]
    rcases MatcherTest.tryMatch_cases hr with ⟨rfl, rfl, mv₁, rfl⟩ | ⟨rfl, rfl⟩
    · obtain ⟨mv', h⟩ := deleteMatchingLoop_selected hpats hset hm hk vs mv₁
        (es ++ [byValueDelete f v])
      refine ⟨mv', ?_⟩
      simp only [deleteMatchingLoop, hvm]
      rw [List.filter_cons_of_pos (by simpa using hsel), List.map_cons, List.append_cons]
      exact h
    · obtain ⟨mv', h⟩ := deleteMatchingLoop_selected hpats hset hm hk vs mv es
      refine ⟨mv', ?_⟩
      rw [List.filter_cons_of_neg (by simp [hsel])]
      cases e <;> simpa only [deleteMatchingLoop, hvm] using h

/-- Without `:index`, on a field no earlier edit names, the command journals a delete by value
for each selected value of the host's list and changes nothing else but the match
variables. -/
theorem deleteHeaderExecute_of_unnamed (hf : isValidHeaderName (expandVars d f) = true)
    (hp : isProtectedHeader L.case (expandVars d f) = false) (hpats : pats ≠ [])
    (hset : m.matchType ≠ .unset) (hm : m.isCount = false)
    (hk : ∀ mv, ∀ k ∈ m.key, expandVars { d with matchVariables := mv } k = expandVars d k)
    (hj : ∀ e ∈ d.headerEdits, equalFold L.case e.fieldName (expandVars d f) = false)
    {vs : List Bytes} (hv : d.msg.headerGet (expandVars d f) = .ok vs) (last : Bool) :
    ∃ mv', deleteHeaderExecute L m f pats 0 last d =
      .ok { d with matchVariables := mv', headerEdits :=
        d.headerEdits ++ (vs.filter (m.selects L d)).map (byValueDelete (expandVars d f)) } := by
  have hpats' : expandVarsList d pats ≠ [] := by simpa [expandVarsList] using hpats
  simp only [deleteHeaderExecute, hf, hp, Bool.not_true, Bool.or_false, Bool.false_eq_true,
    if_false, hpats', headerGet_of_unnamed _ d hj hv, applyHeaderEditsToValues_of_unnamed _ _ _ _ hj,
    Nat.lt_irrefl]
  by_cases hvs : vs = []
  · subst hvs; exact ⟨d.matchVariables, by simp⟩
  · rw [if_neg hvs]
    exact deleteMatchingLoop_selected L m d (expandVars d f) (expandVarsList d pats) hpats' hset
      hm hk vs d.matchVariables d.headerEdits

/-- With `:index`, on a field that no earlier edit names, the command deletes the `:index`-th
value (from the end with `:last`) when the matcher selects it, and changes no view otherwise. -/
theorem deleteHeaderExecute_of_index (hf : isValidHeaderName (expandVars d f) = true)
    (hp : isProtectedHeader L.case (expandVars d f) = false) (hpats : pats ≠ [])
    (hset : m.matchType ≠ .unset) (hm : m.isCount = false)
    (hj : ∀ e ∈ d.headerEdits, equalFold L.case e.fieldName (expandVars d f) = false)
    {vs : List Bytes} (hv : d.msg.headerGet (expandVars d f) = .ok vs) {index : Nat}
    (hindex : 0 < index) (last : Bool) :
    ∃ d', deleteHeaderExecute L m f pats index last d = .ok d' ∧
      d'.headerGet L.case (expandVars d f) = .ok (deleteSelected (m.selects L d) vs index last) := by
  have hview := headerGet_of_unnamed L.case d hj hv
  have hreplay := applyHeaderEditsToValues_of_unnamed L.case (expandVars d f) _ vs hj
  have hpats' : expandVarsList d pats ≠ [] := by simpa [expandVarsList] using hpats
  obtain ⟨p, ps, hps⟩ := List.exists_cons_of_ne_nil hpats'
  have hindex' : index ≠ 0 := Nat.pos_iff_ne_zero.mp hindex
  simp only [deleteHeaderExecute, hf, hp, Bool.not_true, Bool.or_false, Bool.false_eq_true,
    if_false, hpats', hview, hreplay, hindex, if_true, deleteSelected, hindex']
  by_cases hvs : vs = []
  · subst hvs; exact ⟨d, by simp, by simp [hview, selectIndexed]⟩
  rw [if_neg hvs]
  rcases hsel : selectIndexed vs index last with _ | val
  · exact ⟨d, rfl, hview⟩
  obtain ⟨⟨b, e, d₁⟩, hr⟩ := m.tryMatch_noPanic L m.key d (trimSpace val) hm
  have hs := MatcherTest.selects_of_tryMatch hr
  simp only [hps, valueMatchesPatterns_cons_of_set L m val p ps d hset, hr]
  rcases MatcherTest.tryMatch_cases hr with ⟨rfl, rfl, mv, rfl⟩ | ⟨rfl, hd⟩
  · refine ⟨_, rfl, ?_⟩
    rw [RuntimeData.headerGet_addEdit]
    simp only [hs, Option.isNone_none, Bool.and_self, if_true]
    show (d.headerGet L.case (expandVars d f)).map _ = _
    rw [hview]
    simp only [Except.map, applyHeaderEdit, equalFold_self, Bool.not_true, Bool.false_eq_true,
      if_false, hindex, if_true]
    rw [replayIndex_eq_removeNth vs index last hindex]
  · subst d₁
    refine ⟨d, by cases e <;> rfl, ?_⟩
    simp [hs, hview]

end ByValue

/-- `deleteheader` with value patterns, on a field that no earlier edit names, runs without an
error and leaves the view of the field equal to the store's by-value delete: without `:index`
every value the matcher selects is gone and the others stay in order, none of the selected
ones being empty; with `:index` the `:index`-th value (from the end with `:last`) is gone when
it is selected. The keys must read no match variable, and the match type must be set and not
`:count`. -/
theorem deleteheader_by_value_refines_store (L : Lib) (m : MatcherTest) (d : RuntimeData)
    (f : Bytes) (pats : List Bytes) (index : Nat) (last : Bool) {vs : List Bytes}
    (hf : isValidHeaderName (expandVars d f) = true)
    (hp : isProtectedHeader L.case (expandVars d f) = false) (hpats : pats ≠ [])
    (hset : m.matchType ≠ .unset) (hm : m.isCount = false)
    (hk : ∀ mv, ∀ k ∈ m.key, expandVars { d with matchVariables := mv } k = expandVars d k)
    (hj : ∀ e ∈ d.headerEdits, equalFold L.case e.fieldName (expandVars d f) = false)
    (hv : d.msg.headerGet (expandVars d f) = .ok vs)
    (hne : index = 0 → ∀ v ∈ vs, m.selects L d v = true → v ≠ []) :
    ∃ d', deleteHeaderExecute L m f pats index last d = .ok d' ∧
      d'.headerGet L.case (expandVars d f) = .ok (deleteSelected (m.selects L d) vs index last) := by
  rcases Nat.eq_zero_or_pos index with rfl | hindex
  · obtain ⟨mv', h⟩ := deleteHeaderExecute_of_unnamed L m d f pats hf hp hpats hset hm hk hj hv last
    refine ⟨_, h, ?_⟩
    rw [headerGet_of_unnamed_append L.case d mv' _ hj hv]
    simpa [deleteSelected] using applyHeaderEditsToValues_byValueDelete L.case
      (equalFold_self L.case (expandVars d f)) (m.selects L d) vs [] (hne rfl) (fun _ h => nomatch h)
  · exact deleteHeaderExecute_of_index L m d f pats hf hp hpats hset hm hj hv hindex last

/-- `deleteheader :contains "X-A" "spam"` on three `X-A` values. -/
theorem deleteheader_by_value_refines_store_sample :
    let m := { newMatcherTest with matchType := .contains, key := [lit "spam"] }
    let d := newRuntimeData ⟨[lit "editheader"], defaultOptions⟩ dummyPolicy ⟨[], [], []⟩
      (messageStatic [(lit "X-A", lit "a spam"), (lit "X-A", lit "ham"), (lit "X-A", lit "spam b")] 0)
    ∃ d', deleteHeaderExecute sampleLib m (lit "X-A") [lit "spam"] 0 false d = .ok d' ∧
      d'.headerGet sampleLib.case (expandVars d (lit "X-A")) =
        .ok (deleteSelected (m.selects sampleLib d) [lit "a spam", lit "ham", lit "spam b"] 0 false) := by
  intro m d
  exact deleteheader_by_value_refines_store sampleLib m d _ _ 0 false (by decide) (by decide)
    (List.cons_ne_nil _ _) (by decide) rfl (fun _ _ _ => rfl) (fun _ h => nomatch h) rfl
    (fun _ v hv _ hnil => (by decide : ([] : Bytes) ∉ [lit "a spam", lit "ham", lit "spam b"])
      (hnil ▸ hv))

example : deleteSelected ({ newMatcherTest with matchType := .contains, key := [lit "spam"] }.selects
    sampleLib (newRuntimeData ⟨[lit "editheader"], defaultOptions⟩ dummyPolicy ⟨[], [], []⟩
      (messageStatic [] 0))) [lit "a spam", lit "ham", lit "spam b"] 0 false = [lit "ham"] := by
  decide

/-- Without `:index`, on a field that no earlier edit names, an empty value the matcher selects
is journaled as a delete by the value `""`, which the replay reads as a delete of every value:
the command leaves the field with no value at all, selected or not. -/
theorem deleteheader_selected_empty_value_deletes_all (L : Lib) (m : MatcherTest) (d : RuntimeData)
    (f : Bytes) (pats : List Bytes) (last : Bool) {vs : List Bytes}
    (hf : isValidHeaderName (expandVars d f) = true)
    (hp : isProtectedHeader L.case (expandVars d f) = false) (hpats : pats ≠ [])
    (hset : m.matchType ≠ .unset) (hm : m.isCount = false)
    (hk : ∀ mv, ∀ k ∈ m.key, expandVars { d with matchVariables := mv } k = expandVars d k)
    (hj : ∀ e ∈ d.headerEdits, equalFold L.case e.fieldName (expandVars d f) = false)
    (hv : d.msg.headerGet (expandVars d f) = .ok vs) (hempty : [] ∈ vs)
    (hsel : m.selects L d [] = true) :
    ∃ d', deleteHeaderExecute L m f pats 0 last d = .ok d' ∧
      d'.headerGet L.case (expandVars d f) = .ok [] := by
  obtain ⟨mv', h⟩ := deleteHeaderExecute_of_unnamed L m d f pats hf hp hpats hset hm hk hj hv last
  refine ⟨_, h, ?_⟩
  rw [headerGet_of_unnamed_append L.case d mv' _ hj hv,
    applyHeaderEditsToValues_byValueDelete_of_empty L.case (equalFold_self L.case _) _
      (List.mem_filter.mpr ⟨hempty, hsel⟩)]

/-- `deleteheader :is "X-A" ""` on an empty `X-A` value and the value `keep` deletes both. -/
theorem deleteheader_selected_empty_value_deletes_all_sample :
    let m := { newMatcherTest with key := [[]] }
    let d := newRuntimeData ⟨[lit "editheader"], defaultOptions⟩ dummyPolicy ⟨[], [], []⟩
      (messageStatic [(lit "X-A", []), (lit "X-A", lit "keep")] 0)
    ∃ d', deleteHeaderExecute sampleLib m (lit "X-A") [[]] 0 false d = .ok d' ∧
      d'.headerGet sampleLib.case (expandVars d (lit "X-A")) = .ok [] := by
  intro m d
  exact deleteheader_selected_empty_value_deletes_all sampleLib m d _ _ false (by decide)
    (by decide) (List.cons_ne_nil _ _) (by decide) rfl (fun _ _ _ => rfl) (fun _ h => nomatch h)
    rfl (by decide) (by decide)

end GoSieve
