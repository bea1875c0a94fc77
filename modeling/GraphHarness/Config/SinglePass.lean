import GraphHarness.Config.Delimited
import GraphHarness.Config.Grammar

/-!
# One pass from left to right

What the byte offsets of `find_variables` and the slices of `resolve_string` come to: the
text is cut at its delimited expressions once, and each is replaced where it stands.

> `single_pass` — the spans that are found, when a text resolves, what to, and what is
> reported if it does not.

The chain is: the scan walks through the pieces (`scans_findVariables`), so what it finds are
their spans in bytes (`findVariables_eq`); the loop of `resolve_string` keeps, as its
invariant, that the text written so far is that of the pieces behind it
(`resolveFrom_eq`), and at the end the rest of the text is copied (`pending_lit`).

Bytes and characters are kept apart: `utf8Len` is the length in bytes, and a slice at a
length in bytes is a cut of the list of characters (`splitAtByte_append`). The source would
panic on an offset inside a character; the offsets it uses are ends of pieces, so this
never happens.
-/

namespace GraphHarness.Resolver

open Template (Segment)

/-! ## The loop -/

/-- What is reported for an expression that spans the bytes from `start` to `stop`. -/
def located (start stop : Nat) : Except ConfigError Variable → Found
  | .ok var => .ok (start, stop, var)
  | .error e => .error e

/-- A run of the loop of `find_variables` on `remaining`, which begins at byte `pos`, to
its end. -/
inductive Scans : List Char → Nat → List Found → Prop
  | done (pos : Nat) : Scans [] pos []
  | noOpening {remaining : List Char} {pos : Nat} (hne : remaining ≠ [])
    (hfind : Nom.find "$\x7b".toList remaining = none) : Scans remaining pos []
  | item {remaining before found rest : List Char} {pos start stop : Nat}
    {result : Except ConfigError Variable} {items : List Found}
    (hfind : Nom.find "$\x7b".toList remaining = some (before, found))
    (hparse : parseVariable found = some (rest, result)) (hstart : start = pos + utf8Len before)
    (hstop : stop = start + (utf8Len found - utf8Len rest)) (hrest : Scans rest stop items) :
    Scans remaining pos (located start stop result :: items)
  | unterminated {remaining before found : List Char} {pos : Nat} {items : List Found}
    (hfind : Nom.find "$\x7b".toList remaining = some (before, found))
    (hparse : parseVariable found = none)
    (hrest : Scans (found.drop 2) (pos + utf8Len before + 2) items) : Scans remaining pos items

/-- What follows an opening is parsed up to the first closing brace, if there is one. -/
theorem parseVariable_cases {found : List Char} (h : "$\x7b".toList <+: found) :
    (∃ expr rest result, found = delimited expr ++ rest ∧ '\x7d' ∉ expr ∧
      parseVariableExpr expr = some ([], result) ∧ parseVariable found = some (rest, result)) ∨
    ∃ text, found = "$\x7b".toList ++ text ∧ '\x7d' ∉ text ∧ parseVariable found = none := by
  obtain ⟨text, rfl⟩ := h
  by_cases hclosing : '\x7d' ∈ text
  · obtain ⟨rest, hrest⟩ := takeWhile_closing hclosing
    obtain ⟨result, hexpr, hparse⟩ := parseVariable_eq (notMem_takeWhile '\x7d' text) rest
    have hfound : "$\x7b".toList ++ text = delimited (text.takeWhile (· != '\x7d')) ++ rest := by
      rw [delimited, List.append_assoc, List.append_assoc]
      exact congrArg ("$\x7b".toList ++ ·) hrest
    refine .inl ⟨_, rest, result, hfound, notMem_takeWhile '\x7d' text, hexpr, ?_⟩
    rw [hfound]
    exact hparse
  · refine .inr ⟨text, rfl, hclosing, ?_⟩
    have hnone : Nom.takeUntil "\x7d".toList text = none := Nom.takeUntil_singleton_none hclosing
    rw [parseVariable, Nom.tag_append]
    dsimp only
    rw [hnone]

/-- The loop ends after fewer rounds than there are characters. -/
theorem scans_findVariablesFrom : ∀ (rounds : Nat) (remaining : List Char) (pos : Nat),
    remaining.length < rounds → Scans remaining pos (findVariablesFrom rounds remaining pos) := by
  intro rounds
  induction rounds with
  | zero =>
    intro remaining pos h
    omega
  | succ rounds ih =>
    intro remaining pos h
    rw [findVariablesFrom]
    split
    next hempty =>
      rw [hempty]
      exact .done pos
    next hne =>
      split
      next hfind => exact .noOpening hne hfind
      next before found hfind =>
        obtain ⟨hremaining, hopen⟩ := Nom.find_append hfind
        have hlength := congrArg List.length hremaining
        rw [List.length_append] at hlength
        rcases parseVariable_cases hopen with ⟨expr, rest, result, hfound, _, _, hparse⟩ |
          ⟨text, hfound, _, hparse⟩
        · have hshort := congrArg List.length hfound
          rw [delimited, List.length_append, List.length_append, List.length_append] at hshort
          have htwo : ("$\x7b".toList).length = 2 := rfl
          rw [hparse]
          cases result with
          | ok var => exact .item hfind hparse rfl rfl (ih rest _ (by omega))
          | error e => exact .item hfind hparse rfl rfl (ih rest _ (by omega))
        · have hshort := congrArg List.length hfound
          rw [List.length_append] at hshort
          have htwo : ("$\x7b".toList).length = 2 := rfl
          rw [hparse]
          refine .unterminated hfind hparse (ih _ _ ?_)
          rw [List.length_drop]
          omega

/-! ## The spans -/

/-- The expressions of a text that begins at byte `pos`, each with its first byte and the
one behind it. -/
def spans : Nat → List (Segment Char (List Char)) → List (Nat × Nat × List Char)
  | _, [] => []
  | pos, .lit c :: segs => spans (pos + c.utf8Size) segs
  | pos, .hit text expr :: segs =>
    (pos, pos + utf8Len text, expr) :: spans (pos + utf8Len text) segs

/-- What the parser makes of an expression. -/
def parsed (expr : List Char) : Except ConfigError Variable :=
  match parseVariableExpr expr with
  | some (_, result) => result
  | none => .error (failedExpression expr)

/-- What an expression is parsed as. -/
theorem parsed_eq {expr : List Char} {result : Except ConfigError Variable}
    (h : parseVariableExpr expr = some ([], result)) : parsed expr = result := by
  rw [parsed, h]

/-- The items of `find_variables` for the expressions. -/
def report (found : List (Nat × Nat × List Char)) : List Found :=
  found.map fun span => located span.1 span.2.1 (parsed span.2.2)

/-- Literal text has no spans and moves those behind it. -/
theorem spans_map_lit (text : List Char) : ∀ (pos : Nat) (segs : List (Segment Char (List Char))),
    spans pos (text.map .lit ++ segs) = spans (pos + utf8Len text) segs := by
  induction text with
  | nil =>
    intro pos segs
    rfl
  | cons c text ih =>
    intro pos segs
    rw [List.map_cons, List.cons_append, spans, ih, utf8Len, Nat.add_assoc]

/-- Literal text at the end changes no span. -/
theorem spans_append_lit (text : List Char) (segs : List (Segment Char (List Char))) :
    ∀ pos : Nat, spans pos (segs ++ text.map .lit) = spans pos segs := by
  induction segs with
  | nil =>
    intro pos
    have hlits := spans_map_lit text pos []
    rwa [List.append_nil] at hlits
  | cons seg segs ih =>
    intro pos
    cases seg with
    | lit c => exact ih _
    | hit text' expr => exact congrArg ((pos, pos + utf8Len text', expr) :: ·) (ih _)

/-- However the loop runs, it reports the expressions of the text. -/
theorem Scans.eq {remaining : List Char} {pos : Nat} {items : List Found}
    (h : Scans remaining pos items) : items = report (spans pos (pieces remaining)) := by
  induction h with
  | done pos => rfl
  | @noOpening remaining pos hne hfind =>
    rw [pieces_find_none hfind, ← List.append_nil (remaining.map _), spans_map_lit]
    rfl
  | @item remaining before found rest pos start stop result items hfind hparse hstart hstop
      _ ih =>
    rcases parseVariable_cases (Nom.find_append hfind).2 with
      ⟨expr, rest', result', rfl, hclosing, hexpr, hparse'⟩ | ⟨text, _, _, hnone⟩
    · obtain ⟨rfl, rfl⟩ : rest' = rest ∧ result' = result := by
        simpa using hparse'.symm.trans hparse
      rw [utf8Len_append, Nat.add_sub_cancel] at hstop
      rw [pieces_find hfind, spans_map_lit, pieces_delimited hclosing, spans, ← hstart, ← hstop]
      rw [report, List.map_cons, parsed_eq hexpr, ih]
      rfl
    · rw [hnone] at hparse
      cases hparse
  | @unterminated remaining before found pos items hfind hparse _ ih =>
    rcases parseVariable_cases (Nom.find_append hfind).2 with
      ⟨expr, rest, result, _, _, _, hparse'⟩ | ⟨text, rfl, hclosing, _⟩
    · rw [hparse] at hparse'
      cases hparse'
    · rw [pieces_find hfind, spans_map_lit, pieces_open hclosing, spans_map_lit]
      exact ih

/-- The search walks through the string. -/
theorem scans_findVariables (input : String) : Scans input.toList 0 (findVariables input) :=
  scans_findVariablesFrom _ _ _ (Nat.lt_succ_self _)

/-- The search reports the spans of the pieces. -/
theorem findVariables_eq (input : String) :
    findVariables input = report (spans 0 (pieces input.toList)) := (scans_findVariables input).eq

/-- An expression begins where the text before it ends. -/
theorem mem_spans {text : List Char} : ∀ {pos start stop : Nat} {expr : List Char},
    (start, stop, expr) ∈ spans pos (pieces text) →
    ∃ before after, text = before ++ delimited expr ++ after ∧ '\x7d' ∉ expr ∧
      start = pos + utf8Len before ∧ stop = pos + utf8Len (before ++ delimited expr) := by
  induction text using Template.segments_induction delimitedPattern with
  | nil =>
    intro pos start stop expr h
    cases h
  | lit c text hmatch ih =>
    intro pos start stop expr h
    rw [pieces_lit hmatch, spans] at h
    obtain ⟨before, after, rfl, hclosing, rfl, rfl⟩ := ih h
    refine ⟨c :: before, after, rfl, hclosing, ?_, ?_⟩
    · rw [utf8Len, Nat.add_assoc]
    · rw [List.cons_append, utf8Len, Nat.add_assoc]
  | hit matched expr rest hmatch _ ih =>
    intro pos start stop expr' h
    obtain ⟨rfl, hclosing, _⟩ := delimitedAt_some hmatch
    rw [pieces_delimited hclosing, spans, List.mem_cons] at h
    rcases h with heq | h
    · obtain ⟨rfl, rfl, rfl⟩ : start = pos ∧ stop = pos + utf8Len (delimited expr) ∧
          expr' = expr := by simpa using heq
      exact ⟨[], rest, rfl, hclosing, rfl, rfl⟩
    · obtain ⟨before, after, rfl, hclosing', rfl, rfl⟩ := ih h
      refine ⟨delimited expr ++ before, after, by simp, hclosing', ?_, ?_⟩
      · rw [utf8Len_append, Nat.add_assoc]
      · rw [List.append_assoc, utf8Len_append (delimited expr), Nat.add_assoc]

/-- A span does not begin before the text. -/
theorem le_of_mem_spans {segs : List (Segment Char (List Char))} {pos : Nat}
    {span : Nat × Nat × List Char} (h : span ∈ spans pos segs) : pos ≤ span.1 := by
  induction segs generalizing pos with
  | nil => cases h
  | cons seg segs ih =>
    cases seg with
    | lit c =>
      have hle := ih h
      omega
    | hit text expr =>
      rcases List.mem_cons.mp h with rfl | h
      · exact Nat.le_refl _
      · have hle := ih h
        omega

/-- Each span ends before the next one begins. -/
theorem spans_ordered (segs : List (Segment Char (List Char))) : ∀ pos : Nat,
    (spans pos segs).Pairwise fun span later => span.2.1 ≤ later.1 := by
  induction segs with
  | nil =>
    intro pos
    exact List.Pairwise.nil
  | cons seg segs ih =>
    intro pos
    cases seg with
    | lit c => exact ih _
    | hit text expr => exact List.pairwise_cons.mpr ⟨fun later h => le_of_mem_spans h, ih _⟩

/-! ## Resolution -/

/-- The value of a variable: the context's, else the process's, else the default; or what
the context knows of the service. -/
def valueOf (processEnv : HashMap String String) (context : ResolutionContext) :
    Variable → Option String
  | .envVar name default =>
    (context.envVars.lookup name).or ((processEnv.lookup name).or default)
  | .serviceRef service property =>
    if property = "ip" then context.serviceIps.lookup service
    else if property = "host" then context.serviceHosts.lookup service
    else if property = "port" then
      (context.servicePorts.lookup service).map (fun port => Nat.repr port.toNat)
    else none

/-- The name a variable is reported under. -/
def Variable.reported : Variable → String
  | .envVar name _ => name
  | .serviceRef service property => service ++ "." ++ property

/-- The value of a variable, or the report of it. -/
theorem resolveVariable_eq (processEnv : HashMap String String) (context : ResolutionContext)
    (var : Variable) : resolveVariable processEnv context var =
      match valueOf processEnv context var with
      | some value => .ok value
      | none => .error var.reported := by
  cases var with
  | envVar name default =>
    unfold resolveVariable valueOf
    dsimp only
    cases context.envVars.lookup name with
    | some value => rfl
    | none =>
      cases processEnv.lookup name with
      | some value => rfl
      | none =>
        cases default with
        | some value => rfl
        | none => rfl
  | serviceRef service property => rfl

section Resolve

variable (processEnv : HashMap String String) (context : ResolutionContext)

/-- The text an expression is replaced by. -/
def replacement (expr : List Char) : List Char :=
  match parsed expr with
  | .ok var => ((valueOf processEnv context var).getD "").toList
  | .error _ => []

/-- The name that an expression without a value is reported under. -/
def unresolved (expr : List Char) : Option String :=
  match parsed expr with
  | .ok var => if valueOf processEnv context var = none then some var.reported else none
  | .error _ => none

/-- The text with every expression replaced. -/
def replaceAll (segs : List (Segment Char (List Char))) : List Char :=
  Template.substitute (fun _ expr => replacement processEnv context expr) segs

/-- The names of the expressions without a value, from left to right. -/
def unresolvedNames (segs : List (Segment Char (List Char))) : List String :=
  (Template.hits segs).filterMap fun found => unresolved processEnv context found.2

/-- Splitting at the length in bytes of the first part. -/
theorem splitAtByte_append (before behind : List Char) :
    splitAtByte (utf8Len before) (before ++ behind) = (before, behind) := by
  induction before with
  | nil =>
    cases behind with
    | nil => rfl
    | cons c behind => exact if_pos (Char.utf8Size_pos c)
  | cons c before ih =>
    rw [List.cons_append, splitAtByte, utf8Len, if_neg (by omega), Nat.add_sub_cancel_left, ih]

/-- The part of a string between two lengths in bytes. -/
theorem slice_append (done pending rest : List Char) :
    slice (done ++ pending ++ rest) (utf8Len done) (utf8Len (done ++ pending)) = pending := by
  rw [slice, sliceFrom, List.append_assoc, splitAtByte_append, utf8Len_append,
    Nat.add_sub_cancel_left, splitAtByte_append]

section Hit

variable {processEnv context} {text expr : List Char} {var : Variable}
  (hvar : parsed expr = .ok var)

include hvar

/-- A reference with a value is not among the unresolved. -/
theorem unresolvedNames_some {value : String} (hvalue : valueOf processEnv context var = some value)
    (segs : List (Segment Char (List Char))) :
    unresolvedNames processEnv context (.hit text expr :: segs) =
      unresolvedNames processEnv context segs := by
  simp [unresolvedNames, unresolved, hvar, hvalue]

/-- A reference without a value is the first of the unresolved. -/
theorem unresolvedNames_none (hvalue : valueOf processEnv context var = none)
    (segs : List (Segment Char (List Char))) :
    unresolvedNames processEnv context (.hit text expr :: segs) =
      var.reported :: unresolvedNames processEnv context segs := by
  simp [unresolvedNames, unresolved, hvar, hvalue]

/-- A reference with a value is replaced by it. -/
theorem replaceAll_some {value : String} (hvalue : valueOf processEnv context var = some value)
    (segs : List (Segment Char (List Char))) :
    replaceAll processEnv context (.hit text expr :: segs) =
      value.toList ++ replaceAll processEnv context segs := by
  simp [replaceAll, replacement, hvar, hvalue]

/-- A round of the loop: `pending` is copied, and the expression resolved or its name kept. -/
theorem resolveFrom_hit (done pending rest : List Char) (vars : List Found) (result : String)
    (errors : List String) :
    resolveFrom processEnv context (done ++ pending ++ (text ++ rest))
      (located (utf8Len (done ++ pending)) (utf8Len (done ++ pending) + utf8Len text)
        (parsed expr) :: vars) result (utf8Len done) errors =
      match valueOf processEnv context var with
      | some value => resolveFrom processEnv context (done ++ pending ++ text ++ rest) vars
          (result ++ String.ofList pending ++ value) (utf8Len (done ++ pending ++ text)) errors
      | none => resolveFrom processEnv context (done ++ pending ++ text ++ rest) vars
          (result ++ String.ofList pending) (utf8Len (done ++ pending ++ text))
          (errors ++ [var.reported]) := by
  have hslice : slice (done ++ pending ++ (text ++ rest)) (utf8Len done)
      (utf8Len (done ++ pending)) = pending := slice_append _ _ _
  rw [hvar, located, resolveFrom, hslice, resolveVariable_eq, ← utf8Len_append,
    ← List.append_assoc (done ++ pending)]
  cases valueOf processEnv context var with
  | none => rfl
  | some value => rfl

end Hit

/-- A character between expressions is pending until the next one. -/
theorem pending_lit (result : String) (pending : List Char) (c : Char)
    (segs : List (Segment Char (List Char))) :
    result ++ String.ofList (pending ++ [c]) ++ String.ofList (replaceAll processEnv context segs) =
      result ++ String.ofList pending ++
        String.ofList (replaceAll processEnv context (.lit c :: segs)) := by
  rw [String.ofList_append, String.append_assoc, String.append_assoc, String.append_assoc,
    ← String.ofList_append]
  rfl

/-- The loop of `resolve_string` in the middle of a text: `done` has been copied, `pending`
stands between the last expression and the next. -/
theorem resolveFrom_eq : ∀ (segs : List (Segment Char (List Char)))
    (done pending : List Char) (result : String) (errors : List String),
    (∀ found ∈ Template.hits segs, ∃ var, parsed found.2 = .ok var) →
    resolveFrom processEnv context
      (done ++ pending ++ Template.substitute (fun text _ => text) segs)
      (report (spans (utf8Len (done ++ pending)) segs)) result (utf8Len done) errors =
    if errors ++ unresolvedNames processEnv context segs = [] then
      .ok (result ++ String.ofList pending ++
        String.ofList (replaceAll processEnv context segs))
    else
      .error (.envVarNotFound (", ".intercalate
        (errors ++ unresolvedNames processEnv context segs))) := by
  -- by induction on the pieces; what is pending has been read and not been written yet
  intro segs
  induction segs with
  | nil =>
    intro done pending result errors _
    have hrest : sliceFrom (done ++ pending) (utf8Len done) = pending := by
      rw [sliceFrom, splitAtByte_append]
    show resolveFrom processEnv context (done ++ pending ++ []) [] result (utf8Len done) errors =
      if errors ++ [] = [] then .ok (result ++ String.ofList pending ++ String.ofList [])
      else .error (.envVarNotFound (", ".intercalate (errors ++ [])))
    rw [List.append_nil, List.append_nil, resolveFrom, hrest, String.ofList_nil,
      String.append_empty]
  | cons seg segs ih =>
    intro done pending result errors hparsed
    cases seg with
    -- a literal character is pending
    | lit c =>
      have hnext := ih done (pending ++ [c]) result errors hparsed
      rw [← List.append_assoc done, List.append_assoc (done ++ pending),
        utf8Len_append _ [c]] at hnext
      rw [← pending_lit]
      exact hnext
    -- a hit writes what is pending, and then its value, if it has one
    | hit text expr =>
      obtain ⟨var, hvar⟩ := hparsed (text, expr) List.mem_cons_self
      have hparsed' : ∀ found ∈ Template.hits segs, ∃ var, parsed found.2 = .ok var :=
        fun found hmem => hparsed found (List.mem_cons_of_mem _ hmem)
      have hnext := ih (done ++ pending ++ text) []
      rw [List.append_nil, utf8Len_append _ text] at hnext
      rw [Template.substitute_hit, spans, report, List.map_cons, ← report, resolveFrom_hit hvar]
      cases hvalue : valueOf processEnv context var with
      | some value =>
        dsimp only
        rw [utf8Len_append _ text, hnext _ errors hparsed', unresolvedNames_some hvar hvalue,
          replaceAll_some hvar hvalue, String.ofList_append, String.ofList_toList,
          String.ofList_nil, String.append_empty, String.append_assoc]
      | none =>
        dsimp only
        rw [utf8Len_append _ text, hnext _ (errors ++ [var.reported]) hparsed',
          unresolvedNames_none hvar hvalue, List.append_assoc, List.singleton_append,
          if_neg (by simp), if_neg (by simp)]

/-- Every expression of the text is well formed. -/
def WellFormed (text : List Char) : Prop := ∀ expr ∈ expressions text, ∃ var, parsed expr = .ok var

variable {processEnv context}

/-- A well-formed string: all replaced at once, or all unresolved names reported. -/
theorem resolveString_wellFormed {input : String} (h : WellFormed input.toList) :
    resolveString processEnv context input =
      if unresolvedNames processEnv context (pieces input.toList) = [] then
        .ok (String.ofList (replaceAll processEnv context (pieces input.toList)))
      else
        .error (.envVarNotFound (", ".intercalate
          (unresolvedNames processEnv context (pieces input.toList)))) := by
  have hwhole := resolveFrom_eq processEnv context (pieces input.toList) [] [] "" []
    fun found hmem => h found.2 (List.mem_map_of_mem hmem)
  rw [pieces, Template.substitute_segments] at hwhole
  rw [resolveString, findVariables_eq]
  refine hwhole.trans ?_
  rw [String.ofList_nil, String.append_empty, String.empty_append]
  rfl

/-- The expressions are those of the spans. -/
theorem expressions_eq (text : List Char) (pos : Nat) :
    expressions text = (spans pos (pieces text)).map fun span => span.2.2 := by
  unfold expressions
  induction pieces text generalizing pos with
  | nil => rfl
  | cons seg segs ih =>
    cases seg with
    | lit c => exact ih _
    | hit text expr => exact congrArg (expr :: ·) (ih _)

/-- Each expression is found by the search. -/
theorem mem_findVariables {input : String} {expr : List Char}
    (h : expr ∈ expressions input.toList) :
    ∃ start stop, located start stop (parsed expr) ∈ findVariables input := by
  rw [expressions_eq _ 0] at h
  obtain ⟨span, hspan, rfl⟩ := List.mem_map.mp h
  exact ⟨span.1, span.2.1, findVariables_eq input ▸ List.mem_map_of_mem hspan⟩

/-- A text that resolves is well formed. -/
theorem wellFormed_of_ok {input s : String} (h : resolveString processEnv context input = .ok s) :
    WellFormed input.toList := by
  intro expr hexpr
  obtain ⟨start, stop, hitem⟩ := mem_findVariables hexpr
  obtain ⟨_, _, var, _, hlocated, _⟩ :=
    (resolveString_ok_iff processEnv context input).mp ⟨s, h⟩ _ hitem
  cases hparsed : parsed expr with
  | ok var' => exact ⟨var', rfl⟩
  | error e =>
    rw [hparsed] at hlocated
    cases hlocated

/-- Nothing is unresolved if and only if each expression has a value. -/
theorem unresolvedNames_nil_iff {text : List Char} (h : WellFormed text) :
    unresolvedNames processEnv context (pieces text) = [] ↔
      ∀ expr ∈ expressions text, ∃ var value, parsed expr = .ok var ∧
        valueOf processEnv context var = some value := by
  rw [unresolvedNames, List.filterMap_eq_nil_iff]
  constructor
  · intro hnone expr hexpr
    obtain ⟨var, hvar⟩ := h expr hexpr
    obtain ⟨found, hfound, rfl⟩ := List.mem_map.mp hexpr
    have hresolved := hnone found hfound
    cases hvalue : valueOf processEnv context var with
    | some value => exact ⟨var, value, hvar, hvalue⟩
    | none => simp [unresolved, hvar, hvalue] at hresolved
  · intro hall found hfound
    obtain ⟨var, value, hvar, hvalue⟩ := hall found.2 (List.mem_map_of_mem hfound)
    simp [unresolved, hvar, hvalue]

/-- When a text resolves, and what to. -/
theorem resolveString_iff {input s : String} :
    resolveString processEnv context input = .ok s ↔
      (∀ expr ∈ expressions input.toList, ∃ var value, parsed expr = .ok var ∧
        valueOf processEnv context var = some value) ∧
      s.toList = replaceAll processEnv context (pieces input.toList) := by
  constructor
  · intro h
    have hwell := wellFormed_of_ok h
    rw [resolveString_wellFormed hwell] at h
    split at h
    next hnone =>
      obtain rfl := Except.ok.inj h
      exact ⟨(unresolvedNames_nil_iff hwell).mp hnone, String.toList_ofList⟩
    next => cases h
  · rintro ⟨hall, hs⟩
    have hwell : WellFormed input.toList := by
      intro expr hexpr
      obtain ⟨var, _, hvar, _⟩ := hall expr hexpr
      exact ⟨var, hvar⟩
    rw [resolveString_wellFormed hwell, if_pos ((unresolvedNames_nil_iff hwell).mpr hall), ← hs,
      String.ofList_toList]

/-- What stands behind the last closing brace is copied, openings and all. -/
theorem resolveString_open {before after : List Char} (h : '\x7d' ∉ after) {s : String}
    (hbefore : resolveString processEnv context (String.ofList before) = .ok s) :
    resolveString processEnv context (String.ofList (before ++ after)) =
      .ok (s ++ String.ofList after) := by
  rw [resolveString_iff, String.toList_ofList] at hbefore ⊢
  have hpieces := pieces_append_open before h
  refine ⟨?_, ?_⟩
  · have hsame : expressions (before ++ after) = expressions before := by
      rw [expressions, hpieces, Template.hits_append, Template.hits_map_lit, List.append_nil]
      rfl
    rw [hsame]
    exact hbefore.1
  · rw [hpieces, replaceAll, Template.substitute_append, Template.substitute_map_lit,
      String.toList_append, hbefore.2, String.toList_ofList]
    rfl

end Resolve

/-- The spans that are found lie on the delimited expressions of the text, from the opening
to the first closing brace behind it, one after the other. -/
structure SpansExpressions (input : String) (items : List Found) : Prop where
  delimits : ∀ start stop var, .ok (start, stop, var) ∈ items → ∃ before expr after,
    input.toList = before ++ delimited expr ++ after ∧ '\x7d' ∉ expr ∧
      start = utf8Len before ∧ stop = utf8Len (before ++ delimited expr) ∧ parsed expr = .ok var
  ordered : items.Pairwise fun item later => ∀ start stop var start' stop' var',
    item = .ok (start, stop, var) → later = .ok (start', stop', var') →
      start < stop ∧ stop ≤ start'

/-- A located item that was parsed. -/
theorem located_ok {start stop : Nat} {result : Except ConfigError Variable} {start' stop' : Nat}
    {var : Variable} (h : located start stop result = .ok (start', stop', var)) :
    start = start' ∧ stop = stop' ∧ result = .ok var := by
  cases result with
  | ok var' =>
    obtain ⟨rfl, rfl, rfl⟩ : start = start' ∧ stop = stop' ∧ var' = var := by
      simpa [located] using h
    exact ⟨rfl, rfl, rfl⟩
  | error e => cases h

/-- A span is not empty. -/
theorem lt_of_mem_spans {text : List Char} {pos : Nat} {span : Nat × Nat × List Char}
    (h : span ∈ spans pos (pieces text)) : span.1 < span.2.1 := by
  obtain ⟨before, after, _, _, hstart, hstop⟩ := mem_spans h
  have hopen : 0 < utf8Len "$\x7b".toList := by decide
  rw [hstart, hstop, utf8Len_append, delimited, utf8Len_append, utf8Len_append]
  omega

/-- The search reports each expression with its span. -/
theorem findVariables_spansExpressions (input : String) :
    SpansExpressions input (findVariables input) := by
  rw [findVariables_eq]
  refine ⟨?_, ?_⟩
  · intro start stop var hitem
    obtain ⟨⟨start', stop', expr⟩, hspan, hlocated⟩ := List.mem_map.mp hitem
    obtain ⟨rfl, rfl, hparsed⟩ := located_ok hlocated
    obtain ⟨before, after, htext, hclosing, hstart, hstop⟩ := mem_spans hspan
    rw [Nat.zero_add] at hstart hstop
    exact ⟨before, expr, after, htext, hclosing, hstart, hstop, hparsed⟩
  · rw [report, List.pairwise_map]
    refine (spans_ordered (pieces input.toList) 0).imp_of_mem ?_
    intro span later hspan _ hordered start stop var start' stop' var' hitem hlater
    obtain ⟨rfl, rfl, _⟩ := located_ok hitem
    obtain ⟨rfl, rfl, _⟩ := located_ok hlater
    exact ⟨lt_of_mem_spans hspan, hordered⟩

/-- **One pass.** The scan ends and its spans are the delimited expressions, in order. An
opening without a closing brace is text. A text resolves exactly when each of its
expressions is well formed and has a value, to the text with each of them replaced by that
value; and if they are well formed, the names of those without a value are reported in
order. -/
theorem single_pass (processEnv : HashMap String String) (context : ResolutionContext)
    (input : String) :
    Scans input.toList 0 (findVariables input) ∧
    SpansExpressions input (findVariables input) ∧
    (∀ before after, input.toList = before ++ "$\x7b".toList ++ after → '\x7d' ∉ after →
      findVariables input = findVariables (String.ofList before) ∧
      ∀ s, resolveString processEnv context (String.ofList before) = .ok s →
        resolveString processEnv context input =
          .ok (s ++ String.ofList ("$\x7b".toList ++ after))) ∧
    (∀ s, resolveString processEnv context input = .ok s ↔
      (∀ expr ∈ expressions input.toList, ∃ var value, parsed expr = .ok var ∧
        valueOf processEnv context var = some value) ∧
      s.toList = replaceAll processEnv context (pieces input.toList)) ∧
    (WellFormed input.toList → unresolvedNames processEnv context (pieces input.toList) ≠ [] →
      resolveString processEnv context input = .error (.envVarNotFound (", ".intercalate
        (unresolvedNames processEnv context (pieces input.toList))))) := by
  refine ⟨scans_findVariables input, findVariables_spansExpressions input, ?_,
    fun s => resolveString_iff, ?_⟩
  · intro before after hinput hclosing
    have htail : '\x7d' ∉ "$\x7b".toList ++ after := by
      rw [List.mem_append, not_or]
      exact ⟨by decide, hclosing⟩
    rw [List.append_assoc] at hinput
    generalize "$\x7b".toList ++ after = tail at *
    obtain rfl : String.ofList (before ++ tail) = input := by
      rw [← hinput, String.ofList_toList]
    refine ⟨?_, fun s hs => resolveString_open htail hs⟩
    rw [findVariables_eq, findVariables_eq, String.toList_ofList, String.toList_ofList,
      pieces_append_open before htail, spans_append_lit]
  · intro hwell hnames
    rw [resolveString_wellFormed hwell, if_neg hnames]

end GraphHarness.Resolver
