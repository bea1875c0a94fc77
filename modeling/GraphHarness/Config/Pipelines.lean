import GraphHarness.Config.Simultaneous
import GraphHarness.Config.SinglePass

/-!
# The two pipelines

`process_service_env` substitutes variables and then service references;
`resolve_service_env` resolves both in one pass.

> `pipelines_agree` — on the documented forms they agree **where the first pass keeps to the
> variables**: an ip reference is a variable to it, and what it has substituted can be
> substituted again.

Where a reference to an address stands in a text, the first pass of `process_service_env`
looks for a variable of the name `service.ip` and fails, unless the process has one; the
second pass never gets to it. So the two pipelines are compared on the texts that the first
one gets through (`Documented`, `Provided`).

The proof goes over the pieces of a text. `grouped` takes the pieces of `delimited` to those
that the regular expression finds; the value of each is the same in both
(`envVarValue_documented`). `KeptApart` says that every match is replaced in its own place
and that the values bring no reference. `reference_disagrees` is a text on which the two
pipelines differ.
-/

namespace GraphHarness.Parser

open Template (Segment segments hits substitute replaceEach FoundInPlace)
open Resolver (Denotes DottedDefault IsEnvVarName IsServiceName ResolutionContext delimited
  delimitedAt delimitedPattern pieces expressions parsed valueOf replacement replaceAll
  resolveEntries resolveServiceEnv resolveString)

/-- `NAME`, `NAME:-default` without a dot in the default, or `service.ip`. -/
def Documented (expr : List Char) : Prop :=
  ∃ var, Denotes expr var ∧ ¬ DottedDefault expr ∧
    ∀ target property, var = .serviceRef target property → property = "ip"

/-- A text of documented expressions that all have a value. -/
structure Provided (context : ResolutionContext) (text : List Char) : Prop where
  documented : ∀ expr ∈ expressions text, Documented expr
  set : ∀ name ∈ expressions text, IsEnvVarName name → String.ofList name ∈ context.envVars
  known : ∀ target, target ++ ".ip".toList ∈ expressions text →
    String.ofList target ∈ context.serviceIps

/-- No value holds an opening. -/
def NoOpening (values : HashMap String String) : Prop :=
  ∀ name value, values.lookup name = some value → ¬ "$\x7b".toList <:+: value.toList

/-- The inputs both pipelines are meant for. -/
structure TemplateInput (context : ResolutionContext) (service : Service) : Prop where
  provided : ∀ entry ∈ service.env.entries, Provided context entry.2.toList
  envVars : NoOpening context.envVars
  serviceIps : NoOpening context.serviceIps

/-- Both pipelines return the same map. -/
def PipelinesAgree (context : ResolutionContext) (service : Service) : Prop :=
  ∃ env, processServiceEnv context.envVars service context.serviceIps = .ok env ∧
    resolveServiceEnv context.envVars service context = .ok env

/-! ## The expressions as the first pattern finds them -/

/-- A delimited expression as the match with its group. -/
def grouped : Segment Char (List Char) → Segment Char (List (List Char))
  | .lit c => .lit c
  | .hit text expr => .hit text [expr]

/-- Where no expression is empty, the regular expression matches the delimited expressions. -/
theorem segments_envVarRegex {text : List Char} (h : ∀ expr ∈ expressions text, expr ≠ []) :
    segments envVarRegex text = (pieces text).map grouped := by
  induction text using Template.segments_induction delimitedPattern with
  | nil => rfl
  | lit c text hmatch ih =>
    have hnone : envVarRegex.matchAt (c :: text) = none := by
      cases hsome : envVarRegex.matchAt (c :: text) with
      | none => rfl
      | some found =>
        obtain ⟨matched, groups⟩ := found
        obtain ⟨expr, rest, _, hclosing, rfl, _, htext⟩ := envVarRegex_iff.mp hsome
        have hdelimited : delimitedAt (c :: text) = none := hmatch
        rw [htext, Resolver.delimitedAt_delimited hclosing] at hdelimited
        cases hdelimited
    have hpieces : pieces (c :: text) = .lit c :: pieces text := Resolver.pieces_lit hmatch
    rw [expressions, hpieces] at h
    rw [Template.segments_lit _ hnone, hpieces, ih h]
    rfl
  | hit matched expr rest hmatch _ ih =>
    obtain ⟨rfl, hclosing, _⟩ := Resolver.delimitedAt_some hmatch
    have hpieces := Resolver.pieces_delimited hclosing rest
    rw [expressions, hpieces, Template.hits_hit, List.map_cons, List.forall_mem_cons] at h
    have hsome : envVarRegex.matchAt (delimited expr ++ rest) = some (delimited expr, [expr]) :=
      envVarRegex_iff.mpr ⟨expr, rest, h.1, hclosing, rfl, rfl, rfl⟩
    rw [Template.segments_append _ hsome, hpieces, ih h.2]
    rfl

/-- The matches, with their one group each. -/
theorem hits_grouped (segs : List (Segment Char (List Char))) :
    hits (segs.map grouped) = (hits segs).map fun found => (found.1, [found.2]) := by
  induction segs with
  | nil => rfl
  | cons seg segs ih =>
    cases seg with
    | lit c => exact ih
    | hit text expr => exact congrArg ((text, [expr]) :: ·) ih

/-- The same texts in place of the same expressions. -/
theorem substitute_grouped {f : List Char → List (List Char) → List Char}
    {g : List Char → List Char} (segs : List (Segment Char (List Char)))
    (h : ∀ found ∈ hits segs, f found.1 [found.2] = g found.2) :
    substitute f (segs.map grouped) = substitute (fun _ expr => g expr) segs := by
  induction segs with
  | nil => rfl
  | cons seg segs ih =>
    cases seg with
    | lit c => exact congrArg (c :: ·) (ih h)
    | hit text expr =>
      rw [Template.hits_hit, List.forall_mem_cons] at h
      rw [List.map_cons, grouped, Template.substitute_hit, Template.substitute_hit, h.1, ih h.2]

/-! ## Their values -/

/-- The documented forms, each with what it is parsed as. -/
theorem documented_cases {expr : List Char} (h : Documented expr) :
    (IsEnvVarName expr ∧ parsed expr = .ok (.envVar (String.ofList expr) none)) ∨
    (∃ name default, IsEnvVarName name ∧ '.' ∉ default ∧
      expr = name ++ ":-".toList ++ default ∧
      parsed expr = .ok (.envVar (String.ofList name) (some (String.ofList default)))) ∨
    ∃ target, IsServiceName target ∧ expr = target ++ ".ip".toList ∧
      parsed expr = .ok (.serviceRef (String.ofList target) "ip") := by
  obtain ⟨var, hdenotes, hplain, hip⟩ := h
  have hparsed := Resolver.parsed_eq (Resolver.parseVariableExpr_ok_iff.mpr ⟨hdenotes, hplain⟩)
  cases hdenotes with
  | envVar hname => exact .inl ⟨hname, hparsed⟩
  | @withDefault name default hname =>
    exact .inr (.inl ⟨name, default, hname, fun hdot => hplain ⟨name, default, rfl, hname, hdot⟩,
      rfl, hparsed⟩)
  | @serviceRef target property htarget _ =>
    have hproperty := hip _ _ rfl
    rw [hproperty] at hparsed
    have hchars : property = "ip".toList := by
      rw [← hproperty, String.toList_ofList]
    refine .inr (.inr ⟨target, htarget, ?_, hparsed⟩)
    rw [hchars, List.append_assoc]
    rfl

/-- None of them is empty. -/
theorem documented_ne_nil {expr : List Char} (h : Documented expr) : expr ≠ [] := by
  rcases documented_cases h with ⟨hname, _⟩ | ⟨_, _, _, _, rfl, _⟩ | ⟨_, _, rfl, _⟩
  · rintro rfl
    obtain ⟨⟨c, hc, _⟩, _⟩ := hname
    cases hc
  · simp
  · simp

/-- With `.ip` at its end a documented expression is a reference. -/
theorem documented_reference {target : List Char} (h : Documented (target ++ ".ip".toList)) :
    IsServiceName target := by
  have hdot : '.' ∈ target ++ ".ip".toList := List.mem_append_right _ (by decide)
  rcases documented_cases h with ⟨hname, _⟩ | ⟨name, default, hname, hplain, heq, _⟩ |
    ⟨target', htarget, heq, _⟩
  · exact absurd hdot (Resolver.dot_notMem_envVarName hname)
  · rw [heq, List.mem_append, List.mem_append] at hdot
    rcases hdot with (hdot | hdot) | hdot
    · exact absurd hdot (Resolver.dot_notMem_envVarName hname)
    · exact absurd hdot (by decide)
    · exact absurd hdot hplain
  · rwa [List.append_cancel_right heq]

/-- The name of a variable has no colon. -/
theorem colon_notMem_envVarName {name : List Char} (h : IsEnvVarName name) : ':' ∉ name :=
  fun hmem => absurd (h.2 ':' hmem) (by decide)

/-- An expression without a default has the value of its variable, or none. -/
theorem envVarValue_plain (processEnv : HashMap String String) {expr : List Char}
    (h : ':' ∉ expr) : envVarValue processEnv expr =
      match processEnv.lookup (String.ofList expr) with
      | some value => .ok value.toList
      | none => .error (String.ofList expr) := by
  have hfind : Nom.find ":-".toList expr = none := Nom.find_cons_none ['-'] h
  unfold envVarValue
  generalize Nom.find ":-".toList expr = found at hfind
  subst hfind
  rfl

/-- With a default it has that, where the variable is not set. -/
theorem envVarValue_default (processEnv : HashMap String String) {name : List Char}
    (h : ':' ∉ name) (default : List Char) :
    envVarValue processEnv (name ++ ":-".toList ++ default) =
      match processEnv.lookup (String.ofList name) with
      | some value => .ok value.toList
      | none => .ok default := by
  have hfind : Nom.find ":-".toList (name ++ ":-".toList ++ default) =
      some (name, ":-".toList ++ default) := by
    rw [List.append_assoc]
    exact Nom.find_cons ['-'] h default
  rw [envVarValue, hfind]
  rfl

/-- A reference is taken for the name of a variable by the first pass. -/
theorem envVarValue_reference (processEnv : HashMap String String) {target : List Char}
    (h : IsServiceName target) : envVarValue processEnv (target ++ ".ip".toList) =
      match processEnv.lookup (String.ofList (target ++ ".ip".toList)) with
      | some value => .ok value.toList
      | none => .error (String.ofList (target ++ ".ip".toList)) := by
  refine envVarValue_plain processEnv ?_
  rw [List.mem_append, not_or]
  exact ⟨fun hmem => absurd (h.2 ':' hmem) (by decide), by decide⟩

/-- Where the references are variables with the same values, the first pass gives every
expression its value. -/
theorem envVarValue_documented {context : ResolutionContext} {text expr : List Char}
    (hprovided : Provided context text)
    (hrefs : ∀ target, target ++ ".ip".toList ∈ expressions text →
      context.envVars.lookup (String.ofList (target ++ ".ip".toList)) =
        context.serviceIps.lookup (String.ofList target))
    (hexpr : expr ∈ expressions text) :
    ∃ var value, parsed expr = .ok var ∧ valueOf context.envVars context var = some value ∧
      envVarValue context.envVars expr = .ok value.toList := by
  rcases documented_cases (hprovided.documented expr hexpr) with ⟨hname, hparsed⟩ |
    ⟨name, default, hname, _, rfl, hparsed⟩ | ⟨target, htarget, rfl, hparsed⟩
  · have hset := hprovided.set expr hexpr hname
    obtain ⟨value, hvalue⟩ := Option.isSome_iff_exists.mp (AList.lookup_isSome.mpr hset)
    refine ⟨_, value, hparsed, by simp [valueOf, hvalue], ?_⟩
    rw [envVarValue_plain _ (colon_notMem_envVarName hname), hvalue]
  · rw [envVarValue_default _ (colon_notMem_envVarName hname)]
    cases hvalue : context.envVars.lookup (String.ofList name) with
    | some value => exact ⟨_, value, hparsed, by simp [valueOf, hvalue], rfl⟩
    | none =>
      refine ⟨_, String.ofList default, hparsed, by simp [valueOf, hvalue], ?_⟩
      rw [String.toList_ofList]
  · have hknown := hprovided.known target hexpr
    obtain ⟨ip, hip⟩ := Option.isSome_iff_exists.mp (AList.lookup_isSome.mpr hknown)
    refine ⟨_, ip, hparsed, by simp [valueOf, hip], ?_⟩
    rw [envVarValue_reference _ htarget, hrefs target hexpr, hip]

/-! ## The condition -/

/-- The first pass keeps to the variables of the text, and leaves nothing to the second. -/
structure KeptApart (context : ResolutionContext) (text : List Char) : Prop where
  /-- A reference is a variable with the service's ip. -/
  refs : ∀ target, target ++ ".ip".toList ∈ expressions text →
    context.envVars.lookup (String.ofList (target ++ ".ip".toList)) =
      context.serviceIps.lookup (String.ofList target)
  /-- A match is found in its place when its turn comes. -/
  inPlace : ∀ earlier cap later, captures envVarRegex text = earlier ++ cap :: later →
    FoundInPlace (envVarReplacement context.envVars) earlier cap (segments envVarRegex text) ∨
      envVarReplacement context.envVars cap.1 cap.2 = cap.1
  /-- With the values in place there is no reference. -/
  noReference : captures serviceRegex
    (atOnce envVarRegex (envVarReplacement context.envVars) text) = []

/-- Both give a value the same text. -/
theorem KeptApart.agree {context : ResolutionContext} {value : String}
    (hprovided : Provided context value.toList) (hapart : KeptApart context value.toList) :
    ∃ s, substituteEnvVars context.envVars value = .ok s ∧
      substituteServiceRefs s context.serviceIps = .ok s ∧
      resolveString context.envVars context value = .ok s := by
  have hpieces : segments envVarRegex value.toList = (pieces value.toList).map grouped :=
    segments_envVarRegex fun expr hexpr => documented_ne_nil (hprovided.documented expr hexpr)
  have hvalues : ∀ expr ∈ expressions value.toList, ∃ var text, parsed expr = .ok var ∧
      valueOf context.envVars context var = some text ∧
      envVarValue context.envVars expr = .ok text.toList :=
    fun expr hexpr => envVarValue_documented hprovided hapart.refs hexpr
  have hsame : atOnce envVarRegex (envVarReplacement context.envVars) value.toList =
      replaceAll context.envVars context (pieces value.toList) := by
    rw [atOnce, hpieces, replaceAll]
    refine substitute_grouped _ fun found hfound => ?_
    obtain ⟨var, text, hparsed, hvalue, hfirst⟩ := hvalues found.2 (List.mem_map_of_mem hfound)
    rw [envVarReplacement, replacement, hparsed, List.headD_cons, hfirst]
    dsimp only
    rw [hvalue, Option.getD_some]
  have hresult : replaceEach (envVarReplacement context.envVars)
      (captures envVarRegex value.toList) value.toList =
        atOnce envVarRegex (envVarReplacement context.envVars) value.toList := by
    have hsteps := (Template.replaceEach_iff (segments envVarRegex value.toList) fun cap hcap => by
      obtain ⟨expr, _, hclosing, rfl⟩ := captures_envVarRegex hcap
      exact delimited_unbordered hclosing).mpr hapart.inPlace
    have hend := hsteps (captures envVarRegex value.toList) [] (List.append_nil _).symm
    rw [Template.partially_nil, Template.substitute_segments] at hend
    rw [hend]
    exact Template.partially_all fun cap hcap => hcap
  refine ⟨String.ofList (replaceAll context.envVars context (pieces value.toList)), ?_, ?_, ?_⟩
  · refine substituteEnvVars_iff.mpr ⟨?_, ?_⟩
    · intro cap hcap
      rw [captures, hpieces, hits_grouped] at hcap
      obtain ⟨found, hfound, rfl⟩ := List.mem_map.mp hcap
      obtain ⟨_, text, _, _, hfirst⟩ := hvalues found.2 (List.mem_map_of_mem hfound)
      exact ⟨text.toList, hfirst⟩
    · rw [String.toList_ofList, hresult, hsame]
  · rw [← hsame, substituteServiceRefs_iff, String.toList_ofList, hapart.noReference]
    refine ⟨?_, rfl⟩
    intro cap hcap
    cases hcap
  · refine Resolver.resolveString_iff.mpr ⟨?_, String.toList_ofList⟩
    intro expr hexpr
    obtain ⟨var, text, hparsed, hvalue, _⟩ := hvalues expr hexpr
    exact ⟨var, text, hparsed, hvalue⟩

/-- A reference that is not a variable stops the first pass. -/
theorem substituteEnvVars_reference {processEnv : HashMap String String} {value s : String}
    (hdocumented : ∀ expr ∈ expressions value.toList, Documented expr)
    (h : substituteEnvVars processEnv value = .ok s) {target : List Char}
    (htarget : target ++ ".ip".toList ∈ expressions value.toList) :
    String.ofList (target ++ ".ip".toList) ∈ processEnv := by
  have hall := (substituteEnvVars_iff.mp h).1
  rw [captures, segments_envVarRegex fun expr hexpr => documented_ne_nil (hdocumented expr hexpr),
    hits_grouped] at hall
  obtain ⟨found, hfound, hexpr⟩ := List.mem_map.mp htarget
  obtain ⟨text, htext⟩ := hall _ (List.mem_map_of_mem hfound)
  have hgroup : Capture.group (found.1, [found.2]) = target ++ ".ip".toList := hexpr
  have hservice := documented_reference (hdocumented _ htarget)
  rw [hgroup, envVarValue_reference _ hservice] at htext
  split at htext
  next value hvalue => exact AList.lookup_isSome.mp (by rw [hvalue]; rfl)
  next => cases htext

/-! ## A whole environment -/

/-- Two pipelines that agree on every value agree on the environment. -/
theorem processEntries_resolveEntries {context : ResolutionContext} :
    ∀ (env : List (Σ _ : String, String)) (out : HashMap String String),
      (∀ entry ∈ env, ∃ s, substituteEnvVars context.envVars entry.2 = .ok s ∧
        substituteServiceRefs s context.serviceIps = .ok s ∧
        resolveString context.envVars context entry.2 = .ok s) →
      ∃ env', processEntries context.envVars context.serviceIps env out = .ok env' ∧
        resolveEntries context.envVars context env out = .ok env' := by
  intro env
  induction env with
  | nil =>
    intro out _
    exact ⟨out, rfl, rfl⟩
  | cons entry env ih =>
    intro out h
    obtain ⟨key, value⟩ := entry
    rw [List.forall_mem_cons] at h
    obtain ⟨⟨s, hfirst, hsecond, hresolved⟩, hrest⟩ := h
    rw [processEntries, hfirst, resolveEntries, hresolved]
    dsimp only
    rw [hsecond]
    exact ih (out.insert key s) hrest

/-- Where an environment is processed each of its values is. -/
theorem processEntries_ok {processEnv serviceIps : HashMap String String} :
    ∀ {env : List (Σ _ : String, String)} {out env' : HashMap String String},
      processEntries processEnv serviceIps env out = .ok env' →
      ∀ entry ∈ env, ∃ s, substituteEnvVars processEnv entry.2 = .ok s := by
  intro env
  induction env with
  | nil =>
    intro out env' _ entry hentry
    cases hentry
  | cons entry env ih =>
    intro out env' h
    obtain ⟨key, value⟩ := entry
    rw [processEntries] at h
    rw [List.forall_mem_cons]
    split at h
    next => cases h
    next s hs =>
      split at h
      next => cases h
      next => exact ⟨⟨s, hs⟩, ih h⟩

/-- On the inputs both are meant for, the two pipelines return the same map where the first
pass keeps to the variables; and where they do, every reference is a variable too. -/
theorem pipelines_agree (context : ResolutionContext) (service : Service)
    (h : TemplateInput context service) :
    ((∀ entry ∈ service.env.entries, KeptApart context entry.2.toList) →
      PipelinesAgree context service) ∧
    (PipelinesAgree context service → ∀ entry ∈ service.env.entries, ∀ target,
      target ++ ".ip".toList ∈ expressions entry.2.toList →
        String.ofList (target ++ ".ip".toList) ∈ context.envVars) := by
  refine ⟨?_, ?_⟩
  · intro hapart
    exact processEntries_resolveEntries _ _ fun entry hentry =>
      (hapart entry hentry).agree (h.provided entry hentry)
  · rintro ⟨env, hprocessed, _⟩ entry hentry target htarget
    obtain ⟨s, hs⟩ := processEntries_ok hprocessed entry hentry
    exact substituteEnvVars_reference (h.provided entry hentry).documented hs htarget

/-- A service with one variable in its environment. -/
def serviceWith (value : String) : Service where
  serviceType := .process "api-server" [] none none
  network := "local"
  env := AList.insert "URL" value ∅
  dependencies := []
  healthCheck := none
  startupTimeout := none

/-- The service has the one value. -/
theorem entries_serviceWith {value : String} {entry : Σ _ : String, String}
    (h : entry ∈ (serviceWith value).env.entries) : entry.2 = value := by
  have hentry : entry = ⟨"URL", value⟩ := by simpa [serviceWith] using h
  rw [hentry]

/-- In an empty map nothing opens an expression. -/
theorem noOpening_empty : NoOpening ∅ := by
  intro name value h
  cases h

/-- Nor after a value without a dollar sign. -/
theorem noOpening_insert {values : HashMap String String} {value : String} (h : NoOpening values)
    (hvalue : '$' ∉ value.toList) (name : String) :
    NoOpening (values.insert name value) := by
  intro other text hlookup
  by_cases hname : other = name
  · rw [hname, AList.lookup_insert] at hlookup
    obtain rfl := Option.some.inj hlookup
    exact fun hopen => hvalue (hopen.subset (by decide))
  · rw [AList.lookup_insert_ne hname] at hlookup
    exact h other text hlookup

/-- An expression without a dot is no variable with a dot in its default. -/
theorem not_dottedDefault {expr : List Char} (h : '.' ∉ expr) : ¬ DottedDefault expr := by
  rintro ⟨name, default, rfl, _, hdot⟩
  exact h (List.mem_append_right _ hdot)

/-- `PORT=8080` -/
def portContext : ResolutionContext := .new (AList.insert "PORT" "8080" ∅)

/-- `HOST` has a default and `PORT` is set. -/
theorem url_agrees : PipelinesAgree portContext
    (serviceWith "http://$\x7bHOST:-localhost\x7d:$\x7bPORT\x7d") := by
  have hexpressions : expressions "http://$\x7bHOST:-localhost\x7d:$\x7bPORT\x7d".toList =
      ["HOST:-localhost".toList, "PORT".toList] := rfl
  have hnone : ∀ target, target ++ ".ip".toList ∉
      expressions "http://$\x7bHOST:-localhost\x7d:$\x7bPORT\x7d".toList := by
    intro target htarget
    have hplain : ∀ expr ∈ expressions "http://$\x7bHOST:-localhost\x7d:$\x7bPORT\x7d".toList,
        '.' ∉ expr := by decide
    exact hplain _ htarget (List.mem_append_right _ (by decide))
  refine (pipelines_agree portContext _ ⟨?_, ?_, noOpening_empty⟩).1 ?_
  · intro entry hentry
    rw [entries_serviceWith hentry]
    refine ⟨?_, ?_, ?_⟩
    · have hhost : Denotes ("HOST".toList ++ ":-".toList ++ "localhost".toList) _ :=
        .withDefault ⟨⟨'H', rfl, rfl⟩, List.all_eq_true.mp rfl⟩
      have hport : Denotes "PORT".toList _ := .envVar ⟨⟨'P', rfl, rfl⟩, List.all_eq_true.mp rfl⟩
      rw [hexpressions, List.forall_mem_cons, List.forall_mem_singleton]
      refine ⟨⟨_, hhost, not_dottedDefault (by decide), ?_⟩,
        ⟨_, hport, not_dottedDefault (by decide), ?_⟩⟩
      · rintro _ _ ⟨⟩
      · rintro _ _ ⟨⟩
    · rw [hexpressions, List.forall_mem_cons, List.forall_mem_singleton]
      refine ⟨?_, fun _ => by decide⟩
      intro hname
      exact absurd (by decide) (colon_notMem_envVarName hname)
    · intro target htarget
      exact absurd htarget (hnone target)
  · exact noOpening_insert noOpening_empty (by decide) "PORT"
  · intro entry hentry
    rw [entries_serviceWith hentry]
    refine ⟨?_, ?_, by decide⟩
    · intro target htarget
      exact absurd htarget (hnone target)
    · rw [show captures envVarRegex "http://$\x7bHOST:-localhost\x7d:$\x7bPORT\x7d".toList =
        [(delimited "HOST:-localhost".toList, ["HOST:-localhost".toList]),
          (delimited "PORT".toList, ["PORT".toList])] from rfl]
      intro earlier cap later hsplit
      cases earlier with
      | nil =>
        obtain ⟨rfl, _⟩ := List.cons.inj hsplit
        exact .inl fun _ => rfl
      | cons first earlier =>
        obtain ⟨rfl, hnext⟩ := List.cons.inj hsplit
        cases earlier with
        | nil =>
          obtain ⟨rfl, _⟩ := List.cons.inj hnext
          exact .inl fun _ => rfl
        | cons second earlier => simp at hnext

/-- `10.0.0.5` is the ip of `db`. -/
def databaseContext : ResolutionContext :=
  (ResolutionContext.new ∅).addService "db" "10.0.0.5" none "db"

/-- For the first pass `${db.ip}` is a variable that is not set. -/
theorem reference_disagrees : ¬ ∀ (context : ResolutionContext) (service : Service),
    TemplateInput context service → PipelinesAgree context service := by
  intro h
  have hagree := h databaseContext (serviceWith "$\x7bdb.ip\x7d") ⟨?_, noOpening_empty, ?_⟩
  · obtain ⟨env, hprocessed, _⟩ := hagree
    have herror : processServiceEnv databaseContext.envVars (serviceWith "$\x7bdb.ip\x7d")
        databaseContext.serviceIps = .error (.envVarNotFound "db.ip") := rfl
    rw [herror] at hprocessed
    cases hprocessed
  · intro entry hentry
    rw [entries_serviceWith hentry]
    have hexpressions : expressions "$\x7bdb.ip\x7d".toList = ["db.ip".toList] := rfl
    have hdb : IsServiceName "db".toList := ⟨⟨'d', rfl, rfl⟩, List.all_eq_true.mp rfl⟩
    have hdenotes : Denotes ("db".toList ++ ".".toList ++ "ip".toList) _ :=
      .serviceRef hdb (by decide)
    refine ⟨?_, ?_, ?_⟩
    · rw [hexpressions, List.forall_mem_singleton]
      refine ⟨_, hdenotes, Resolver.not_dottedDefault_serviceRef hdb (by decide), ?_⟩
      rintro _ _ ⟨⟩
      rfl
    · rw [hexpressions, List.forall_mem_singleton]
      intro hname
      exact absurd (by decide) (Resolver.dot_notMem_envVarName hname)
    · intro target htarget
      rw [hexpressions, List.mem_singleton] at htarget
      have hdb : "db.ip".toList = "db".toList ++ ".ip".toList := rfl
      rw [List.append_cancel_right (htarget.trans hdb)]
      decide
  · exact noOpening_insert noOpening_empty (by decide) "db"

end GraphHarness.Parser
