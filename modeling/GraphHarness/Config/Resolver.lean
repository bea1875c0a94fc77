import GraphHarness.Config.Types
import GraphHarness.Parse.Nom

/-!
# Variables in environment values (`resolver.rs`)

`${NAME}`, `${NAME:-default}` and `${service.property}`: the parser, the scan for
all variables of a text, their resolution against a `ResolutionContext`, and the
validation that `parse_str` ends with.

A text is a list of characters while it is parsed; positions are byte offsets, as
in the source. `processEnv` is the environment of the process (`std::env::var`).

`resolveString_ok_iff` says when a text resolves: every variable in it is well
formed, and each of them has a value. The error branches carry the source's texts.

The scan looks for the next opening, and goes on behind the variable, or behind the opening
if no brace closes it; its rounds are bounded by the length of the text, and
`Config.SinglePass` shows that they suffice. `resolve_string` then walks through what was
found, with the slices taken at byte offsets as in the source; a variable that is not well
formed ends it at once, and names without a value are collected and reported together.

`nom`'s parsers are those of `Parse.Nom`. Their errors carry no text here, as the source
turns every one of them into `None` or into a message of its own. `validate_references`
reads all services, and an environment that cannot be parsed fails it.
-/

namespace GraphHarness.Resolver

open Nom (Parser)

/-- What is known about the environment and about the services started so far. -/
structure ResolutionContext where
  envVars : HashMap String String
  serviceIps : HashMap String String
  servicePorts : HashMap String UInt16
  serviceHosts : HashMap String String
  deriving DecidableEq

namespace ResolutionContext

/-- `ResolutionContext::new`. The environment of the process is copied once. -/
def new (processEnv : HashMap String String) : ResolutionContext where
  envVars := processEnv
  serviceIps := ∅
  servicePorts := ∅
  serviceHosts := ∅

/-- `set_env`. -/
def setEnv (context : ResolutionContext) (key value : String) : ResolutionContext :=
  { context with envVars := context.envVars.insert key value }

/-- Without a port the entry in `service_ports` stays what it was. -/
def addService (context : ResolutionContext) (name ip : String) (port : Option UInt16)
    (host : String) : ResolutionContext :=
  { context with
    serviceIps := context.serviceIps.insert name ip
    serviceHosts := context.serviceHosts.insert name host
    servicePorts :=
      match port with
      | some p => context.servicePorts.insert name p
      | none => context.servicePorts }

/-- `s` was added with its ip, host and port. -/
def Knows (context : ResolutionContext) (s : String) : Prop :=
  s ∈ context.serviceIps ∧ s ∈ context.serviceHosts ∧ s ∈ context.servicePorts

@[simp] theorem knows_addService (context : ResolutionContext) (name ip : String) (port : UInt16)
    (host s : String) :
    (context.addService name ip (some port) host).Knows s ↔ s = name ∨ context.Knows s := by
  simp only [Knows, addService, AList.mem_insert]
  tauto

/-- A new context knows no service. -/
theorem not_knows_new (processEnv : HashMap String String) (s : String) :
    ¬ (new processEnv).Knows s := fun h => AList.notMem_empty s h.1

end ResolutionContext

/-- `Variable`. -/
inductive Variable where
  | envVar (name : String) (default : Option String)
  | serviceRef (service property : String)
  deriving DecidableEq, Repr

/-! ## The grammar -/

/-- The letters `A` to `Z`. -/
def isUpper (c : Char) : Bool := 'A' ≤ c && c ≤ 'Z'

/-- `char::is_ascii_alphabetic`. -/
def isAsciiAlpha (c : Char) : Bool := isUpper c || ('a' ≤ c && c ≤ 'z')

/-- `char::is_ascii_digit`. -/
def isAsciiDigit (c : Char) : Bool := '0' ≤ c && c ≤ '9'

/-- `env_var_name`: upper-case letters, digits and underscores, the first a letter. -/
def envVarName : Parser (List Char) :=
  Nom.verify (Nom.takeWhile1 (fun c => isUpper c || isAsciiDigit c || c == '_'))
    (fun s => s.head?.any isUpper)

/-- The check is `is_alphabetic`; `alpha1` has let an ASCII letter through. -/
def serviceName : Parser (List Char) :=
  Nom.verify
    (Nom.recognize (Nom.pair (Nom.takeWhile1 isAsciiAlpha)
      (Nom.many0 (Nom.alt [Nom.takeWhile1 (fun c => isAsciiAlpha c || isAsciiDigit c),
        Nom.tag "_".toList, Nom.tag "-".toList]))))
    (fun s => s.head?.any isAsciiAlpha)

/-- `service_property`. -/
def serviceProperty : Parser (List Char) :=
  Nom.alt [Nom.tag "ip".toList, Nom.tag "port".toList, Nom.tag "host".toList]

/-- `parse_env_var`. The form with a default is tried first, and its default is all the rest. -/
def parseEnvVar : Parser Variable :=
  Nom.alt [
    Nom.map (Nom.separatedPair envVarName (Nom.tag ":-".toList) Nom.rest)
      (fun out => .envVar (String.ofList out.1) (some (String.ofList out.2))),
    Nom.map (Nom.allConsuming envVarName) (fun name => .envVar (String.ofList name) none)]

/-- `parse_service_ref`. -/
def parseServiceRef : Parser Variable :=
  Nom.map (Nom.allConsuming (Nom.separatedPair serviceName (Nom.tag ".".toList) serviceProperty))
    (fun out => .serviceRef (String.ofList out.1) (String.ofList out.2))

/-- The report of a name that no service can have. -/
def invalidServiceName (service input : List Char) : ConfigError :=
  .validationError ("Invalid service name '" ++ String.ofList service ++ "' in reference '" ++
    String.ofList input ++ "'")

/-- The report of a property other than the three. -/
def invalidReferenceType (property input : List Char) : ConfigError :=
  .validationError ("Invalid service reference type '" ++ String.ofList property ++ "' in '" ++
    String.ofList input ++ "'")

/-- The report of a variable that is not upper case. -/
def invalidEnvVarName (input : List Char) : ConfigError :=
  .validationError ("Invalid environment variable name '" ++ String.ofList input ++
    "'. Environment variables must be uppercase with underscores")

/-- The part inside `${…}`. With a dot it has to be a service reference; the
error then names the part in front of the first dot or the part behind it. -/
def parseVariableExpr : Parser (Except ConfigError Variable) := fun input =>
  if '.' ∈ input then
    match parseServiceRef input with
    | some (_, var) => some ([], .ok var)
    | none =>
      let service := input.takeWhile (· != '.')
      let property := (input.dropWhile (· != '.')).tail
      if (serviceName service).isNone then
        some ([], .error (invalidServiceName service input))
      else some ([], .error (invalidReferenceType property input))
  else
    match parseEnvVar input with
    | some (_, var) => some ([], .ok var)
    | none => some ([], .error (invalidEnvVarName input))

/-- The report of an expression that is neither. -/
def failedExpression (content : List Char) : ConfigError :=
  .validationError ("Failed to parse variable expression: '" ++ String.ofList content ++ "'")

/-- `parse_variable`. The expression ends at the first closing brace. -/
def parseVariable : Parser (Except ConfigError Variable) := fun input =>
  match Nom.tag "$\x7b".toList input with
  | none => none
  | some (input, _) =>
    match Nom.takeUntil "\x7d".toList input with
    | none => none
    | some (input, content) =>
      match Nom.tag "\x7d".toList input with
      | none => none
      | some (input, _) =>
        match parseVariableExpr content with
        | some (_, result) => some (input, result)
        | none => some (input, .error (failedExpression content))

/-! ## All variables of a text -/

/-- `str::len`. -/
def utf8Len : List Char → Nat
  | [] => 0
  | c :: text => c.utf8Size + utf8Len text

/-- The text before and behind byte offset `n`, which is a character boundary
wherever it is used (`findVariables_spans`). -/
def splitAtByte : Nat → List Char → List Char × List Char
  | _, [] => ([], [])
  | n, c :: cs =>
    if n < c.utf8Size then ([], c :: cs)
    else
      let (before, behind) := splitAtByte (n - c.utf8Size) cs
      (c :: before, behind)

/-- `&input[start..]`. -/
def sliceFrom (input : List Char) (start : Nat) : List Char := (splitAtByte start input).2

/-- `&input[start..stop]`. -/
def slice (input : List Char) (start stop : Nat) : List Char :=
  (splitAtByte (stop - start) (sliceFrom input start)).1

/-- A variable with the bytes it spans, or what is wrong with it. -/
abbrev Found := Except ConfigError (Nat × Nat × Variable)

/-- The loop of `find_variables`. Every round takes at least the `${`, so more
rounds than characters are never needed. -/
def findVariablesFrom : Nat → List Char → Nat → List Found
  | 0, _, _ => []
  | rounds + 1, remaining, pos =>
    if remaining = [] then []
    else
      match Nom.find "$\x7b".toList remaining with
      | none => []
      | some (before, found) =>
        let start := pos + utf8Len before
        match parseVariable found with
        | some (rest, result) =>
          let stop := start + (utf8Len found - utf8Len rest)
          let item := match result with
            | .ok var => .ok (start, stop, var)
            | .error e => .error e
          item :: findVariablesFrom rounds rest stop
        | none => findVariablesFrom rounds (found.drop 2) (start + 2)

/-- `find_variables`. Every round consumes a character, so the rounds suffice. -/
def findVariables (input : String) : List Found :=
  findVariablesFrom (input.toList.length + 1) input.toList 0

/-! ## Resolution -/

/-- The value of one variable, or the name it is reported under. -/
def resolveVariable (processEnv : HashMap String String) (context : ResolutionContext) :
    Variable → Except String String
  | .envVar name default =>
    match context.envVars.lookup name with
    | some value => .ok value
    | none =>
      match processEnv.lookup name with
      | some value => .ok value
      | none =>
        match default with
        | some value => .ok value
        | none => .error name
  | .serviceRef service property =>
    let found :=
      if property = "ip" then context.serviceIps.lookup service
      else if property = "host" then context.serviceHosts.lookup service
      else if property = "port" then
        (context.servicePorts.lookup service).map (fun port => Nat.repr port.toNat)
      else none
    match found with
    | some value => .ok value
    | none => .error (service ++ "." ++ property)

/-- The loop of `resolve_string`: the text so far, the end of the last variable
and the variables without a value. -/
def resolveFrom (processEnv : HashMap String String) (context : ResolutionContext)
    (input : List Char) :
    List Found → String → Nat → List String → Except ConfigError String
  | [], result, lastEnd, errors =>
    if errors = [] then .ok (result ++ String.ofList (sliceFrom input lastEnd))
    else .error (.envVarNotFound (", ".intercalate errors))
  | .error e :: _, _, _, _ => .error e
  | .ok (start, stop, var) :: vars, result, lastEnd, errors =>
    let result := result ++ String.ofList (slice input lastEnd start)
    match resolveVariable processEnv context var with
    | .ok value => resolveFrom processEnv context input vars (result ++ value) stop errors
    | .error name => resolveFrom processEnv context input vars result stop (errors ++ [name])

/-- `resolve_string`. -/
def resolveString (processEnv : HashMap String String) (context : ResolutionContext)
    (input : String) : Except ConfigError String :=
  resolveFrom processEnv context input.toList (findVariables input) "" 0 []

/-- The loop of `resolve_service_env`. -/
def resolveEntries (processEnv : HashMap String String) (context : ResolutionContext) :
    List (Σ _ : String, String) → HashMap String String → Except ConfigError (HashMap String String)
  | [], resolvedEnv => .ok resolvedEnv
  | ⟨key, value⟩ :: env, resolvedEnv =>
    match resolveString processEnv context value with
    | .ok resolved => resolveEntries processEnv context env (resolvedEnv.insert key resolved)
    | .error e => .error e

/-- `resolve_service_env`. -/
def resolveServiceEnv (processEnv : HashMap String String) (service : Service)
    (context : ResolutionContext) : Except ConfigError (HashMap String String) :=
  resolveEntries processEnv context service.env.entries ∅

/-! ## Validation -/

/-- The two sets `find_all_references` collects, from the variables in the order
of its nested loops. -/
def addReferences : List Found → List String × List String →
    Except ConfigError (List String × List String)
  | [], refs => .ok refs
  | .error e :: _, _ => .error e
  | .ok (_, _, .envVar name _) :: vars, (envVars, serviceRefs) =>
    addReferences vars (envVars.insert name, serviceRefs)
  | .ok (_, _, .serviceRef service property) :: vars, (envVars, serviceRefs) =>
    addReferences vars (envVars, serviceRefs.insert (service ++ "." ++ property))

/-- Every variable of a service's environment. -/
def serviceVariables (service : Service) : List Found :=
  service.env.entries.flatMap (fun entry => findVariables entry.2)

/-- `find_all_references`. -/
def findAllReferences (cfg : Config) : Except ConfigError (List String × List String) :=
  addReferences (cfg.services.entries.flatMap (fun entry => serviceVariables entry.2)) ([], [])

/-- The report of a reference to a service that is not declared. -/
def unknownReference (serviceRef : String) : ConfigError :=
  .validationError ("Service reference '" ++ serviceRef ++ "' refers to unknown service")

/-- The loop of `validate_references`: the name before the first dot is to be declared. -/
def checkReferences (cfg : Config) : List String → Except ConfigError Unit
  | [] => .ok ()
  | serviceRef :: serviceRefs =>
    match Nom.find ".".toList serviceRef.toList with
    | some (name, _) =>
      if String.ofList name ∈ cfg.services then checkReferences cfg serviceRefs
      else .error (unknownReference serviceRef)
    | none => checkReferences cfg serviceRefs

/-- `validate_references`. Variables missing from the environment are a warning
only and have no part in the result. -/
def validateReferences (ord : HashOrder) (cfg : Config) : Except ConfigError Unit :=
  match findAllReferences cfg with
  | .error e => .error e
  | .ok (_, serviceRefs) => checkReferences cfg (ord.iter .serviceRefs serviceRefs)

/-! ## What the parser accepts -/

/-- The parser of expressions consumes everything it is given. -/
theorem parseVariableExpr_total (content : List Char) :
    ∃ result, parseVariableExpr content = some ([], result) := by
  unfold parseVariableExpr
  split
  next =>
    split
    next => exact ⟨_, rfl⟩
    next =>
      dsimp only
      split
      next => exact ⟨_, rfl⟩
      next => exact ⟨_, rfl⟩
  next =>
    split
    next => exact ⟨_, rfl⟩
    next => exact ⟨_, rfl⟩

/-- A parsed variable is `${`, its expression and `}` in front of the rest; the
fallback for a failed expression is not reached. -/
theorem parseVariable_spec {input rest : List Char} {result : Except ConfigError Variable}
    (h : parseVariable input = some (rest, result)) :
    ∃ content, input = "$\x7b".toList ++ content ++ "\x7d".toList ++ rest ∧
      parseVariableExpr content = some ([], result) := by
  unfold parseVariable at h
  split at h
  next => simp at h
  next input₁ opening h₁ =>
    split at h
    next => simp at h
    next input₂ content h₂ =>
      split at h
      next => simp at h
      next input₃ closing h₃ =>
        obtain ⟨result', hr⟩ := parseVariableExpr_total content
        rw [hr] at h
        obtain ⟨rfl, rfl⟩ : input₃ = rest ∧ result' = result := by simpa using h
        obtain ⟨rfl, _⟩ := Nom.tag_eq_some h₁
        obtain ⟨rfl, _⟩ := Nom.tag_eq_some h₃
        rw [Nom.takeUntil_eq_some h₂]
        exact ⟨content, by simp, hr⟩

/-! ## The scan -/

@[simp] theorem utf8Len_append (a b : List Char) : utf8Len (a ++ b) = utf8Len a + utf8Len b := by
  induction a with
  | nil => simp [utf8Len]
  | cons c a ih =>
    rw [List.cons_append, utf8Len, utf8Len, ih]
    omega

/-- An item the scan may report from `remaining` at byte `pos`: a variable with
the bytes of a `${…}` in the text, or the error of such a `${…}`. -/
def Spanned (remaining : List Char) (pos : Nat) : Found → Prop
  | .ok (start, stop, var) =>
    ∃ before content after,
      remaining = before ++ ("$\x7b".toList ++ content ++ "\x7d".toList) ++ after ∧
      start = pos + utf8Len before ∧
      stop = start + utf8Len ("$\x7b".toList ++ content ++ "\x7d".toList) ∧
      parseVariableExpr content = some ([], .ok var)
  | .error e => ∃ content, parseVariableExpr content = some ([], .error e)

/-- What is found behind some text is found at its place in the whole. -/
theorem Spanned.append {remaining : List Char} {pos : Nat} {item : Found} (before : List Char)
    (h : Spanned remaining (pos + utf8Len before) item) :
    Spanned (before ++ remaining) pos item := by
  match item with
  | .error e => exact h
  | .ok (start, stop, var) =>
    obtain ⟨before', content, after, rfl, rfl, rfl, hvar⟩ := h
    refine ⟨before ++ before', content, after, by simp, ?_, rfl, hvar⟩
    rw [utf8Len_append]
    omega

/-- The items stand where they say they stand. -/
theorem findVariablesFrom_spans : ∀ (rounds : Nat) (remaining : List Char) (pos : Nat),
    ∀ item ∈ findVariablesFrom rounds remaining pos, Spanned remaining pos item := by
  intro rounds
  induction rounds with
  | zero => intro remaining pos item h; simp [findVariablesFrom] at h
  | succ rounds ih =>
    intro remaining pos item h
    rw [findVariablesFrom] at h
    split at h
    next => simp at h
    next =>
      split at h
      next => simp at h
      next before found hfind =>
        obtain ⟨rfl, hopen⟩ := Nom.find_append hfind
        refine Spanned.append before ?_
        split at h
        next rest result hparse =>
          obtain ⟨content, rfl, hvar⟩ := parseVariable_spec hparse
          rw [utf8Len_append _ rest, Nat.add_sub_cancel] at h
          rcases List.mem_cons.mp h with rfl | h
          · cases result with
            | error e => exact ⟨content, hvar⟩
            | ok var => exact ⟨[], content, rest, by simp, by simp [utf8Len], rfl, hvar⟩
          · exact Spanned.append _ (ih rest _ item h)
        next =>
          -- no closing brace: the scan goes on behind the `${`
          have hfound : found = "$\x7b".toList ++ found.drop 2 :=
            List.prefix_iff_eq_append.mp hopen |>.symm
          rw [hfound]
          refine Spanned.append _ ?_
          rw [show utf8Len "$\x7b".toList = 2 from by decide]
          exact ih (found.drop 2) _ item h

/-- **Every reported span is a `${…}` of the text**, so both of its ends are
character boundaries. -/
theorem findVariables_spans (input : String) :
    ∀ item ∈ findVariables input, Spanned input.toList 0 item :=
  findVariablesFrom_spans _ _ _

/-! ## When a text resolves -/

/-- A variable with a default, or with a value, has a text. -/
theorem resolveVariable_envVar {processEnv : HashMap String String} {context : ResolutionContext}
    {name : String} {default : Option String}
    (h : default = none → name ∈ context.envVars ∨ name ∈ processEnv) :
    ∃ value, resolveVariable processEnv context (.envVar name default) = .ok value := by
  unfold resolveVariable
  dsimp only
  cases hc : context.envVars.lookup name with
  | some value => exact ⟨value, rfl⟩
  | none =>
    cases hp : processEnv.lookup name with
    | some value => exact ⟨value, rfl⟩
    | none =>
      cases default with
      | some value => exact ⟨value, rfl⟩
      | none =>
        rcases h rfl with hmem | hmem
        · exact absurd hmem (AList.lookup_eq_none.mp hc)
        · exact absurd hmem (AList.lookup_eq_none.mp hp)

/-- A property of a service that the context knows has a text. -/
theorem resolveVariable_serviceRef (processEnv : HashMap String String)
    {context : ResolutionContext} {service property : String} (hknows : context.Knows service)
    (hproperty : property = "ip" ∨ property = "port" ∨ property = "host") :
    ∃ value, resolveVariable processEnv context (.serviceRef service property) = .ok value := by
  obtain ⟨hip, hhost, hport⟩ := hknows
  obtain ⟨ip, hip⟩ := Option.isSome_iff_exists.mp (AList.lookup_isSome.mpr hip)
  obtain ⟨host, hhost⟩ := Option.isSome_iff_exists.mp (AList.lookup_isSome.mpr hhost)
  obtain ⟨port, hport⟩ := Option.isSome_iff_exists.mp (AList.lookup_isSome.mpr hport)
  rcases hproperty with rfl | rfl | rfl
  · exact ⟨ip, by simp [resolveVariable, hip]⟩
  · exact ⟨Nat.repr port.toNat, by simp [resolveVariable, hport]⟩
  · exact ⟨host, by simp [resolveVariable, hhost]⟩

/-- The item is a variable with a value. -/
def Resolves (processEnv : HashMap String String) (context : ResolutionContext) (item : Found) :
    Prop :=
  ∃ start stop var value, item = .ok (start, stop, var) ∧
    resolveVariable processEnv context var = .ok value

/-- A string is resolved if and only if each of its items is. -/
theorem resolveFrom_ok_iff {processEnv : HashMap String String} {context : ResolutionContext}
    {input : List Char} : ∀ (items : List Found) (result : String) (lastEnd : Nat)
      (errors : List String),
      (∃ text, resolveFrom processEnv context input items result lastEnd errors = .ok text) ↔
        errors = [] ∧ ∀ item ∈ items, Resolves processEnv context item := by
  intro items
  induction items with
  | nil =>
    intro result lastEnd errors
    rw [resolveFrom]
    by_cases herr : errors = []
    · simp [herr]
    · simp [herr]
  | cons item items ih =>
    intro result lastEnd errors
    match item with
    | .error e => simp [resolveFrom, Resolves]
    | .ok (start, stop, var) =>
      rw [resolveFrom]
      cases hv : resolveVariable processEnv context var with
      | ok value =>
        dsimp only
        rw [ih, List.forall_mem_cons]
        have hres : Resolves processEnv context (.ok (start, stop, var)) :=
          ⟨start, stop, var, value, rfl, hv⟩
        simp [hres]
      | error name =>
        dsimp only
        rw [ih, List.forall_mem_cons]
        -- a name on the list stays there, and the end reports it
        have hres : ¬ Resolves processEnv context (.ok (start, stop, var)) := by
          intro ⟨_, _, _, value, hitem, hvalue⟩
          obtain ⟨_, _, rfl⟩ : start = _ ∧ stop = _ ∧ var = _ := by simpa using hitem
          simp [hv] at hvalue
        simp [hres]

/-- **A text resolves exactly when every variable in it is well formed and has a
value.** -/
theorem resolveString_ok_iff (processEnv : HashMap String String) (context : ResolutionContext)
    (input : String) :
    (∃ text, resolveString processEnv context input = .ok text) ↔
      ∀ item ∈ findVariables input, Resolves processEnv context item := by
  rw [resolveString, resolveFrom_ok_iff]
  simp

/-- The entries are resolved if and only if all their items are. -/
theorem resolveEntries_ok_iff {processEnv : HashMap String String} {context : ResolutionContext} :
    ∀ (env : List (Σ _ : String, String)) (resolvedEnv : HashMap String String),
      (∃ out, resolveEntries processEnv context env resolvedEnv = .ok out) ↔
        ∀ entry ∈ env, ∀ item ∈ findVariables entry.2, Resolves processEnv context item := by
  intro env
  induction env with
  | nil => intro resolvedEnv; simp [resolveEntries]
  | cons entry env ih =>
    intro resolvedEnv
    obtain ⟨key, value⟩ := entry
    have hvalue := resolveString_ok_iff processEnv context value
    rw [resolveEntries, List.forall_mem_cons]
    cases hs : resolveString processEnv context value with
    | ok text =>
      rw [hs] at hvalue
      dsimp only
      rw [ih, ← hvalue]
      simp
    | error e =>
      rw [hs] at hvalue
      dsimp only
      rw [← hvalue]
      simp

/-- An environment is resolved if and only if all the items of the service are. -/
theorem resolveServiceEnv_ok_iff (processEnv : HashMap String String) (service : Service)
    (context : ResolutionContext) :
    (∃ env, resolveServiceEnv processEnv service context = .ok env) ↔
      ∀ item ∈ serviceVariables service, Resolves processEnv context item := by
  rw [resolveServiceEnv, resolveEntries_ok_iff]
  simp only [serviceVariables, List.mem_flatMap]
  constructor
  · intro h item ⟨entry, he, hitem⟩
    exact h entry he item hitem
  · intro h entry he item hitem
    exact h item ⟨entry, he, hitem⟩

/-- References are added from items that were parsed, and from no others. -/
theorem addReferences_ok : ∀ {items : List Found} {refs out : List String × List String},
    addReferences items refs = .ok out →
      ∀ item ∈ items, ∃ start stop var, item = .ok (start, stop, var) := by
  intro items
  induction items with
  | nil => intro refs out _ item h; simp at h
  | cons item items ih =>
    intro refs out h
    rw [List.forall_mem_cons]
    match item, refs with
    | .error e, _ => simp [addReferences] at h
    | .ok (start, stop, .envVar name default), (envVars, serviceRefs) =>
      rw [addReferences] at h
      exact ⟨⟨_, _, _, rfl⟩, ih h⟩
    | .ok (start, stop, .serviceRef service property), (envVars, serviceRefs) =>
      rw [addReferences] at h
      exact ⟨⟨_, _, _, rfl⟩, ih h⟩

/-- In a validated configuration every `${…}` is well formed. -/
theorem validateReferences_wellFormed {ord : HashOrder} {cfg : Config}
    (h : validateReferences ord cfg = .ok ()) {name : String} {service : Service}
    (hs : cfg.services.lookup name = some service) :
    ∀ item ∈ serviceVariables service, ∃ start stop var, item = .ok (start, stop, var) := by
  unfold validateReferences findAllReferences at h
  split at h
  next => simp at h
  next refs hrefs =>
    intro item hitem
    refine addReferences_ok hrefs item (List.mem_flatMap.mpr ⟨⟨name, service⟩, ?_, hitem⟩)
    exact AList.mem_lookup_iff.mp hs

end GraphHarness.Resolver
