import GraphHarness.Config.Delimited
import GraphHarness.Config.Types
import GraphHarness.Parse.Regex
import GraphHarness.Parse.Replace

/-!
# Substitution by regular expressions (`parser.rs`)

`substitute_env_vars` and `substitute_service_refs` find the matches of a pattern in a
text and then replace each of them wherever it occurs in the text so far, which by then
has the values of the matches before in it.

`processEnv` is the environment of the process (`std::env::var`).

The patterns are read once for all: `braced` is a pattern from `${` to `}` with some fixed
text before the brace, and `matchAt_braced` says what it matches. The loops are the source's
own, over the captures that were collected first.

The regular expressions are those of `Parse.Regex`, for the part of the `regex` crate that
the two patterns use; leftmost-first and greedy matching is what the crate documents. In
`substitute_env_vars` a missing variable is put on a list and the loop goes on, while
`substitute_service_refs` returns at the first service it does not know.
-/

namespace GraphHarness.Parser

open Template (Pattern Segment segments hits replace)
open Resolver (delimited takeWhile_append_closing)

/-- `\$\{([^}]+)\}` -/
def envVarRegex : Pattern Char (List (List Char)) :=
  Regex.pattern (.char '$') [.char '\x7b', .group (· != '\x7d'), .char '\x7d']

/-- `\$\{([^}]+)\.ip\}` -/
def serviceRegex : Pattern Char (List (List Char)) :=
  Regex.pattern (.char '$') [.char '\x7b', .group (· != '\x7d'), .char '.', .char 'i', .char 'p',
    .char '\x7d']

/-- A match with its groups. -/
abbrev Capture := List Char × List (List Char)

/-- `cap[1]` -/
def Capture.group (cap : Capture) : List Char := cap.2.headD []

/-- `re.captures_iter(input)` -/
def captures (re : Pattern Char (List (List Char))) (input : List Char) : List Capture :=
  hits (segments re input)

/-- The value of a variable, or the name it is reported under. -/
def envVarValue (processEnv : HashMap String String) (varExpr : List Char) :
    Except String (List Char) :=
  let (varName, defaultValue) :=
    match Nom.find ":-".toList varExpr with
    | some (name, found) => (name, some (found.drop 2))
    | none => (varExpr, none)
  match processEnv.lookup (String.ofList varName) with
  | some value => .ok value.toList
  | none =>
    match defaultValue with
    | some default => .ok default
    | none => .error (String.ofList varName)

/-- The loop of `substitute_env_vars`: the text so far, and the names without a value. -/
def substituteVars (processEnv : HashMap String String) :
    List Capture → List Char → List String → List Char × List String
  | [], result, errors => (result, errors)
  | cap :: caps, result, errors =>
    match envVarValue processEnv (Capture.group cap) with
    | .ok value => substituteVars processEnv caps (replace cap.1 value result) errors
    | .error name => substituteVars processEnv caps result (errors ++ [name])

/-- `substitute_env_vars`. -/
def substituteEnvVars (processEnv : HashMap String String) (input : String) :
    Except ConfigError String :=
  let (result, errors) :=
    substituteVars processEnv (captures envVarRegex input.toList) input.toList []
  if errors = [] then .ok (String.ofList result)
  else .error (.envVarNotFound (", ".intercalate errors))

/-- The loop of `substitute_service_refs`. -/
def substituteServices (serviceIps : HashMap String String) :
    List Capture → List Char → Except ConfigError (List Char)
  | [], result => .ok result
  | cap :: caps, result =>
    match serviceIps.lookup (String.ofList (Capture.group cap)) with
    | some ip => substituteServices serviceIps caps (replace cap.1 ip.toList result)
    | none => .error (.serviceNotFound (String.ofList (Capture.group cap)))

/-- `substitute_service_refs`. -/
def substituteServiceRefs (input : String) (serviceIps : HashMap String String) :
    Except ConfigError String :=
  match substituteServices serviceIps (captures serviceRegex input.toList) input.toList with
  | .ok result => .ok (String.ofList result)
  | .error e => .error e

/-- The loop of `process_service_env`. -/
def processEntries (processEnv serviceIps : HashMap String String) :
    List (Σ _ : String, String) → HashMap String String → Except ConfigError (HashMap String String)
  | [], processedEnv => .ok processedEnv
  | ⟨key, value⟩ :: env, processedEnv =>
    match substituteEnvVars processEnv value with
    | .error e => .error e
    | .ok envSubstituted =>
      match substituteServiceRefs envSubstituted serviceIps with
      | .error e => .error e
      | .ok fullySubstituted =>
        processEntries processEnv serviceIps env (processedEnv.insert key fullySubstituted)

/-- `process_service_env`. -/
def processServiceEnv (processEnv : HashMap String String) (service : Service)
    (serviceIps : HashMap String String) : Except ConfigError (HashMap String String) :=
  processEntries processEnv serviceIps service.env.entries ∅

/-! ## What the patterns match -/

/-- A group without closing braces, between `${` and `suffix` with a closing brace. -/
def braced (suffix : List Char) : List Regex.Item :=
  "$\x7b".toList.map .char ++ .group (· != '\x7d') :: ((suffix ++ "\x7d".toList).map .char ++ [])

/-- A group stops before the first closing brace. -/
theorem notMem_take_takeWhile {t : List Char} {k : Nat}
    (hle : k ≤ (t.takeWhile (· != '\x7d')).length) : '\x7d' ∉ t.take k := by
  intro hmem
  rw [← List.takeWhile_append_dropWhile (p := (· != '\x7d')) (l := t),
    List.take_append_of_le_length hle] at hmem
  exact Resolver.notMem_takeWhile '\x7d' t (List.mem_of_mem_take hmem)

/-- The first closing brace is where the suffix ends, so only one group fits. -/
theorem length_of_drop {inner suffix rest rest' : List Char} {j : Nat}
    (hall : '\x7d' ∉ inner ++ suffix) (hj : j ≤ (inner ++ suffix).length)
    (hdrop : ((inner ++ suffix) ++ '\x7d' :: rest).drop j = suffix ++ '\x7d' :: rest') :
    j = inner.length := by
  have hbehind : '\x7d' ∉ (inner ++ suffix).drop j := fun hmem => hall (List.mem_of_mem_drop hmem)
  have hsuffix : '\x7d' ∉ suffix := fun hmem => hall (List.mem_append_right _ hmem)
  rw [List.drop_append_of_le_length hj] at hdrop
  have hfirst := congrArg (List.takeWhile (· != '\x7d')) hdrop
  rw [takeWhile_append_closing hbehind, takeWhile_append_closing hsuffix] at hfirst
  have hlength := congrArg List.length hfirst
  rw [List.length_drop, List.length_append] at hlength
  rw [List.length_append] at hj
  omega

/-- What the items of a braced pattern match. -/
theorem matchItems_braced {suffix : List Char} (hsuffix : '\x7d' ∉ suffix) {text rest : List Char}
    {groups : List (List Char)} :
    Regex.matchItems (braced suffix) text = some (groups, rest) ↔
      ∃ inner, inner ≠ [] ∧ '\x7d' ∉ inner ∧ text = delimited (inner ++ suffix) ++ rest ∧
        groups = [inner] := by
  rw [braced, Regex.matchItems_chars]
  constructor
  -- the group has stopped before the closing brace, and the suffix follows it
  · intro h
    split at h
    next hopen =>
      obtain ⟨t, rfl⟩ := hopen
      rw [List.drop_left] at h
      obtain ⟨k, groups', hpos, hle, rfl, hnext⟩ := Regex.longest_some h
      obtain ⟨rfl, hdrop⟩ := Regex.matchItems_end.mp hnext
      refine ⟨t.take k, ?_, notMem_take_takeWhile hle, ?_, rfl⟩
      · rw [Ne, List.take_eq_nil_iff]
        rintro (rfl | rfl)
        · omega
        · simp at hle
          omega
      · have hcut := List.take_append_drop k t
        rw [hdrop] at hcut
        rw [delimited]
        conv_lhs => rw [← hcut]
        simp only [List.append_assoc]
    next => cases h
  -- no longer group has the suffix behind it, as the brace is the only one
  · rintro ⟨inner, hne, hclosing, rfl, rfl⟩
    have htext : delimited (inner ++ suffix) ++ rest =
        "$\x7b".toList ++ (inner ++ (suffix ++ "\x7d".toList ++ rest)) := by simp [delimited]
    rw [htext, if_pos (List.prefix_append _ _), List.drop_left]
    have hall : '\x7d' ∉ inner ++ suffix := by
      rw [List.mem_append, not_or]
      exact ⟨hclosing, hsuffix⟩
    have hsplit : inner ++ (suffix ++ "\x7d".toList ++ rest) =
        (inner ++ suffix) ++ '\x7d' :: rest := by simp
    have htake : ((inner ++ (suffix ++ "\x7d".toList ++ rest)).takeWhile (· != '\x7d')) =
        inner ++ suffix := by rw [hsplit, takeWhile_append_closing hall]
    show Regex.longest (Regex.matchItems ((suffix ++ "\x7d".toList).map .char ++ []))
      ((inner ++ (suffix ++ "\x7d".toList ++ rest)).takeWhile (· != '\x7d')).length _ = _
    rw [htake]
    have hpos : 0 < inner.length := List.length_pos_iff.mpr hne
    have hnext : Regex.matchItems ((suffix ++ "\x7d".toList).map .char ++ [])
        ((inner ++ (suffix ++ "\x7d".toList ++ rest)).drop inner.length) = some ([], rest) :=
      Regex.matchItems_end.mpr ⟨rfl, List.drop_left⟩
    rw [Regex.longest_only hpos hnext (by simp), List.take_left]
    intro j _ hj hsome
    obtain ⟨⟨groups, rest'⟩, hsome⟩ := Option.ne_none_iff_exists'.mp hsome
    obtain ⟨_, hdrop⟩ := Regex.matchItems_end.mp hsome
    rw [hsplit, List.append_assoc suffix] at hdrop
    exact length_of_drop hall hj hdrop

/-- What a braced pattern matches at the beginning of a text. -/
theorem matchAt_braced {first : Regex.Item} {items : List Regex.Item} {suffix : List Char}
    (hitems : first :: items = braced suffix) (hsuffix : '\x7d' ∉ suffix)
    {text matched : List Char} {groups : List (List Char)} :
    (Regex.pattern first items).matchAt text = some (matched, groups) ↔
      ∃ inner rest, inner ≠ [] ∧ '\x7d' ∉ inner ∧ matched = delimited (inner ++ suffix) ∧
        groups = [inner] ∧ text = matched ++ rest := by
  rw [Regex.matchAt_iff, hitems]
  constructor
  · rintro ⟨rest, htext, hmatch⟩
    obtain ⟨inner, hne, hclosing, htext', hgroups⟩ := (matchItems_braced hsuffix).mp hmatch
    rw [htext] at htext'
    exact ⟨inner, rest, hne, hclosing, List.append_cancel_right htext', hgroups, htext⟩
  · rintro ⟨inner, rest, hne, hclosing, rfl, rfl, rfl⟩
    exact ⟨rest, rfl, (matchItems_braced hsuffix).mpr ⟨inner, hne, hclosing, rfl, rfl⟩⟩

/-- The first pattern is braced. -/
theorem braced_envVar : [.char '$', .char '\x7b', .group (· != '\x7d'), .char '\x7d'] = braced [] :=
  rfl

/-- The second pattern is braced, with the property at its end. -/
theorem braced_service : [.char '$', .char '\x7b', .group (· != '\x7d'), .char '.', .char 'i',
    .char 'p', .char '\x7d'] = braced ".ip".toList := rfl

/-- What the pattern of variables matches. -/
theorem envVarRegex_iff {text matched : List Char} {groups : List (List Char)} :
    envVarRegex.matchAt text = some (matched, groups) ↔
      ∃ expr rest, expr ≠ [] ∧ '\x7d' ∉ expr ∧ matched = delimited expr ∧ groups = [expr] ∧
        text = matched ++ rest := by
  have hmatch : envVarRegex.matchAt text = some (matched, groups) ↔
      ∃ expr rest, expr ≠ [] ∧ '\x7d' ∉ expr ∧ matched = delimited (expr ++ []) ∧
        groups = [expr] ∧ text = matched ++ rest :=
    matchAt_braced braced_envVar (by simp)
  simpa only [List.append_nil] using hmatch

/-- What the pattern of services matches. -/
theorem serviceRegex_iff {text matched : List Char} {groups : List (List Char)} :
    serviceRegex.matchAt text = some (matched, groups) ↔
      ∃ service rest, service ≠ [] ∧ '\x7d' ∉ service ∧
        matched = delimited (service ++ ".ip".toList) ∧ groups = [service] ∧
        text = matched ++ rest := matchAt_braced braced_service (by decide)

/-! ## What the loops replace -/

open Template (replaceEach)

/-- What a match of the first pattern is replaced by. -/
def envVarReplacement (processEnv : HashMap String String) (_ : List Char)
    (groups : List (List Char)) : List Char :=
  match envVarValue processEnv (groups.headD []) with
  | .ok value => value
  | .error _ => []

/-- What a match of the second pattern is replaced by. -/
def serviceReplacement (serviceIps : HashMap String String) (_ : List Char)
    (groups : List (List Char)) : List Char :=
  match serviceIps.lookup (String.ofList (groups.headD [])) with
  | some ip => ip.toList
  | none => []

/-- The loop has no errors just when each variable has a value. -/
theorem substituteVars_errors {processEnv : HashMap String String} : ∀ {caps : List Capture}
    {result : List Char} {errors : List String},
    (substituteVars processEnv caps result errors).2 = [] ↔
      errors = [] ∧
        ∀ cap ∈ caps, ∃ value, envVarValue processEnv (Capture.group cap) = .ok value := by
  intro caps
  induction caps with
  | nil =>
    intro result errors
    simp [substituteVars]
  | cons cap caps ih =>
    intro result errors
    rw [substituteVars, List.forall_mem_cons]
    cases hvalue : envVarValue processEnv (Capture.group cap) with
    | ok value =>
      dsimp only
      rw [ih]
      simp
    | error name =>
      dsimp only
      rw [ih]
      simp

/-- With a value for each variable, the loop replaces them one after the other. -/
theorem substituteVars_result {processEnv : HashMap String String} : ∀ {caps : List Capture}
    {result : List Char} {errors : List String},
    (∀ cap ∈ caps, ∃ value, envVarValue processEnv (Capture.group cap) = .ok value) →
    (substituteVars processEnv caps result errors).1 =
      replaceEach (envVarReplacement processEnv) caps result := by
  intro caps
  induction caps with
  | nil =>
    intro result errors _
    rfl
  | cons cap caps ih =>
    intro result errors h
    rw [List.forall_mem_cons] at h
    obtain ⟨value, hvalue⟩ := h.1
    have hreplacement : envVarReplacement processEnv cap.1 cap.2 = value := by
      rw [envVarReplacement, show cap.2.headD [] = Capture.group cap from rfl, hvalue]
    rw [substituteVars, hvalue, replaceEach, hreplacement]
    exact ih h.2

/-- When variables are substituted, and by what. -/
theorem substituteEnvVars_iff {processEnv : HashMap String String} {input s : String} :
    substituteEnvVars processEnv input = .ok s ↔
      (∀ cap ∈ captures envVarRegex input.toList,
        ∃ value, envVarValue processEnv (Capture.group cap) = .ok value) ∧
      s.toList = replaceEach (envVarReplacement processEnv) (captures envVarRegex input.toList)
        input.toList := by
  unfold substituteEnvVars
  cases hloop : substituteVars processEnv (captures envVarRegex input.toList) input.toList [] with
  | mk result errors =>
    have herrors : errors = [] ↔ [] = ([] : List String) ∧
        ∀ cap ∈ captures envVarRegex input.toList,
          ∃ value, envVarValue processEnv (Capture.group cap) = .ok value := by
      rw [← substituteVars_errors, hloop]
    dsimp only
    by_cases hempty : errors = []
    · rw [if_pos hempty]
      have hall := (herrors.mp hempty).2
      have hresult : replaceEach (envVarReplacement processEnv)
          (captures envVarRegex input.toList) input.toList = result :=
        (substituteVars_result hall).symm.trans (congrArg Prod.fst hloop)
      rw [hresult]
      constructor
      · intro h
        obtain rfl := Except.ok.inj h
        exact ⟨hall, String.toList_ofList⟩
      · rintro ⟨_, hs⟩
        rw [← hs, String.ofList_toList]
    · rw [if_neg hempty]
      refine iff_of_false (by simp) ?_
      rintro ⟨hall, _⟩
      exact hempty (herrors.mpr ⟨rfl, hall⟩)

/-- When the loop over services succeeds, and with what. -/
theorem substituteServices_iff {serviceIps : HashMap String String} : ∀ {caps : List Capture}
    {input result : List Char}, substituteServices serviceIps caps input = .ok result ↔
      (∀ cap ∈ caps, String.ofList (Capture.group cap) ∈ serviceIps) ∧
      result = replaceEach (serviceReplacement serviceIps) caps input := by
  intro caps
  induction caps with
  | nil =>
    intro input result
    simp [substituteServices, replaceEach, eq_comm]
  | cons cap caps ih =>
    intro input result
    rw [substituteServices, List.forall_mem_cons]
    cases hip : serviceIps.lookup (String.ofList (Capture.group cap)) with
    | some ip =>
      have hknown : String.ofList (Capture.group cap) ∈ serviceIps :=
        AList.lookup_isSome.mp (by rw [hip]; rfl)
      have hreplacement : serviceReplacement serviceIps cap.1 cap.2 = ip.toList := by
        rw [serviceReplacement, show cap.2.headD [] = Capture.group cap from rfl, hip]
      dsimp only
      rw [ih, replaceEach, hreplacement]
      simp [hknown]
    | none =>
      refine iff_of_false (by simp) ?_
      rintro ⟨⟨hknown, _⟩, _⟩
      exact AList.lookup_eq_none.mp hip hknown

/-- When references are substituted, and by what. -/
theorem substituteServiceRefs_iff {serviceIps : HashMap String String} {input s : String} :
    substituteServiceRefs input serviceIps = .ok s ↔
      (∀ cap ∈ captures serviceRegex input.toList,
        String.ofList (Capture.group cap) ∈ serviceIps) ∧
      s.toList = replaceEach (serviceReplacement serviceIps) (captures serviceRegex input.toList)
        input.toList := by
  rw [← substituteServices_iff]
  unfold substituteServiceRefs
  cases substituteServices serviceIps (captures serviceRegex input.toList) input.toList with
  | ok result =>
    constructor
    · intro h
      obtain rfl := Except.ok.inj h
      rw [String.toList_ofList]
    · intro h
      rw [Except.ok.inj h]
      dsimp only
      rw [String.ofList_toList]
  | error e => simp

end GraphHarness.Parser
