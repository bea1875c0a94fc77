import GraphHarness.Config.Resolver

/-!
# The grammar of variables

What a `${…}` may hold, and what the parser makes of it.

> `meetsGrammar_iff` — the parser accepts exactly the grammar, **unless the default
> contains a dot**: with a dot an expression is taken for a service reference.

The grammar of the documentation is `Denotes`, stated without a parser: a name of a
variable, such a name with a default, or a service with one of three properties. The two
parsers of expressions are then described one after the other (`parseEnvVar_iff`,
`parseServiceRef_iff`), and `parse_variable_expr` by the dot that decides between them.

That choice is where the code departs from the documentation: an expression with a dot is
never tried as a variable, also where the dot stands in the default behind a `:-`. The error
is then about a service of that name, or about its property (`dotted_default_rejected`).
-/

namespace GraphHarness.Resolver

/-- A character of an environment variable's name. -/
def isEnvVarChar (c : Char) : Bool := isUpper c || isAsciiDigit c || c == '_'

/-- A character of a service's name. -/
def isServiceChar (c : Char) : Bool := isAsciiAlpha c || isAsciiDigit c || c == '_' || c == '-'

/-- `[A-Z][A-Z0-9_]*` -/
def IsEnvVarName (name : List Char) : Prop :=
  (∃ c, name.head? = some c ∧ isUpper c = true) ∧ ∀ c ∈ name, isEnvVarChar c = true

/-- `[A-Za-z][A-Za-z0-9_-]*` -/
def IsServiceName (name : List Char) : Prop :=
  (∃ c, name.head? = some c ∧ isAsciiAlpha c = true) ∧ ∀ c ∈ name, isServiceChar c = true

/-- The variable that an expression stands for. -/
inductive Denotes : List Char → Variable → Prop
  | envVar {name : List Char} (hname : IsEnvVarName name) :
    Denotes name (.envVar (String.ofList name) none)
  | withDefault {name default : List Char} (hname : IsEnvVarName name) :
    Denotes (name ++ ":-".toList ++ default)
      (.envVar (String.ofList name) (some (String.ofList default)))
  | serviceRef {service property : List Char} (hservice : IsServiceName service)
    (hproperty : property ∈ ["ip".toList, "port".toList, "host".toList]) :
    Denotes (service ++ ".".toList ++ property)
      (.serviceRef (String.ofList service) (String.ofList property))

/-! ## The names -/

/-- The parser takes the longest name there is, and nothing else. -/
theorem envVarName_iff {input rest name : List Char} :
    envVarName input = some (rest, name) ↔
      input = name ++ rest ∧ IsEnvVarName name ∧ rest.head?.any isEnvVarChar = false := by
  rw [envVarName, Nom.verify_iff, Nom.takeWhile1_iff]
  show (name ≠ [] ∧ input = name ++ rest ∧ (∀ c ∈ name, isEnvVarChar c = true) ∧
    rest.head?.any isEnvVarChar = false) ∧ name.head?.any isUpper = true ↔ _
  rw [Option.any_eq_true, IsEnvVarName]
  constructor
  · rintro ⟨⟨_, hinput, hall, hstop⟩, hhead⟩
    exact ⟨hinput, ⟨hhead, hall⟩, hstop⟩
  · rintro ⟨hinput, ⟨⟨c, hc, hupper⟩, hall⟩, hstop⟩
    refine ⟨⟨?_, hinput, hall, hstop⟩, c, hc, hupper⟩
    rintro rfl
    cases hc

/-- `is_ascii_alphanumeric`. -/
def isAsciiAlnum (c : Char) : Bool := isAsciiAlpha c || isAsciiDigit c

/-- Letters and digits may stand in the name of a service. -/
theorem isServiceChar_of_alnum {c : Char} (h : isAsciiAlnum c = true) :
    isServiceChar c = true := by
  unfold isAsciiAlnum at h
  unfold isServiceChar
  rw [h]
  rfl

/-- Besides letters and digits these are the underscore and the hyphen. -/
theorem isServiceChar_cases {c : Char} (h : isServiceChar c = true) (halnum : ¬ isAsciiAlnum c) :
    c = '_' ∨ c = '-' := by
  unfold isServiceChar at h
  unfold isAsciiAlnum at halnum
  rw [Bool.not_eq_true] at halnum
  rw [halnum] at h
  simpa using h

/-- One round of the name's loop takes one or more characters that may stand in it. -/
theorem serviceName_takes :
    Nom.Takes (Nom.alt [Nom.takeWhile1 isAsciiAlnum, Nom.tag "_".toList, Nom.tag "-".toList])
      isServiceChar := by
  intro input
  cases input with
  | nil => exact .inl ⟨rfl, rfl⟩
  | cons c input =>
    by_cases halnum : isAsciiAlnum c = true
    · obtain ⟨hinput, hall, hstop⟩ := Nom.cut isAsciiAlnum input
      have hall' : ∀ d ∈ c :: input.takeWhile isAsciiAlnum, isAsciiAlnum d = true :=
        List.forall_mem_cons.mpr ⟨halnum, hall⟩
      have hinput' : c :: input = c :: input.takeWhile isAsciiAlnum ++
          input.dropWhile isAsciiAlnum := congrArg (c :: ·) hinput
      refine .inr ⟨_, _, _, List.cons_ne_nil _ _, hinput', ?_,
        Nom.alt_first (Nom.takeWhile1_iff.mpr ⟨List.cons_ne_nil _ _, hinput', hall', hstop⟩)⟩
      intro d hd
      exact isServiceChar_of_alnum (hall' d hd)
    · have hfirst : Nom.takeWhile1 isAsciiAlnum (c :: input) = none := by
        rw [Nom.takeWhile1, List.takeWhile_cons_of_neg halnum, if_pos rfl]
      rw [Nom.alt_next hfirst]
      by_cases hunderscore : c = '_'
      · subst hunderscore
        exact .inr ⟨"_".toList, input, _, by decide, rfl, List.all_eq_true.mp rfl,
          Nom.alt_first (Nom.tag_append _ _)⟩
      rw [Nom.alt_next (Nom.tag_none (by simp [Ne.symm hunderscore]))]
      by_cases hdash : c = '-'
      · subst hdash
        exact .inr ⟨"-".toList, input, _, by decide, rfl, List.all_eq_true.mp rfl,
          Nom.alt_first (Nom.tag_append _ _)⟩
      rw [Nom.alt_next (Nom.tag_none (by simp [Ne.symm hdash]))]
      refine .inl ⟨rfl, List.takeWhile_cons_of_neg ?_⟩
      intro hc
      rcases isServiceChar_cases hc halnum with rfl | rfl
      · exact hunderscore rfl
      · exact hdash rfl

/-- The parser takes the longest name there is, and nothing else. -/
theorem serviceName_iff {input rest name : List Char} :
    serviceName input = some (rest, name) ↔
      input = name ++ rest ∧ IsServiceName name ∧ rest.head?.any isServiceChar = false := by
  rw [serviceName, Nom.verify_iff, Nom.recognize_iff, Option.any_eq_true, IsServiceName]
  show (_ ∧ name = input.take (input.length - rest.length)) ∧ _ ↔ _
  constructor
  · rintro ⟨⟨⟨⟨first, others⟩, hpair⟩, hname⟩, hhead⟩
    obtain ⟨input', hfirst, hothers⟩ := Nom.pair_iff.mp hpair
    obtain ⟨_, rfl, hall, _⟩ := Nom.takeWhile1_iff.mp hfirst
    obtain ⟨xs, hxs⟩ := Nom.many0_takes serviceName_takes input'
    obtain ⟨rfl, _⟩ : input'.dropWhile isServiceChar = rest ∧ xs = others := by
      simpa using hxs.symm.trans hothers
    obtain ⟨hinput', hall', hstop⟩ := Nom.cut isServiceChar input'
    have hsplit : first ++ input' = (first ++ input'.takeWhile isServiceChar) ++
        input'.dropWhile isServiceChar := by rw [List.append_assoc, ← hinput']
    have htake : name = first ++ input'.takeWhile isServiceChar := by
      rw [hname, hsplit, List.length_append, Nat.add_sub_cancel, List.take_left]
    refine ⟨by rw [htake, ← hsplit], ⟨hhead, ?_⟩, hstop⟩
    intro c hc
    rw [htake, List.mem_append] at hc
    rcases hc with hc | hc
    · exact isServiceChar_of_alnum (by rw [isAsciiAlnum, hall c hc]; rfl)
    · exact hall' c hc
  · rintro ⟨rfl, ⟨⟨c, hhead, halpha⟩, hall⟩, hstop⟩
    obtain ⟨hinput, hfirst, hnext⟩ := Nom.cut isAsciiAlpha (name ++ rest)
    have hne : (name ++ rest).takeWhile isAsciiAlpha ≠ [] := by
      cases name with
      | nil => cases hhead
      | cons d name =>
        obtain rfl : d = c := by simpa using hhead
        rw [List.cons_append, List.takeWhile_cons_of_pos halpha]
        exact List.cons_ne_nil _ _
    obtain ⟨xs, hxs⟩ := Nom.many0_takes serviceName_takes ((name ++ rest).dropWhile isAsciiAlpha)
    -- both ways of cutting the text end where the class ends
    have hrest : ((name ++ rest).dropWhile isAsciiAlpha).dropWhile isServiceChar = rest := by
      have hfirst' : ∀ d ∈ (name ++ rest).takeWhile isAsciiAlpha, isServiceChar d = true :=
        fun d hd => isServiceChar_of_alnum (by rw [isAsciiAlnum, hfirst d hd]; rfl)
      rw [← List.dropWhile_append_of_pos hfirst', ← hinput]
      exact (Nom.cut_iff.mpr ⟨rfl, hall, hstop⟩).2.symm
    rw [hrest] at hxs
    have hfound := Nom.takeWhile1_iff.mpr ⟨hne, hinput, hfirst, hnext⟩
    refine ⟨⟨⟨_, Nom.pair_iff.mpr ⟨_, hfound, hxs⟩⟩, ?_⟩, c, hhead, halpha⟩
    rw [List.length_append, Nat.add_sub_cancel, List.take_left]

/-- A property is one of three words. -/
theorem serviceProperty_iff {input property : List Char} :
    serviceProperty input = some ([], property) ↔
      input = property ∧ property ∈ ["ip".toList, "port".toList, "host".toList] := by
  constructor
  · intro h
    obtain ⟨p, hmem, hp⟩ := Nom.alt_eq_some h
    have hcases : p = Nom.tag "ip".toList ∨ p = Nom.tag "port".toList ∨
        p = Nom.tag "host".toList := by simpa using hmem
    rcases hcases with rfl | rfl | rfl
    · obtain ⟨rfl, rfl⟩ := Nom.tag_iff.mp hp
      exact ⟨List.append_nil _, by simp⟩
    · obtain ⟨rfl, rfl⟩ := Nom.tag_iff.mp hp
      exact ⟨List.append_nil _, by simp⟩
    · obtain ⟨rfl, rfl⟩ := Nom.tag_iff.mp hp
      exact ⟨List.append_nil _, by simp⟩
  · rintro ⟨rfl, hmem⟩
    have hcases : input = "ip".toList ∨ input = "port".toList ∨ input = "host".toList := by
      simpa using hmem
    rcases hcases with rfl | rfl | rfl
    · rfl
    · rfl
    · rfl

/-! ## The expressions -/

/-- A variable is a name, or a name with any default behind `:-`. -/
theorem parseEnvVar_iff {input rest : List Char} {var : Variable} :
    parseEnvVar input = some (rest, var) ↔ rest = [] ∧
      (IsEnvVarName input ∧ var = .envVar (String.ofList input) none ∨
      ∃ name default, input = name ++ ":-".toList ++ default ∧ IsEnvVarName name ∧
        var = .envVar (String.ofList name) (some (String.ofList default))) := by
  constructor
  · intro h
    obtain ⟨p, hmem, hp⟩ := Nom.alt_eq_some h
    rw [List.mem_pair] at hmem
    rcases hmem with rfl | rfl
    · obtain ⟨⟨name, default⟩, hsep, rfl⟩ := Nom.map_iff.mp hp
      obtain ⟨input₁, s, input₂, hread, htag, hrest⟩ := Nom.separatedPair_iff.mp hsep
      obtain ⟨rfl, hname, _⟩ := envVarName_iff.mp hread
      obtain ⟨rfl, _⟩ := Nom.tag_iff.mp htag
      obtain ⟨rfl, rfl⟩ : [] = rest ∧ input₂ = default := by simpa [Nom.rest] using hrest
      exact ⟨rfl, .inr ⟨name, input₂, (List.append_assoc ..).symm, hname, rfl⟩⟩
    · obtain ⟨name, hall, rfl⟩ := Nom.map_iff.mp hp
      obtain ⟨hread, rfl⟩ := Nom.allConsuming_iff.mp hall
      obtain ⟨rfl, hname, _⟩ := envVarName_iff.mp hread
      rw [List.append_nil]
      exact ⟨rfl, .inl ⟨hname, rfl⟩⟩
  · rintro ⟨rfl, ⟨hname, rfl⟩ | ⟨name, default, rfl, hname, rfl⟩⟩
    · have hread : envVarName input = some ([], input) :=
        envVarName_iff.mpr ⟨(List.append_nil input).symm, hname, rfl⟩
      have hfirst : Nom.map (Nom.separatedPair envVarName (Nom.tag ":-".toList) Nom.rest)
          (fun out => Variable.envVar (String.ofList out.1) (some (String.ofList out.2))) input =
            none := by
        -- the name is all there is
        rw [Nom.map, Nom.separatedPair, Nom.map, Nom.pair, hread]
        rfl
      rw [parseEnvVar, Nom.alt_next hfirst]
      exact Nom.alt_first (Nom.map_iff.mpr ⟨input, Nom.allConsuming_iff.mpr ⟨hread, rfl⟩, rfl⟩)
    · have hread : envVarName (name ++ ":-".toList ++ default) =
          some (":-".toList ++ default, name) :=
        envVarName_iff.mpr ⟨List.append_assoc .., hname, rfl⟩
      exact Nom.alt_first (Nom.map_iff.mpr ⟨(name, default), Nom.separatedPair_iff.mpr
        ⟨_, _, _, hread, Nom.tag_append _ _, rfl⟩, rfl⟩)

/-- A reference is a name, a dot and one of the three properties. -/
theorem parseServiceRef_iff {input rest : List Char} {var : Variable} :
    parseServiceRef input = some (rest, var) ↔ rest = [] ∧
      ∃ service property, input = service ++ ".".toList ++ property ∧ IsServiceName service ∧
        property ∈ ["ip".toList, "port".toList, "host".toList] ∧
        var = .serviceRef (String.ofList service) (String.ofList property) := by
  rw [parseServiceRef, Nom.map_iff]
  constructor
  · rintro ⟨⟨service, property⟩, hall, rfl⟩
    obtain ⟨hsep, rfl⟩ := Nom.allConsuming_iff.mp hall
    obtain ⟨input₁, s, input₂, hread, htag, hend⟩ := Nom.separatedPair_iff.mp hsep
    obtain ⟨rfl, hservice, _⟩ := serviceName_iff.mp hread
    obtain ⟨rfl, _⟩ := Nom.tag_iff.mp htag
    obtain ⟨rfl, hproperty⟩ := serviceProperty_iff.mp hend
    exact ⟨rfl, service, input₂, (List.append_assoc ..).symm, hservice, hproperty, rfl⟩
  · rintro ⟨rfl, service, property, rfl, hservice, hproperty, rfl⟩
    have hread : serviceName (service ++ ".".toList ++ property) =
        some (".".toList ++ property, service) :=
      serviceName_iff.mpr ⟨List.append_assoc .., hservice, rfl⟩
    exact ⟨(service, property), Nom.allConsuming_iff.mpr ⟨Nom.separatedPair_iff.mpr
      ⟨_, _, _, hread, Nom.tag_append _ _, serviceProperty_iff.mpr ⟨rfl, hproperty⟩⟩, rfl⟩, rfl⟩

/-- The name of a variable has no dot. -/
theorem dot_notMem_envVarName {name : List Char} (h : IsEnvVarName name) : '.' ∉ name := by
  intro hdot
  exact absurd (h.2 '.' hdot) (by decide)

/-- A default with a dot in it. -/
def DottedDefault (expr : List Char) : Prop :=
  ∃ name default, expr = name ++ ":-".toList ++ default ∧ IsEnvVarName name ∧ '.' ∈ default

/-- A reference has one. -/
theorem dot_mem_serviceRef (service property : List Char) :
    '.' ∈ service ++ ".".toList ++ property := by simp

/-- A reference is not a variable with a dot in its default. -/
theorem not_dottedDefault_serviceRef {service property : List Char}
    (hservice : IsServiceName service)
    (hproperty : property ∈ ["ip".toList, "port".toList, "host".toList]) :
    ¬ DottedDefault (service ++ ".".toList ++ property) := by
  rintro ⟨name, default, heq, _⟩
  have hcolon : ':' ∈ service ++ ".".toList ++ property := by
    rw [heq]
    simp
  rw [List.mem_append, List.mem_append] at hcolon
  rcases hcolon with (hcolon | hcolon) | hcolon
  · exact absurd (hservice.2 ':' hcolon) (by decide)
  · exact absurd hcolon (by decide)
  · have hcases : property = "ip".toList ∨ property = "port".toList ∨
        property = "host".toList := by simpa using hproperty
    rcases hcases with rfl | rfl | rfl
    · exact absurd hcolon (by decide)
    · exact absurd hcolon (by decide)
    · exact absurd hcolon (by decide)

/-- With a dot only service references are accepted. -/
theorem parseVariableExpr_dot {expr : List Char} (hdot : '.' ∈ expr) {var : Variable} :
    parseVariableExpr expr = some ([], .ok var) ↔ parseServiceRef expr = some ([], var) := by
  rw [parseVariableExpr, if_pos hdot]
  cases hparse : parseServiceRef expr with
  | some out =>
    obtain ⟨rest, var'⟩ := out
    obtain ⟨rfl, _⟩ := parseServiceRef_iff.mp hparse
    simp
  | none =>
    dsimp only
    split
    next => simp
    next => simp

/-- Without one only environment variables are. -/
theorem parseVariableExpr_noDot {expr : List Char} (hdot : '.' ∉ expr) {var : Variable} :
    parseVariableExpr expr = some ([], .ok var) ↔ parseEnvVar expr = some ([], var) := by
  rw [parseVariableExpr, if_neg hdot]
  cases hparse : parseEnvVar expr with
  | some out =>
    obtain ⟨rest, var'⟩ := out
    obtain ⟨rfl, _⟩ := parseEnvVar_iff.mp hparse
    simp
  | none => simp

/-- What the parser accepts: the grammar, without defaults that have a dot. -/
theorem parseVariableExpr_ok_iff {expr : List Char} {var : Variable} :
    parseVariableExpr expr = some ([], .ok var) ↔ Denotes expr var ∧ ¬ DottedDefault expr := by
  by_cases hdot : '.' ∈ expr
  · rw [parseVariableExpr_dot hdot, parseServiceRef_iff]
    constructor
    · rintro ⟨_, service, property, rfl, hservice, hproperty, rfl⟩
      exact ⟨.serviceRef hservice hproperty, not_dottedDefault_serviceRef hservice hproperty⟩
    · rintro ⟨hdenotes, hplain⟩
      cases hdenotes with
      | envVar hname => exact absurd hdot (dot_notMem_envVarName hname)
      | @withDefault name default hname =>
        -- the dot is in the default, as the rest has none
        refine absurd ⟨name, default, rfl, hname, ?_⟩ hplain
        rw [List.mem_append, List.mem_append] at hdot
        rcases hdot with (hdot | hdot) | hdot
        · exact absurd hdot (dot_notMem_envVarName hname)
        · exact absurd hdot (by decide)
        · exact hdot
      | @serviceRef service property hservice hproperty =>
        exact ⟨rfl, service, property, rfl, hservice, hproperty, rfl⟩
  · rw [parseVariableExpr_noDot hdot, parseEnvVar_iff]
    have hplain : ¬ DottedDefault expr := by
      rintro ⟨name, default, rfl, _, hmem⟩
      exact hdot (List.mem_append_right _ hmem)
    constructor
    · rintro ⟨_, ⟨hname, rfl⟩ | ⟨name, default, rfl, hname, rfl⟩⟩
      · exact ⟨.envVar hname, hplain⟩
      · exact ⟨.withDefault hname, hplain⟩
    · rintro ⟨hdenotes, _⟩
      cases hdenotes with
      | envVar hname => exact ⟨rfl, .inl ⟨hname, rfl⟩⟩
      | @withDefault name default hname => exact ⟨rfl, .inr ⟨name, default, rfl, hname, rfl⟩⟩
      | @serviceRef service property =>
        exact absurd (dot_mem_serviceRef service property) hdot

/-- A service reference carries one of the three known properties. -/
theorem parseVariableExpr_property {expr : List Char} {service property : String}
    (h : parseVariableExpr expr = some ([], .ok (.serviceRef service property))) :
    property = "ip" ∨ property = "port" ∨ property = "host" := by
  obtain ⟨hdenotes, _⟩ := parseVariableExpr_ok_iff.mp h
  cases hdenotes with
  | serviceRef _ hproperty =>
    rcases List.mem_cons.mp hproperty with rfl | hproperty
    · exact .inl String.ofList_toList
    rcases List.mem_pair.mp hproperty with rfl | rfl
    · exact .inr (.inl String.ofList_toList)
    · exact .inr (.inr String.ofList_toList)

/-- A reference that is found in a text has one of the three properties. -/
theorem findVariables_property {input : String} {start stop : Nat} {service property : String}
    (h : .ok (start, stop, .serviceRef service property) ∈ findVariables input) :
    property = "ip" ∨ property = "port" ∨ property = "host" := by
  obtain ⟨_, content, _, _, _, _, hvar⟩ := findVariables_spans input _ h
  exact parseVariableExpr_property hvar

/-- A variable up to its first closing brace is parsed by its expression. -/
theorem parseVariable_eq {expr : List Char} (h : '\x7d' ∉ expr) (rest : List Char) :
    ∃ result, parseVariableExpr expr = some ([], result) ∧
      parseVariable ("$\x7b".toList ++ expr ++ "\x7d".toList ++ rest) = some (rest, result) := by
  obtain ⟨result, hresult⟩ := parseVariableExpr_total expr
  refine ⟨result, hresult, ?_⟩
  have huntil : Nom.takeUntil "\x7d".toList (expr ++ ("\x7d".toList ++ rest)) =
      some ("\x7d".toList ++ rest, expr) := Nom.takeUntil_singleton h
  rw [List.append_assoc, List.append_assoc, parseVariable, Nom.tag_append]
  dsimp only
  rw [huntil]
  dsimp only
  rw [Nom.tag_append]
  dsimp only
  rw [hresult]

/-- The parser accepts an expression exactly as the grammar has it, with the variable the
grammar gives it, and answers with an error otherwise. -/
structure MeetsGrammar (expr : List Char) : Prop where
  accepts : ∀ var, parseVariable ("$\x7b".toList ++ expr ++ "\x7d".toList) = some ([], .ok var) ↔
    Denotes expr var
  rejects : (¬ ∃ var, Denotes expr var) →
    ∃ e, parseVariable ("$\x7b".toList ++ expr ++ "\x7d".toList) = some ([], .error e)

/-- An expression without a closing brace is parsed as the grammar has it, if and only if
it is not a default with a dot in it. -/
theorem meetsGrammar_iff (expr : List Char) (h : '\x7d' ∉ expr) :
    MeetsGrammar expr ↔ ¬ DottedDefault expr := by
  obtain ⟨result, hexpr, hparse⟩ := parseVariable_eq h []
  rw [List.append_nil] at hparse
  have hok : ∀ var, parseVariable ("$\x7b".toList ++ expr ++ "\x7d".toList) =
      some ([], .ok var) ↔ Denotes expr var ∧ ¬ DottedDefault expr := by
    intro var
    rw [hparse, ← parseVariableExpr_ok_iff, hexpr]
  constructor
  · rintro ⟨haccepts, _⟩ hdotted
    obtain ⟨name, default, rfl, hname, hdot⟩ := hdotted
    have haccepted := (haccepts _).mpr (.withDefault hname)
    exact ((hok _).mp haccepted).2 ⟨name, default, rfl, hname, hdot⟩
  · intro hplain
    refine ⟨fun var => (hok var).trans ⟨fun h => h.1, fun h => ⟨h, hplain⟩⟩, ?_⟩
    intro hnone
    cases result with
    | error e => exact ⟨e, hparse⟩
    | ok var => exact absurd ⟨var, ((hok var).mp hparse).1⟩ hnone

/-- `${postgres.ip}` is. -/
theorem postgres_ip_meetsGrammar : MeetsGrammar "postgres.ip".toList := by
  refine (meetsGrammar_iff "postgres.ip".toList (by decide)).mpr ?_
  rintro ⟨name, default, heq, _⟩
  have hcolon : ':' ∈ "postgres.ip".toList := by
    rw [heq]
    simp
  exact absurd hcolon (by decide)

/-- `${API_HOST:-0.0.0.0}` is not. -/
theorem dotted_default_rejected :
    ¬ ∀ expr : List Char, '\x7d' ∉ expr → MeetsGrammar expr := by
  intro h
  have haccepts := (h "API_HOST:-0.0.0.0".toList (by decide)).accepts
  have hdenotes : Denotes ("API_HOST".toList ++ ":-".toList ++ "0.0.0.0".toList) _ :=
    .withDefault ⟨⟨'A', rfl, rfl⟩, List.all_eq_true.mp rfl⟩
  exact absurd ((haccepts _).mpr hdenotes) (by decide)

end GraphHarness.Resolver
