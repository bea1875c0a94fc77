import GraphHarness.Config.Grammar

/-!
# Validation is enough

`validate_references` collects the service references as `service.property` texts and
cuts each at its first dot. That gives back the service, as a service's name has no dot.

> `validated_resolves` — in a validated configuration, every service's environment can be
> resolved once the services and the variables without a default are known.

The condition on the variables is needed because `validate_references` only warns about a
variable that is not set. That every service is known is what `start` sees to, by starting
the services in the order of their dependencies.

`checkReferences` cuts at the first dot with `split_once`, and `find_dot_serviceRef` shows
that this is the dot between the service and its property. The keys of the environment are
not looked at by the resolution (`resolveServiceEnv_keys`): each is kept, with its value
resolved.
-/

namespace GraphHarness.Resolver

/-! ## What is collected -/

/-- The references of the items are added to those there. -/
theorem addReferences_serviceRef : ∀ {items : List Found} {refs out : List String × List String},
    addReferences items refs = .ok out →
      (∀ ref ∈ refs.2, ref ∈ out.2) ∧
      ∀ start stop service property, .ok (start, stop, .serviceRef service property) ∈ items →
        service ++ "." ++ property ∈ out.2 := by
  intro items
  induction items with
  | nil =>
    intro refs out h
    obtain rfl : refs = out := by simpa [addReferences] using h
    refine ⟨fun _ hmem => hmem, ?_⟩
    intro start stop service property hmem
    cases hmem
  | cons item items ih =>
    rintro ⟨envVars, serviceRefs⟩ out h
    rcases item with e | ⟨start, stop, var⟩
    · simp [addReferences] at h
    cases var with
    | envVar name default =>
      rw [addReferences] at h
      obtain ⟨hkept, hcollected⟩ := ih h
      refine ⟨hkept, ?_⟩
      intro start' stop' service property hmem
      rcases List.mem_cons.mp hmem with heq | hmem
      · cases heq
      · exact hcollected start' stop' service property hmem
    | serviceRef service property =>
      rw [addReferences] at h
      obtain ⟨hkept, hcollected⟩ := ih h
      refine ⟨fun ref hmem => hkept ref (List.mem_insert_of_mem hmem), ?_⟩
      intro start' stop' service' property' hmem
      rcases List.mem_cons.mp hmem with heq | hmem
      · cases heq
        exact hkept _ List.mem_insert_self
      · exact hcollected start' stop' service' property' hmem

/-- A check that passes has found the name before each dot. -/
theorem checkReferences_ok {cfg : Config} : ∀ {serviceRefs : List String},
    checkReferences cfg serviceRefs = .ok () → ∀ serviceRef ∈ serviceRefs, ∀ name found,
      Nom.find ".".toList serviceRef.toList = some (name, found) →
      String.ofList name ∈ cfg.services := by
  intro serviceRefs
  induction serviceRefs with
  | nil =>
    intro _ serviceRef hmem
    cases hmem
  | cons first serviceRefs ih =>
    intro h serviceRef hmem name found hfind
    rw [checkReferences] at h
    split at h
    next name' found' hfirst =>
      split at h
      next hknown =>
        rcases List.mem_cons.mp hmem with rfl | hmem
        · obtain ⟨rfl, _⟩ : name' = name ∧ found' = found := by
            simpa using hfirst.symm.trans hfind
          exact hknown
        · exact ih h serviceRef hmem name found hfind
      next => cases h
    next hfirst =>
      rcases List.mem_cons.mp hmem with rfl | hmem
      · rw [hfirst] at hfind
        cases hfind
      · exact ih h serviceRef hmem name found hfind

/-- What a reference to a service is made of. -/
theorem Denotes.serviceRef_inv {expr : List Char} {service property : String}
    (h : Denotes expr (.serviceRef service property)) :
    IsServiceName service.toList ∧ (property = "ip" ∨ property = "port" ∨ property = "host") := by
  generalize hvar : Variable.serviceRef service property = var at h
  cases h with
  | envVar => cases hvar
  | withDefault => cases hvar
  | @serviceRef name prop hservice hproperty =>
    obtain ⟨rfl, rfl⟩ : service = String.ofList name ∧ property = String.ofList prop := by
      simpa using hvar
    rw [String.toList_ofList]
    refine ⟨hservice, ?_⟩
    have hcases : prop = "ip".toList ∨ prop = "port".toList ∨ prop = "host".toList := by
      simpa using hproperty
    rcases hcases with rfl | rfl | rfl
    · exact .inl (String.ofList_toList)
    · exact .inr (.inl (String.ofList_toList))
    · exact .inr (.inr (String.ofList_toList))

/-- Every variable that is found is one of the grammar. -/
theorem findVariables_denotes {input : String} {start stop : Nat} {var : Variable}
    (h : .ok (start, stop, var) ∈ findVariables input) : ∃ expr, Denotes expr var := by
  obtain ⟨_, expr, _, _, _, _, hvar⟩ := findVariables_spans input _ h
  exact ⟨expr, (parseVariableExpr_ok_iff.mp hvar).1⟩

/-- The first dot of a collected reference is behind the service. -/
theorem find_dot_serviceRef {service property : String} (h : IsServiceName service.toList) :
    Nom.find ".".toList (service ++ "." ++ property).toList =
      some (service.toList, ".".toList ++ property.toList) := by
  have hdot : '.' ∉ service.toList := fun hmem => absurd (h.2 '.' hmem) (by decide)
  rw [String.toList_append, String.toList_append, List.append_assoc]
  exact Nom.find_cons [] hdot property.toList

/-- In a validated configuration, what a service's environment refers to is a service. -/
theorem validateReferences_known {ord : HashOrder} {cfg : Config}
    (h : validateReferences ord cfg = .ok ()) {name : String} {service : Service}
    (hs : cfg.services.lookup name = some service) {start stop : Nat} {target property : String}
    (hitem : .ok (start, stop, .serviceRef target property) ∈ serviceVariables service) :
    target ∈ cfg.services := by
  unfold validateReferences findAllReferences at h
  split at h
  next => cases h
  next envVars serviceRefs hrefs =>
    have hall : .ok (start, stop, .serviceRef target property) ∈
        cfg.services.entries.flatMap (fun entry => serviceVariables entry.2) :=
      List.mem_flatMap.mpr ⟨⟨name, service⟩, AList.mem_lookup_iff.mp hs, hitem⟩
    have hcollected := (addReferences_serviceRef hrefs).2 start stop target property hall
    obtain ⟨entry, _, hfound⟩ := List.mem_flatMap.mp hitem
    obtain ⟨expr, hexpr⟩ := findVariables_denotes hfound
    have hknown := checkReferences_ok h (target ++ "." ++ property)
      ((ord.perm .serviceRefs serviceRefs).mem_iff.mpr hcollected) _ _
      (find_dot_serviceRef hexpr.serviceRef_inv.1)
    rwa [String.ofList_toList] at hknown

/-! ## What is resolved -/

/-- The keys are those of the entries. -/
theorem resolveEntries_keys {processEnv : HashMap String String} {context : ResolutionContext} :
    ∀ {env : List (Σ _ : String, String)} {resolvedEnv out : HashMap String String},
      resolveEntries processEnv context env resolvedEnv = .ok out →
      ∀ key, key ∈ out ↔ key ∈ resolvedEnv ∨ ∃ entry ∈ env, entry.1 = key := by
  intro env
  induction env with
  | nil =>
    intro resolvedEnv out h key
    obtain rfl : resolvedEnv = out := by simpa [resolveEntries] using h
    simp
  | cons entry env ih =>
    intro resolvedEnv out h key
    obtain ⟨first, value⟩ := entry
    rw [resolveEntries] at h
    split at h
    next resolved _ =>
      rw [ih h key, AList.mem_insert]
      constructor
      · rintro ((rfl | hkey) | ⟨entry, hentry, rfl⟩)
        · exact .inr ⟨_, List.mem_cons_self, rfl⟩
        · exact .inl hkey
        · exact .inr ⟨entry, List.mem_cons_of_mem _ hentry, rfl⟩
      · rintro (hkey | ⟨entry, hentry, rfl⟩)
        · exact .inl (.inr hkey)
        · rcases List.mem_cons.mp hentry with rfl | hentry
          · exact .inl (.inl rfl)
          · exact .inr ⟨entry, hentry, rfl⟩
    next => cases h

/-- The resolved environment has the keys of the declared one. -/
theorem resolveServiceEnv_keys {processEnv : HashMap String String} {service : Service}
    {context : ResolutionContext} {env : HashMap String String}
    (h : resolveServiceEnv processEnv service context = .ok env) (key : String) :
    key ∈ env ↔ key ∈ service.env := by
  rw [resolveEntries_keys h key]
  constructor
  · rintro (hempty | ⟨entry, hentry, rfl⟩)
    · exact absurd hempty (AList.notMem_empty key)
    · exact List.mem_keys_of_mem hentry
  · intro hkey
    obtain ⟨value, hvalue⟩ := List.exists_of_mem_keys hkey
    exact .inr ⟨_, hvalue, rfl⟩

/-- The variable occurs in a service's environment, without a default. -/
def NeedsValue (service : Service) (name : String) : Prop :=
  ∃ start stop, .ok (start, stop, .envVar name none) ∈ serviceVariables service

/-- In a validated configuration the environment of every service can be resolved, key by
key, in every context that knows the services and has a value for each variable that the
service uses without a default. -/
theorem validated_resolves (ord : HashOrder) (cfg : Config)
    (hvalid : validateReferences ord cfg = .ok ()) (name : String) (service : Service)
    (hs : cfg.services.lookup name = some service) (processEnv : HashMap String String)
    (context : ResolutionContext) (hknows : ∀ other ∈ cfg.services, context.Knows other)
    (hvalues : ∀ var, NeedsValue service var → var ∈ context.envVars ∨ var ∈ processEnv) :
    ∃ env, resolveServiceEnv processEnv service context = .ok env ∧
      ∀ key, key ∈ env ↔ key ∈ service.env := by
  have hresolves : ∀ item ∈ serviceVariables service, Resolves processEnv context item := by
    intro item hitem
    obtain ⟨start, stop, var, rfl⟩ := validateReferences_wellFormed hvalid hs item hitem
    cases var with
    | envVar var default =>
      obtain ⟨value, hvalue⟩ := resolveVariable_envVar fun hnone =>
        hvalues var ⟨start, stop, hnone ▸ hitem⟩
      exact ⟨start, stop, _, value, rfl, hvalue⟩
    | serviceRef target property =>
      have hknown := validateReferences_known hvalid hs hitem
      obtain ⟨value, hvalue⟩ := resolveVariable_serviceRef processEnv (hknows target hknown)
        (by
          obtain ⟨entry, _, hfound⟩ := List.mem_flatMap.mp hitem
          exact findVariables_property hfound)
      exact ⟨start, stop, _, value, rfl, hvalue⟩
  obtain ⟨env, henv⟩ := (resolveServiceEnv_ok_iff processEnv service context).mpr hresolves
  exact ⟨env, henv, resolveServiceEnv_keys henv⟩

/-- A service that uses a variable and refers to the other one. -/
def apiService : Service where
  serviceType := .process "api-server" [] none none
  network := "local"
  env := AList.insert "DATABASE" "$\x7bUSER\x7d@$\x7bdb.host\x7d" ∅
  dependencies := []
  healthCheck := none
  startupTimeout := none

/-- A database and a service that refers to it. -/
def databaseConfig : Config where
  version := "1.0"
  networks := ["local"]
  services := (AList.insert "db" { apiService with env := ∅ } ∅).insert "api" apiService

/-- The references of that service. -/
theorem variables_apiService : serviceVariables apiService =
    [.ok (0, 7, .envVar "USER" none), .ok (8, 18, .serviceRef "db" "host")] := by rfl

/-- The environment of that service, resolved. -/
theorem databaseConfig_resolves : ∃ env,
    resolveServiceEnv (AList.insert "USER" "postgres" ∅) apiService
      (((ResolutionContext.new ∅).addService "db" "10.0.0.1" (some 5432) "db.local").addService
        "api" "10.0.0.2" (some 80) "api.local") = .ok env ∧
      ∀ key, key ∈ env ↔ key ∈ apiService.env := by
  refine validated_resolves .stored databaseConfig (by decide) "api" apiService
    (AList.lookup_insert _) _ _ ?_ ?_
  · intro other hother
    rw [ResolutionContext.knows_addService, ResolutionContext.knows_addService]
    have hname : other = "api" ∨ other = "db" := by
      simpa [databaseConfig, AList.mem_keys] using hother
    rcases hname with rfl | rfl
    · exact .inl rfl
    · exact .inr (.inl rfl)
  · rintro var ⟨start, stop, hmem⟩
    rw [variables_apiService] at hmem
    obtain ⟨_, _, rfl⟩ : start = 0 ∧ stop = 7 ∧ var = "USER" := by simpa using hmem
    exact .inr (by decide)

end GraphHarness.Resolver
