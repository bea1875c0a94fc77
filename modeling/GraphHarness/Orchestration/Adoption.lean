import GraphHarness.Orchestration.Docker
import Mathlib.Data.List.Infix

/-!
# Containers that are there already

A start looks for a container of the service first, to adopt or to remove it. It looks for
`orchestrator-NAME-harness-test`, and it creates `orchestrator-NAME`.

> `findsOwn_iff` — the container that is found is the service's own, and none is found
> where it has none, **exactly if it has none and no container's name contains the longer
> name**.

Docker is a parameter; `Lawful` is what its documentation says of the commands.

`docker ps` filters by a part of the name, so what it lists for a pattern are the containers
whose names contain it. A run is any number of starts, each of them alone with docker; which
containers there are then is known from the laws (`named_of_reachable`): each has the name
that some start has given it. A container that somebody else has made is not among them.

The first line of the output is the container that is adopted, and the order of the lines is
docker's own. The laws are the documented ones for `ps`, `run`, `rm` and the questions about
the network, and are satisfied by a docker that keeps nothing but names
(`smallDocker_lawful`).
-/

namespace GraphHarness.Orchestration.DockerExecutor

open Trace (Dialogue)

/-- A container, as `docker ps` shows it. -/
structure Container where
  id : String
  name : String
  state : String
  status : String
  deriving DecidableEq, Repr

/-- The name that `start` gives a container. -/
def containerName (name : String) : String := s!"orchestrator-{name}"

/-- The name that `detect_existing_container` looks for. -/
def containerPattern (name : String) : String := s!"orchestrator-{name}-harness-test"

/-- A docker daemon: the containers it has, and how it executes a command. -/
structure Docker (δ : Type) where
  containers : δ → List Container
  execute : δ → List String → δ × Except String ExitResult

/-- The name contains the pattern. -/
def Container.Matches (pattern : String) (container : Container) : Prop :=
  pattern.toList <:+: container.name.toList

instance (pattern : String) (container : Container) : Decidable (container.Matches pattern) :=
  inferInstanceAs (Decidable (pattern.toList <:+: container.name.toList))

/-- A line of `docker ps --format "\x7b\x7b.ID\x7d\x7d|\x7b\x7b.State\x7d\x7d|\x7b\x7b.Status\x7d\x7d"`. -/
def Container.line (container : Container) : List Char :=
  container.id.toList ++ '|' :: (container.state.toList ++ '|' :: (container.status.toList ++ ['\n']))

/-- The line that lists the containers whose name contains the pattern. -/
def psLine (pattern : String) : List String :=
  ["docker", "ps", "-a", "--filter", "name=" ++ pattern, "--format",
    "\x7b\x7b.ID\x7d\x7d|\x7b\x7b.State\x7d\x7d|\x7b\x7b.Status\x7d\x7d", "--no-trunc"]

/-- The line that asks for containers of a name. -/
theorem psCommand_eq (name : String) : psCommand name = psLine (containerPattern name) := by
  have hname : s!"name=orchestrator-{name}-harness-test" = "name=" ++ containerPattern name := by
    have hstart : "name=orchestrator-" = "name=" ++ "orchestrator-" := by decide
    show "name=orchestrator-" ++ name ++ "-harness-test" =
      "name=" ++ ("orchestrator-" ++ name ++ "-harness-test")
    rw [hstart, String.append_assoc, String.append_assoc, String.append_assoc]
  rw [psCommand, psLine, hname]

/-- What is documented of docker. Names and identifiers are unique, an identifier is made
of hexadecimal digits, `docker ps` lists what it is asked for, `docker run` creates a
container of the given name unless there is one, and no other of the commands creates any. -/
structure Docker.Lawful {δ : Type} (docker : Docker δ) : Prop where
  names : ∀ d, ((docker.containers d).map fun container => container.name).Nodup
  ids : ∀ d, ((docker.containers d).map fun container => container.id).Nodup
  plain : ∀ d, ∀ container ∈ docker.containers d, container.id.toList ≠ [] ∧
    ∀ c ∈ container.id.toList, isWhitespace c = false ∧ c ≠ '|'
  ps : ∀ d pattern, ∃ result, ∃ listed : List Container,
    (docker.execute d (psLine pattern)).2 = .ok result ∧ result.success = true ∧
    listed.Perm ((docker.containers d).filter fun container => container.Matches pattern) ∧
    result.output.toList = listed.flatMap Container.line ∧
    docker.containers (docker.execute d (psLine pattern)).1 = docker.containers d
  look : ∀ d id command, command ∈ [addressCommand id, portCommand id] →
    docker.containers (docker.execute d command).1 = docker.containers d
  remove : ∀ d id, (docker.containers (docker.execute d (forceRemoveCommand id)).1).Sublist
    (docker.containers d)
  run_taken : ∀ d name image env ports volumes,
    (∃ container ∈ docker.containers d, container.name = containerName name) →
    docker.containers (docker.execute d (runCommand name image env ports volumes)).1 =
      docker.containers d ∧
    ∀ result, (docker.execute d (runCommand name image env ports volumes)).2 = .ok result →
      result.success = false
  run_free : ∀ d name image env ports volumes,
    (∀ container ∈ docker.containers d, container.name ≠ containerName name) →
    docker.containers (docker.execute d (runCommand name image env ports volumes)).1 =
      docker.containers d ∧
      (∀ result, (docker.execute d (runCommand name image env ports volumes)).2 = .ok result →
        result.success = false) ∨
    ∃ container, container.name = containerName name ∧
      docker.containers (docker.execute d (runCommand name image env ports volumes)).1 =
        container :: docker.containers d

/-! ## What `docker ps` shows -/

/-- The first part ends at the separator. -/
theorem splitOn_append {separator : Char} {part rest : List Char} (h : separator ∉ part) :
    splitOn separator (part ++ separator :: rest) = part :: splitOn separator rest := by
  induction part with
  | nil => simp [splitOn]
  | cons c part ih =>
    rw [List.mem_cons, not_or] at h
    rw [List.cons_append, splitOn, if_neg (Ne.symm h.1), ih h.2]

/-- There is at least one part. -/
theorem splitOn_ne_nil (separator : Char) (chars : List Char) : splitOn separator chars ≠ [] := by
  cases chars with
  | nil => simp [splitOn]
  | cons c chars =>
    rw [splitOn]
    split
    next => simp
    next =>
      split
      next => simp
      next => simp

/-- A text with a separator has two parts. -/
theorem splitOn_two (separator : Char) (part rest : List Char) :
    ∃ first second parts, splitOn separator (part ++ separator :: rest) =
      first :: second :: parts := by
  induction part with
  | nil =>
    obtain ⟨second, parts, hrest⟩ := List.exists_cons_of_ne_nil (splitOn_ne_nil separator rest)
    exact ⟨[], second, parts, by simp [splitOn, hrest]⟩
  | cons c part ih =>
    obtain ⟨first, second, parts, hpart⟩ := ih
    rw [List.cons_append, splitOn, hpart]
    split
    next => exact ⟨_, _, _, rfl⟩
    next => exact ⟨_, _, _, rfl⟩

/-- A character that is no white space stops the trimming. -/
theorem trimChars_stop {first c : Char} (hfirst : isWhitespace first = false)
    (hc : isWhitespace c = false) (before after : List Char) :
    ∃ rest, trimChars (first :: before ++ c :: after) = first :: before ++ c :: rest := by
  have hleft : (first :: before ++ c :: after).dropWhile isWhitespace =
      first :: before ++ c :: after :=
    List.dropWhile_cons_of_neg (by rw [hfirst]; exact Bool.false_ne_true)
  have hstop : (c :: (first :: before).reverse).dropWhile isWhitespace =
      c :: (first :: before).reverse :=
    List.dropWhile_cons_of_neg (by rw [hc]; exact Bool.false_ne_true)
  rw [trimChars, hleft, List.rdropWhile, List.reverse_append, List.reverse_cons, List.append_assoc,
    List.singleton_append, List.dropWhile_append]
  split
  next =>
    rw [hstop]
    exact ⟨[], by simp⟩
  next => exact ⟨(after.reverse.dropWhile isWhitespace).reverse, by simp⟩

/-- Of the containers that are listed, the first is found. -/
theorem containerState_listed {container : Container} {listed : List Container} {output : String}
    (hplain : container.id.toList ≠ [] ∧
      ∀ c ∈ container.id.toList, isWhitespace c = false ∧ c ≠ '|')
    (houtput : output.toList = (container :: listed).flatMap Container.line) :
    ∃ found, containerState output = some found ∧ found.id = container.id := by
  obtain ⟨hne, hchars⟩ := hplain
  obtain ⟨first, before, hid⟩ := List.exists_cons_of_ne_nil hne
  have hfirst : isWhitespace first = false := (hchars first (by rw [hid]; simp)).1
  -- both separators are left
  have hbar : isWhitespace '|' = false := rfl
  obtain ⟨rest, htrim⟩ := trimChars_stop hfirst hbar
    (before ++ '|' :: container.state.toList)
    (container.status.toList ++ ['\n'] ++ listed.flatMap Container.line)
  have hshown : trimChars output.toList =
      container.id.toList ++ '|' :: (container.state.toList ++ '|' :: rest) := by
    rw [houtput, List.flatMap_cons, Container.line, hid]
    simpa using htrim
  unfold containerState
  dsimp only
  rw [hshown, if_neg (by simp),
    splitOn_append (fun hmem => (hchars '|' hmem).2 rfl)]
  obtain ⟨state, status, parts, hparts⟩ := splitOn_two '|' container.state.toList rest
  rw [hparts]
  exact ⟨_, rfl, String.ofList_toList⟩

/-! ## What a start can do to the containers -/

section Lawful

variable {δ : Type} {docker : Docker δ}

/-- The commands that a start of a service issues. -/
def StartCommand (name : String) (command : List String) : Prop :=
  command = psCommand name ∨ (∃ id, command ∈ [addressCommand id, portCommand id]) ∨
    (∃ id, command = forceRemoveCommand id) ∨
    ∃ image env ports volumes, command = runCommand name image env ports volumes

/-- `docker run` is issued, and the container is looked at. -/
theorem running_eq (id : Nat) (config : ServiceConfig) (line : List String) :
    ∃ next, running id config line = .ask line next ∧ ∀ answer, (next answer).Asks fun command =>
      ∃ id, command ∈ [addressCommand id, portCommand id] := by
  refine ⟨_, rfl, ?_⟩
  intro answer
  cases answer with
  | error e => trivial
  | ok result =>
    dsimp only
    split
    next =>
      refine Dialogue.asks_map _ ((asks_inspecting _).imp ?_)
      intro command hcommand
      exact ⟨_, hcommand⟩
    next => trivial

/-- A start sends only the commands of a start. -/
theorem asks_starting (id : Nat) (config : ServiceConfig) :
    (starting id config).Asks (StartCommand config.name) := by
  unfold starting
  cases config.target with
  | docker image env ports volumes =>
    have hrunning : (running id config
        (runCommand config.name image env ports volumes)).Asks (StartCommand config.name) := by
      obtain ⟨next, hrunning, hnext⟩ :=
        running_eq id config (runCommand config.name image env ports volumes)
      rw [hrunning]
      exact ⟨.inr (.inr (.inr ⟨image, env, ports, volumes, rfl⟩)),
        fun answer => (hnext answer).imp fun command hlook => .inr (.inl hlook)⟩
    refine Dialogue.asks_bind (Dialogue.asks_ask (.inl rfl) (fun e => trivial)
      (fun result => trivial)) ?_
    intro found
    cases found with
    | error e => trivial
    | ok found =>
      cases found with
      | none => exact hrunning
      | some existing =>
        refine Dialogue.asks_ite ?_ ?_
        · refine Dialogue.asks_map _ (Dialogue.asks_map _ ((asks_inspecting _).imp ?_))
          intro command hcommand
          exact .inr (.inl ⟨_, hcommand⟩)
        · exact Dialogue.asks_ask (.inr (.inr (.inl ⟨_, rfl⟩))) (fun e => trivial)
            (fun result => Dialogue.asks_map _ hrunning)
  | _ => trivial

/-- A command of a start leaves the containers that are there, or fewer, or it adds one of
the service. -/
theorem Docker.Lawful.effect (hlaws : docker.Lawful) (d : δ) {name : String}
    {command : List String} (h : StartCommand name command) :
    (∀ container ∈ docker.containers (docker.execute d command).1,
      container ∈ docker.containers d) ∨
    ∃ container, container.name = containerName name ∧
      docker.containers (docker.execute d command).1 = container :: docker.containers d := by
  rcases h with rfl | ⟨id, hlook⟩ | ⟨id, rfl⟩ | ⟨image, env, ports, volumes, rfl⟩
  · obtain ⟨_, _, _, _, _, _, hsame⟩ := hlaws.ps d (containerPattern name)
    rw [psCommand_eq, hsame]
    exact .inl fun _ hmem => hmem
  · rw [hlaws.look d id command hlook]
    exact .inl fun _ hmem => hmem
  · exact .inl fun _ hmem => (hlaws.remove d id).subset hmem
  · by_cases htaken : ∃ container ∈ docker.containers d, container.name = containerName name
    · rw [(hlaws.run_taken d name image env ports volumes htaken).1]
      exact .inl fun _ hmem => hmem
    · rcases hlaws.run_free d name image env ports volumes
        (fun container hmem hname => htaken ⟨container, hmem, hname⟩) with ⟨hsame, _⟩ | hadded
      · rw [hsame]
        exact .inl fun _ hmem => hmem
      · exact .inr hadded

/-! ## Runs -/

/-- A daemon, and for each container that it has the service it was created for. -/
structure Daemon (δ : Type) where
  state : δ
  owner : String → String

/-- A command that is issued for a service: what is new belongs to it. -/
def Docker.issue (docker : Docker δ) (name : String) (s : Daemon δ) (command : List String) :
    Daemon δ × Except String ExitResult :=
  let executed := docker.execute s.state command
  (⟨executed.1, fun id =>
    if ∃ container ∈ docker.containers s.state, container.id = id then s.owner id else name⟩,
    executed.2)

/-- Where services are started and nobody else creates a container. Containers can stop,
or be removed, at any time. -/
inductive Reachable (docker : Docker δ) : Daemon δ → Prop where
  | empty {d : δ} (owner : String → String) (h : docker.containers d = []) : Reachable docker ⟨d, owner⟩
  | start {s : Daemon δ} (id : Nat) (config : ServiceConfig) (h : Reachable docker s) :
    Reachable docker ((starting id config).exec (docker.issue config.name) s).1
  | change {s : Daemon δ} (d : δ) (h : Reachable docker s)
    (hsame : ∀ container ∈ docker.containers d, ∃ before ∈ docker.containers s.state,
      before.id = container.id ∧ before.name = container.name) : Reachable docker ⟨d, s.owner⟩

/-- Every container has the name of the service it was created for. -/
def Named (docker : Docker δ) (s : Daemon δ) : Prop :=
  ∀ container ∈ docker.containers s.state, container.name = containerName (s.owner container.id)

/-- What one command keeps. -/
theorem Named.issue (hlaws : docker.Lawful) {name : String} (s : Daemon δ)
    (command : List String) (hcommand : StartCommand name command) (h : Named docker s) :
    Named docker (docker.issue name s command).1 := by
  have hold : ∀ container ∈ docker.containers s.state,
      container.name = containerName ((docker.issue name s command).1.owner container.id) := by
    intro container hmem
    show _ = containerName (if _ then _ else _)
    rw [if_pos ⟨container, hmem, rfl⟩]
    exact h container hmem
  intro container hmem
  rcases hlaws.effect s.state hcommand with hfewer | ⟨added, hadded, hcontainers⟩
  · exact hold container (hfewer container hmem)
  · have hnodup := hlaws.ids (docker.execute s.state command).1
    rw [hcontainers, List.map_cons, List.nodup_cons] at hnodup
    have hmem' : container ∈ added :: docker.containers s.state := hcontainers ▸ hmem
    rcases List.mem_cons.mp hmem' with rfl | hbefore
    · show _ = containerName (if _ then _ else _)
      rw [if_neg, hadded]
      rintro ⟨before, hbefore, hid⟩
      exact hnodup.1 (List.mem_map.mpr ⟨before, hbefore, hid⟩)
    · exact hold container hbefore

/-- Each container that was ever made has the name it was made with. -/
theorem named_of_reachable (hlaws : docker.Lawful) {s : Daemon δ} (h : Reachable docker s) :
    Named docker s := by
  induction h with
  | empty owner h =>
    intro container hmem
    rw [h] at hmem
    cases hmem
  | start id config h ih =>
    exact Dialogue.exec_invariant (Named docker) (Named.issue hlaws) (asks_starting id config) ih
  | change d h hsame ih =>
    intro container hmem
    obtain ⟨before, hbefore, hid, hname⟩ := hsame container hmem
    rw [← hname, ih before hbefore, hid]

/-! ## Whose container is found -/

/-- The container was created for the service. -/
def Daemon.Owns (docker : Docker δ) (s : Daemon δ) (name : String) (container : Container) :
    Prop :=
  container ∈ docker.containers s.state ∧ s.owner container.id = name

/-- What is found is the service's own container, with its identifier and whether it is
running; and a start of the service adopts or removes no other container, and runs none
while there is one of its name. -/
structure FindsOwn (docker : Docker δ) (s : Daemon δ) (name : String) : Prop where
  found : ∀ found, ((detecting name).exec docker.execute s.state).2 = .ok (some found) →
    ∃ container, s.Owns docker name container ∧ found.id = container.id ∧
      found.isRunning = decide (container.state = "running")
  notFound : ((detecting name).exec docker.execute s.state).2 = .ok none →
    ∀ container, ¬ s.Owns docker name container
  removed : ∀ id config, config.name = name →
    ∀ step ∈ (starting id config).steps docker.execute s.state, ∀ containerId,
      step.2 = forceRemoveCommand containerId →
      ∃ container, s.Owns docker name container ∧ container.id = containerId
  adopted : ∀ id config, config.name = name →
    ∀ service, ((starting id config).exec docker.execute s.state).2.2 = .ok service →
      (∀ step ∈ (starting id config).steps docker.execute s.state,
        ∀ image env ports volumes, step.2 ≠ runCommand name image env ports volumes) →
      ∃ container, s.Owns docker name container ∧ service.containerId = some container.id
  noClash : ∀ id config, config.name = name →
    ∀ step ∈ (starting id config).steps docker.execute s.state,
      ∀ image env ports volumes, step.2 = runCommand name image env ports volumes →
        ∀ container ∈ docker.containers step.1, container.name ≠ containerName name

/-- The service has no container, and no container has a name such as is looked for. -/
def NothingThere (docker : Docker δ) (s : Daemon δ) (name : String) : Prop :=
  (∀ container, ¬ s.Owns docker name container) ∧
    ∀ container ∈ docker.containers s.state, ¬ container.Matches (containerPattern name)

/-- The name that is given does not contain the name that is looked for. -/
theorem not_matches_own {container : Container} {name : String}
    (hname : container.name = containerName name) :
    ¬ container.Matches (containerPattern name) := by
  intro hmatches
  have hlonger : containerPattern name = containerName name ++ "-harness-test" := rfl
  have hlength := hmatches.length_le
  rw [hname, hlonger, String.toList_append, List.length_append] at hlength
  have hsuffix : "-harness-test".toList.length = 13 := by decide
  omega

/-- Two services have two names for their containers. -/
theorem containerName_inj {name name' : String} (h : containerName name = containerName name') :
    name = name' := by
  have hsame : "orchestrator-" ++ name = "orchestrator-" ++ name' := h
  rw [← String.toList_inj, String.toList_append, String.toList_append] at hsame
  exact String.toList_inj.mp (List.append_cancel_left hsame)

/-- What the look-up finds is the first container that is listed. -/
theorem exec_detecting (hlaws : docker.Lawful) (d : δ) (name : String) :
    ∃ listed : List Container, listed.Perm ((docker.containers d).filter fun container =>
        container.Matches (containerPattern name)) ∧
      docker.containers ((detecting name).exec docker.execute d).1 = docker.containers d ∧
      (listed = [] → ((detecting name).exec docker.execute d).2 = .ok none) ∧
      ∀ container rest, listed = container :: rest → ∃ found,
        ((detecting name).exec docker.execute d).2 = .ok (some found) ∧
          found.id = container.id := by
  obtain ⟨result, listed, hresult, hsuccess, hlisted, houtput, hsame⟩ :=
    hlaws.ps d (containerPattern name)
  rw [← psCommand_eq] at hresult hsame
  have hexec : ((detecting name).exec docker.execute d).2 =
      .ok (containerState result.output) := by
    rw [detecting, Dialogue.exec, hresult]
    dsimp only
    rw [if_pos hsuccess]
    rfl
  refine ⟨listed, hlisted, ?_, ?_, ?_⟩
  · rw [detecting, Dialogue.exec, hresult]
    exact hsame
  · rintro rfl
    have hempty : result.output.toList = [] := houtput
    rw [hexec, containerState, hempty]
    rfl
  · rintro container rest rfl
    have hmem : container ∈ docker.containers d :=
      List.mem_of_mem_filter (hlisted.mem_iff.mp List.mem_cons_self)
    obtain ⟨found, hfound, hid⟩ := containerState_listed (hlaws.plain d container hmem) houtput
    exact ⟨found, by rw [hexec, hfound], hid⟩

/-- A start that finds only its own finds none. -/
theorem FindsOwn.nothingThere (hlaws : docker.Lawful) {s : Daemon δ} (hnamed : Named docker s)
    {name : String} (h : FindsOwn docker s name) : NothingThere docker s name := by
  obtain ⟨listed, hlisted, _, hnone, hsome⟩ := exec_detecting hlaws s.state name
  cases listed with
  | nil =>
    refine ⟨h.notFound (hnone rfl), ?_⟩
    intro container hmem hmatches
    have hin : container ∈ ([] : List Container) :=
      hlisted.mem_iff.mpr (List.mem_filter.mpr ⟨hmem, decide_eq_true hmatches⟩)
    cases hin
  | cons first rest =>
    obtain ⟨found, hfound, hid⟩ := hsome first rest rfl
    obtain ⟨container, ⟨hmem, howner⟩, hid', _⟩ := h.found found hfound
    obtain ⟨hfirst, hmatches⟩ := List.mem_filter.mp (hlisted.mem_iff.mp List.mem_cons_self)
    -- identifiers are unique, so the service's own container would have the longer name
    have hsame : container = first :=
      List.inj_on_of_nodup_map (hlaws.ids s.state) hmem hfirst (hid'.symm.trans hid)
    have hname : first.name = containerName name := by
      rw [← hsame, hnamed container hmem, howner]
    exact absurd (of_decide_eq_true hmatches) (not_matches_own hname)

/-- The detection sends one command. -/
theorem steps_detecting (d : δ) (name : String) :
    (detecting name).steps docker.execute d = [(d, psCommand name)] := by
  rw [detecting, Dialogue.steps]
  cases (docker.execute d (psCommand name)).2 with
  | error e => rfl
  | ok result => rfl

/-- Where nothing is found, a start runs a container at once, or it does nothing. -/
theorem steps_starting {d : δ} (id : Nat) (config : ServiceConfig)
    (hnone : ((detecting config.name).exec docker.execute d).2 = .ok none) :
    (∃ image env ports volumes later, (starting id config).steps docker.execute d =
      (d, psCommand config.name) ::
        (((detecting config.name).exec docker.execute d).1,
          runCommand config.name image env ports volumes) :: later ∧
      ∀ step ∈ later, ∃ id, step.2 ∈ [addressCommand id, portCommand id]) ∨
    ((starting id config).steps docker.execute d = [] ∧
      ∀ service, ((starting id config).exec docker.execute d).2.2 ≠ .ok service) := by
  unfold starting
  cases config.target with
  | docker image env ports volumes =>
    obtain ⟨next, hrunning, hnext⟩ :=
      running_eq id config (runCommand config.name image env ports volumes)
    dsimp only
    rw [Dialogue.steps_bind, hnone, steps_detecting]
    dsimp only
    rw [hrunning, Dialogue.steps]
    exact .inl ⟨image, env, ports, volumes, _, rfl, Dialogue.steps_imp (hnext _)⟩
  | _ => exact .inr ⟨rfl, fun service h => by cases h⟩

/-- No other command of a start removes a container. -/
theorem forceRemoveCommand_ne (containerId name image : String) (env : HashMap String String)
    (ports : List UInt16) (volumes : List String) :
    psCommand name ≠ forceRemoveCommand containerId ∧
    runCommand name image env ports volumes ≠ forceRemoveCommand containerId ∧
    (∀ id, forceRemoveCommand containerId ∉ [addressCommand id, portCommand id]) ∧
    ∀ id, runCommand name image env ports volumes ∉ [addressCommand id, portCommand id] := by
  simp [psCommand, runCommand, forceRemoveCommand, addressCommand, portCommand]

/-- So it looks for the container, runs one, and looks at it, and does nothing else. -/
theorem mem_steps_starting {d : δ} {id : Nat} {config : ServiceConfig}
    (hnone : ((detecting config.name).exec docker.execute d).2 = .ok none)
    {step : δ × List String} (hstep : step ∈ (starting id config).steps docker.execute d) :
    step.2 = psCommand config.name ∨
      (∃ image env ports volumes, step = (((detecting config.name).exec docker.execute d).1,
        runCommand config.name image env ports volumes)) ∨
      ∃ id, step.2 ∈ [addressCommand id, portCommand id] := by
  rcases steps_starting id config hnone with
    ⟨image, env, ports, volumes, later, hsteps, hlater⟩ | ⟨hsteps, _⟩
  · rw [hsteps] at hstep
    rcases List.mem_cons.mp hstep with rfl | hstep
    · exact .inl rfl
    rcases List.mem_cons.mp hstep with rfl | hstep
    · exact .inr (.inl ⟨image, env, ports, volumes, rfl⟩)
    · exact .inr (.inr (hlater step hstep))
  · rw [hsteps] at hstep
    cases hstep

/-- Where nothing is there, nothing of others is found. -/
theorem NothingThere.findsOwn (hlaws : docker.Lawful) {s : Daemon δ} (hnamed : Named docker s)
    {name : String} (h : NothingThere docker s name) : FindsOwn docker s name := by
  obtain ⟨listed, hlisted, hsame, hnone, _⟩ := exec_detecting hlaws s.state name
  have hempty : listed = [] := by
    rw [List.eq_nil_iff_forall_not_mem]
    intro container hmem
    obtain ⟨hin, hmatches⟩ := List.mem_filter.mp (hlisted.mem_iff.mp hmem)
    exact h.2 container hin (of_decide_eq_true hmatches)
  have hdetect := hnone hempty
  refine ⟨?_, fun _ => h.1, ?_, ?_, ?_⟩
  · intro found hfound
    rw [hdetect] at hfound
    cases hfound
  · rintro id config rfl step hstep containerId hremove
    have hne := forceRemoveCommand_ne containerId config.name
    rcases mem_steps_starting hdetect hstep with
      hcommand | ⟨image, env, ports, volumes, rfl⟩ | ⟨id', hlooked⟩
    · exact absurd (hcommand.symm.trans hremove) (hne "" ∅ [] []).1
    · exact absurd hremove (hne image env ports volumes).2.1
    · rw [hremove] at hlooked
      exact absurd hlooked ((hne "" ∅ [] []).2.2.1 id')
  · rintro id config rfl service hservice hnoRun
    rcases steps_starting id config hdetect with
      ⟨image, env, ports, volumes, later, hsteps, _⟩ | ⟨_, hfails⟩
    · have hrun : (((detecting config.name).exec docker.execute s.state).1,
          runCommand config.name image env ports volumes) ∈
          (starting id config).steps docker.execute s.state := by
        rw [hsteps]
        exact List.mem_cons_of_mem _ List.mem_cons_self
      exact absurd rfl (hnoRun _ hrun image env ports volumes)
    · exact absurd hservice (hfails service)
  · rintro id config rfl step hstep image env ports volumes hrun container hmem hname
    rcases mem_steps_starting hdetect hstep with
      hcommand | ⟨image', env', ports', volumes', rfl⟩ | ⟨id', hlooked⟩
    · exact absurd (hcommand.symm.trans hrun) (psCommand_ne_runCommand _ _ _ _ _ _)
    · -- a container of this name would be the service's own
      rw [hsame] at hmem
      refine h.1 container ⟨hmem, containerName_inj ?_⟩
      rw [← hnamed container hmem, hname]
    · rw [hrun] at hlooked
      exact absurd hlooked
        ((forceRemoveCommand_ne "" config.name image env ports volumes).2.2.2 id')

/-- In every state that starts and changes lead to and for every service: the look-up and
the start find the service's own container, and no other, exactly if it has none and no
container's name contains the one that is looked for. -/
theorem findsOwn_iff (docker : Docker δ) (hlaws : docker.Lawful) (s : Daemon δ)
    (hreachable : Reachable docker s) (name : String) :
    FindsOwn docker s name ↔ NothingThere docker s name := by
  have hnamed := named_of_reachable hlaws hreachable
  constructor
  · exact FindsOwn.nothingThere hlaws hnamed
  · exact NothingThere.findsOwn hlaws hnamed

end Lawful

/-! ## A small daemon -/

/-- A name docker accepts here. -/
def Plain (name : String) : Prop :=
  name.toList ≠ [] ∧ ∀ c ∈ name.toList, isWhitespace c = false ∧ c ≠ '|'

instance (name : String) : Decidable (Plain name) :=
  @instDecidableAnd _ _ inferInstance (List.decidableBAll _ name.toList)

/-- The names of the containers, which are their identifiers too. -/
def Names : Type := { names : List String // names.Nodup ∧ ∀ name ∈ names, Plain name }

/-- The containers of a daemon that keeps only names. -/
def Names.containers (d : Names) : List Container :=
  d.val.map fun name => ⟨name, name, "running", "Up"⟩

/-- A command that succeeded. -/
def succeeded (output : String) : ExitResult := ⟨⟨some 0, none⟩, output⟩

/-- Containers are run and listed, and nothing else is done. -/
def Names.execute (d : Names) : List String → Names × Except String ExitResult
  | "docker" :: "ps" :: "-a" :: "--filter" :: filter :: _ =>
    (d, .ok (succeeded (String.ofList ((d.containers.filter fun container =>
      container.Matches (String.ofList (filter.toList.drop 5))).flatMap Container.line))))
  | "docker" :: "run" :: "-d" :: "--name" :: name :: _ =>
    if h : name ∉ d.val ∧ Plain name then
      (⟨name :: d.val, List.nodup_cons.mpr ⟨h.1, d.property.1⟩,
        List.forall_mem_cons.mpr ⟨h.2, d.property.2⟩⟩, .ok (succeeded (name ++ "\n")))
    else (d, .ok ⟨⟨some 125, none⟩, "docker: Error response from daemon\n"⟩)
  | _ => (d, .ok (succeeded ""))

/-- A docker that keeps only names. -/
def smallDocker : Docker Names := ⟨Names.containers, Names.execute⟩

/-- A name is that of a container. -/
theorem mem_containers {d : Names} {name : String} :
    (∃ container ∈ d.containers, container.name = name) ↔ name ∈ d.val := by
  unfold Names.containers
  simp

/-- What `docker run` does there. -/
theorem execute_run (d : Names) (name image : String) (env : HashMap String String)
    (ports : List UInt16) (volumes : List String) :
    Names.execute d (runCommand name image env ports volumes) =
      if h : containerName name ∉ d.val ∧ Plain (containerName name) then
        (⟨containerName name :: d.val, List.nodup_cons.mpr ⟨h.1, d.property.1⟩,
          List.forall_mem_cons.mpr ⟨h.2, d.property.2⟩⟩,
          .ok (succeeded (containerName name ++ "\n")))
      else (d, .ok ⟨⟨some 125, none⟩, "docker: Error response from daemon\n"⟩) := rfl

/-- It obeys the laws. -/
theorem smallDocker_lawful : smallDocker.Lawful where
  names d := by
    show (d.containers.map _).Nodup
    rw [Names.containers, List.map_map]
    exact (List.map_id' d.val).symm ▸ d.property.1
  ids d := by
    show (d.containers.map _).Nodup
    rw [Names.containers, List.map_map]
    exact (List.map_id' d.val).symm ▸ d.property.1
  plain d := by
    intro container hmem
    obtain ⟨name, hname, rfl⟩ := List.mem_map.mp hmem
    exact d.property.2 name hname
  ps d pattern := by
    refine ⟨_, d.containers.filter fun container => container.Matches pattern, rfl, rfl, .refl _,
      ?_, rfl⟩
    have hpattern : String.ofList (("name=" ++ pattern).toList.drop 5) = pattern := by
      rw [String.toList_append]
      exact String.ofList_toList
    show (String.ofList _).toList = _
    rw [String.toList_ofList, hpattern]
  look d id command := by
    intro hlook
    rcases List.mem_cons.mp hlook with rfl | hlook
    · rfl
    · rw [List.mem_singleton.mp hlook]
      rfl
  remove d id := List.Sublist.refl _
  run_taken d name image env ports volumes := by
    intro htaken
    have hmem : containerName name ∈ d.val := mem_containers.mp htaken
    show (Names.execute d _).1.containers = _ ∧ ∀ result, (Names.execute d _).2 = _ → _
    rw [execute_run, dif_neg (fun h => h.1 hmem)]
    refine ⟨rfl, ?_⟩
    intro result hresult
    obtain rfl := Except.ok.inj hresult
    rfl
  run_free d name image env ports volumes := by
    intro hfree
    show (Names.execute d _).1.containers = _ ∧ (∀ result, (Names.execute d _).2 = _ → _) ∨ _
    by_cases h : containerName name ∉ d.val ∧ Plain (containerName name)
    · refine .inr ⟨⟨containerName name, containerName name, "running", "Up"⟩, rfl, ?_⟩
      show (Names.execute d _).1.containers = _
      rw [execute_run, dif_pos h]
      rfl
    · rw [execute_run, dif_neg h]
      refine .inl ⟨rfl, ?_⟩
      intro result hresult
      obtain rfl := Except.ok.inj hresult
      rfl

/-- A service in a container. -/
def inContainer (name : String) : ServiceConfig where
  name := name
  target := .docker "httpd" ∅ [] []
  dependencies := []
  healthCheck := none

/-- The daemon after a service was started on an empty one. -/
def afterStart (name : String) : Daemon Names :=
  ((starting 1 (inContainer name)).exec (smallDocker.issue name)
    ⟨⟨[], List.nodup_nil, fun _ h => by cases h⟩, fun _ => ""⟩).1

/-- The daemon after one start is reachable. -/
theorem reachable_afterStart (name : String) : Reachable smallDocker (afterStart name) :=
  .start 1 (inContainer name) (.empty (fun _ => "") rfl)

/-- With a container of `db` only, nothing is found for `web`. -/
theorem db_findsOwn_web : FindsOwn smallDocker (afterStart "db") "web" := by
  refine (findsOwn_iff smallDocker smallDocker_lawful (afterStart "db")
    (reachable_afterStart "db") "web").mpr ⟨?_, by decide +kernel⟩
  have hother : ∀ container ∈ smallDocker.containers (afterStart "db").state,
      (afterStart "db").owner container.id ≠ "web" := by decide +kernel
  rintro container ⟨hmem, howner⟩
  exact hother container hmem howner

/-- With a container of `web`, nothing is found for `web`. -/
theorem web_not_findsOwn :
    ¬ ∀ (docker : Docker Names), docker.Lawful → ∀ s : Daemon Names, Reachable docker s →
      ∀ name : String, FindsOwn docker s name := by
  intro h
  have hfinds := h smallDocker smallDocker_lawful (afterStart "web") (reachable_afterStart "web")
    "web"
  have hnothing := hfinds.nothingThere smallDocker_lawful
    (named_of_reachable smallDocker_lawful (reachable_afterStart "web"))
  have hown : ∃ container ∈ smallDocker.containers (afterStart "web").state,
      (afterStart "web").owner container.id = "web" := by decide +kernel
  obtain ⟨container, hmem, howner⟩ := hown
  exact hnothing.1 container ⟨hmem, howner⟩

end GraphHarness.Orchestration.DockerExecutor
