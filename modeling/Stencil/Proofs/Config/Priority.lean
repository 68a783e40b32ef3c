import Mathlib.Tactic.Lemma
import Stencil.Proofs.Config.Formats

/-!
# Which source gives a setting

Overrides should count before a configuration file, a file before the environment, and the
environment before the defaults, for each setting on its own.  A file is read as a full
configuration, however: what it leaves out is default in it, and is laid over the environment with
the rest.

`loadConfig_priority` says which source each setting is from.  Without a file the priority is as it
should be.  With one it is so exactly for the settings that the overrides or the file give, or where
the environment has nothing but the default to say.

How a file is found does not matter here, nor in which format it is written: it is enough that
loading chooses it, and what it says are its fields (`Files.fields`).  The statement is exact for
each setting, so it also says when the wrong priority goes unnoticed.
-/

namespace Stencil

variable {env : Environment} {files : Files} {o : LoadOptions} {c : Config} {path : String}

/-- The settings of a configuration. -/
inductive Setting where
  | maxDepth
  | maxCalls
  | trace
  | collisions
  | level
deriving DecidableEq, Repr

/-- The values of a setting. -/
def Setting.Value : Setting → Type
  | .maxDepth | .maxCalls => Number
  | .trace => Bool
  | .collisions => CollisionPolicy
  | .level => LogLevel

/-- The value of a setting. -/
def Config.get (c : Config) : (f : Setting) → f.Value
  | .maxDepth => c.maxDepth
  | .maxCalls => c.maxCalls
  | .trace => c.trace
  | .collisions => c.collisions
  | .level => c.level

/-- The value that a setting is given. -/
def PartialConfig.get (p : PartialConfig) : (f : Setting) → Option f.Value
  | .maxDepth => p.maxDepth
  | .maxCalls => p.maxCalls
  | .trace => p.trace
  | .collisions => p.collisions
  | .level => p.level

namespace Config

/-- The value of a setting by the first of some sources that gives it, or its default. -/
def firstOf (sources : List PartialConfig) (f : Setting) : f.Value :=
  (sources.findSome? fun p => p.get f).getD (default.get f)

/-! ## Layers -/

lemma get_override (c : Config) (p : PartialConfig) (f : Setting) :
    (c.override p).get f = (p.get f).getD (c.get f) := by
  cases f <;> rfl

lemma get_foldl_override (parts : List PartialConfig) (c : Config) (f : Setting) :
    (parts.foldl override c).get f =
      (parts.reverse.findSome? fun p => p.get f).getD (c.get f) := by
  induction parts generalizing c with
  | nil => rfl
  | cons p rest ih =>
    rw [List.foldl_cons, ih, get_override, List.reverse_cons, List.findSome?_append,
      List.findSome?_singleton, Option.getD_or]

/-- Of configurations laid over one another, the last one that gives a setting counts. -/
lemma get_merge (parts : List PartialConfig) (f : Setting) :
    (merge parts).get f = firstOf parts.reverse f :=
  get_foldl_override parts default f

/-- One more source, asked last, changes nothing exactly where an earlier one gives the setting or
where it gives the default. -/
lemma firstOf_append_singleton_iff (sources : List PartialConfig) (last : PartialConfig)
    (f : Setting) :
    firstOf sources f = firstOf (sources ++ [last]) f ↔
      (∃ p ∈ sources, (p.get f).isSome) ∨ ∀ v, last.get f = some v → v = default.get f := by
  have given : (∃ p ∈ sources, (p.get f).isSome) ↔
      (sources.findSome? fun p => p.get f).isSome := by
    rw [List.findSome?_isSome_iff]
  -- the sources agree unless none of the others gives the setting; then the last one is compared
  -- with the default
  rw [given, firstOf, firstOf, List.findSome?_append, List.findSome?_singleton, Option.getD_or]
  cases sources.findSome? fun p => p.get f with
  | some v => simp
  | none =>
    cases last.get f with
    | none => simp
    | some v => simp [eq_comm]

end Config

/-! ## Loading -/

/-- Without a configuration file, the overrides are laid over the environment. -/
lemma loadConfig_of_no_file (absent : o.file? files = none) :
    loadConfig env files o =
      .ok (.merge [.ofEnvironment env defaultStem, o.overrides]) := by
  rw [loadConfig, absent]
  rfl

/-- A configuration file takes the place of the environment: the overrides are laid over what the
file gives. -/
lemma loadConfig_of_file (chosen : o.file? files = some path) :
    loadConfig env files o =
      (files.fields path).map fun fields => .merge [.ofFields fields, o.overrides] := by
  rw [loadConfig, chosen]
  show ((files.fields path).map Config.ofFields).map _ = _
  cases files.fields path <;> rfl

/-- **Each setting is from the first source that gives it**: the overrides, then the file, or the
environment if there is no file.  Where there is a file, the environment is not asked at all; it
would have been heard exactly on the settings that it alone gives, with a value other than the
default. -/
theorem loadConfig_priority (loaded : loadConfig env files o = .ok c) (f : Setting) :
    (o.file? files = none →
      c.get f = Config.firstOf [o.overrides, .ofEnvironment env defaultStem] f) ∧
    ∀ path, o.file? files = some path → ∃ fields, files.fields path = .ok fields ∧
      c.get f = Config.firstOf [o.overrides, .ofFields fields] f ∧
      (c.get f =
          Config.firstOf [o.overrides, .ofFields fields, .ofEnvironment env defaultStem] f ↔
        (o.overrides.get f).isSome ∨ ((PartialConfig.ofFields fields).get f).isSome ∨
          ∀ v, (PartialConfig.ofEnvironment env defaultStem).get f = some v →
            v = Config.default.get f) := by
  constructor
  · intro absent
    rw [loadConfig_of_no_file absent] at loaded
    rw [← Except.ok.inj loaded]
    exact Config.get_merge _ f
  · intro path chosen
    rw [loadConfig_of_file chosen] at loaded
    -- a file that cannot be read fails the loading, so here it has fields
    cases read : files.fields path with
    | error e =>
      rw [read] at loaded
      contradiction
    | ok fields =>
      rw [read] at loaded
      have value : c.get f = Config.firstOf [o.overrides, .ofFields fields] f := by
        rw [← Except.ok.inj loaded]
        exact Config.get_merge _ f
      refine ⟨fields, rfl, value, ?_⟩
      rw [value]
      -- with the environment asked last the result would differ just if it alone had something to
      -- say
      have asked := Config.firstOf_append_singleton_iff [o.overrides, .ofFields fields]
        (.ofEnvironment env defaultStem) f
      simpa [or_assoc] using asked

/-! ### A file that hides the environment -/

/-- A configuration file that sets the level of the console and nothing else. -/
def chattyFile : String :=
  "\x7b\"logging\": \x7b\"level\": \"info\"\x7d\x7d"

/-- The layout of this file, with a space after each colon. -/
def chattyLayout : Json.Layout where
  sections := [⟨Sheet.loggingName, [Sheet.levelField]⟩]
  spaces n :=
    ⟨if n = 3 ∨ n = 6 then [' '] else [], by split <;> exact List.all_eq_true.1 (by decide)⟩

lemma text_chattyLayout : chattyLayout.text = chattyFile := by
  decide +kernel

/-- The current directory with this file under the first of the default names. -/
def chattyDirectory : Files :=
  .ofPairs [("nodeplate.config.json", chattyFile)]

/-- An environment that asks for a trace. -/
def tracedEnvironment : Environment :=
  [("NODEPLATE_TRACE", "1")]

/-- Loading from the current directory, without overrides. -/
def plainLoading : LoadOptions :=
  ⟨none, none, .empty⟩

lemma file?_chattyDirectory :
    plainLoading.file? chattyDirectory = some "nodeplate.config.json" := by
  decide +kernel

lemma fields_chattyDirectory :
    chattyDirectory.fields "nodeplate.config.json" =
      .ok [("logging", .record [("level", .string "info")])] := by
  have item : chattyDirectory.item? "nodeplate.config.json" = some (.file chattyFile) := by rfl
  rw [← text_chattyLayout] at item
  rw [Files.fields_json chattyLayout item (by decide +kernel)]
  rfl

lemma loadConfig_chattyDirectory :
    loadConfig tracedEnvironment chattyDirectory plainLoading =
      .ok { Config.default with level := .info } := by
  rw [loadConfig_of_file file?_chattyDirectory, fields_chattyDirectory]
  rfl

/-- The level of the console is from the file. -/
theorem chatty_level_is_from_file :
    loadConfig tracedEnvironment chattyDirectory plainLoading =
        .ok { Config.default with level := .info } ∧
      ∃ fields, chattyDirectory.fields "nodeplate.config.json" = .ok fields ∧
        Config.get { Config.default with level := .info } .level =
          Config.firstOf [plainLoading.overrides, .ofFields fields] .level := by
  obtain ⟨fields, read, value, -⟩ :=
    (loadConfig_priority loadConfig_chattyDirectory .level).2 _ file?_chattyDirectory
  exact ⟨loadConfig_chattyDirectory, fields, read, value⟩

/-- The trace that only the environment asks for is not made: the file stands before the
environment in the settings that it leaves out, too. -/
theorem chatty_file_hides_trace :
    ∃ c fields, loadConfig tracedEnvironment chattyDirectory plainLoading = .ok c ∧
      plainLoading.file? chattyDirectory = some "nodeplate.config.json" ∧
      chattyDirectory.fields "nodeplate.config.json" = .ok fields ∧
      c.get .trace = false ∧
      Config.firstOf
        [plainLoading.overrides, .ofFields fields, .ofEnvironment tracedEnvironment defaultStem]
        .trace = true :=
  ⟨_, _, loadConfig_chattyDirectory, file?_chattyDirectory, fields_chattyDirectory, rfl, rfl⟩

end Stencil
