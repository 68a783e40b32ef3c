import Stencil.Config.Load
import Stencil.Proofs.Data.Json
import Stencil.Proofs.Data.Yaml

/-!
# The formats of configuration files

A sheet of settings can be laid out as indented settings or as a nested record.  It gives the same
configuration in a file of either format as the object of the sheet does (`ofFile_of_layouts`):
gaps, margins and spaces do not count, and of what is given again, the last counts.

What is left out of a sheet on purpose is what the two formats do not share: lists, records deeper
than two, words that need escapes or quotation marks of another kind, and numbers that are no
integers.
-/

namespace Stencil

variable {files : Files} {path : String}

/-! ## The fields of a file -/

namespace Files

/-- A file of indented settings has the fields of its sheet. -/
lemma fields_yaml (l : Yaml.Layout) (file : files.item? path = some (.file l.text))
    (format : SmallLetter.ofChars (extensionOf path) ∈ [".yaml".toList, ".yml".toList]) :
    files.fields path = .ok (Sheet.object l.sections).fields := by
  have format : SmallLetter.ofChars (extensionOf path) = ".yaml".toList ∨
      SmallLetter.ofChars (extensionOf path) = ".yml".toList := by
    simpa using format
  have no_json : SmallLetter.ofChars (extensionOf path) ≠ ".json".toList := by
    rcases format with same | same <;> rw [same] <;> decide
  rw [Files.fields, file]
  show Data.fieldsOfText _ _ = _
  rw [Data.fieldsOfText, if_neg no_json, if_pos format, Yaml.Layout.read_text]

/-- A file of a nested record has the fields of its sheet. -/
lemma fields_json (l : Json.Layout) (file : files.item? path = some (.file l.text))
    (format : SmallLetter.ofChars (extensionOf path) = ".json".toList) :
    files.fields path = .ok (Sheet.object l.sections).fields := by
  rw [Files.fields, file]
  show Data.fieldsOfText _ _ = _
  rw [Data.fieldsOfText, if_pos format, Json.Layout.read?_text]
  -- a record of a file may fall back on a base, but this one has none
  exact congrArg Except.ok (Sheet.allFields_object l.sections)

end Files

namespace Config

/-- **The format of a configuration file does not count**: a file of indented settings gives the
configuration of the object of its sheet, and so does every file of a nested record with the same
values.  Neither the texts nor the sheets have to correspond any closer: sections and fields may be
in another order in the two, or given again in one of them. -/
theorem ofFile_of_layouts {yamlPath jsonPath : String} (yaml : Yaml.Layout) (json : Json.Layout)
    (yamlFile : files.item? yamlPath = some (.file yaml.text))
    (yamlFormat : SmallLetter.ofChars (extensionOf yamlPath) ∈ [".yaml".toList, ".yml".toList])
    (jsonFile : files.item? jsonPath = some (.file json.text))
    (jsonFormat : SmallLetter.ofChars (extensionOf jsonPath) = ".json".toList)
    (same : ∀ outer inner,
      Sheet.value? yaml.sections outer inner = Sheet.value? json.sections outer inner) :
    ofFile files yamlPath = .ok (ofData (Sheet.object yaml.sections)) ∧
      ofFile files jsonPath = ofFile files yamlPath := by
  have read : ofFile files yamlPath = .ok (ofData (Sheet.object yaml.sections)) := by
    rw [ofFile, Files.fields_yaml yaml yamlFile yamlFormat]
    rfl
  have read' : ofFile files jsonPath = .ok (ofData (Sheet.object json.sections)) := by
    rw [ofFile, Files.fields_json json jsonFile jsonFormat]
    rfl
  exact ⟨read, by rw [read, read', ofData_object_congr same]⟩

end Config

/-! ### A section that is given again -/

namespace Sheet

/-- The name of the section that holds the limits. -/
def expansionName : Name :=
  ⟨⟨"expansion".toList, List.all_eq_true.1 (by decide)⟩, by decide, by decide⟩

/-- The name of the section that holds the level of the console. -/
def loggingName : Name :=
  ⟨⟨"logging".toList, List.all_eq_true.1 (by decide)⟩, by decide, by decide⟩

/-- A limit on the nesting of calls. -/
def depthField (depth : Nat) : Field where
  name := ⟨⟨"maxDepth".toList, List.all_eq_true.1 (by decide)⟩, by decide, by decide⟩
  value := .integer false depth

/-- The wish for a trace. -/
def traceField : Field where
  name := ⟨⟨"trace".toList, List.all_eq_true.1 (by decide)⟩, by decide, by decide⟩
  value := .truth true

/-- The wish for a console that shows everything from `info` on. -/
def levelField : Field where
  name := ⟨⟨"level".toList, List.all_eq_true.1 (by decide)⟩, by decide, by decide⟩
  value := .word ⟨"info".toList, List.all_eq_true.1 (by decide)⟩

end Sheet

namespace Yaml

/-- A margin of some spaces. -/
def Margin.spaces (n : Nat) : Margin where
  chars := List.replicate n ' '
  blank _ h := List.eq_of_mem_replicate h ▸ by decide
  inLine h := absurd (List.eq_of_mem_replicate h) (by decide)

/-- The carriage return that some editors leave before the end of a line. -/
def Margin.carriageReturn : Margin :=
  ⟨['\r'], List.all_eq_true.1 (by decide), by decide⟩

/-- A field that is indented by a number of spaces and one more, in a line with a carriage
return. -/
def Row.afterSpaces (indent : Nat) (field : Sheet.Field) : Row where
  field := field
  indent := .spaces (indent + 1)
  indented := List.cons_ne_nil _ _
  middle := .spaces 1
  after := .carriageReturn
  gaps := []

end Yaml

open Sheet

/-- Indented settings with a comment, carriage returns and uneven indentation, where a section is
given again. -/
def unevenSettings : Yaml.Layout where
  gaps := [⟨.spaces 0, some " limits\r".toList, by decide⟩]
  blocks :=
    [⟨expansionName, .carriageReturn, [], [.afterSpaces 2 (depthField 3)]⟩,
      ⟨loggingName, .carriageReturn, [⟨.carriageReturn, none, by decide⟩],
        [.afterSpaces 0 levelField]⟩,
      ⟨expansionName, .carriageReturn, [],
        [.afterSpaces 3 (depthField 7), .afterSpaces 1 traceField]⟩]

/-- A nested record with the same values. -/
def nestedSettings : Json.Layout where
  sections := [⟨loggingName, [levelField]⟩, ⟨expansionName, [depthField 7, traceField]⟩]
  spaces n := ⟨if n = 9 then ['\n'] else [], by split <;> exact List.all_eq_true.1 (by decide)⟩

/-- The current directory with a file of each layout. -/
def settingsDirectory : Files :=
  .ofPairs [("settings.yml", unevenSettings.text), ("settings.json", nestedSettings.text)]

/-- Both files give the later limit. -/
theorem uneven_and_nested_settings_agree :
    unevenSettings.text =
        "# limits\r\nexpansion:\r\n   maxDepth: 3\r\nlogging:\r\n\r\n level: \"info\"\r\n" ++
        "expansion:\r\n    maxDepth: 7\r\n  trace: true\r" ∧
      nestedSettings.text =
        "\x7b\"logging\":\x7b\"level\":\"info\"\x7d,\n" ++
        "\"expansion\":\x7b\"maxDepth\":7,\"trace\":true\x7d\x7d" ∧
      Config.ofFile settingsDirectory "settings.yml" =
        .ok { Config.default with maxDepth := .ofInt 7, trace := true, level := .info } ∧
      Config.ofFile settingsDirectory "settings.json" =
        Config.ofFile settingsDirectory "settings.yml" := by
  have again : (⟨expansionName, [depthField 7, traceField]⟩ : Sheet.Section) ∈
      nestedSettings.sections :=
    List.mem_cons_of_mem _ List.mem_cons_self
  -- the first section of the one sheet is given again at its end, which is all that the two differ
  -- in
  have same : ∀ outer inner, value? unevenSettings.sections outer inner =
      value? nestedSettings.sections outer inner :=
    value?_cons_of_again again rfl
  have yamlFile : settingsDirectory.item? "settings.yml" = some (.file unevenSettings.text) := by
    rfl
  have jsonFile : settingsDirectory.item? "settings.json" = some (.file nestedSettings.text) := by
    rfl
  obtain ⟨yaml, json⟩ := Config.ofFile_of_layouts unevenSettings nestedSettings yamlFile
    (by decide +kernel) jsonFile (by decide +kernel) same
  exact ⟨by decide +kernel, by decide +kernel, yaml, json⟩

end Stencil
