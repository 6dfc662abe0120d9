import MainLocator.Json.Decoder
import MainLocator.Json.Printer
import MainLocator.Settings

/-!
# Settings files

Settings are an object of which every member may be missing. What is missing keeps its default, and
settings that cannot be used are refused after they are read.
-/

namespace MainLocator

open Json (Value Decoder fields?)

/-- Why a settings file is refused. -/
inductive SettingsError where
  /-- There is no file, or it is no text. -/
  | unreadable
  /-- The text is no JSON, or not of the form of settings. -/
  | malformed
  | unusable (fault : SettingsFault)
  deriving DecidableEq

namespace Settings

def toJson (settings : Settings) : Value :=
  .record
    [("main_function_names", .array (settings.mainNames.map .text)),
      ("exit_function_names", .array (settings.exitNames.map .text)),
      ("max_entry_call_sites", .natural settings.maxEntryCallSites),
      ("define_main_symbol", .bool settings.definesMain)]

/-- Reads a field that may be absent. -/
def field? {α : Type} (decoder : Decoder α) (depth : Nat) (missing : α) :
    Option Value → Option α
  | some value => decoder depth value
  | none => some missing

def ofJson? : Decoder Settings
  | depth + 1, value => do
      let [mainNames, exitNames, maxEntryCallSites, definesMain] ←
        fields? ["main_function_names", "exit_function_names", "max_entry_call_sites",
          "define_main_symbol"] value | none
      let standard : Settings := {}
      return {
        mainNames := ← field? (Decoder.list Decoder.text) depth standard.mainNames mainNames
        exitNames := ← field? (Decoder.list Decoder.text) depth standard.exitNames exitNames
        maxEntryCallSites :=
          ← field? Decoder.count depth standard.maxEntryCallSites maxEntryCallSites
        definesMain := ← field? Decoder.bool depth standard.definesMain definesMain }
  | _, _ => none

/-- Refuses settings that cannot be used. -/
def validate (settings : Settings) : Except SettingsError Settings :=
  match settings.fault? with
  | some fault => .error (.unusable fault)
  | none => .ok settings

def ofText (text : String) : Except SettingsError Settings :=
  match Json.decode? ofJson? text with
  | some settings => settings.validate
  | none => .error .malformed

/-- Reads the contents of a settings file, if there is one. -/
def ofFile (contents : Option ByteArray) : Except SettingsError Settings :=
  match contents.bind String.fromUTF8? with
  | some text => ofText text
  | none => .error .unreadable

end Settings

end MainLocator
