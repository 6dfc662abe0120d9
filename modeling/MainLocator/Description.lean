import MainLocator.Codec.Program
import MainLocator.Recognition.Recognizer
import MainLocator.Text.Unseen

/-!
# Descriptions

One-line descriptions of what detection works with, for people who look for the cause of a verdict.
A record is its name with its fields in braces, and a text stands between quotes.
-/

namespace MainLocator.Description

/-- The spelling of a character between quotes. -/
def spell (character : Char) : String :=
  match character with
  | '\x00' => "\\0"
  | '\t' => "\\t"
  | '\n' => "\\n"
  | '\r' => "\\r"
  | '"' => "\\\""
  | '\\' => "\\\\"
  | character =>
      if isUnseen character then
        "\\u\x7b" ++ Numeral.bareHexadecimal character.toNat ++ "\x7d"
      else String.singleton character

def quoted (content : String) : String :=
  "\"" ++ String.join (content.toList.map spell) ++ "\""

def listed (items : List String) : String :=
  "[" ++ ", ".intercalate items ++ "]"

/-- A record with at least one field. -/
def record (name : String) (fields : List (String × String)) : String :=
  name ++ " \x7b " ++ ", ".intercalate (fields.map fun field => field.1 ++ ": " ++ field.2) ++
    " \x7d"

def names (names : List String) : String :=
  listed (names.map quoted)

def truth (value : Bool) : String :=
  if value then "true" else "false"

def programId (id : ProgramId) : String :=
  "BinaryId(" ++ Numeral.decimal id.number.toNat ++ ")"

def settings (settings : Settings) : String :=
  record "DetectorConfig"
    [("main_function_names", names settings.mainNames),
      ("exit_function_names", names settings.exitNames),
      ("max_entry_call_sites", Numeral.decimal settings.maxEntryCallSites),
      ("define_main_symbol", truth settings.definesMain)]

/-- What heuristics may consult. -/
def context (value : Settings) (program : Program) : String :=
  record "DetectionContext" [("binary", programId program.id), ("config", settings value)]

/-- What tells exit routines. -/
def exitRoutines (settings : Settings) (program : Program) : String :=
  record "ExitClassifier"
    [("binary", programId program.id), ("exit_function_names", names settings.exitNames)]

def method : Method → String
  | .returnFlow => "ReturnSinkToExit"
  | .argumentProbe => "ArgcProbe"
  | .entryTrampoline => "InvokeMainStub"

/-- The heuristics of a panel, each by its method. -/
def panel (panel : Panel) : String :=
  record "Consensus" [("heuristics", listed (panel.heuristics.map (method ·.method)))]

def recognizer (recognizer : Recognizer) : String :=
  record "RecognitionDriver"
    [("platform", recognizer.platform.tagName), ("config", settings recognizer.settings),
      ("consensus", panel recognizer.panel)]

end MainLocator.Description
