/-!
# Settings

The names by which detection knows main functions and exit routines, the bound on the entry point,
and whether a detected main function gets a symbol.
-/

namespace MainLocator

structure Settings where
  /-- Raw symbol names of main functions. -/
  mainNames : List String := ["main", "wmain", "WinMain", "wWinMain"]
  /-- Short symbol names of routines that end the process. -/
  exitNames : List String :=
    ["exit", "_exit", "_cexit", "_c_exit", "common_exit", "doexit", "_o_exit", "_o__exit",
      "_o__cexit", "_o__c_exit", "_o_common_exit"]
  /-- The most call sites that the entry point may have before detection gives up. -/
  maxEntryCallSites : Nat := 2
  definesMain : Bool := true
  deriving DecidableEq

inductive SettingsFault where
  | noMainNames
  | noEntryCallSites
  deriving DecidableEq

def SettingsFault.message : SettingsFault → String
  | noMainNames => "Invalid configuration: main_function_names must not be empty"
  | noEntryCallSites => "Invalid configuration: max_entry_call_sites must be at least 1"

namespace Settings

/-- The first fault, the names before the bound. -/
def fault? (settings : Settings) : Option SettingsFault :=
  if settings.mainNames.isEmpty then some .noMainNames
  else if settings.maxEntryCallSites = 0 then some .noEntryCallSites
  else none

def isMainName (settings : Settings) (rawName : String) : Bool :=
  rawName ∈ settings.mainNames

def isExitName (settings : Settings) (shortName : String) : Bool :=
  shortName ∈ settings.exitNames

end Settings

end MainLocator
