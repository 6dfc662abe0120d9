import MainLocator.Code.Word

/-!
# Symbols
-/

namespace MainLocator

inductive SymbolKind where
  | function
  /-- A function of another module. -/
  | importedFunction
  /-- A slot that the loader fills with an address of another module. -/
  | importAddress
  | data
  deriving DecidableEq

structure Symbol where
  /-- The name as the binary or its debug information spells it. -/
  rawName : String
  /-- The name without decoration. -/
  shortName : String
  address : Word
  kind : SymbolKind
  deriving DecidableEq

namespace Symbol

/-- A symbol whose name has no decoration. -/
def plain (kind : SymbolKind) (name : String) (address : Word) : Symbol :=
  ⟨name, name, address, kind⟩

def isFunction (symbol : Symbol) : Bool :=
  symbol.kind = .function ∨ symbol.kind = .importedFunction

end Symbol

end MainLocator
