import MainLocator.Codec.Code
import MainLocator.Program.Basic

/-!
# The JSON form of facts about programs
-/

namespace MainLocator

open Json (Value Decoder allFields?)

namespace CallType

def tags : List (String × CallType) :=
  [("Direct", direct), ("Indirect", indirect), ("TailCall", tail)]

def tagName : CallType → String
  | direct => "Direct"
  | indirect => "Indirect"
  | tail => "TailCall"

def toJson (type : CallType) : Value :=
  .text type.tagName

def ofJson? : Decoder CallType :=
  Decoder.tag tags

end CallType

namespace CallSite

def toJson (site : CallSite) : Value :=
  .record [("call_address", .natural site.address.toNat), ("call_type", site.type.toJson)]

def ofJson? : Decoder CallSite
  | depth + 1, value => do
      let [address, type] ← allFields? ["call_address", "call_type"] value | none
      return ⟨← Decoder.word depth address, ← CallType.ofJson? depth type⟩
  | _, _ => none

end CallSite

namespace Platform

def tags : List (String × Platform) :=
  [("WindowsX86", windowsX86), ("WindowsX86_64", windowsX64), ("WindowsArm64", windowsArm64)]

def tagName : Platform → String
  | windowsX86 => "WindowsX86"
  | windowsX64 => "WindowsX86_64"
  | windowsArm64 => "WindowsArm64"

def toJson (platform : Platform) : Value :=
  .text platform.tagName

def ofJson? : Decoder Platform :=
  Decoder.tag tags

end Platform

namespace CallingConvention

def toJson (convention : CallingConvention) : Value :=
  .record
    [("name", .text convention.name),
      ("int_arg_regs", .array (convention.argumentRegisters.map Register.toJson)),
      ("int_return_reg", convention.returnRegister.toJson)]

def ofJson? : Decoder CallingConvention
  | depth + 1, value => do
      let [name, argumentRegisters, returnRegister] ←
        allFields? ["name", "int_arg_regs", "int_return_reg"] value | none
      return ⟨← Decoder.text depth name, ← Decoder.list Register.ofJson? depth argumentRegisters,
        ← Register.ofJson? depth returnRegister⟩
  | _, _ => none

end CallingConvention

namespace SymbolKind

def tags : List (String × SymbolKind) :=
  [("Function", function), ("ImportedFunction", importedFunction),
    ("ImportAddress", importAddress), ("Data", data)]

def tagName : SymbolKind → String
  | function => "Function"
  | importedFunction => "ImportedFunction"
  | importAddress => "ImportAddress"
  | data => "Data"

def toJson (kind : SymbolKind) : Value :=
  .text kind.tagName

def ofJson? : Decoder SymbolKind :=
  Decoder.tag tags

end SymbolKind

namespace Symbol

def toJson (symbol : Symbol) : Value :=
  .record
    [("raw_name", .text symbol.rawName), ("short_name", .text symbol.shortName),
      ("address", .natural symbol.address.toNat), ("kind", symbol.kind.toJson)]

def ofJson? : Decoder Symbol
  | depth + 1, value => do
      let [rawName, shortName, address, kind] ←
        allFields? ["raw_name", "short_name", "address", "kind"] value | none
      return ⟨← Decoder.text depth rawName, ← Decoder.text depth shortName,
        ← Decoder.word depth address, ← SymbolKind.ofJson? depth kind⟩
  | _, _ => none

end Symbol

namespace ProgramId

def toJson (id : ProgramId) : Value :=
  .natural id.number.toNat

def ofJson? : Decoder ProgramId :=
  fun depth value => .mk <$> Decoder.word depth value

end ProgramId

end MainLocator
