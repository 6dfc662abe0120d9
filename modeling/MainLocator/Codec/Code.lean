import MainLocator.Code.Block
import MainLocator.Json.Decoder

/-!
# The JSON form of code

Identifiers are bare numbers. Expressions and operations are variants named by their tag; records
are objects with their fields in a fixed order.
-/

namespace MainLocator

open Json (Value Decoder allFields?)

namespace Register

def toJson (register : Register) : Value :=
  .natural register.number.toNat

def ofJson? : Decoder Register :=
  fun depth value => .mk <$> Decoder.half depth value

end Register

namespace RegisterVersion

def toJson (value : RegisterVersion) : Value :=
  .record [("reg", value.register.toJson), ("version", .natural value.version.toNat)]

def ofJson? : Decoder RegisterVersion
  | depth + 1, value => do
      let [register, version] ← allFields? ["reg", "version"] value | none
      return ⟨← Register.ofJson? depth register, ← Decoder.half depth version⟩
  | _, _ => none

end RegisterVersion

namespace Expression

def toJson : Expression → Value
  | const value => .variant "Const" (.natural value.toNat)
  | pointer value => .variant "ConstPtr" (.natural value.toNat)
  | register source => .variant "Reg" source.toJson
  | partialRegister whole part =>
      .variant "RegPartial" (.record [("full", whole.toJson), ("partial", part.toJson)])
  | zeroExtend operand => .variant "Zx" operand.toJson
  | signExtend operand => .variant "Sx" operand.toJson
  | load address => .variant "Load" address.toJson
  | add left right => .variant "Add" (.array [left.toJson, right.toJson])
  | subtract left right => .variant "Sub" (.array [left.toJson, right.toJson])
  | undefined => .text "Undefined"

/-- Reads the two fields of a read of a part. -/
def partOfJson? : Decoder Expression
  | depth + 1, value => do
      let [whole, part] ← allFields? ["full", "partial"] value | none
      return partialRegister (← RegisterVersion.ofJson? depth whole) (← Register.ofJson? depth part)
  | _, _ => none

def ofJson? : Decoder Expression
  | _, .string (some "Undefined") => some undefined
  | depth + 1, .object [(some tag, content)] =>
      match tag with
      | "Const" => const <$> Decoder.word depth content
      | "ConstPtr" => pointer <$> Decoder.word depth content
      | "Reg" => register <$> RegisterVersion.ofJson? depth content
      | "RegPartial" => partOfJson? depth content
      | "Zx" => zeroExtend <$> ofJson? depth content
      | "Sx" => signExtend <$> ofJson? depth content
      | "Load" => load <$> ofJson? depth content
      | "Add" =>
          match depth, content with
          | depth + 1, .array [left, right] =>
              return add (← ofJson? depth left) (← ofJson? depth right)
          | _, _ => none
      | "Sub" =>
          match depth, content with
          | depth + 1, .array [left, right] =>
              return subtract (← ofJson? depth left) (← ofJson? depth right)
          | _, _ => none
      | "Undefined" =>
          match content with
          | .null => some undefined
          | _ => none
      | _ => none
  | _, _ => none

end Expression

namespace CallOperands

def toJson (operands : CallOperands) : Value :=
  .record
    [("dest", operands.target.toJson),
      ("outputs", .array (operands.results.map RegisterVersion.toJson)),
      ("params", .array (operands.arguments.map Expression.toJson))]

def ofJson? : Decoder CallOperands
  | depth + 1, value => do
      let [target, results, arguments] ← allFields? ["dest", "outputs", "params"] value | none
      return {
        target := ← Expression.ofJson? depth target
        results := ← Decoder.list RegisterVersion.ofJson? depth results
        arguments := ← Decoder.list Expression.ofJson? depth arguments }
  | _, _ => none

end CallOperands

namespace Operation

def toJson : Operation → Value
  | assign destination source =>
      .variant "SetReg" (.record [("dest", destination.toJson), ("src", source.toJson)])
  | phi destination sources =>
      .variant "RegPhi" (.record
        [("dest", destination.toJson),
          ("sources", .array (sources.map RegisterVersion.toJson))])
  | call operands => .variant "Call" operands.toJson
  | tailCall operands => .variant "TailCall" operands.toJson
  | store address value =>
      .variant "Store" (.record [("dest", address.toJson), ("src", value.toJson)])
  | ret value => .variant "Ret" (.record [("dest", value.toJson)])
  | jump target => .variant "Jump" (.record [("dest", target.toJson)])
  | goto target => .variant "Goto" (.record [("target", .natural target)])
  | branch condition taken skipped =>
      .variant "If" (.record
        [("condition", condition.toJson), ("true_target", .natural taken),
          ("false_target", .natural skipped)])
  | noReturn => .text "NoReturn"
  | nop => .text "Nop"

/-- Reads the contents of a variant with fields, under `depth` brackets. -/
def ofFields? (depth : Nat) (tag : String) (content : Value) : Option Operation :=
  match tag with
  | "SetReg" => do
      let [destination, source] ← allFields? ["dest", "src"] content | none
      return assign (← RegisterVersion.ofJson? depth destination)
        (← Expression.ofJson? depth source)
  | "RegPhi" => do
      let [destination, sources] ← allFields? ["dest", "sources"] content | none
      return phi (← RegisterVersion.ofJson? depth destination)
        (← Decoder.list RegisterVersion.ofJson? depth sources)
  | "Store" => do
      let [address, value] ← allFields? ["dest", "src"] content | none
      return store (← Expression.ofJson? depth address) (← Expression.ofJson? depth value)
  | "Ret" => do
      let [value] ← allFields? ["dest"] content | none
      return ret (← Expression.ofJson? depth value)
  | "Jump" => do
      let [target] ← allFields? ["dest"] content | none
      return jump (← Expression.ofJson? depth target)
  | "Goto" => do
      let [target] ← allFields? ["target"] content | none
      return goto (← Decoder.count depth target)
  | "If" => do
      let [condition, taken, skipped] ←
        allFields? ["condition", "true_target", "false_target"] content | none
      return branch (← Expression.ofJson? depth condition) (← Decoder.count depth taken)
        (← Decoder.count depth skipped)
  | _ => none

def ofJson? : Decoder Operation
  | _, .string (some "NoReturn") => some noReturn
  | _, .string (some "Nop") => some nop
  | _ + 1, .object [(some "NoReturn", .null)] => some noReturn
  | _ + 1, .object [(some "Nop", .null)] => some nop
  | depth + 1, .object [(some "Call", content)] => call <$> CallOperands.ofJson? depth content
  | depth + 1, .object [(some "TailCall", content)] =>
      tailCall <$> CallOperands.ofJson? depth content
  | depth + 2, .object [(some tag, content)] => ofFields? depth tag content
  | _, _ => none

end Operation

namespace Instruction

def toJson (instruction : Instruction) : Value :=
  .record
    [("index", .natural instruction.index), ("address", .natural instruction.address.toNat),
      ("kind", instruction.operation.toJson)]

def ofJson? : Decoder Instruction
  | depth + 1, value => do
      let [index, address, operation] ← allFields? ["index", "address", "kind"] value | none
      return ⟨← Decoder.count depth index, ← Decoder.word depth address,
        ← Operation.ofJson? depth operation⟩
  | _, _ => none

end Instruction

namespace BlockId

def toJson (id : BlockId) : Value :=
  .natural id.number.toNat

def ofJson? : Decoder BlockId :=
  fun depth value => .mk <$> Decoder.half depth value

end BlockId

namespace Block

def toJson (block : Block) : Value :=
  .record
    [("id", block.id.toJson), ("start", .natural block.start), ("end", .natural block.stop),
      ("incoming", .array (block.predecessors.map BlockId.toJson))]

def ofJson? : Decoder Block
  | depth + 1, value => do
      let [id, start, stop, predecessors] ←
        allFields? ["id", "start", "end", "incoming"] value | none
      return ⟨← BlockId.ofJson? depth id, ← Decoder.count depth start, ← Decoder.count depth stop,
        ← Decoder.list BlockId.ofJson? depth predecessors⟩
  | _, _ => none

end Block

end MainLocator
