import MainLocator.Code.Register

/-!
# Platforms and calling conventions

Of a calling convention only the integer registers matter: where arguments go, and where the return
value comes back.
-/

namespace MainLocator

structure CallingConvention where
  name : String
  /-- In argument order. Empty if all arguments go on the stack. -/
  argumentRegisters : List Register
  returnRegister : Register
  deriving DecidableEq

namespace CallingConvention

open Register

def win64 : CallingConvention :=
  ⟨"win64", [rcx, rdx, r8, r9], rax⟩

def cdecl : CallingConvention :=
  ⟨"cdecl", [], eax⟩

def aapcs64 : CallingConvention :=
  ⟨"aapcs64", arm64, ⟨0⟩⟩

/-- The register of the first argument, if arguments go in registers. -/
def firstArgument? (convention : CallingConvention) : Option Register :=
  convention.argumentRegisters.head?

end CallingConvention

/-- An operating system and a processor. -/
inductive Platform where
  | windowsX86
  | windowsX64
  | windowsArm64
  deriving DecidableEq

namespace Platform

def name : Platform → String
  | windowsX86 => "windows-x86"
  | windowsX64 => "windows-x86_64"
  | windowsArm64 => "windows-aarch64"

/-- The convention of procedures about which nothing else is known. -/
def defaultConvention : Platform → CallingConvention
  | windowsX86 => .cdecl
  | windowsX64 => .win64
  | windowsArm64 => .aapcs64

end Platform

end MainLocator
