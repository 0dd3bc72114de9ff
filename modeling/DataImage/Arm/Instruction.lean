import DataImage.Object.Basic

/-!
# A32 instructions

The encodings of the instructions that an image itself needs: enough for a function that returns at
once, which stands in for a body that is linked in from elsewhere.
-/

namespace DataImage.Arm

/-- The condition field of an instruction that is always executed. -/
def always : UInt32 := 0xe0000000

/-- The register that holds the return address. -/
def linkRegister : UInt8 := 14

/-- `bx rm`: branch to the address in a register, of whose number the low four bits count. -/
def bx (rm : UInt8) : UInt32 :=
  always ||| (0x012fff10 : UInt32) ||| (rm.toUInt32 &&& (0xf : UInt32))

/-- `mov rd, #imm`: put an unrotated immediate into a register, of whose number the low four bits
count. -/
def movImmediate (rd imm : UInt8) : UInt32 :=
  always ||| (0x03a00000 : UInt32) ||| ((rd.toUInt32 &&& (0xf : UInt32)) <<< (12 : UInt32)) |||
    imm.toUInt32

/-- Instructions as bytes, each with its least significant byte first. -/
def codeBytes (words : List UInt32) : List UInt8 :=
  words.flatMap fun w => Bits.littleEndian w.toUInt64 4

/-- A function that returns to its caller at once. -/
def returnStub (name : String) : FunctionBody where
  name
  code := codeBytes [bx linkRegister]

end DataImage.Arm
