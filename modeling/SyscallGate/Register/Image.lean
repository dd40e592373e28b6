/-
# The registers in memory

A register set crosses a call boundary as 80 bytes: the ten words in order,
each with its least significant byte first. `Image.encode` and `Image.decode`
are inverse to each other, so nothing is lost in either direction.

Key definitions: `littleEndian`, `ofLittleEndian`, `Image`, `Image.encode`,
`Image.decode`.
-/
import SyscallGate.Register

namespace SyscallGate

/-- The `count` low bytes of a number, least significant first. -/
def littleEndian : Nat → Nat → List UInt8
  | 0, _ => []
  | count + 1, n => UInt8.ofNat n :: littleEndian count (n / 256)

/-- The number whose bytes, least significant first, are these. -/
def ofLittleEndian : List UInt8 → Nat
  | [] => 0
  | b :: bytes => b.toNat + 256 * ofLittleEndian bytes

@[simp] theorem length_littleEndian : ∀ count n, (littleEndian count n).length = count
  | 0, _ => rfl
  | count + 1, n => by simp [littleEndian, length_littleEndian count]

/-- A register set as it lies in memory. -/
structure Image where
  bytes : List UInt8
  length_eq : bytes.length = 80
  deriving DecidableEq

namespace Image

/-- The register set in memory. -/
def encode (regs : Registers) : Image where
  bytes := Register.all.flatMap fun r => littleEndian 8 (regs.get r).toNat
  length_eq := by simp [Register.all]

/-- The word of one register. -/
def word (image : Image) (r : Register) : UInt64 :=
  UInt64.ofNat (ofLittleEndian ((image.bytes.drop (8 * r.index)).take 8))

/-- The register set that lies in memory. -/
def decode (image : Image) : Registers where
  rax := image.word .rax
  rdi := image.word .rdi
  rsi := image.word .rsi
  rdx := image.word .rdx
  r10 := image.word .r10
  r8 := image.word .r8
  r9 := image.word .r9
  rcx := image.word .rcx
  r11 := image.word .r11
  rflags := image.word .rflags

/-- The image with these bytes, if they are as many as it takes. -/
def ofBytes? (bytes : List UInt8) : Option Image :=
  if h : bytes.length = 80 then some ⟨bytes, h⟩ else none

end Image
end SyscallGate
