import Balancer.Text.Quoted

/-!
# MD5

The 128-bit digest of a message: the message is padded to blocks of sixteen words, and each block stirs four
words of state in 64 steps.
-/

namespace Balancer.Digest

set_option autoImplicit false

/-- The integer parts of `2 ^ 32 · |sin i|` for `i` from 1 to 64. -/
def sines : List UInt32 := [
  0xD76AA478, 0xE8C7B756, 0x242070DB, 0xC1BDCEEE, 0xF57C0FAF, 0x4787C62A, 0xA8304613, 0xFD469501, 0x698098D8,
  0x8B44F7AF, 0xFFFF5BB1, 0x895CD7BE, 0x6B901122, 0xFD987193, 0xA679438E, 0x49B40821, 0xF61E2562, 0xC040B340,
  0x265E5A51, 0xE9B6C7AA, 0xD62F105D, 0x02441453, 0xD8A1E681, 0xE7D3FBC8, 0x21E1CDE6, 0xC33707D6, 0xF4D50D87,
  0x455A14ED, 0xA9E3E905, 0xFCEFA3F8, 0x676F02D9, 0x8D2A4C8A, 0xFFFA3942, 0x8771F681, 0x6D9D6122, 0xFDE5380C,
  0xA4BEEA44, 0x4BDECFA9, 0xF6BB4B60, 0xBEBFBC70, 0x289B7EC6, 0xEAA127FA, 0xD4EF3085, 0x04881D05, 0xD9D4D039,
  0xE6DB99E5, 0x1FA27CF8, 0xC4AC5665, 0xF4292244, 0x432AFF97, 0xAB9423A7, 0xFC93A039, 0x655B59C3, 0x8F0CCC92,
  0xFFEFF47D, 0x85845DD1, 0x6FA87E4F, 0xFE2CE6E0, 0xA3014314, 0x4E0811A1, 0xF7537E82, 0xBD3AF235, 0x2AD7D2BB,
  0xEB86D391]

/-- The rotations of the steps: each quarter repeats four of them. -/
def rotations : List (List UInt32) := [[7, 12, 17, 22], [5, 9, 14, 20], [4, 11, 16, 23], [6, 10, 15, 21]]

structure Md5State where
  a : UInt32
  b : UInt32
  c : UInt32
  d : UInt32

def Md5State.init : Md5State := ⟨0x67452301, 0xEFCDAB89, 0x98BADCFE, 0x10325476⟩

def rotateLeft (x n : UInt32) : UInt32 := (x <<< n) ||| (x >>> (32 - n))

/-- How a step of each quarter mixes three words, and which word of the block it takes. -/
def stepOf (i : Nat) (b c d : UInt32) : UInt32 × Nat :=
  match i / 16 with
  | 0 => ((b &&& c) ||| (~~~b &&& d), i)
  | 1 => ((d &&& b) ||| (~~~d &&& c), (5 * i + 1) % 16)
  | 2 => (b ^^^ c ^^^ d, (3 * i + 5) % 16)
  | _ => (c ^^^ (b ||| ~~~d), (7 * i) % 16)

/-- Step `i` on a block of sixteen words. -/
def md5Step (block : Array UInt32) (s : Md5State) (i : Nat) : Md5State :=
  let (mixed, word) := stepOf i s.b s.c s.d
  let sum := s.a + mixed + sines.getD i 0 + block.getD word 0
  let turn := (rotations.getD (i / 16) []).getD (i % 4) 0
  ⟨s.d, s.b + rotateLeft sum turn, s.b, s.c⟩

def md5Block (s : Md5State) (block : Array UInt32) : Md5State :=
  let t := (List.range 64).foldl (md5Step block) s
  ⟨s.a + t.a, s.b + t.b, s.c + t.c, s.d + t.d⟩

/-- The lowest `n` bytes of a number, the lowest first. -/
def littleEndian (n x : Nat) : List UInt8 := (List.range n).map fun i => UInt8.ofNat (x / Nat.pow 256 i % 256)

/-- A message with one bit, zeros and its length in bits, up to a multiple of 64 bytes. -/
def md5Padded (message : List UInt8) : List UInt8 :=
  let zeros := (119 - message.length % 64) % 64
  message ++ 0x80 :: List.replicate zeros 0 ++ littleEndian 8 (8 * message.length)

/-- The words of a row of bytes, the lowest byte of each first. -/
def wordsOf : List UInt8 → List UInt32
  | a :: b :: c :: d :: rest =>
    (a.toUInt32 ||| (b.toUInt32 <<< 8) ||| (c.toUInt32 <<< 16) ||| (d.toUInt32 <<< 24)) :: wordsOf rest
  | _ => []

/-- A list cut into `n` parts of sixteen. -/
def blocks : Nat → List UInt32 → List (Array UInt32)
  | 0, _ => []
  | n + 1, ws => (ws.take 16).toArray :: blocks n (ws.drop 16)

def md5 (message : List UInt8) : List UInt8 :=
  let padded := md5Padded message
  let s := (blocks (padded.length / 64) (wordsOf padded)).foldl md5Block .init
  [s.a, s.b, s.c, s.d].flatMap fun w => littleEndian 4 w.toNat

/-- The digest of a text in UTF-8, as 32 hexadecimal digits. -/
def md5Hex (s : String) : String :=
  String.ofList ((md5 s.toUTF8.toList).flatMap fun b => Text.hex 2 b.toNat)

end Balancer.Digest
