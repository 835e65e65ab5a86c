/-!
# Messages as blocks of words

What SHA-1 and SHA-256 share: bytes and big-endian words, rotations, and the padding of a message
to whole blocks of sixteen words.
-/

namespace Overlay.Hash

/-- The big-endian word of the first four bytes, and the bytes after them; missing bytes are zero. -/
def takeWord : List UInt8 → UInt32 × List UInt8
  | a :: b :: c :: d :: rest =>
    (a.toUInt32 <<< 24 ||| b.toUInt32 <<< 16 ||| c.toUInt32 <<< 8 ||| d.toUInt32, rest)
  | _ => (0, [])

/-- The first `n` big-endian words of some bytes, and the bytes after them. -/
def takeWords : Nat → List UInt8 → List UInt32 × List UInt8
  | 0, bytes => ([], bytes)
  | n + 1, bytes =>
    let (word, rest) := takeWord bytes
    let (words, rest) := takeWords n rest
    (word :: words, rest)

/-- The bytes of a word, most significant first. -/
def wordBytes (w : UInt32) : List UInt8 :=
  [(w >>> 24).toUInt8, (w >>> 16).toUInt8, (w >>> 8).toUInt8, w.toUInt8]

/-- The last `count` bytes of a number, most significant first. -/
def numberBytes : Nat → Nat → List UInt8
  | 0, _ => []
  | count + 1, n => numberBytes count (n / 256) ++ [UInt8.ofNat (n % 256)]

/-- The message, a one bit, zero bits up to eight bytes before a block ends, and the length of the
message in bits. -/
def padded (message : List UInt8) : List UInt8 :=
  message ++ 0x80 :: List.replicate ((119 - message.length % 64) % 64) 0
    ++ numberBytes 8 (8 * message.length)

/-- The blocks of sixteen words of `n` times 64 bytes. -/
def blocks : Nat → List UInt8 → List (List UInt32)
  | 0, _ => []
  | n + 1, bytes =>
    let (block, rest) := takeWords 16 bytes
    block :: blocks n rest

/-- The blocks of a padded message. -/
def paddedBlocks (message : List UInt8) : List (List UInt32) :=
  let bytes := padded message
  blocks (bytes.length / 64) bytes

/-- Rotates a word to the left. -/
def rotl (w : UInt32) (n : UInt32) : UInt32 := w <<< n ||| w >>> (32 - n)

/-- Rotates a word to the right. -/
def rotr (w : UInt32) (n : UInt32) : UInt32 := w >>> n ||| w <<< (32 - n)

end Overlay.Hash
