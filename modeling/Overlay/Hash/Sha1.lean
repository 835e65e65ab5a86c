import Overlay.Hash.Blocks

/-!
# SHA-1

The 160-bit digest of FIPS 180-4 on lists of bytes: a schedule of eighty words for each block of
the padded message, and eighty rounds on five words.
-/

namespace Overlay.Hash

namespace Sha1

/-- The words of a schedule from a window of the sixteen words before them, oldest first. -/
def extend : Nat → List UInt32 → List UInt32
  | 0, _ => []
  | n + 1, window =>
    let word (i : Nat) := window.getD i 0
    let next := rotl (word 13 ^^^ word 8 ^^^ word 2 ^^^ word 0) 1
    next :: extend n (window.drop 1 ++ [next])

/-- The five words between two rounds. -/
structure Words where
  a : UInt32
  b : UInt32
  c : UInt32
  d : UInt32
  e : UInt32

/-- The words before the first block. -/
def initial : Words := ⟨0x67452301, 0xEFCDAB89, 0x98BADCFE, 0x10325476, 0xC3D2E1F0⟩

/-- One round with a schedule word, at its number. -/
def round (s : Words) (t : Nat) (w : UInt32) : Words :=
  let (f, k) :=
    if t < 20 then ((s.b &&& s.c) ||| (~~~s.b &&& s.d), (0x5A827999 : UInt32))
    else if t < 40 then (s.b ^^^ s.c ^^^ s.d, 0x6ED9EBA1)
    else if t < 60 then ((s.b &&& s.c) ||| (s.b &&& s.d) ||| (s.c &&& s.d), 0x8F1BBCDC)
    else (s.b ^^^ s.c ^^^ s.d, 0xCA62C1D6)
  ⟨rotl s.a 5 + f + s.e + k + w, s.a, rotl s.b 30, s.c, s.d⟩

/-- The rounds for the words of a schedule, from round `t` on. -/
def rounds : Nat → List UInt32 → Words → Words
  | _, [], s => s
  | t, w :: ws, s => rounds (t + 1) ws (round s t w)

/-- Takes one block into the words. -/
def absorb (s : Words) (block : List UInt32) : Words :=
  let r := rounds 0 (block ++ extend 64 block) s
  ⟨s.a + r.a, s.b + r.b, s.c + r.c, s.d + r.d, s.e + r.e⟩

end Sha1

/-- The SHA-1 digest of a message, twenty bytes. -/
def sha1 (message : List UInt8) : List UInt8 :=
  let s := (paddedBlocks message).foldl Sha1.absorb Sha1.initial
  [s.a, s.b, s.c, s.d, s.e].flatMap wordBytes

end Overlay.Hash
