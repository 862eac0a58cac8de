/-
The encoding of characters in one to four bytes, and of ranges of characters as rows of byte ranges.
-/
import PipeQuery.Unicode.CharSet

namespace PipeQuery

/-- How many bytes the encoding of a code point takes. -/
def encodedSize (n : Nat) : Nat :=
  if n < 0x80 then 1 else if n < 0x800 then 2 else if n < 0x10000 then 3 else 4

/-- The bytes of a code point; all but the first carry six bits. -/
def encode (n : Nat) : List Nat :=
  let bits (block : Nat) : Nat := 0x80 + n / block % 64
  match encodedSize n with
  | 1 => [n]
  | 2 => [0xC0 + n / 64, bits 1]
  | 3 => [0xE0 + n / 4096, bits 64, bits 1]
  | _ => [0xF0 + n / 262144, bits 4096, bits 64, bits 1]

/-- The bytes from `first` to `last`. -/
structure ByteRange where
  first : Nat
  last : Nat
  deriving DecidableEq, Repr

namespace CharRange

/-- The characters whose encodings are of one length; surrogates have none. -/
def ofOneSize : List CharRange :=
  [⟨0, 0x7F⟩, ⟨0x80, 0x7FF⟩, ⟨0x800, 0xD7FF⟩, ⟨0xE000, 0xFFFF⟩, ⟨0x10000, 0x10FFFF⟩]

/-- Cuts a range at multiples of the block and of greater blocks, until every part lies in one block
or is made of whole ones; `levels` is the number of sizes of blocks. -/
def cut (range : CharRange) : (levels : Nat) → (block : Nat) → List CharRange
  | 0, _ => [range]
  | levels + 1, block =>
    let first := range.first / block
    let last := range.last / block
    if first = last then [range]
    else
      let startsBlock := range.first % block == 0
      let endsBlock := range.last % block == block - 1
      let inner : CharRange :=
        ⟨if startsBlock then range.first else (first + 1) * block,
          if endsBlock then range.last else last * block - 1⟩
      (if startsBlock then [] else [⟨range.first, (first + 1) * block - 1⟩]) ++
        (if inner.first ≤ inner.last then inner.cut levels (block * 64) else []) ++
        if endsBlock then [] else [⟨last * block, range.last⟩]

/-- Rows of byte ranges which together match the encodings of the range, in ascending order. -/
def encodings (range : CharRange) : List (List ByteRange) :=
  ((ofOneSize.filterMap range.inter?).flatMap fun part =>
    part.cut (encodedSize part.first - 1) 64).map fun part =>
    List.zipWith ByteRange.mk (encode part.first) (encode part.last)

end CharRange

namespace CharSet

/-- The rows for all ranges of a set. -/
def encodings (set : CharSet) : List (List ByteRange) :=
  set.ranges.flatMap CharRange.encodings

/-- Whether the set holds nothing beyond ASCII. -/
def isAscii (set : CharSet) : Bool :=
  set.ranges.all (·.last < 0x80)

end CharSet

end PipeQuery
